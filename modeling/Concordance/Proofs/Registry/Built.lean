import Concordance.Registry.Block

/-! The registries that there are, and that each of their patterns has been compiled. -/

namespace Concordance.Registry

/-- A registry is empty at first. Patterns are added to it, one by one or by a block that may break
off, and forgotten; how texts are read for it, and from which lexicon its patterns are compiled, may
be set at any time. -/
inductive Built : Registry → Prop
  | empty (lexicon : Option Lexicon) (tagger : Option Tagger) (keepsDefinitions : Bool)
      (options : Tokenizer.Options) : Built (empty lexicon tagger keepsDefinitions options)
  | set {r : Registry} (lexicon : Option Lexicon) (tagger : Option Tagger)
      (keepsDefinitions : Bool) (options : Tokenizer.Options) : Built r →
      Built ⟨lexicon, tagger, keepsDefinitions, options, r.patterns⟩
  | add {r r' : Registry} {name source : String} {p : Pattern} : Built r →
      r.add name source = .ok (p, r') → Built r'
  | addBlock {r : Registry} (block : String) : Built r → Built (r.addBlock block).1
  | forget {r : Registry} (names : List String) : Built r → Built (r.forget names)

def Compiled (r : Registry) : Prop :=
  ∀ name p, r.patterns.get? name = some p → ∃ lexicon source, Pattern.compile lexicon source = .ok p

section
variable {r r' : Registry}

theorem lookup_of_mem_names {name : String} (h : name ∈ r.names) :
    ∃ p, r.patterns.get? name = some p ∧ r.lookup name = .ok p := by
  obtain ⟨p, hget⟩ := Option.isSome_iff_exists.mp ((Named.mem_names_iff _ _).mp h)
  exact ⟨p, hget, by rw [lookup, hget]⟩

theorem lookup_of_not_mem_names {name : String} (h : name ∉ r.names) :
    r.lookup name = .error (.unknownPattern name) := by
  rw [names, Named.mem_names_iff, Bool.not_eq_true, Option.isSome_eq_false_iff,
    Option.isNone_iff_eq_none] at h
  rw [lookup, h]

theorem add_eq_ok {name source : String} {p : Pattern} (h : r.add name source = .ok (p, r')) :
    Pattern.compile r.lexicon source = .ok p ∧
      r' = { r with patterns := r.patterns.put name p } := by
  unfold add at h
  split at h
  · cases h
  split at h
  · cases h
    exact ⟨by assumption, rfl⟩
  · cases h

theorem lookup_of_add {name source : String} {p : Pattern} (h : r.add name source = .ok (p, r')) :
    r'.lookup name = .ok p := by
  obtain ⟨-, rfl⟩ := add_eq_ok h
  simp [lookup]

theorem Compiled.add {name source : String} {p : Pattern} (hr : r.Compiled)
    (h : r.add name source = .ok (p, r')) : r'.Compiled := by
  obtain ⟨hcompile, rfl⟩ := add_eq_ok h
  intro other p' hget
  rw [Named.get?_put] at hget
  split at hget
  · cases hget
    exact ⟨_, _, hcompile⟩
  · exact hr other p' hget

theorem Compiled.addLine {number : Nat} {line : List Char} (hr : r.Compiled)
    (h : r.addLine number line = .ok r') : r'.Compiled := by
  unfold Registry.addLine at h
  split at h
  · cases h
    exact hr
  split at h
  · cases h
  · cases hadd : r.add _ _ with
    | error e =>
      rw [hadd] at h
      cases h
    | ok added =>
      rw [hadd] at h
      cases h
      exact hr.add hadd

theorem Compiled.addLines {number : Nat} {lines : List (List Char)} (hr : r.Compiled) :
    (r.addLines number lines).1.Compiled := by
  induction lines generalizing r number with
  | nil => exact hr
  | cons line rest ih =>
    rw [Registry.addLines]
    cases hline : r.addLine number line with
    | ok r' => exact ih (hr.addLine hline)
    | error e => exact hr

theorem Built.compiled (h : Built r) : r.Compiled := by
  induction h with
  | empty => nofun
  | set _ _ _ _ _ ih => exact ih
  | add _ hadd ih => exact ih.add hadd
  | addBlock block _ ih => exact ih.addLines
  | forget names _ ih =>
    intro name p hget
    unfold Registry.forget at hget
    dsimp only at hget
    split at hget
    · cases hget
    · rw [Named.get?_without] at hget
      split at hget
      · cases hget
      · exact ih name p hget

end
end Concordance.Registry
