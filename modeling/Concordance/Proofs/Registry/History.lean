import Mathlib.Data.List.Forall2
import Concordance.Proofs.Registry.Built
import Concordance.Proofs.Registry.Statement

/-! What becomes of a registry as patterns are added to it and forgotten. An addition that is
refused does nothing; a block does what its statements do one by one, up to the first line that
fails; and where definitions are kept, a name has the same pattern until it is forgotten. -/

namespace Concordance.Registry

inductive Call
  | add (name source : String)
  | addBlock (block : String)
  | forget (names : List String)

def Call.Forgets (name : String) : Call → Prop
  | .forget names => names = [] ∨ name ∈ names
  | _ => False

def perform (r : Registry) : Call → Registry × Option Error
  | .add name source =>
    match r.add name source with
    | .ok (_, r') => (r', none)
    | .error e => (r, some e)
  | .addBlock block => r.addBlock block
  | .forget names => (r.forget names, none)

def performAll (r : Registry) (calls : List Call) : Registry :=
  calls.foldl (fun r call => (r.perform call).1) r

def addAll (r : Registry) : List (String × String) → Except Error Registry
  | [] => .ok r
  | (name, source) :: rest => do
    let (_, r) ← r.add name source
    r.addAll rest

inductive Refuses (r : Registry) (name source : String) : Error → Prop
  | defined : r.keepsDefinitions = true → name ∈ r.names →
      Refuses r name source (.alreadyDefined name)
  | compile {e : Pattern.CompileError} : ¬ (r.keepsDefinitions = true ∧ name ∈ r.names) →
      Pattern.compile r.lexicon source = .error e → Refuses r name source (.compile e)

def said (number : Nat) (lines : List (List Char)) : List (List Char × Nat) :=
  (lines.zipIdx number).filter fun line => !isSilent line.1

inductive Ends (r : Registry) : List (List Char × Nat) → Option Error → Prop
  | read : Ends r [] none
  | malformed {line : List Char} {number : Nat} {rest : List (List Char × Nat)} :
      (∀ name pattern, ¬ States line name pattern) → Ends r ((line, number) :: rest)
        (some (.malformedStatement number (String.ofList (Text.strip line))))
  | refused {line : List Char} {number : Nat} {rest : List (List Char × Nat)}
      {name pattern : String} {e : Error} : States line name pattern →
      r.Refuses name pattern e → Ends r ((line, number) :: rest) (some e)

/-- Lines lead from a registry to another: some of them, in front, state what is added to it one by
one, and the reading ends at those behind. -/
def Leads (r : Registry) (lines : List (List Char × Nat)) (r' : Registry)
    (failure : Option Error) : Prop :=
  ∃ carried rest pairs, lines = carried ++ rest ∧
    List.Forall₂ (fun line pair => States line.1 pair.1 pair.2) carried pairs ∧
    r.addAll pairs = .ok r' ∧ r'.Ends rest failure

section
variable {r r' : Registry} {name source : String} {e : Error}

theorem add_eq_error_iff : r.add name source = .error e ↔ r.Refuses name source e := by
  have hdefined : (r.keepsDefinitions && (r.patterns.get? name).isSome) = true ↔
      r.keepsDefinitions = true ∧ name ∈ r.names := by
    rw [Bool.and_eq_true, names, Named.mem_names_iff]
  rw [add]
  split
  next hkept =>
    obtain ⟨hkeeps, hname⟩ := hdefined.mp hkept
    constructor
    · intro h
      cases h
      exact .defined hkeeps hname
    · intro h
      cases h with
      | defined => rfl
      | compile hnot _ => exact absurd ⟨hkeeps, hname⟩ hnot
  next hnew =>
    rw [hdefined] at hnew
    constructor
    · intro h
      split at h
      · cases h
      · cases h
        exact .compile hnew ‹_›
    · intro h
      cases h with
      | defined hkeeps hname => exact absurd ⟨hkeeps, hname⟩ hnew
      | compile _ hcompile => rw [hcompile]

theorem get?_of_add {p : Pattern} (h : r.add name source = .ok (p, r'))
    (hkeeps : r.keepsDefinitions = true) : r.patterns.get? name = none := by
  by_contra hsome
  have hname : name ∈ r.names :=
    (Named.mem_names_iff _ _).mpr (Option.isSome_iff_ne_none.mpr hsome)
  rw [add_eq_error_iff.mpr (.defined hkeeps hname)] at h
  cases h

/-! ## Blocks -/

theorem said_cons (number : Nat) (line : List Char) (lines : List (List Char)) :
    said number (line :: lines) =
      if isSilent line then said (number + 1) lines
      else (line, number) :: said (number + 1) lines := by
  rw [said, List.zipIdx_cons, List.filter_cons]
  cases isSilent line <;> rfl

theorem Leads.cons {p : Pattern} {line : List Char} {number : Nat} {r'' : Registry}
    {lines : List (List Char × Nat)} {failure : Option Error} (hstates : States line name source)
    (hadd : r.add name source = .ok (p, r')) (h : r'.Leads lines r'' failure) :
    r.Leads ((line, number) :: lines) r'' failure := by
  obtain ⟨carried, rest, pairs, rfl, hpairs, hall, hends⟩ := h
  refine ⟨(line, number) :: carried, rest, (name, source) :: pairs, rfl, .cons hstates hpairs, ?_,
    hends⟩
  rw [addAll, hadd]
  exact hall

theorem Ends.leads {lines : List (List Char × Nat)} {failure : Option Error}
    (h : r.Ends lines failure) : r.Leads lines r failure :=
  ⟨[], lines, [], rfl, .nil, rfl, h⟩

theorem leads_addLines (r : Registry) (number : Nat) (lines : List (List Char)) :
    r.Leads (said number lines) (r.addLines number lines).1 (r.addLines number lines).2 := by
  induction lines generalizing r number with
  | nil => exact Ends.read.leads
  | cons line lines ih =>
    rw [said_cons, addLines, addLine]
    split
    · exact ih r (number + 1)
    cases hstatement : statement? line with
    | none => exact (Ends.malformed (statement?_eq_none_iff.mp hstatement)).leads
    | some statement =>
      obtain ⟨name, pattern⟩ := statement
      have hstates := statement?_eq_some_iff.mp hstatement
      cases hadd : r.add name pattern with
      | error e =>
        dsimp only
        rw [hadd]
        exact (Ends.refused hstates (add_eq_error_iff.mp hadd)).leads
      | ok added =>
        dsimp only
        rw [hadd]
        exact .cons hstates hadd (ih added.2 (number + 1))

/-! ## Invariants -/

section Invariant
variable {P : Registry → Prop}
  (hadd : ∀ {r r' : Registry} {name source : String} {p : Pattern}, P r →
    r.add name source = .ok (p, r') → P r')
include hadd

theorem addAll_invariant {pairs : List (String × String)} (h : P r)
    (hall : r.addAll pairs = .ok r') : P r' := by
  induction pairs generalizing r with
  | nil =>
    cases hall
    exact h
  | cons pair pairs ih =>
    obtain ⟨name, source⟩ := pair
    rw [addAll] at hall
    cases hfirst : r.add name source with
    | error e =>
      rw [hfirst] at hall
      cases hall
    | ok added =>
      rw [hfirst] at hall
      exact ih (hadd h hfirst) hall

theorem perform_invariant {call : Call} (h : P r)
    (hforget : ∀ names, call = .forget names → P (r.forget names)) : P (r.perform call).1 := by
  cases call with
  | add name source =>
    rw [perform]
    split
    · exact hadd h ‹_›
    · exact h
  | addBlock block =>
    obtain ⟨_, _, _, -, -, hall, -⟩ := leads_addLines r 1 (Text.lines block.toList)
    exact addAll_invariant hadd h hall
  | forget names => exact hforget names rfl

/-- What additions keep, and what the calls that forget keep, all calls keep. -/
theorem performAll_invariant {calls : List Call} (h : P r)
    (hforget : ∀ names, .forget names ∈ calls → ∀ {r : Registry}, P r → P (r.forget names)) :
    P (r.performAll calls) := by
  induction calls generalizing r with
  | nil => exact h
  | cons call calls ih =>
    refine ih (perform_invariant hadd h fun names heq => ?_) fun names hmem =>
      hforget names (List.mem_cons_of_mem _ hmem)
    exact hforget names (heq ▸ List.mem_cons_self) h

end Invariant

/-! ## Kept definitions -/

structure Binds (r : Registry) (name : String) (p : Pattern) : Prop where
  keeps : r.keepsDefinitions = true
  get?_eq : r.patterns.get? name = some p

theorem Binds.add {p p' : Pattern} {other : String} (h : r.Binds name p)
    (hadd : r.add other source = .ok (p', r')) : r'.Binds name p := by
  have hfresh := get?_of_add hadd h.keeps
  obtain ⟨-, rfl⟩ := add_eq_ok hadd
  have hne : other ≠ name := by
    rintro rfl
    rw [h.get?_eq] at hfresh
    cases hfresh
  exact ⟨h.keeps, by rw [Named.get?_put, if_neg hne, h.get?_eq]⟩

theorem Binds.forget {p : Pattern} {names : List String} (h : r.Binds name p)
    (hnames : ¬ (Call.forget names).Forgets name) : (r.forget names).Binds name p := by
  obtain ⟨hne, hname⟩ := not_or.mp hnames
  refine ⟨h.keeps, ?_⟩
  rw [Registry.forget, if_neg (mt List.isEmpty_iff.mp hne), Named.get?_without, if_neg hname,
    h.get?_eq]

theorem Binds.performAll {p : Pattern} {calls : List Call} (h : r.Binds name p)
    (hcalls : ∀ call ∈ calls, ¬ call.Forgets name) : (r.performAll calls).Binds name p :=
  performAll_invariant Binds.add h fun _ hmem {_} hbinds => hbinds.forget (hcalls _ hmem)

/-- What is refused is not done: an addition that fails leaves the registry as it was, a block adds
what its lines state up to the first that fails, and a kept definition stands until its name is
forgotten. -/
theorem calls_atomic (r : Registry) :
    (∀ name source e,
      ((r.perform (.add name source)).2 = some e ↔ r.Refuses name source e) ∧
      (r.Refuses name source e → (r.perform (.add name source)).1 = r)) ∧
    (∀ block : String, r.Leads (said 1 (Text.lines block.toList))
      (r.perform (.addBlock block)).1 (r.perform (.addBlock block)).2) ∧
    (r.keepsDefinitions = true → ∀ (calls : List Call) (name : String) (p : Pattern),
      r.patterns.get? name = some p → (∀ call ∈ calls, ¬ call.Forgets name) →
      (r.performAll calls).patterns.get? name = some p) := by
  refine ⟨fun name source e => ?_, fun block => leads_addLines r 1 _,
    fun hkeeps calls name p hget hcalls => (Binds.performAll ⟨hkeeps, hget⟩ hcalls).get?_eq⟩
  rw [perform, ← add_eq_error_iff]
  cases r.add name source with
  | ok added => exact ⟨⟨nofun, nofun⟩, nofun⟩
  | error f =>
    refine ⟨⟨fun h => ?_, fun h => ?_⟩, fun _ => rfl⟩
    · rw [Option.some.inj h]
    · rw [Except.error.inj h]

theorem calls_atomic_redefined : ∃ (r : Registry) (p : Pattern),
    r.keepsDefinitions = true ∧ r.patterns.get? "verb" = some p ∧ p.display = "VERB" ∧
    (r.perform (.add "verb" "ADV")).2 = some (.alreadyDefined "verb") ∧
    r.Refuses "verb" "ADV" (.alreadyDefined "verb") ∧ (r.perform (.add "verb" "ADV")).1 = r ∧
    ((r.perform (.addBlock " # note\n\nname -> NAME\nverb -> ADV\nlast -> (a")).1.names,
      (r.perform (.addBlock " # note\n\nname -> NAME\nverb -> ADV\nlast -> (a")).2) =
      (["verb", "name"], some (.alreadyDefined "verb")) ∧
    r.Leads [("name -> NAME".toList, 3), ("verb -> ADV".toList, 4), ("last -> (a".toList, 5)]
      (r.perform (.addBlock " # note\n\nname -> NAME\nverb -> ADV\nlast -> (a")).1
      (r.perform (.addBlock " # note\n\nname -> NAME\nverb -> ADV\nlast -> (a")).2 ∧
    (r.performAll [.add "verb" "ADV", .addBlock "name -> NAME\nverb -> ADV", .add "last" "(a",
      .forget ["name"]]).patterns.get? "verb" = some p := by
  have hshown : ((empty none none true ⟨true, false⟩).add "verb" "VERB").toOption.map (fun added =>
      let broken := added.2.perform (.addBlock " # note\n\nname -> NAME\nverb -> ADV\nlast -> (a")
      ((added.2.patterns.get? "verb").map Pattern.display, added.2.keepsDefinitions,
        (added.2.perform (.add "verb" "ADV")).2, broken.1.names, broken.2)) =
      some (some "VERB", true, some (.alreadyDefined "verb"), ["verb", "name"],
        some (.alreadyDefined "verb")) := by
    decide +kernel
  have hsaid : said 1 (Text.lines
      " # note\n\nname -> NAME\nverb -> ADV\nlast -> (a".toList) =
      [("name -> NAME".toList, 3), ("verb -> ADV".toList, 4), ("last -> (a".toList, 5)] := by
    decide +kernel
  obtain ⟨⟨_, r⟩, -, hr⟩ := Option.map_eq_some_iff.mp hshown
  obtain ⟨hverb, hkeeps, hagain, hnames, hbroken⟩ := by simpa only [Prod.mk.injEq] using hr
  obtain ⟨p, hget, hdisplay⟩ := Option.map_eq_some_iff.mp hverb
  obtain ⟨hrefused, hblock, hkept⟩ := calls_atomic r
  obtain ⟨hreason, hstays⟩ := hrefused "verb" "ADV" (.alreadyDefined "verb")
  refine ⟨r, p, hkeeps, hget, hdisplay, hagain, hreason.mp hagain, hstays (hreason.mp hagain),
    Prod.ext hnames hbroken, hsaid ▸ hblock _, hkept hkeeps _ _ _ hget ?_⟩
  simp [Call.Forgets]

end
end Concordance.Registry
