import Mathlib.Data.List.Forall2
import Concordance.Proofs.Pattern.Parsing

/-! The parser accepts exactly the texts of its grammar. Main statement: a pattern is read if and
only if its lexemes have a derivation and each of its terms stands for a condition; the terms of the
tree are then those of the text. -/

namespace Concordance.Pattern

open Phrase

def readingFaults : List Fault :=
  [.emptyPattern, .unbalancedParentheses, .danglingAlternation, .emptyGroup] ++ termFaults

section
variable {lexicon : Option Lexicon} {refusal : Refusal}

theorem readLexeme_fault {groups : Groups} {lexeme : Lexeme}
    (h : readLexeme lexicon groups lexeme = .error refusal) :
    refusal.fault ∈ readingFaults ∧ refusal.fault ≠ .emptyPattern := by
  obtain ⟨group, outer⟩ := groups
  rcases lexeme.kinds with ho | hc | hcomma | hterm
  · rw [readLexeme_opener ho] at h
    cases h
  · rw [readLexeme_closer hc] at h
    simp only [readClose] at h
    split at h
    · split at h <;> cases h <;> simp [readingFaults]
    · split at h <;> cases h
      simp [readingFaults]
  · rw [readLexeme_comma hcomma] at h
    simp only [readComma] at h
    split at h <;> cases h
    simp [readingFaults]
  · rw [readLexeme_term hterm] at h
    rcases bind_eq_error.mp h with hmeans | ⟨c, -, hread⟩
    · have hfault := term_fault hmeans
      refine ⟨List.mem_append_right _ hfault, fun hempty => ?_⟩
      rw [hempty] at hfault
      exact absurd hfault (by decide)
    · cases hread

theorem foldlM_fault {groups : Groups} {lexemes : List Lexeme}
    (h : lexemes.foldlM (readLexeme lexicon) groups = .error refusal) :
    refusal.fault ∈ readingFaults ∧ refusal.fault ≠ .emptyPattern := by
  induction lexemes generalizing groups with
  | nil => cases h
  | cons lexeme rest ih =>
    rw [List.foldlM_cons] at h
    rcases bind_eq_error.mp h with hnext | ⟨next, -, hrest⟩
    · exact readLexeme_fault hnext
    · exact ih hrest

theorem HoldAll.readEnd_error {groups : Groups} {lexemes : List Lexeme} {source : String}
    (h : HoldAll lexicon groups lexemes) (hne : lexemes ≠ [])
    (hend : readEnd source groups = .error refusal) :
    refusal.fault = .danglingAlternation ∨ refusal.fault = .unbalancedParentheses := by
  obtain ⟨group, outer⟩ := groups
  simp only [readEnd] at hend
  split at hend
  · cases hend
    exact .inl rfl
  · cases hend
    exact .inr rfl
  · rename_i hchain hcomma hopener
    have hnil : group.chain = [] := by simpa using hchain
    -- The last way out: no item, no comma, no parenthesis. Then nothing has been read at all.
    cases h with
    | whole _ hholds =>
      cases hholds with
      | nothing => exact absurd rfl hne
      | first d _ hd => exact absurd (hd ▸ hnil) (d.normal_chain _).1
      | comma _ _ _ _ _ hsome => simp [hcomma] at hsome
      | later _ _ d _ _ hd => exact absurd (hd ▸ hnil) (d.normal_chain _).1
    | inside _ _ hsome _ => simp [hopener] at hsome
  · cases hend

theorem parse_error_fault {source : String} (hne : Lexeme.all source ≠ [])
    (h : parse lexicon source = .error refusal) :
    refusal.fault ∈ readingFaults ∧ refusal.fault ≠ .emptyPattern := by
  rw [parse_of_ne_nil hne] at h
  rcases bind_eq_error.mp h with hread | ⟨groups, hread, hend⟩
  · exact foldlM_fault hread
  · obtain ⟨hholds, -⟩ := HoldAll.start.foldlM hread
    rcases hholds.readEnd_error hne hend with hfault | hfault <;> simp [readingFaults, hfault]

end

/-- A pattern is read if and only if its lexemes have a derivation and its terms all stand for
conditions, which are then the leaves of its tree. Any other text is refused, and as an empty
pattern only if it has no lexeme: a group that ends without an item has a fault of its own. -/
theorem parse_accepts_grammar (lexicon : Option Lexicon) (source : String) :
    ((∃ chain, parse lexicon source = .ok chain) ↔
      (∃ d : Alternatives, d.lexemes = Lexeme.all source) ∧
        ∀ lexeme ∈ terms (Lexeme.all source), ∃ c, lexeme.term lexicon = .ok c) ∧
    (∀ chain, parse lexicon source = .ok chain →
      List.Forall₂ (fun leaf lexeme =>
          lexeme.term lexicon = .ok leaf.1 ∧ leaf.2 = lexeme.position)
        (Item.leavesOfChain chain) (terms (Lexeme.all source))) ∧
    ((∀ chain, parse lexicon source ≠ .ok chain) →
      ∃ refusal, parse lexicon source = .error refusal ∧ refusal.fault ∈ readingFaults) ∧
    (∀ construct, parse lexicon source = .error ⟨.emptyPattern, construct⟩ ↔
      Lexeme.all source = [] ∧ construct = ⟨source, 0⟩) := by
  have hterms : (∀ lexeme ∈ terms (Lexeme.all source), ∃ c, lexeme.term lexicon = .ok c) ↔
      Meaningful lexicon (Lexeme.all source) := by
    simp [terms, Meaningful]
  refine ⟨?_, ?_, ?_, ?_⟩
  · rw [hterms]
    constructor
    · rintro ⟨chain, hchain⟩
      obtain ⟨hmeaningful, d, hd, -⟩ := parse_eq_ok_iff.mp hchain
      exact ⟨⟨d, hd⟩, hmeaningful⟩
    · rintro ⟨⟨d, hd⟩, hmeaningful⟩
      exact ⟨_, parse_eq_ok_iff.mpr ⟨hmeaningful, d, hd, rfl⟩⟩
  · intro chain hchain
    obtain ⟨hmeaningful, d, hd, rfl⟩ := parse_eq_ok_iff.mp hchain
    rw [d.leaves, hd, List.forall₂_map_left_iff, List.forall₂_same]
    intro lexeme hmem
    exact ⟨term_eq_meaning (hterms.mpr hmeaningful lexeme hmem), rfl⟩
  · intro hnone
    cases h : parse lexicon source with
    | ok chain => exact absurd h (hnone chain)
    | error refusal =>
      refine ⟨refusal, rfl, ?_⟩
      by_cases hnil : Lexeme.all source = []
      · rw [parse_nil hnil] at h
        cases h
        simp [readingFaults]
      · exact (parse_error_fault hnil h).1
  · intro construct
    constructor
    · intro h
      by_cases hnil : Lexeme.all source = []
      · rw [parse_nil hnil] at h
        cases h
        exact ⟨hnil, rfl⟩
      · exact absurd rfl (parse_error_fault hnil h).2
    · rintro ⟨hnil, rfl⟩
      exact parse_nil hnil

end Concordance.Pattern
