import Concordance.Pattern.Parser
import Concordance.Proofs.Pattern.Tree

/-! The grammar of patterns, by its derivations. A derivation spells out the lexemes it covers, the
sequences of terms it leaves once a branch is picked at every list of alternatives, and, given what
each term stands for, the tree. -/

namespace Concordance.Pattern

def Lexeme.isMark (lexeme : Lexeme) : Bool :=
  lexeme.text == "(" || lexeme.text == ")" || lexeme.text == ","

theorem Lexeme.kinds (lexeme : Lexeme) : lexeme.text = "(" ∨ lexeme.text = ")" ∨
    lexeme.text = "," ∨ lexeme.isMark = false := by
  simp only [Lexeme.isMark, Bool.or_eq_false_iff, beq_eq_false_iff_ne]
  by_cases ho : lexeme.text = "("
  · exact .inl ho
  by_cases hc : lexeme.text = ")"
  · exact .inr (.inl hc)
  by_cases hcomma : lexeme.text = ","
  · exact .inr (.inr (.inl hcomma))
  exact .inr (.inr (.inr ⟨⟨ho, hc⟩, hcomma⟩))

namespace Phrase

mutual

/-- A term, or alternatives between parentheses. -/
inductive Atom
  | term (lexeme : Lexeme) (isTerm : lexeme.isMark = false)
  | group (opener : Lexeme) (inner : Alternatives) (closer : Lexeme)
      (opens : opener.text = "(") (closes : closer.text = ")")

inductive Sequence
  | one (atom : Atom)
  | snoc (before : Sequence) (atom : Atom)

/-- One sequence or more, with commas between them. -/
inductive Alternatives
  | one (sequence : Sequence)
  | snoc (before : Alternatives) (comma : Lexeme) (sequence : Sequence)
      (separates : comma.text = ",")

end

mutual

def Atom.lexemes : Atom → List Lexeme
  | .term lexeme _ => [lexeme]
  | .group opener inner closer _ _ => opener :: (inner.lexemes ++ [closer])

def Sequence.lexemes : Sequence → List Lexeme
  | .one atom => atom.lexemes
  | .snoc before atom => before.lexemes ++ atom.lexemes

def Alternatives.lexemes : Alternatives → List Lexeme
  | .one sequence => sequence.lexemes
  | .snoc before comma sequence _ => before.lexemes ++ comma :: sequence.lexemes

end

mutual

/-- The sequences of terms that are left once one branch is picked at every list of alternatives,
in the order of the branches. -/
def Atom.readings : Atom → List (List Lexeme)
  | .term lexeme _ => [[lexeme]]
  | .group _ inner _ _ _ => inner.readings

def Sequence.readings : Sequence → List (List Lexeme)
  | .one atom => atom.readings
  | .snoc before atom => combine before.readings atom.readings

def Alternatives.readings : Alternatives → List (List Lexeme)
  | .one sequence => sequence.readings
  | .snoc before _ sequence _ => before.readings ++ sequence.readings

end

mutual

def Atom.chain (condition : Lexeme → Condition) : Atom → Chain
  | .term lexeme _ => [.term (condition lexeme) lexeme.position]
  | .group opener inner _ _ _ => Chain.ofBranches opener.position (inner.branches condition)

def Sequence.chain (condition : Lexeme → Condition) : Sequence → Chain
  | .one atom => atom.chain condition
  | .snoc before atom => before.chain condition ++ atom.chain condition

def Alternatives.branches (condition : Lexeme → Condition) : Alternatives → List Chain
  | .one sequence => (sequence.chain condition).branches
  | .snoc before _ sequence _ =>
    before.branches condition ++ (sequence.chain condition).branches

end

def Alternatives.chain (condition : Lexeme → Condition) (d : Alternatives) : Chain :=
  Chain.ofBranches 0 (d.branches condition)

def terms (lexemes : List Lexeme) : List Lexeme := lexemes.filter fun lexeme => !lexeme.isMark

theorem isMark_of_comma {lexeme : Lexeme} (h : lexeme.text = ",") : lexeme.isMark = true := by
  simp [Lexeme.isMark, h]

theorem isMark_of_opener {lexeme : Lexeme} (h : lexeme.text = "(") : lexeme.isMark = true := by
  simp [Lexeme.isMark, h]

theorem isMark_of_closer {lexeme : Lexeme} (h : lexeme.text = ")") : lexeme.isMark = true := by
  simp [Lexeme.isMark, h]

section
open Item
variable (condition : Lexeme → Condition)

mutual

theorem Atom.normal_chain (d : Atom) :
    d.chain condition ≠ [] ∧ NormalChain (d.chain condition) := by
  match d with
  | .term lexeme _ => exact ⟨by simp [Atom.chain], trivial, trivial⟩
  | .group opener inner _ _ _ =>
    obtain ⟨hne, hnormal⟩ := inner.normal_branches
    exact ⟨Chain.ofBranches_ne_nil _ hnormal, Chain.normal_ofBranches _ hne hnormal⟩

theorem Sequence.normal_chain (d : Sequence) :
    d.chain condition ≠ [] ∧ NormalChain (d.chain condition) := by
  match d with
  | .one atom => exact atom.normal_chain
  | .snoc before atom =>
    obtain ⟨hne, hnormal⟩ := before.normal_chain
    exact ⟨by simp [Sequence.chain, hne], normalChain_append hnormal atom.normal_chain.2⟩

theorem Alternatives.normal_branches (d : Alternatives) :
    d.branches condition ≠ [] ∧ NormalBranches (d.branches condition) := by
  match d with
  | .one sequence =>
    obtain ⟨hne, hnormal⟩ := sequence.normal_chain
    exact ⟨Chain.branches_ne_nil hnormal, Chain.normal_branches hne hnormal⟩
  | .snoc before comma sequence _ =>
    obtain ⟨hne, hbefore⟩ := before.normal_branches
    obtain ⟨hchain, hnormal⟩ := sequence.normal_chain
    exact ⟨by simp [Alternatives.branches, hne],
      normalBranches_append hbefore (Chain.normal_branches hchain hnormal)⟩

end

mutual

theorem Atom.leaves_chain (d : Atom) : leavesOfChain (d.chain condition) =
    (terms d.lexemes).map fun lexeme => (condition lexeme, lexeme.position) := by
  match d with
  | .term lexeme h =>
    simp [Atom.chain, Atom.lexemes, terms, h, leavesOfChain, leaves]
  | .group opener inner closer ho hc =>
    rw [Atom.chain, Chain.leaves_ofBranches, inner.leaves_branches]
    simp [Atom.lexemes, terms, isMark_of_opener ho, isMark_of_closer hc]

theorem Sequence.leaves_chain (d : Sequence) : leavesOfChain (d.chain condition) =
    (terms d.lexemes).map fun lexeme => (condition lexeme, lexeme.position) := by
  match d with
  | .one atom => exact atom.leaves_chain
  | .snoc before atom =>
    rw [Sequence.chain, leavesOfChain_append, before.leaves_chain, atom.leaves_chain]
    simp [Sequence.lexemes, terms]

theorem Alternatives.leaves_branches (d : Alternatives) :
    leavesOfBranches (d.branches condition) =
      (terms d.lexemes).map fun lexeme => (condition lexeme, lexeme.position) := by
  match d with
  | .one sequence =>
    rw [Alternatives.branches, Chain.leaves_branches]
    exact sequence.leaves_chain
  | .snoc before comma sequence h =>
    rw [Alternatives.branches, leavesOfBranches_append, Chain.leaves_branches,
      before.leaves_branches, sequence.leaves_chain]
    simp [Alternatives.lexemes, terms, isMark_of_comma h]

end

mutual

theorem Atom.readings_chain (d : Atom) :
    readingsOfChain (d.chain condition) = d.readings.map (List.map condition) := by
  match d with
  | .term lexeme _ => simp [Atom.chain, Atom.readings, readingsOfChain, Item.readings]
  | .group opener inner _ _ _ =>
    rw [Atom.chain, Chain.readings_ofBranches, inner.readings_branches, Atom.readings]

theorem Sequence.readings_chain (d : Sequence) :
    readingsOfChain (d.chain condition) = d.readings.map (List.map condition) := by
  match d with
  | .one atom => exact atom.readings_chain
  | .snoc before atom =>
    rw [Sequence.chain, readingsOfChain_append, before.readings_chain, atom.readings_chain,
      Sequence.readings, map_combine]

theorem Alternatives.readings_branches (d : Alternatives) :
    readingsOfBranches (d.branches condition) = d.readings.map (List.map condition) := by
  match d with
  | .one sequence =>
    rw [Alternatives.branches, Chain.readings_branches]
    exact sequence.readings_chain
  | .snoc before _ sequence _ =>
    rw [Alternatives.branches, readingsOfBranches_append, Chain.readings_branches,
      before.readings_branches, sequence.readings_chain, Alternatives.readings, List.map_append]

end

mutual

theorem Atom.mem_readings (d : Atom) {reading : List Lexeme} (h : reading ∈ d.readings)
    {lexeme : Lexeme} (hmem : lexeme ∈ reading) : lexeme ∈ terms d.lexemes := by
  match d with
  | .term other hterm =>
    cases List.mem_singleton.mp h
    cases List.mem_singleton.mp hmem
    simp [Atom.lexemes, terms, hterm]
  | .group opener inner closer _ _ =>
    have hinner := inner.mem_readings h hmem
    simp only [terms, List.mem_filter] at hinner ⊢
    exact ⟨by simp [Atom.lexemes, hinner.1], hinner.2⟩

theorem Sequence.mem_readings (d : Sequence) {reading : List Lexeme} (h : reading ∈ d.readings)
    {lexeme : Lexeme} (hmem : lexeme ∈ reading) : lexeme ∈ terms d.lexemes := by
  match d with
  | .one atom => exact atom.mem_readings h hmem
  | .snoc before atom =>
    obtain ⟨first, hfirst, second, hsecond, rfl⟩ : ∃ first ∈ before.readings,
        ∃ second ∈ atom.readings, first ++ second = reading := by
      simpa [Sequence.readings, combine] using h
    rw [Sequence.lexemes, terms, List.filter_append]
    rcases List.mem_append.mp hmem with hmem | hmem
    · exact List.mem_append_left _ (before.mem_readings hfirst hmem)
    · exact List.mem_append_right _ (atom.mem_readings hsecond hmem)

theorem Alternatives.mem_readings (d : Alternatives) {reading : List Lexeme}
    (h : reading ∈ d.readings) {lexeme : Lexeme} (hmem : lexeme ∈ reading) :
    lexeme ∈ terms d.lexemes := by
  match d with
  | .one sequence => exact sequence.mem_readings h hmem
  | .snoc before comma sequence hcomma =>
    rw [Alternatives.lexemes, terms, List.filter_append]
    rcases List.mem_append.mp h with h | h
    · exact List.mem_append_left _ (before.mem_readings h hmem)
    · refine List.mem_append_right _ ?_
      rw [List.filter_cons_of_neg (by simp [isMark_of_comma hcomma])]
      exact sequence.mem_readings h hmem

end

theorem Alternatives.normal (d : Alternatives) :
    d.chain condition ≠ [] ∧ NormalChain (d.chain condition) := by
  obtain ⟨hne, hnormal⟩ := d.normal_branches condition
  exact ⟨Chain.ofBranches_ne_nil _ hnormal, Chain.normal_ofBranches _ hne hnormal⟩

theorem Alternatives.leaves (d : Alternatives) : leavesOfChain (d.chain condition) =
    (terms d.lexemes).map fun lexeme => (condition lexeme, lexeme.position) := by
  rw [Alternatives.chain, Chain.leaves_ofBranches, d.leaves_branches]

theorem Alternatives.readings_eq (d : Alternatives) :
    readingsOfChain (d.chain condition) = d.readings.map (List.map condition) := by
  rw [Alternatives.chain, Chain.readings_ofBranches, d.readings_branches]

end

end Phrase
end Concordance.Pattern
