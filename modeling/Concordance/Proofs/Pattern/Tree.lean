import Concordance.Pattern.Tree

/-! What a tree of items says: its terms from left to right, and the sequences of conditions that
are left once one branch is picked at every choice. Parentheses that say nothing change neither. -/

namespace Concordance.Pattern

def combine {α : Type} (heads tails : List (List α)) : List (List α) :=
  heads.flatMap fun head => tails.map (head ++ ·)

section Combine
variable {α β : Type}

@[simp] theorem empty_combine (tails : List (List α)) : combine [[]] tails = tails := by
  simp [combine]

@[simp] theorem combine_empty (heads : List (List α)) : combine heads [[]] = heads := by
  simp [combine]

theorem append_combine (first second tails : List (List α)) :
    combine (first ++ second) tails = combine first tails ++ combine second tails := by
  simp [combine]

theorem combine_assoc (first second third : List (List α)) :
    combine (combine first second) third = combine first (combine second third) := by
  simp only [combine, List.flatMap_assoc, List.flatMap_map, List.map_flatMap, List.map_map,
    Function.comp_def, List.append_assoc]

theorem map_combine (f : α → β) (heads tails : List (List α)) :
    (combine heads tails).map (List.map f) =
      combine (heads.map (List.map f)) (tails.map (List.map f)) := by
  simp [combine, List.map_flatMap, List.flatMap_map, Function.comp_def]

end Combine

/-- A lone choice among alternatives stands for its branches, so the two are not told apart. -/
def Chain.isChoice : Chain → Bool
  | [.choice _ _] => true
  | _ => false

/-- Alternatives as a chain: the only one, or a choice between several. -/
def Chain.ofBranches (position : Nat) : List Chain → Chain
  | [chain] => chain
  | branches => [.choice branches position]

namespace Item

mutual

def leaves : Item → List (Condition × Nat)
  | .term condition position => [(condition, position)]
  | .choice branches _ => leavesOfBranches branches

def leavesOfChain : List Item → List (Condition × Nat)
  | [] => []
  | item :: rest => leaves item ++ leavesOfChain rest

def leavesOfBranches : List (List Item) → List (Condition × Nat)
  | [] => []
  | chain :: rest => leavesOfChain chain ++ leavesOfBranches rest

end

mutual

/-- The sequences of conditions that an item stands for, in the order of its branches. -/
def readings : Item → List (List Condition)
  | .term condition _ => [[condition]]
  | .choice branches _ => readingsOfBranches branches

def readingsOfChain : List Item → List (List Condition)
  | [] => [[]]
  | item :: rest => combine (readings item) (readingsOfChain rest)

def readingsOfBranches : List (List Item) → List (List Condition)
  | [] => []
  | chain :: rest => readingsOfChain chain ++ readingsOfBranches rest

end

mutual

/-- Every choice has two branches or more; no branch is empty, and none is a choice by itself. -/
def Normal : Item → Prop
  | .term _ _ => True
  | .choice branches _ => 2 ≤ branches.length ∧ NormalBranches branches

def NormalChain : List Item → Prop
  | [] => True
  | item :: rest => Normal item ∧ NormalChain rest

def NormalBranches : List (List Item) → Prop
  | [] => True
  | chain :: rest =>
    (chain ≠ [] ∧ Chain.isChoice chain = false ∧ NormalChain chain) ∧ NormalBranches rest

end

theorem leavesOfChain_append (first second : Chain) :
    leavesOfChain (first ++ second) = leavesOfChain first ++ leavesOfChain second := by
  induction first with
  | nil => rfl
  | cons item rest ih => simp [leavesOfChain, ih]

theorem leavesOfBranches_append (first second : List Chain) :
    leavesOfBranches (first ++ second) = leavesOfBranches first ++ leavesOfBranches second := by
  induction first with
  | nil => rfl
  | cons chain rest ih => simp [leavesOfBranches, ih]

theorem readingsOfChain_append (first second : Chain) :
    readingsOfChain (first ++ second) =
      combine (readingsOfChain first) (readingsOfChain second) := by
  induction first with
  | nil => simp [readingsOfChain]
  | cons item rest ih => simp [readingsOfChain, ih, combine_assoc]

theorem readingsOfBranches_append (first second : List Chain) :
    readingsOfBranches (first ++ second) =
      readingsOfBranches first ++ readingsOfBranches second := by
  induction first with
  | nil => rfl
  | cons chain rest ih => simp [readingsOfBranches, ih]

theorem normalChain_append {first second : Chain} (hfirst : NormalChain first)
    (hsecond : NormalChain second) : NormalChain (first ++ second) := by
  induction first with
  | nil => exact hsecond
  | cons item rest ih => exact ⟨hfirst.1, ih hfirst.2⟩

theorem normalBranches_append {first second : List Chain} (hfirst : NormalBranches first)
    (hsecond : NormalBranches second) : NormalBranches (first ++ second) := by
  induction first with
  | nil => exact hsecond
  | cons chain rest ih => exact ⟨hfirst.1, ih hfirst.2⟩

end Item

namespace Chain

open Item

theorem leaves_branches (chain : Chain) :
    leavesOfBranches chain.branches = leavesOfChain chain := by
  unfold branches
  split <;> simp [leavesOfBranches, leavesOfChain, leaves]

theorem leaves_ofBranches (position : Nat) (branches : List Chain) :
    leavesOfChain (ofBranches position branches) = leavesOfBranches branches := by
  unfold ofBranches
  split <;> simp [leavesOfBranches, leavesOfChain, leaves]

theorem readings_branches (chain : Chain) :
    readingsOfBranches chain.branches = readingsOfChain chain := by
  unfold branches
  split <;> simp [readingsOfBranches, readingsOfChain, readings]

theorem readings_ofBranches (position : Nat) (branches : List Chain) :
    readingsOfChain (ofBranches position branches) = readingsOfBranches branches := by
  unfold ofBranches
  split <;> simp [readingsOfBranches, readingsOfChain, readings]

theorem branches_ne_nil {chain : Chain} (h : NormalChain chain) : chain.branches ≠ [] := by
  unfold branches
  split
  · have hmany := h.1.1
    exact List.ne_nil_of_length_pos (by omega)
  · simp

theorem normal_branches {chain : Chain} (hne : chain ≠ []) (h : NormalChain chain) :
    NormalBranches chain.branches := by
  unfold branches
  split
  · exact h.1.2
  · rename_i hlone
    refine ⟨⟨hne, ?_, h⟩, trivial⟩
    unfold isChoice
    split
    · exact absurd rfl (hlone _ _)
    · rfl

theorem ofBranches_ne_nil {branches : List Chain} (position : Nat) (h : NormalBranches branches) :
    ofBranches position branches ≠ [] := by
  unfold ofBranches
  split
  · exact h.1.1
  · simp

theorem normal_ofBranches {branches : List Chain} (position : Nat) (hne : branches ≠ [])
    (h : NormalBranches branches) : NormalChain (ofBranches position branches) := by
  unfold ofBranches
  split
  · exact h.1.2.2
  · rename_i hmany
    refine ⟨⟨?_, h⟩, trivial⟩
    match branches with
    | [] => exact absurd rfl hne
    | [chain] => exact absurd rfl (hmany chain)
    | _ :: _ :: _ => simp

end Chain
end Concordance.Pattern
