import Concordance.Condition.Basic

/-! Patterns as trees: chains of items, an item being a term or a choice between chains. -/

namespace Concordance.Pattern

inductive Item
  | term (condition : Condition) (position : Nat)
  /-- A choice between two chains or more. -/
  | choice (branches : List (List Item)) (position : Nat)

abbrev Chain := List Item

namespace Item

mutual

def display : Item → String
  | .term condition _ => condition.display
  | .choice branches _ => "(" ++ ", ".intercalate (displayBranches branches) ++ ")"

def displayItems : List Item → List String
  | [] => []
  | item :: rest => display item :: displayItems rest

def displayBranches : List (List Item) → List String
  | [] => []
  | chain :: rest => " ".intercalate (displayItems chain) :: displayBranches rest

end

mutual

def size : Item → Nat
  | .term _ _ => 1
  | .choice branches _ => sizeOfBranches branches + 1

def sizeOfChain : List Item → Nat
  | [] => 0
  | item :: rest => size item + sizeOfChain rest

def sizeOfBranches : List (List Item) → Nat
  | [] => 0
  | chain :: rest => sizeOfChain chain + sizeOfBranches rest

end

mutual

/-- What an occurrence has to meet for the item to take it: for a choice, the condition that heads
one of its branches. -/
def condition : Item → Condition
  | .term condition _ => condition
  | .choice branches _ => .either (headConditions branches)

def headConditions : List (List Item) → List Condition
  | [] => []
  | [] :: rest => headConditions rest
  | (item :: _) :: rest => condition item :: headConditions rest

end

end Item

def Chain.display (chain : Chain) : String := " ".intercalate (Item.displayItems chain)

/-- The branches that a chain adds to a list of alternatives. A chain that is one choice adds the
branches of the choice, as parentheses around alternatives among alternatives say nothing. -/
def Chain.branches : Chain → List Chain
  | [.choice branches _] => branches
  | chain => [chain]

end Concordance.Pattern
