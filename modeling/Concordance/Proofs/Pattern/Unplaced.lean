import Concordance.Proofs.Pattern.Compiled

/-! Patterns without what the text they were compiled from says besides: the text itself, and the
offsets in it. Nothing that a tree is laid out by, checked for or written as depends on either. -/

namespace Concordance.Pattern

open Item

def Node.unplaced (node : Node) : Node := { node with position := 0 }

def unplaced (p : Pattern) : Pattern := ⟨p.nodes.map Node.unplaced, ""⟩

namespace Item

mutual

def unplaced : Item → Item
  | .term condition _ => .term condition 0
  | .choice branches _ => .choice (unplacedBranches branches) 0

def unplacedChain : List Item → List Item
  | [] => []
  | item :: rest => unplaced item :: unplacedChain rest

def unplacedBranches : List (List Item) → List (List Item)
  | [] => []
  | chain :: rest => unplacedChain chain :: unplacedBranches rest

end

theorem unplacedChain_append (first second : Chain) :
    unplacedChain (first ++ second) = unplacedChain first ++ unplacedChain second := by
  induction first with
  | nil => rfl
  | cons item rest ih => rw [List.cons_append, unplacedChain, ih, unplacedChain, List.cons_append]

theorem unplacedBranches_append (first second : List Chain) :
    unplacedBranches (first ++ second) = unplacedBranches first ++ unplacedBranches second := by
  induction first with
  | nil => rfl
  | cons chain rest ih =>
    rw [List.cons_append, unplacedBranches, ih, unplacedBranches, List.cons_append]

@[simp] theorem isEmpty_unplacedChain (chain : Chain) :
    (unplacedChain chain).isEmpty = chain.isEmpty := by
  cases chain <;> rfl

@[simp] theorem length_unplacedBranches (branches : List Chain) :
    (unplacedBranches branches).length = branches.length := by
  induction branches with
  | nil => rfl
  | cons chain rest ih => rw [unplacedBranches, List.length_cons, ih, List.length_cons]

theorem isChoice_unplacedChain (chain : Chain) :
    Chain.isChoice (unplacedChain chain) = chain.isChoice := by
  match chain with
  | [] => rfl
  | [.term _ _] => rfl
  | [.choice _ _] => rfl
  | .term _ _ :: _ :: _ => rfl
  | .choice _ _ :: _ :: _ => rfl

mutual

@[simp] theorem size_unplaced (item : Item) : item.unplaced.size = item.size := by
  match item with
  | .term _ _ => rfl
  | .choice branches _ => rw [unplaced, size, sizeOfBranches_unplaced, size]

@[simp] theorem sizeOfChain_unplaced (chain : List Item) :
    sizeOfChain (unplacedChain chain) = sizeOfChain chain := by
  match chain with
  | [] => rfl
  | item :: rest =>
    rw [unplacedChain, sizeOfChain, size_unplaced, sizeOfChain_unplaced, sizeOfChain]

@[simp] theorem sizeOfBranches_unplaced (branches : List (List Item)) :
    sizeOfBranches (unplacedBranches branches) = sizeOfBranches branches := by
  match branches with
  | [] => rfl
  | chain :: rest =>
    rw [unplacedBranches, sizeOfBranches, sizeOfChain_unplaced, sizeOfBranches_unplaced,
      sizeOfBranches]

end

mutual

theorem condition_unplaced (item : Item) : item.unplaced.condition = item.condition := by
  match item with
  | .term _ _ => rfl
  | .choice branches _ => rw [unplaced, condition, headConditions_unplaced, condition]

theorem headConditions_unplaced (branches : List (List Item)) :
    headConditions (unplacedBranches branches) = headConditions branches := by
  match branches with
  | [] => rfl
  | [] :: rest =>
    rw [unplacedBranches, unplacedChain, headConditions, headConditions_unplaced, headConditions]
  | (item :: _) :: rest =>
    rw [unplacedBranches, unplacedChain, headConditions, condition_unplaced,
      headConditions_unplaced, headConditions]

end

theorem branchHeads_unplaced (index : Nat) (branches : List Chain) :
    branchHeads index (unplacedBranches branches) = branchHeads index branches := by
  induction branches generalizing index with
  | nil => rfl
  | cons chain rest ih => rw [unplacedBranches, branchHeads, sizeOfChain_unplaced, ih, branchHeads]

mutual

theorem layout_unplaced (item : Item) (index : Nat) (next : Option Nat) :
    item.unplaced.layout index next = (item.layout index next).map Node.unplaced := by
  match item with
  | .term _ _ => rfl
  | .choice branches _ =>
    rw [unplaced, layout, headConditions_unplaced, branchHeads_unplaced, layoutBranches_unplaced,
      layout, List.map_cons]
    rfl

theorem layoutChain_unplaced (chain : List Item) (index : Nat) (next : Option Nat) :
    layoutChain index next (unplacedChain chain) =
      (layoutChain index next chain).map Node.unplaced := by
  match chain with
  | [] => rfl
  | item :: rest =>
    rw [unplacedChain, layoutChain, isEmpty_unplacedChain, layout_unplaced, size_unplaced,
      layoutChain_unplaced, layoutChain, List.map_append]

theorem layoutBranches_unplaced (branches : List (List Item)) (index : Nat) (next : Option Nat) :
    layoutBranches index next (unplacedBranches branches) =
      (layoutBranches index next branches).map Node.unplaced := by
  match branches with
  | [] => rfl
  | chain :: rest =>
    rw [unplacedBranches, layoutBranches, layoutChain_unplaced, sizeOfChain_unplaced,
      layoutBranches_unplaced, layoutBranches, List.map_append]

end

theorem unplacedChain_ofBranches (position : Nat) (branches : List Chain) :
    unplacedChain (Chain.ofBranches position branches) =
      Chain.ofBranches 0 (unplacedBranches branches) := by
  match branches with
  | [] => rfl
  | [_] => rfl
  | _ :: _ :: _ => rfl

end Item

theorem unplaced_ofChain {first second : Chain} (h : unplacedChain first = unplacedChain second)
    (source other : String) :
    (ofChain first source).unplaced = (ofChain second other).unplaced := by
  have hfirst := layoutChain_unplaced first 0 none
  have hsecond := layoutChain_unplaced second 0 none
  rw [h] at hfirst
  simp only [unplaced, ofChain, List.map_toArray]
  rw [← hfirst, hsecond]

section
variable (p : Pattern)

theorem node?_unplaced (index : Nat) : p.unplaced.node? index = (p.node? index).map Node.unplaced :=
  Array.getElem?_map

theorem size_unplaced : p.unplaced.size = p.size := Array.size_map

theorem displayFrom_unplaced (fuel : Nat) (index stop : Option Nat) :
    p.unplaced.displayFrom fuel index stop = p.displayFrom fuel index stop := by
  induction fuel generalizing index stop with
  | zero => rfl
  | succ fuel ih =>
    rw [displayFrom.eq_def, displayFrom.eq_def p]
    cases index with
    | none => rfl
    | some i =>
      simp only [node?_unplaced, ih]
      cases p.node? i <;> rfl

theorem display_unplaced : p.unplaced.display = p.display := by
  rw [display, size_unplaced, displayFrom_unplaced, display]

theorem toList_unplaced : p.unplaced.nodes.toList = p.nodes.toList.map Node.unplaced :=
  Array.toList_map

theorem gap_unplaced (node : Option Node) : (node.map Node.unplaced).filter Node.isGap =
    (node.filter Node.isGap).map Node.unplaced := Option.filter_map

theorem headGap?_unplaced : headGap? p.unplaced = (headGap? p).map Node.unplaced := by
  rw [headGap?, headGap?, toList_unplaced, List.flatMap_map, List.map_findSome?]
  congr 1
  funext index
  rw [node?_unplaced, gap_unplaced]
  rfl

theorem repeatedGap?_unplaced : repeatedGap? p.unplaced = (repeatedGap? p).map Node.unplaced := by
  rw [repeatedGap?, repeatedGap?, toList_unplaced, List.findSome?_map, List.map_findSome?]
  congr 1
  funext node
  have hfollower : node.next.bind p.unplaced.node? =
      (node.next.bind p.node?).map Node.unplaced := by
    cases node.next with
    | none => rfl
    | some index => exact node?_unplaced p index
  have hnode : node.unplaced.isGap = node.isGap ∧ node.unplaced.next = node.next := ⟨rfl, rfl⟩
  simp only [Function.comp_apply, hnode, hfollower, gap_unplaced]
  split <;> rfl

theorem checkGaps_unplaced : checkGaps p.unplaced = .ok () ↔ checkGaps p = .ok () := by
  have hiff (p : Pattern) : checkGaps p = .ok () ↔ headGap? p = none ∧ repeatedGap? p = none := by
    refine ⟨checkGaps_eq_ok, fun ⟨hhead, hrepeated⟩ => ?_⟩
    rw [checkGaps, hhead, hrepeated]
  rw [hiff, hiff, headGap?_unplaced, repeatedGap?_unplaced, Option.map_eq_none_iff,
    Option.map_eq_none_iff]

end
end Concordance.Pattern
