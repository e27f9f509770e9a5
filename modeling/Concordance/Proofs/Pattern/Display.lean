import Concordance.Proofs.Pattern.Layout

/-! How a graph is written. Walking the nodes of a tree writes what the tree itself is written as:
the walk along a chain comes from each item to the next, and ends where the chain does. -/

namespace Concordance.Pattern

open Item

section
variable {p : Pattern} {index : Nat} {next : Option Nat} {fuel : Nat}

theorem lt_size_of_node {node : Node} (h : p.node? index = some node) : index < p.size :=
  (Array.getElem?_eq_some_iff.mp h).1

theorem displayFrom_end (p : Pattern) (fuel : Nat) (stop : Option Nat) :
    p.displayFrom fuel stop stop = [] := by
  cases fuel with
  | zero => rfl
  | succ fuel =>
    cases stop with
    | none => rfl
    | some i =>
      rw [displayFrom.eq_def]
      simp only [if_true]

def displayNode (p : Pattern) (fuel : Nat) (node : Node) : String :=
  if node.isChoice then
    "(" ++ ", ".intercalate (node.children.map fun child =>
      " ".intercalate (p.displayFrom fuel (some child) node.next)) ++ ")"
  else node.condition.display

theorem displayFrom_node {stop : Option Nat} {node : Node} (hstop : stop ≠ some index)
    (h : p.node? index = some node) : p.displayFrom (fuel + 1) (some index) stop =
      p.displayNode fuel node :: p.displayFrom fuel node.next stop := by
  rw [displayFrom]
  simp only [hstop, if_false, h]
  rfl

def Behind (index : Nat) (next : Option Nat) : Prop := ∀ j, next = some j → index ≤ j

theorem Behind.of_add {extent : Nat} (h : Behind (index + extent) next) : Behind index next :=
  fun j hj => Nat.le_trans (Nat.le_add_right _ _) (h j hj)

theorem behind_entrance {chain : Chain} (h : Behind (index + sizeOfChain chain) next) :
    Behind index (Chain.entrance index next chain) := by
  intro j hj
  unfold Chain.entrance at hj
  split at hj
  · have hbehind := h j hj
    omega
  · cases hj
    exact Nat.le_refl index

mutual

theorem display_layout (item : Item) (h : item.Normal) {index : Nat} {next : Option Nat}
    {fuel : Nat} (hlaid : LaidAt p index (item.layout index next))
    (hnext : Behind (index + item.size) next) (hfuel : p.size ≤ index + 1 + fuel) :
    ∃ node, p.node? index = some node ∧ node.next = next ∧
      p.displayNode fuel node = item.display := by
  match item with
  | .term condition position =>
    obtain ⟨hnode, -⟩ := eachFrom_cons.mp hlaid
    exact ⟨_, hnode, rfl, by rw [Item.display]; rfl⟩
  | .choice branches position =>
    obtain ⟨hnode, hbranches⟩ := eachFrom_cons.mp hlaid
    refine ⟨_, hnode, rfl, ?_⟩
    have hchoice : (branchHeads (index + 1) branches).isEmpty = false := by
      simpa using branchHeads_ne_nil h.1 (index + 1)
    rw [Item.size, Nat.add_comm (sizeOfBranches branches), ← Nat.add_assoc] at hnext
    rw [displayNode, Node.isChoice, hchoice, Bool.not_false, if_pos rfl, Item.display,
      display_layoutBranches branches h.2 hbranches hnext hfuel]

theorem display_layoutChain (chain : List Item) (h : NormalChain chain) {index : Nat}
    {next : Option Nat} {fuel : Nat} (hlaid : LaidAt p index (layoutChain index next chain))
    (hnext : Behind (index + sizeOfChain chain) next) (hfuel : p.size ≤ index + fuel) :
    p.displayFrom fuel (Chain.entrance index next chain) next = displayItems chain := by
  match chain with
  | [] => exact displayFrom_end p fuel next
  | item :: rest =>
    obtain ⟨hitem, hrest⟩ := eachFrom_layoutChain.mp hlaid
    have hpos := item.size_pos
    rw [sizeOfChain, ← Nat.add_assoc] at hnext
    have hstop : next ≠ some index := by
      rintro rfl
      have hbehind := hnext index rfl
      omega
    cases fuel with
    | zero =>
      -- The first node of the chain is one of the pattern, so a step is left for it.
      obtain ⟨node, hnode, -⟩ := node_layout item hitem
      have hlt := lt_size_of_node hnode
      omega
    | succ fuel =>
      have hsteps : p.size ≤ index + 1 + fuel := by omega
      obtain ⟨node, hnode, hfollower, hdisplay⟩ :=
        display_layout item h.1 hitem (behind_entrance hnext) hsteps
      have hentrance : Chain.entrance index next (item :: rest) = some index := rfl
      rw [hentrance, displayFrom_node hstop hnode, hfollower, hdisplay,
        display_layoutChain rest h.2 hrest hnext (by omega), displayItems]

theorem display_layoutBranches (branches : List (List Item)) (h : NormalBranches branches)
    {index : Nat} {next : Option Nat} {fuel : Nat}
    (hlaid : LaidAt p index (layoutBranches index next branches))
    (hnext : Behind (index + sizeOfBranches branches) next) (hfuel : p.size ≤ index + fuel) :
    ((branchHeads index branches).map fun child =>
      " ".intercalate (p.displayFrom fuel (some child) next)) = displayBranches branches := by
  match branches with
  | [] => rfl
  | chain :: rest =>
    obtain ⟨⟨hne, -, hnormal⟩, hrestNormal⟩ := h
    obtain ⟨hchain, hrest⟩ := eachFrom_layoutBranches.mp hlaid
    rw [sizeOfBranches, ← Nat.add_assoc] at hnext
    have hshown := display_layoutChain chain hnormal hchain hnext.of_add hfuel
    rw [Chain.entrance_of_ne_nil hne] at hshown
    rw [branchHeads, List.map_cons, hshown,
      display_layoutBranches rest hrestNormal hrest hnext (by omega), displayBranches]

end

end
end Concordance.Pattern
