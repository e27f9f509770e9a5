import Concordance.Pattern.Compile
import Concordance.Proofs.Pattern.Tree

/-! Where the layout of a tree puts its nodes. Nodes are laid out one after the other, each before
its children and its follower, so that every walk through a pattern leads to greater indices. -/

namespace Concordance.Pattern

open Item

def EachFrom (P : Nat → Node → Prop) (index : Nat) (nodes : List Node) : Prop :=
  ∀ k node, nodes[k]? = some node → P (index + k) node

section EachFrom
variable {P Q : Nat → Node → Prop} {index : Nat}

theorem eachFrom_nil : EachFrom P index [] := by
  intro k node h
  simp at h

theorem eachFrom_cons {node : Node} {rest : List Node} :
    EachFrom P index (node :: rest) ↔ P index node ∧ EachFrom P (index + 1) rest := by
  constructor
  · intro h
    refine ⟨by simpa using h 0 node rfl, fun k other hk => ?_⟩
    have hnext := h (k + 1) other (by simpa using hk)
    rwa [show index + (k + 1) = index + 1 + k by omega] at hnext
  · rintro ⟨hhead, hrest⟩ k other hk
    cases k with
    | zero =>
      cases hk
      exact hhead
    | succ k =>
      have hnext := hrest k other (by simpa using hk)
      rwa [show index + 1 + k = index + (k + 1) by omega] at hnext

theorem eachFrom_append {first second : List Node} :
    EachFrom P index (first ++ second) ↔
      EachFrom P index first ∧ EachFrom P (index + first.length) second := by
  induction first generalizing index with
  | nil => simp [eachFrom_nil]
  | cons node rest ih =>
    rw [List.cons_append, eachFrom_cons, eachFrom_cons, ih, and_assoc]
    have hshift : index + 1 + rest.length = index + (node :: rest).length := by
      rw [List.length_cons]
      omega
    rw [hshift]

theorem EachFrom.mono {nodes : List Node} (h : EachFrom P index nodes)
    (himp : ∀ i node, index ≤ i → P i node → Q i node) : EachFrom Q index nodes :=
  fun k node hk => himp _ node (Nat.le_add_right index k) (h k node hk)

end EachFrom

def LaidAt (p : Pattern) : Nat → List Node → Prop := EachFrom fun i node => p.node? i = some node

/-- The entrance of a chain that stands at an index; the follower if the chain is empty. -/
def Chain.entrance (index : Nat) (next : Option Nat) (chain : Chain) : Option Nat :=
  if chain.isEmpty then next else some index

theorem Chain.entrance_of_ne_nil {chain : Chain} (h : chain ≠ []) (index : Nat)
    (next : Option Nat) : entrance index next chain = some index := by
  rw [entrance, List.isEmpty_eq_false_iff.mpr h]
  rfl

theorem layoutChain_cons (index : Nat) (next : Option Nat) (item : Item) (rest : Chain) :
    layoutChain index next (item :: rest) =
      item.layout index (Chain.entrance (index + item.size) next rest) ++
        layoutChain (index + item.size) next rest := rfl

mutual

@[simp] theorem length_layout (item : Item) (index : Nat) (next : Option Nat) :
    (item.layout index next).length = item.size := by
  match item with
  | .term _ _ => rfl
  | .choice branches _ =>
    rw [Item.layout, List.length_cons, length_layoutBranches, Item.size]

@[simp] theorem length_layoutChain (chain : List Item) (index : Nat) (next : Option Nat) :
    (layoutChain index next chain).length = sizeOfChain chain := by
  match chain with
  | [] => rfl
  | item :: rest =>
    rw [layoutChain_cons, List.length_append, length_layout, length_layoutChain, sizeOfChain]

@[simp] theorem length_layoutBranches (branches : List (List Item)) (index : Nat)
    (next : Option Nat) :
    (layoutBranches index next branches).length = sizeOfBranches branches := by
  match branches with
  | [] => rfl
  | chain :: rest =>
    rw [layoutBranches, List.length_append, length_layoutChain, length_layoutBranches,
      sizeOfBranches]

end

section EachFrom
variable {P : Nat → Node → Prop} {index : Nat} {next : Option Nat}

theorem eachFrom_layoutChain {item : Item} {rest : Chain} :
    EachFrom P index (layoutChain index next (item :: rest)) ↔
      EachFrom P index (item.layout index (Chain.entrance (index + item.size) next rest)) ∧
        EachFrom P (index + item.size) (layoutChain (index + item.size) next rest) := by
  rw [layoutChain_cons, eachFrom_append, length_layout]

theorem eachFrom_layoutBranches {chain : Chain} {rest : List Chain} :
    EachFrom P index (layoutBranches index next (chain :: rest)) ↔
      EachFrom P index (layoutChain index next chain) ∧
        EachFrom P (index + sizeOfChain chain)
          (layoutBranches (index + sizeOfChain chain) next rest) := by
  rw [layoutBranches, eachFrom_append, length_layoutChain]

end EachFrom

theorem node_layout {p : Pattern} (item : Item) {index : Nat} {next : Option Nat}
    (hlaid : LaidAt p index (item.layout index next)) : ∃ node, p.node? index = some node ∧
      node.next = next ∧ node.condition = item.condition := by
  cases item <;> exact ⟨_, (eachFrom_cons.mp hlaid).1, rfl, rfl⟩

theorem Item.size_pos (item : Item) : 0 < item.size := by
  cases item <;> simp [Item.size]

theorem sizeOfChain_pos {chain : Chain} (h : chain ≠ []) : 0 < sizeOfChain chain := by
  cases chain with
  | nil => exact absurd rfl h
  | cons item rest =>
    have hitem := item.size_pos
    rw [sizeOfChain]
    omega

theorem mem_branchHeads {branches : List Chain} (h : NormalBranches branches) {index head : Nat}
    (hmem : head ∈ branchHeads index branches) :
    index ≤ head ∧ head < index + sizeOfBranches branches := by
  induction branches generalizing index with
  | nil => simp [branchHeads] at hmem
  | cons chain rest ih =>
    have hpos := sizeOfChain_pos h.1.1
    rw [sizeOfBranches]
    rcases List.mem_cons.mp hmem with rfl | hmem
    · omega
    · have hrest := ih h.2 hmem
      omega

theorem branchHeads_ne_nil {branches : List Chain} (h : 2 ≤ branches.length) (index : Nat) :
    branchHeads index branches ≠ [] := by
  cases branches with
  | nil => simp at h
  | cons chain rest => simp [branchHeads]

/-- A node inside a stretch of nodes leads onward in the stretch, or to its follower. -/
def Onward (stop : Nat) (next : Option Nat) (i : Nat) (node : Node) : Prop :=
  i < stop ∧ (∀ child ∈ node.children, i < child ∧ child < stop) ∧
    ∀ j, node.next = some j → i < j ∧ j < stop ∨ next = some j

theorem Onward.widen {stop wider i : Nat} {next follower : Option Nat} {node : Node}
    (h : Onward stop next i node) (hstop : stop ≤ wider)
    (hnext : ∀ j, next = some j → stop ≤ j ∧ j < wider ∨ follower = some j) :
    Onward wider follower i node := by
  obtain ⟨hi, hchildren, hfollows⟩ := h
  refine ⟨by omega, fun child hmem => ?_, fun j hj => ?_⟩
  · have hchild := hchildren child hmem
    omega
  · rcases hfollows j hj with hin | hout
    · exact .inl (by omega)
    · rcases hnext j hout with hin | hout
      · exact .inl (by omega)
      · exact .inr hout

mutual

theorem onward_layout (item : Item) (h : item.Normal) (index : Nat) (next : Option Nat) :
    EachFrom (Onward (index + item.size) next) index (item.layout index next) := by
  match item with
  | .term condition position =>
    refine eachFrom_cons.mpr ⟨⟨by simp [Item.size], by simp, fun j hj => .inr hj⟩, eachFrom_nil⟩
  | .choice branches position =>
    refine eachFrom_cons.mpr ⟨⟨by simp [Item.size], ?_, fun j hj => .inr hj⟩, ?_⟩
    · intro child hmem
      have hchild := mem_branchHeads h.2 hmem
      rw [Item.size]
      omega
    · refine (onward_layoutBranches branches h.2 (index + 1) next).mono fun i node _ hnode => ?_
      exact hnode.widen (by rw [Item.size]; omega) fun j hj => .inr hj

theorem onward_layoutChain (chain : List Item) (h : NormalChain chain) (index : Nat)
    (next : Option Nat) :
    EachFrom (Onward (index + sizeOfChain chain) next) index (layoutChain index next chain) := by
  match chain with
  | [] => exact eachFrom_nil
  | item :: rest =>
    rw [eachFrom_layoutChain, sizeOfChain, ← Nat.add_assoc]
    refine ⟨?_, onward_layoutChain rest h.2 _ next⟩
    refine (onward_layout item h.1 index _).mono fun i node _ hnode => ?_
    refine hnode.widen (Nat.le_add_right _ _) fun j hj => ?_
    unfold Chain.entrance at hj
    split at hj
    · exact .inr hj
    · rename_i hrest
      have hpos := sizeOfChain_pos (by simpa using hrest)
      cases hj
      exact .inl (by omega)

theorem onward_layoutBranches (branches : List (List Item)) (h : NormalBranches branches)
    (index : Nat) (next : Option Nat) :
    EachFrom (Onward (index + sizeOfBranches branches) next) index
      (layoutBranches index next branches) := by
  match branches with
  | [] => exact eachFrom_nil
  | chain :: rest =>
    rw [eachFrom_layoutBranches, sizeOfBranches, ← Nat.add_assoc]
    refine ⟨?_, onward_layoutBranches rest h.2 _ next⟩
    refine (onward_layoutChain chain h.1.2.2 index next).mono fun i node _ hnode => ?_
    exact hnode.widen (Nat.le_add_right _ _) fun j hj => .inr hj

end

def termsOf (nodes : List Node) : List (Condition × Nat) :=
  (nodes.filter fun node => !node.isChoice).map fun node => (node.condition, node.position)

theorem termsOf_append (first second : List Node) :
    termsOf (first ++ second) = termsOf first ++ termsOf second := by
  simp [termsOf]

mutual

theorem termsOf_layout (item : Item) (h : item.Normal) (index : Nat) (next : Option Nat) :
    termsOf (item.layout index next) = item.leaves := by
  match item with
  | .term condition position => rfl
  | .choice branches position =>
    have hchoice : (branchHeads (index + 1) branches).isEmpty = false := by
      simpa using branchHeads_ne_nil h.1 (index + 1)
    rw [Item.layout, leaves, ← termsOf_layoutBranches branches h.2 (index + 1) next]
    simp [termsOf, Node.isChoice, hchoice]

theorem termsOf_layoutChain (chain : List Item) (h : NormalChain chain) (index : Nat)
    (next : Option Nat) : termsOf (layoutChain index next chain) = leavesOfChain chain := by
  match chain with
  | [] => rfl
  | item :: rest =>
    rw [layoutChain_cons, termsOf_append, termsOf_layout item h.1, termsOf_layoutChain rest h.2,
      leavesOfChain]

theorem termsOf_layoutBranches (branches : List (List Item)) (h : NormalBranches branches)
    (index : Nat) (next : Option Nat) :
    termsOf (layoutBranches index next branches) = leavesOfBranches branches := by
  match branches with
  | [] => rfl
  | chain :: rest =>
    rw [layoutBranches, termsOf_append, termsOf_layoutChain chain h.1.2.2,
      termsOf_layoutBranches rest h.2, leavesOfBranches]

end

def ChoiceIsEither (node : Node) : Prop :=
  node.isChoice = true → ∃ alternatives, node.condition = .either alternatives

mutual

theorem choice_layout (item : Item) (index : Nat) (next : Option Nat) :
    ∀ node ∈ item.layout index next, ChoiceIsEither node := by
  match item with
  | .term condition position =>
    intro node hmem hchoice
    cases List.mem_singleton.mp hmem
    simp [Node.isChoice] at hchoice
  | .choice branches position =>
    intro node hmem
    rcases List.mem_cons.mp hmem with rfl | hmem
    · exact fun _ => ⟨_, rfl⟩
    · exact choice_layoutBranches branches _ next node hmem

theorem choice_layoutChain (chain : List Item) (index : Nat) (next : Option Nat) :
    ∀ node ∈ layoutChain index next chain, ChoiceIsEither node := by
  match chain with
  | [] => simp [layoutChain]
  | item :: rest =>
    intro node hmem
    rw [layoutChain_cons] at hmem
    rcases List.mem_append.mp hmem with hmem | hmem
    · exact choice_layout item _ _ node hmem
    · exact choice_layoutChain rest _ next node hmem

theorem choice_layoutBranches (branches : List (List Item)) (index : Nat) (next : Option Nat) :
    ∀ node ∈ layoutBranches index next branches, ChoiceIsEither node := by
  match branches with
  | [] => simp [layoutBranches]
  | chain :: rest =>
    intro node hmem
    rw [layoutBranches] at hmem
    rcases List.mem_append.mp hmem with hmem | hmem
    · exact choice_layoutChain chain _ next node hmem
    · exact choice_layoutBranches rest _ next node hmem

end

end Concordance.Pattern
