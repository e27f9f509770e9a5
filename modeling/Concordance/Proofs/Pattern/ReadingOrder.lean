import Concordance.Proofs.Pattern.Joined
import Concordance.Proofs.Pattern.Renumbering
import Concordance.Proofs.Pattern.Walks
import Mathlib.Logic.Relation

/-! The nodes of a compiled pattern stand in the order of reading. Main statement: they are the nodes
made for the tree, each once; all of them are reached from the root; children and followers stand
behind a node, and the follower behind the branches, which all come back to it; and the terms are those
of the text, from left to right. -/

namespace Concordance.Pattern

open Item Phrase Relation

def GoesOn (p : Pattern) (i j : Option Nat) : Prop :=
  ∃ k node, i = some k ∧ p.node? k = some node ∧ node.next = j

/-- The indices in the branches of a node: those that its children lead to short of its follower. -/
def Inside (p : Pattern) (node : Node) (j : Nat) : Prop :=
  ∃ child ∈ node.children, ReflTransGen (fun i k => p.Leads i k ∧ node.next ≠ some k) child j

structure ReadsOnward (p : Pattern) : Prop where
  reached {i : Nat} : i < p.size → ReflTransGen p.Leads root i
  child_onward {i child : Nat} {node : Node} : p.node? i = some node → child ∈ node.children →
    i < child ∧ child < p.size
  next_onward {i j : Nat} {node : Node} : p.node? i = some node → node.next = some j →
    i < j ∧ j < p.size
  inside_onward {i j k : Nat} {node : Node} : p.node? i = some node → p.Inside node j →
    node.next = some k → j < k
  /-- The branches of a choice come back to its follower. -/
  rejoins {i child : Nat} {node : Node} : p.node? i = some node → child ∈ node.children →
    ReflTransGen p.GoesOn (some child) node.next

section Layout
variable {p : Pattern}

def Heads (p : Pattern) (index : Nat) (node : Node) : Prop :=
  ∃ item : Item, item.Normal ∧ (item.layout index node.next).head? = some node ∧
    LaidAt p index (item.layout index node.next) ∧ Behind (index + item.size) node.next

mutual

theorem eachHeads_layout (item : Item) (h : item.Normal) {index : Nat} {next : Option Nat}
    (hlaid : LaidAt p index (item.layout index next)) (hnext : Behind (index + item.size) next) :
    EachFrom (Heads p) index (item.layout index next) := by
  match item with
  | .term condition position =>
    exact eachFrom_cons.mpr ⟨⟨_, h, rfl, hlaid, hnext⟩, eachFrom_nil⟩
  | .choice branches position =>
    obtain ⟨-, hbranches⟩ := eachFrom_cons.mp hlaid
    have hbehind : Behind (index + 1 + sizeOfBranches branches) next := by
      rwa [Item.size, Nat.add_comm (sizeOfBranches branches), ← Nat.add_assoc] at hnext
    exact eachFrom_cons.mpr
      ⟨⟨_, h, rfl, hlaid, hnext⟩, eachHeads_layoutBranches branches h.2 hbranches hbehind⟩

theorem eachHeads_layoutChain (chain : List Item) (h : NormalChain chain) {index : Nat}
    {next : Option Nat} (hlaid : LaidAt p index (layoutChain index next chain))
    (hnext : Behind (index + sizeOfChain chain) next) :
    EachFrom (Heads p) index (layoutChain index next chain) := by
  match chain with
  | [] => exact eachFrom_nil
  | item :: rest =>
    obtain ⟨hitem, hrest⟩ := eachFrom_layoutChain.mp hlaid
    rw [sizeOfChain, ← Nat.add_assoc] at hnext
    exact eachFrom_layoutChain.mpr ⟨eachHeads_layout item h.1 hitem (behind_entrance hnext),
      eachHeads_layoutChain rest h.2 hrest hnext⟩

theorem eachHeads_layoutBranches (branches : List (List Item)) (h : NormalBranches branches)
    {index : Nat} {next : Option Nat}
    (hlaid : LaidAt p index (layoutBranches index next branches))
    (hnext : Behind (index + sizeOfBranches branches) next) :
    EachFrom (Heads p) index (layoutBranches index next branches) := by
  match branches with
  | [] => exact eachFrom_nil
  | chain :: rest =>
    obtain ⟨hchain, hrest⟩ := eachFrom_layoutBranches.mp hlaid
    rw [sizeOfBranches, ← Nat.add_assoc] at hnext
    exact eachFrom_layoutBranches.mpr ⟨eachHeads_layoutChain chain h.1.2.2 hchain hnext.of_add,
      eachHeads_layoutBranches rest h.2 hrest hnext⟩

end

theorem goesOn_layoutChain {chain : Chain} {index : Nat} {next : Option Nat}
    (hlaid : LaidAt p index (layoutChain index next chain)) :
    ReflTransGen p.GoesOn (Chain.entrance index next chain) next := by
  induction chain generalizing index with
  | nil => exact .refl
  | cons item rest ih =>
    obtain ⟨hitem, hrest⟩ := eachFrom_layoutChain.mp hlaid
    obtain ⟨node, hnode, hnext, -⟩ := node_layout item hitem
    exact .head ⟨index, node, rfl, hnode, hnext⟩ (ih hrest)

theorem goesOn_branchHeads {branches : List Chain} (h : NormalBranches branches) {index : Nat}
    {next : Option Nat} (hlaid : LaidAt p index (layoutBranches index next branches)) :
    ∀ child ∈ branchHeads index branches, ReflTransGen p.GoesOn (some child) next := by
  induction branches generalizing index with
  | nil => nofun
  | cons chain rest ih =>
    obtain ⟨hchain, hrest⟩ := eachFrom_layoutBranches.mp hlaid
    have hgoesOn := goesOn_layoutChain hchain
    rw [Chain.entrance_of_ne_nil h.1.1] at hgoesOn
    exact List.forall_mem_cons.mpr ⟨hgoesOn, ih h.2 hrest⟩

mutual

theorem reached_layout (item : Item) (h : item.Normal) {index : Nat} {next : Option Nat}
    (hlaid : LaidAt p index (item.layout index next)) {i : Nat} (hstart : index ≤ i)
    (hend : i < index + item.size) : ReflTransGen p.Leads index i := by
  match item with
  | .term condition position =>
    rw [Item.size] at hend
    rw [show i = index by omega]
  | .choice branches position =>
    obtain ⟨hnode, hbranches⟩ := eachFrom_cons.mp hlaid
    rw [Item.size] at hend
    rcases Nat.eq_or_lt_of_le hstart with rfl | hlt
    · exact .refl
    · obtain ⟨child, hmem, hreached⟩ :=
        reached_layoutBranches branches h.2 hbranches hlt (by omega)
      exact .head ⟨_, hnode, .inl hmem⟩ hreached

theorem reached_layoutChain (chain : List Item) (h : NormalChain chain) {index : Nat}
    {next : Option Nat} (hlaid : LaidAt p index (layoutChain index next chain)) {i : Nat}
    (hstart : index ≤ i) (hend : i < index + sizeOfChain chain) :
    ReflTransGen p.Leads index i := by
  match chain with
  | [] =>
    rw [sizeOfChain] at hend
    omega
  | item :: rest =>
    obtain ⟨hitem, hrest⟩ := eachFrom_layoutChain.mp hlaid
    rw [sizeOfChain] at hend
    by_cases hwithin : i < index + item.size
    · exact reached_layout item h.1 hitem hstart hwithin
    · have hne : rest ≠ [] := by
        rintro rfl
        rw [sizeOfChain] at hend
        omega
      obtain ⟨node, hnode, hnext, -⟩ := node_layout item hitem
      rw [Chain.entrance_of_ne_nil hne] at hnext
      exact .head ⟨node, hnode, .inr hnext⟩
        (reached_layoutChain rest h.2 hrest (by omega) (by omega))

theorem reached_layoutBranches (branches : List (List Item)) (h : NormalBranches branches)
    {index : Nat} {next : Option Nat}
    (hlaid : LaidAt p index (layoutBranches index next branches)) {i : Nat} (hstart : index ≤ i)
    (hend : i < index + sizeOfBranches branches) :
    ∃ child ∈ branchHeads index branches, ReflTransGen p.Leads child i := by
  match branches with
  | [] =>
    rw [sizeOfBranches] at hend
    omega
  | chain :: rest =>
    obtain ⟨hchain, hrest⟩ := eachFrom_layoutBranches.mp hlaid
    rw [sizeOfBranches] at hend
    by_cases hwithin : i < index + sizeOfChain chain
    · exact ⟨index, List.mem_cons_self,
        reached_layoutChain chain h.1.2.2 hchain hstart hwithin⟩
    · obtain ⟨child, hmem, hreached⟩ :=
        reached_layoutBranches rest h.2 hrest (Nat.le_of_not_lt hwithin) (by omega)
      exact ⟨child, List.mem_cons_of_mem _ hmem, hreached⟩

end

theorem onward_of_laidAt {item : Item} (h : item.Normal) {index : Nat} {next : Option Nat}
    (hlaid : LaidAt p index (item.layout index next)) {i : Nat} {node : Node}
    (hstart : index ≤ i) (hend : i < index + item.size) (hnode : p.node? i = some node) :
    Onward (index + item.size) next i node := by
  obtain ⟨k, rfl⟩ := Nat.exists_eq_add_of_le hstart
  have hk : k < (item.layout index next).length := by
    rw [length_layout]
    omega
  have hat := List.getElem?_eq_getElem hk
  cases hnode.symm.trans (hlaid k _ hat)
  exact onward_layout item h index next k _ hat

theorem Heads.inside {index j : Nat} {node : Node} (h : Heads p index node)
    (hnode : p.node? index = some node) (hinside : p.Inside node j) :
    ∃ stop, j < stop ∧ Behind stop node.next := by
  obtain ⟨item, hnormal, -, hlaid, hbehind⟩ := h
  obtain ⟨child, hchild, hwalk⟩ := hinside
  have hpos := item.size_pos
  have hwithin : index ≤ j ∧ j < index + item.size := by
    induction hwalk with
    | refl =>
      have honward := onward_of_laidAt hnormal hlaid (Nat.le_refl _) (by omega) hnode
      have hbounds := honward.2.1 child hchild
      omega
    | tail _ hstep ih =>
      obtain ⟨⟨other, hother, hleads⟩, hne⟩ := hstep
      obtain ⟨-, hchildren, hfollower⟩ := onward_of_laidAt hnormal hlaid ih.1 ih.2 hother
      rcases hleads with hmem | hfollows
      · have hbounds := hchildren _ hmem
        omega
      · have hbounds := (hfollower _ hfollows).resolve_right hne
        omega
  exact ⟨_, hwithin.2, hbehind⟩

theorem Heads.rejoins {index child : Nat} {node : Node} (h : Heads p index node)
    (hchild : child ∈ node.children) : ReflTransGen p.GoesOn (some child) node.next := by
  obtain ⟨item, hnormal, hhead, hlaid, -⟩ := h
  match item with
  | .term condition position =>
    rw [← Option.some.inj hhead] at hchild
    cases hchild
  | .choice branches position =>
    rw [← Option.some.inj hhead] at hchild
    exact goesOn_branchHeads hnormal.2 (eachFrom_cons.mp hlaid).2 child hchild

end Layout

section Compile
variable {lexicon : Option Lexicon} {source : String} {p : Pattern}

theorem heads_of_compile (h : compile lexicon source = .ok p) {i : Nat} {node : Node}
    (hnode : p.node? i = some node) : Heads p i node := by
  obtain ⟨-, ⟨d, -, rfl⟩, -⟩ := compile_eq_ok h
  have hat : (layoutChain 0 none (d.chain (meaning lexicon)))[i]? = some node := by
    simpa [node?, ofChain] using hnode
  have hend : Behind (0 + sizeOfChain (d.chain (meaning lexicon))) none := by
    intro j hj
    cases hj
  have heach := eachHeads_layoutChain _ (d.normal (meaning lexicon)).2 (laidAt_ofChain _ source)
    hend i node hat
  rwa [Nat.zero_add] at heach

theorem readsOnward_of_compile (h : compile lexicon source = .ok p) : p.ReadsOnward := by
  have hp := wellFormed_of_compile h
  refine ⟨fun hi => ?_, hp.child_onward, hp.next_onward, fun hnode hinside hnext => ?_,
    fun hnode hchild => (heads_of_compile h hnode).rejoins hchild⟩
  · obtain ⟨-, ⟨d, -, rfl⟩, -⟩ := compile_eq_ok h
    rw [size_ofChain, ← Nat.zero_add (sizeOfChain _)] at hi
    exact reached_layoutChain _ (d.normal (meaning lexicon)).2 (laidAt_ofChain _ source)
      (Nat.zero_le _) hi
  · obtain ⟨stop, hlt, hbehind⟩ := (heads_of_compile h hnode).inside hnode hinside
    exact Nat.lt_of_lt_of_le hlt (hbehind _ hnext)

theorem terms_of_compile (h : compile lexicon source = .ok p) :
    List.Forall₂ (fun term lexeme => lexeme.term lexicon = .ok term.1 ∧ term.2 = lexeme.position)
      (termsOf p.nodes.toList) (terms (Lexeme.all source)) := by
  obtain ⟨hmeaningful, ⟨d, hd, rfl⟩, -⟩ := compile_eq_ok h
  have hterms : termsOf (ofChain (d.chain (meaning lexicon)) source).nodes.toList =
      (terms (Lexeme.all source)).map fun lexeme => (meaning lexicon lexeme, lexeme.position) := by
    rw [← hd, ← d.leaves, ← termsOf_layoutChain _ (d.normal _).2 0 none]
    rfl
  rw [hterms, List.forall₂_map_left_iff, List.forall₂_same]
  intro lexeme hmem
  obtain ⟨hmem, hmark⟩ := List.mem_filter.mp hmem
  exact ⟨term_eq_meaning (hmeaningful lexeme hmem (by simpa using hmark)), rfl⟩

theorem positions_of_compile (h : compile lexicon source = .ok p) :
    ((termsOf p.nodes.toList).map Prod.snd).Pairwise (· < ·) := by
  have hpositions : (termsOf p.nodes.toList).map Prod.snd =
      (terms (Lexeme.all source)).map Lexeme.position := by
    have hterms := (terms_of_compile h).imp fun _ _ hterm => hterm.2
    rwa [← List.forall₂_eq_eq_eq, List.forall₂_map_left_iff, List.forall₂_map_right_iff]
  rw [hpositions, List.pairwise_map]
  exact (Lexeme.scan_sorted 0 0 source.toList).filter _

/-- The graph of a pattern is built as its text is read. The nodes made for the tree from its end are
visited from the head, each of them once, and are the nodes of the pattern once they are named in that
order. All are reached from the root; children and followers stand behind a node, and a follower also
behind the branches, which come back to it. The nodes that are no choices are the terms of the text in
their order, at offsets that increase. So every walk along the graph comes to an end. -/
theorem compile_in_reading_order (h : compile lexicon source = .ok p) :
    (∃ chain nodes head order, parse lexicon source = .ok chain ∧
      layChain [] none chain = (nodes, some head) ∧
      visit nodes (nodes.length + 1) (some head) none [] = some order ∧
      order.Perm (List.range nodes.length) ∧ renumber nodes order = some p.nodes.toList) ∧
    p.ReadsOnward ∧
    (List.Forall₂ (fun term lexeme => lexeme.term lexicon = .ok term.1 ∧ term.2 = lexeme.position)
      (termsOf p.nodes.toList) (terms (Lexeme.all source)) ∧
      ((termsOf p.nodes.toList).map Prod.snd).Pairwise (· < ·)) ∧
    p.WalksEnd := by
  refine ⟨?_, readsOnward_of_compile h, ⟨terms_of_compile h, positions_of_compile h⟩,
    (wellFormed_of_compile h).walksEnd⟩
  obtain ⟨hmeaningful, ⟨d, hd, rfl⟩, -⟩ := compile_eq_ok h
  obtain ⟨hne, hnormal⟩ := d.normal (meaning lexicon)
  obtain ⟨nodes, head, order, hmade⟩ := renumber_layChain hne hnormal
  exact ⟨_, nodes, head, order, parse_eq_ok_iff.mpr ⟨hmeaningful, d, hd, rfl⟩, hmade⟩

end Compile

theorem reading_order_of_nested_groups : ∃ p chain nodes,
    compile none "(a, b (c, d e)) f" = .ok p ∧
    parse none "(a, b (c, d e)) f" = .ok chain ∧ layChain [] none chain = (nodes, some 7) ∧
    visit nodes 9 (some 7) none [] = some [7, 1, 6, 5, 2, 4, 3, 0] ∧
    renumber nodes [7, 1, 6, 5, 2, 4, 3, 0] = some p.nodes.toList ∧
    p.ReadsOnward ∧ p.WalksEnd := by
  let branches : List Chain := [[.term (.form "a" .plain) 1], [.term (.form "b" .plain) 4,
    .choice [[.term (.form "c" .plain) 7],
      [.term (.form "d" .plain) 10, .term (.form "e" .plain) 12]] 6]]
  let tree : Chain := [.choice branches 0, .term (.form "f" .plain) 16]
  have hcompile : compile none "(a, b (c, d e)) f" = .ok (ofChain tree "(a, b (c, d e)) f") := by
    cbv
  have hparse : parse none "(a, b (c, d e)) f" = .ok tree := by cbv
  obtain ⟨⟨chain, nodes, head, order, hchain, hlay, hvisit, -, hnodes⟩, honward, -, hends⟩ :=
    compile_in_reading_order hcompile
  cases hparse.symm.trans hchain
  cases hlay
  cases hvisit
  exact ⟨_, tree, _, hcompile, hparse, rfl, rfl, hnodes, honward, hends⟩
end Concordance.Pattern
