import Concordance.Proofs.Matcher.Completeness
import Concordance.Proofs.Matcher.Guarded
import Concordance.Proofs.Pattern.Gaps
import Concordance.Proofs.Pattern.ReadingOrder

/-! What a matcher does at a choice, and what the condition of the choice says. An occurrence gets past
a node if it meets the condition of the node, and goes on behind the first of its leaves, in the order
of the text, that accepts it. Main statement: this holds at every node of a compiled pattern, and no
run of a matcher ever asks for the condition of a gap. -/

namespace Concordance

namespace Pattern

open Item

section
variable {p : Pattern} {o : Occurrence}

/-- The first of the terms at a node, in the order of the text, that accepts an occurrence. -/
structure FirstAccepting (p : Pattern) (o : Occurrence) (i : Nat) (node : Node) : Prop where
  head : ∃ leaf, p.Leaf i leaf ∧ p.node? leaf = some node
  accepts : node.condition.accepts o = true
  first {leaf : Nat} {other : Node} : p.Leaf i leaf → p.node? leaf = some other →
    other.position < node.position → other.condition.accepts o = false

def AsksChildren (p : Pattern) (node : Node) : Prop :=
  ∃ alternatives, node.condition = .either alternatives ∧
    node.children.map (fun child => (p.node? child).map Node.condition) = alternatives.map some

theorem AsksChildren.accepts_iff {node : Node} (h : p.AsksChildren node) :
    node.condition.accepts o = true ↔ ∃ child ∈ node.children, ∃ head,
      p.node? child = some head ∧ head.condition.accepts o = true := by
  obtain ⟨alternatives, hcondition, hchildren⟩ := h
  rw [hcondition, Condition.accepts_either, List.any_eq_true]
  constructor
  · rintro ⟨condition, hmem, haccepts⟩
    have hmem' : some condition ∈ alternatives.map some := List.mem_map_of_mem hmem
    rw [← hchildren] at hmem'
    obtain ⟨child, hchild, hcondition⟩ := List.mem_map.mp hmem'
    obtain ⟨head, hhead, rfl⟩ := Option.map_eq_some_iff.mp hcondition
    exact ⟨child, hchild, head, hhead, haccepts⟩
  · rintro ⟨child, hchild, head, hhead, haccepts⟩
    have hmem : (p.node? child).map Node.condition ∈ alternatives.map some :=
      hchildren ▸ List.mem_map_of_mem hchild
    obtain ⟨condition, hmem, hcondition⟩ := List.mem_map.mp hmem
    rw [hhead] at hcondition
    cases hcondition
    exact ⟨_, hmem, haccepts⟩

def LeavesApart (p : Pattern) (node : Node) : Prop :=
  node.children.Pairwise fun child later => ∀ leaf, p.Leaf child leaf → leaf < later

theorem Leaf.exists_node {i leaf : Nat} (h : p.Leaf i leaf) :
    ∃ node, p.node? leaf = some node ∧ node.isChoice = false := by
  induction h with
  | here hnode hterm => exact ⟨_, hnode, hterm⟩
  | branch _ _ _ ih => exact ih

theorem Leaf.within {item : Item} (hitem : item.Normal) {index : Nat} {next : Option Nat}
    (hlaid : LaidAt p index (item.layout index next)) {i leaf : Nat} (h : p.Leaf i leaf)
    (hstart : index ≤ i) (hend : i < index + item.size) : leaf < index + item.size := by
  induction h with
  | here _ _ => exact hend
  | branch hnode hchild _ ih =>
    obtain ⟨-, hchildren, -⟩ := onward_of_laidAt hitem hlaid hstart hend hnode
    have hbounds := hchildren _ hchild
    exact ih (by omega) hbounds.2

section Layout
variable {index : Nat} {next : Option Nat} {branches : List Chain}

theorem conditions_branchHeads (h : NormalBranches branches)
    (hlaid : LaidAt p index (layoutBranches index next branches)) :
    (branchHeads index branches).map (fun child => (p.node? child).map Node.condition) =
      (headConditions branches).map some := by
  induction branches generalizing index with
  | nil => rfl
  | cons chain rest ih =>
    obtain ⟨hchain, hrest⟩ := eachFrom_layoutBranches.mp hlaid
    have hstarts : p.Starts index chain := ⟨h.1.1, h.1.2.2, next, hchain⟩
    obtain ⟨item, tail, node, rfl, hnode, hcondition⟩ := hstarts.exists_node
    rw [branchHeads, List.map_cons, ih h.2 hrest, hnode, headConditions, List.map_cons,
      ← hcondition]
    rfl

theorem leaves_branchHeads (h : NormalBranches branches)
    (hlaid : LaidAt p index (layoutBranches index next branches)) :
    (branchHeads index branches).Pairwise fun child later =>
      ∀ leaf, p.Leaf child leaf → leaf < later := by
  induction branches generalizing index with
  | nil => exact .nil
  | cons chain rest ih =>
    obtain ⟨hchain, hrest⟩ := eachFrom_layoutBranches.mp hlaid
    refine List.pairwise_cons.mpr ⟨fun later hlater leaf hleaf => ?_, ih h.2 hrest⟩
    have hbehind := (mem_branchHeads h.2 hlater).1
    match chain, h.1.1 with
    | item :: tail, _ =>
      have hwithin := hleaf.within h.1.2.2.1 (eachFrom_layoutChain.mp hchain).1 (Nat.le_refl _)
        (Nat.lt_add_of_pos_right item.size_pos)
      rw [sizeOfChain] at hbehind
      omega

end Layout

theorem Heads.asksChildren {i : Nat} {node : Node} (h : Heads p i node)
    (hchoice : node.isChoice = true) : p.AsksChildren node := by
  obtain ⟨item, hnormal, hhead, hlaid, -⟩ := h
  match item with
  | .term condition position =>
    rw [← Option.some.inj hhead] at hchoice
    cases hchoice
  | .choice branches position =>
    rw [← Option.some.inj hhead]
    exact ⟨_, rfl, conditions_branchHeads hnormal.2 (eachFrom_cons.mp hlaid).2⟩

theorem Heads.leavesApart {i : Nat} {node : Node} (h : Heads p i node) : p.LeavesApart node := by
  obtain ⟨item, hnormal, hhead, hlaid, -⟩ := h
  match item with
  | .term condition position =>
    rw [← Option.some.inj hhead]
    exact .nil
  | .choice branches position =>
    rw [← Option.some.inj hhead]
    exact leaves_branchHeads hnormal.2 (eachFrom_cons.mp hlaid).2

theorem Tried.exists_node {i : Nat} {answer : Option (Option Nat)} (h : p.Tried o i answer) :
    ∃ node, p.node? i = some node := by
  cases h <;> exact ⟨_, by assumption⟩

theorem Tried.accepts (hasks : ∀ {i node}, p.node? i = some node → node.isChoice = true →
    p.AsksChildren node) {i : Nat} {answer : Option (Option Nat)} (h : p.Tried o i answer)
    {node : Node} (hnode : p.node? i = some node) :
    node.condition.accepts o = answer.isSome := by
  induction h generalizing node with
  | accepted hnode' _ haccepts =>
    cases hnode'.symm.trans hnode
    exact haccepts
  | rejected hnode' _ hrejects =>
    cases hnode'.symm.trans hnode
    exact hrejects
  | taken hnode' hsplit _ hchild _ ih =>
    cases hnode'.symm.trans hnode
    have hmem := hsplit ▸ List.mem_append_right _ List.mem_cons_self
    obtain ⟨head, hhead⟩ := hchild.exists_node
    exact (hasks hnode (isChoice_of_mem hmem)).accepts_iff.mpr
      ⟨_, hmem, head, hhead, ih hhead⟩
  | refused hnode' hchoice _ ih =>
    cases hnode'.symm.trans hnode
    rw [Option.isSome_none, Bool.eq_false_iff, ne_eq, (hasks hnode hchoice).accepts_iff]
    rintro ⟨child, hmem, head, hhead, haccepts⟩
    rw [ih child hmem hhead] at haccepts
    cases haccepts

theorem Leaf.child {i leaf : Nat} {node : Node} (h : p.Leaf i leaf)
    (hnode : p.node? i = some node) (hchoice : node.isChoice = true) :
    ∃ child ∈ node.children, p.Leaf child leaf := by
  cases h with
  | here hnode' hterm => exact (term_ne_choice hnode' hterm hnode hchoice).elim
  | branch hnode' hchild hleaf =>
    cases hnode'.symm.trans hnode
    exact ⟨_, hchild, hleaf⟩

theorem Leaf.rejects (hp : p.WellFormed) {i leaf : Nat} {node : Node} (h : p.Leaf i leaf)
    (hnode : p.node? leaf = some node) (hnone : p.accept? o i = none) :
    node.condition.accepts o = false := by
  rw [Bool.eq_false_iff]
  intro haccepts
  obtain ⟨next, hnext⟩ := h.accept? hp ⟨node, hnode, haccepts⟩
  rw [hnone] at hnext
  cases hnext

theorem first_of_accept (hp : p.WellFormed)
    (hapart : ∀ {i node}, p.node? i = some node → p.LeavesApart node) {i : Nat}
    {next : Option Nat} (h : p.accept? o i = some next) :
    ∃ leaf node, p.Leaf i leaf ∧ p.node? leaf = some node ∧ node.condition.accepts o = true ∧
      node.next = next ∧ ∀ earlier other, p.Leaf i earlier → p.node? earlier = some other →
        earlier < leaf → other.condition.accepts o = false := by
  fun_induction accept? p o i with
  | case1 => cases h
  | case2 i node hnode hchoice ih =>
    obtain ⟨before, child, after, hsplit, hchild, hbefore⟩ := List.findSome?_eq_some_iff.mp h
    have hmem : child ∈ node.children := hsplit ▸ List.mem_append_right _ List.mem_cons_self
    rw [dif_pos (hp.child_onward hnode hmem)] at hchild
    obtain ⟨leaf, term, hleaf, hterm, haccepts, hnext, hfirst⟩ :=
      ih child (hp.child_onward hnode hmem) hchild
    refine ⟨leaf, term, .branch hnode hmem hleaf, hterm, haccepts, hnext, ?_⟩
    intro earlier other hearlier hother hlt
    obtain ⟨sibling, hsibling, hwithin⟩ := hearlier.child hnode hchoice
    rw [hsplit] at hsibling
    rcases List.mem_append.mp hsibling with hsibling | hsibling
    · have hrejected := hbefore sibling hsibling
      rw [dif_pos (hp.child_onward hnode (hsplit ▸ List.mem_append_left _ hsibling))] at hrejected
      exact hwithin.rejects hp hother hrejected
    · rcases List.mem_cons.mp hsibling with rfl | hsibling
      · exact hfirst earlier other hwithin hother hlt
      · -- The terms at a later child stand behind the one that accepts.
        have hbehind := hapart hnode
        rw [LeavesApart, hsplit] at hbehind
        have hleafLt := List.rel_of_pairwise_cons (List.pairwise_append.mp hbehind).2.1 hsibling
          leaf hleaf
        have hle := hwithin.le hp
        omega
  | case3 i node hnode hchoice haccepts =>
    cases h
    have hterm : node.isChoice = false := by simpa using hchoice
    refine ⟨i, node, .here hnode hterm, hnode, haccepts, rfl, fun earlier _ hearlier _ hlt => ?_⟩
    rw [hearlier.eq_of_term hnode hterm] at hlt
    exact absurd hlt (Nat.lt_irrefl _)
  | case4 => cases h

def Placed (p : Pattern) : Prop := ∀ {i j : Nat} {node later : Node}, p.node? i = some node →
  p.node? j = some later → node.isChoice = false → later.isChoice = false → i < j →
  node.position < later.position

theorem Placed.leaves (hplaced : p.Placed) {i j leaf other : Nat} {node later : Node}
    (hleaf : p.Leaf i leaf) (hother : p.Leaf j other) (hnode : p.node? leaf = some node)
    (hlater : p.node? other = some later) (hlt : leaf < other) : node.position < later.position := by
  obtain ⟨node', hnode', hterm⟩ := hleaf.exists_node
  obtain ⟨later', hlater', hterm'⟩ := hother.exists_node
  cases hnode'.symm.trans hnode
  cases hlater'.symm.trans hlater
  exact hplaced hnode hlater hterm hterm' hlt

theorem FirstAccepting.unique (hplaced : p.Placed) {i : Nat} {node other : Node}
    (h : p.FirstAccepting o i node) (h' : p.FirstAccepting o i other) : node = other := by
  obtain ⟨⟨leaf, hleaf, hnode⟩, haccepts, hfirst⟩ := h
  obtain ⟨⟨leaf', hleaf', hother⟩, haccepts', hfirst'⟩ := h'
  rcases Nat.lt_trichotomy leaf leaf' with hlt | rfl | hlt
  · rw [hfirst' hleaf hnode (hplaced.leaves hleaf hleaf' hnode hother hlt)] at haccepts
    cases haccepts
  · exact Option.some.inj (hnode.symm.trans hother)
  · rw [hfirst hleaf' hother (hplaced.leaves hleaf' hleaf hother hnode hlt)] at haccepts'
    cases haccepts'

theorem accept?_eq_some_iff (hp : p.WellFormed)
    (hapart : ∀ {i node}, p.node? i = some node → p.LeavesApart node) (hplaced : p.Placed)
    {i : Nat} {next : Option Nat} :
    p.accept? o i = some next ↔ ∃ node, p.FirstAccepting o i node ∧ node.next = next := by
  have hdecides {next : Option Nat} (h : p.accept? o i = some next) :
      ∃ node, p.FirstAccepting o i node ∧ node.next = next := by
    obtain ⟨leaf, node, hleaf, hnode, haccepts, hnext, hfirst⟩ := first_of_accept hp hapart h
    refine ⟨node, ⟨⟨leaf, hleaf, hnode⟩, haccepts, fun {earlier _} hearlier hother hlt => ?_⟩, hnext⟩
    rcases Nat.lt_trichotomy earlier leaf with hbefore | rfl | hbehind
    · exact hfirst _ _ hearlier hother hbefore
    · cases hnode.symm.trans hother
      exact absurd hlt (Nat.lt_irrefl _)
    · exact absurd hlt (Nat.lt_asymm (hplaced.leaves hleaf hearlier hnode hother hbehind))
  refine ⟨hdecides, ?_⟩
  rintro ⟨node, hfirst, rfl⟩
  obtain ⟨leaf, hleaf, hnode⟩ := hfirst.head
  obtain ⟨next, hnext⟩ := hleaf.accept? hp ⟨node, hnode, hfirst.accepts⟩
  obtain ⟨other, hother, rfl⟩ := hdecides hnext
  rw [hnext, hother.unique hplaced hfirst]

end

end Pattern

namespace Matcher

open Pattern

section Compile
variable {lexicon : Option Lexicon} {text : String} {p : Pattern}

theorem placed_of_compile (h : compile lexicon text = .ok p) : p.Placed := by
  have hpositions := positions_of_compile h
  rw [termsOf, List.map_map, List.pairwise_map, List.pairwise_filter] at hpositions
  intro i j node later hnode hlater hterm hterm' hlt
  obtain ⟨hi, rfl⟩ := Array.getElem?_eq_some_iff.mp hnode
  obtain ⟨hj, rfl⟩ := Array.getElem?_eq_some_iff.mp hlater
  exact List.pairwise_iff_getElem.mp hpositions i j hi hj hlt (by simpa using hterm)
    (by simpa using hterm')

/-- The two readings of a choice agree. The condition of a choice is a disjunction of the conditions
of its children; at every node an occurrence gets past if and only if it meets the condition, and goes
on behind the first of the terms there, in the order of the text, that accepts it. No matcher asks a
gap, in any state and in no scan: with a guard that gives up there it does what it does without. -/
theorem advance_agrees (h : compile lexicon text = .ok p) :
    (∀ index node, p.node? index = some node → node.isChoice = true → p.AsksChildren node) ∧
    (∀ index node o, p.node? index = some node →
      (p.advance? index o).isSome = node.condition.accepts o) ∧
    (∀ index o next, p.advance? index o = some next ↔
      ∃ node, p.FirstAccepting o index node ∧ node.next = next) ∧
    (∀ m o, guardedStep p m o = some (step p m o)) ∧
    ∀ (m : Matcher) name source limit stream,
      guardedScanFrom p name source limit 0 m.reset stream =
        some (m.scan p stream name source limit) := by
  have hp := wellFormed_of_compile h
  have hasks {index : Nat} {node : Node} (hnode : p.node? index = some node)
      (hchoice : node.isChoice = true) : p.AsksChildren node :=
    (heads_of_compile h hnode).asksChildren hchoice
  refine ⟨fun index node => hasks, fun index node o hnode => ?_, fun index o next => ?_,
    guardedStep_eq hp,
    fun m name source limit stream => guardedScanFrom_eq hp name source limit 0 m.reset stream⟩
  · exact ((hp.walksEnd.advance_ends o (lt_size_of_node hnode)).accepts hasks hnode).symm
  · rw [advance?_eq hp]
    exact accept?_eq_some_iff hp (fun hnode => (heads_of_compile h hnode).leavesApart)
      (placed_of_compile h)

/-- Of two terms that accept an occurrence, at different depths, the first in the text decides; behind
the choice a gap is passed without being asked. -/
theorem advance_at_nested_choice : ∃ p head node, compile none "(a, (b, *) c, b) **1 d" = .ok p ∧
    p.node? root = some head ∧ p.AsksChildren head ∧
    head.condition.accepts (.untagged "b" 0) = true ∧
    p.FirstAccepting (.untagged "b" 0) root node ∧ node.next = some 5 ∧
    (guardedScanFrom p none none none 0 fresh.reset
      [.untagged "b" 0, .untagged "c" 2, .untagged "x" 4, .untagged "d" 6]).map
        (fun (hits, _) => hits.map fun hit => (hit.start, hit.stop)) = some [(0, 4)] := by
  have hcompile : compile none "(a, (b, *) c, b) **1 d" = .ok (ofChain
      [.choice [[.term (.form "a" .plain) 1],
        [.choice [[.term (.form "b" .plain) 5], [.term .any 8]] 4, .term (.form "c" .plain) 11],
        [.term (.form "b" .plain) 14]] 0,
      .term (.gap 1) 17, .term (.form "d" .plain) 21] "(a, (b, *) c, b) **1 d") := by
    cbv
  obtain ⟨hasks, haccepts, hdecides, -, hscan⟩ := advance_agrees hcompile
  obtain ⟨node, hfirst, hnext⟩ := (hdecides root (.untagged "b" 0) (some 5)).mp (by cbv)
  refine ⟨_, _, node, hcompile, rfl, hasks root _ rfl rfl, ?_, hfirst, hnext, ?_⟩
  · rw [← haccepts root _ _ rfl]
    cbv
  · rw [hscan]
    cbv

end Compile
end Matcher
end Concordance
