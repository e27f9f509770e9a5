import Concordance.Proofs.Pattern.Layout
import Concordance.Proofs.Pattern.Parsing

/-! What holds of every compiled pattern: each walk leads onward to nodes that are there, gaps have
a term before them, and no gap has a negative budget. -/

namespace Concordance.Pattern

open Item Phrase

structure WellFormed (p : Pattern) : Prop where
  rooted : 0 < p.size
  child_onward {i child : Nat} {node : Node} : p.node? i = some node → child ∈ node.children →
    i < child ∧ child < p.size
  next_onward {i j : Nat} {node : Node} : p.node? i = some node → node.next = some j →
    i < j ∧ j < p.size
  choice_isGap {i : Nat} {node : Node} : p.node? i = some node → node.isChoice = true →
    node.isGap = false
  root_isGap {node : Node} : p.node? root = some node → node.isGap = false
  child_isGap {i child : Nat} {node head : Node} : p.node? i = some node →
    child ∈ node.children → p.node? child = some head → head.isGap = false
  next_isGap {i j : Nat} {node follower : Node} : p.node? i = some node → node.isGap = true →
    node.next = some j → p.node? j = some follower → follower.isGap = false
  budget_nonneg {i : Nat} {node : Node} {budget : Int} : p.node? i = some node →
    node.condition = .gap budget → 0 ≤ budget

theorem compile_eq_ok {lexicon : Option Lexicon} {source : String} {p : Pattern}
    (h : compile lexicon source = .ok p) :
    Meaningful lexicon (Lexeme.all source) ∧ (∃ d : Alternatives,
      d.lexemes = Lexeme.all source ∧ p = ofChain (d.chain (meaning lexicon)) source) ∧
      checkGaps p = .ok () := by
  rw [compile, mapError_eq_ok] at h
  obtain ⟨chain, hparse, h⟩ := bind_eq_ok.mp h
  obtain ⟨_, hgaps, h⟩ := bind_eq_ok.mp h
  cases h
  obtain ⟨hmeaningful, d, hd, hchain⟩ := parse_eq_ok_iff.mp hparse
  exact ⟨hmeaningful, ⟨d, hd, hchain ▸ rfl⟩, hgaps⟩

theorem leaf_of_parse {lexicon : Option Lexicon} {source : String} {chain : Chain}
    {leaf : Condition × Nat} (h : parse lexicon source = .ok chain)
    (hleaf : leaf ∈ leavesOfChain chain) : ∃ lexeme ∈ terms (Lexeme.all source),
      lexeme.term lexicon = .ok leaf.1 ∧ leaf.2 = lexeme.position := by
  obtain ⟨hmeaningful, d, hd, rfl⟩ := parse_eq_ok_iff.mp h
  rw [d.leaves, hd] at hleaf
  obtain ⟨lexeme, hmem, rfl⟩ := List.mem_map.mp hleaf
  refine ⟨lexeme, hmem, ?_, rfl⟩
  simp only [terms, List.mem_filter, Bool.not_eq_true'] at hmem
  exact term_eq_meaning (hmeaningful lexeme hmem.1 hmem.2)

section Gaps
variable {p : Pattern}

theorem mem_nodes {i : Nat} {node : Node} (h : p.node? i = some node) :
    node ∈ p.nodes.toList :=
  Array.mem_toList_iff.mpr (Array.mem_of_getElem? h)

theorem checkGaps_eq_ok (h : checkGaps p = .ok ()) :
    headGap? p = none ∧ repeatedGap? p = none := by
  unfold checkGaps at h
  split at h
  · cases h
  · cases h
  · exact ⟨by assumption, by assumption⟩

theorem not_isGap_of_head (h : headGap? p = none) {index : Nat} {node : Node}
    (hhead : index = root ∨ ∃ before ∈ p.nodes.toList, index ∈ before.children)
    (hnode : p.node? index = some node) : node.isGap = false := by
  have hmem : index ∈ root :: p.nodes.toList.flatMap Node.children := by
    simpa [List.mem_flatMap] using hhead
  have hnone := List.findSome?_eq_none_iff.mp h index hmem
  simpa [hnode] using hnone

theorem not_isGap_of_next (h : repeatedGap? p = none) {i j : Nat} {node follower : Node}
    (hnode : p.node? i = some node) (hgap : node.isGap = true) (hnext : node.next = some j)
    (hfollower : p.node? j = some follower) : follower.isGap = false := by
  have hnone := List.findSome?_eq_none_iff.mp h node (mem_nodes hnode)
  simpa [hgap, hnext, hfollower] using hnone

end Gaps

section OfChain
variable {chain : Chain} {source : String} {i : Nat} {node : Node}

theorem laidAt_ofChain (chain : Chain) (source : String) :
    LaidAt (ofChain chain source) 0 (layoutChain 0 none chain) := by
  intro k node hk
  simpa [node?, ofChain] using hk

theorem size_ofChain (chain : Chain) (source : String) :
    (ofChain chain source).size = sizeOfChain chain := by
  simp [size, ofChain]

theorem mem_layout (h : (ofChain chain source).node? i = some node) :
    node ∈ layoutChain 0 none chain := by
  simpa [ofChain] using mem_nodes h

theorem onward_ofChain (hnormal : NormalChain chain)
    (h : (ofChain chain source).node? i = some node) :
    Onward (ofChain chain source).size none i node := by
  have hlayout := onward_layoutChain chain hnormal 0 none i node
    (by simpa [node?, ofChain] using h)
  rwa [Nat.zero_add, Nat.zero_add, ← size_ofChain chain source] at hlayout

theorem isGap_of_isChoice (h : (ofChain chain source).node? i = some node)
    (hchoice : node.isChoice = true) : node.isGap = false := by
  obtain ⟨alternatives, heither⟩ := choice_layoutChain chain 0 none node (mem_layout h) hchoice
  simp [Node.isGap, heither, Condition.isGap]

theorem mem_leaves (hnormal : NormalChain chain) (h : (ofChain chain source).node? i = some node)
    (hchoice : node.isChoice = false) :
    (node.condition, node.position) ∈ leavesOfChain chain := by
  rw [← termsOf_layoutChain chain hnormal 0 none]
  exact List.mem_map.mpr ⟨node, List.mem_filter.mpr ⟨mem_layout h, by simp [hchoice]⟩, rfl⟩

end OfChain

theorem term_of_node {lexicon : Option Lexicon} {source : String} {p : Pattern}
    (h : compile lexicon source = .ok p) {i : Nat} {node : Node} (hnode : p.node? i = some node)
    (hchoice : node.isChoice = false) :
    ∃ lexeme ∈ terms (Lexeme.all source), lexeme.term lexicon = .ok node.condition := by
  obtain ⟨hmeaningful, ⟨d, hd, rfl⟩, -⟩ := compile_eq_ok h
  have hparse := parse_eq_ok_iff.mpr ⟨hmeaningful, d, hd, rfl⟩
  have hleaf := mem_leaves (d.normal (meaning lexicon)).2 hnode hchoice
  obtain ⟨lexeme, hmem, hterm, -⟩ := leaf_of_parse hparse hleaf
  exact ⟨lexeme, hmem, hterm⟩

theorem wellFormed_of_compile {lexicon : Option Lexicon} {source : String} {p : Pattern}
    (h : compile lexicon source = .ok p) : p.WellFormed := by
  obtain ⟨-, ⟨d, -, hp⟩, hgaps⟩ := compile_eq_ok h
  obtain ⟨hheads, hrepeated⟩ := checkGaps_eq_ok hgaps
  obtain ⟨hne, hnormal⟩ := d.normal (meaning lexicon)
  have hchoice {i : Nat} {node : Node} (hnode : p.node? i = some node)
      (his : node.isChoice = true) : node.isGap = false := isGap_of_isChoice (hp ▸ hnode) his
  refine ⟨?_, ?_, ?_, hchoice, ?_, ?_, ?_, ?_⟩
  · rw [hp, size_ofChain]
    exact sizeOfChain_pos hne
  · intro i child node hnode hchild
    subst hp
    exact (onward_ofChain hnormal hnode).2.1 child hchild
  · intro i j node hnode hnext
    subst hp
    simpa using (onward_ofChain hnormal hnode).2.2 j hnext
  · intro node hnode
    exact not_isGap_of_head hheads (.inl rfl) hnode
  · intro i child node head hnode hchild hhead
    exact not_isGap_of_head hheads (.inr ⟨node, mem_nodes hnode, hchild⟩) hhead
  · intro i j node follower hnode hgap hnext hfollower
    exact not_isGap_of_next hrepeated hnode hgap hnext hfollower
  · intro i node budget hnode hbudget
    cases his : node.isChoice with
    | true =>
      have hgap := hchoice hnode his
      simp [Node.isGap, hbudget, Condition.isGap] at hgap
    | false =>
      obtain ⟨lexeme, -, hterm⟩ := term_of_node h hnode his
      exact gapBudget?_nonneg (gapBudget?_of_term (hbudget ▸ hterm))

end Concordance.Pattern
