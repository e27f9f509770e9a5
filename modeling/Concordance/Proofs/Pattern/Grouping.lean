import Concordance.Proofs.Pattern.Replacement

/-! Parentheses that say nothing leave no trace. A choice has two branches or more, and no branch of
it is a choice by itself, so that alternatives at one place always share one node. Main statement: this
holds of every compiled pattern, and a pattern between parentheses compiles to the same nodes. -/

namespace Concordance.Pattern

open Item Phrase Lexeme

section Layout
variable {p : Pattern} {index : Nat} {next : Option Nat}

/-- A choice has two children or more, and none of them is a choice that goes on where it does. -/
def Grouped (p : Pattern) (node : Node) : Prop :=
  node.isChoice = true → 2 ≤ node.children.length ∧ ∀ child ∈ node.children,
    ∃ head, p.node? child = some head ∧ (head.isChoice = true → head.next ≠ node.next)

theorem length_branchHeads (index : Nat) (branches : List Chain) :
    (branchHeads index branches).length = branches.length := by
  induction branches generalizing index with
  | nil => rfl
  | cons chain rest ih => rw [branchHeads, List.length_cons, ih, List.length_cons]

theorem head_layoutChain {chain : Chain} (hne : chain ≠ []) (hlone : chain.isChoice = false)
    (hlaid : LaidAt p index (layoutChain index next chain))
    (hnext : Behind (index + sizeOfChain chain) next) :
    ∃ head, p.node? index = some head ∧ (head.isChoice = true → head.next ≠ next) := by
  match chain with
  | .term condition position :: rest =>
    obtain ⟨hnode, -⟩ := eachFrom_cons.mp (eachFrom_layoutChain.mp hlaid).1
    exact ⟨_, hnode, nofun⟩
  | [.choice branches position] => cases hlone
  | .choice branches position :: item :: rest =>
    obtain ⟨hnode, -⟩ := eachFrom_cons.mp (eachFrom_layoutChain.mp hlaid).1
    refine ⟨_, hnode, fun _ heq => ?_⟩
    -- The rest of the chain stands between the choice and what is behind the chain.
    have hbehind := hnext _ heq.symm
    have hpos := item.size_pos
    rw [sizeOfChain, sizeOfChain] at hbehind
    omega

theorem heads_layoutBranches {branches : List Chain} (h : NormalBranches branches)
    (hlaid : LaidAt p index (layoutBranches index next branches))
    (hnext : Behind (index + sizeOfBranches branches) next) :
    ∀ child ∈ branchHeads index branches,
      ∃ head, p.node? child = some head ∧ (head.isChoice = true → head.next ≠ next) := by
  induction branches generalizing index with
  | nil => nofun
  | cons chain rest ih =>
    obtain ⟨hchain, hrest⟩ := eachFrom_layoutBranches.mp hlaid
    rw [sizeOfBranches, ← Nat.add_assoc] at hnext
    exact List.forall_mem_cons.mpr
      ⟨head_layoutChain h.1.1 h.1.2.1 hchain hnext.of_add, ih h.2 hrest hnext⟩

mutual

theorem grouped_layout (item : Item) (h : item.Normal) {index : Nat} {next : Option Nat}
    (hlaid : LaidAt p index (item.layout index next)) (hnext : Behind (index + item.size) next) :
    ∀ node ∈ item.layout index next, Grouped p node := by
  match item with
  | .term condition position =>
    intro node hmem
    cases List.mem_singleton.mp hmem
    nofun
  | .choice branches position =>
    obtain ⟨-, hbranches⟩ := eachFrom_cons.mp hlaid
    rw [Item.size, Nat.add_comm (sizeOfBranches branches), ← Nat.add_assoc] at hnext
    intro node hmem
    rcases List.mem_cons.mp hmem with rfl | hmem
    · intro _
      refine ⟨?_, heads_layoutBranches h.2 hbranches hnext⟩
      rw [length_branchHeads]
      exact h.1
    · exact grouped_layoutBranches branches h.2 hbranches hnext node hmem

theorem grouped_layoutChain (chain : List Item) (h : NormalChain chain) {index : Nat}
    {next : Option Nat} (hlaid : LaidAt p index (layoutChain index next chain))
    (hnext : Behind (index + sizeOfChain chain) next) :
    ∀ node ∈ layoutChain index next chain, Grouped p node := by
  match chain with
  | [] => nofun
  | item :: rest =>
    obtain ⟨hitem, hrest⟩ := eachFrom_layoutChain.mp hlaid
    rw [sizeOfChain, ← Nat.add_assoc] at hnext
    intro node hmem
    rw [layoutChain_cons] at hmem
    rcases List.mem_append.mp hmem with hmem | hmem
    · exact grouped_layout item h.1 hitem (behind_entrance hnext) node hmem
    · exact grouped_layoutChain rest h.2 hrest hnext node hmem

theorem grouped_layoutBranches (branches : List (List Item)) (h : NormalBranches branches)
    {index : Nat} {next : Option Nat}
    (hlaid : LaidAt p index (layoutBranches index next branches))
    (hnext : Behind (index + sizeOfBranches branches) next) :
    ∀ node ∈ layoutBranches index next branches, Grouped p node := by
  match branches with
  | [] => nofun
  | chain :: rest =>
    obtain ⟨hchain, hrest⟩ := eachFrom_layoutBranches.mp hlaid
    rw [sizeOfBranches, ← Nat.add_assoc] at hnext
    intro node hmem
    rw [layoutBranches] at hmem
    rcases List.mem_append.mp hmem with hmem | hmem
    · exact grouped_layoutChain chain h.1.2.2 hchain hnext.of_add node hmem
    · exact grouped_layoutBranches rest h.2 hrest hnext node hmem

end

end Layout

section Parentheses
variable {lexicon : Option Lexicon} {source : String} {p : Pattern}

theorem parse_parenthesized {d : Alternatives} (hd : d.lexemes = Lexeme.all source)
    (h : Meaningful lexicon (Lexeme.all source)) :
    ∃ chain, parse lexicon ("(" ++ source ++ ")") = .ok chain ∧
      unplacedChain chain = unplacedChain (d.chain (meaning lexicon)) := by
  have hmoved : Lexeme.scan 1 0 source.toList = (Lexeme.all source).map (moved (· + 1)) :=
    scan_add 1 0 0 source.toList
  have hinner : Written lexicon 1 source.toList ((Lexeme.all source).map (moved (· + 1))) := by
    rw [← hmoved]
    exact written_scan (hmoved ▸ h.moved _)
  have hwritten := hinner.parenthesized
  have htext : ("(" ++ source ++ ")").toList = '(' :: (source.toList ++ [')']) := by
    rw [String.toList_append, String.toList_append, List.append_assoc]
    rfl
  rw [← htext] at hwritten
  let inner := d.replace (.move (· + 1))
  let whole : Alternatives := .one (.one
    (.group ⟨"(", 0⟩ inner ⟨")", 0 + 1 + source.toList.length⟩ rfl rfl))
  have hwhole : whole.lexemes = Lexeme.all ("(" ++ source ++ ")") := by
    rw [hwritten.all_eq, ← hd, ← d.lexemes_move]
    rfl
  refine ⟨_, parse_eq_ok_iff.mpr ⟨hwritten.all_eq ▸ hwritten.meaningful, whole, hwhole, rfl⟩, ?_⟩
  -- The whole is one group, and its branches are put together again as they were.
  calc unplacedChain (whole.chain (meaning lexicon))
      = unplacedChain (inner.chain (meaning lexicon)) :=
        Chain.ofBranches_branches (inner.normal _).2
    _ = Expansion.refl.expandChain (d.chain (meaning lexicon)) :=
        d.chain_replace (Replacement.realizes_move (hd ▸ h) _)
    _ = unplacedChain (d.chain (meaning lexicon)) :=
        Expansion.expandChain_refl _ (d.normal _).2

/-- Grouping is normalized. Each choice of a compiled pattern has two children or more, and none of
them is a choice with the successor of its parent; and between parentheses a pattern compiles to the
same nodes, offsets apart. -/
theorem compile_normalizes_grouping (h : compile lexicon source = .ok p) :
    (∀ index node, p.node? index = some node → node.isChoice = true →
      2 ≤ node.children.length ∧ ∀ child ∈ node.children,
        ∃ head, p.node? child = some head ∧ (head.isChoice = true → head.next ≠ node.next)) ∧
    ∃ q, compile lexicon ("(" ++ source ++ ")") = .ok q ∧ q.unplaced = p.unplaced := by
  obtain ⟨hmeaningful, ⟨d, hd, hp⟩, -⟩ := compile_eq_ok h
  constructor
  · intro index node hnode
    rw [hp] at hnode ⊢
    exact grouped_layoutChain _ (d.normal _).2 (laidAt_ofChain _ source) nofun node
      (mem_layout hnode)
  · obtain ⟨chain, hparse, hchain⟩ := parse_parenthesized hd hmeaningful
    have hunplaced : (ofChain chain ("(" ++ source ++ ")")).unplaced = p.unplaced := by
      rw [hp]
      exact unplaced_ofChain hchain _ _
    exact ⟨_, compile_of_unplaced h hparse hunplaced, hunplaced⟩

end Parentheses

theorem normalizes_nested_groups : ∃ p q,
    compile none "(a, (b, c) d, ((e, f))) g" = .ok p ∧
      (p.node? 0).map Node.children = some [1, 2, 6, 7] ∧
      (p.node? 2).map Node.next = some (some 5) ∧ (p.node? 0).map Node.next = some (some 8) ∧
      compile none ("(" ++ "(a, (b, c) d, ((e, f))) g" ++ ")") = .ok q ∧
      q.unplaced = p.unplaced := by
  have hcompile : compile none "(a, (b, c) d, ((e, f))) g" = .ok (ofChain
      [.choice [[.term (.form "a" .plain) 1],
        [.choice [[.term (.form "b" .plain) 5], [.term (.form "c" .plain) 8]] 4,
          .term (.form "d" .plain) 11],
        [.term (.form "e" .plain) 16], [.term (.form "f" .plain) 19]] 0,
      .term (.form "g" .plain) 24] "(a, (b, c) d, ((e, f))) g") := by
    cbv
  obtain ⟨-, q, hq, hunplaced⟩ := compile_normalizes_grouping hcompile
  exact ⟨_, q, hcompile, by cbv, by cbv, by cbv, hq, hunplaced⟩

end Concordance.Pattern
