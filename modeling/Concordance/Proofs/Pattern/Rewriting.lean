import Concordance.Proofs.Pattern.Display
import Concordance.Proofs.Pattern.TermDisplay
import Concordance.Proofs.Pattern.Unplaced

/-! Patterns written from their compiled form. A tree is written as a phrase of the grammar, which is
read as the same tree but for offsets. The main statement says that a compiled pattern is written as
its tree, and compiled from that again into the same nodes. -/

namespace Concordance.Pattern

namespace Phrase

def Sequence.cons (first : Atom) : Sequence → Sequence
  | .one atom => .snoc (.one first) atom
  | .snoc before atom => .snoc (Sequence.cons first before) atom

def Alternatives.cons (first : Sequence) (comma : Lexeme) (separates : comma.text = ",") :
    Alternatives → Alternatives
  | .one sequence => .snoc (.one first) comma sequence separates
  | .snoc before other sequence h =>
    .snoc (Alternatives.cons first comma separates before) other sequence h

section
variable (condition : Lexeme → Condition)

@[simp] theorem Sequence.lexemes_cons (first : Atom) (d : Sequence) :
    (d.cons first).lexemes = first.lexemes ++ d.lexemes := by
  fun_induction Sequence.cons first d with
  | case1 atom => rfl
  | case2 before atom ih => rw [Sequence.lexemes, ih, Sequence.lexemes, List.append_assoc]

@[simp] theorem Sequence.chain_cons (first : Atom) (d : Sequence) :
    (d.cons first).chain condition = first.chain condition ++ d.chain condition := by
  fun_induction Sequence.cons first d with
  | case1 atom => rfl
  | case2 before atom ih => rw [Sequence.chain, ih, Sequence.chain, List.append_assoc]

@[simp] theorem Alternatives.lexemes_cons (first : Sequence) {comma : Lexeme}
    (separates : comma.text = ",") (d : Alternatives) :
    (d.cons first comma separates).lexemes = first.lexemes ++ comma :: d.lexemes := by
  fun_induction Alternatives.cons first comma separates d with
  | case1 sequence => rfl
  | case2 before other sequence _ ih =>
    rw [Alternatives.lexemes, ih, Alternatives.lexemes, List.append_assoc, List.cons_append]

@[simp] theorem Alternatives.branches_cons (first : Sequence) {comma : Lexeme}
    (separates : comma.text = ",") (d : Alternatives) :
    (d.cons first comma separates).branches condition =
      (first.chain condition).branches ++ d.branches condition := by
  fun_induction Alternatives.cons first comma separates d with
  | case1 sequence => rfl
  | case2 before other sequence _ ih =>
    rw [Alternatives.branches, ih, Alternatives.branches, List.append_assoc]

end

end Phrase

open Item Phrase Lexeme

/-- A text is read, at an offset, as lexemes of which each term stands for a condition. -/
structure Written (lexicon : Option Lexicon) (position : Nat) (text : List Char)
    (lexemes : List Lexeme) : Prop where
  scan_eq (rest : List Char) : Closes rest → scan position 0 (text ++ rest) =
    lexemes ++ scan (position + text.length) 0 rest
  meaningful : Meaningful lexicon lexemes

section Written
variable {lexicon : Option Lexicon} {position : Nat} {text other : List Char}
  {lexemes others : List Lexeme}

theorem Meaningful.append (h : Meaningful lexicon lexemes) (h' : Meaningful lexicon others) :
    Meaningful lexicon (lexemes ++ others) := fun lexeme hmem =>
  (List.mem_append.mp hmem).elim (h lexeme) (h' lexeme)

theorem Written.append (h : Written lexicon position text lexemes)
    (h' : Written lexicon (position + text.length) other others)
    (hcloses : ∀ rest, Closes rest → Closes (other ++ rest)) :
    Written lexicon position (text ++ other) (lexemes ++ others) := by
  refine ⟨fun rest hrest => ?_, h.meaningful.append h'.meaningful⟩
  rw [List.append_assoc, h.scan_eq _ (hcloses rest hrest), h'.scan_eq rest hrest,
    List.append_assoc, List.length_append, Nat.add_assoc]

theorem Written.blank (h : Written lexicon (position + 1) text lexemes) :
    Written lexicon position (' ' :: text) lexemes := by
  refine ⟨fun rest hrest => ?_, h.meaningful⟩
  rw [List.cons_append, scan_blank, h.scan_eq rest hrest, List.length_cons, Nat.add_right_comm,
    Nat.add_assoc]

theorem Written.mark {mark : Char} (hmark : mark ∈ ['(', ')', ','])
    (h : Written lexicon (position + 1) text lexemes) :
    Written lexicon position (mark :: text) (⟨String.ofList [mark], position⟩ :: lexemes) := by
  refine ⟨fun rest hrest => ?_, ?_⟩
  · rw [List.cons_append, scan_mark hmark, h.scan_eq rest hrest, List.length_cons,
      Nat.add_right_comm, Nat.add_assoc, List.cons_append]
  · rintro lexeme hmem hterm
    rcases List.mem_cons.mp hmem with rfl | hmem
    · rw [isMark_of_mark hmark rfl] at hterm
      cases hterm
    · exact h.meaningful lexeme hmem hterm

theorem Written.nil : Written lexicon position [] [] := by
  refine ⟨fun _ _ => rfl, fun lexeme hmem _ => ?_⟩
  cases hmem

theorem Written.term {c : Condition} (h : Speaks lexicon c) :
    Written lexicon position c.display.toList [⟨c.display, position⟩] := by
  refine ⟨fun rest hrest => ?_, fun lexeme hmem _ => ?_⟩
  · rw [h.whole.scan hrest, String.ofList_toList]
    rfl
  · cases List.mem_singleton.mp hmem
    exact ⟨c, h.term_eq position⟩

theorem meaning_display {c : Condition} (h : Speaks lexicon c) :
    meaning lexicon ⟨c.display, position⟩ = c := by
  rw [meaning, h.term_eq]
  rfl

theorem closes_cons {c : Char} (h : isWordChar c = false) (text rest : List Char) :
    Closes (c :: text ++ rest) := by
  intro d hd
  cases hd
  exact h

end Written

section Display
variable {item : Item} {chain : Chain} {rest : Chain} {branches : List Chain}

theorem display_singleton (item : Item) : Chain.display [item] = item.display := by
  rw [Chain.display, displayItems, displayItems, String.intercalate_singleton]

theorem display_cons (h : rest ≠ []) : (Chain.display (item :: rest)).toList =
    item.display.toList ++ ' ' :: (Chain.display rest).toList := by
  obtain ⟨next, rest, rfl⟩ := List.exists_cons_of_ne_nil h
  rw [Chain.display, displayItems, displayItems, String.intercalate_cons_cons,
    String.toList_append, String.toList_append, List.append_assoc]
  rfl

def displayAlternatives (branches : List Chain) : String :=
  ", ".intercalate (displayBranches branches)

theorem displayAlternatives_singleton (chain : Chain) :
    displayAlternatives [chain] = chain.display := by
  rw [displayAlternatives, displayBranches, displayBranches, String.intercalate_singleton,
    Chain.display]

theorem displayAlternatives_cons (h : branches ≠ []) :
    (displayAlternatives (chain :: branches)).toList =
      (Chain.display chain).toList ++ ',' :: ' ' :: (displayAlternatives branches).toList := by
  obtain ⟨next, rest, rfl⟩ := List.exists_cons_of_ne_nil h
  rw [displayAlternatives, displayBranches, displayBranches, String.intercalate_cons_cons,
    String.toList_append, String.toList_append, List.append_assoc]
  rfl

theorem display_choice (branches : List Chain) (position : Nat) :
    (Item.choice branches position).display.toList =
      '(' :: ((displayAlternatives branches).toList ++ [')']) := by
  rw [Item.display, String.toList_append, String.toList_append, List.append_assoc]
  rfl

end Display

theorem Chain.branches_eq {chain : Chain} (h : chain.isChoice = false) :
    chain.branches = [chain] := by
  unfold Chain.branches
  split
  · cases h
  · rfl

theorem Chain.ofBranches_eq {branches : List Chain} (h : 2 ≤ branches.length) (position : Nat) :
    Chain.ofBranches position branches = [.choice branches position] := by
  match branches with
  | _ :: _ :: _ => rfl

theorem Chain.ofBranches_branches {chain : Chain} (h : NormalChain chain) :
    unplacedChain (Chain.ofBranches 0 chain.branches) = unplacedChain chain := by
  cases hchoice : chain.isChoice with
  | false =>
    rw [Chain.branches_eq hchoice]
    rfl
  | true =>
    match chain with
    | [.choice branches position] =>
      rw [Chain.branches, Chain.ofBranches_eq h.1.1]
      rfl

section
variable {lexicon : Option Lexicon}

mutual

theorem written_item (item : Item) (h : item.Normal)
    (hspeaks : ∀ leaf ∈ item.leaves, Speaks lexicon leaf.1) (position : Nat) :
    ∃ d : Atom, Written lexicon position item.display.toList d.lexemes ∧
      unplacedChain (d.chain (meaning lexicon)) = [item.unplaced] := by
  match item with
  | .term condition offset =>
    have hterm := hspeaks (condition, offset) (by simp [leaves])
    have hdisplay : (Item.term condition offset).display = condition.display := by
      rw [Item.display]
    refine ⟨.term ⟨condition.display, position⟩ hterm.whole.isMark, ?_, ?_⟩
    · rw [hdisplay]
      exact .term hterm
    · rw [Atom.chain, meaning_display hterm]
      rfl
  | .choice branches offset =>
    have hne : branches ≠ [] := List.ne_nil_of_length_pos (Nat.lt_of_lt_of_le Nat.zero_lt_two h.1)
    obtain ⟨inner, hwritten, hbranches⟩ :=
      written_branches branches hne h.2 hspeaks (position + 1)
    have hclosing : isWordChar ')' = false := by decide
    refine ⟨.group ⟨"(", position⟩ inner
      ⟨")", position + 1 + (displayAlternatives branches).toList.length⟩ rfl rfl, ?_, ?_⟩
    · rw [display_choice]
      exact .mark (by decide)
        (hwritten.append (.mark (by decide) .nil) fun rest _ => closes_cons hclosing [] rest)
    · rw [Atom.chain, unplacedChain_ofBranches, hbranches,
        Chain.ofBranches_eq (by rw [length_unplacedBranches]; exact h.1)]
      rfl

theorem written_chain (chain : List Item) (hne : chain ≠ []) (h : NormalChain chain)
    (hspeaks : ∀ leaf ∈ leavesOfChain chain, Speaks lexicon leaf.1) (position : Nat) :
    ∃ d : Sequence, Written lexicon position (Chain.display chain).toList d.lexemes ∧
      unplacedChain (d.chain (meaning lexicon)) = unplacedChain chain := by
  match chain with
  | item :: rest =>
    obtain ⟨atom, hitem, hatom⟩ := written_item item h.1
      (fun leaf hmem => hspeaks leaf (List.mem_append_left _ hmem)) position
    by_cases hrest : rest = []
    · subst hrest
      refine ⟨.one atom, ?_, hatom⟩
      rw [display_singleton]
      exact hitem
    · obtain ⟨d, hwritten, hchain⟩ := written_chain rest hrest h.2
        (fun leaf hmem => hspeaks leaf (List.mem_append_right _ hmem))
        (position + item.display.toList.length + 1)
      have hblank : isWordChar ' ' = false := by decide
      refine ⟨d.cons atom, ?_, ?_⟩
      · rw [display_cons hrest, Sequence.lexemes_cons]
        exact hitem.append hwritten.blank fun tail _ => closes_cons hblank _ tail
      · rw [Sequence.chain_cons, unplacedChain_append, hatom, hchain]
        rfl

theorem written_branches (branches : List (List Item)) (hne : branches ≠ [])
    (h : NormalBranches branches)
    (hspeaks : ∀ leaf ∈ leavesOfBranches branches, Speaks lexicon leaf.1) (position : Nat) :
    ∃ d : Alternatives, Written lexicon position (displayAlternatives branches).toList d.lexemes ∧
      unplacedBranches (d.branches (meaning lexicon)) = unplacedBranches branches := by
  match branches with
  | chain :: rest =>
    obtain ⟨sequence, hchain, hsequence⟩ := written_chain chain h.1.1 h.1.2.2
      (fun leaf hmem => hspeaks leaf (List.mem_append_left _ hmem)) position
    -- A branch that is no choice by itself is not spliced into the others when it is read.
    have hlone : Chain.isChoice (sequence.chain (meaning lexicon)) = false := by
      rw [← isChoice_unplacedChain, hsequence, isChoice_unplacedChain, h.1.2.1]
    by_cases hrest : rest = []
    · subst hrest
      refine ⟨.one sequence, ?_, ?_⟩
      · rw [displayAlternatives_singleton]
        exact hchain
      · rw [Alternatives.branches, Chain.branches_eq hlone, unplacedBranches, hsequence]
        rfl
    · obtain ⟨d, hwritten, hbranches⟩ := written_branches rest hrest h.2
        (fun leaf hmem => hspeaks leaf (List.mem_append_right _ hmem))
        (position + (Chain.display chain).toList.length + 2)
      have hcomma : isWordChar ',' = false := by decide
      let comma : Lexeme := ⟨",", position + (Chain.display chain).toList.length⟩
      refine ⟨d.cons sequence comma rfl, ?_, ?_⟩
      · rw [displayAlternatives_cons hrest, Alternatives.lexemes_cons]
        exact hchain.append (.mark (by decide) hwritten.blank) fun tail _ =>
          closes_cons hcomma _ tail
      · rw [Alternatives.branches_cons, unplacedBranches_append, Chain.branches_eq hlone, hbranches,
          unplacedBranches, hsequence]
        rfl

end

theorem parse_display {chain : Chain} (hne : chain ≠ []) (h : NormalChain chain)
    (hspeaks : ∀ leaf ∈ leavesOfChain chain, Speaks lexicon leaf.1) :
    ∃ again, parse lexicon chain.display = .ok again ∧
      unplacedChain again = unplacedChain chain := by
  obtain ⟨d, hwritten, hchain⟩ := written_chain chain hne h hspeaks 0
  have hlexemes : d.lexemes = Lexeme.all chain.display := by
    have hscan := hwritten.scan_eq [] (by simp [Closes])
    rw [List.append_nil, Lexeme.scan, List.append_nil] at hscan
    exact hscan.symm
  refine ⟨(Alternatives.one d).chain (meaning lexicon), parse_eq_ok_iff.mpr
    ⟨hlexemes ▸ hwritten.meaningful, .one d, hlexemes, rfl⟩, ?_⟩
  rw [← hchain, ← Chain.ofBranches_branches (d.normal_chain (meaning lexicon)).2]
  rfl

theorem display_ofChain {chain : Chain} (hne : chain ≠ []) (h : NormalChain chain)
    (source : String) : (ofChain chain source).display = chain.display := by
  have hentrance : Chain.entrance 0 none chain = some root := Chain.entrance_of_ne_nil hne 0 none
  have hsteps : (ofChain chain source).size ≤ 0 + (ofChain chain source).size := Nat.le_add_left _ _
  have hshown := display_layoutChain chain h (laidAt_ofChain chain source)
    (fun j hj => by cases hj) hsteps
  rw [hentrance] at hshown
  rw [display, hshown, Chain.display]

theorem tree_of_compile {source : String} {p : Pattern} (h : compile lexicon source = .ok p) :
    ∃ chain, chain ≠ [] ∧ NormalChain chain ∧
      (∀ leaf ∈ leavesOfChain chain, Speaks lexicon leaf.1) ∧ p = ofChain chain source := by
  obtain ⟨hmeaningful, ⟨d, hd, hp⟩, -⟩ := compile_eq_ok h
  obtain ⟨hne, hnormal⟩ := d.normal (meaning lexicon)
  refine ⟨_, hne, hnormal, fun leaf hleaf => ?_, hp⟩
  rw [d.leaves, hd] at hleaf
  obtain ⟨lexeme, hlexeme, rfl⟩ := List.mem_map.mp hleaf
  obtain ⟨hmem, hterm⟩ := List.mem_filter.mp hlexeme
  rw [Bool.not_eq_true'] at hterm
  exact speaks_of_term hmem hterm (term_eq_meaning (hmeaningful lexeme hmem hterm))

theorem compile_of_unplaced {source text : String} {p : Pattern} {chain : Chain}
    (h : compile lexicon source = .ok p) (hparse : parse lexicon text = .ok chain)
    (hunplaced : (ofChain chain text).unplaced = p.unplaced) :
    compile lexicon text = .ok (ofChain chain text) := by
  obtain ⟨-, -, hgaps⟩ := compile_eq_ok h
  have hchecked : checkGaps (ofChain chain text) = .ok () := by
    rw [← checkGaps_unplaced, hunplaced, checkGaps_unplaced, hgaps]
  rw [compile, mapError_eq_ok]
  exact bind_eq_ok.mpr ⟨chain, hparse, bind_eq_ok.mpr ⟨(), hchecked, rfl⟩⟩

theorem compile_written {source : String} {p : Pattern} (h : compile lexicon source = .ok p) :
    ∃ q, compile lexicon p.display = .ok q ∧ q.unplaced = p.unplaced := by
  obtain ⟨chain, hne, hnormal, hspeaks, hp⟩ := tree_of_compile h
  obtain ⟨again, hparse, hagain⟩ := parse_display hne hnormal hspeaks
  rw [← display_ofChain hne hnormal source, ← hp] at hparse
  have hunplaced : (ofChain again p.display).unplaced = p.unplaced := by
    rw [unplaced_ofChain hagain _ source, ← hp]
  exact ⟨_, compile_of_unplaced h hparse hunplaced, hunplaced⟩

/-- A compiled pattern is written as its tree is, and compiled again from what is written it has the
same nodes, offsets apart. So it is written the same again. -/
theorem compile_display {source : String} {p : Pattern} (h : compile lexicon source = .ok p) :
    (∃ chain, parse lexicon source = .ok chain ∧ p.display = chain.display) ∧
    ∃ q, compile lexicon p.display = .ok q ∧ q.unplaced = p.unplaced ∧ q.display = p.display := by
  obtain ⟨hmeaningful, ⟨d, hd, hp⟩, hgaps⟩ := compile_eq_ok h
  obtain ⟨hne, hnormal⟩ := d.normal (meaning lexicon)
  have hdisplay : p.display = Chain.display (d.chain (meaning lexicon)) := by
    rw [hp, display_ofChain hne hnormal]
  have hspeaks : ∀ leaf ∈ leavesOfChain (d.chain (meaning lexicon)), Speaks lexicon leaf.1 := by
    intro leaf hleaf
    rw [d.leaves, hd] at hleaf
    obtain ⟨lexeme, hmem, rfl⟩ := List.mem_map.mp hleaf
    simp only [terms, List.mem_filter, Bool.not_eq_true'] at hmem
    exact speaks_of_term hmem.1 hmem.2 (term_eq_meaning (hmeaningful lexeme hmem.1 hmem.2))
  refine ⟨⟨_, parse_eq_ok_iff.mpr ⟨hmeaningful, d, hd, rfl⟩, hdisplay⟩, ?_⟩
  obtain ⟨again, hparse, hagain⟩ := parse_display hne hnormal hspeaks
  have hunplaced : (ofChain again p.display).unplaced = p.unplaced := by
    rw [hp]
    exact unplaced_ofChain hagain _ _
  -- The check for gaps and the writing see no offsets, so both come out as they did.
  refine ⟨ofChain again p.display, ?_, hunplaced, ?_⟩
  · have hchecked : checkGaps (ofChain again p.display) = .ok () := by
      rw [← checkGaps_unplaced, hunplaced, checkGaps_unplaced, hgaps]
    rw [compile, mapError_eq_ok, hdisplay]
    exact bind_eq_ok.mpr ⟨again, hparse, bind_eq_ok.mpr ⟨(), hdisplay ▸ hchecked, rfl⟩⟩
  · rw [← display_unplaced, hunplaced, display_unplaced]

/-- Parentheses that say nothing are left out, lists and numbers are written in one way. -/
theorem compile_display_nested : ∃ p q,
    compile none "(a, (b c/VERB, \x22SUB\x22)) [ SUB   ADJ] **07 (d, e*f)" = .ok p ∧
      p.display = "(a, b c/VERB, \x22SUB\x22) [SUB ADJ] **7 (d, e*f)" ∧
      compile none p.display = .ok q ∧ q.unplaced = p.unplaced := by
  have hdisplay :
      (compile none "(a, (b c/VERB, \x22SUB\x22)) [ SUB   ADJ] **07 (d, e*f)").toOption.map
        display = some "(a, b c/VERB, \x22SUB\x22) [SUB ADJ] **7 (d, e*f)" := by
    decide +kernel
  obtain ⟨p, hp, hshown⟩ := Option.map_eq_some_iff.mp hdisplay
  have hcompile := toOption_eq_some.mp hp
  obtain ⟨-, q, hq, hunplaced, -⟩ := compile_display hcompile
  exact ⟨p, q, hcompile, hshown, hq, hunplaced⟩

end
end Concordance.Pattern
