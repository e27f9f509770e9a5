import Mathlib
import Concordance.Proofs.Pattern.Compiled

/-! Compiling keeps the language of a pattern. Main statement: the sequences of conditions along the
paths of the graph are those that the grammar derives from the text, in the same order. -/

namespace Concordance.Pattern

open Item Phrase

inductive Path (p : Pattern) : Option Nat → List Condition → Prop
  | done : Path p none []
  | term {i : Nat} {node : Node} {rest : List Condition} : p.node? i = some node →
      node.isChoice = false → Path p node.next rest → Path p (some i) (node.condition :: rest)
  | choice {i child : Nat} {node : Node} {conditions : List Condition} :
      p.node? i = some node → node.isChoice = true → child ∈ node.children →
      Path p (some child) conditions → Path p (some i) conditions

/-- All paths from a node to the end of the pattern, those of a choice in the order of its
children. -/
inductive Paths (p : Pattern) : Option Nat → List (List Condition) → Prop
  | done : Paths p none [[]]
  | term {i : Nat} {node : Node} {rest : List (List Condition)} : p.node? i = some node →
      node.isChoice = false → Paths p node.next rest →
      Paths p (some i) (combine [[node.condition]] rest)
  | choice {i : Nat} {node : Node} (listing : Nat → List (List Condition)) :
      p.node? i = some node → node.isChoice = true →
      (∀ child ∈ node.children, Paths p (some child) (listing child)) →
      Paths p (some i) (node.children.flatMap listing)

def StandFor (lexicon : Option Lexicon) : List Lexeme → List Condition → Prop :=
  List.Forall₂ fun lexeme condition => lexeme.term lexicon = .ok condition

section Paths
variable {p : Pattern}

theorem flatMap_eq_of_mem {α β : Type} {f g : α → List β} {xs : List α}
    (h : ∀ x ∈ xs, f x = g x) : xs.flatMap f = xs.flatMap g := by
  rw [List.flatMap_def, List.flatMap_def, List.map_congr_left h]

theorem term_ne_choice {i : Nat} {node node' : Node} (hnode : p.node? i = some node)
    (hterm : node.isChoice = false) (hnode' : p.node? i = some node')
    (hchoice : node'.isChoice = true) : False := by
  cases hnode.symm.trans hnode'
  rw [hterm] at hchoice
  cases hchoice

theorem Paths.unique {i : Option Nat} {first second : List (List Condition)}
    (h : p.Paths i first) (h' : p.Paths i second) : first = second := by
  induction h generalizing second with
  | done =>
    cases h'
    rfl
  | term hnode hterm _ ih =>
    cases h' with
    | term hnode' _ hrest =>
      cases hnode.symm.trans hnode'
      rw [ih hrest]
    | choice _ hnode' hchoice _ => exact (term_ne_choice hnode hterm hnode' hchoice).elim
  | choice listing hnode hchoice _ ih =>
    cases h' with
    | term hnode' hterm _ => exact (term_ne_choice hnode' hterm hnode hchoice).elim
    | choice listing' hnode' _ hchildren =>
      cases hnode.symm.trans hnode'
      exact flatMap_eq_of_mem fun child hmem => ih child hmem (hchildren child hmem)

theorem Paths.path_iff {i : Option Nat} {listing : List (List Condition)}
    (h : p.Paths i listing) (conditions : List Condition) :
    p.Path i conditions ↔ conditions ∈ listing := by
  induction h generalizing conditions with
  | done =>
    constructor
    · intro hpath
      cases hpath
      exact List.mem_singleton.mpr rfl
    · intro hmem
      cases List.mem_singleton.mp hmem
      exact .done
  | term hnode hterm _ ih =>
    constructor
    · intro hpath
      cases hpath with
      | term hnode' _ hrest =>
        cases hnode.symm.trans hnode'
        simpa [combine] using (ih _).mp hrest
      | choice hnode' hchoice _ _ => exact (term_ne_choice hnode hterm hnode' hchoice).elim
    · intro hmem
      obtain ⟨rest, hrest, rfl⟩ : ∃ rest, _ ∧ _ := by simpa [combine] using hmem
      exact .term hnode hterm ((ih rest).mpr hrest)
  | choice listing hnode hchoice _ ih =>
    constructor
    · intro hpath
      cases hpath with
      | term hnode' hterm _ => exact (term_ne_choice hnode' hterm hnode hchoice).elim
      | choice hnode' _ hchild hrest =>
        cases hnode.symm.trans hnode'
        exact List.mem_flatMap.mpr ⟨_, hchild, (ih _ hchild conditions).mp hrest⟩
    · intro hmem
      obtain ⟨child, hchild, hrest⟩ := List.mem_flatMap.mp hmem
      exact .choice hnode hchoice hchild ((ih child hchild conditions).mpr hrest)

theorem exists_listing {α : Type} {f : α → List (List Condition)} {children : List Nat}
    {branches : List α}
    (h : List.Forall₂ (fun child branch => p.Paths (some child) (f branch)) children branches) :
    ∃ listing : Nat → List (List Condition),
      (∀ child ∈ children, p.Paths (some child) (listing child)) ∧
        children.flatMap listing = branches.flatMap f := by
  have hexists : ∀ child ∈ children, ∃ l, p.Paths (some child) l := by
    intro child hmem
    induction h with
    | nil => simp at hmem
    | cons hhead _ ih =>
      rcases List.mem_cons.mp hmem with rfl | hmem
      · exact ⟨_, hhead⟩
      · exact ih hmem
  choose! listing hlisting using hexists
  refine ⟨listing, hlisting, ?_⟩
  induction h with
  | nil => rfl
  | cons hhead _ ih =>
    rw [List.flatMap_cons, List.flatMap_cons, (hlisting _ List.mem_cons_self).unique hhead]
    rw [ih fun child hmem => hlisting child (List.mem_cons_of_mem _ hmem)]

theorem combine_readingsOfBranches (branches : List Chain) (rest : List (List Condition)) :
    combine (readingsOfBranches branches) rest =
      branches.flatMap fun chain => combine (readingsOfChain chain) rest := by
  induction branches with
  | nil => rfl
  | cons chain branches ih => rw [readingsOfBranches, append_combine, ih, List.flatMap_cons]

mutual

theorem paths_layout (item : Item) (h : item.Normal) {index : Nat} {next : Option Nat}
    {rest : List (List Condition)} (hlaid : LaidAt p index (item.layout index next))
    (hrest : p.Paths next rest) : p.Paths (some index) (combine item.readings rest) := by
  match item with
  | .term condition position =>
    obtain ⟨hnode, -⟩ := eachFrom_cons.mp hlaid
    exact .term hnode rfl hrest
  | .choice branches position =>
    obtain ⟨hnode, hbranches⟩ := eachFrom_cons.mp hlaid
    obtain ⟨listing, hlisting, heq⟩ :=
      exists_listing (paths_layoutBranches branches h.2 hbranches hrest)
    have hchoice : (branchHeads (index + 1) branches).isEmpty = false := by
      simpa using branchHeads_ne_nil h.1 (index + 1)
    rw [readings, combine_readingsOfBranches, ← heq]
    exact .choice listing hnode (by simp [Node.isChoice, hchoice]) hlisting

theorem paths_layoutChain (chain : List Item) (h : NormalChain chain) {index : Nat}
    {next : Option Nat} {rest : List (List Condition)}
    (hlaid : LaidAt p index (layoutChain index next chain)) (hrest : p.Paths next rest) :
    p.Paths (Chain.entrance index next chain) (combine (readingsOfChain chain) rest) := by
  match chain with
  | [] =>
    rw [readingsOfChain, empty_combine]
    exact hrest
  | item :: items =>
    obtain ⟨hitem, hitems⟩ := eachFrom_layoutChain.mp hlaid
    rw [readingsOfChain, combine_assoc]
    exact paths_layout item h.1 hitem (paths_layoutChain items h.2 hitems hrest)

theorem paths_layoutBranches (branches : List (List Item)) (h : NormalBranches branches)
    {index : Nat} {next : Option Nat} {rest : List (List Condition)}
    (hlaid : LaidAt p index (layoutBranches index next branches)) (hrest : p.Paths next rest) :
    List.Forall₂
      (fun head chain => p.Paths (some head) (combine (readingsOfChain chain) rest))
      (branchHeads index branches) branches := by
  match branches with
  | [] => exact .nil
  | chain :: others =>
    obtain ⟨hchain, hothers⟩ := eachFrom_layoutBranches.mp hlaid
    -- All branches end at the same follower, so that `rest` goes on from each of them.
    refine .cons ?_ (paths_layoutBranches others h.2 hothers hrest)
    have hpaths := paths_layoutChain chain h.1.2.2 hchain hrest
    rwa [Chain.entrance, if_neg (by simpa using h.1.1)] at hpaths

end

theorem paths_ofChain {chain : Chain} (hne : chain ≠ []) (h : NormalChain chain)
    (source : String) : (ofChain chain source).Paths (some root) (readingsOfChain chain) := by
  have hpaths := paths_layoutChain chain h (laidAt_ofChain chain source) .done
  rwa [Chain.entrance, if_neg (by simpa using hne), combine_empty] at hpaths

end Paths

theorem forall₂_iff_eq_map {α β : Type} {R : α → β → Prop} {f : α → β} {xs : List α}
    (h : ∀ x ∈ xs, ∀ y, R x y ↔ y = f x) (ys : List β) :
    List.Forall₂ R xs ys ↔ ys = xs.map f := by
  induction xs generalizing ys with
  | nil => simp
  | cons x rest ih =>
    have hrest := ih fun x' hmem => h x' (List.mem_cons_of_mem _ hmem)
    rw [List.forall₂_cons_left_iff, List.map_cons]
    constructor
    · rintro ⟨y, ys', hy, hys, rfl⟩
      rw [(h x List.mem_cons_self y).mp hy, (hrest ys').mp hys]
    · rintro rfl
      exact ⟨_, _, (h x List.mem_cons_self _).mpr rfl, (hrest _).mpr rfl, rfl⟩

theorem standFor_iff {lexicon : Option Lexicon} {reading : List Lexeme}
    (h : ∀ lexeme ∈ reading, ∃ c, lexeme.term lexicon = .ok c) (conditions : List Condition) :
    StandFor lexicon reading conditions ↔ conditions = reading.map (meaning lexicon) := by
  apply forall₂_iff_eq_map
  intro lexeme hmem c
  rw [term_eq_meaning (h lexeme hmem), Except.ok.injEq]
  exact eq_comm

/-- The paths through a compiled pattern are the sequences that the grammar derives from its text,
one branch being picked at every list of alternatives, and they come in the order of the text. -/
theorem paths_of_compile {lexicon : Option Lexicon} {source : String} {p : Pattern}
    (h : compile lexicon source = .ok p) :
    (∃ d : Alternatives, d.lexemes = Lexeme.all source) ∧
    ∀ d : Alternatives, d.lexemes = Lexeme.all source →
      (∀ conditions, p.Path (some root) conditions ↔
        ∃ reading ∈ d.readings, StandFor lexicon reading conditions) ∧
      ∃ listing, List.Forall₂ (StandFor lexicon) d.readings listing ∧
        ∀ other, p.Paths (some root) other ↔ other = listing := by
  obtain ⟨hmeaningful, ⟨d₀, hd₀, rfl⟩, -⟩ := compile_eq_ok h
  refine ⟨⟨d₀, hd₀⟩, fun d hd => ?_⟩
  have hchain : d₀.chain (meaning lexicon) = d.chain (meaning lexicon) := by
    have hparse := parse_of_phrase d hd hmeaningful
    rw [parse_of_phrase d₀ hd₀ hmeaningful] at hparse
    exact Except.ok.inj hparse
  rw [hchain]
  have hpaths : (ofChain (d.chain (meaning lexicon)) source).Paths (some root)
      (d.readings.map (List.map (meaning lexicon))) := by
    rw [← d.readings_eq]
    exact paths_ofChain (d.normal _).1 (d.normal _).2 source
  have hstand (reading : List Lexeme) (hreading : reading ∈ d.readings)
      (conditions : List Condition) :
      StandFor lexicon reading conditions ↔ conditions = reading.map (meaning lexicon) := by
    apply standFor_iff
    intro lexeme hmem
    have hterm := d.mem_readings hreading hmem
    rw [hd] at hterm
    simp only [terms, List.mem_filter, Bool.not_eq_true'] at hterm
    exact hmeaningful lexeme hterm.1 hterm.2
  refine ⟨fun conditions => ?_, _, (forall₂_iff_eq_map hstand _).mpr rfl, fun other => ?_⟩
  · rw [hpaths.path_iff, List.mem_map]
    constructor
    · rintro ⟨reading, hreading, rfl⟩
      exact ⟨reading, hreading, (hstand reading hreading _).mpr rfl⟩
    · rintro ⟨reading, hreading, hconditions⟩
      exact ⟨reading, hreading, ((hstand reading hreading _).mp hconditions).symm⟩
  · constructor
    · intro hother
      exact hother.unique hpaths
    · rintro rfl
      exact hpaths

/-- Parentheses around alternatives among alternatives say nothing: of the three branches of the
text, a path leads through the last. -/
theorem path_through_inner_group : ∃ p, compile none "a, (b, c d)" = .ok p ∧
    p.Path (some root) [.form "c" .plain, .form "d" .plain] := by
  have hcompile : compile none "a, (b, c d)" = .ok (ofChain [.choice [
      [.term (.form "a" .plain) 0], [.term (.form "b" .plain) 4],
      [.term (.form "c" .plain) 7, .term (.form "d" .plain) 9]] 0] "a, (b, c d)") := by
    cbv
  let inner : Alternatives :=
    .snoc (.one (.one (.term ⟨"b", 4⟩ (by cbv)))) ⟨",", 5⟩
      (.snoc (.one (.term ⟨"c", 7⟩ (by cbv))) (.term ⟨"d", 9⟩ (by cbv))) rfl
  let d : Alternatives := .snoc (.one (.one (.term ⟨"a", 0⟩ (by cbv)))) ⟨",", 1⟩
    (.one (.group ⟨"(", 3⟩ inner ⟨")", 10⟩ rfl rfl)) rfl
  have hlexemes : d.lexemes = Lexeme.all "a, (b, c d)" := by cbv
  refine ⟨_, hcompile, (((paths_of_compile hcompile).2 d hlexemes).1 _).mpr ?_⟩
  exact ⟨[⟨"c", 7⟩, ⟨"d", 9⟩], by simp [d, inner, Alternatives.readings, Sequence.readings,
    Atom.readings, combine], .cons (by cbv) (.cons (by cbv) .nil)⟩

end Concordance.Pattern
