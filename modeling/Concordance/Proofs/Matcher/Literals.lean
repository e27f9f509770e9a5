import Concordance.Proofs.Matcher.Slices
import Concordance.Proofs.Matcher.Soundness
import Concordance.Proofs.Pattern.Gaps
import Concordance.Proofs.Pattern.Language

/-! The literals of a pattern as a filter before it is run. What a match is cut along is a path, and
each form or headword that a term of the path mentions is that of an occurrence of the match. A
pattern without choices has one path, on which all its terms stand; so a stream that lacks one of
its literals has no match of it. -/

namespace Concordance

/-- What is left of a list without repetitions stands in the order of first mention. -/
theorem eraseDups_pairwise {α : Type} [BEq α] [LawfulBEq α] (xs : List α) :
    xs.eraseDups.Pairwise fun a b => ∃ front rest, xs = front ++ a :: rest ∧ b ∉ front ++ [a] := by
  match xs with
  | [] => exact .nil
  | x :: xs =>
    have hother {a : α} (ha : a ∈ (xs.filter fun b => !b == x).eraseDups) : (!a == x) = true :=
      (List.mem_filter.mp (List.mem_eraseDups.mp ha)).2
    rw [List.eraseDups_cons, List.pairwise_cons]
    refine ⟨fun b hb => ⟨[], xs, rfl, ?_⟩, (eraseDups_pairwise _).imp_of_mem ?_⟩
    · simpa using hother hb
    · rintro a b - hb ⟨front, rest, hsplit, hbehind⟩
      obtain ⟨passed, tail, rfl, rfl, htail⟩ := List.filter_eq_append_iff.mp hsplit
      obtain ⟨skipped, rest, rfl, hskipped, -, -⟩ := List.filter_eq_cons_iff.mp htail
      refine ⟨x :: (passed ++ skipped), rest, by simp, fun hmem => ?_⟩
      have hb := hother hb
      simp only [List.cons_append, List.append_assoc, List.mem_cons, List.mem_append,
        List.mem_filter, not_or, not_and, List.not_mem_nil, or_false] at hmem hbehind
      rcases hmem with rfl | hpassed | hmem | rfl
      · simp at hb
      · exact hbehind.1 hpassed hb
      · exact hskipped b hmem hb
      · exact hbehind.2 rfl
termination_by xs.length
decreasing_by exact Nat.lt_succ_of_le (List.length_filter_le _ _)

namespace Occurrence

def Bears (o : Occurrence) (literal : String) : Prop := o.orth = literal ∨ o.headword = literal

end Occurrence

namespace Condition

/-- The forms and headwords that a condition mentions. A glob, a category, a list of categories or a
gap mentions none. -/
inductive Mentions : Condition → String → Prop
  | plain {text : String} : Mentions (form text .plain) text
  | quoted {text : String} : Mentions (form text .quoted) text
  | headword {text : String} : Mentions (headword text) text
  | both {left right : Condition} {literal : String} : Mentions left literal →
      Mentions (both left right) literal
  | either {alternatives : List Condition} {c : Condition} {literal : String} :
      c ∈ alternatives → Mentions c literal → Mentions (either alternatives) literal

mutual

theorem mem_literals_iff (literal : String) :
    (c : Condition) → (literal ∈ c.literals ↔ c.Mentions literal)
  | any | gap _ | category _ _ | family _ | oneOf _ _ | form _ .glob => ⟨nofun, nofun⟩
  | form _ .plain => List.mem_singleton.trans ⟨fun h => h ▸ .plain, fun | .plain => rfl⟩
  | form _ .quoted => List.mem_singleton.trans ⟨fun h => h ▸ .quoted, fun | .quoted => rfl⟩
  | headword _ => List.mem_singleton.trans ⟨fun h => h ▸ .headword, fun | .headword => rfl⟩
  | both left right => by
    rw [literals, mem_literals_iff literal left]
    exact ⟨.both, fun | .both h => h⟩
  | either alternatives => by
    rw [literals, List.mem_eraseDups, mem_literalsOfAll_iff literal alternatives]
    exact ⟨fun ⟨c, hc, h⟩ => .either hc h, fun | .either hc h => ⟨_, hc, h⟩⟩

theorem mem_literalsOfAll_iff (literal : String) :
    (cs : List Condition) → (literal ∈ literalsOfAll cs ↔ ∃ c ∈ cs, c.Mentions literal)
  | [] => ⟨nofun, nofun⟩
  | c :: rest => by
    rw [literalsOfAll, List.mem_append, mem_literals_iff literal c,
      mem_literalsOfAll_iff literal rest, List.exists_mem_cons_iff]

end

/-- Some condition of a row mentions the first literal, and none up to it mentions the second. -/
def MentionedBefore (conditions : List Condition) (a b : String) : Prop :=
  ∃ front c rest, conditions = front ++ c :: rest ∧ c.Mentions a ∧
    ∀ c' ∈ front ++ [c], ¬c'.Mentions b

theorem MentionedBefore.ne {conditions : List Condition} {a b : String}
    (h : MentionedBefore conditions a b) : a ≠ b := by
  rintro rfl
  obtain ⟨front, c, rest, -, hmentions, hnone⟩ := h
  exact hnone c List.mem_concat_self hmentions

/-- A condition with no literal, or with one that each occurrence which meets it bears. -/
def SpellsOut (c : Condition) : Prop :=
  c.literals = [] ∨ ∃ literal, c.literals = [literal] ∧ ∀ o, accepts o c = true → o.Bears literal

theorem SpellsOut.bears {c : Condition} (h : c.SpellsOut) {o : Occurrence} {literal : String}
    (hmeets : accepts o c = true) (hmem : literal ∈ c.literals) : o.Bears literal := by
  rcases h with hnone | ⟨only, honly, hbears⟩
  · rw [hnone] at hmem
    cases hmem
  · rw [honly, List.mem_singleton] at hmem
    rw [hmem]
    exact hbears o hmeets

theorem SpellsOut.literals_eq {c : Condition} (h : c.SpellsOut) :
    c.literals = c.literals.head?.toList := by
  rcases h with hnone | ⟨only, honly, -⟩
  · rw [hnone]
    rfl
  · rw [honly]
    rfl

theorem SpellsOut.mentions_iff {c : Condition} (h : c.SpellsOut) {literal : String} :
    c.Mentions literal ↔ c.literals.head? = some literal := by
  rw [← mem_literals_iff]
  rcases h with hnone | ⟨only, honly, -⟩
  · simp [hnone]
  · simp [honly, eq_comm]

theorem mentionedBefore_of_append {conditions : List Condition} {front rest : List String}
    {a b : String} (hspells : ∀ c ∈ conditions, c.SpellsOut)
    (hsplit : conditions.flatMap literals = front ++ a :: rest) (hb : b ∉ front ++ [a]) :
    MentionedBefore conditions a b := by
  have hfirst : conditions.filterMap (fun c => c.literals.head?) = front ++ a :: rest := by
    rw [List.filterMap_eq_flatMap_toList, ← hsplit]
    exact List.flatMap_congr fun c hc => (hspells c hc).literals_eq.symm
  obtain ⟨passed, tail, rfl, rfl, htail⟩ := List.filterMap_eq_append_iff.mp hfirst
  obtain ⟨silent, c, rest, rfl, hsilent, hc, -⟩ := List.filterMap_eq_cons_iff.mp htail
  rw [List.mem_append, List.mem_singleton, not_or] at hb
  refine ⟨passed ++ silent, c, rest, (List.append_assoc ..).symm,
    (hspells c (by simp)).mentions_iff.mpr hc, fun c' hc' hmentions => ?_⟩
  have hmem : c' ∈ passed ++ (silent ++ c :: rest) := by
    simpa using List.mem_append_left rest hc'
  rw [(hspells c' hmem).mentions_iff] at hmentions
  rw [List.mem_append, List.mem_append, List.mem_singleton] at hc'
  rcases hc' with (hpassed | hmem) | rfl
  · exact hb.1 (List.mem_filterMap.mpr ⟨c', hpassed, hmentions⟩)
  · rw [hsilent c' hmem] at hmentions
    cases hmentions
  · exact hb.2 (Option.some.inj (hmentions.symm.trans hc))

theorem spellsOut_form (text : String) (reading : FormReading) :
    (form text reading).SpellsOut := by
  cases reading with
  | glob => exact .inl rfl
  | plain | quoted => exact .inr ⟨text, rfl, fun o hmeets => .inl (beq_iff_eq.mp hmeets)⟩

theorem spellsOut_headword (text : String) : (headword text).SpellsOut :=
  .inr ⟨text, rfl, fun _ hmeets => .inr (beq_iff_eq.mp hmeets)⟩

theorem SpellsOut.both {left : Condition} (h : left.SpellsOut) (right : Condition) :
    (both left right).SpellsOut := by
  apply h.imp id
  rintro ⟨literal, hliteral, hbears⟩
  refine ⟨literal, hliteral, fun o hmeets => hbears o ?_⟩
  rw [accepts, Bool.and_eq_true] at hmeets
  exact hmeets.1

theorem spellsOut_ofCategory (c : Category) : (ofCategory c).SpellsOut := by
  unfold ofCategory
  split <;> exact .inl rfl

end Condition

namespace Pattern

open Condition Item

theorem spellsOut_of_term {lexicon : Option Lexicon} {lexeme : Lexeme} {c : Condition}
    (h : lexeme.term lexicon = .ok c) : c.SpellsOut := by
  have hreads := lexeme.reads_term lexicon
  rw [h] at hreads
  cases hreads with
  | quoted _ hquoted =>
    cases hquoted with
    | category => exact .inl rfl
    | form => exact spellsOut_form _ _
  | listed _ hlisted =>
    cases hlisted with
    | known => exact .inl rfl
  | worded _ _ hworded =>
    cases hworded with
    | any => exact .inl rfl
    | gap => exact .inl rfl
    | both => exact (spellsOut_form _ _).both _
    | category => exact spellsOut_ofCategory _
    | headword => exact spellsOut_headword _
    | form => exact spellsOut_form _ _

/-- A row of occurrences can be cut into blocks along a path of a pattern, from a node on, and the
path has these conditions. Each of them takes its block as in `Cut`. -/
inductive Follows (p : Pattern) : Option Nat → List Condition → List Occurrence → Prop
  | done : Follows p none [] []
  | term {index : Nat} {node : Node} {o : Occurrence} {path : List Condition}
      {row : List Occurrence} : p.node? index = some node → node.isChoice = false →
      node.isGap = false → node.condition.accepts o = true → Follows p node.next path row →
      Follows p (some index) (node.condition :: path) (o :: row)
  | choice {index child : Nat} {node : Node} {path : List Condition} {row : List Occurrence} :
      p.node? index = some node → child ∈ node.children → Follows p (some child) path row →
      Follows p (some index) path row
  | gap {index follower position : Nat} {budget : Int} {children : List Nat}
      {path : List Condition} {passed row : List Occurrence} :
      p.node? index = some ⟨.gap budget, some follower, children, position⟩ →
      (passed.length : Int) ≤ budget → (∀ o ∈ passed, p.advance? follower o = none) →
      Follows p (some follower) path row →
      Follows p (some index) (.gap budget :: path) (passed ++ row)
  | lastGap {index position : Nat} {budget : Int} {children : List Nat} {o : Occurrence} :
      p.node? index = some ⟨.gap budget, none, children, position⟩ →
      Follows p (some index) [.gap budget] [o]

section Follows
variable {p : Pattern} {i : Option Nat} {path : List Condition} {row : List Occurrence}

theorem Cut.follows (h : p.Cut i row) : ∃ path, p.Follows i path row := by
  induction h with
  | done => exact ⟨[], .done⟩
  | term hnode hterm hgap haccepts _ ih =>
    obtain ⟨path, hrest⟩ := ih
    exact ⟨_, .term hnode hterm hgap haccepts hrest⟩
  | choice hnode hchild _ ih =>
    obtain ⟨path, hrest⟩ := ih
    exact ⟨path, .choice hnode hchild hrest⟩
  | gap hnode hbudget hpassed _ ih =>
    obtain ⟨path, hrest⟩ := ih
    exact ⟨_, .gap hnode hbudget hpassed hrest⟩
  | lastGap hnode => exact ⟨_, .lastGap hnode⟩

theorem isChoice_of_gap (hp : p.WellFormed) {index : Nat} {node : Node}
    (hnode : p.node? index = some node) (hgap : node.isGap = true) : node.isChoice = false := by
  cases his : node.isChoice with
  | false => rfl
  | true => exact absurd hgap (by rw [hp.choice_isGap hnode his]; exact Bool.false_ne_true)

theorem Follows.isPath (hp : p.WellFormed) (h : p.Follows i path row) : p.Path i path := by
  induction h with
  | done => exact .done
  | term hnode hterm _ _ _ ih => exact .term hnode hterm ih
  | @choice _ _ node _ _ hnode hchild _ ih =>
    have hchoice : node.isChoice = true := by
      rw [Node.isChoice, Bool.not_eq_true', List.isEmpty_eq_false_iff]
      exact List.ne_nil_of_mem hchild
    exact .choice hnode hchoice hchild ih
  | gap hnode _ _ _ ih => exact .term hnode (isChoice_of_gap hp hnode rfl) ih
  | lastGap hnode => exact .term hnode (isChoice_of_gap hp hnode rfl) .done

theorem Follows.bears (hspells : ∀ index node, p.node? index = some node →
      node.isChoice = false → node.condition.SpellsOut) (h : p.Follows i path row) :
    ∀ c ∈ path, ∀ literal ∈ c.literals, ∃ o ∈ row, o.Bears literal := by
  induction h with
  | done => exact nofun
  | @term index node o _ _ hnode hterm _ haccepts _ ih =>
    rw [List.forall_mem_cons]
    refine ⟨fun literal hmem => ?_, fun c hc literal hmem => ?_⟩
    · exact ⟨o, List.mem_cons_self, (hspells index node hnode hterm).bears haccepts hmem⟩
    · obtain ⟨o', ho', hbears⟩ := ih c hc literal hmem
      exact ⟨o', List.mem_cons_of_mem _ ho', hbears⟩
  | choice _ _ _ ih => exact ih
  | gap _ _ _ _ ih =>
    rw [List.forall_mem_cons]
    refine ⟨fun literal hmem => ?_, fun c hc literal hmem => ?_⟩
    · cases hmem
    · obtain ⟨o', ho', hbears⟩ := ih c hc literal hmem
      exact ⟨o', List.mem_append_right _ ho', hbears⟩
  | lastGap _ =>
    intro c hc literal hmem
    cases List.mem_singleton.mp hc
    cases hmem

end Follows

section Layout
variable {chain : Chain} {source : String}

theorem flatMap_literals (nodes : List Node) :
    (nodes.flatMap fun node => if node.isChoice then [] else node.condition.literals) =
      (termsOf nodes).flatMap fun leaf => leaf.1.literals := by
  induction nodes with
  | nil => rfl
  | cons node rest ih =>
    rw [List.flatMap_cons, ih]
    cases hchoice : node.isChoice <;> simp [termsOf, hchoice]

theorem literals_ofChain (h : NormalChain chain) (source : String) :
    (ofChain chain source).literals =
      ((leavesOfChain chain).flatMap fun leaf => leaf.1.literals).eraseDups := by
  have hnodes : (ofChain chain source).nodes.toList = layoutChain 0 none chain := rfl
  rw [Pattern.literals, hnodes, flatMap_literals, termsOf_layoutChain chain h]

theorem readings_without_choice (h : NormalChain chain) {index : Nat} {next : Option Nat}
    (hnone : ∀ node ∈ layoutChain index next chain, node.isChoice = false) :
    readingsOfChain chain = [(leavesOfChain chain).map Prod.fst] := by
  induction chain generalizing index with
  | nil => rfl
  | cons item rest ih =>
    rw [layoutChain_cons, List.forall_mem_append] at hnone
    cases item with
    | term condition position =>
      rw [readingsOfChain, ih h.2 hnone.2]
      rfl
    | choice branches position =>
      have hchoice := hnone.1 _ List.mem_cons_self
      rw [Node.isChoice, Bool.not_eq_false', List.isEmpty_iff] at hchoice
      exact absurd hchoice (branchHeads_ne_nil h.1.1 _)

/-- Without choices there is one path, and so it has the term that mentions a literal. -/
theorem literal_on_path (hne : chain ≠ []) (h : NormalChain chain) {path : List Condition}
    {literal : String} (hnone : ∀ node ∈ (ofChain chain source).nodes, node.isChoice = false)
    (hpath : (ofChain chain source).Path (some root) path)
    (hliteral : literal ∈ (ofChain chain source).literals) :
    ∃ c ∈ path, literal ∈ c.literals := by
  have honly := readings_without_choice h fun node hmem => hnone node (by simpa [ofChain] using hmem)
  have hreading := ((paths_ofChain hne h source).path_iff path).mp hpath
  rw [honly, List.mem_singleton] at hreading
  rw [literals_ofChain h, List.mem_eraseDups, List.mem_flatMap] at hliteral
  obtain ⟨leaf, hleaf, hmentioned⟩ := hliteral
  rw [hreading]
  exact ⟨leaf.1, List.mem_map_of_mem hleaf, hmentioned⟩

end Layout

end Pattern

namespace Matcher

open Pattern

theorem follows_of_step {p : Pattern} (hp : p.WellFormed) {m : Matcher} (hm : Reachable p m)
    {o : Occurrence} (hmatch : (step p m o).1 = true) :
    ∃ path, p.Follows (some root) path (step p m o).2.found := by
  obtain ⟨history, htraced⟩ := hm.traced hp
  obtain ⟨start, hawaits⟩ := htraced [o]
  have hanswers := hawaits.step hp (by simp : (history ++ [o])[history.length]? = some o)
  rw [← Prod.mk.eta (p := step p m o), hmatch] at hanswers
  obtain ⟨-, start', -, hfound, hextents⟩ := hanswers
  have hextent : (start', history.length + 1) ∈ p.extents (history ++ [o]) start := by
    rw [hextents]
    exact List.mem_cons_self
  rw [hfound]
  exact (cut_of_extent hp hextent).follows

theorem follows_of_mem_scan {p : Pattern} (hp : p.WellFormed) {m : Matcher}
    {stream : List Occurrence} {name : Option String} {source : Option Source}
    {limit : Option Nat} {hit : Hit} (h : hit ∈ (m.scan p stream name source limit).1) :
    (∃ path, p.Follows (some root) path hit.occurrences) ∧ hit.occurrences ⊆ stream := by
  have hfirst := (scanFrom_limited p name source limit 0 m.reset stream).mem h
  rw [Awaits.scanFrom hp name source (.atRoot rfl) List.drop_zero] at hfirst
  obtain ⟨extent, hextent, rfl⟩ := List.mem_map.mp hfirst
  exact ⟨(cut_of_extent hp hextent).follows,
    fun o ho => List.mem_of_mem_drop (List.mem_of_mem_take ho)⟩

/-- The literals of a pattern can be looked for before it is run. Each match follows a path of the
pattern and has an occurrence for each form or headword that a term of the path mentions. So a
pattern without choices has no match in a stream that lacks one of its literals. The literals are
what the terms of the text mention, without repetitions, in the order of first mention. -/
theorem literals_prefilter {lexicon : Option Lexicon} {text : String} {p : Pattern}
    (h : compile lexicon text = .ok p) :
    (∀ (c : Condition) literal, literal ∈ c.literals ↔ c.Mentions literal) ∧
    (∀ m o, Reachable p m → (step p m o).1 = true →
      ∃ path, p.Follows (some root) path (step p m o).2.found ∧ p.Path (some root) path ∧
        ∀ c ∈ path, ∀ literal ∈ c.literals, ∃ o' ∈ (step p m o).2.found, o'.Bears literal) ∧
    ((∀ node ∈ p.nodes, node.isChoice = false) →
      ∀ stream literal, literal ∈ p.literals → (∀ o ∈ stream, ¬o.Bears literal) →
        ∀ m name source limit, (scan p m stream name source limit).1 = []) ∧
    ∃ conditions, StandFor lexicon (Phrase.terms (Lexeme.all text)) conditions ∧
      (∀ literal, literal ∈ p.literals ↔ ∃ c ∈ conditions, c.Mentions literal) ∧
      p.literals.Nodup ∧ p.literals.Pairwise (Condition.MentionedBefore conditions) := by
  have hp := wellFormed_of_compile h
  have hspells : ∀ index node, p.node? index = some node → node.isChoice = false →
      node.condition.SpellsOut := by
    intro index node hnode hterm
    obtain ⟨lexeme, -, hlexeme⟩ := term_of_node h hnode hterm
    exact spellsOut_of_term hlexeme
  obtain ⟨hmeaningful, ⟨d, hd, rfl⟩, -⟩ := compile_eq_ok h
  obtain ⟨hne, hnormal⟩ := d.normal (meaning lexicon)
  have hleaves := d.leaves (meaning lexicon)
  rw [hd] at hleaves
  have hliterals := literals_ofChain hnormal text
  rw [hleaves, List.flatMap_map] at hliterals
  have hterms : ∀ lexeme ∈ Phrase.terms (Lexeme.all text),
      lexeme.term lexicon = .ok (meaning lexicon lexeme) := by
    intro lexeme hmem
    obtain ⟨hlexeme, hterm⟩ := List.mem_filter.mp hmem
    exact term_eq_meaning (hmeaningful lexeme hlexeme (by simpa using hterm))
  have hordered : (ofChain (d.chain (meaning lexicon)) text).literals.Pairwise
      (Condition.MentionedBefore ((Phrase.terms (Lexeme.all text)).map (meaning lexicon))) := by
    rw [hliterals, ← List.flatMap_map]
    refine (eraseDups_pairwise _).imp fun ⟨front, rest, hsplit, hbehind⟩ =>
      Condition.mentionedBefore_of_append ?_ hsplit hbehind
    rw [List.forall_mem_map]
    exact fun lexeme hmem => spellsOut_of_term (hterms lexeme hmem)
  refine ⟨fun c literal => c.mem_literals_iff literal, fun m o hm hmatch => ?_,
    fun hnone stream literal hliteral habsent m name source limit => ?_,
    (Phrase.terms (Lexeme.all text)).map (meaning lexicon), ?_, fun literal => ?_,
    hordered.imp Condition.MentionedBefore.ne, hordered⟩
  · obtain ⟨path, hfollows⟩ := follows_of_step hp hm hmatch
    exact ⟨path, hfollows, hfollows.isPath hp, hfollows.bears hspells⟩
  · rw [List.eq_nil_iff_forall_not_mem]
    intro hit hhit
    obtain ⟨⟨path, hfollows⟩, hsubset⟩ := follows_of_mem_scan hp hhit
    obtain ⟨c, hc, hmentioned⟩ :=
      literal_on_path hne hnormal hnone (hfollows.isPath hp) hliteral
    obtain ⟨o, ho, hbears⟩ := hfollows.bears hspells c hc literal hmentioned
    exact habsent o (hsubset ho) hbears
  · rw [StandFor, List.forall₂_map_right_iff, List.forall₂_same]
    exact hterms
  · rw [hliterals, List.mem_eraseDups, List.mem_flatMap]
    simp only [List.mem_map, exists_exists_and_eq_and, Condition.mem_literals_iff]

/-- A match across a gap has what the pattern mentions: a headword, a form of a category and a form
between quotes, but not the glob. The same pattern has no match where the form of a category does
not stand. -/
theorem prefilter_across_gap : ∃ (lexicon : Lexicon) (p : Pattern) (m : Matcher) (o : Occurrence)
    (stream : List Occurrence),
    compile (some lexicon) "dire **1 chat/SUB \x22b\x22 n*" = .ok p ∧ Reachable p m ∧
      (step p m o).1 = true ∧
      (step p m o).2.found.map (fun o => (o.orth, o.headword)) =
        [("dit", "dire"), ("x", ""), ("chat", ""), ("b", ""), ("nuit", "")] ∧
      (∃ path, p.Follows (some root) path (step p m o).2.found ∧ ∀ c ∈ path,
        ∀ literal ∈ c.literals, ∃ o' ∈ (step p m o).2.found, o'.Bears literal) ∧
      p.literals = ["dire", "chat", "b"] ∧
      stream.map Occurrence.orth = ["dit", "x", "chien", "b", "nuit"] ∧
      (m.scan p stream none none none).1 = [] := by
  have hparse : parse (some ((Lexicon.empty false).addAll [("dire", "", .name "VERB")]).1)
      "dire **1 chat/SUB \x22b\x22 n*" = .ok [.term (.headword "dire") 0, .term (.gap 1) 5,
        .term (.both (.form "chat" .plain) (Condition.ofCategory (.ofName "SUB"))) 9,
        .term (.form "b" .quoted) 18, .term (.form "n*" .glob) 22] := by
    rfl
  have hcompile := compile_of_parse hparse
  let row : List Occurrence := [⟨"dit", "dit", "dire", Category.null, 0, 3⟩, .untagged "x" 4,
    .ofGraph "chat" 6 "" (.ofName "SUB"), .untagged "b" 11]
  let o := Occurrence.untagged "nuit" 13
  let stream : List Occurrence := [⟨"dit", "dit", "dire", Category.null, 0, 3⟩, .untagged "x" 4,
    .ofGraph "chien" 6 "" (.ofName "SUB"), .untagged "b" 12, .untagged "nuit" 14]
  obtain ⟨-, hfollows, hlacks, -⟩ := literals_prefilter hcompile
  obtain ⟨path, hpath, -, hbears⟩ := hfollows _ o (.scan row none none none .fresh)
    (by decide +kernel)
  refine ⟨_, _, _, o, stream, hcompile, .scan row none none none .fresh, by decide +kernel,
    by decide +kernel, ⟨path, hpath, hbears⟩, by decide +kernel, rfl,
    hlacks (by decide) stream "chat" (by decide +kernel) ?_ _ none none none⟩
  simp only [stream, Occurrence.Bears]
  decide

end Matcher
end Concordance
