import Concordance.Proofs.Pattern.Language

/-! Where a gap may stand. The compiler looks only at the nodes that a pattern or a branch begins with
and at those that follow a gap; the statements here are about the sequences of terms that the tree
leaves once a branch is picked at every choice. Main statement: a pattern is refused for a gap if and
only if such a sequence of it, or of a branch of it, begins with a gap, or one of it has two gaps in
a row. -/

namespace Concordance.Pattern

open Item

def StartsWithGap (reading : List Condition) : Prop := ∃ c ∈ reading.head?, c.isGap = true

def EndsWithGap (reading : List Condition) : Prop := ∃ c ∈ reading.getLast?, c.isGap = true

def RepeatsGap (reading : List Condition) : Prop :=
  ∃ c d, c.isGap = true ∧ d.isGap = true ∧ [c, d] <:+: reading

namespace Item

mutual

/-- The branches of the choices in an item, at any depth. -/
def alternatives : Item → List Chain
  | .term _ _ => []
  | .choice branches _ => branches ++ alternativesOfBranches branches

def alternativesOfChain : List Item → List Chain
  | [] => []
  | item :: rest => alternatives item ++ alternativesOfChain rest

def alternativesOfBranches : List (List Item) → List Chain
  | [] => []
  | chain :: rest => alternativesOfChain chain ++ alternativesOfBranches rest

end

end Item

/-- What a pattern that has a tree can be refused for. -/
def gapFaults : List Fault := [.misplacedGap, .repeatedGap]

/-- A gap of a tree has no term before it: it is the first of the pattern or of a branch, or it
follows another gap along some choice of branches. -/
inductive Misplaced (chain : Chain) : Prop
  | first {reading : List Condition} : reading ∈ readingsOfChain chain → StartsWithGap reading →
      Misplaced chain
  | branch {branch : Chain} {reading : List Condition} : branch ∈ alternativesOfChain chain →
      reading ∈ readingsOfChain branch → StartsWithGap reading → Misplaced chain
  | repeated {reading : List Condition} : reading ∈ readingsOfChain chain → RepeatsGap reading →
      Misplaced chain

section Readings
variable {reading first second : List Condition}

theorem StartsWithGap.of_append (h : StartsWithGap (first ++ second)) (hne : first ≠ []) :
    StartsWithGap first := by
  obtain ⟨c, hc, hgap⟩ := h
  rw [List.head?_append_of_ne_nil _ hne] at hc
  exact ⟨c, hc, hgap⟩

theorem EndsWithGap.append (h : EndsWithGap second) (first : List Condition) :
    EndsWithGap (first ++ second) := by
  obtain ⟨c, hc, hgap⟩ := h
  exact ⟨c, by rw [List.getLast?_append, hc, Option.some_or]; rfl, hgap⟩

theorem RepeatsGap.mono (h : RepeatsGap first) (hwithin : first <:+: second) : RepeatsGap second := by
  obtain ⟨c, d, hc, hd, hrow⟩ := h
  exact ⟨c, d, hc, hd, hrow.trans hwithin⟩

theorem EndsWithGap.repeats (h : EndsWithGap first) (h' : StartsWithGap second) :
    RepeatsGap (first ++ second) := by
  obtain ⟨c, hlast, hc⟩ := h
  obtain ⟨d, hhead, hd⟩ := h'
  obtain ⟨before, rfl⟩ := List.getLast?_eq_some_iff.mp hlast
  obtain ⟨after, rfl⟩ := List.head?_eq_some_iff.mp hhead
  exact ⟨c, d, hc, hd, before, after, by simp⟩

theorem mem_combine {heads tails : List (List Condition)} :
    reading ∈ combine heads tails ↔ ∃ head ∈ heads, ∃ tail ∈ tails, reading = head ++ tail := by
  simp only [combine, List.mem_flatMap, List.mem_map, eq_comm]

mutual

theorem readings_normal (item : Item) (h : item.Normal) :
    (∃ reading, reading ∈ item.readings) ∧ [] ∉ item.readings := by
  match item with
  | .term condition _ => simp [readings]
  | .choice branches _ =>
    refine readings_normalBranches branches ?_ h.2
    rintro rfl
    exact absurd h.1 (by decide)

theorem readings_normalChain (chain : List Item) (h : NormalChain chain) :
    (∃ reading, reading ∈ readingsOfChain chain) ∧ (chain ≠ [] → [] ∉ readingsOfChain chain) := by
  match chain with
  | [] => exact ⟨⟨[], by simp [readingsOfChain]⟩, fun hne => absurd rfl hne⟩
  | item :: rest =>
    obtain ⟨⟨first, hfirst⟩, hempty⟩ := readings_normal item h.1
    obtain ⟨⟨second, hsecond⟩, -⟩ := readings_normalChain rest h.2
    refine ⟨⟨_, mem_combine.mpr ⟨first, hfirst, second, hsecond, rfl⟩⟩, fun _ hmem => ?_⟩
    obtain ⟨head, hhead, tail, -, heq⟩ := mem_combine.mp hmem
    rw [(List.append_eq_nil_iff.mp heq.symm).1] at hhead
    exact hempty hhead

theorem readings_normalBranches (branches : List (List Item)) (hne : branches ≠ [])
    (h : NormalBranches branches) :
    (∃ reading, reading ∈ readingsOfBranches branches) ∧ [] ∉ readingsOfBranches branches := by
  match branches with
  | [chain] =>
    obtain ⟨hsome, hempty⟩ := readings_normalChain chain h.1.2.2
    rw [readingsOfBranches, readingsOfBranches, List.append_nil]
    exact ⟨hsome, hempty h.1.1⟩
  | chain :: next :: rest =>
    obtain ⟨⟨reading, hreading⟩, hempty⟩ := readings_normalChain chain h.1.2.2
    obtain ⟨-, hrest⟩ := readings_normalBranches (next :: rest) (List.cons_ne_nil _ _) h.2
    rw [readingsOfBranches]
    refine ⟨⟨reading, List.mem_append_left _ hreading⟩, fun hmem => ?_⟩
    rcases List.mem_append.mp hmem with hmem | hmem
    · exact hempty h.1.1 hmem
    · exact hrest hmem

end

end Readings

theorem exists_of_forall₂ {α β : Type} {R : α → β → Prop} {xs : List α} {ys : List β}
    (h : List.Forall₂ R xs ys) : (∀ x ∈ xs, ∃ y ∈ ys, R x y) ∧ ∀ y ∈ ys, ∃ x ∈ xs, R x y := by
  induction h with
  | nil => simp
  | cons hhead _ ih =>
    obtain ⟨hleft, hright⟩ := ih
    refine ⟨List.forall_mem_cons.mpr ⟨⟨_, List.mem_cons_self, hhead⟩, fun x hx => ?_⟩,
      List.forall_mem_cons.mpr ⟨⟨_, List.mem_cons_self, hhead⟩, fun y hy => ?_⟩⟩
    · obtain ⟨y, hy, hrelated⟩ := hleft x hx
      exact ⟨y, List.mem_cons_of_mem _ hy, hrelated⟩
    · obtain ⟨x, hx, hrelated⟩ := hright y hy
      exact ⟨x, List.mem_cons_of_mem _ hx, hrelated⟩

section Heads
variable {p : Pattern} {index : Nat} {next : Option Nat}

def Starts (p : Pattern) (index : Nat) (chain : Chain) : Prop :=
  chain ≠ [] ∧ NormalChain chain ∧ ∃ next, LaidAt p index (layoutChain index next chain)

theorem starts_branchHeads (branches : List Chain) (h : NormalBranches branches)
    (hlaid : LaidAt p index (layoutBranches index next branches)) :
    List.Forall₂ (Starts p) (branchHeads index branches) branches := by
  induction branches generalizing index with
  | nil => exact .nil
  | cons chain rest ih =>
    obtain ⟨hchain, hrest⟩ := eachFrom_layoutBranches.mp hlaid
    exact .cons ⟨h.1.1, h.1.2.2, next, hchain⟩ (ih h.2 hrest)

mutual

theorem starts_layout (item : Item) (h : item.Normal) {index : Nat} {next : Option Nat}
    (hlaid : LaidAt p index (item.layout index next)) :
    List.Forall₂ (Starts p) ((item.layout index next).flatMap Node.children) item.alternatives := by
  match item with
  | .term _ _ => exact .nil
  | .choice branches _ =>
    obtain ⟨-, hbranches⟩ := eachFrom_cons.mp hlaid
    rw [Item.layout, List.flatMap_cons, alternatives]
    exact List.rel_append (starts_branchHeads branches h.2 hbranches)
      (starts_layoutBranches branches h.2 hbranches)

theorem starts_layoutChain (chain : List Item) (h : NormalChain chain) {index : Nat}
    {next : Option Nat} (hlaid : LaidAt p index (layoutChain index next chain)) :
    List.Forall₂ (Starts p) ((layoutChain index next chain).flatMap Node.children)
      (alternativesOfChain chain) := by
  match chain with
  | [] => exact .nil
  | item :: rest =>
    obtain ⟨hitem, hrest⟩ := eachFrom_layoutChain.mp hlaid
    rw [layoutChain_cons]
    rw [List.flatMap_append, alternativesOfChain]
    exact List.rel_append (starts_layout item h.1 hitem) (starts_layoutChain rest h.2 hrest)

theorem starts_layoutBranches (branches : List (List Item)) (h : NormalBranches branches)
    {index : Nat} {next : Option Nat}
    (hlaid : LaidAt p index (layoutBranches index next branches)) :
    List.Forall₂ (Starts p) ((layoutBranches index next branches).flatMap Node.children)
      (alternativesOfBranches branches) := by
  match branches with
  | [] => exact .nil
  | chain :: rest =>
    obtain ⟨hchain, hrest⟩ := eachFrom_layoutBranches.mp hlaid
    rw [layoutBranches]
    rw [List.flatMap_append, alternativesOfBranches]
    exact List.rel_append (starts_layoutChain chain h.1.2.2 hchain)
      (starts_layoutBranches rest h.2 hrest)

end

theorem Starts.exists_node {chain : Chain} (h : Starts p index chain) : ∃ item rest node,
    chain = item :: rest ∧ p.node? index = some node ∧ node.condition = item.condition := by
  obtain ⟨hne, -, next, hlaid⟩ := h
  obtain ⟨item, rest, rfl⟩ := List.exists_cons_of_ne_nil hne
  obtain ⟨node, hnode, -, hcondition⟩ := node_layout item (eachFrom_layoutChain.mp hlaid).1
  exact ⟨item, rest, node, rfl, hnode, hcondition⟩

theorem Starts.startsWithGap {chain : Chain} (h : Starts p index chain) {node : Node}
    (hnode : p.node? index = some node) (hgap : node.isGap = true) :
    ∃ reading ∈ readingsOfChain chain, StartsWithGap reading := by
  obtain ⟨item, rest, node', rfl, hnode', hcondition⟩ := h.exists_node
  cases hnode.symm.trans hnode'
  rw [Node.isGap, hcondition] at hgap
  cases item with
  | choice branches position => cases hgap
  | term condition position =>
    obtain ⟨⟨reading, hreading⟩, -⟩ := readings_normalChain rest h.2.1.2
    exact ⟨condition :: reading, mem_combine.mpr ⟨_, List.mem_singleton.mpr rfl, _, hreading, rfl⟩,
      condition, rfl, hgap⟩

mutual

theorem not_startsWithGap_layout (hp : p.WellFormed) (item : Item) (h : item.Normal) {index : Nat}
    {next : Option Nat} (hlaid : LaidAt p index (item.layout index next))
    (hhead : ∀ node, p.node? index = some node → node.isGap = false) :
    ∀ reading ∈ item.readings, ¬StartsWithGap reading := by
  match item with
  | .term condition position =>
    obtain ⟨hnode, -⟩ := eachFrom_cons.mp hlaid
    have hgap : condition.isGap = false := hhead _ hnode
    intro reading hreading
    cases List.mem_singleton.mp hreading
    simp [StartsWithGap, hgap]
  | .choice branches position =>
    obtain ⟨hnode, hbranches⟩ := eachFrom_cons.mp hlaid
    exact not_startsWithGap_layoutBranches hp branches h.2 hbranches fun child hchild =>
      fun node => hp.child_isGap hnode hchild

theorem not_startsWithGap_layoutChain (hp : p.WellFormed) (chain : List Item) (hne : chain ≠ [])
    (h : NormalChain chain) {index : Nat} {next : Option Nat}
    (hlaid : LaidAt p index (layoutChain index next chain))
    (hhead : ∀ node, p.node? index = some node → node.isGap = false) :
    ∀ reading ∈ readingsOfChain chain, ¬StartsWithGap reading := by
  match chain with
  | [] => exact absurd rfl hne
  | item :: rest =>
    obtain ⟨hitem, -⟩ := eachFrom_layoutChain.mp hlaid
    intro reading hreading hstarts
    obtain ⟨head, hmem, tail, -, rfl⟩ := mem_combine.mp hreading
    have hhead_ne : head ≠ [] := by
      rintro rfl
      exact (readings_normal item h.1).2 hmem
    exact not_startsWithGap_layout hp item h.1 hitem hhead head hmem
      (hstarts.of_append hhead_ne)

theorem not_startsWithGap_layoutBranches (hp : p.WellFormed) (branches : List (List Item))
    (h : NormalBranches branches) {index : Nat} {next : Option Nat}
    (hlaid : LaidAt p index (layoutBranches index next branches))
    (hheads : ∀ head ∈ branchHeads index branches, ∀ node, p.node? head = some node →
      node.isGap = false) :
    ∀ reading ∈ readingsOfBranches branches, ¬StartsWithGap reading := by
  match branches with
  | [] => simp [readingsOfBranches]
  | chain :: rest =>
    obtain ⟨hchain, hrest⟩ := eachFrom_layoutBranches.mp hlaid
    rw [branchHeads, List.forall_mem_cons] at hheads
    intro reading hreading
    rcases List.mem_append.mp hreading with hmem | hmem
    · exact not_startsWithGap_layoutChain hp chain h.1.1 h.1.2.2 hchain hheads.1 reading hmem
    · exact not_startsWithGap_layoutBranches hp rest h.2 hrest hheads.2 reading hmem

end

end Heads

section Repeated
variable {p : Pattern}

/-- A gap that another gap follows, among the nodes of some readings: the two stand in a row in one
of them, or the first ends one of them and the second stands behind. -/
def Repeats (p : Pattern) (next : Option Nat) (readings : List (List Condition)) (node : Node) :
    Prop :=
  node.isGap = true → ∀ j, node.next = some j → ∀ follower, p.node? j = some follower →
    follower.isGap = true → (∃ reading ∈ readings, RepeatsGap reading) ∨
      next = some j ∧ ∃ reading ∈ readings, EndsWithGap reading

theorem Repeats.mono {next : Option Nat} {readings others : List (List Condition)} {node : Node}
    (h : Repeats p next readings node) (hsubset : readings ⊆ others) : Repeats p next others node := by
  intro hgap j hnext follower hfollower hgap'
  rcases h hgap j hnext follower hfollower hgap' with ⟨reading, hreading, hrepeats⟩ |
    ⟨hentrance, reading, hreading, hends⟩
  · exact .inl ⟨reading, hsubset hreading, hrepeats⟩
  · exact .inr ⟨hentrance, reading, hsubset hreading, hends⟩

mutual

theorem repeats_layout (item : Item) (h : item.Normal) {index : Nat} {next : Option Nat}
    (hlaid : LaidAt p index (item.layout index next)) :
    ∀ node ∈ item.layout index next, Repeats p next item.readings node := by
  match item with
  | .term condition position =>
    intro node hmem
    cases List.mem_singleton.mp hmem
    intro hgap j hnext follower _ _
    exact .inr ⟨hnext, [condition], List.mem_singleton.mpr rfl, condition, rfl, hgap⟩
  | .choice branches position =>
    obtain ⟨-, hbranches⟩ := eachFrom_cons.mp hlaid
    intro node hmem
    rcases List.mem_cons.mp hmem with rfl | hmem
    · intro hgap
      cases hgap
    · exact repeats_layoutBranches branches h.2 hbranches node hmem

theorem repeats_layoutChain (chain : List Item) (h : NormalChain chain) {index : Nat}
    {next : Option Nat} (hlaid : LaidAt p index (layoutChain index next chain)) :
    ∀ node ∈ layoutChain index next chain, Repeats p next (readingsOfChain chain) node := by
  match chain with
  | [] => simp [layoutChain]
  | item :: rest =>
    obtain ⟨hitem, hrest⟩ := eachFrom_layoutChain.mp hlaid
    rw [layoutChain_cons]
    obtain ⟨⟨first, hfirst⟩, -⟩ := readings_normal item h.1
    obtain ⟨⟨second, hsecond⟩, -⟩ := readings_normalChain rest h.2
    intro node hmem hgap j hnext follower hfollower hgap'
    rcases List.mem_append.mp hmem with hmem | hmem
    · rcases repeats_layout item h.1 hitem node hmem hgap j hnext follower hfollower hgap' with
        ⟨reading, hreading, hrepeats⟩ | ⟨hentrance, reading, hreading, hends⟩
      · exact .inl ⟨_, mem_combine.mpr ⟨reading, hreading, second, hsecond, rfl⟩,
          hrepeats.mono (List.prefix_append reading second).isInfix⟩
      · -- The gap ends the item, and what follows is the next item or what follows the chain.
        by_cases hnil : rest = []
        · subst hnil
          refine .inr ⟨hentrance, reading ++ [], ?_, by rwa [List.append_nil]⟩
          exact mem_combine.mpr ⟨reading, hreading, [], List.mem_singleton.mpr rfl, rfl⟩
        · rw [Chain.entrance, if_neg (by simpa using hnil), Option.some.injEq] at hentrance
          have hstarts : Starts p j rest := ⟨hnil, h.2, next, hentrance ▸ hrest⟩
          obtain ⟨after, hafter, hgaps⟩ := hstarts.startsWithGap hfollower hgap'
          exact .inl ⟨_, mem_combine.mpr ⟨reading, hreading, after, hafter, rfl⟩,
            hends.repeats hgaps⟩
    · rcases repeats_layoutChain rest h.2 hrest node hmem hgap j hnext follower hfollower hgap' with
        ⟨reading, hreading, hrepeats⟩ | ⟨hnext', reading, hreading, hends⟩
      · exact .inl ⟨_, mem_combine.mpr ⟨first, hfirst, reading, hreading, rfl⟩,
          hrepeats.mono (List.suffix_append first reading).isInfix⟩
      · exact .inr ⟨hnext', _, mem_combine.mpr ⟨first, hfirst, reading, hreading, rfl⟩,
          hends.append first⟩

theorem repeats_layoutBranches (branches : List (List Item)) (h : NormalBranches branches)
    {index : Nat} {next : Option Nat}
    (hlaid : LaidAt p index (layoutBranches index next branches)) :
    ∀ node ∈ layoutBranches index next branches,
      Repeats p next (readingsOfBranches branches) node := by
  match branches with
  | [] => simp [layoutBranches]
  | chain :: rest =>
    obtain ⟨hchain, hrest⟩ := eachFrom_layoutBranches.mp hlaid
    rw [layoutBranches]
    intro node hmem
    rw [readingsOfBranches]
    rcases List.mem_append.mp hmem with hmem | hmem
    · exact (repeats_layoutChain chain h.1.2.2 hchain node hmem).mono (List.subset_append_left _ _)
    · exact (repeats_layoutBranches rest h.2 hrest node hmem).mono (List.subset_append_right _ _)

end

end Repeated

section Paths
variable {p : Pattern} {i : Option Nat} {conditions : List Condition}

theorem Path.gaps (h : p.Path i conditions) (hp : p.WellFormed) :
    ((∀ j node, i = some j → p.node? j = some node → node.isGap = false) →
      ¬StartsWithGap conditions) ∧ ¬RepeatsGap conditions := by
  induction h with
  | done => simp [StartsWithGap, RepeatsGap]
  | @term j node rest hnode _ _ ih =>
    refine ⟨fun hhead => ?_, ?_⟩
    · have hgap : node.condition.isGap = false := hhead j node rfl hnode
      simp [StartsWithGap, hgap]
    · rintro ⟨c, d, hc, hd, hrow⟩
      rcases List.infix_cons_iff.mp hrow with hfront | hinside
      · obtain ⟨rfl, after, rfl⟩ : c = node.condition ∧ [d] <+: rest :=
          List.cons_prefix_cons.mp hfront
        refine ih.1 (fun k follower hnext hfollower => ?_) ⟨d, rfl, hd⟩
        exact hp.next_isGap hnode hc hnext hfollower
      · exact ih.2 ⟨c, d, hc, hd, hinside⟩
  | @choice j child node conditions hnode _ hchild _ ih =>
    refine ⟨fun _ => ih.1 fun k head hk hhead => ?_, ih.2⟩
    cases hk
    exact hp.child_isGap hnode hchild hhead

end Paths

section Check
variable {p : Pattern} {refusal : Refusal}

theorem checkGaps_eq_error (h : checkGaps p = .error refusal) : ∃ index node,
    p.node? index = some node ∧ node.isGap = true ∧
    refusal.construct = ⟨node.condition.display, node.position⟩ ∧
    (refusal.fault = .misplacedGap ∧
        (index = root ∨ index ∈ p.nodes.toList.flatMap Node.children) ∨
      refusal.fault = .repeatedGap ∧
        ∃ before ∈ p.nodes.toList, before.isGap = true ∧ before.next = some index) := by
  unfold checkGaps at h
  split at h
  · rename_i node hhead
    cases h
    obtain ⟨index, hmem, hnode⟩ := List.exists_of_findSome?_eq_some hhead
    obtain ⟨hnode, hgap⟩ := Option.filter_eq_some_iff.mp hnode
    exact ⟨index, node, hnode, hgap, rfl, .inl ⟨rfl, List.mem_cons.mp hmem⟩⟩
  · rename_i node _ hrepeated
    cases h
    obtain ⟨before, hmem, hnode⟩ := List.exists_of_findSome?_eq_some hrepeated
    rw [Option.ite_none_right_eq_some] at hnode
    obtain ⟨hbefore, hnode⟩ := hnode
    obtain ⟨hnode, hgap⟩ := Option.filter_eq_some_iff.mp hnode
    obtain ⟨index, hnext, hnode⟩ := Option.bind_eq_some_iff.mp hnode
    exact ⟨index, node, hnode, hgap, rfl, .inr ⟨rfl, before, hmem, hbefore, hnext⟩⟩
  · cases h

end Check

section Compile
variable {lexicon : Option Lexicon} {source : String} {chain : Chain}

theorem normal_of_parse (h : parse lexicon source = .ok chain) :
    chain ≠ [] ∧ NormalChain chain := by
  obtain ⟨-, d, -, rfl⟩ := parse_eq_ok_iff.mp h
  exact d.normal _

theorem compile_of_parse (h : parse lexicon source = .ok chain) : compile lexicon source =
    ((checkGaps (ofChain chain source)).map fun _ => ofChain chain source).mapError fun refusal =>
      ⟨refusal, source⟩ := by
  rw [compile, h]
  change Except.mapError _ (checkGaps (ofChain chain source) >>= fun _ => _) = _
  cases checkGaps (ofChain chain source) <;> rfl

theorem misplaced_of_checkGaps {refusal : Refusal} (hne : chain ≠ []) (h : NormalChain chain)
    (herror : checkGaps (ofChain chain source) = .error refusal) : Misplaced chain := by
  have hlaid := laidAt_ofChain chain source
  have hnodes : (ofChain chain source).nodes.toList = layoutChain 0 none chain := rfl
  obtain ⟨index, node, hnode, hgap, -, hwhere⟩ := checkGaps_eq_error herror
  rw [hnodes] at hwhere
  rcases hwhere with ⟨-, rfl | hmem⟩ | ⟨-, before, hbefore, hbefore_gap, hnext⟩
  · have hstarts : Starts (ofChain chain source) root chain := ⟨hne, h, none, hlaid⟩
    obtain ⟨reading, hreading, hgaps⟩ := hstarts.startsWithGap hnode hgap
    exact .first hreading hgaps
  · obtain ⟨branch, hbranch, hstarts⟩ :=
      (exists_of_forall₂ (starts_layoutChain chain h hlaid)).1 _ hmem
    obtain ⟨reading, hreading, hgaps⟩ := hstarts.startsWithGap hnode hgap
    exact .branch hbranch hreading hgaps
  · rcases repeats_layoutChain chain h hlaid before hbefore hbefore_gap index hnext node hnode hgap
      with ⟨reading, hreading, hrepeats⟩ | ⟨hnone, -⟩
    · exact .repeated hreading hrepeats
    · cases hnone

theorem not_misplaced_of_wellFormed (hne : chain ≠ []) (h : NormalChain chain)
    (hp : (ofChain chain source).WellFormed) : ¬Misplaced chain := by
  have hlaid := laidAt_ofChain chain source
  have hpath {reading : List Condition} (hreading : reading ∈ readingsOfChain chain) :
      (ofChain chain source).Path (some root) reading :=
    ((paths_ofChain hne h source).path_iff reading).mpr hreading
  rintro (⟨hreading, hgaps⟩ | ⟨hbranch, hreading, hgaps⟩ | ⟨hreading, hrepeats⟩)
  · refine ((hpath hreading).gaps hp).1 (fun j node hj hnode => ?_) hgaps
    cases hj
    exact hp.root_isGap hnode
  · obtain ⟨child, hchild, hbranch_ne, hnormal, next, hbranch_laid⟩ :=
      (exists_of_forall₂ (starts_layoutChain chain h hlaid)).2 _ hbranch
    obtain ⟨before, hbefore, hchild⟩ := List.mem_flatMap.mp hchild
    obtain ⟨i, hi⟩ := List.mem_iff_getElem?.mp hbefore
    have hnode : (ofChain chain source).node? i = some before := by
      simpa [node?, ofChain] using hi
    exact not_startsWithGap_layoutChain hp _ hbranch_ne hnormal hbranch_laid
      (fun node => hp.child_isGap hnode hchild) _ hreading hgaps
  · exact ((hpath hreading).gaps hp).2 hrepeats

end Compile

/-- Once a pattern has a tree, it is refused if and only if a gap of the tree is misplaced, and then
for that; otherwise it compiles. So no path through a compiled pattern begins with a gap or has two
gaps in a row. -/
theorem compile_refuses_misplaced {lexicon : Option Lexicon} {source : String} {chain : Chain}
    (h : parse lexicon source = .ok chain) :
    ((∃ e, compile lexicon source = .error e ∧ e.fault ∈ gapFaults) ↔
      Misplaced chain) ∧
    (¬Misplaced chain → ∃ p, compile lexicon source = .ok p) ∧
    ∀ p, compile lexicon source = .ok p → ∀ conditions, p.Path (some root) conditions →
      ¬StartsWithGap conditions ∧ ¬RepeatsGap conditions := by
  obtain ⟨hne, hnormal⟩ := normal_of_parse h
  have hcompile := compile_of_parse h
  cases hcheck : checkGaps (ofChain chain source) with
  | error refusal =>
    have hmisplaced := misplaced_of_checkGaps hne hnormal hcheck
    rw [hcheck] at hcompile
    refine ⟨iff_of_true ⟨_, hcompile, ?_⟩ hmisplaced, fun hnot => absurd hmisplaced hnot,
      fun p hp => ?_⟩
    · obtain ⟨_, _, -, -, -, ⟨hfault, -⟩ | ⟨hfault, -⟩⟩ := checkGaps_eq_error hcheck <;>
        simp [hfault, gapFaults]
    · rw [hcompile] at hp
      cases hp
  | ok _ =>
    rw [hcheck] at hcompile
    have hp := wellFormed_of_compile hcompile
    refine ⟨iff_of_false ?_ (not_misplaced_of_wellFormed hne hnormal hp), fun _ => ⟨_, hcompile⟩,
      fun p hp' conditions hpath => ?_⟩
    · rintro ⟨e, he, -⟩
      rw [hcompile] at he
      cases he
    · rw [hcompile] at hp'
      cases hp'
      refine ⟨(hpath.gaps hp).1 fun j node hj hnode => ?_, (hpath.gaps hp).2⟩
      cases hj
      exact hp.root_isGap hnode

/-- A gap behind a group follows the gap that ends one of its branches. -/
theorem compile_refuses_rejoined : ∃ chain, parse none "a (b, c **) ** d" = .ok chain ∧
    Misplaced chain ∧
    ∃ e, compile none "a (b, c **) ** d" = .error e ∧ e.fault ∈ gapFaults := by
  let chain : Chain := [.term (.form "a" .plain) 0,
    .choice [[.term (.form "b" .plain) 3], [.term (.form "c" .plain) 6, .term (.gap 5) 8]] 2,
    .term (.gap 5) 12, .term (.form "d" .plain) 15]
  have hparse : parse none "a (b, c **) ** d" = .ok chain := by cbv
  have hreading : [.form "a" .plain, .form "c" .plain, .gap 5, .gap 5, .form "d" .plain] ∈
      readingsOfChain chain := by
    simp [chain, readingsOfChain, readingsOfBranches, readings, combine]
  have hmisplaced : Misplaced chain := .repeated hreading
    ⟨.gap 5, .gap 5, rfl, rfl, [.form "a" .plain, .form "c" .plain], [.form "d" .plain], rfl⟩
  exact ⟨chain, hparse, hmisplaced, (compile_refuses_misplaced hparse).1.mpr hmisplaced⟩

end Concordance.Pattern
