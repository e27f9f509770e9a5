import Concordance.Proofs.Matcher.Slices
import Concordance.Proofs.Matcher.Soundness
import Concordance.Proofs.Pattern.Language

/-! Where taking up the occurrence that ended an attempt at the root misses nothing. In a pattern
without gaps, let no occurrence that can begin a match continue one, and let no choice have two
terms for one occurrence: then an attempt never runs past the place where another begins, and there
is only one way to follow it. Main statement: a scan then finds each stretch of the stream that a
path of the pattern accepts. -/

namespace Concordance

namespace Pattern

/-- The terms that a node leads to without an occurrence being taken: itself, or those of the
branches of a choice, through the choices that stand at their heads. -/
inductive Leaf (p : Pattern) : Nat → Nat → Prop
  | here {i : Nat} {node : Node} : p.node? i = some node → node.isChoice = false → Leaf p i i
  | branch {i child leaf : Nat} {node : Node} : p.node? i = some node → child ∈ node.children →
      Leaf p child leaf → Leaf p i leaf

def Takes (p : Pattern) (o : Occurrence) (leaf : Nat) : Prop :=
  ∃ node, p.node? leaf = some node ∧ node.condition.accepts o = true

/-- No occurrence of the stream leaves a pattern a choice of what to do with it. -/
structure Decided (p : Pattern) (stream : List Occurrence) : Prop where
  /-- One that the root accepts is rejected by all nodes that follow others. -/
  begins : ∀ o ∈ stream, (p.advance? root o).isSome = true → ∀ i node follower,
    p.node? i = some node → node.next = some follower → p.advance? follower o = none
  /-- At a choice, one term at most accepts it. -/
  branches : ∀ o ∈ stream, ∀ i node, p.node? i = some node → node.isChoice = true →
    ∀ leaf other, p.Leaf i leaf → p.Leaf i other → p.Takes o leaf → p.Takes o other → leaf = other

section
variable {p : Pattern} {stream : List Occurrence} {o : Occurrence} {index : Nat}

theorem isGap_of_gaps (h : p.gaps = []) {i : Nat} {node : Node} (hnode : p.node? i = some node) :
    node.isGap = false := by
  obtain ⟨hlt, -⟩ := Array.getElem?_eq_some_iff.mp hnode
  have hfilter := List.filter_eq_nil_iff.mp h i (List.mem_range.mpr hlt)
  simpa [hnode] using hfilter

theorem false_of_gap (h : p.gaps = []) {i position : Nat} {budget : Int} {next : Option Nat}
    {children : List Nat} (hnode : p.node? i = some ⟨.gap budget, next, children, position⟩) :
    False := by
  have hgap := isGap_of_gaps h hnode
  cases hgap

theorem isChoice_of_mem {node : Node} {child : Nat} (h : child ∈ node.children) :
    node.isChoice = true := by
  simpa [Node.isChoice] using List.ne_nil_of_mem h

theorem leaf_of_accept {i : Nat} {next : Option Nat} (h : p.accept? o i = some next) :
    ∃ leaf node, p.Leaf i leaf ∧ p.node? leaf = some node ∧ node.condition.accepts o = true ∧
      node.next = next := by
  fun_induction accept? p o i with
  | case1 => cases h
  | case2 i node hnode hchoice ih =>
    obtain ⟨child, hmem, hchild⟩ := List.exists_of_findSome?_eq_some h
    split at hchild
    · rename_i honward
      obtain ⟨leaf, node', hleaf, hrest⟩ := ih child honward hchild
      exact ⟨leaf, node', .branch hnode hmem hleaf, hrest⟩
    · cases hchild
  | case3 i node hnode hchoice haccepts =>
    cases h
    exact ⟨i, node, .here hnode (by simpa using hchoice), hnode, haccepts, rfl⟩
  | case4 => cases h

theorem Leaf.accept? (hp : p.WellFormed) {i leaf : Nat} (h : p.Leaf i leaf)
    (htakes : p.Takes o leaf) : ∃ next, p.accept? o i = some next := by
  induction h with
  | here hnode hterm =>
    obtain ⟨node, hnode', haccepts⟩ := htakes
    cases hnode.symm.trans hnode'
    exact ⟨_, by rw [accept?_term hnode hterm, if_pos haccepts]⟩
  | @branch i child leaf node hnode hmem _ ih =>
    obtain ⟨next, hnext⟩ := ih htakes
    rw [accept?_choice hp hnode (isChoice_of_mem hmem)]
    exact Option.isSome_iff_exists.mp
      (List.findSome?_isSome_iff.mpr ⟨child, hmem, by rw [hnext]; rfl⟩)

theorem Leaf.le (hp : p.WellFormed) {i leaf : Nat} (h : p.Leaf i leaf) : i ≤ leaf := by
  induction h with
  | here _ _ => exact Nat.le_refl _
  | branch hnode hchild _ ih =>
    have honward := hp.child_onward hnode hchild
    omega

theorem Leaf.eq_of_term {i leaf : Nat} {node : Node} (h : p.Leaf i leaf)
    (hnode : p.node? i = some node) (hterm : node.isChoice = false) : leaf = i := by
  cases h with
  | here => rfl
  | branch hnode' hmem _ =>
    cases hnode.symm.trans hnode'
    rw [isChoice_of_mem hmem] at hterm
    cases hterm

theorem Decided.accept_eq (hp : p.WellFormed) (hdecided : p.Decided stream) (ho : o ∈ stream)
    {i leaf : Nat} {node : Node} (hleaf : p.Leaf i leaf) (hnode : p.node? leaf = some node)
    (haccepts : node.condition.accepts o = true) : p.accept? o i = some node.next := by
  obtain ⟨next, hnext⟩ := hleaf.accept? hp ⟨node, hnode, haccepts⟩
  obtain ⟨first, node', hfirst, hnode', haccepts', rfl⟩ := leaf_of_accept hnext
  have hsame : first = leaf := by
    cases hi : p.node? i with
    | none => cases hleaf <;> simp_all
    | some head =>
      cases hchoice : head.isChoice with
      | false => rw [hfirst.eq_of_term hi hchoice, hleaf.eq_of_term hi hchoice]
      | true =>
        exact hdecided.branches o ho i head hi hchoice first leaf hfirst hleaf
          ⟨node', hnode', haccepts'⟩ ⟨node, hnode, haccepts⟩
  subst hsame
  cases hnode.symm.trans hnode'
  exact hnext

theorem Cut.first (hgaps : p.gaps = []) {i : Nat} {row : List Occurrence}
    (h : p.Cut (some i) row) : ∃ leaf node o rest, row = o :: rest ∧ p.Leaf i leaf ∧
      p.node? leaf = some node ∧ node.condition.accepts o = true ∧ p.Cut node.next rest := by
  generalize hcurrent : some i = current at h
  induction h generalizing i with
  | done => cases hcurrent
  | @term index node o row hnode hterm _ haccepts hrow =>
    cases hcurrent
    exact ⟨index, node, o, row, rfl, .here hnode hterm, hnode, haccepts, hrow⟩
  | choice hnode hmem _ ih =>
    cases hcurrent
    obtain ⟨leaf, node, o, rest, hrow, hleaf, hrest⟩ := ih rfl
    exact ⟨leaf, node, o, rest, hrow, .branch hnode hmem hleaf, hrest⟩
  | gap hnode => exact (false_of_gap hgaps hnode).elim
  | lastGap hnode => exact (false_of_gap hgaps hnode).elim

theorem cut_iff_path (hgaps : p.gaps = []) {current : Option Nat} {row : List Occurrence} :
    p.Cut current row ↔ ∃ conditions, p.Path current conditions ∧
      List.Forall₂ (fun condition o => condition.accepts o = true) conditions row := by
  constructor
  · intro h
    induction h with
    | done => exact ⟨[], .done, .nil⟩
    | term hnode hterm _ haccepts _ ih =>
      obtain ⟨conditions, hpath, hrow⟩ := ih
      exact ⟨_, .term hnode hterm hpath, .cons haccepts hrow⟩
    | choice hnode hmem _ ih =>
      obtain ⟨conditions, hpath, hrow⟩ := ih
      exact ⟨conditions, .choice hnode (isChoice_of_mem hmem) hmem hpath, hrow⟩
    | gap hnode => exact (false_of_gap hgaps hnode).elim
    | lastGap hnode => exact (false_of_gap hgaps hnode).elim
  · rintro ⟨conditions, hpath, hrow⟩
    induction hpath generalizing row with
    | done =>
      cases hrow
      exact .done
    | term hnode hterm _ ih =>
      cases hrow with
      | cons haccepts hrest =>
        exact .term hnode hterm (isGap_of_gaps hgaps hnode) haccepts (ih hrest)
    | choice hnode _ hmem _ ih => exact .choice hnode hmem (ih hrow)

theorem any_isGap_of_gaps (hgaps : p.gaps = []) (i : Nat) :
    (p.node? i).any Node.isGap = false := by
  cases hnode : p.node? i with
  | none => rfl
  | some node => exact isGap_of_gaps hgaps hnode

theorem of_cons_prefix_drop {row : List Occurrence} (h : o :: row <+: stream.drop index) :
    stream[index]? = some o ∧ row <+: stream.drop (index + 1) := by
  obtain ⟨tail, htail⟩ := h
  constructor
  · rw [← List.head?_drop, ← htail]
    rfl
  · exact ⟨tail, by rw [← List.tail_drop, ← htail]; rfl⟩

theorem attempt_of_cut (hp : p.WellFormed) (hgaps : p.gaps = []) (hdecided : p.Decided stream)
    {current : Option Nat} {row : List Occurrence} (h : p.Cut current row)
    (hrow : row <+: stream.drop index) :
    p.attempt stream current index = .matched (index + row.length) := by
  induction row generalizing current index with
  | nil =>
    cases current with
    | none => rw [attempt, List.length_nil, Nat.add_zero]
    | some i =>
      obtain ⟨_, _, _, _, hnil, -⟩ := h.first hgaps
      cases hnil
  | cons o rest ih =>
    cases current with
    | none => cases h
    | some i =>
      obtain ⟨leaf, node, _, _, hcons, hleaf, hnode, haccepts, hrest⟩ := h.first hgaps
      cases hcons
      obtain ⟨ho, hnext⟩ := of_cons_prefix_drop hrow
      have hattempt := attempt_node (p := p) ho (any_isGap_of_gaps hgaps i)
      rw [hdecided.accept_eq hp (List.mem_of_getElem? ho) hleaf hnode haccepts] at hattempt
      dsimp only at hattempt
      rw [hattempt, ih hrest hnext, List.length_cons, Nat.add_right_comm, Nat.add_assoc]

def Attempt.Before (index : Nat) : Attempt → Prop
  | .matched stop => stop ≤ index
  | .failed restart => restart ≤ index
  | .incomplete => False

theorem attempt_before (hp : p.WellFormed) (hgaps : p.gaps = []) (hdecided : p.Decided stream)
    {start : Nat} (ho : stream[start]? = some o) (hroot : (p.accept? o root).isSome = true)
    {current : Option Nat} (hcurrent : ∃ i node, p.node? i = some node ∧ node.next = current)
    (hle : index ≤ start) : (p.attempt stream current index).Before start := by
  obtain ⟨hstart, -⟩ := List.getElem?_eq_some_iff.mp ho
  have hreject {i : Nat} (hfollows : ∃ before node, p.node? before = some node ∧
      node.next = some i) : p.accept? o i = none := by
    obtain ⟨before, node, hnode, hnext⟩ := hfollows
    rw [← advance?_eq hp] at hroot ⊢
    exact hdecided.begins o (List.mem_of_getElem? ho) hroot before node i hnode hnext
  fun_induction attempt p stream current index with
  | case1 index => exact hle
  | case2 _ _ _ _ _ _ hnode => exact (false_of_gap hgaps hnode).elim
  | case3 _ _ _ _ _ _ _ hnode => exact (false_of_gap hgaps hnode).elim
  | case4 _ _ _ _ _ _ _ hnode => exact (false_of_gap hgaps hnode).elim
  | case5 _ _ _ _ _ _ _ hnode => exact (false_of_gap hgaps hnode).elim
  | case6 i index hlt next haccept _ _ ih =>
    have hne : index ≠ start := by
      rintro rfl
      cases (List.getElem?_eq_getElem hlt).symm.trans ho
      rw [hreject hcurrent] at haccept
      cases haccept
    obtain ⟨leaf, node, -, hnode, -, hnext⟩ := leaf_of_accept haccept
    exact ih ⟨leaf, node, hnode, hnext⟩ (by omega)
  | case7 => exact hle
  | case8 => omega

theorem mem_extents_of_cut (hp : p.WellFormed) (hgaps : p.gaps = [])
    (hdecided : p.Decided stream) {start : Nat} {row : List Occurrence}
    (h : p.Cut (some root) row) (hrow : row <+: stream.drop start) (hle : index ≤ start) :
    (start, start + row.length) ∈ p.extents stream index := by
  obtain ⟨leaf, node, o, rest, rfl, hleaf, hnode, haccepts, hrest⟩ := h.first hgaps
  obtain ⟨ho, hnext⟩ := of_cons_prefix_drop hrow
  have haccept := hdecided.accept_eq hp (List.mem_of_getElem? ho) hleaf hnode haccepts
  have hattempt := attempt_of_cut hp hgaps hdecided hrest hnext
  -- What begins at the row itself finds it; what begins before ends before.
  have hending {i : Nat} {next : Option Nat} (hi : i < stream.length)
      (hroot : p.accept? stream[i] root = some next) (hle : i ≤ start) :
      i = start ∧ p.attempt stream next (i + 1) = .matched (start + (o :: rest).length) ∨
        (p.attempt stream next (i + 1)).Before start := by
    rcases Nat.eq_or_lt_of_le hle with rfl | hlt
    · cases (List.getElem?_eq_getElem hi).symm.trans ho
      cases hroot.symm.trans haccept
      exact .inl ⟨rfl, by rw [hattempt, List.length_cons, Nat.add_right_comm, Nat.add_assoc]⟩
    · obtain ⟨first, head, -, hhead, -, hfollows⟩ := leaf_of_accept hroot
      exact .inr (attempt_before hp hgaps hdecided ho (by rw [haccept]; rfl)
        ⟨first, head, hhead, hfollows⟩ hlt)
  fun_induction extents p stream index with
  | case1 index hlt hreject ih =>
    have hne : index ≠ start := by
      rintro rfl
      cases (List.getElem?_eq_getElem hlt).symm.trans ho
      rw [haccept] at hreject
      cases hreject
    exact ih (by omega)
  | case2 index hlt next hroot stop hmatched ih =>
    rcases hending hlt hroot hle with ⟨rfl, heq⟩ | hbefore
    · cases hmatched.symm.trans heq
      exact List.mem_cons_self
    · rw [hmatched] at hbefore
      exact List.mem_cons_of_mem _ (ih hbefore)
  | case3 index hlt next hroot restart hfailed ih =>
    rcases hending hlt hroot hle with ⟨-, heq⟩ | hbefore
    · cases hfailed.symm.trans heq
    · rw [hfailed] at hbefore
      exact ih hbefore
  | case4 index hlt next hroot hincomplete =>
    rcases hending hlt hroot hle with ⟨-, heq⟩ | hbefore
    · cases hincomplete.symm.trans heq
    · rw [hincomplete] at hbefore
      exact hbefore.elim
  | case5 index hend =>
    obtain ⟨hstart, -⟩ := List.getElem?_eq_some_iff.mp ho
    omega

end

end Pattern

namespace Matcher

open Pattern

/-- Without gaps, and over a stream that leaves the pattern no choice, a scan yields exactly the
extents of the stretches that are accepted one by one along a path of the pattern. -/
theorem scan_finds_all {p : Pattern} {lexicon : Option Lexicon} {text : String}
    (h : compile lexicon text = .ok p) (hgaps : p.gaps = []) {stream : List Occurrence}
    (hdecided : p.Decided stream) (m : Matcher) (name : Option String) (source : Option Source)
    (extent : Int × Int) :
    extent ∈ (m.scan p stream name source none).1.map (fun hit => (hit.start, hit.stop)) ↔
      ∃ start stop : Nat, extent = ((start : Int), (stop : Int)) ∧ start ≤ stop ∧
        stop ≤ stream.length ∧ ∃ conditions, p.Path (some root) conditions ∧
          List.Forall₂ (fun condition o => condition.accepts o = true) conditions
            (stretch stream start stop) := by
  have hp := wellFormed_of_compile h
  have hhits : (scanFrom p name source none 0 m.reset stream).1 =
      (p.extents stream 0).map (hitAt stream name source) :=
    Awaits.scanFrom hp name source (.atRoot rfl) List.drop_zero
  rw [scan, hhits, List.map_map, List.mem_map]
  constructor
  · rintro ⟨⟨start, stop⟩, hmem, rfl⟩
    obtain ⟨-, hstart, hstop⟩ := mem_extents hmem
    exact ⟨start, stop, rfl, Nat.le_of_lt hstart, hstop,
      (cut_iff_path hgaps).mp (cut_of_extent hp hmem)⟩
  · rintro ⟨start, stop, rfl, hstart, hstop, hpath⟩
    have hmem := mem_extents_of_cut hp hgaps hdecided ((cut_iff_path hgaps).mpr hpath)
      (List.take_prefix _ _) (Nat.zero_le start)
    rw [length_stretch hstop, Nat.add_sub_cancel' hstart] at hmem
    exact ⟨(start, stop), hmem, rfl⟩

theorem found_behind_broken_attempt : ∃ (p : Pattern) (stream : List Occurrence),
    compile none "a (b, c) d" = .ok p ∧ p.gaps = [] ∧ p.Decided stream ∧
      stream = ["a", "b", "a", "c", "d"].map (Occurrence.untagged · 0) ∧
      ((2 : Int), (5 : Int)) ∈
        (fresh.scan p stream none none none).1.map fun hit => (hit.start, hit.stop) := by
  let chain : Chain := [.term (.form "a" .plain) 0, .choice
    [[.term (.form "b" .plain) 3], [.term (.form "c" .plain) 6]] 2, .term (.form "d" .plain) 9]
  let p := ofChain chain "a (b, c) d"
  let stream := ["a", "b", "a", "c", "d"].map (Occurrence.untagged · 0)
  have hcompile : compile none "a (b, c) d" = .ok p := by
    cbv
  have hgaps : p.gaps = [] := by
    cbv
  have hdecided : p.Decided stream := by
    have hnode {i : Nat} {node : Node} (h : p.node? i = some node) : i < 5 :=
      (Array.getElem?_eq_some_iff.mp h).1
    have hbegins : ∀ o ∈ stream, (p.advance? root o).isSome = true →
        p.advance? 1 o = none ∧ p.advance? 4 o = none := by
      decide +kernel
    have hbranches : ∀ o ∈ stream, o.orth = "b" → o.orth ≠ "c" := by
      decide +kernel
    have hleaves {leaf : Nat} (h : p.Leaf 1 leaf) : leaf = 2 ∨ leaf = 3 := by
      cases h with
      | here h hterm =>
        cases h
        cases hterm
      | @branch _ child _ _ h hmem hleaf =>
        cases h
        have hchild : child ∈ [2, 3] := hmem
        rcases List.mem_pair.mp hchild with rfl | rfl
        · exact .inl (hleaf.eq_of_term rfl rfl)
        · exact .inr (hleaf.eq_of_term rfl rfl)
    have htaken {o : Occurrence} (h : p.Takes o 2) (h' : p.Takes o 3) :
        o.orth = "b" ∧ o.orth = "c" := by
      obtain ⟨_, hfirst, hb⟩ := h
      obtain ⟨_, hsecond, hc⟩ := h'
      cases hfirst
      cases hsecond
      exact ⟨beq_iff_eq.mp hb, beq_iff_eq.mp hc⟩
    refine ⟨fun o ho hroot i node follower h hnext => ?_,
      fun o ho i node h hchoice leaf other hleaf hother htakes htakes' => ?_⟩
    · have hi := hnode h
      interval_cases i <;> cases h <;> cases hnext
      exacts [(hbegins o ho hroot).1, (hbegins o ho hroot).2, (hbegins o ho hroot).2,
        (hbegins o ho hroot).2]
    · have hi := hnode h
      interval_cases i <;> cases h <;> cases hchoice
      rcases hleaves hleaf with rfl | rfl <;> rcases hleaves hother with rfl | rfl
      · rfl
      · exact absurd (htaken htakes htakes').2 (hbranches o ho (htaken htakes htakes').1)
      · exact absurd (htaken htakes' htakes).2 (hbranches o ho (htaken htakes' htakes).1)
      · rfl
  refine ⟨p, stream, hcompile, hgaps, hdecided, rfl, ?_⟩
  refine (scan_finds_all hcompile hgaps hdecided fresh none none (2, 5)).mpr
    ⟨2, 5, rfl, by decide, by decide,
      [.form "a" .plain, .form "c" .plain, .form "d" .plain], ?_, ?_⟩
  · have hlast := @Path.term p 4 ⟨.form "d" .plain, none, [], 9⟩ _ rfl rfl .done
    have hbranch := @Path.term p 3 ⟨.form "c" .plain, some 4, [], 6⟩ _ rfl rfl hlast
    exact @Path.term p 0 ⟨.form "a" .plain, some 1, [], 0⟩ _ rfl rfl
      (.choice rfl rfl (by decide) hbranch)
  · exact .cons (by cbv) (.cons (by cbv) (.cons (by cbv) .nil))

end Matcher
end Concordance
