import Concordance.Proofs.Matcher.Completeness
import Concordance.Proofs.Matcher.Composition

/-! The state of a matcher, told from what it was given. A matcher is watched: beside it stand the
occurrences given since the last reset or match, and those that it has passed over at the gap where it
waits. Main statement: in every state that a matcher of a compiled pattern can be brought into, it is
at the root with nothing, or at a later node with the last of the occurrences, and what is left at a
gap is the budget less what was passed over. -/

namespace Concordance.Matcher

open Pattern

section Step
variable {p : Pattern} {m : Matcher} {o : Occurrence} {index : Nat}

def enter (p : Pattern) (m : Matcher) (index : Nat) : Matcher := (moveTo p m (some index)).2

theorem moveTo_some (p : Pattern) (m : Matcher) (index : Nat) :
    moveTo p m (some index) = (false, enter p m index) := by
  unfold enter moveTo
  dsimp only
  split <;> rfl

@[simp] theorem current_enter : (enter p m index).current = some index := by
  unfold enter moveTo
  dsimp only
  split <;> rfl

@[simp] theorem pending_enter : (enter p m index).pending = m.pending := by
  unfold enter moveTo
  dsimp only
  split <;> rfl

theorem lookup_setBudget (m : Matcher) (gap : Nat) (left : Int) :
    (m.setBudget gap left).budgets.lookup gap = some left := by
  simp [setBudget]

theorem mem_setBudget {gap : Nat} {left : Int} {entry : Nat × Int}
    (h : entry ∈ (m.setBudget gap left).budgets) : entry = (gap, left) ∨ entry ∈ m.budgets := by
  rcases List.mem_cons.mp h with heq | hmem
  · exact .inl heq
  · exact .inr (List.mem_of_mem_filter hmem)

/-- What a step can do. Each case says where the matcher is then, with which occurrences, and what is
left at the gaps. -/
inductive StepResult (p : Pattern) (m : Matcher) (o : Occurrence) : Bool × Matcher → Prop
  | dropped : StepResult p m o (false, m.reset)
  | completed (row : List Occurrence) : StepResult p m o (true, { m.reset with found := row })
  | begun {next : Nat} : 1 ≤ next → next < p.size →
      StepResult p m o (false, enter p { m.reset with pending := [o] } next)
  | taken {current next : Nat} : m.current = some current → current < next → next < p.size →
      StepResult p m o (false, enter p (m.push o) next)
  /-- The occurrence is passed over. -/
  | passed {gap : Nat} {node : Node} {budget : Int} : m.current = some gap →
      p.node? gap = some node → node.condition = .gap budget → 0 < m.remaining gap budget →
      StepResult p m o (false, (m.push o).setBudget gap (m.remaining gap budget - 1))

theorem advance?_onward (hp : p.WellFormed) {next : Nat}
    (h : p.advance? index o = some (some next)) : index < next ∧ next < p.size := by
  rw [advance?_eq hp] at h
  obtain ⟨leaf, node, hleaf, hnode, -, hnext⟩ := leaf_of_accept h
  have honward := hp.next_onward hnode hnext
  have hle := hleaf.le hp
  omega

theorem begin_result (hp : p.WellFormed) (m : Matcher) (o : Occurrence) :
    StepResult p m o (begin p m.reset o) := by
  unfold begin
  cases hadvance : p.advance? root o with
  | none => exact .dropped
  | some next =>
    cases next with
    | none => exact .completed [o]
    | some next =>
      obtain ⟨hlt, hsize⟩ := advance?_onward hp hadvance
      dsimp only
      rw [moveTo_some]
      exact .begun hlt hsize

theorem push_result {current : Nat} {next : Option Nat} (hcurrent : m.current = some current)
    (hnext : ∀ i, next = some i → current < i ∧ i < p.size) :
    StepResult p m o (moveTo p (m.push o) next) := by
  cases next with
  | none => exact .completed (m.push o).pending
  | some next =>
    obtain ⟨hlt, hsize⟩ := hnext next rfl
    rw [moveTo_some]
    exact .taken hcurrent hlt hsize

theorem stepInGap_result (hp : p.WellFormed) {gap position : Nat} {budget : Int}
    {next : Option Nat} {children : List Nat} (hcurrent : m.current = some gap)
    (hnode : p.node? gap = some ⟨.gap budget, next, children, position⟩) :
    StepResult p m o (stepInGap p m gap budget next o) := by
  unfold stepInGap
  cases next with
  | none => exact push_result hcurrent nofun
  | some follower =>
    have hfollower := hp.next_onward hnode rfl
    dsimp only
    cases hadvance : p.advance? follower o with
    | some next =>
      refine push_result hcurrent fun i hi => ?_
      have honward := advance?_onward hp (hi ▸ hadvance)
      omega
    | none =>
      dsimp only
      split
      · exact .passed hcurrent hnode rfl (by assumption)
      · exact begin_result hp m o

theorem step_result (hp : p.WellFormed) (hsettled : m.Settled) (o : Occurrence) :
    StepResult p m o (step p m o) := by
  cases hcurrent : m.current with
  | none =>
    have hbegin := begin_result hp m o
    rwa [hsettled.reset_eq hcurrent, ← step_root hcurrent] at hbegin
  | some index =>
    unfold step
    rw [hcurrent]
    dsimp only
    split
    · exact stepInGap_result hp hcurrent (by assumption)
    · split
      · rename_i hadvance
        exact push_result hcurrent fun i hi => advance?_onward hp (hi ▸ hadvance)
      · exact begin_result hp m o

end Step

/-- An occurrence is passed over: it is taken, and the matcher waits at the same gap as before. -/
def PassesOver (p : Pattern) (m : Matcher) (o : Occurrence) : Prop :=
  (m.current.bind p.node?).any Node.isGap = true ∧ (step p m o).2.current = m.current ∧
    (step p m o).2.pending = m.pending ++ [o]

instance (p : Pattern) (m : Matcher) (o : Occurrence) : Decidable (PassesOver p m o) :=
  inferInstanceAs (Decidable (_ ∧ _ ∧ _))

structure Watched where
  matcher : Matcher
  /-- The occurrences since the last reset or match. -/
  fed : List Occurrence
  /-- The occurrences that were passed over at the gap where the matcher waits. -/
  passed : List Occurrence

namespace Watched

def fresh : Watched := ⟨.fresh, [], []⟩

def reset (w : Watched) : Watched := ⟨w.matcher.reset, [], []⟩

def take (p : Pattern) (w : Watched) (o : Occurrence) : Bool × Watched :=
  let answer := step p w.matcher o
  (answer.1, ⟨answer.2, if answer.1 then [] else w.fed ++ [o],
    if PassesOver p w.matcher o then w.passed ++ [o] else []⟩)

def scanFrom (p : Pattern) (limit : Option Nat) (w : Watched) : List Occurrence → Watched
  | [] => w
  | o :: rest =>
    match w.take p o with
    | (false, w) => scanFrom p limit w rest
    | (true, w) => if limit.any (· ≤ 1) then w else scanFrom p (limit.map (· - 1)) w rest

def scan (p : Pattern) (limit : Option Nat) (w : Watched) (stream : List Occurrence) : Watched :=
  w.reset.scanFrom p limit stream

inductive Observed (p : Pattern) : Watched → Prop
  | fresh : Observed p fresh
  | take {w : Watched} (o : Occurrence) : Observed p w → Observed p (w.take p o).2
  | reset {w : Watched} : Observed p w → Observed p w.reset
  | scan {w : Watched} (limit : Option Nat) (stream : List Occurrence) : Observed p w →
      Observed p (w.scan p limit stream)

/-- The state of a matcher, told from what it was given. -/
structure Invariant (p : Pattern) (w : Watched) : Prop where
  idle : w.matcher.current = none ↔ w.matcher.pending = []
  idle_budgets : w.matcher.current = none → w.matcher.budgets = []
  waits {index : Nat} : w.matcher.current = some index → 1 ≤ index ∧ index < p.size
  pending_last : w.matcher.pending <:+ w.fed
  left {gap : Nat} {left : Int} : (gap, left) ∈ w.matcher.budgets → ∃ node budget,
    p.node? gap = some node ∧ node.condition = .gap budget ∧ 0 ≤ left ∧ left ≤ budget
  /-- At a gap, what is left is the budget less the last occurrences, which were passed over. -/
  at_gap {gap : Nat} {node : Node} {budget : Int} : w.matcher.current = some gap →
    p.node? gap = some node → node.condition = .gap budget →
    ∃ left, w.matcher.budgets.lookup gap = some left ∧ w.passed <:+ w.matcher.pending ∧
      (w.passed.length : Int) = budget - left

section Invariant
variable {p : Pattern} {w : Watched} {m : Matcher} {fed passed : List Occurrence}

theorem Invariant.settled (h : Invariant p w) : w.matcher.Settled :=
  fun hroot => ⟨h.idle.mp hroot, h.idle_budgets hroot⟩

theorem invariant_root (m : Matcher) (row : List Occurrence) :
    Invariant p ⟨{ m.reset with found := row }, fed, passed⟩ :=
  ⟨⟨fun _ => rfl, fun _ => rfl⟩, fun _ => rfl, nofun, List.nil_suffix, nofun, nofun⟩

theorem invariant_reset (w : Watched) : Invariant p w.reset :=
  invariant_root w.matcher w.matcher.found

theorem enter_eq_gap {index : Nat} {node : Node} {budget : Int}
    (hnode : p.node? index = some node) (hgap : node.condition = .gap budget) :
    enter p m index = { m with current := some index }.setBudget index budget := by
  obtain ⟨condition, next, children, position⟩ := node
  cases hgap
  rw [enter, moveTo_gap hnode]

theorem enter_eq_node {index : Nat} (h : (p.node? index).any Node.isGap = false) :
    enter p m index = { m with current := some index } := by
  rw [enter, moveTo_node h]

theorem exists_budget {node : Node} (h : node.isGap = true) :
    ∃ budget, node.condition = .gap budget := by
  obtain ⟨condition, next, children, position⟩ := node
  cases condition with
  | gap budget => exact ⟨budget, rfl⟩
  | _ => cases h

theorem mem_enter {index : Nat} {entry : Nat × Int} (h : entry ∈ (enter p m index).budgets) :
    entry ∈ m.budgets ∨ ∃ node, p.node? index = some node ∧ entry.1 = index ∧
      node.condition = .gap entry.2 := by
  cases hgap : (p.node? index).any Node.isGap with
  | false =>
    rw [enter_eq_node hgap] at h
    exact .inl h
  | true =>
    obtain ⟨node, hnode, hgap⟩ := (Option.any_eq_true _ _).mp hgap
    obtain ⟨budget, hbudget⟩ := exists_budget hgap
    rw [enter_eq_gap hnode hbudget] at h
    rcases mem_setBudget h with rfl | hmem
    · exact .inr ⟨node, hnode, rfl, hbudget⟩
    · exact .inl hmem

theorem invariant_enter (hp : p.WellFormed) {index : Nat} (hstart : 1 ≤ index)
    (hsize : index < p.size) (hne : m.pending ≠ []) (hlast : m.pending <:+ fed)
    (hleft : ∀ {gap left}, (gap, left) ∈ m.budgets → ∃ node budget,
      p.node? gap = some node ∧ node.condition = .gap budget ∧ 0 ≤ left ∧ left ≤ budget) :
    Invariant p ⟨enter p m index, fed, []⟩ where
  idle := by simp [hne]
  idle_budgets := by simp
  waits h := by
    rw [current_enter] at h
    cases h
    exact ⟨hstart, hsize⟩
  pending_last := by
    rw [pending_enter]
    exact hlast
  left h := by
    rcases mem_enter h with hmem | ⟨node, hnode, rfl, hbudget⟩
    · exact hleft hmem
    · exact ⟨node, _, hnode, hbudget, hp.budget_nonneg hnode hbudget, Int.le_refl _⟩
  at_gap {_ _ budget} h hnode hbudget := by
    rw [current_enter] at h
    cases h
    refine ⟨budget, ?_, List.nil_suffix, by simp⟩
    rw [enter_eq_gap hnode hbudget]
    exact lookup_setBudget _ _ _

theorem Invariant.take (hp : p.WellFormed) (hw : Invariant p w) (o : Occurrence) :
    Invariant p (w.take p o).2 := by
  have hresult := step_result hp hw.settled o
  generalize hanswer : step p w.matcher o = answer at hresult
  have htake : (w.take p o).2 = ⟨answer.2, if answer.1 then [] else w.fed ++ [o],
      if PassesOver p w.matcher o then w.passed ++ [o] else []⟩ := by
    rw [← hanswer]
    rfl
  cases hresult with
  | dropped =>
    rw [htake]
    exact invariant_root w.matcher w.matcher.found
  | completed row =>
    rw [htake]
    exact invariant_root w.matcher row
  | begun hlt hsize =>
    have hpasses : ¬ PassesOver p w.matcher o := by
      rintro ⟨hgap, -, hpending⟩
      rw [hanswer, pending_enter] at hpending
      have hroot := hw.idle.mpr (List.self_eq_append_left.mp hpending)
      rw [hroot] at hgap
      cases hgap
    rw [htake, if_neg hpasses]
    exact invariant_enter hp hlt hsize (List.cons_ne_nil o []) (List.suffix_append w.fed [o]) nofun
  | taken hcurrent hlt hsize =>
    have hpasses : ¬ PassesOver p w.matcher o := by
      rintro ⟨-, hsame, -⟩
      rw [hanswer, current_enter, hcurrent] at hsame
      cases hsame
      exact Nat.lt_irrefl _ hlt
    rw [htake, if_neg hpasses]
    exact invariant_enter hp (by omega) hsize (by simp [push])
      (List.suffix_append_self_iff.mpr hw.pending_last) hw.left
  | @passed gap node budget hcurrent hnode hbudget hremains =>
    have hpasses : PassesOver p w.matcher o := by
      refine ⟨?_, by rw [hanswer]; rfl, by rw [hanswer]; rfl⟩
      simp [hcurrent, hnode, Node.isGap, hbudget, Condition.isGap]
    obtain ⟨left, hlookup, hpassed, hlength⟩ := hw.at_gap hcurrent hnode hbudget
    have hremaining : w.matcher.remaining gap budget = left := by rw [remaining, hlookup]; rfl
    rw [hremaining] at hremains htake
    rw [htake, if_pos hpasses]
    exact {
      idle := by simp [setBudget, push, hcurrent]
      idle_budgets := by simp [setBudget, push, hcurrent]
      waits := hw.waits
      pending_last := List.suffix_append_self_iff.mpr hw.pending_last
      left := fun hmem => by
        rcases mem_setBudget hmem with heq | hmem
        · cases heq
          exact ⟨node, budget, hnode, hbudget, by omega, by omega⟩
        · exact hw.left hmem
      at_gap := fun hcurrent' hnode' hbudget' => by
        cases hcurrent.symm.trans hcurrent'
        cases hnode.symm.trans hnode'
        cases hbudget.symm.trans hbudget'
        refine ⟨left - 1, lookup_setBudget _ _ _, List.suffix_append_self_iff.mpr hpassed, ?_⟩
        rw [List.length_append, List.length_singleton]
        omega }

theorem Invariant.scanFrom (hp : p.WellFormed) (hw : Invariant p w) (limit : Option Nat)
    (stream : List Occurrence) : Invariant p (w.scanFrom p limit stream) := by
  induction stream generalizing w limit with
  | nil => exact hw
  | cons o rest ih =>
    have htaken := hw.take hp o
    rw [Watched.scanFrom]
    generalize w.take p o = answer at htaken ⊢
    obtain ⟨completes, after⟩ := answer
    cases completes with
    | false => exact ih htaken limit
    | true =>
      dsimp only
      split
      · exact htaken
      · exact ih htaken _

theorem Observed.invariant (hp : p.WellFormed) (h : Observed p w) : Invariant p w := by
  induction h with
  | fresh => exact invariant_root Matcher.fresh []
  | take o _ ih => exact ih.take hp o
  | reset => exact invariant_reset _
  | scan limit stream _ _ => exact (invariant_reset _).scanFrom hp limit stream

theorem matcher_scanFrom (name : Option String) (source : Option Source) (limit : Option Nat)
    (index : Nat) (w : Watched) (stream : List Occurrence) :
    (w.scanFrom p limit stream).matcher =
      (Matcher.scanFrom p name source limit index w.matcher stream).2 := by
  induction stream generalizing limit index w with
  | nil => rfl
  | cons o rest ih =>
    rw [Watched.scanFrom, Matcher.scanFrom, Watched.take]
    generalize step p w.matcher o = answer
    obtain ⟨completes, after⟩ := answer
    cases completes with
    | false => exact ih _ _ _
    | true =>
      dsimp only
      split
      · rfl
      · exact ih _ _ _

theorem reachable_iff : Reachable p m ↔ ∃ w, Observed p w ∧ w.matcher = m := by
  constructor
  · intro h
    induction h with
    | fresh => exact ⟨_, .fresh, rfl⟩
    | step o _ ih =>
      obtain ⟨w, hw, rfl⟩ := ih
      exact ⟨_, .take o hw, rfl⟩
    | reset _ ih =>
      obtain ⟨w, hw, rfl⟩ := ih
      exact ⟨_, .reset hw, rfl⟩
    | scan stream name source limit _ ih =>
      obtain ⟨w, hw, rfl⟩ := ih
      exact ⟨_, .scan limit stream hw, matcher_scanFrom name source limit 0 w.reset stream⟩
  · rintro ⟨w, hw, rfl⟩
    induction hw with
    | fresh => exact .fresh
    | take o _ ih => exact .step o ih
    | reset _ ih => exact .reset ih
    | @scan w limit stream _ ih =>
      have hscan : (w.scan p limit stream).matcher = (w.matcher.scan p stream none none limit).2 :=
        matcher_scanFrom none none limit 0 w.reset stream
      rw [hscan]
      exact .scan stream none none limit ih

end Invariant

end Watched

open Watched

/-- The state of a matcher of a compiled pattern. However it came to be, by occurrences, resets and
scans that may have been left alone, there is a record of what the matcher was given; and it is at the
root with nothing, or at a later node with the last of the occurrences given since a reset or match.
Only gaps have a budget left, and none more than its own; at a gap it is the budget less the last of
the occurrences, which were passed over there. -/
theorem invariant_of_reachable {lexicon : Option Lexicon} {text : String} {p : Pattern}
    (h : compile lexicon text = .ok p) :
    (∀ m, Reachable p m ↔ ∃ w, Observed p w ∧ w.matcher = m) ∧
      ∀ w, Observed p w → Invariant p w :=
  ⟨fun _ => reachable_iff, fun _ hw => hw.invariant (wellFormed_of_compile h)⟩

theorem invariant_in_gap : ∃ p w, compile none "a **3 b" = .ok p ∧ Observed p w ∧
    w.matcher.current = some 1 ∧ w.matcher.budgets.lookup 1 = some 1 ∧
    w.fed.map Occurrence.orth = ["x", "a", "y", "z"] ∧
    w.passed.map Occurrence.orth = ["y", "z"] ∧ Invariant p w := by
  have hcompile : compile none "a **3 b" = .ok (ofChain
      [.term (.form "a" .plain) 0, .term (.gap 3) 2, .term (.form "b" .plain) 6] "a **3 b") := by
    cbv
  have hobserved : Observed (ofChain
      [.term (.form "a" .plain) 0, .term (.gap 3) 2, .term (.form "b" .plain) 6] "a **3 b") _ :=
    .take (.untagged "z" 6) (.take (.untagged "y" 4) (.take (.untagged "a" 2)
      (.take (.untagged "x" 0) (.reset (.scan (some 1) [.untagged "a" 0, .untagged "b" 2,
        .untagged "a" 4] .fresh)))))
  exact ⟨_, _, hcompile, hobserved, by cbv, by cbv, by cbv, by cbv,
    (invariant_of_reachable hcompile).2 _ hobserved⟩

end Concordance.Matcher
