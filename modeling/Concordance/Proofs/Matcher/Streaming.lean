import Mathlib
import Concordance.Proofs.Matcher.Reference

/-! A matcher that takes a stream one occurrence at a time finds what the reference finds. Each
state of the matcher stands for an attempt of the reference that is under way: at a gap, for one
that has looked ahead as far as the matcher has gone. Main statement: the hits of a scan are the
extents of the reference. -/

namespace Concordance.Matcher

open Pattern

section
variable {p : Pattern} {m : Matcher} {o : Occurrence}

@[simp] theorem remaining_setBudget (m : Matcher) (gap : Nat) (left budget : Int) :
    (m.setBudget gap left).remaining gap budget = left := by
  simp [remaining, setBudget]

@[simp] theorem pending_setBudget (m : Matcher) (gap : Nat) (budget : Int) :
    (m.setBudget gap budget).pending = m.pending := rfl

theorem moveTo_none (p : Pattern) (m : Matcher) :
    moveTo p m none = (true, { m.reset with found := m.pending }) := rfl

theorem moveTo_gap {index : Nat} {budget : Int} {next : Option Nat} {children : List Nat}
    {position : Nat} (h : p.node? index = some ⟨.gap budget, next, children, position⟩) :
    moveTo p m (some index) =
      (false, { m with current := some index }.setBudget index budget) := by
  simp [moveTo, h]

theorem moveTo_node {index : Nat} (h : (p.node? index).any Node.isGap = false) :
    moveTo p m (some index) = (false, { m with current := some index }) := by
  unfold moveTo
  dsimp only
  split
  · rename_i hgap
    obtain ⟨node, hnode, hcondition⟩ := Option.map_eq_some_iff.mp hgap
    simp [hnode, Node.isGap, hcondition, Condition.isGap] at h
  · rfl

theorem step_root (h : m.current = none) : step p m o = begin p m o := by
  simp [step, h]

theorem step_gap {index : Nat} {budget : Int} {next : Option Nat} {children : List Nat}
    {position : Nat} (h : m.current = some index)
    (hnode : p.node? index = some ⟨.gap budget, next, children, position⟩) :
    step p m o = stepInGap p m index budget next o := by
  simp [step, h, hnode]

theorem step_node {index : Nat} (h : m.current = some index)
    (hgap : (p.node? index).any Node.isGap = false) :
    step p m o =
      match p.advance? index o with
      | some next => moveTo p (m.push o) next
      | none => begin p m.reset o := by
  unfold step
  simp only [h]
  split
  · rename_i hnode
    simp [hnode, Node.isGap, Condition.isGap] at hgap
  · rfl

end

/-- The attempt of a matcher that has come to an index: it began before, holds all occurrences since
then, and is one that the reference has followed to the same node. -/
structure Underway (p : Pattern) (stream : List Occurrence) (m : Matcher)
    (start index current entered : Nat) : Prop where
  current_eq : m.current = some current
  start_le : start ≤ index
  pending_eq : m.pending = stretch stream start index
  extents_eq : p.extents stream start =
    p.resume stream start (p.attempt stream (some current) entered)

/-- A matcher that has come to an index of a stream is to find what the reference finds from the
start of its attempt on. -/
inductive Awaits (p : Pattern) (stream : List Occurrence) (m : Matcher) : Nat → Nat → Prop
  | atRoot {index : Nat} : m.current = none → Awaits p stream m index index
  | atNode {start index current : Nat} : Underway p stream m start index current index →
      (p.node? current).any Node.isGap = false → Awaits p stream m index start
  | atLast {start index current position : Nat} {budget : Int} {children : List Nat} :
      Underway p stream m start index current index →
      p.node? current = some ⟨.gap budget, none, children, position⟩ →
      Awaits p stream m index start
  | inGap {start entered k current follower position : Nat} {budget : Int}
      {children : List Nat} : Underway p stream m start (entered + k) current entered →
      p.node? current = some ⟨.gap budget, some follower, children, position⟩ →
      m.remaining current budget = budget - k → k ≤ budget.toNat →
      p.PassedOver stream follower entered k → Awaits p stream m (entered + k) start

def Answers (p : Pattern) (stream : List Occurrence) (index before : Nat) :
    Bool × Matcher → Prop
  | (false, m) => ∃ start, p.extents stream before = p.extents stream start ∧
      Awaits p stream m index start
  | (true, m) => m.current = none ∧ ∃ start ≤ index, m.found = stretch stream start index ∧
      p.extents stream before = (start, index) :: p.extents stream index

section
variable {p : Pattern} {stream : List Occurrence} {m : Matcher} {index start : Nat}
  {o : Occurrence}

theorem Answers.of_eq {before : Nat} {answer : Bool × Matcher}
    (h : Answers p stream index before answer)
    (heq : p.extents stream start = p.extents stream before) :
    Answers p stream index start answer := by
  obtain ⟨matched, m⟩ := answer
  cases matched with
  | false => simpa only [Answers, heq] using h
  | true => simpa only [Answers, heq] using h

theorem Answers.awaits {before : Nat} {answer : Bool × Matcher}
    (h : Answers p stream index before answer) :
    ∃ start, Awaits p stream answer.2 index start := by
  obtain ⟨matched, m⟩ := answer
  cases matched with
  | false =>
    obtain ⟨start, -, hawaits⟩ := h
    exact ⟨start, hawaits⟩
  | true => exact ⟨index, .atRoot h.1⟩

theorem answers_moveTo (hstart : start ≤ index) (hpending : m.pending = stretch stream start index)
    {next : Option Nat}
    (hextents : p.extents stream start = p.resume stream start (p.attempt stream next index)) :
    Answers p stream index start (moveTo p m next) := by
  cases next with
  | none =>
    rw [moveTo_none]
    rw [attempt] at hextents
    exact ⟨rfl, start, hstart, hpending, hextents⟩
  | some current =>
    cases hgap : (p.node? current).any Node.isGap with
    | false =>
      rw [moveTo_node hgap]
      exact ⟨start, rfl, .atNode ⟨rfl, hstart, hpending, hextents⟩ hgap⟩
    | true =>
      obtain ⟨⟨condition, next, children, position⟩, hnode, his⟩ :=
        (Option.any_eq_true _ _).mp hgap
      cases condition <;> simp only [Node.isGap, Condition.isGap, Bool.false_eq_true] at his
      rw [moveTo_gap hnode]
      cases next with
      | none => exact ⟨start, rfl, .atLast ⟨rfl, hstart, hpending, hextents⟩ hnode⟩
      | some follower =>
        have hleft := remaining_setBudget { m with current := some current } current
        exact ⟨start, rfl, .inGap (k := 0) ⟨rfl, hstart, hpending, hextents⟩ hnode
          (by simp [hleft]) (Nat.zero_le _) (by simp [PassedOver])⟩

theorem answers_begin (hp : p.WellFormed) (hroot : m.current = none)
    (ho : stream[index]? = some o) :
    Answers p stream (index + 1) index (begin p m o) := by
  unfold begin
  rw [advance?_eq hp]
  cases haccept : p.accept? o root with
  | none => exact ⟨index + 1, extents_reject ho haccept, .atRoot hroot⟩
  | some next =>
    exact answers_moveTo (Nat.le_succ index) (stretch_one ho).symm (extents_accept ho haccept)

theorem answers_push {current : Nat} (hunderway : Underway p stream m start index current index)
    (ho : stream[index]? = some o) {next : Option Nat}
    (hattempt : p.attempt stream (some current) index = p.attempt stream next (index + 1)) :
    Answers p stream (index + 1) start (moveTo p (m.push o) next) := by
  apply answers_moveTo (Nat.le_succ_of_le hunderway.start_le)
  · rw [stretch_snoc hunderway.start_le ho, push, hunderway.pending_eq]
  · rw [hunderway.extents_eq, hattempt]

theorem Awaits.step (hp : p.WellFormed) (h : Awaits p stream m index start)
    (ho : stream[index]? = some o) :
    Answers p stream (index + 1) start (step p m o) := by
  cases h with
  | atRoot hroot =>
    rw [step_root hroot]
    exact answers_begin hp hroot ho
  | @atNode start index current hunderway hgap =>
    have hattempt := attempt_node ho hgap
    rw [step_node hunderway.current_eq hgap, advance?_eq hp]
    cases haccept : p.accept? o current with
    | some next =>
      rw [haccept] at hattempt
      exact answers_push hunderway ho hattempt
    | none =>
      rw [haccept] at hattempt
      -- An attempt that fails at this index is one that begins again at it.
      apply (answers_begin hp rfl ho).of_eq
      rw [hunderway.extents_eq, hattempt, resume]
  | atLast hunderway hnode =>
    rw [step_gap hunderway.current_eq hnode, stepInGap]
    apply answers_push hunderway ho
    rw [attempt_last ho hnode, attempt]
  | @inGap start entered k current follower _ budget _ hunderway hnode hleft hk hpassed =>
    rw [step_gap hunderway.current_eq hnode, stepInGap]
    dsimp only
    rw [advance?_eq hp]
    cases haccept : p.accept? o follower with
    | some next =>
      refine answers_moveTo (Nat.le_succ_of_le hunderway.start_le) ?_ ?_
      · rw [stretch_snoc hunderway.start_le ho, push, hunderway.pending_eq]
      · rw [hunderway.extents_eq, attempt_gap_accept hnode hpassed hk ho haccept]
    | none =>
      have hpassed' : p.PassedOver stream follower entered (k + 1) := hpassed.succ ho haccept
      dsimp only
      split
      -- Budget is left: one occurrence more is passed over, and the attempt goes on as it is.
      · rename_i hbudget
        rw [hleft] at hbudget
        refine ⟨start, rfl, .inGap (k := k + 1) ⟨hunderway.current_eq, ?_, ?_, ?_⟩ hnode ?_ ?_
          hpassed'⟩
        · exact Nat.le_succ_of_le hunderway.start_le
        · rw [← Nat.add_assoc, stretch_snoc hunderway.start_le ho, pending_setBudget, push,
            hunderway.pending_eq]
        · exact hunderway.extents_eq
        · rw [remaining_setBudget, hleft]
          omega
        · omega
      -- The budget is spent: the reference fails here too, and tries this occurrence at the root.
      · rename_i hbudget
        rw [hleft] at hbudget
        have hspent : k = budget.toNat := by omega
        subst hspent
        obtain ⟨hlt, -⟩ := List.getElem?_eq_some_iff.mp ho
        apply (answers_begin hp rfl ho).of_eq
        rw [hunderway.extents_eq, attempt_gap_fail hnode hpassed', if_pos hlt, resume]

theorem Awaits.extents_end (h : Awaits p stream m index start) (hend : stream.length ≤ index) :
    p.extents stream start = [] := by
  cases h with
  | atRoot _ => exact Pattern.extents_end hend
  | atNode hunderway _ => rw [hunderway.extents_eq, attempt_end hend, resume]
  | atLast hunderway _ => rw [hunderway.extents_eq, attempt_end hend, resume]
  | inGap hunderway hnode _ hk hpassed =>
    rw [hunderway.extents_eq, attempt_gap_end hnode hpassed hk hend, resume]

def hitAt (stream : List Occurrence) (name : Option String) (source : Option Source)
    (extent : Nat × Nat) : Hit :=
  ⟨stretch stream extent.1 extent.2, extent.1, extent.2, name, source⟩

theorem hit_eq {name : Option String} {source : Option Source} {stop : Nat} (hstart : start ≤ stop)
    (hstop : stop ≤ stream.length) (hfound : m.found = stretch stream start stop) :
    m.hit stop name source = hitAt stream name source (start, stop) := by
  have hlength : (stretch stream start stop).length = stop - start := length_stretch hstop
  rw [hit, hitAt, hfound, hlength]
  congr
  omega

theorem Awaits.scanFrom (hp : p.WellFormed) (name : Option String) (source : Option Source)
    {rest : List Occurrence} (h : Awaits p stream m index start)
    (hrest : stream.drop index = rest) :
    (scanFrom p name source none index m rest).1 =
      (p.extents stream start).map (hitAt stream name source) := by
  induction rest generalizing m index start with
  | nil =>
    rw [h.extents_end (List.drop_eq_nil_iff.mp hrest)]
    rfl
  | cons o rest ih =>
    have ho : stream[index]? = some o := by rw [← List.head?_drop, hrest, List.head?_cons]
    have hrest' : stream.drop (index + 1) = rest := by rw [← List.tail_drop, hrest, List.tail_cons]
    obtain ⟨hlt, -⟩ := List.getElem?_eq_some_iff.mp ho
    have hanswers := h.step hp ho
    rw [Matcher.scanFrom]
    cases hstep : Matcher.step p m o with
    | mk matched m =>
      rw [hstep] at hanswers
      cases matched with
      | false =>
        obtain ⟨start', heq, h'⟩ := hanswers
        rw [heq]
        exact ih h' hrest'
      | true =>
        obtain ⟨hroot, start', hle, hfound, heq⟩ := hanswers
        rw [heq, List.map_cons, ← ih (.atRoot hroot) hrest', ← hit_eq hle hlt hfound]
        rfl

end

/-- Streaming equals batch: from whatever state it is called in, a scan yields the extents of the
reference, with the occurrences between their ends. -/
theorem scan_extents {lexicon : Option Lexicon} {text : String} (h : compile lexicon text = .ok p)
    (m : Matcher) (stream : List Occurrence) (name : Option String) (source : Option Source) :
    (m.scan p stream name source none).1 =
      (p.extents stream 0).map (hitAt stream name source) :=
  Awaits.scanFrom (wellFormed_of_compile h) name source (.atRoot rfl) List.drop_zero

/-- A gap that has spent its budget hands the occurrence at hand back to the root. -/
theorem extents_spent_gap :
    ∃ p stream, compile none "a **1 b" = .ok p ∧
      stream = Occurrence.ofSymbols (fun _ => .null) "a x a b" ∧
      ((p.extents stream 0).map (hitAt stream none none)).map (fun hit => (hit.start, hit.stop)) =
        [(2, 4)] := by
  have hcompile : compile none "a **1 b" = .ok (ofChain
      [.term (.form "a" .plain) 0, .term (.gap 1) 2, .term (.form "b" .plain) 6] "a **1 b") := by
    cbv
  refine ⟨_, _, hcompile, rfl, ?_⟩
  rw [← scan_extents hcompile fresh]
  cbv

end Concordance.Matcher
