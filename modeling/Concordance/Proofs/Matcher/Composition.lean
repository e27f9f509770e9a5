import Concordance.Matcher.Scan
import Concordance.Proofs.Matcher.Soundness

/-! A scan that ends at the root leaves nothing behind for what comes next. A matcher at the root
holds no occurrences and no budgets, whichever way it came there, and the last match that it found
is read by no step. Main statement: where a scan ends at the root, the hits of a stream that goes on
behind it are its own and those of the rest, and no scan depends on what came before it. -/

namespace Concordance

def Hit.shift (n : Nat) (hit : Hit) : Hit :=
  { hit with start := hit.start + n, stop := hit.stop + n }

namespace Matcher

/-- At the root, nothing is left of the attempts so far. -/
def Settled (m : Matcher) : Prop := m.current = none → m.pending = [] ∧ m.budgets = []

def withFound (m : Matcher) (row : List Occurrence) : Matcher := { m with found := row }

def answerWith (row : List Occurrence) : Bool × Matcher → Bool × Matcher
  | (true, m) => (true, m)
  | (false, m) => (false, m.withFound row)

section
variable {p : Pattern} {m : Matcher} {o : Occurrence}

theorem settled_reset (m : Matcher) : m.reset.Settled := fun _ => ⟨rfl, rfl⟩

theorem Settled.reset_eq (h : m.Settled) (hroot : m.current = none) : m.reset = m := by
  obtain ⟨hpending, hbudgets⟩ := h hroot
  rw [reset, ← hroot, ← hpending, ← hbudgets]

theorem settled_of_current {index : Nat} (h : m.current = some index) : m.Settled := by
  intro hroot
  rw [h] at hroot
  cases hroot

theorem settled_moveTo (p : Pattern) (m : Matcher) (next : Option Nat) :
    (moveTo p m next).2.Settled := by
  cases next with
  | none => exact fun _ => ⟨rfl, rfl⟩
  | some index =>
    have hcurrent : (moveTo p m (some index)).2.current = some index := by
      unfold moveTo
      dsimp only
      split <;> rfl
    exact settled_of_current hcurrent

theorem Settled.begin (h : m.Settled) : (begin p m o).2.Settled := by
  unfold Matcher.begin
  split
  · exact h
  · exact settled_moveTo _ _ _

theorem settled_stepInGap {gap : Nat} {budget : Int} {next : Option Nat}
    (h : m.current = some gap) : (stepInGap p m gap budget next o).2.Settled := by
  unfold stepInGap
  split
  · exact settled_moveTo _ _ _
  split
  · exact settled_moveTo _ _ _
  dsimp only
  split
  · exact settled_of_current h
  · exact (settled_reset m).begin

theorem Settled.step (h : m.Settled) : (step p m o).2.Settled := by
  unfold Matcher.step
  split
  · exact h.begin
  split
  · exact settled_stepInGap (by assumption)
  split
  · exact settled_moveTo _ _ _
  · exact (settled_reset m).begin

theorem moveTo_withFound (p : Pattern) (m : Matcher) (row : List Occurrence) (next : Option Nat) :
    moveTo p (m.withFound row) next = answerWith row (moveTo p m next) := by
  cases next with
  | none => rfl
  | some index =>
    unfold moveTo
    dsimp only
    split <;> rfl

theorem begin_withFound (p : Pattern) (m : Matcher) (row : List Occurrence) (o : Occurrence) :
    begin p (m.withFound row) o = answerWith row (begin p m o) := by
  unfold begin
  split
  · rfl
  · exact moveTo_withFound p { m with pending := [o] } row _

theorem stepInGap_withFound (p : Pattern) (m : Matcher) (row : List Occurrence) (gap : Nat)
    (budget : Int) (next : Option Nat) (o : Occurrence) :
    stepInGap p (m.withFound row) gap budget next o =
      answerWith row (stepInGap p m gap budget next o) := by
  unfold stepInGap
  split
  · exact moveTo_withFound p (m.push o) row none
  split
  · exact moveTo_withFound p (m.push o) row _
  have hleft : (m.withFound row).remaining gap budget = m.remaining gap budget := rfl
  dsimp only
  rw [hleft]
  split
  · rfl
  · exact begin_withFound p m.reset row o

theorem step_withFound (p : Pattern) (m : Matcher) (row : List Occurrence) (o : Occurrence) :
    step p (m.withFound row) o = answerWith row (step p m o) := by
  have hcurrent : (m.withFound row).current = m.current := rfl
  unfold step
  rw [hcurrent]
  split
  · exact begin_withFound p m row o
  split
  · exact stepInGap_withFound p m row _ _ _ o
  split
  · exact moveTo_withFound p (m.push o) row _
  · exact begin_withFound p m.reset row o

end

section
variable (p : Pattern) (name : Option String) (source : Option Source)

theorem scanFrom_withFound (limit : Option Nat) (index : Nat) (m : Matcher)
    (row stream : List Occurrence) : ∃ last,
      scanFrom p name source limit index (m.withFound row) stream =
        ((scanFrom p name source limit index m stream).1,
          (scanFrom p name source limit index m stream).2.withFound last) := by
  induction stream generalizing limit index m row with
  | nil => exact ⟨row, rfl⟩
  | cons o rest ih =>
    rw [scanFrom, scanFrom, step_withFound]
    cases hstep : step p m o with
    | mk matched m =>
      cases matched with
      | false => exact ih limit (index + 1) m row
      | true => exact ⟨_, rfl⟩

theorem scanFrom_append (index : Nat) (m : Matcher) (first second : List Occurrence) :
    scanFrom p name source none index m (first ++ second) =
      ((scanFrom p name source none index m first).1 ++
          (scanFrom p name source none (index + first.length)
            (scanFrom p name source none index m first).2 second).1,
        (scanFrom p name source none (index + first.length)
            (scanFrom p name source none index m first).2 second).2) := by
  induction first generalizing index m with
  | nil => rfl
  | cons o rest ih =>
    have hindex : index + (o :: rest).length = index + 1 + rest.length := by
      rw [List.length_cons, Nat.add_assoc, Nat.add_comm 1]
    rw [hindex, List.cons_append, scanFrom, scanFrom]
    cases hstep : step p m o with
    | mk matched m =>
      cases matched with
      | false => exact ih (index + 1) m
      | true =>
        dsimp only [Option.any_none, Option.map_none]
        rw [if_neg Bool.false_ne_true, if_neg Bool.false_ne_true, ih]
        rfl

theorem hit_shift (m : Matcher) (stop n : Nat) :
    m.hit (stop + n) name source = (m.hit stop name source).shift n := by
  have hstart : ((stop + n : Nat) : Int) - m.found.length = (stop : Int) - m.found.length + n := by
    omega
  rw [hit, hstart]
  rfl

theorem scanFrom_shift (limit : Option Nat) (index n : Nat) (m : Matcher)
    (stream : List Occurrence) :
    (scanFrom p name source limit (index + n) m stream).1 =
      (scanFrom p name source limit index m stream).1.map (Hit.shift n) := by
  induction stream generalizing limit index m with
  | nil => rfl
  | cons o rest ih =>
    have hindex : index + n + 1 = index + 1 + n := by omega
    rw [scanFrom, scanFrom, hindex]
    cases hstep : step p m o with
    | mk matched m =>
      cases matched with
      | false => exact ih limit (index + 1) m
      | true =>
        dsimp only
        rw [hit_shift]
        split
        · rfl
        · rw [List.map_cons, ← ih]

theorem Settled.scanFrom {m : Matcher} (h : m.Settled) (limit : Option Nat) (index : Nat)
    (stream : List Occurrence) : (scanFrom p name source limit index m stream).2.Settled := by
  induction stream generalizing limit index m with
  | nil => exact h
  | cons o rest ih =>
    have hstepped : (Matcher.step p m o).2.Settled := h.step
    rw [Matcher.scanFrom]
    cases hstep : Matcher.step p m o with
    | mk matched m =>
      rw [hstep] at hstepped
      cases matched with
      | false => exact ih hstepped limit (index + 1)
      | true =>
        dsimp only
        split
        · exact hstepped
        · exact ih hstepped _ _

theorem scan_eq_fresh (m : Matcher) (stream : List Occurrence) (limit : Option Nat) : ∃ last,
    m.scan p stream name source limit = ((fresh.scan p stream name source limit).1,
      (fresh.scan p stream name source limit).2.withFound last) :=
  scanFrom_withFound p name source limit 0 fresh.reset m.found stream

end

/-- Scans compose at the root and forget what was before them. Where a scan of one stream ends at
the root, a scan of that stream with another behind it has the hits of the first and then those of
the second, moved behind the first. And from any state a matcher scans as if it had seen nothing:
it has the same hits, waits at the same node and holds the same occurrences. -/
theorem scan_composes (p : Pattern) (m : Matcher) (name : Option String)
    (source : Option Source) :
    (∀ first second, (m.scan p first name source none).2.atRoot = true →
      (m.scan p (first ++ second) name source none).1 =
        (m.scan p first name source none).1 ++
          (m.scan p second name source none).1.map (Hit.shift first.length)) ∧
    ∀ stream limit,
      (m.scan p stream name source limit).1 = (fresh.scan p stream name source limit).1 ∧
      (m.scan p stream name source limit).2.current =
        (fresh.scan p stream name source limit).2.current ∧
      (m.scan p stream name source limit).2.pending =
        (fresh.scan p stream name source limit).2.pending := by
  constructor
  · intro first second hroot
    -- What comes behind the first stream is scanned by a matcher that a reset does not change.
    let last := (m.scan p first name source none).2
    have hlast : last.reset = last :=
      ((settled_reset m).scanFrom p name source none 0 first).reset_eq
        (Option.isNone_iff_eq_none.mp hroot)
    obtain ⟨_, hsame⟩ := scan_eq_fresh p name source last second none
    obtain ⟨_, hfresh⟩ := scan_eq_fresh p name source m second none
    calc (m.scan p (first ++ second) name source none).1
      _ = (m.scan p first name source none).1 ++
            (scanFrom p name source none (0 + first.length) last second).1 := by
          rw [scan, scanFrom_append]
          rfl
      _ = (m.scan p first name source none).1 ++
            (last.scan p second name source none).1.map (Hit.shift first.length) := by
          rw [scanFrom_shift, scan, scan, hlast]
      _ = (m.scan p first name source none).1 ++
            (m.scan p second name source none).1.map (Hit.shift first.length) := by
          rw [hsame, hfresh]
  · intro stream limit
    obtain ⟨_, hscan⟩ := scan_eq_fresh p name source m stream limit
    rw [hscan]
    exact ⟨rfl, rfl, rfl⟩

theorem composes_behind_spent_gap : ∃ (p : Pattern) (m : Matcher) (first second : List Occurrence),
    Pattern.compile none "a **1 b" = .ok p ∧ Reachable p m ∧ m.atRoot = false ∧
      first = Occurrence.ofSymbols (fun _ => .null) "a x b a x x" ∧
      second = Occurrence.ofSymbols (fun _ => .null) "a x b" ∧
      (m.scan p first none none none).2.atRoot = true ∧
      (m.scan p (first ++ second) none none none).1 =
        (m.scan p first none none none).1 ++
          (m.scan p second none none none).1.map (Hit.shift first.length) ∧
      (m.scan p (first ++ second) none none none).1.map (fun hit => (hit.start, hit.stop)) =
        [(0, 3), (6, 9)] := by
  have hcompile : Pattern.compile none "a **1 b" = .ok (Pattern.ofChain
      [.term (.form "a" .plain) 0, .term (.gap 1) 2, .term (.form "b" .plain) 6] "a **1 b") := by
    cbv
  refine ⟨_, _, _, _, hcompile, .scan [.untagged "a" 0, .untagged "x" 2] none none none .fresh,
    ?_, rfl, rfl, ?_, ?_, ?_⟩
  · cbv
  · cbv
  · exact (scan_composes _ _ none none).1 _ _ (by cbv)
  · cbv

end Matcher
end Concordance
