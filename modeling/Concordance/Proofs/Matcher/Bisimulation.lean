import Concordance.Proofs.Matcher.Streaming

/-! Patterns that cannot be told apart. A relation between the nodes of two patterns is a bisimulation
over a stream if related nodes take the same occurrences and go on to related nodes, and if gaps are
related to gaps of the same budget. Main statement: with the roots related, the reference finds the
same extents, and so do matchers. -/

namespace Concordance

section Rel
variable {α β γ δ ε : Type} {R : α → β → Prop} {S : γ → δ → Prop}

theorem rel_mono {R' : α → β → Prop} {x : Option α} {y : Option β} (h : Option.Rel R x y)
    (himp : ∀ a b, R a b → R' a b) : Option.Rel R' x y := by
  cases h with
  | none => exact .none
  | some hrelated => exact .some (himp _ _ hrelated)

theorem rel_of_map_eq {f : β → ε} {g : δ → ε} {x : Option α} {y : Option β} {z : Option γ}
    {w : Option δ} (h : Option.Rel R x y) (h' : Option.Rel S z w) (heq : y.map f = w.map g) :
    Option.Rel (fun a c => ∃ b d, R a b ∧ S c d ∧ f b = g d) x z := by
  cases h with
  | none =>
    cases h' with
    | none => exact .none
    | some => cases heq
  | some hrelated =>
    cases h' with
    | none => cases heq
    | some hrelated' => exact .some ⟨_, _, hrelated, hrelated', Option.some.inj heq⟩

theorem rel_findSome? {f : γ → Option α} {g : γ → Option β} {xs : List γ}
    (h : ∀ x ∈ xs, Option.Rel R (f x) (g x)) :
    Option.Rel R (xs.findSome? f) (xs.findSome? g) := by
  induction xs with
  | nil => exact .none
  | cons x rest ih =>
    obtain ⟨hhead, hrest⟩ := List.forall_mem_cons.mp h
    rw [List.findSome?_cons, List.findSome?_cons]
    generalize f x = first at hhead
    generalize g x = second at hhead
    cases hhead with
    | some hrelated => exact .some hrelated
    | none => exact ih hrest

end Rel

namespace Pattern

def gapAt? (p : Pattern) (index : Nat) : Option (Int × Option Nat) :=
  match p.node? index with
  | some ⟨.gap budget, next, _, _⟩ => some (budget, next)
  | _ => none

section Gap
variable {p : Pattern} {index : Nat} {budget : Int} {next : Option Nat}

theorem gapAt?_eq_some (h : p.gapAt? index = some (budget, next)) :
    ∃ children position, p.node? index = some ⟨.gap budget, next, children, position⟩ := by
  unfold gapAt? at h
  split at h
  · cases h
    exact ⟨_, _, by assumption⟩
  · cases h

theorem gapAt?_eq_none (h : p.gapAt? index = none) : (p.node? index).any Node.isGap = false := by
  unfold gapAt? at h
  cases hnode : p.node? index with
  | none => rfl
  | some node =>
    obtain ⟨condition, next, children, position⟩ := node
    rw [hnode] at h
    cases condition with
    | gap budget => cases h
    | _ => rfl

variable {stream : List Occurrence} {start follower : Nat}

theorem attempt_gap_some {k : Nat} {behind : Option Nat} (hstart : start < stream.length)
    (h : p.gapAt? index = some (budget, some follower))
    (hfirst : p.firstAccepted? stream follower start budget.toNat = some (k, behind)) :
    p.attempt stream (some index) start = p.attempt stream behind (start + k + 1) := by
  obtain ⟨children, position, hnode⟩ := gapAt?_eq_some h
  rw [attempt, dif_pos hstart, hnode]
  simp only [hfirst]

theorem attempt_gap_none (hstart : start < stream.length)
    (h : p.gapAt? index = some (budget, some follower))
    (hfirst : p.firstAccepted? stream follower start budget.toNat = none) :
    p.attempt stream (some index) start =
      if start + budget.toNat < stream.length then .failed (start + budget.toNat)
      else .incomplete := by
  obtain ⟨children, position, hnode⟩ := gapAt?_eq_some h
  rw [attempt, dif_pos hstart, hnode]
  simp only [hfirst]

end Gap

/-- Related nodes cannot be told apart by the occurrences of a stream. -/
structure Bisimulation (p q : Pattern) (stream : List Occurrence)
    (R : Option Nat → Option Nat → Prop) : Prop where
  ends {i j : Option Nat} : R i j → (i = none ↔ j = none)
  accept {i j : Nat} : R (some i) (some j) → ∀ o ∈ stream,
    Option.Rel R (p.accept? o i) (q.accept? o j)
  gap {i j : Nat} : R (some i) (some j) →
    Option.Rel (fun first second => first.1 = second.1 ∧ R first.2 second.2)
      (p.gapAt? i) (q.gapAt? j)

section
variable {p q : Pattern} {stream : List Occurrence} {R : Option Nat → Option Nat → Prop}

theorem Bisimulation.firstAccepted? (h : Bisimulation p q stream R) {i j : Nat}
    (hrelated : R (some i) (some j)) (index budget : Nat) :
    Option.Rel (fun first second => first.1 = second.1 ∧ R first.2 second.2)
      (p.firstAccepted? stream i index budget) (q.firstAccepted? stream j index budget) := by
  apply rel_findSome?
  intro k _
  cases ho : stream[index + k]? with
  | none => exact .none
  | some o =>
    have haccept := h.accept hrelated o (List.mem_of_getElem? ho)
    dsimp only [Option.bind_some]
    generalize p.accept? o i = first at haccept
    generalize q.accept? o j = second at haccept
    cases haccept with
    | none => exact .none
    | some hnext => exact .some ⟨rfl, hnext⟩

theorem Bisimulation.attempt_gap (h : Bisimulation p q stream R) {i j : Nat} {budget : Int}
    {next next' : Option Nat} {index : Nat} (hlt : index < stream.length)
    (hfirst : p.gapAt? i = some (budget, next)) (hsecond : q.gapAt? j = some (budget, next'))
    (hnext : R next next') (hlater : ∀ (i j : Option Nat) (later : Nat), index < later → R i j →
      p.attempt stream i later = q.attempt stream j later) :
    p.attempt stream (some i) index = q.attempt stream (some j) index := by
  match next, next' with
  | none, some j => cases (h.ends hnext).mp rfl
  | some i, none => cases (h.ends hnext).mpr rfl
  | none, none =>
    have ho := List.getElem?_eq_getElem hlt
    obtain ⟨_, _, hnode⟩ := gapAt?_eq_some hfirst
    obtain ⟨_, _, hnode'⟩ := gapAt?_eq_some hsecond
    rw [attempt_last ho hnode, attempt_last ho hnode']
  | some follower, some follower' =>
    have haccepted := h.firstAccepted? hnext index budget.toNat
    generalize hleft : p.firstAccepted? stream follower index budget.toNat = left at haccepted
    generalize hright : q.firstAccepted? stream follower' index budget.toNat = right at haccepted
    cases haccepted with
    | none => rw [attempt_gap_none hlt hfirst hleft, attempt_gap_none hlt hsecond hright]
    | @some left right hrelated =>
      obtain ⟨k, behind⟩ := left
      obtain ⟨_, behind'⟩ := right
      obtain ⟨rfl, hbehind⟩ := hrelated
      rw [attempt_gap_some hlt hfirst hleft, attempt_gap_some hlt hsecond hright]
      exact hlater behind behind' _ (by omega) hbehind

theorem Bisimulation.attempt_term (h : Bisimulation p q stream R) {i j : Nat} {index : Nat}
    (hlt : index < stream.length) (hrelated : R (some i) (some j)) (hfirst : p.gapAt? i = none)
    (hsecond : q.gapAt? j = none) (hlater : ∀ (i j : Option Nat) (later : Nat), index < later →
      R i j → p.attempt stream i later = q.attempt stream j later) :
    p.attempt stream (some i) index = q.attempt stream (some j) index := by
  have ho := List.getElem?_eq_getElem hlt
  have haccept := h.accept hrelated _ (List.getElem_mem hlt)
  rw [attempt_node ho (gapAt?_eq_none hfirst), attempt_node ho (gapAt?_eq_none hsecond)]
  generalize p.accept? stream[index] i = left at haccept
  generalize q.accept? stream[index] j = right at haccept
  cases haccept with
  | none => rfl
  | some hnext => exact hlater _ _ _ (Nat.lt_succ_self index) hnext

theorem Bisimulation.attempt (h : Bisimulation p q stream R) {i j : Option Nat} (hrelated : R i j)
    (index : Nat) : p.attempt stream i index = q.attempt stream j index := by
  match i, j with
  | none, none => rw [Pattern.attempt, Pattern.attempt]
  | none, some j => cases (h.ends hrelated).mp rfl
  | some i, none => cases (h.ends hrelated).mpr rfl
  | some i, some j =>
    by_cases hlt : index < stream.length
    · have hlater (i j : Option Nat) (later : Nat) (hle : index < later) (hrelated : R i j) :=
        h.attempt hrelated later
      have hgap := h.gap hrelated
      generalize hfirst : p.gapAt? i = first at hgap
      generalize hsecond : q.gapAt? j = second at hgap
      cases hgap with
      | none => exact h.attempt_term hlt hrelated hfirst hsecond hlater
      | @some first second hsame =>
        obtain ⟨budget, next⟩ := first
        obtain ⟨_, next'⟩ := second
        obtain ⟨rfl, hnext⟩ := hsame
        exact h.attempt_gap hlt hfirst hsecond hnext hlater
    · rw [attempt_end (Nat.le_of_not_lt hlt), attempt_end (Nat.le_of_not_lt hlt)]
termination_by stream.length - index

theorem Bisimulation.extents (h : Bisimulation p q stream R) (hroot : R (some root) (some root))
    (index : Nat) : p.extents stream index = q.extents stream index := by
  have hstep {i : Nat} (hi : i < stream.length) {first : Option (Option Nat)}
      (hfirst : p.accept? stream[i] root = first) :
      ∃ second, q.accept? stream[i] root = second ∧ Option.Rel R first second :=
    ⟨_, rfl, hfirst ▸ h.accept hroot _ (List.getElem_mem hi)⟩
  fun_induction Pattern.extents p stream index with
  | case1 index hlt hreject ih =>
    obtain ⟨second, hsecond, hrelated⟩ := hstep hlt hreject
    cases hrelated
    rw [ih, extents_reject (List.getElem?_eq_getElem hlt) hsecond]
  | case2 index hlt next haccept stop hmatched ih =>
    obtain ⟨second, hsecond, hrelated⟩ := hstep hlt haccept
    obtain ⟨hnext⟩ := hrelated
    rw [ih, extents_accept (List.getElem?_eq_getElem hlt) hsecond, ← h.attempt hnext, hmatched]
    rfl
  | case3 index hlt next haccept restart hfailed ih =>
    obtain ⟨second, hsecond, hrelated⟩ := hstep hlt haccept
    obtain ⟨hnext⟩ := hrelated
    rw [ih, extents_accept (List.getElem?_eq_getElem hlt) hsecond, ← h.attempt hnext, hfailed]
    rfl
  | case4 index hlt next haccept hincomplete =>
    obtain ⟨second, hsecond, hrelated⟩ := hstep hlt haccept
    obtain ⟨hnext⟩ := hrelated
    rw [extents_accept (List.getElem?_eq_getElem hlt) hsecond, ← h.attempt hnext, hincomplete]
    rfl
  | case5 index hend => rw [extents_end (Nat.le_of_not_lt hend)]

end

end Pattern

open Pattern in
/-- Over a stream that does not tell two patterns apart, matchers find the same hits. -/
theorem Matcher.scan_eq_of_bisimulation {p q : Pattern} {stream : List Occurrence}
    {R : Option Nat → Option Nat → Prop} (hp : p.WellFormed) (hq : q.WellFormed)
    (h : Bisimulation p q stream R) (hroot : R (some root) (some root)) (m m' : Matcher)
    (name : Option String) (source : Option Source) :
    (m.scan p stream name source none).1 = (m'.scan q stream name source none).1 :=
  calc (m.scan p stream name source none).1
      = (p.extents stream 0).map (hitAt stream name source) :=
        Awaits.scanFrom hp name source (.atRoot rfl) List.drop_zero
    _ = (q.extents stream 0).map (hitAt stream name source) := by rw [h.extents hroot]
    _ = (m'.scan q stream name source none).1 :=
        (Awaits.scanFrom hq name source (.atRoot rfl) List.drop_zero).symm

end Concordance
