import Concordance.Matcher.Scan
import Concordance.Proofs.Matcher.Acceptance

/-! A matcher takes occurrences one at a time, and finds what a reference finds that has the whole
stream before it. The reference keeps no occurrences and counts no budgets down: it looks ahead from
a gap, and says where it stopped. Main statement: both give the same extents. -/

namespace Concordance

def stretch {α : Type} (stream : List α) (start stop : Nat) : List α :=
  (stream.drop start).take (stop - start)

section Stretch
variable {α : Type} {stream : List α} {start stop index : Nat} {o : α}

@[simp] theorem stretch_self (stream : List α) (index : Nat) :
    stretch stream index index = [] := by
  simp [stretch]

theorem length_stretch (h : stop ≤ stream.length) :
    (stretch stream start stop).length = stop - start := by
  simp only [stretch, List.length_take, List.length_drop]
  omega

theorem stretch_append (hstart : start ≤ index) (hstop : index ≤ stop) :
    stretch stream start index ++ stretch stream index stop = stretch stream start stop := by
  have hsize : stop - start = index - start + (stop - index) := by omega
  have hindex : start + (index - start) = index := by omega
  rw [stretch, stretch, stretch, hsize, List.take_add, List.drop_drop, hindex]

theorem stretch_one (ho : stream[index]? = some o) : stretch stream index (index + 1) = [o] := by
  obtain ⟨hlt, rfl⟩ := List.getElem?_eq_some_iff.mp ho
  rw [stretch, List.drop_eq_getElem_cons hlt, Nat.add_sub_cancel_left, List.take_succ_cons,
    List.take_zero]

theorem stretch_snoc (hstart : start ≤ index) (ho : stream[index]? = some o) :
    stretch stream start (index + 1) = stretch stream start index ++ [o] := by
  rw [← stretch_append hstart (Nat.le_succ index), stretch_one ho]

theorem stretch_cons (hstop : index + 1 ≤ stop) (ho : stream[index]? = some o) :
    stretch stream index stop = o :: stretch stream (index + 1) stop := by
  rw [← stretch_append (Nat.le_succ index) hstop, stretch_one ho, List.singleton_append]

end Stretch

namespace Pattern

inductive Attempt
  | matched (stop : Nat)
  /-- With a failure, after which the stream is tried again from an index on. -/
  | failed (restart : Nat)
  | incomplete

/-- The least number of occurrences, from an index on and within a budget, that have to be passed
over before a node accepts one, and the node that comes next. -/
def firstAccepted? (p : Pattern) (stream : List Occurrence) (follower index budget : Nat) :
    Option (Nat × Option Nat) :=
  (List.range (budget + 1)).findSome? fun k =>
    stream[index + k]?.bind fun o => (p.accept? o follower).map fun next => (k, next)

/-- Follow an attempt that waits at a node for the occurrence at an index. -/
def attempt (p : Pattern) (stream : List Occurrence) : Option Nat → Nat → Attempt
  | none, index => .matched index
  | some current, index =>
    if _h : index < stream.length then
      match p.node? current with
      | some ⟨.gap _, none, _, _⟩ => .matched (index + 1)
      | some ⟨.gap budget, some follower, _, _⟩ =>
        match p.firstAccepted? stream follower index budget.toNat with
        | some (k, next) => attempt p stream next (index + k + 1)
        | none =>
          if index + budget.toNat < stream.length then .failed (index + budget.toNat)
          else .incomplete
      | _ =>
        match p.accept? stream[index] current with
        | some next => attempt p stream next (index + 1)
        | none => .failed index
    else .incomplete
termination_by _ index => stream.length - index

def Attempt.After (index : Nat) : Attempt → Prop
  | .matched stop => index ≤ stop
  | .failed restart => index ≤ restart
  | .incomplete => True

theorem Attempt.After.mono {first second : Nat} {ending : Attempt} (h : ending.After second)
    (hle : first ≤ second) : ending.After first := by
  cases ending with
  | matched stop => exact Nat.le_trans hle h
  | failed restart => exact Nat.le_trans hle h
  | incomplete => trivial

theorem attempt_after (p : Pattern) (stream : List Occurrence) (current : Option Nat)
    (index : Nat) : (p.attempt stream current index).After index := by
  fun_induction attempt p stream current index with
  | case1 index => exact Nat.le_refl index
  | case2 => exact Nat.le_succ _
  | case3 _ _ _ _ _ _ _ _ k _ _ ih => exact ih.mono (by omega)
  | case4 => exact Nat.le_add_right _ _
  | case5 => trivial
  | case6 _ _ _ _ _ _ _ ih => exact ih.mono (Nat.le_succ _)
  | case7 => exact Nat.le_refl _
  | case8 => trivial

theorem attempt_le {p : Pattern} {stream : List Occurrence} {current : Option Nat} {index stop : Nat}
    (h : p.attempt stream current index = .matched stop) :
    index ≤ stop := by
  have hafter := attempt_after p stream current index
  rwa [h] at hafter

/-- The extents of the matches in a stream from an index on. -/
def extents (p : Pattern) (stream : List Occurrence) (index : Nat) : List (Nat × Nat) :=
  if _h : index < stream.length then
    match p.accept? stream[index] root with
    | none => extents p stream (index + 1)
    | some next =>
      match _hending : p.attempt stream next (index + 1) with
      | .matched stop => (index, stop) :: extents p stream stop
      | .failed restart => extents p stream restart
      | .incomplete => []
  else []
termination_by stream.length - index
decreasing_by
  · omega
  · have hafter := attempt_after p stream next (index + 1)
    rw [_hending] at hafter
    simp only [Attempt.After] at hafter
    omega
  · have hafter := attempt_after p stream next (index + 1)
    rw [_hending] at hafter
    simp only [Attempt.After] at hafter
    omega

def resume (p : Pattern) (stream : List Occurrence) (start : Nat) : Attempt → List (Nat × Nat)
  | .matched stop => (start, stop) :: p.extents stream stop
  | .failed restart => p.extents stream restart
  | .incomplete => []

theorem findSome?_range {β : Type} {f : Nat → Option β} {n : Nat} {b : β}
    (h : (List.range n).findSome? f = some b) : ∃ k < n, f k = some b ∧ ∀ j < k, f j = none := by
  induction n with
  | zero => cases h
  | succ n ih =>
    rw [List.range_succ, List.findSome?_append] at h
    cases hbefore : (List.range n).findSome? f with
    | some b' =>
      rw [hbefore] at h
      obtain ⟨k, hk, hfirst⟩ := ih (hbefore.trans h)
      exact ⟨k, Nat.lt_succ_of_lt hk, hfirst⟩
    | none =>
      rw [hbefore, Option.none_or, List.findSome?_singleton] at h
      have hnone := List.findSome?_eq_none_iff.mp hbefore
      exact ⟨n, Nat.lt_succ_self n, h, fun j hj => hnone j (List.mem_range.mpr hj)⟩

section
variable {p : Pattern} {stream : List Occurrence} {index : Nat} {o : Occurrence}

theorem extents_end (h : stream.length ≤ index) : p.extents stream index = [] := by
  rw [extents, dif_neg (by omega)]

theorem extents_reject (ho : stream[index]? = some o) (hroot : p.accept? o root = none) :
    p.extents stream index = p.extents stream (index + 1) := by
  obtain ⟨hlt, rfl⟩ := List.getElem?_eq_some_iff.mp ho
  rw [extents, dif_pos hlt, hroot]

theorem extents_accept {next : Option Nat} (ho : stream[index]? = some o)
    (hroot : p.accept? o root = some next) :
    p.extents stream index = p.resume stream index (p.attempt stream next (index + 1)) := by
  obtain ⟨hlt, rfl⟩ := List.getElem?_eq_some_iff.mp ho
  rw [extents, dif_pos hlt, hroot]
  dsimp only
  split <;> rename_i hending <;> rw [hending] <;> rfl

theorem attempt_end (h : stream.length ≤ index) (current : Nat) :
    p.attempt stream (some current) index = .incomplete := by
  rw [attempt, dif_neg (by omega)]

theorem attempt_last {current : Nat} {budget : Int} {children : List Nat} {position : Nat}
    (ho : stream[index]? = some o)
    (hnode : p.node? current = some ⟨.gap budget, none, children, position⟩) :
    p.attempt stream (some current) index = .matched (index + 1) := by
  obtain ⟨hlt, rfl⟩ := List.getElem?_eq_some_iff.mp ho
  rw [attempt, dif_pos hlt, hnode]

theorem attempt_node {current : Nat} (ho : stream[index]? = some o)
    (hgap : (p.node? current).any Node.isGap = false) :
    p.attempt stream (some current) index =
      match p.accept? o current with
      | some next => p.attempt stream next (index + 1)
      | none => .failed index := by
  obtain ⟨hlt, rfl⟩ := List.getElem?_eq_some_iff.mp ho
  rw [attempt, dif_pos hlt]
  split
  · rename_i hnode
    simp [hnode, Node.isGap, Condition.isGap] at hgap
  · rename_i hnode
    simp [hnode, Node.isGap, Condition.isGap] at hgap
  · rfl

section Gap
variable {current follower : Nat} {budget : Int} {children : List Nat} {position k : Nat}

def PassedOver (p : Pattern) (stream : List Occurrence) (follower index k : Nat) : Prop :=
  ∀ j < k, ∀ o, stream[index + j]? = some o → p.accept? o follower = none

theorem PassedOver.succ (h : p.PassedOver stream follower index k)
    (ho : stream[index + k]? = some o) (hreject : p.accept? o follower = none) :
    p.PassedOver stream follower index (k + 1) := by
  intro j hj o' ho'
  rcases Nat.lt_succ_iff_lt_or_eq.mp hj with hlt | rfl
  · exact h j hlt o' ho'
  · rw [ho, Option.some.injEq] at ho'
    rwa [← ho']

theorem PassedOver.of_end (h : p.PassedOver stream follower index k)
    (hend : stream.length ≤ index + k) (l : Nat) : p.PassedOver stream follower index l := by
  intro j _ o ho
  obtain ⟨hlt, -⟩ := List.getElem?_eq_some_iff.mp ho
  exact h j (by omega) o ho

theorem PassedOver.findSome? (h : p.PassedOver stream follower index k) :
    (List.range k).findSome? (fun j => stream[index + j]?.bind fun o =>
      (p.accept? o follower).map fun next => (j, next)) = none := by
  rw [List.findSome?_eq_none_iff]
  intro j hj
  cases ho : stream[index + j]? with
  | none => rfl
  | some o => simp [h j (List.mem_range.mp hj) o ho]

theorem PassedOver.of_mem_stretch (h : p.PassedOver stream follower index k)
    (hmem : o ∈ stretch stream index (index + k)) :
    p.accept? o follower = none := by
  obtain ⟨j, hj⟩ := List.mem_iff_getElem?.mp hmem
  rw [stretch, Nat.add_sub_cancel_left, List.getElem?_take] at hj
  split at hj
  · rename_i hlt
    rw [List.getElem?_drop] at hj
    exact h j hlt o hj
  · cases hj

theorem firstAccepted?_eq_some {budget : Nat} {next : Option Nat}
    (h : p.firstAccepted? stream follower index budget = some (k, next)) :
    k ≤ budget ∧ p.PassedOver stream follower index k ∧
      ∃ o, stream[index + k]? = some o ∧ p.accept? o follower = some next := by
  obtain ⟨j, hj, hfirst, hbefore⟩ := findSome?_range h
  obtain ⟨o, ho, hmap⟩ := Option.bind_eq_some_iff.mp hfirst
  obtain ⟨next', haccept, heq⟩ := Option.map_eq_some_iff.mp hmap
  cases heq
  refine ⟨by omega, ?_, o, ho, haccept⟩
  intro i hi o' ho'
  simpa [ho'] using hbefore i hi

theorem attempt_gap_accept {next : Option Nat}
    (hnode : p.node? current = some ⟨.gap budget, some follower, children, position⟩)
    (hpassed : p.PassedOver stream follower index k) (hk : k ≤ budget.toNat)
    (ho : stream[index + k]? = some o) (haccept : p.accept? o follower = some next) :
    p.attempt stream (some current) index = p.attempt stream next (index + k + 1) := by
  have hlt : index < stream.length := by
    obtain ⟨hk, -⟩ := List.getElem?_eq_some_iff.mp ho
    omega
  have hfirst : p.firstAccepted? stream follower index budget.toNat = some (k, next) := by
    have hrest : budget.toNat + 1 = k + (budget.toNat - k + 1) := by omega
    rw [firstAccepted?, hrest, List.range_add, List.findSome?_append, hpassed.findSome?]
    simp [List.range_succ_eq_map, ho, haccept]
  rw [attempt, dif_pos hlt, hnode]
  simp only [hfirst]

theorem attempt_gap_fail
    (hnode : p.node? current = some ⟨.gap budget, some follower, children, position⟩)
    (hpassed : p.PassedOver stream follower index (budget.toNat + 1)) :
    p.attempt stream (some current) index =
      if index + budget.toNat < stream.length then .failed (index + budget.toNat)
      else .incomplete := by
  by_cases hlt : index < stream.length
  · rw [attempt, dif_pos hlt, hnode]
    simp only [firstAccepted?, hpassed.findSome?]
  · rw [attempt_end (by omega), if_neg (by omega)]

theorem attempt_gap_end
    (hnode : p.node? current = some ⟨.gap budget, some follower, children, position⟩)
    (hpassed : p.PassedOver stream follower index k) (hk : k ≤ budget.toNat)
    (hend : stream.length ≤ index + k) :
    p.attempt stream (some current) index = .incomplete := by
  rw [attempt_gap_fail hnode (hpassed.of_end hend _), if_neg (by omega)]

end Gap

end

end Pattern
end Concordance
