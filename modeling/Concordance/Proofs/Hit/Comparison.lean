import Mathlib.Data.Prod.Lex
import Concordance.Hit.Order

/-! Hits compared with each other. Hits of one source are in the order of their extents, first by
where they start and then by where they stop; between hits of different sources there is no order.
Main statement: all comparisons agree on that order, and it on the occurrences that hits share. -/

namespace Concordance.Hit

def extent (hit : Hit) : Int ×ₗ Int := toLex (hit.start, hit.stop)

def Relation.between {α : Type} [LinearOrder α] (x y : α) : Relation → Bool
  | .lt => x < y
  | .le => x ≤ y
  | .gt => y < x
  | .ge => y ≤ x
  | .eq => x = y
  | .ne => x ≠ y

/-- A hit that can be made, of one occurrence at least. -/
structure Made (hit : Hit) : Prop where
  ofExtent_eq : ofExtent hit.occurrences hit.start hit.stop hit.name hit.source = .ok hit
  ne_nil : hit.occurrences ≠ []

/-- What the comparisons of two hits answer: whether the first is before the second, the same or
behind it, and whether they have a place of the stream in common. -/
structure Compared (a b : Hit) (before same behind shared : Bool) : Prop where
  exactly_one : [before, same, behind].count true = 1
  lt : a.compare b .lt = .ok before
  eq : a.compare b .eq = .ok same
  lt_swap : b.compare a .lt = .ok behind
  le : a.compare b .le = .ok (before || same)
  gt : a.compare b .gt = .ok behind
  ge : a.compare b .ge = .ok (behind || same)
  ne : a.compare b .ne = .ok !same
  overlaps : a.overlaps b = .ok shared
  overlaps_swap : b.overlaps a = .ok shared
  in_common : shared = true ↔ ∃ i, (a.start ≤ i ∧ i < a.stop) ∧ b.start ≤ i ∧ i < b.stop
  apart : shared = false → (before = true ↔ a.stop ≤ b.start)

structure Incomparable (a b : Hit) : Prop where
  eq : a.compare b .eq = .ok false
  ne : a.compare b .ne = .ok true
  refused : ∀ relation ∈ [Relation.lt, .le, .gt, .ge],
    a.compare b relation = .error .differentSources
  overlaps : a.overlaps b = .error .differentSources

section
variable {a b c : Hit}

theorem Relation.between_le {α : Type} [LinearOrder α] (x y : α) :
    Relation.le.between x y = (decide (x < y) || decide (x = y)) := by
  rw [Relation.between, decide_eq_decide.mpr le_iff_lt_or_eq, Bool.decide_or]

theorem extent_lt_iff : a.extent < b.extent ↔
    a.start < b.start ∨ a.start = b.start ∧ a.stop < b.stop := Prod.Lex.toLex_lt_toLex

theorem extent_eq_iff : a.extent = b.extent ↔ a.start = b.start ∧ a.stop = b.stop := by
  simp [extent]

theorem Made.start_lt_stop (h : a.Made) : a.start < a.stop := by
  have hsize := List.length_pos_iff.mpr h.ne_nil
  have hfits := h.ofExtent_eq
  unfold ofExtent at hfits
  split at hfits
  · omega
  · cases hfits

theorem sameSource_comm (a b : Hit) : a.sameSource b = b.sameSource a := by
  unfold sameSource
  exact BEq.comm

theorem precedes_eq (h : a.sameSource b = true) :
    a.precedes b = .ok (decide (a.extent < b.extent)) := by
  unfold precedes
  rw [if_pos h]
  congr 1
  rw [Bool.eq_iff_iff, decide_eq_true_iff, extent_lt_iff]
  split <;> simp_all

theorem sameAs_eq (h : a.sameSource b = true) : a.sameAs b = decide (a.extent = b.extent) := by
  unfold sameAs
  rw [Bool.eq_iff_iff, decide_eq_true_iff, extent_eq_iff]
  simp [h]

theorem compare_eq (h : a.sameSource b = true) (relation : Relation) :
    a.compare b relation = .ok (relation.between a.extent b.extent) := by
  have hprecedes := precedes_eq h
  have hsame := sameAs_eq h
  cases relation with
  | lt => exact hprecedes
  | le =>
    rw [compare, hprecedes, hsame, Relation.between_le]
    rfl
  | gt =>
    have hgt : b.extent < a.extent ↔ ¬a.extent < b.extent ∧ ¬a.extent = b.extent := by
      rw [lt_iff_le_and_ne, not_lt, ne_comm]
    rw [compare, hprecedes, hsame, Relation.between, decide_eq_decide.mpr hgt, Bool.decide_and,
      decide_not, decide_not]
    rfl
  | ge =>
    rw [compare, hprecedes, Relation.between, decide_eq_decide.mpr not_lt.symm, decide_not]
    rfl
  | eq => rw [compare, hsame, Relation.between]
  | ne => rw [compare, hsame, Relation.between, decide_not]

theorem sameSource_of_precedes {before : Bool} (h : a.precedes b = .ok before) :
    a.sameSource b = true := by
  unfold precedes at h
  split at h
  · assumption
  · cases h

theorem sameSource_trans (hab : a.sameSource b = true) (hbc : b.sameSource c = true) :
    a.sameSource c = true := by
  unfold sameSource at *
  rw [beq_iff_eq] at *
  exact hab.trans hbc

theorem lt_trans_of_compare (hab : a.compare b .lt = .ok true) (hbc : b.compare c .lt = .ok true) :
    a.compare c .lt = .ok true := by
  have hsource := sameSource_of_precedes hab
  have hsource' := sameSource_of_precedes hbc
  rw [compare_eq hsource, Except.ok.injEq] at hab
  rw [compare_eq hsource', Except.ok.injEq] at hbc
  rw [compare_eq (sameSource_trans hsource hsource'), Except.ok.injEq]
  simp only [Relation.between, decide_eq_true_iff] at *
  exact hab.trans hbc

theorem overlaps_eq (h : a.sameSource b = true) (ha : a.Made) (hb : b.Made) :
    a.overlaps b = .ok (decide (a.start < b.stop ∧ b.start < a.stop)) := by
  have hlt := ha.start_lt_stop
  have hlt' := hb.start_lt_stop
  unfold overlaps
  rw [if_pos h]
  congr 1
  rw [Bool.eq_iff_iff]
  simp only [Bool.or_eq_true, decide_eq_true_iff]
  omega

theorem compared (h : a.sameSource b = true) (ha : a.Made) (hb : b.Made) :
    Compared a b (decide (a.extent < b.extent)) (decide (a.extent = b.extent))
      (decide (b.extent < a.extent)) (decide (a.start < b.stop ∧ b.start < a.stop)) := by
  have hswap : b.sameSource a = true := sameSource_comm a b ▸ h
  have hlt := ha.start_lt_stop
  have hlt' := hb.start_lt_stop
  constructor
  case exactly_one =>
    rcases lt_trichotomy a.extent b.extent with hord | hord | hord
    · simp [hord, hord.ne, hord.not_gt]
    · simp [hord]
    · simp [hord, hord.ne', hord.not_gt]
  case lt => exact compare_eq h .lt
  case eq => exact compare_eq h .eq
  case lt_swap => exact compare_eq hswap .lt
  case le => rw [compare_eq h, Relation.between_le]
  case gt => exact compare_eq h .gt
  case ge =>
    have hge : Relation.ge.between a.extent b.extent = Relation.le.between b.extent a.extent := rfl
    rw [compare_eq h, hge, Relation.between_le, decide_eq_decide.mpr eq_comm]
  case ne => rw [compare_eq h, Relation.between, decide_not]
  case overlaps => exact overlaps_eq h ha hb
  case overlaps_swap => rw [overlaps_eq hswap hb ha, decide_eq_decide.mpr and_comm]
  case in_common =>
    rw [decide_eq_true_iff]
    constructor
    · intro hshared
      exact ⟨max a.start b.start, by omega, by omega⟩
    · rintro ⟨i, hi, hi'⟩
      omega
  case apart =>
    rw [decide_eq_false_iff_not, decide_eq_true_iff, extent_lt_iff]
    omega

theorem incomparable (h : a.sameSource b = false) : Incomparable a b := by
  have hprecedes : a.precedes b = .error .differentSources := by
    unfold precedes
    rw [if_neg (by simp [h])]
  have hsame : a.sameAs b = false := by simp [sameAs, h]
  constructor
  case eq => rw [compare, hsame]
  case ne => rw [compare, hsame, Bool.not_false]
  case refused =>
    intro relation hmem
    simp only [List.mem_cons, List.not_mem_nil, or_false] at hmem
    rcases hmem with rfl | rfl | rfl | rfl <;> rw [compare, hprecedes] <;> rfl
  case overlaps =>
    unfold overlaps
    rw [if_neg (by simp [h])]

end

/-- Comparing hits is comparing extents. Of two hits of one source exactly one is before the other
or they are the same, the derived comparisons agree with that, and they overlap where both have a
place of the stream, else the first stops where the second starts or before. Hits of different
sources are not equal, and cannot be compared otherwise. -/
theorem hits_compare_by_extent (a b c : Hit) :
    (a.Made → b.Made → a.sameSource b = true →
      ∃ before same behind shared, Compared a b before same behind shared) ∧
    (a.compare b .lt = .ok true → b.compare c .lt = .ok true → a.compare c .lt = .ok true) ∧
    (a.sameSource b = false → Incomparable a b) :=
  ⟨fun ha hb h => ⟨_, _, _, _, compared h ha hb⟩, lt_trans_of_compare, incomparable⟩

/-- A hit inside another one comes behind it, and one at the same extent of an equal text cannot be
compared with it. -/
theorem inner_hit_compared : ∃ outer inner twin : Hit,
    outer.extent = toLex (1, 4) ∧ inner.extent = toLex (2, 3) ∧ twin.extent = outer.extent ∧
    outer.Made ∧ inner.Made ∧ outer.sameSource inner = true ∧ outer.sameSource twin = false ∧
    (∃ before same behind shared, Compared outer inner before same behind shared) ∧
    outer.compare inner .le = .ok true ∧ outer.overlaps inner = .ok true ∧
    Incomparable outer twin := by
  let stream := Occurrence.ofSymbols (fun _ => .null) "a b c d e"
  let outer : Hit := ⟨(stream.drop 1).take 3, 1, 4, none, some (.ofText 0 "a b c d e")⟩
  let inner : Hit := ⟨(stream.drop 2).take 1, 2, 3, none, some (.ofText 0 "a b c d e")⟩
  let twin : Hit := { outer with source := some (.ofText 1 "a b c d e") }
  have houter : outer.Made := ⟨by decide, by decide⟩
  have hinner : inner.Made := ⟨by decide, by decide⟩
  have hsame : outer.sameSource inner = true := by decide
  have hother : outer.sameSource twin = false := by decide
  exact ⟨outer, inner, twin, rfl, rfl, rfl, houter, hinner, hsame, hother,
    (hits_compare_by_extent outer inner twin).1 houter hinner hsame, by decide, by decide,
    (hits_compare_by_extent outer twin twin).2.2 hother⟩

end Concordance.Hit
