import Mathlib.Data.Finset.Sort
import Concordance.Category.Set

/-! Sets of categories as sets of codes. A set is kept in bits, and arguments of any size are turned
into the masks that change it; what it stands for is a finite set of byte codes. Main statement:
after any changes, all that can be asked of the bits is answered by the codes. -/

namespace Concordance.CategorySet

def codesOf (bits : Nat) : Finset Nat :=
  (Finset.range 256).filter fun code => bits.testBit code = true

def codes (s : CategorySet) : Finset Nat := codesOf s.bits

def Bounded (s : CategorySet) : Prop := s.bits < 2 ^ 256

/-- The codes of the family that an argument means: below 16 it is the high nibble that they have in
common, and any other argument has that nibble in its low byte. -/
def familyCodes (c : Category) : Finset Nat :=
  (Finset.range 256).filter fun code =>
    code / 16 = if 0 ≤ c ∧ c < 16 then c.toNat else (c % 256).toNat / 16

inductive Change
  | insert (c : Category)
  | erase (c : Category)
  | insertFamily (c : Category)
  | eraseFamily (c : Category)
  | fill
  | clear
  deriving DecidableEq, Repr

def change (s : CategorySet) : Change → CategorySet
  | .insert c => s.insert c
  | .erase c => s.erase c
  | .insertFamily c => s.insertFamily c
  | .eraseFamily c => s.eraseFamily c
  | .fill => full
  | .clear => empty

def changeCodes (codes : Finset Nat) : Change → Finset Nat
  | .insert c => codes ∪ {(c % 256).toNat}
  | .erase c => codes \ {(c % 256).toNat}
  | .insertFamily c => codes ∪ familyCodes c
  | .eraseFamily c => codes \ familyCodes c
  | .fill => Finset.range 256
  | .clear => ∅

def changed (initial : List Category) (changes : List Change) : CategorySet :=
  changes.foldl change (ofList initial)

def changedCodes (initial : List Category) (changes : List Change) : Finset Nat :=
  changes.foldl changeCodes (initial.map fun c => (c % 256).toNat).toFinset

section
variable {s t : CategorySet} {bits mask code : Nat} {c : Category}

@[simp] theorem mem_codesOf : code ∈ codesOf bits ↔ code < 256 ∧ bits.testBit code = true := by
  simp [codesOf]

@[simp] theorem mem_familyCodes : code ∈ familyCodes c ↔
    code < 256 ∧ code / 16 = if 0 ≤ c ∧ c < 16 then c.toNat else (c % 256).toNat / 16 := by
  simp [familyCodes]

theorem codesOf_codeMask (c : Category) : codesOf (codeMask c) = {(c % 256).toNat} := by
  ext code
  have hbyte := byte_lt c
  rw [mem_codesOf, testBit_codeMask, Finset.mem_singleton, decide_eq_true_iff]
  unfold Category.byte at *
  omega

theorem codesOf_familyMask (c : Category) : codesOf (familyMask c) = familyCodes c := by
  ext code
  rw [mem_codesOf, testBit_familyMask, mem_familyCodes, decide_eq_true_iff, familyBase]
  unfold Category.byte Category at *
  split <;> omega

theorem codes_withMask (s : CategorySet) (mask : Nat) :
    (s.withMask mask).codes = s.codes ∪ codesOf mask := by
  ext code
  simp only [codes, mem_codesOf, Finset.mem_union, testBit_withMask, Bool.or_eq_true]
  exact and_or_left

theorem codes_withoutMask (s : CategorySet) (mask : Nat) :
    (s.withoutMask mask).codes = s.codes \ codesOf mask := by
  ext code
  simp only [codes, mem_codesOf, Finset.mem_sdiff, testBit_withoutMask, Bool.and_eq_true,
    Bool.not_eq_true', not_and, Bool.not_eq_true]
  tauto

@[simp] theorem codes_empty : empty.codes = ∅ := by
  ext code
  simp [codes, empty]

@[simp] theorem codes_full : full.codes = Finset.range 256 := by
  ext code
  rw [codes, mem_codesOf, full, Nat.one_shiftLeft, Nat.testBit_two_pow_sub_one, Finset.mem_range,
    decide_eq_true_iff, and_self]

theorem codes_change (s : CategorySet) (step : Change) :
    (s.change step).codes = changeCodes s.codes step := by
  cases step with
  | insert c => rw [change, insert, codes_withMask, codesOf_codeMask, changeCodes]
  | erase c => rw [change, erase, codes_withoutMask, codesOf_codeMask, changeCodes]
  | insertFamily c => rw [change, insertFamily, codes_withMask, codesOf_familyMask, changeCodes]
  | eraseFamily c => rw [change, eraseFamily, codes_withoutMask, codesOf_familyMask, changeCodes]
  | fill => exact codes_full
  | clear => exact codes_empty

theorem testBit_of_lt {n i : Nat} (h : bits < 2 ^ n) (hi : n ≤ i) : bits.testBit i = false :=
  Nat.testBit_lt_two_pow (h.trans_le (Nat.pow_le_pow_right Nat.two_pos hi))

theorem bounded_iff : s.Bounded ↔ ∀ i, 256 ≤ i → s.bits.testBit i = false := by
  constructor
  · exact fun h i hi => testBit_of_lt h hi
  · exact Nat.lt_pow_two_of_testBit s.bits

theorem codeMask_lt (c : Category) : codeMask c < 2 ^ 256 := by
  rw [codeMask, Nat.one_shiftLeft]
  exact Nat.pow_lt_pow_right Nat.one_lt_two (byte_lt c)

theorem familyMask_lt (c : Category) : familyMask c < 2 ^ 256 := by
  apply Nat.lt_pow_two_of_testBit
  intro i hi
  rw [testBit_familyMask, decide_eq_false_iff_not, familyBase]
  have hbyte := byte_lt c
  unfold Category at *
  split <;> omega

theorem Bounded.withMask (h : s.Bounded) (hmask : mask < 2 ^ 256) : (s.withMask mask).Bounded :=
  Nat.or_lt_two_pow h hmask

theorem Bounded.withoutMask (h : s.Bounded) (mask : Nat) : (s.withoutMask mask).Bounded := by
  rw [bounded_iff] at h ⊢
  intro i hi
  rw [testBit_withoutMask, h i hi, Bool.false_and]

@[simp] theorem bounded_empty : empty.Bounded := by
  unfold Bounded
  decide

@[simp] theorem bounded_full : full.Bounded := by
  unfold Bounded
  decide

theorem bounded_change (h : s.Bounded) (step : Change) : (s.change step).Bounded := by
  cases step with
  | insert c => exact h.withMask (codeMask_lt c)
  | erase c => exact h.withoutMask _
  | insertFamily c => exact h.withMask (familyMask_lt c)
  | eraseFamily c => exact h.withoutMask _
  | fill => exact bounded_full
  | clear => exact bounded_empty

theorem codes_foldl (s : CategorySet) (changes : List Change) :
    (changes.foldl change s).codes = changes.foldl changeCodes s.codes := by
  induction changes generalizing s with
  | nil => rfl
  | cons step changes ih => rw [List.foldl_cons, ih, codes_change, List.foldl_cons]

theorem bounded_foldl (h : s.Bounded) (changes : List Change) :
    (changes.foldl change s).Bounded := by
  induction changes generalizing s with
  | nil => exact h
  | cons step changes ih => exact ih (bounded_change h step)

theorem ofList_eq (initial : List Category) :
    ofList initial = (initial.map Change.insert).foldl change empty := by
  rw [List.foldl_map]
  rfl

theorem foldl_insert (codes : Finset Nat) (initial : List Category) :
    (initial.map Change.insert).foldl changeCodes codes =
      codes ∪ (initial.map fun c => (c % 256).toNat).toFinset := by
  induction initial generalizing codes with
  | nil => simp
  | cons c initial ih =>
    rw [List.map_cons, List.foldl_cons, ih, List.map_cons, List.toFinset_cons, changeCodes,
      Finset.union_assoc, Finset.insert_eq]

theorem codes_changed (initial : List Category) (changes : List Change) :
    (changed initial changes).codes = changedCodes initial changes := by
  rw [changed, codes_foldl, ofList_eq, codes_foldl, codes_empty, foldl_insert, Finset.empty_union,
    changedCodes]

theorem bounded_changed (initial : List Category) (changes : List Change) :
    (changed initial changes).Bounded := by
  rw [changed, ofList_eq]
  exact bounded_foldl (bounded_foldl bounded_empty _) changes

theorem contains_iff : s.contains c = true ↔ 0 ≤ c ∧ c < 256 ∧ c.toNat ∈ s.codes := by
  rw [contains_eq, codes, mem_codesOf]
  unfold Category at *
  grind

theorem mem_toList : code ∈ s.toList ↔ code ∈ s.codes := by
  rw [toList, List.mem_filter, List.mem_range, contains_iff, Int.toNat_natCast]
  have hcode : code ∈ s.codes → code < 256 := fun h => (mem_codesOf.mp h).1
  grind

theorem toList_eq_sort (s : CategorySet) : s.toList = s.codes.sort := by
  have hcodes : s.codes = s.toList.toFinset := by
    ext code
    rw [List.mem_toFinset, mem_toList]
  have hincreasing : s.toList.Pairwise (· < ·) := List.pairwise_lt_range.filter _
  rw [hcodes, eq_comm, List.toFinset_sort (· ≤ ·) (hincreasing.imp Nat.ne_of_lt)]
  exact hincreasing.imp Nat.le_of_lt

theorem Bounded.size_eq_card (h : s.Bounded) : s.size = s.codes.card := by
  have hcodes : s.codes = ((List.range (s.bits.log2 + 1)).filter s.bits.testBit).toFinset := by
    ext code
    rw [codes, mem_codesOf, List.mem_toFinset, List.mem_filter, List.mem_range]
    refine and_congr_left fun hset => iff_of_true ?_ ?_
    · by_contra houtside
      rw [testBit_of_lt h (Nat.le_of_not_lt houtside)] at hset
      cases hset
    · by_contra habove
      rw [testBit_of_lt Nat.lt_log2_self (Nat.le_of_not_lt habove)] at hset
      cases hset
  rw [size_eq, hcodes, List.toFinset_card_of_nodup (List.nodup_range.filter _),
    List.countP_eq_length_filter]

theorem Bounded.eq_iff (hs : s.Bounded) (ht : t.Bounded) : s = t ↔ s.codes = t.codes := by
  constructor
  · exact congrArg codes
  · intro hcodes
    have hbits : s.bits = t.bits := by
      apply Nat.eq_of_testBit_eq
      intro i
      by_cases hi : i < 256
      · have hmem : i ∈ s.codes ↔ i ∈ t.codes := by rw [hcodes]
        rw [codes, codes, mem_codesOf, mem_codesOf, and_iff_right hi, and_iff_right hi] at hmem
        exact Bool.eq_iff_iff.mpr hmem
      · rw [testBit_of_lt hs (Nat.le_of_not_lt hi), testBit_of_lt ht (Nat.le_of_not_lt hi)]
    cases s
    cases t
    exact congrArg mk hbits

end

/-- A set of categories is a set of byte codes: after any changes with any arguments, it contains,
lists and counts the codes that the changes leave, no other bit is set, and it equals another set
exactly if that one has the same codes. -/
theorem changed_eq_codes (initial : List Category) (changes : List Change) :
    (∀ c : Category, (changed initial changes).contains c = true ↔
      0 ≤ c ∧ c < 256 ∧ c.toNat ∈ changedCodes initial changes) ∧
    (changed initial changes).toList = (changedCodes initial changes).sort ∧
    (changed initial changes).size = (changedCodes initial changes).card ∧
    (changed initial changes).bits < 2 ^ 256 ∧
    changedCodes initial changes ⊆ Finset.range 256 ∧
    ∀ initial' changes', changed initial changes = changed initial' changes' ↔
      changedCodes initial changes = changedCodes initial' changes' := by
  have hcodes := codes_changed initial changes
  have hbounded := bounded_changed initial changes
  refine ⟨fun c => ?_, ?_, ?_, hbounded, ?_, fun initial' changes' => ?_⟩
  · rw [contains_iff, hcodes]
  · rw [toList_eq_sort, hcodes]
  · rw [hbounded.size_eq_card, hcodes]
  · rw [← hcodes]
    exact Finset.filter_subset _ _
  · rw [hbounded.eq_iff (bounded_changed _ _), hcodes, codes_changed]

/-- 300 and -1 are taken by their low bytes, 15 is the nibble of a family. -/
example : (changed [300, -1] [.insertFamily 15, .eraseFamily 0x2f, .erase (-1)]).toList =
    List.range' 240 15 := by decide +kernel

end Concordance.CategorySet
