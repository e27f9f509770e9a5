import Concordance.Category.Basic

/-! Sets of categories: one bit for each of the 256 codes of a byte. -/

namespace Concordance

/-- A set of byte codes; bit `c` tells whether `c` is in it. -/
structure CategorySet where
  bits : Nat
  deriving DecidableEq, Repr

namespace CategorySet

def empty : CategorySet := ⟨0⟩

def full : CategorySet := ⟨(1 <<< 256) - 1⟩

def withMask (s : CategorySet) (mask : Nat) : CategorySet := ⟨s.bits ||| mask⟩

def withoutMask (s : CategorySet) (mask : Nat) : CategorySet := ⟨(s.bits ||| mask) ^^^ mask⟩

def codeMask (c : Category) : Nat := 1 <<< c.byte

/-- The first code of the family that an argument means: a value below 16 is the family's nibble,
any other a code of the family, taken by its low byte. -/
def familyBase (c : Category) : Nat :=
  if 0 ≤ c ∧ c < 16 then 16 * c.toNat else 16 * (c.byte / 16)

def familyMask (c : Category) : Nat := 0xffff <<< familyBase c

def insert (s : CategorySet) (c : Category) : CategorySet := s.withMask (codeMask c)
def erase (s : CategorySet) (c : Category) : CategorySet := s.withoutMask (codeMask c)
def insertFamily (s : CategorySet) (c : Category) : CategorySet := s.withMask (familyMask c)
def eraseFamily (s : CategorySet) (c : Category) : CategorySet := s.withoutMask (familyMask c)

def ofList (codes : List Category) : CategorySet := codes.foldl insert empty

/-- Whether a code is a byte and in the set. No other integer is ever in it. -/
def contains (s : CategorySet) (c : Category) : Bool :=
  decide (0 ≤ c) && decide (c < 256) && s.bits.testBit c.toNat

theorem byte_lt (c : Category) : c.byte < 256 := by
  unfold Category.byte
  omega

theorem contains_eq (s : CategorySet) (c : Category) :
    s.contains c = true ↔ 0 ≤ c ∧ c < 256 ∧ s.bits.testBit c.toNat = true := by
  simp [contains, and_assoc]

theorem testBit_withoutMask (s : CategorySet) (mask i : Nat) :
    (s.withoutMask mask).bits.testBit i = (s.bits.testBit i && !mask.testBit i) := by
  simp only [withoutMask, Nat.testBit_xor, Nat.testBit_or]
  cases s.bits.testBit i <;> cases mask.testBit i <;> rfl

theorem testBit_withMask (s : CategorySet) (mask i : Nat) :
    (s.withMask mask).bits.testBit i = (s.bits.testBit i || mask.testBit i) := by
  simp [withMask]

theorem testBit_codeMask (c : Category) (i : Nat) :
    (codeMask c).testBit i = decide (i = c.byte) := by
  rw [codeMask, Nat.one_shiftLeft, Nat.testBit_two_pow]
  exact decide_eq_decide.2 eq_comm

theorem testBit_familyMask (c : Category) (i : Nat) :
    (familyMask c).testBit i = decide (familyBase c ≤ i ∧ i < familyBase c + 16) := by
  have hones : 0xffff = 2 ^ 16 - 1 := rfl
  rw [familyMask, Nat.testBit_shiftLeft, hones, Nat.testBit_two_pow_sub_one, ← Bool.decide_and]
  exact decide_eq_decide.2 (by omega)

section
variable {c d : Category}

theorem contains_insert (s : CategorySet) (hc : 0 ≤ c ∧ c < 256) (hd : 0 ≤ d ∧ d < 256) :
    (s.insert c).contains d = true ↔ s.contains d = true ∨ d = c := by
  have hbit : d.toNat = c.byte ↔ d = c := by
    unfold Category.byte Category at *
    omega
  simp only [contains_eq, insert, testBit_withMask, testBit_codeMask, Bool.or_eq_true,
    decide_eq_true_eq, hbit, hd.1, hd.2, true_and]

/-- A family is added whole, unless its code is small enough to be taken for a nibble. -/
theorem contains_insertFamily (s : CategorySet) (hc : 16 ≤ c ∧ c < 256) (hd : 0 ≤ d ∧ d < 256) :
    (s.insertFamily c).contains d = true ↔ s.contains d = true ∨ d.family = c.family := by
  have hcode : ¬(0 ≤ c ∧ c < 16) := fun h => by
    unfold Category at *
    omega
  have hbit : familyBase c ≤ d.toNat ∧ d.toNat < familyBase c + 16 ↔ d.family = c.family := by
    rw [familyBase, if_neg hcode]
    unfold Category.byte Category.family Category at *
    omega
  simp only [contains_eq, insertFamily, testBit_withMask, testBit_familyMask, Bool.or_eq_true,
    decide_eq_true_eq, hbit, hd.1, hd.2, true_and]

end

def toList (s : CategorySet) : List Nat :=
  (List.range 256).filter fun c => s.contains (c : Int)

private def countOnes : Nat → Nat → Nat
  | 0, _ => 0
  | n + 1, bits => bits % 2 + countOnes n (bits / 2)

def size (s : CategorySet) : Nat := countOnes (s.bits.log2 + 1) s.bits

private theorem countOnes_eq (n bits : Nat) :
    countOnes n bits = (List.range n).countP bits.testBit := by
  induction n generalizing bits with
  | zero => rfl
  | succ n ih =>
    have hshift : (bits / 2).testBit = bits.testBit ∘ Nat.succ := by
      funext i
      exact Nat.testBit_div_two bits i
    rw [countOnes, ih, hshift, List.range_succ_eq_map, List.countP_cons, List.countP_map,
      Nat.testBit_zero]
    rcases Nat.mod_two_eq_zero_or_one bits with hlow | hlow <;> simp [hlow, Nat.add_comm]

theorem size_eq (s : CategorySet) :
    s.size = (List.range (s.bits.log2 + 1)).countP s.bits.testBit := countOnes_eq _ _

private def gridRow (s : CategorySet) (row : Nat) : String :=
  Category.label ((16 * row : Nat) : Int) ++ "\t" ++
    String.ofList ((List.range 16).map fun column =>
      if s.contains ((16 * row + column : Nat) : Int) then '1' else '·') ++ "\n"

def grid (s : CategorySet) : String :=
  String.join ((List.range 16).map s.gridRow)

end CategorySet
end Concordance
