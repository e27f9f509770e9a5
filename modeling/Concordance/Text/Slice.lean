/-! Pieces of a text by offset. Offsets are integers: one below zero counts from the end, and one
outside the text means the end that it passes. An item sought at an index is missing there. -/

namespace Concordance

inductive MissingItem
  | character
  | form
  | occurrence
  deriving DecidableEq, Repr

namespace MissingItem

def container : MissingItem → String
  | character => "string"
  | form => "list"
  | occurrence => "tuple"

def message (missing : MissingItem) : String := missing.container ++ " index out of range"

end MissingItem

namespace Text

def place (n : Nat) (offset : Int) : Nat :=
  if offset < 0 then (offset + n).toNat else min offset.toNat n

def slice {α : Type} (xs : List α) (start stop : Int) : List α :=
  (xs.take (place xs.length stop)).drop (place xs.length start)

def piece {α : Type} (xs : Array α) (start stop : Int) : List α :=
  (xs.extract (place xs.size start) (place xs.size stop)).toList

theorem piece_eq {α : Type} (xs : Array α) (start stop : Int) :
    piece xs start stop = slice xs.toList start stop := by
  simp [piece, slice, List.extract_eq_take_drop, List.drop_take]

/-- The offset of the first place where `word` stands in a text that starts at an offset. -/
def findFrom (word : List Char) (offset : Nat) : List Char → Option Nat
  | [] => if word.isEmpty then some offset else none
  | c :: rest =>
    if word.isPrefixOf (c :: rest) then some offset else findFrom word (offset + 1) rest

def find? (word text : List Char) : Option Nat := findFrom word 0 text

theorem slice_natCast {α : Type} {xs : List α} {start stop : Nat} (hstart : start ≤ stop)
    (hstop : stop ≤ xs.length) : slice xs start stop = (xs.drop start).take (stop - start) := by
  have hplace {offset : Nat} (h : offset ≤ xs.length) : place xs.length offset = offset := by
    rw [place, if_neg (by omega), Int.toNat_natCast, Nat.min_eq_left h]
  rw [slice, hplace (Nat.le_trans hstart hstop), hplace hstop, List.drop_take]

theorem findFrom_eq_some {word text : List Char} {offset found : Nat}
    (h : findFrom word offset text = some found) : ∃ k, found = offset + k ∧
      word <+: text.drop k ∧ ∀ j < k, ¬word <+: text.drop j := by
  induction text generalizing offset with
  | nil =>
    simp only [findFrom, Option.ite_none_right_eq_some, List.isEmpty_iff, Option.some.injEq] at h
    obtain ⟨rfl, rfl⟩ := h
    exact ⟨0, rfl, List.nil_prefix, by simp⟩
  | cons c rest ih =>
    rw [findFrom] at h
    split at h
    · rename_i hhere
      cases h
      exact ⟨0, rfl, List.isPrefixOf_iff_prefix.mp hhere, by simp⟩
    · rename_i hhere
      obtain ⟨k, rfl, hword, hbefore⟩ := ih h
      refine ⟨k + 1, by omega, hword, fun j hj => ?_⟩
      cases j with
      | zero => exact fun hword => hhere (List.isPrefixOf_iff_prefix.mpr hword)
      | succ j => exact hbefore j (by omega)

theorem findFrom_eq_none {word text : List Char} {offset : Nat}
    (h : findFrom word offset text = none) (k : Nat) : ¬word <+: text.drop k := by
  induction text generalizing offset k with
  | nil =>
    rintro hword
    rw [List.drop_nil, List.prefix_nil] at hword
    simp [findFrom, hword] at h
  | cons c rest ih =>
    rw [findFrom] at h
    split at h
    · cases h
    · rename_i hhere
      cases k with
      | zero => exact fun hword => hhere (List.isPrefixOf_iff_prefix.mpr hword)
      | succ k => exact ih h k

end Text
end Concordance
