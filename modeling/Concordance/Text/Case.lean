import Concordance.Text.Case.Table

/-! Letter case: capitals, lowercase and uppercase of texts. A mapping may change the length of a
text, and the lowercase of a sigma hangs on the letters around it. -/

namespace Concordance.Text

open Case

private def shift (table : CodeTable CaseShift) (n : Nat) : Nat :=
  match table.row? n with
  | some row =>
    if (n - row.first) % row.value.step = 0 then (n + row.value.distance).toNat else n
  | none => n

/-- The lowercase of a character outside any word: one character, save for the dotted capital I. -/
def lowerChar (c : Char) : List Char :=
  if c = 'İ' then ['i', '\u0307'] else [Char.ofNat (shift lowerTable c.toNat)]

theorem lowerChar_of_row {c : Char} {row : CodeRow CaseShift} (hdotted : c ≠ 'İ')
    (hrow : lowerTable.row? c.toNat = some row)
    (hstep : (c.toNat - row.first) % row.value.step = 0) :
    lowerChar c = [Char.ofNat (c.toNat + row.value.distance).toNat] := by
  rw [lowerChar, if_neg hdotted, shift, hrow]
  simp only [hstep, if_true]

theorem lowerChar_of_silent {c : Char} (hdotted : c ≠ 'İ')
    (h : ∀ row, lowerTable.row? c.toNat = some row →
      (c.toNat - row.first) % row.value.step ≠ 0) : lowerChar c = [c] := by
  rw [lowerChar, if_neg hdotted, shift]
  cases hrow : lowerTable.row? c.toNat with
  | none => simp only [Char.ofNat_toNat]
  | some row => simp only [h row hrow, if_false, Char.ofNat_toNat]

/-- What a character means to a sigma beside it; none for one that ends the word. -/
def sigmaContext (c : Char) : Option SigmaContext := sigmaTable.value? c.toNat

/-- Whether a cased character comes first once the ignorable ones are passed over. -/
def casedFirst : List Char → Bool
  | [] => false
  | c :: rest =>
    match sigmaContext c with
    | some .cased => true
    | some .ignorable => casedFirst rest
    | none => false

/-- Lowercase, given whether a cased character comes last before the text, ignorable ones passed
over. A capital sigma is final behind a cased character and not before one. -/
def lowerFrom (afterCased : Bool) : List Char → List Char
  | [] => []
  | c :: rest =>
    let here :=
      if c = 'Σ' then [if afterCased && !casedFirst rest then 'ς' else 'σ'] else lowerChar c
    let afterHere :=
      match sigmaContext c with
      | some .cased => true
      | some .ignorable => afterCased
      | none => false
    here ++ lowerFrom afterHere rest

def lower (s : String) : String := String.ofList (lowerFrom false s.toList)

def upperChar (c : Char) : List Char :=
  match expansionTable.value? c.toNat with
  | some codes => codes.map Char.ofNat
  | none => [Char.ofNat (shift upperTable c.toNat)]

def upper (s : String) : String := String.ofList (s.toList.flatMap upperChar)

/-- A capital: a letter with a lowercase of its own, title case apart, or a lone capital. -/
def isCapital (c : Char) : Bool :=
  (lowerChar c != [c] && (CodeTable.rowIn titleRows c.toNat).isNone) ||
    (CodeTable.rowIn loneCapitalRows c.toNat).isSome

end Concordance.Text
