import Mathlib
import Concordance.Proofs.Text.Trimming
import Concordance.Text.Quoted

/-! What is written on one line is read back: a quoted string ends where it says, whatever follows,
and holds no control character; a number ends where something else begins. -/

namespace Concordance.Text

def Printed (s : String) : Prop := ∀ c ∈ s.toList, 0x20 ≤ c.toNat

theorem Printed.append {s t : String} (hs : Printed s) (ht : Printed t) : Printed (s ++ t) := by
  intro c hc
  rw [String.toList_append, List.mem_append] at hc
  exact hc.elim (hs c) (ht c)

theorem Printed.intercalate {separator : String} {texts : List String} (hs : Printed separator)
    (h : ∀ text ∈ texts, Printed text) : Printed (separator.intercalate texts) := by
  intro c hc
  rw [String.toList_intercalate] at hc
  rcases mem_of_mem_intercalate hc with hc | ⟨cs, hcs, hc⟩
  · exact hs c hc
  · obtain ⟨text, hmem, rfl⟩ := List.mem_map.mp hcs
    exact h text hmem c hc

namespace Quoted

def digitValue (c : Char) : Nat := if c.isDigit then c.toNat - 48 else c.toNat - 87

/-- The character that an escape stands for, given what is behind the backslash, and what follows the
escape. -/
def named : List Char → Option (Char × List Char)
  | [] => none
  | 'n' :: rest => some ('\n', rest)
  | 'r' :: rest => some ('\r', rest)
  | 't' :: rest => some ('\t', rest)
  | 'b' :: rest => some ('\x08', rest)
  | 'f' :: rest => some ('\x0c', rest)
  | 'u' :: '0' :: '0' :: high :: low :: rest =>
    some (Char.ofNat (16 * digitValue high + digitValue low), rest)
  | c :: rest => some (c, rest)

def unescape : List Char → Option (Char × List Char)
  | [] => none
  | c :: rest => if c = '\x5c' then named rest else some (c, rest)

theorem digitValue_digitChar : ∀ d < 16, digitValue (Nat.digitChar d) = d := by decide

theorem toNat_lt_of_lt_space {c : Char} (h : c < ' ') : c.toNat < 32 := h

theorem unescape_escape (c : Char) (rest : List Char) :
    unescape (escape c ++ rest) = some (c, rest) := by
  unfold escape
  split
  · subst_vars; rfl
  split
  · subst_vars; rfl
  split
  · subst_vars; rfl
  split
  · subst_vars; rfl
  split
  · subst_vars; rfl
  split
  · subst_vars; rfl
  split
  · subst_vars; rfl
  split
  · rename_i hcontrol
    have hlt := toNat_lt_of_lt_space hcontrol
    have hvalue : 16 * digitValue (Nat.digitChar (c.toNat / 16)) +
        digitValue (Nat.digitChar (c.toNat % 16)) = c.toNat := by
      rw [digitValue_digitChar _ (by omega), digitValue_digitChar _ (by omega)]
      omega
    simp only [List.cons_append, List.nil_append, unescape, if_true, named, hvalue,
      Char.ofNat_toNat]
  · rename_i hbackslash _ _ _ _ _ _
    rw [List.singleton_append, unescape, if_neg hbackslash]

theorem escape_append_inj {c d : Char} {xs ys : List Char}
    (h : escape c ++ xs = escape d ++ ys) : c = d ∧ xs = ys := by
  have hread := congrArg unescape h
  rw [unescape_escape, unescape_escape, Option.some.injEq, Prod.mk.injEq] at hread
  exact hread

theorem escape_cases (c : Char) : (escape c = [c] ∧ c ≠ '\x22' ∧ 0x20 ≤ c.toNat) ∨
    ∃ rest, escape c = '\x5c' :: rest ∧ ∀ d ∈ rest, 0x20 ≤ d.toNat := by
  unfold escape
  split_ifs with hquote _ _ _ _ _ _ hcontrol
  iterate 7 exact .inr ⟨_, rfl, by simp⟩
  · have hdigits : ∀ n < 32, 0x20 ≤ (Nat.digitChar (n / 16)).toNat ∧
        0x20 ≤ (Nat.digitChar (n % 16)).toNat := by decide
    have hcode := hdigits c.toNat (toNat_lt_of_lt_space hcontrol)
    exact .inr ⟨_, rfl, by simpa using hcode⟩
  · exact .inl ⟨rfl, hquote, Nat.not_lt.mp hcontrol⟩

theorem escape_eq_cons (c : Char) : ∃ d rest, escape c = d :: rest ∧ d ≠ '\x22' := by
  rcases escape_cases c with ⟨hself, hquote, -⟩ | ⟨rest, hescape, -⟩
  · exact ⟨c, [], hself, hquote⟩
  · exact ⟨_, rest, hescape, by decide⟩

theorem le_of_mem_escape {c d : Char} (h : d ∈ escape c) : 0x20 ≤ d.toNat := by
  rcases escape_cases c with ⟨hself, -, hle⟩ | ⟨rest, hescape, hle⟩
  · rw [hself] at h
    cases List.mem_singleton.mp h
    exact hle
  · rw [hescape] at h
    rcases List.mem_cons.mp h with rfl | h
    · decide
    · exact hle d h

theorem toList_encode (s : String) :
    (encode s).toList = '\x22' :: (s.toList.flatMap escape ++ ['\x22']) := by
  rw [encode, String.toList_ofList, List.cons_append]

theorem printed_encode (s : String) : Printed (encode s) := by
  intro c hc
  rw [toList_encode, List.mem_cons, List.mem_append, List.mem_flatMap, List.mem_singleton] at hc
  rcases hc with rfl | ⟨d, -, hc⟩ | rfl
  · decide
  · exact le_of_mem_escape hc
  · decide

theorem flatMap_escape_inj {cs ds xs ys : List Char}
    (h : cs.flatMap escape ++ '\x22' :: xs = ds.flatMap escape ++ '\x22' :: ys) :
    cs = ds ∧ xs = ys := by
  induction cs generalizing ds with
  | nil =>
    cases ds with
    | nil => exact ⟨rfl, List.tail_eq_of_cons_eq h⟩
    | cons d ds =>
      obtain ⟨e, rest, hescape, hne⟩ := escape_eq_cons d
      rw [List.flatMap_cons, hescape] at h
      exact absurd (List.head_eq_of_cons_eq h).symm hne
  | cons c cs ih =>
    cases ds with
    | nil =>
      obtain ⟨e, rest, hescape, hne⟩ := escape_eq_cons c
      rw [List.flatMap_cons, hescape] at h
      exact absurd (List.head_eq_of_cons_eq h) hne
    | cons d ds =>
      rw [List.flatMap_cons, List.flatMap_cons, List.append_assoc, List.append_assoc] at h
      obtain ⟨rfl, hrest⟩ := escape_append_inj h
      obtain ⟨rfl, hxs⟩ := ih hrest
      exact ⟨rfl, hxs⟩

/-- A quoted string is told from what follows it, whatever that is. -/
theorem encode_append_inj {s t : String} {xs ys : List Char}
    (h : (encode s).toList ++ xs = (encode t).toList ++ ys) : s = t ∧ xs = ys := by
  rw [toList_encode, toList_encode, List.cons_append, List.cons_append, List.append_assoc,
    List.append_assoc] at h
  obtain ⟨hchars, hrest⟩ := flatMap_escape_inj (List.tail_eq_of_cons_eq h)
  exact ⟨String.toList_inj.mp hchars, hrest⟩

theorem encode_injective {s t : String} (h : encode s = encode t) : s = t := by
  have happend : (encode s).toList ++ [] = (encode t).toList ++ [] := by rw [h]
  exact (encode_append_inj happend).1

end Quoted

def isNumeral (c : Char) : Bool := c.isDigit || c == '-'

theorem isNumeral_of_mem {n : Int} {c : Char} (h : c ∈ (toString n).toList) :
    isNumeral c = true := by
  have hdigit {m : Nat} (hm : c ∈ m.repr.toList) : isNumeral c = true := by
    rw [Nat.toList_repr] at hm
    simp [isNumeral, Nat.isDigit_of_mem_toDigits (by decide) (by decide) hm]
  rw [Int.toString_eq_repr, Int.repr_eq_if] at h
  split at h
  · exact hdigit h
  · rw [String.toList_append, List.mem_append] at h
    rcases h with hsign | hm
    · cases List.mem_singleton.mp hsign
      rfl
    · exact hdigit hm

theorem printed_toString (n : Int) : Printed (toString n) := by
  intro c hc
  have hnumeral := isNumeral_of_mem hc
  rw [isNumeral, Bool.or_eq_true, beq_iff_eq] at hnumeral
  rcases hnumeral with hdigit | rfl
  · rw [Char.isDigit, Bool.and_eq_true, decide_eq_true_eq] at hdigit
    exact Nat.le_trans (by decide) hdigit.1
  · decide

theorem toString_append_inj {m n : Int} {xs ys : List Char} (hxs : Stops isNumeral xs)
    (hys : Stops isNumeral ys) (h : (toString m).toList ++ xs = (toString n).toList ++ ys) :
    m = n ∧ xs = ys := by
  have hnumber := congrArg (List.takeWhile isNumeral) h
  have hrest := congrArg (List.dropWhile isNumeral) h
  rw [takeWhile_append_stops (fun _ => isNumeral_of_mem) hxs,
    takeWhile_append_stops (fun _ => isNumeral_of_mem) hys] at hnumber
  rw [dropWhile_append_stops (fun _ => isNumeral_of_mem) hxs,
    dropWhile_append_stops (fun _ => isNumeral_of_mem) hys] at hrest
  exact ⟨Int.repr_inj.mp (String.toList_inj.mp hnumber), hrest⟩

end Concordance.Text
