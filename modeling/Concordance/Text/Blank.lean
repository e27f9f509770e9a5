import Concordance.Text.CodeTable

/-! White space. -/

namespace Concordance.Text

/-- The code points of white space: the separators, the ASCII blanks and line ends, the four ASCII
information separators, and the C1 next-line control. -/
private def blankRows : List (CodeRow Unit) := [
  ⟨0x9, 0xd, ()⟩, ⟨0x1c, 0x20, ()⟩, ⟨0x85, 0x85, ()⟩, ⟨0xa0, 0xa0, ()⟩, ⟨0x1680, 0x1680, ()⟩,
  ⟨0x2000, 0x200a, ()⟩, ⟨0x2028, 0x2029, ()⟩, ⟨0x202f, 0x202f, ()⟩, ⟨0x205f, 0x205f, ()⟩,
  ⟨0x3000, 0x3000, ()⟩]

def isBlank (c : Char) : Bool := (CodeTable.rowIn blankRows c.toNat).isSome

def blankCodes : List Nat :=
  blankRows.flatMap fun row => List.range' row.first (row.last + 1 - row.first)

theorem toNat_mem_blankCodes {c : Char} (h : isBlank c = true) : c.toNat ∈ blankCodes := by
  obtain ⟨row, hrow⟩ := Option.isSome_iff_exists.mp h
  obtain ⟨hmem, hfirst, hlast⟩ := CodeTable.rowIn_eq_some hrow
  refine List.mem_flatMap.mpr ⟨row, hmem, List.mem_range'_1.mpr ⟨hfirst, ?_⟩⟩
  omega

def strip (cs : List Char) : List Char :=
  ((cs.dropWhile isBlank).reverse.dropWhile isBlank).reverse

def words (cs : List Char) : List (List Char) :=
  go [] cs
where
  /-- `word` holds the characters of the run in progress, last first. -/
  go (word : List Char) : List Char → List (List Char)
    | [] => if word.isEmpty then [] else [word.reverse]
    | c :: rest =>
      if isBlank c then
        if word.isEmpty then go [] rest else word.reverse :: go [] rest
      else go (c :: word) rest

theorem words_go_append {first : List Char} (h : ∀ c ∈ first, isBlank c = false)
    (word rest : List Char) :
    words.go word (first ++ rest) = words.go (first.reverse ++ word) rest := by
  induction first generalizing word with
  | nil => rfl
  | cons c first ih =>
    obtain ⟨hc, hfirst⟩ := List.forall_mem_cons.mp h
    rw [List.cons_append, words.go, hc, if_neg Bool.false_ne_true, ih hfirst, List.reverse_cons,
      List.append_assoc, List.singleton_append]

theorem words_intercalate {ws : List (List Char)}
    (h : ∀ w ∈ ws, w ≠ [] ∧ ∀ c ∈ w, isBlank c = false) : words ([' '].intercalate ws) = ws := by
  induction ws with
  | nil => rfl
  | cons w rest ih =>
    obtain ⟨⟨hne, hw⟩, hrest⟩ := List.forall_mem_cons.mp h
    have hempty : w.reverse.isEmpty = false := by simpa using hne
    cases rest with
    | nil =>
      have hread := words_go_append hw [] []
      rw [List.append_nil, List.append_nil] at hread
      rw [List.intercalate_singleton, words, hread, words.go, hempty, List.reverse_reverse]
      rfl
    | cons next rest =>
      have hblank : isBlank ' ' = true := by decide
      rw [List.intercalate_cons_cons, List.append_assoc, words, words_go_append hw,
        List.append_nil, List.singleton_append, words.go, hblank, if_pos rfl, hempty,
        if_neg Bool.false_ne_true, List.reverse_reverse]
      exact congrArg (w :: ·) (ih hrest)

end Concordance.Text
