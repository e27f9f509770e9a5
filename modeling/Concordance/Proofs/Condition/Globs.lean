import Concordance.Condition.Basic

/-! What globs cover. The stars cut a glob into pieces; the texts that it covers are those that have
these pieces one after the other, with any characters at all in the place of each star. Main
statement: an occurrence meets a condition on the form just if its form is written in this way, or,
where no star counts as one, if it is that form. -/

namespace Concordance

namespace Glob

/-- A text has some pieces one after the other, the first at its start and the last at its end, with
any run of characters between two of them. -/
inductive Filled : List (List Char) → List Char → Prop
  | last (piece : List Char) : Filled [piece] piece
  | more (piece run : List Char) {pieces : List (List Char)} {text : List Char} :
      Filled pieces text → Filled (piece :: pieces) (piece ++ run ++ text)

section Filled
variable {piece text : List Char} {pieces : List (List Char)}

theorem filled_singleton : Filled [piece] text ↔ text = piece := by
  constructor
  · intro h
    cases h with
    | last => rfl
    | more _ _ hrest => cases hrest
  · rintro rfl
    exact .last text

theorem filled_cons (hne : pieces ≠ []) : Filled (piece :: pieces) text ↔
    ∃ run rest, text = piece ++ run ++ rest ∧ Filled pieces rest := by
  constructor
  · intro h
    cases h with
    | last => exact absurd rfl hne
    | more _ run hrest => exact ⟨run, _, rfl, hrest⟩
  · rintro ⟨run, rest, rfl, hrest⟩
    exact .more piece run hrest

theorem filled_modifyHead (c : Char) (hne : pieces ≠ []) :
    Filled (pieces.modifyHead (List.cons c)) text ↔
      ∃ rest, text = c :: rest ∧ Filled pieces rest := by
  obtain ⟨piece, pieces, rfl⟩ := List.exists_cons_of_ne_nil hne
  rw [List.modifyHead_cons]
  by_cases hlast : pieces = []
  · subst hlast
    simp only [filled_singleton, exists_eq_right]
  · simp only [filled_cons hlast, List.cons_append]
    constructor
    · rintro ⟨run, rest, rfl, hrest⟩
      exact ⟨_, rfl, run, rest, rfl, hrest⟩
    · rintro ⟨_, rfl, run, rest, rfl, hrest⟩
      exact ⟨run, rest, rfl, hrest⟩

end Filled

theorem covers_star_iff (glob text : List Char) : covers ('*' :: glob) text = true ↔
    ∃ run rest, text = run ++ rest ∧ covers glob rest = true := by
  induction text with
  | nil =>
    rw [covers_star_nil]
    constructor
    · intro h
      exact ⟨[], [], rfl, h⟩
    · rintro ⟨run, rest, hnil, h⟩
      rwa [(List.append_eq_nil_iff.mp hnil.symm).2] at h
  | cons c text ih =>
    rw [covers_star_cons, Bool.or_eq_true, ih]
    constructor
    · rintro (h | ⟨run, rest, rfl, h⟩)
      · exact ⟨[], _, rfl, h⟩
      · exact ⟨c :: run, rest, rfl, h⟩
    · rintro ⟨run, rest, htext, h⟩
      cases run with
      | nil =>
        rw [List.nil_append] at htext
        exact .inl (htext ▸ h)
      | cons d run =>
        obtain ⟨-, rfl⟩ := List.cons.inj htext
        exact .inr ⟨run, rest, rfl, h⟩

theorem covers_iff_filled (glob text : List Char) :
    covers glob text = true ↔ Filled (glob.splitOn '*') text := by
  induction glob generalizing text with
  | nil => rw [covers_nil, List.isEmpty_iff, List.splitOn_nil, filled_singleton]
  | cons sign glob ih =>
    have hne : glob.splitOn '*' ≠ [] := List.splitOnP_ne_nil _ glob
    rw [List.splitOn, List.splitOnP_cons_eq_if_modifyHead]
    by_cases hstar : sign = '*'
    · subst hstar
      rw [if_pos (beq_self_eq_true _), covers_star_iff]
      refine Iff.trans ?_ (filled_cons hne).symm
      simp only [List.nil_append, ih]
    · rw [if_neg (by simpa using hstar)]
      refine Iff.trans ?_ (filled_modifyHead sign hne).symm
      cases text with
      | nil => simp [hstar]
      | cons c text =>
        rw [covers_char_cons hstar, Bool.and_eq_true, beq_iff_eq, ih]
        constructor
        · rintro ⟨rfl, h⟩
          exact ⟨text, rfl, h⟩
        · rintro ⟨rest, heq, h⟩
          obtain ⟨rfl, rfl⟩ := List.cons.inj heq
          exact ⟨rfl, h⟩

end Glob

namespace Condition

/-- Where globs are wanted, a form that is not quoted and has a star is met by the forms that have
its pieces between the stars one after the other, with anything in the place of a star. Any other
form is met by itself alone. -/
theorem accepts_ofForm_iff (text : String) (globs quoted : Bool) (o : Occurrence) :
    accepts o (ofForm text globs quoted) = true ↔
      if globs = true ∧ quoted = false ∧ '*' ∈ text.toList then
        Glob.Filled (text.toList.splitOn '*') o.orth.toList
      else o.orth = text := by
  cases quoted with
  | true => simp [ofForm, accepts]
  | false =>
    by_cases hglob : globs = true ∧ '*' ∈ text.toList
    · have hcontains : (globs && text.toList.contains '*') = true := by simpa using hglob
      rw [if_pos ⟨hglob.1, rfl, hglob.2⟩, ofForm, if_neg Bool.false_ne_true, if_pos hcontains,
        accepts, Glob.covers_iff_filled]
    · have hcontains : ¬(globs && text.toList.contains '*') = true := by simpa using hglob
      rw [if_neg fun h => hglob ⟨h.1, h.2.2⟩, ofForm, if_neg Bool.false_ne_true, if_neg hcontains]
      simp [accepts]

/-- Two pieces do not share a character of the form, and a star may stand for none. -/
example : Glob.covers "ab*ba".toList "aba".toList = false ∧
    Glob.covers "ab*ba*".toList "abba".toList = true := by decide

end Condition
end Concordance
