/-! Globs: texts in which a star stands for any run of characters, and every other character for
itself.

A glob is read from its last sign to its first, and against all ends of the text at once. Each sign
turns one row of answers into the next, so that the work grows with the length of the glob times
that of the text, however the stars may be placed. The main statements say what each sign covers. -/

namespace Concordance.Glob

/-- Which ends of a text, the whole text first and the empty one last, are covered by no sign at
all. -/
def emptyRow (text : List Char) : List Bool := text.map (fun _ => false) ++ [true]

/-- The row of a star before the signs of a row: an end is covered if those signs cover it, or
another end inside it. -/
def starRow (row : List Bool) : List Bool :=
  row.foldr (fun here inside => (here || inside.headD false) :: inside) []

/-- The row of a character before the signs of a row: an end is covered if it starts with the
character and those signs cover what follows. -/
def charRow (sign : Char) (text : List Char) (row : List Bool) : List Bool :=
  text.zipWith (fun c follows => c == sign && follows) row.tail ++ [false]

def rowOf (text : List Char) : List Char → List Bool
  | [] => emptyRow text
  | sign :: glob =>
    if sign = '*' then starRow (rowOf text glob) else charRow sign text (rowOf text glob)

def covers (glob text : List Char) : Bool := (rowOf text glob).headD false

theorem rowOf_ne_nil (text glob : List Char) : rowOf text glob ≠ [] := by
  induction glob with
  | nil => simp [rowOf, emptyRow]
  | cons sign glob ih =>
    obtain ⟨b, row, hrow⟩ := List.exists_cons_of_ne_nil ih
    by_cases h : sign = '*' <;> simp [rowOf, h, hrow, starRow, charRow]

theorem rowOf_nil (glob : List Char) : rowOf [] glob = [covers glob []] := by
  suffices h : ∃ b, rowOf [] glob = [b] by
    obtain ⟨b, hb⟩ := h
    simp [covers, hb]
  induction glob with
  | nil => exact ⟨true, rfl⟩
  | cons sign glob ih =>
    obtain ⟨b, hb⟩ := ih
    by_cases h : sign = '*'
    · exact ⟨b, by simp [rowOf, h, hb, starRow]⟩
    · exact ⟨false, by simp [rowOf, h, charRow]⟩

theorem rowOf_cons (c : Char) (text glob : List Char) :
    rowOf (c :: text) glob = covers glob (c :: text) :: rowOf text glob := by
  suffices h : ∃ b, rowOf (c :: text) glob = b :: rowOf text glob by
    obtain ⟨b, hb⟩ := h
    simp [covers, hb]
  induction glob with
  | nil => exact ⟨false, rfl⟩
  | cons sign glob ih =>
    obtain ⟨b, hb⟩ := ih
    obtain ⟨a, row, hrow⟩ := List.exists_cons_of_ne_nil (rowOf_ne_nil text glob)
    by_cases h : sign = '*'
    · exact ⟨_, by simp only [rowOf, h, hb, starRow, List.foldr_cons, if_true]; rfl⟩
    · exact ⟨c == sign && a, by simp [rowOf, h, hb, hrow, charRow]⟩

@[simp] theorem covers_nil (text : List Char) : covers [] text = text.isEmpty := by
  cases text <;> rfl

@[simp] theorem covers_star_nil (glob : List Char) : covers ('*' :: glob) [] = covers glob [] := by
  rw [covers, rowOf, if_pos rfl, rowOf_nil]
  simp [starRow]

@[simp] theorem covers_star_cons (glob : List Char) (c : Char) (text : List Char) :
    covers ('*' :: glob) (c :: text) =
      (covers glob (c :: text) || covers ('*' :: glob) text) := by
  rw [covers, rowOf, if_pos rfl, rowOf_cons]
  simp [starRow, covers, rowOf]

@[simp] theorem covers_char_nil {sign : Char} (h : sign ≠ '*') (glob : List Char) :
    covers (sign :: glob) [] = false := by
  simp [covers, rowOf, h, charRow]

@[simp] theorem covers_char_cons {sign : Char} (h : sign ≠ '*') (glob : List Char) (c : Char)
    (text : List Char) :
    covers (sign :: glob) (c :: text) = (c == sign && covers glob text) := by
  obtain ⟨a, row, hrow⟩ := List.exists_cons_of_ne_nil (rowOf_ne_nil text glob)
  rw [covers, rowOf, if_neg h, rowOf_cons]
  simp [charRow, covers, hrow]

end Concordance.Glob
