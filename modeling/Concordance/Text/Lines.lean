/-! The lines of a text. -/

namespace Concordance.Text

/-- The characters that end a line; a carriage return and the line feed behind it end it together.
-/
def isLineEnd (c : Char) : Bool :=
  c ∈ ['\n', '\r', '\x0b', '\x0c', '\x1c', '\x1d', '\x1e', '\u0085', '\u2028', '\u2029']

/-- The lines of a text without their ends. A text that ends with its last line has no line after
it. -/
def lines (cs : List Char) : List (List Char) :=
  go [] cs
where
  /-- `line` holds the characters of the line in progress, last first. -/
  go (line : List Char) : List Char → List (List Char)
    | [] => if line.isEmpty then [] else [line.reverse]
    | '\r' :: '\n' :: rest => line.reverse :: go [] rest
    | c :: rest => if isLineEnd c then line.reverse :: go [] rest else go (c :: line) rest

theorem lines_go_append {first : List Char} (h : ∀ c ∈ first, isLineEnd c = false)
    (line rest : List Char) :
    lines.go line (first ++ rest) = lines.go (first.reverse ++ line) rest := by
  induction first generalizing line with
  | nil => rfl
  | cons c first ih =>
    obtain ⟨hc, hfirst⟩ := List.forall_mem_cons.mp h
    have hreturn : c ≠ '\r' := by
      rintro rfl
      exact absurd hc (by decide)
    rw [List.cons_append, lines.go.eq_3 line c _ fun _ heq => absurd heq hreturn, hc,
      if_neg Bool.false_ne_true, ih hfirst, List.reverse_cons, List.append_assoc,
      List.singleton_append]

theorem lines_flatMap {ls : List (List Char)} (h : ∀ l ∈ ls, ∀ c ∈ l, isLineEnd c = false) :
    lines (ls.flatMap fun l => l ++ ['\n']) = ls := by
  induction ls with
  | nil => rfl
  | cons l ls ih =>
    obtain ⟨hl, hls⟩ := List.forall_mem_cons.mp h
    have hfeed (line rest : List Char) :
        lines.go line ('\n' :: rest) = line.reverse :: lines.go [] rest := rfl
    rw [List.flatMap_cons, List.append_assoc, lines, lines_go_append hl, List.append_nil,
      List.singleton_append, hfeed, List.reverse_reverse]
    exact congrArg (l :: ·) (ih hls)

end Concordance.Text
