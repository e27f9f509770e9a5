/-! Tables over code points: rows of consecutive code points that share a value, in increasing
order, kept in blocks so that a lookup passes over most of the rows at once. -/

namespace Concordance.Text

/-- The code points from `first` to `last`, both included, and their common value. -/
structure CodeRow (α : Type) where
  first : Nat
  last : Nat
  value : α

/-- Rows in increasing order, each block behind the last code point that it answers for. -/
abbrev CodeTable (α : Type) := List (Nat × List (CodeRow α))

namespace CodeTable

/-- The row that holds a code point; the search ends at the first row that lies beyond it. -/
def rowIn {α : Type} : List (CodeRow α) → Nat → Option (CodeRow α)
  | [], _ => none
  | row :: rows, n =>
    if n < row.first then none else if n ≤ row.last then some row else rowIn rows n

def row? {α : Type} : CodeTable α → Nat → Option (CodeRow α)
  | [], _ => none
  | (last, rows) :: blocks, n => if n ≤ last then rowIn rows n else row? blocks n

def value? {α : Type} (table : CodeTable α) (n : Nat) : Option α :=
  (table.row? n).map CodeRow.value

theorem rowIn_eq_some {α : Type} {rows : List (CodeRow α)} {n : Nat} {row : CodeRow α}
    (h : rowIn rows n = some row) : row ∈ rows ∧ row.first ≤ n ∧ n ≤ row.last := by
  induction rows with
  | nil => cases h
  | cons here rows ih =>
    rw [rowIn] at h
    split at h
    · cases h
    split at h
    · cases h
      exact ⟨List.mem_cons_self, by omega, by omega⟩
    · exact ⟨List.mem_cons_of_mem _ (ih h).1, (ih h).2⟩

end CodeTable
end Concordance.Text
