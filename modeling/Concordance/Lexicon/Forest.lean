import Concordance.Category.Basic

/-! Trees of tokens. A path from the root spells a row of tokens; the entry for that row stands at
the end of the path, so that rows with a common beginning share it. -/

namespace Concordance.Lexicon

/-- A form or locution with its tags. The form is its tokens with blanks between them. -/
structure Entry where
  form : String
  headword : String
  category : Category
  deriving DecidableEq, Repr

/-- The trees below one place: a first token with what stands there, the trees below it, and the
trees beside it. -/
inductive Forest
  | nil
  | cons (token : String) (entry : Option Entry) (below beside : Forest)
  deriving DecidableEq, Repr

namespace Forest

def find? : Forest → String → Option (Option Entry × Forest)
  | nil, _ => none
  | cons here entry below beside, token =>
    if here = token then some (entry, below) else beside.find? token

def place (forest : Forest) (token : String) : Option Entry × Forest :=
  (forest.find? token).getD (none, nil)

def path (entry : Entry) : List String → Forest
  | [] => nil
  | token :: rest => cons token (if rest.isEmpty then some entry else none) (path entry rest) nil

def insert (entry : Entry) : Forest → List String → Forest
  | forest, [] => forest
  | nil, row => path entry row
  | cons here old below beside, token :: rest =>
    if here = token then
      cons here (if rest.isEmpty then some entry else old) (insert entry below rest) beside
    else cons here old below (insert entry beside (token :: rest))

def lookup? (forest : Forest) : List String → Option Entry
  | [] => none
  | token :: rest =>
    if rest.isEmpty then (forest.place token).1 else (forest.place token).2.lookup? rest

@[simp] theorem insert_nil_row (entry : Entry) (forest : Forest) :
    insert entry forest [] = forest := by
  cases forest <;> rfl

theorem insert_nil (entry : Entry) (row : List String) : insert entry nil row = path entry row := by
  cases row <;> rfl

theorem find?_insert (entry : Entry) (forest : Forest) (token other : String) (rest : List String) :
    (insert entry forest (token :: rest)).find? other =
      if token = other then
        some (if rest.isEmpty then some entry else (forest.place token).1,
          insert entry (forest.place token).2 rest)
      else forest.find? other := by
  induction forest with
  | nil => simp [insert, path, place, find?, insert_nil]
  | cons here old below beside _ ih =>
    by_cases ht : here = token
    · subst ht
      by_cases ho : here = other <;> simp [insert, place, find?, ho]
    · by_cases ho : here = other
      · subst ho
        simp [insert, find?, ht, Ne.symm ht]
      · simp [insert, place, find?, ht, ho, ih]

/-- The entry put at a row is found there, and every other row keeps its own. -/
theorem lookup?_insert (entry : Entry) (forest : Forest) (row other : List String) (h : row ≠ []) :
    (insert entry forest row).lookup? other =
      if row = other then some entry else forest.lookup? other := by
  induction row generalizing forest other with
  | nil => exact absurd rfl h
  | cons token rest ih =>
    match other with
    | [] => simp [lookup?]
    | t :: more =>
      by_cases ht : token = t
      · subst ht
        have at_token : (insert entry forest (token :: rest)).place token =
            (if rest.isEmpty then some entry else (forest.place token).1,
              insert entry (forest.place token).2 rest) := by
          simp [place, find?_insert]
        simp only [lookup?, at_token]
        cases rest with
        | nil => cases more <;> simp
        | cons u tail =>
          rw [ih _ _ (List.cons_ne_nil u tail)]
          cases more <;> simp
      · have elsewhere : (insert entry forest (token :: rest)).place t = forest.place t := by
          simp [place, find?_insert, ht]
        simp [lookup?, elsewhere, ht]

/-- The entries on the way down along the tokens of some items, each with the number of items up to
it, of which `passed` lie behind. -/
def runs {α : Type} (token : α → String) (passed : Nat) : Forest → List α → List (Nat × Entry)
  | _, [] => []
  | forest, item :: rest =>
    match forest.find? (token item) with
    | none => []
    | some (entry, below) =>
      (entry.map fun e => (passed + 1, e)).toList ++ runs token (passed + 1) below rest

theorem runs_map {α β : Type} (token : β → String) (f : α → β) (passed : Nat) (forest : Forest)
    (items : List α) :
    runs token passed forest (items.map f) = runs (fun a => token (f a)) passed forest items := by
  induction items generalizing passed forest with
  | nil => rfl
  | cons item rest ih => simp [runs, ih]

def follows (key : String → String) : Forest → List String → Bool
  | _, [] => true
  | forest, token :: rest =>
    match forest.find? (key token) with
    | none => false
    | some (_, below) => follows key below rest

end Forest
end Concordance.Lexicon
