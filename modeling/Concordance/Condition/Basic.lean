import Concordance.Category.Set
import Concordance.Condition.Glob
import Concordance.Occurrence

/-! Conditions on one occurrence: the terms of a pattern. -/

namespace Concordance

inductive FormReading
  | plain
  /-- Stars stand for any run of characters. -/
  | glob
  /-- Every character for itself, between quotes in a pattern. -/
  | quoted
  deriving DecidableEq, Repr

inductive Condition
  | any
  /-- Any occurrence, as long as no more than the budget are passed over before the next term. -/
  | gap (budget : Int)
  /-- This category and no other. -/
  | category (code : Category) (quoted : Bool)
  /-- A category whose family has this code. -/
  | family (code : Category)
  | oneOf (set : CategorySet) (names : List String)
  | form (text : String) (reading : FormReading)
  | headword (text : String)
  | both (left right : Condition)
  | either (alternatives : List Condition)

namespace Condition

def defaultBudget : Int := 5

/-- A condition on the form. It is a glob only if globs are wanted, it is not quoted, and it has a
star. -/
def ofForm (text : String) (globs quoted : Bool) : Condition :=
  .form text
    (if quoted then .quoted else if globs && text.toList.contains '*' then .glob else .plain)

def ofFamily (c : Category) : Condition := .family c.family

/-- The condition that a category's name stands for: that code, or its family if it marks one. -/
def ofCategory (c : Category) : Condition :=
  if c.isFamilyMarker then ofFamily c else .category c false

def isGap : Condition → Bool
  | .gap _ => true
  | _ => false

mutual

/-- Whether an occurrence meets a condition. A gap by itself accepts anything. -/
def accepts (o : Occurrence) : Condition → Bool
  | .any => true
  | .gap _ => true
  | .category code _ => o.category == code
  | .family code => o.category.family == code
  | .oneOf set _ => set.contains o.category
  | .form text .glob => Glob.covers text.toList o.orth.toList
  | .form text _ => o.orth == text
  | .headword text => o.headword == text
  | .both left right => accepts o left && accepts o right
  | .either alternatives => acceptsAny o alternatives

def acceptsAny (o : Occurrence) : List Condition → Bool
  | [] => false
  | condition :: rest => accepts o condition || acceptsAny o rest

end

theorem acceptsAny_eq_any (o : Occurrence) (conditions : List Condition) :
    acceptsAny o conditions = conditions.any (accepts o) := by
  induction conditions with
  | nil => rfl
  | cons condition rest ih => simp [acceptsAny, ih]

@[simp] theorem accepts_either (o : Occurrence) (conditions : List Condition) :
    accepts o (.either conditions) = conditions.any (accepts o) := by
  rw [accepts, acceptsAny_eq_any]

private def inQuotes (s : String) : String := "\x22" ++ s ++ "\x22"

mutual

def display : Condition → String
  | .any => "*"
  | .gap budget => if budget = defaultBudget then "**" else "**" ++ toString budget
  | .category code quoted =>
    let label := code.label
    let name := if label.isEmpty then "NULL" else label
    if quoted then inQuotes name else name
  | .family code => code.label
  | .oneOf _ names => "[" ++ " ".intercalate names ++ "]"
  | .form text .quoted => inQuotes text
  | .form text _ => text
  | .headword text => text
  | .both left right => display left ++ "/" ++ display right
  | .either alternatives => "(" ++ ", ".intercalate (displayAll alternatives) ++ ")"

def displayAll : List Condition → List String
  | [] => []
  | condition :: rest => display condition :: displayAll rest

end

def kind : Condition → String
  | .any => "ANY"
  | .gap _ => "GAP"
  | .category _ _ => "TAG"
  | .family _ => "GROUP"
  | .oneOf _ _ => "FILTER"
  | .form _ .glob => "GLOB"
  | .form _ _ => "FORM"
  | .headword _ => "LEM"
  | .both _ _ => "AND"
  | .either _ => "OR"

mutual

/-- The forms and headwords that a condition spells out, each once, in the order of first mention.
-/
def literals : Condition → List String
  | .form _ .glob => []
  | .form text _ => [text]
  | .headword text => [text]
  | .both left _ => literals left
  | .either alternatives => (literalsOfAll alternatives).eraseDups
  | _ => []

def literalsOfAll : List Condition → List String
  | [] => []
  | condition :: rest => literals condition ++ literalsOfAll rest

end

end Condition
end Concordance
