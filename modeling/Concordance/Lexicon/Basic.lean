import Concordance.Lexicon.Forest
import Concordance.Text.Case
import Concordance.Tokenizer.Basic

/-! Lexicons: forms and locutions with their dictionary form and category, entered by their tokens.
-/

namespace Concordance

structure Lexicon where
  /-- Entries and the forms that are looked up are put in lowercase. -/
  caseInsensitive : Bool
  forest : Lexicon.Forest
  size : Nat
  deriving DecidableEq, Repr

namespace Lexicon

def empty (caseInsensitive : Bool) : Lexicon := ⟨caseInsensitive, .nil, 0⟩

inductive Tag
  | code (c : Category)
  | name (label : String)
  deriving DecidableEq, Repr

inductive Error
  | unknownCategory (name form : String)
  | emptyEntry
  | malformedLine (number : Nat) (name line : String)
  deriving DecidableEq, Repr

def Error.message : Error → String
  | .unknownCategory name form =>
    "Unknown category '" ++ name ++ "' for lexicon entry '" ++ form ++ "'"
  | .emptyEntry => "Empty lexicon entry"
  | .malformedLine number name line =>
    "Malformed lexicon line " ++ toString number ++ " in " ++ name ++ ": '" ++ line ++ "'"

def Tag.resolve (form : String) : Tag → Except Error Category
  | .code c => .ok c
  | .name label =>
    match Category.ofName? label with
    | some c => .ok c
    | none => .error (.unknownCategory label form)

/-- The tokens of a form, every character of which counts. -/
def tokens (form : String) : List String :=
  (Tokenizer.ofText form.toList 0 none .plain).occurrences.map Occurrence.orth

def key (lexicon : Lexicon) (form : String) : String :=
  if lexicon.caseInsensitive then Text.lower form else form

/-- The lexicon with an entry put in place of any earlier one with the same tokens. An empty
headword means the form itself. -/
def add (lexicon : Lexicon) (form headword : String) (tag : Tag) : Except Error Lexicon := do
  let category ← tag.resolve form
  let row := tokens (lexicon.key form)
  if row.isEmpty then throw .emptyEntry
  let form := " ".intercalate row
  let entry : Entry := ⟨form, if headword.isEmpty then form else headword, category⟩
  return { lexicon with
    forest := lexicon.forest.insert entry row
    size := if (lexicon.forest.lookup? row).isSome then lexicon.size else lexicon.size + 1 }

def addAll (lexicon : Lexicon) : List (String × String × Tag) → Lexicon × Option Error
  | [] => (lexicon, none)
  | (form, headword, tag) :: rest =>
    match lexicon.add form headword tag with
    | .ok lexicon => lexicon.addAll rest
    | .error e => (lexicon, some e)

def fields (line : List Char) : List String :=
  go [] line
where
  /-- `field` holds the characters of the piece in progress, last first. -/
  go (field : List Char) : List Char → List String
    | [] => [String.ofList (Text.strip field.reverse)]
    | c :: rest =>
      if c = ';' then String.ofList (Text.strip field.reverse) :: go [] rest
      else go (c :: field) rest

/-- Add what one line says: a form, then a headword and a category, both of which may be left out. A
blank line says nothing, and neither does one that starts with a hash. -/
def addLine (lexicon : Lexicon) (number : Nat) (name line : String) : Except Error Lexicon :=
  let line := Text.strip line.toList
  if line.isEmpty || line.head? = some '#' then .ok lexicon
  else
    let fields := fields line
    if fields.length > 3 then .error (.malformedLine number name (String.ofList line))
    else
      let category := fields.getD 2 ""
      lexicon.add (fields.getD 0 "") (fields.getD 1 "")
        (if category.isEmpty then .code Category.unknown else .name category)

def addLines (lexicon : Lexicon) (number : Nat) (name : String) :
    List String → Lexicon × Option Error
  | [] => (lexicon, none)
  | line :: rest =>
    match lexicon.addLine number name line with
    | .ok lexicon => lexicon.addLines (number + 1) name rest
    | .error e => (lexicon, some e)

def load (lexicon : Lexicon) (name : String) (lines : List String) : Lexicon × Option Error :=
  lexicon.addLines 1 name lines

end Lexicon
end Concordance
