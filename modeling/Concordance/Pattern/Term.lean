import Concordance.Condition.Basic
import Concordance.Lexicon.Lookup
import Concordance.Pattern.Fault
import Concordance.Text.Digit

/-! The terms of a pattern: the condition that one lexeme stands for. -/

namespace Concordance.Pattern

namespace Lexeme

def refuse {α : Type} (lexeme : Lexeme) (fault : Fault) : Except Refusal α := .error ⟨fault, lexeme⟩

def categoryNamed (lexeme : Lexeme) (name : String) : Except Refusal Category :=
  match Category.ofName? name with
  | some c => .ok c
  | none => .error ⟨.unknownCategory, ⟨name, lexeme.position⟩⟩

/-- A quoted text, `rest` being what follows its first quote: the category of that name and no other
of its family, or else the form. -/
def quotedTerm (lexeme : Lexeme) (rest : List Char) : Except Refusal Condition :=
  if rest.getLast? ≠ some '\x22' then lexeme.refuse .unterminatedQuote
  else
    let literal := String.ofList rest.dropLast
    if literal.isEmpty then lexeme.refuse .emptyQuote
    else
      match Category.ofName? literal with
      | some c => .ok (.category c true)
      | none => .ok (Condition.ofForm literal true true)

/-- The set of some categories; the marker of a family stands for the whole family. -/
def categorySet (codes : List Category) : CategorySet :=
  codes.foldl (fun s c => if c.isFamilyMarker then s.insertFamily c else s.insert c) .empty

def listTerm (lexeme : Lexeme) (rest : List Char) : Except Refusal Condition :=
  if rest.getLast? ≠ some ']' then lexeme.refuse .unterminatedList
  else
    let names := (Text.words rest.dropLast).map String.ofList
    if names.isEmpty then lexeme.refuse .emptyList
    else do
      let codes ← names.mapM lexeme.categoryNamed
      return .oneOf (categorySet codes) names

/-- The budget of a gap, if a word is one: two stars and perhaps a number. -/
def gapBudget? : List Char → Option Int
  | '*' :: '*' :: digits =>
    if digits.isEmpty then some Condition.defaultBudget
    else (Text.decimalNumber? digits).map Int.ofNat
  | _ => none

/-- The parts of a word around its last slash, if a slash stands inside it. -/
def splitAtSlash? (word : List Char) : Option (String × String) :=
  let inner := (word.dropWhile (· == '/')).reverse.dropWhile (· == '/')
  if inner.contains '/' then
    let back := word.reverse
    some (String.ofList ((back.dropWhile (· != '/')).drop 1).reverse,
      String.ofList (back.takeWhile (· != '/')).reverse)
  else none

def isHeadword (lexicon : Option Lexicon) (word : String) : Bool :=
  match lexicon with
  | none => false
  | some lexicon => !word.toList.contains '*' && lexicon.headword? word == some word

/-- Signs of glob languages that this one does not have. -/
def foreignGlobSigns : List Char := ['?', '[', ']', '\x7b', '\x7d']

/-- A word: a wildcard, a gap, a form with a category, a category, a headword, or else a form. -/
def wordTerm (lexicon : Option Lexicon) (lexeme : Lexeme) : Except Refusal Condition :=
  let word := lexeme.text.toList
  if word = ['*'] then .ok .any
  else
    match gapBudget? word with
    | some budget => .ok (.gap budget)
    | none =>
      if ['*', '*', '*'].isPrefixOf word || word.any foreignGlobSigns.contains then
        lexeme.refuse .unknownGlob
      else
        match splitAtSlash? word with
        | some (form, name) => do
          let c ← lexeme.categoryNamed name
          return .both (Condition.ofForm form true false) (Condition.ofCategory c)
        | none =>
          match Category.ofName? lexeme.text with
          | some c => .ok (Condition.ofCategory c)
          | none =>
            if isHeadword lexicon lexeme.text then .ok (.headword lexeme.text)
            else .ok (Condition.ofForm lexeme.text true false)

def term (lexicon : Option Lexicon) (lexeme : Lexeme) : Except Refusal Condition :=
  match lexeme.text.toList with
  | '\x22' :: rest => lexeme.quotedTerm rest
  | '[' :: rest => lexeme.listTerm rest
  | _ => lexeme.wordTerm lexicon

end Lexeme
end Concordance.Pattern
