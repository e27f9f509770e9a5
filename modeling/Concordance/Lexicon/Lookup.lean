import Concordance.Lexicon.Basic
import Concordance.Text.Slice

/-! Looking up single words, and the locutions that start at a place in a row of forms. -/

namespace Concordance.Lexicon

/-- The entry of a single word. Where case counts, a form without an entry is tried in lowercase. -/
def lookup? (lexicon : Lexicon) (form : String) : Option Entry :=
  match lexicon.forest.find? (lexicon.key form) with
  | some (some entry, _) => some entry
  | _ =>
    if lexicon.caseInsensitive then none
    else (lexicon.forest.find? (Text.lower form)).bind Prod.fst

def contains (lexicon : Lexicon) (form : String) : Bool := (lexicon.lookup? form).isSome

def headword? (lexicon : Lexicon) (form : String) : Option String :=
  (lexicon.lookup? form).map Entry.headword

def category (lexicon : Lexicon) (form : String) : Category :=
  ((lexicon.lookup? form).map Entry.category).getD Category.unknown

/-- What stands at the first form of a row. Where case counts, a form that begins no entry is tried
in lowercase, as it may be capitalised only for beginning a sentence. -/
def first? (lexicon : Lexicon) (form : String) : Option (Option Entry × Forest) :=
  match lexicon.forest.find? (lexicon.key form) with
  | some found => some found
  | none =>
    if lexicon.caseInsensitive then none else lexicon.forest.find? (Text.lower form)

/-- The entries that the forms of the first items of a row spell, shortest first, each with its
number of items. -/
def runsOf {α : Type} (lexicon : Lexicon) (form : α → String) : List α → List (Nat × Entry)
  | [] => []
  | item :: rest =>
    match lexicon.first? (form item) with
    | none => []
    | some (entry, below) =>
      (entry.map fun e => (1, e)).toList ++ below.runs (fun item => lexicon.key (form item)) 1 rest

def runs (lexicon : Lexicon) (forms : List String) : List (Nat × Entry) := lexicon.runsOf id forms

theorem runsOf_eq {α : Type} (lexicon : Lexicon) (form : α → String) (items : List α) :
    lexicon.runsOf form items = lexicon.runs (items.map form) := by
  cases items <;> simp [runs, runsOf, Forest.runs_map]

def longestRunOf? {α : Type} (lexicon : Lexicon) (form : α → String) (items : List α) :
    Option (Nat × Entry) :=
  (lexicon.runsOf form items).getLast?

def follows (lexicon : Lexicon) : List String → Bool
  | [] => true
  | form :: rest =>
    match lexicon.first? form with
    | none => false
    | some (_, below) => below.follows lexicon.key rest

/-- The forms at the indices from `index` on, up to the last; an index below zero counts from the
end, and zero follows it. -/
def formsFrom (forms : List String) (index : Int) : List String :=
  if index < 0 then
    if index + forms.length < 0 then [] else forms.drop (index + forms.length).toNat ++ forms
  else forms.drop index.toNat

/-- The entries that the forms spell from an index on, each with the index behind its last form. The
forms are read one by one, up to the bound, for as long as they begin an entry; it is a fault to get
to an index without a form. -/
def matchesAt (lexicon : Lexicon) (forms : List String) (index : Int) (stop : Option Int) :
    Except MissingItem (List (Int × Entry)) :=
  let count := (stop.getD forms.length - index).toNat
  let row := formsFrom forms index
  if row.length < count && lexicon.follows row then .error .form
  else .ok ((lexicon.runs (row.take count)).map fun (n, entry) => (index + n, entry))

def longestAt (lexicon : Lexicon) (forms : List String) (index : Int) :
    Except MissingItem (Option (Int × Entry)) :=
  (lexicon.matchesAt forms index none).map List.getLast?

end Concordance.Lexicon
