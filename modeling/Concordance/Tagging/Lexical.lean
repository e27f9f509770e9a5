import Concordance.Category.Family
import Concordance.Lexicon.Lookup
import Concordance.Text.Digit

/-! Tagging by a lexicon. The longest locution that starts at an occurrence tags all that it spans;
an occurrence that starts none is tagged by its first character. -/

namespace Concordance.Tagging

def sentenceMarks : List Char := ['.', '?', '!', '…']

def clauseMarks : List Char := [',', ';', ':', '(', ')', '—', '–']

def punctuationCategory (first : Char) : Category :=
  if sentenceMarks.contains first then .ofName "PUNsent"
  else if clauseMarks.contains first then .ofName "PUNcl"
  else .ofName "PUN"

def punctuationCategoryOf (graph : String) : Except MissingItem Category :=
  match graph.toList with
  | [] => .error .character
  | first :: _ => .ok (punctuationCategory first)

def tagByCharacter (o : Occurrence) : Occurrence :=
  match o.orth.toList with
  | [] => o.withTags none (some Category.unknown)
  | first :: _ =>
    if Tokenizer.isPunctuation first then
      o.withTags (some o.orth) (some (punctuationCategory first))
    else if Text.isDigit first then o.withTags (some o.orth) (some Category.numeral)
    else if Text.isCapital first then o.withTags (some o.orth) (some (.ofName "NAME"))
    else o.withTags none (some Category.unknown)

def tagByEntry (entry : Lexicon.Entry) (o : Occurrence) : Occurrence :=
  o.withTags (some entry.headword) (some entry.category)

def startsWithPunctuation (o : Occurrence) : Bool :=
  match o.orth.toList with
  | [] => false
  | first :: _ => Tokenizer.isPunctuation first

def longestRun? (lexicon : Option Lexicon) (occurrences : List Occurrence) :
    Option (Nat × Lexicon.Entry) :=
  match lexicon, occurrences with
  | some lexicon, o :: _ =>
    if startsWithPunctuation o then none
    else lexicon.longestRunOf? Occurrence.orth occurrences
  | _, _ => none

/-- Tag a row of occurrences of which the first `left` belong to a locution already begun. -/
def tagFrom (lexicon : Option Lexicon) (left : Nat) (entry : Lexicon.Entry) :
    List Occurrence → List Occurrence
  | [] => []
  | o :: rest =>
    match left with
    | n + 1 => tagByEntry entry o :: tagFrom lexicon n entry rest
    | 0 =>
      match longestRun? lexicon (o :: rest) with
      | some (n + 1, found) => tagByEntry found o :: tagFrom lexicon n found rest
      | _ => tagByCharacter o :: tagFrom lexicon 0 entry rest

def tagByLexicon (lexicon : Option Lexicon) (occurrences : List Occurrence) : List Occurrence :=
  tagFrom lexicon 0 ⟨"", "", Category.null⟩ occurrences

end Concordance.Tagging
