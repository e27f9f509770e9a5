import Concordance.Occurrence
import Concordance.Text.Case

/-! Tagging by the morphological analysis of a text. The analysis has tokens of its own; an
occurrence takes its tags from the first of them that overlaps it. -/

namespace Concordance

namespace Analysis

structure Token where
  text : String
  offset : Int
  partOfSpeech : String
  headword : String
  features : List (String × List String)
  /-- The token is white space and tags nothing. -/
  isSpace : Bool
  deriving DecidableEq, Repr

def Token.stop (t : Token) : Int := t.offset + t.text.length

def universal : List (String × String) := [
  ("ADJ", "ADJ"), ("ADP", "PREP"), ("ADV", "ADV"), ("AUX", "VERBaux"), ("CCONJ", "CONJcoord"),
  ("DET", "DET"), ("INTJ", "EXCL"), ("NOUN", "SUB"), ("NUM", "NUM"), ("PART", "ADVneg"),
  ("PRON", "PRO"), ("PROPN", "NAME"), ("PUNCT", "PUN"), ("SCONJ", "CONJsubord"), ("SYM", "MATH"),
  ("VERB", "VERB"), ("X", "MISC"), ("SPACE", "NULL")]

def determinerKinds : List (String × String) :=
  [("Art", "DETart"), ("Dem", "DETdem"), ("Int", "DETinter"), ("Ind", "DETindef")]

def pronounKinds : List (String × String) :=
  [("Prs", "PROpers"), ("Rel", "PROrel"), ("Int", "PROint"), ("Dem", "PROdem"), ("Ind", "PROindef")]

def refineByKind (features : String → List String) (possessive : String)
    (kinds : List (String × String)) : Option String :=
  if (features "Poss").contains "Yes" then some possessive
  else (features "PronType").findSome? fun kind => kinds.lookup kind

def refine (partOfSpeech : String) (features : String → List String) : Option String :=
  if partOfSpeech = "VERB" then
    if !(features "VerbForm").contains "Part" then none
    else if (features "Tense").contains "Past" then some "VERBppass"
    else if (features "Tense").contains "Pres" then some "VERBppres"
    else none
  else if partOfSpeech = "DET" then refineByKind features "DETposs" determinerKinds
  else if partOfSpeech = "PRON" then refineByKind features "PROposs" pronounKinds
  else if partOfSpeech = "NUM" then
    if (features "NumType").contains "Ord" then some "NUMord"
    else if (features "NumType").contains "Card" then some "NUMcard"
    else none
  else none

/-- The category for a part of speech and features, of which the missing ones have no values. A part
of speech that is not universal leaves the category unresolved. -/
def category (partOfSpeech : String) (features : List (String × List String)) : Category :=
  let refined := refine partOfSpeech fun name => (features.lookup name).getD []
  match refined.or (universal.lookup partOfSpeech) with
  | some name => .ofName name
  | none => .unknown

def Token.category (t : Token) : Category := Analysis.category t.partOfSpeech t.features

/-- The first token that overlaps each occurrence. Both rows are in the order of the text, so that a
token that ends before one occurrence starts is of no use to the later ones either. -/
def align : List Token → List Occurrence → List (Option Token)
  | _, [] => []
  | tokens, o :: rest =>
    let tokens := tokens.dropWhile fun t => t.stop ≤ o.start
    (tokens.head?.filter fun t => t.offset < o.stop) :: align tokens rest

/-- An occurrence with the tags of the token that overlaps it. Without one its headword stays. -/
def tagByToken (o : Occurrence) : Option Token → Occurrence
  | some t => o.withTags (some (Text.lower t.headword)) (some t.category)
  | none => o.withTags none (some Category.unknown)

def tag (tokens : List Token) (occurrences : List Occurrence) : List Occurrence :=
  List.zipWith tagByToken occurrences (align (tokens.filter fun t => !t.isSpace) occurrences)

end Analysis
end Concordance
