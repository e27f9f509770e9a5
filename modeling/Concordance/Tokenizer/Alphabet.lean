import Concordance.Text.CharClass

/-! The characters of words and the vocabularies that cut words in French. -/

namespace Concordance.Tokenizer

open Text

/-- Characters inside words that are punctuation by their class. -/
def wordPunctuation : List Char := ['-', '\x27', '’', '_']

def isApostrophe (c : Char) : Bool := c == '\x27' || c == '’'

/-- White space and control characters. -/
def isSpace (c : Char) : Bool :=
  match CharClass.of c with
  | .separator | .control => true
  | _ => false

def isPunctuation (c : Char) : Bool :=
  !wordPunctuation.contains c && CharClass.of c == .punctuation

def isLetter (c : Char) : Bool := CharClass.of c == .letter

def isWord (c : Char) : Bool :=
  wordPunctuation.contains c ||
    match CharClass.of c with
    | .letter | .mark | .number => true
    | _ => false

/-- Words that an apostrophe elides: the word is cut right behind the apostrophe (qu'il). -/
def elisions : List (List Char) :=
  ["c", "C", "d", "D", "j", "J", "jusqu", "Jusqu", "l", "L", "lorsqu", "Lorsqu", "m", "M", "n", "N",
    "puisqu", "Puisqu", "qu", "Qu", "quoiqu", "Quoiqu", "s", "S", "t", "T"].map String.toList

def isElision (before : List Char) : Bool := elisions.any fun word => word.reverse == before

theorem isElision_eq (before : List Char) :
    isElision before = elisions.contains before.reverse := by
  rw [isElision, List.contains_eq_any_beq]
  congr 1
  funext word
  rw [Bool.eq_iff_iff, beq_iff_eq, beq_iff_eq]
  constructor <;> rintro rfl <;> rw [List.reverse_reverse]

/-- Words that a hyphen detaches from the verb before it (direz-vous). -/
def enclitics : List (List Char) :=
  ["ce", "ci", "elle", "elles", "en", "eux", "il", "ils", "je", "Je", "la", "là", "le", "les",
    "leur", "lui", "m'", "me", "moi", "nous", "on", "t", "te", "toi", "tu", "vous",
    "y"].map String.toList

/-- The token of the t between a verb and its subject pronoun (donne-t-il). -/
def euphonicT : List Char := ['-', 't', '-']

def headerEnd : List Char := "</teiHeader>".toList

/-! The classes exclude each other, so that a run of one ends where another begins. -/

theorem not_isPunctuation_of_isSpace {c : Char} (h : isSpace c) : isPunctuation c = false := by
  unfold isSpace at h
  unfold isPunctuation
  cases hc : CharClass.of c <;> simp_all

theorem not_isLetter_of_isSpace {c : Char} (h : isSpace c) : isLetter c = false := by
  unfold isSpace at h
  unfold isLetter
  cases hc : CharClass.of c <;> simp_all

theorem isWord_of_isLetter {c : Char} (h : isLetter c) : isWord c := by
  unfold isLetter at h
  unfold isWord
  cases hc : CharClass.of c <;> simp_all

theorem not_isPunctuation_of_isWord {c : Char} (h : isWord c) : isPunctuation c = false := by
  unfold isWord at h
  unfold isPunctuation
  cases hw : wordPunctuation.contains c <;> cases hc : CharClass.of c <;> simp_all

theorem not_isSpace_of_isLetter {c : Char} (h : isLetter c) : isSpace c = false := by
  unfold isLetter at h
  unfold isSpace
  cases hc : CharClass.of c <;> simp_all

theorem isSpace_blank : isSpace ' ' := by decide

end Concordance.Tokenizer
