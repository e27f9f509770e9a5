import Concordance.Occurrence
import Concordance.Text.Slice
import Concordance.Tokenizer.Alphabet

/-! The tokenizer: a cursor that moves forward over a text and cuts one occurrence at a time.

The cursor keeps the characters from its place up to the end bound, closed by one blank that ends
any token in progress. Each reading step is `none` exactly where it would read behind that blank. -/

namespace Concordance

namespace Tokenizer

structure Options where
  /-- Pass over what stands between angle brackets. -/
  markup : Bool
  /-- Begin behind the header of a TEI document. -/
  skipHeader : Bool
  deriving DecidableEq, Repr

/-- Options as given, each on unless it is switched off. -/
def Options.ofSettings (markup skipHeader : Option Bool) : Options :=
  ⟨markup.getD true, skipHeader.getD true⟩

def Options.plain : Options := ⟨false, false⟩

end Tokenizer

structure Tokenizer where
  markup : Bool
  /-- The offset behind the last character that may belong to a token. -/
  stop : Int
  /-- The offset of the first character of `rest`. -/
  pointer : Nat
  /-- The stored characters from the pointer on, the closing blank last. -/
  rest : List Char
  inMarkup : Bool
  deriving DecidableEq, Repr

namespace Tokenizer

/-- The end bound for a text of `length` characters: never behind the text. -/
def bound (length : Nat) (stop : Option Int) : Int :=
  match stop with
  | none => length
  | some stop => min stop length

/-- The offset at which cutting begins: that asked for, or the end of the header if that lies
behind. -/
def firstPointer (text : List Char) (start : Int) (stop : Int) (skipHeader : Bool) : Nat :=
  match if skipHeader then Text.find? headerEnd (Text.slice text 0 stop) else none with
  | some found => max start.toNat (found + headerEnd.length)
  | none => start.toNat

def ofText (text : List Char) (start : Int) (stop : Option Int) (options : Options) : Tokenizer :=
  let stop := bound text.length stop
  let pointer := firstPointer text start stop options.skipHeader
  { markup := options.markup
    stop := stop
    pointer := pointer
    rest := (Text.slice text 0 stop ++ [' ']).drop pointer
    inMarkup := false }

def skip (markup : Bool) (stop : Int) :
    Nat → Bool → List Char → Option (Nat × Bool × List Char)
  | pointer, inMarkup, [] => if pointer < stop then none else some (pointer, inMarkup, [])
  | pointer, inMarkup, c :: rest =>
    if pointer < stop then
      if inMarkup then skip markup stop (pointer + 1) (c != '>') rest
      else if markup && c == '<' then skip markup stop (pointer + 1) true rest
      else if isSpace c then skip markup stop (pointer + 1) false rest
      else some (pointer, false, c :: rest)
    else some (pointer, inMarkup, c :: rest)

def punctuationRun : List Char → Option (List Char × List Char)
  | [] => none
  | c :: rest =>
    if isPunctuation c then
      (punctuationRun rest).map fun (run, rest) => (c :: run, rest)
    else some ([], c :: rest)

/-- Whether an enclitic word follows, `word` being its letters read so far, last first. The euphonic
t counts if an enclitic follows it in turn; a word that goes on behind its letters is none. -/
def encliticFrom (word : List Char) : List Char → Option Bool
  | [] => none
  | c :: rest =>
    if isLetter c then encliticFrom (c :: word) rest
    else if isApostrophe c then some (enclitics.contains (word.reverse ++ ['\x27']))
    else if word == ['t'] && c == '-' then encliticFrom [] rest
    else if isWord c then some false
    else some (enclitics.contains word.reverse)

def encliticAfter (rest : List Char) : Option Bool := encliticFrom [] rest

def breaksWord (markup : Bool) (c : Char) : Bool :=
  isSpace c || isPunctuation c || (markup && c == '<')

/-- The characters up to the end of the word in progress, and what follows them; `before` holds the
characters of the word read so far, last first. -/
def wordRun (markup : Bool) (before : List Char) : List Char → Option (List Char × List Char)
  | [] => none
  | c :: rest =>
    if isApostrophe c && isElision before then some ([c], rest)
    else
      match if c == '-' then encliticAfter rest else some false with
      | none => none
      | some true =>
        if !before.isEmpty then some ([], c :: rest)
        else if euphonicT.isPrefixOf (c :: rest) then some (euphonicT, rest.drop 2)
        else some ([c], rest)
      | some false =>
        match rest with
        | [] => none
        | d :: _ =>
          if breaksWord markup d then some ([c], rest)
          else (wordRun markup (c :: before) rest).map fun (run, rest) => (c :: run, rest)

def cut (markup : Bool) : List Char → Option (List Char × List Char)
  | [] => none
  | c :: rest =>
    if isPunctuation c then punctuationRun (c :: rest) else wordRun markup [] (c :: rest)

def next? (t : Tokenizer) : Option (Option Occurrence × Tokenizer) :=
  match skip t.markup t.stop t.pointer t.inMarkup t.rest with
  | none => none
  | some (start, inMarkup, rest) =>
    if start < t.stop then
      match cut t.markup rest with
      | none => none
      | some (graph, rest) =>
        some (some (Occurrence.untagged (String.ofList graph) start),
          { t with pointer := start + graph.length, rest := rest, inMarkup := inMarkup })
    else some (none, { t with pointer := start, rest := rest, inMarkup := inMarkup })

/-- The next occurrence, if there is one, and the tokenizer behind it. A tokenizer over a text never
reads behind its closing blank, so nothing is lost here. -/
def next (t : Tokenizer) : Option Occurrence × Tokenizer := t.next?.getD (none, t)

def take : Nat → Tokenizer → List Occurrence
  | 0, _ => []
  | n + 1, t =>
    match t.next with
    | (some o, t) => o :: take n t
    | (none, _) => []

/-- All remaining occurrences. Each takes a character at least. -/
def occurrences (t : Tokenizer) : List Occurrence := t.take t.rest.length

end Tokenizer
end Concordance
