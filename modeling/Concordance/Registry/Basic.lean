import Concordance.Matcher.Scan
import Concordance.Named
import Concordance.Pattern.Compile
import Concordance.Tagging.Tagger
import Concordance.Tokenizer.Sequence

/-! Registries of named patterns, and their use on texts: a text is cut into occurrences, which are
tagged if there is a tagger and then searched. -/

namespace Concordance

/-- Named patterns in the order of their definition, and how texts are read for them. -/
structure Registry where
  lexicon : Option Lexicon
  tagger : Option Tagger
  /-- A name that has a pattern is not given another. -/
  keepsDefinitions : Bool
  options : Tokenizer.Options
  patterns : Named Pattern

namespace Registry

inductive Error
  | compile (e : Pattern.CompileError)
  | alreadyDefined (name : String)
  | malformedStatement (number : Nat) (line : String)
  | unknownPattern (name : String)
  deriving DecidableEq, Repr

def Error.message : Error → String
  | .compile e => e.message
  | .alreadyDefined name => "Pattern '" ++ name ++ "' is already defined"
  | .malformedStatement number line =>
    "Line " ++ toString number ++ ": not a 'name -> pattern' statement: '" ++ line ++ "'"
  | .unknownPattern name => "Unknown pattern '" ++ name ++ "'"

def empty (lexicon : Option Lexicon) (tagger : Option Tagger) (keepsDefinitions : Bool)
    (options : Tokenizer.Options) : Registry :=
  ⟨lexicon, tagger, keepsDefinitions, options, []⟩

def names (r : Registry) : List String := r.patterns.names

def display (r : Registry) : String := "GrepManager(" ++ toString r.patterns.length ++ " patterns)"

/-! ## Definitions -/

def add (r : Registry) (name source : String) : Except Error (Pattern × Registry) :=
  if r.keepsDefinitions && (r.patterns.get? name).isSome then .error (.alreadyDefined name)
  else
    match Pattern.compile r.lexicon source with
    | .ok p => .ok (p, { r with patterns := r.patterns.put name p })
    | .error e => .error (.compile e)

/-- Forget the patterns of some names, or all patterns if no name is given. -/
def forget (r : Registry) (names : List String) : Registry :=
  { r with patterns := if names.isEmpty then [] else r.patterns.without names }

def lookup (r : Registry) (name : String) : Except Error Pattern :=
  match r.patterns.get? name with
  | some p => .ok p
  | none => .error (.unknownPattern name)

/-! ## Searching texts -/

def occurrences (r : Registry) (text : String) (start : Int) (stop : Option Int) :
    List Occurrence :=
  let occurrences := (TokenSequence.ofText text start stop r.options).occurrences
  match r.tagger with
  | none => occurrences
  | some tagger => tagger.tag text occurrences

def sequence (r : Registry) (text : String) (start : Int) (stop : Option Int) : TokenSequence :=
  ⟨text, r.occurrences text start stop⟩

def hitsIn (r : Registry) (name : String) (stream : List Occurrence) (source : Option Source) :
    Except Error (List Hit) :=
  (r.lookup name).map fun p => p.hits stream (some name) source

def sourceOf (text : String) : Source := .ofText 0 text

def scan (r : Registry) (name text : String) (start : Int) (stop : Option Int) :
    Except Error (List Hit) :=
  r.hitsIn name (r.occurrences text start stop) (some (sourceOf text))

def search (r : Registry) (name text : String) (start : Int) (stop : Option Int) :
    Except Error (Option Hit) :=
  (r.lookup name).map fun p =>
    p.firstHit? (r.occurrences text start stop) (some name) (some (sourceOf text))

def count (r : Registry) (name text : String) : Except Error Nat :=
  (r.scan name text 0 none).map List.length

end Registry
end Concordance
