import Concordance.Occurrence
import Concordance.Text.Slice

/-! Hits: places of a stream of occurrences where a pattern was found. -/

namespace Concordance

/-- A text that occurrences come from. Equal texts are told apart by their identity. -/
structure Source where
  identity : Nat
  /-- The text, as an array because pieces of it are taken at any offset. -/
  characters : Array Char
  deriving DecidableEq, Repr

namespace Source

def ofText (identity : Nat) (text : String) : Source := ⟨identity, text.toList.toArray⟩

def piece (source : Source) (start stop : Int) : String :=
  String.ofList (Text.piece source.characters start stop)

@[simp] theorem piece_ofText (identity : Nat) (text : String) (start stop : Int) :
    (ofText identity text).piece start stop =
      String.ofList (Text.slice text.toList start stop) := by
  simp [ofText, piece, Text.piece_eq]

end Source

structure Hit where
  occurrences : List Occurrence
  /-- The index of the first occurrence. -/
  start : Int
  /-- The index behind the last occurrence. -/
  stop : Int
  name : Option String
  source : Option Source
  deriving DecidableEq, Repr

namespace Hit

structure ExtentMismatch where
  start : Int
  stop : Int
  size : Nat
  deriving DecidableEq, Repr

def ExtentMismatch.message (e : ExtentMismatch) : String :=
  "Match extent " ++ toString e.start ++ "-" ++ toString e.stop ++ " doesn't fit " ++
    toString e.size ++ " occurrences"

def ofExtent (occurrences : List Occurrence) (start stop : Int) (name : Option String)
    (source : Option Source) : Except ExtentMismatch Hit :=
  if stop - start = occurrences.length then .ok ⟨occurrences, start, stop, name, source⟩
  else .error ⟨start, stop, occurrences.length⟩

def size (hit : Hit) : Nat := hit.occurrences.length

/-- Whether an index lies in the extent and, where another one is given, whether the row behind the
first index that ends there does too. -/
def covers (hit : Hit) (index : Int) (stop : Option Int) : Bool :=
  decide (hit.start ≤ index ∧ index < hit.stop) &&
    match stop with
    | none => true
    | some stop => decide (hit.start < stop ∧ stop ≤ hit.stop)

def startOffset (hit : Hit) : Except MissingItem Int :=
  match hit.occurrences.head? with
  | some o => .ok o.start
  | none => .error .occurrence

def stopOffset (hit : Hit) : Except MissingItem Int :=
  match hit.occurrences.getLast? with
  | some o => .ok o.stop
  | none => .error .occurrence

def forms (hit : Hit) : List String := hit.occurrences.map Occurrence.orth

/-- The text from the first character to the last, all between them included. Without a source, the
forms with blanks between them. -/
def text (hit : Hit) : Except MissingItem String :=
  match hit.source with
  | none => .ok (" ".intercalate hit.forms)
  | some source => do
    let start ← hit.startOffset
    let stop ← hit.stopOffset
    return source.piece start stop

def display (hit : Hit) : Except MissingItem String := do
  let text ← hit.text
  let name := (hit.name.map fun name => "[" ++ name ++ "],").getD ""
  return "OccurrenceMatch(" ++ name ++ toString hit.start ++ "," ++ toString hit.stop ++ "," ++
    text ++ ")"

end Hit
end Concordance
