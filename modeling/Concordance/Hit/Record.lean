import Concordance.Hit.Basic
import Concordance.Text.Quoted

/-! Hits as records on one line of JSON. -/

namespace Concordance.Hit

def object (fields : List (String × String)) : String :=
  let written := fields.map fun (key, value) => Text.Quoted.encode key ++ ": " ++ value
  "\x7b" ++ ", ".intercalate written ++ "\x7d"

def array (values : List String) : String := "[" ++ ", ".intercalate values ++ "]"

def occurrenceRecord (o : Occurrence) : String :=
  object [("form", Text.Quoted.encode o.graph), ("lemma", Text.Quoted.encode o.headword),
    ("category", toString o.category)]

def record (hit : Hit) : Except MissingItem String := do
  let start ← hit.startOffset
  let stop ← hit.stopOffset
  let text ← hit.text
  return object [("name", (hit.name.map Text.Quoted.encode).getD "null"),
    ("begin", toString hit.start), ("end", toString hit.stop),
    ("start_offset", toString start), ("end_offset", toString stop),
    ("text", Text.Quoted.encode text),
    ("occurrences", array (hit.occurrences.map occurrenceRecord))]

end Concordance.Hit
