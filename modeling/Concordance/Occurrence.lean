import Concordance.Category.Basic
import Concordance.Text.Blank

/-! Occurrences: the tokens of a text, with their tags. -/

namespace Concordance

/-- One token of a text. Offsets count the characters of the text. -/
structure Occurrence where
  graph : String
  /-- The form that patterns and lexicons see. -/
  orth : String
  /-- The dictionary form, empty while unresolved. -/
  headword : String
  category : Category
  start : Int
  stop : Int
  deriving DecidableEq, Repr

namespace Occurrence

/-- The form of a graph for comparison: typographic apostrophes become plain ones. -/
def normalize (graph : String) : String :=
  String.ofList (graph.toList.map fun c => if c = '’' then '\x27' else c)

def ofGraph (graph : String) (start : Int) (headword : String) (category : Category) :
    Occurrence where
  graph := graph
  orth := normalize graph
  headword := headword
  category := category
  start := start
  stop := start + graph.length

def untagged (graph : String) (start : Int) : Occurrence := ofGraph graph start "" Category.null

def withTags (o : Occurrence) (headword : Option String) (category : Option Category) :
    Occurrence :=
  { o with headword := headword.getD o.headword, category := category.getD o.category }

def display (o : Occurrence) : String :=
  let label := o.category.label
  if label.isEmpty then o.orth else o.orth ++ "/" ++ label

def sequenceFrom (categoryOf : String → Category) : Int → List String → List Occurrence
  | _, [] => []
  | offset, symbol :: rest =>
    ofGraph symbol offset "" (categoryOf symbol) ::
      sequenceFrom categoryOf (offset + symbol.length + 1) rest

/-- Occurrences for the symbols of a text that are set apart by white space, as if one blank stood
between each two. -/
def ofSymbols (categoryOf : String → Category) (symbols : String) : List Occurrence :=
  sequenceFrom categoryOf 0 ((Text.words symbols.toList).map String.ofList)

@[simp] theorem graph_untagged (graph : String) (start : Int) :
    (untagged graph start).graph = graph := rfl

@[simp] theorem start_untagged (graph : String) (start : Int) :
    (untagged graph start).start = start := rfl

@[simp] theorem stop_untagged (graph : String) (start : Int) :
    (untagged graph start).stop = start + graph.length := rfl

@[simp] theorem length_normalize (graph : String) : (normalize graph).length = graph.length := by
  simp [normalize, String.length_toList]

@[simp] theorem withTags_text (o : Occurrence) (headword : Option String)
    (category : Option Category) :
    (o.withTags headword category).graph = o.graph ∧ (o.withTags headword category).orth = o.orth ∧
      (o.withTags headword category).start = o.start ∧
      (o.withTags headword category).stop = o.stop := ⟨rfl, rfl, rfl, rfl⟩

end Occurrence
end Concordance
