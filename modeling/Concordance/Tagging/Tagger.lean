import Concordance.Tagging.Analysis
import Concordance.Tagging.Lexical

/-! Taggers: they fill in the headword and the category of occurrences. -/

namespace Concordance

/-- Where analyses come from: each is made by a model, which may be missing. -/
structure Analysis.Models where
  /-- The model that is meant where none is named. -/
  preferred : Option String
  /-- The analysis by the model of a name, or the reason why it cannot be loaded. -/
  load : String → Except String (String → List Analysis.Token)

def Analysis.Models.nameOf (models : Models) (model : Option String) : String :=
  model.getD (models.preferred.getD "fr_core_news_sm")

inductive Tagger
  /-- By a lexicon, and by characters where it is silent. -/
  | lexical (lexicon : Option Lexicon)
  /-- By the analysis of the whole text. -/
  | analytic (analyse : String → List Analysis.Token)

namespace Tagger

def tag (text : String) (occurrences : List Occurrence) : Tagger → List Occurrence
  | .lexical lexicon => Tagging.tagByLexicon lexicon occurrences
  | .analytic analyse => Analysis.tag (analyse text) occurrences

inductive Refusal
  | unknownEngine (name : String)
  | missingModel (name reason : String)
  deriving DecidableEq, Repr

def Refusal.message : Refusal → String
  | .unknownEngine name => "Unknown tagger engine '" ++ name ++ "'"
  | .missingModel name reason => "Can't load spacy model '" ++ name ++ "': " ++ reason

def ofModel (models : Analysis.Models) (model : Option String) : Except Refusal Tagger :=
  match models.load (models.nameOf model) with
  | .ok analyse => .ok (.analytic analyse)
  | .error reason => .error (.missingModel (models.nameOf model) reason)

/-- The tagger that an engine names; no engine and off mean that nothing is tagged. Only the analytic
one asks for a model. -/
def ofEngine (models : Analysis.Models) (lexicon : Option Lexicon) (model : Option String) :
    Option String → Except Refusal (Option Tagger)
  | none => .ok none
  | some engine =>
    if engine = "off" then .ok none
    else if engine = "spacy" then (ofModel models model).map some
    else if engine = "lexicon" then .ok (some (.lexical lexicon))
    else .error (.unknownEngine engine)

end Tagger
end Concordance
