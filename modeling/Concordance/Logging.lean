import Concordance.Text.Case

/-! Presets for logging: one handler that writes to the error stream, at a level that the
environment chooses, while the tagging pipeline's own loggers stay at warnings. -/

namespace Concordance.Logging

structure Handler where
  kind : String
  formatter : String
  stream : String
  deriving DecidableEq, Repr

structure Config where
  version : Nat
  disableExisting : Bool
  formats : List (String × String)
  handlers : List (String × Handler)
  levels : List (String × String)
  rootHandlers : List String
  rootLevel : String
  deriving DecidableEq, Repr

def plainFormat : String := "%(levelname)-8s %(name)s %(funcName)s L%(lineno)d %(message)s"

def timedFormat : String := "%(asctime)s " ++ plainFormat

def level (asked : Option String) : String := Text.upper (asked.getD "INFO")

def config (format : String) (asked : Option String) : Config where
  version := 1
  disableExisting := false
  formats := [("f", format)]
  handlers := [("h", ⟨"logging.StreamHandler", "f", "ext://sys.stderr"⟩)]
  levels := [("spacy", "WARNING")]
  rootHandlers := ["h"]
  rootLevel := level asked

def timed : Option String → Config := config timedFormat

/-- The preset without times, for comparing the records of two runs. -/
def untimed : Option String → Config := config plainFormat

end Concordance.Logging
