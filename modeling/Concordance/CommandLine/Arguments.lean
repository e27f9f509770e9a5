import Concordance.CommandLine.Basic

/-! The arguments of the command line. -/

namespace Concordance.CommandLine

structure Arguments where
  positional : List String
  count : Bool
  listing : Bool
  records : Bool
  patternFile : Option String
  engine : Option String
  model : Option String
  start : Int
  stop : Option Int
  deriving DecidableEq, Repr

namespace Arguments

/-- No arguments: the text is analysed, and searched as a whole. -/
def initial : Arguments := ⟨[], false, false, false, none, some "spacy", none, 0, none⟩

def usage : String :=
  "usage: concordance [-c] [-d] [-j] [-p FILE] [-x ENGINE] [-m MODEL] [-s OFFSET] [-e OFFSET] " ++
    "PATTERN TARGET"

def read? (a : Arguments) : List String → Option Arguments
  | [] => some a
  | "-c" :: rest => read? { a with count := true } rest
  | "-d" :: rest => read? { a with listing := true } rest
  | "-j" :: rest => read? { a with records := true } rest
  | "-p" :: file :: rest => read? { a with patternFile := some file } rest
  | "-x" :: engine :: rest => read? { a with engine := some engine } rest
  | "-m" :: model :: rest => read? { a with model := some model } rest
  | "-s" :: offset :: rest => do
    let offset ← offset.toInt?
    read? { a with start := offset } rest
  | "-e" :: offset :: rest => do
    let offset ← offset.toInt?
    read? { a with stop := some offset } rest
  | argument :: rest => read? { a with positional := a.positional ++ [argument] } rest

def request (a : Arguments) (pattern : String) (patternFile : Option ByteArray) : Request :=
  ⟨pattern, patternFile, a.engine, a.model, .ofSwitches a.count a.listing a.records, a.start, a.stop⟩

end Arguments
end Concordance.CommandLine
