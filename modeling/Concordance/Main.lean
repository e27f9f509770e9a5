import Concordance.CommandLine.Arguments

/-! The command line program: it reads the files and prints the outcome. -/

open Concordance CommandLine

private def finish (outcome : Outcome) : IO UInt32 := do
  IO.print outcome.output
  IO.eprint outcome.errors
  return outcome.status.toUInt32

private def undecodable (file : String) : IO UInt32 := do
  IO.eprintln ("not UTF-8: " ++ file)
  return 1

/-- The program comes without models. -/
private def models : IO Analysis.Models :=
  return ⟨← IO.getEnv "SPACY_MODEL", fun _ => .error "no models are installed"⟩

private def search (arguments : Arguments) (pattern target : String) : IO UInt32 := do
  let patternFile ← arguments.patternFile.mapM fun file => IO.FS.readBinFile file
  match plan (← models) (arguments.request pattern patternFile) with
  | .error _ => undecodable (arguments.patternFile.getD "")
  | .ok (.finished outcome) => finish outcome
  | .ok (.reading report) =>
    match Text.ofBytes? (← IO.FS.readBinFile target) with
    | some text => finish (report text)
    | none => undecodable target

def main (args : List String) : IO UInt32 := do
  match Arguments.initial.read? args with
  | some arguments =>
    match arguments.positional with
    | [pattern, target] => search arguments pattern target
    | _ => IO.eprintln Arguments.usage; return 2
  | none => IO.eprintln Arguments.usage; return 2
