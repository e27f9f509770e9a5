import Concordance.Hit.Record
import Concordance.Registry.Block

/-! What the command line does, as a function of what it is given: a request and the contents of the
files that it names. -/

namespace Concordance

namespace CommandLine

inductive Action
  | hits
  | records
  | count
  /-- The compiled pattern; the target is not read. -/
  | listing
  deriving DecidableEq, Repr

/-- The action of the three switches. The listing goes before the count, the count before records.
-/
def Action.ofSwitches (count listing records : Bool) : Action :=
  if listing then .listing else if count then .count else if records then .records else .hits

structure Request where
  /-- The pattern, or its name where a file of patterns is given. -/
  pattern : String
  patternFile : Option ByteArray
  engine : Option String
  /-- The model of the analysis, where the engine makes one. -/
  model : Option String
  action : Action
  start : Int
  stop : Option Int

structure Outcome where
  output : String
  errors : String
  status : Nat
  deriving DecidableEq, Repr

structure Undecodable
  deriving DecidableEq, Repr

inductive Plan
  | finished (outcome : Outcome)
  /-- To read the target and report on its text. -/
  | reading (report : String → Outcome)

def patternName : String := "pattern"

def refused (message : String) : Plan := .finished ⟨"", message ++ "\n", 1⟩

def printed (output : String) : Outcome := ⟨output, "", 0⟩

def hitLine (hit : Hit) : Except MissingItem String := do
  let start ← hit.startOffset
  let stop ← hit.stopOffset
  let text ← hit.text
  return toString start ++ "-" ++ toString stop ++ "\t" ++ text

/-- The lines of a report, one for each hit. A hit of a scan has occurrences, so that none is lost.
-/
def hitLines (line : Hit → Except MissingItem String) (hits : List Hit) : String :=
  String.join ((hits.filterMap fun hit => (line hit).toOption).map (· ++ "\n"))

def report (action : Action) (hits : List Hit) : String :=
  match action with
  | .records => hitLines Hit.record hits
  | .count => toString hits.length ++ "\n"
  | _ => hitLines hitLine hits

def define (registry : Registry) (request : Request) :
    Except Undecodable (Registry × Option Registry.Error × String) :=
  match request.patternFile with
  | none =>
    match registry.add patternName request.pattern with
    | .ok (_, registry) => .ok (registry, none, patternName)
    | .error e => .ok (registry, some e, patternName)
  | some bytes =>
    match Text.ofBytes? bytes with
    | none => .error ⟨⟩
    | some block =>
      let (registry, failed) := registry.addBlock block
      .ok (registry, failed, request.pattern)

/-- What to do about a request. All that can be refused is refused before the target is read. -/
def plan (models : Analysis.Models) (request : Request) : Except Undecodable Plan :=
  match Tagger.ofEngine models none request.model request.engine with
  | .error e => .ok (refused e.message)
  | .ok tagger => do
    let (registry, failed, name) ← define (.empty none tagger false (.ofSettings none none)) request
    match failed, registry.lookup name with
    | some e, _ | none, .error e => return refused e.message
    | none, .ok p =>
      if request.action = .listing then return .finished (printed (p.display ++ "\n" ++ p.listing))
      else
        return .reading fun text =>
          let occurrences := registry.occurrences text request.start request.stop
          let hits := p.hits occurrences (some name) (some (Registry.sourceOf text))
          printed (report request.action hits)

def run (models : Analysis.Models) (request : Request) (target : ByteArray) :
    Except Undecodable Outcome := do
  match ← plan models request with
  | .finished outcome => return outcome
  | .reading report =>
    match Text.ofBytes? target with
    | some text => return report text
    | none => throw ⟨⟩

end CommandLine
end Concordance
