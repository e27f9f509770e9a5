import Concordance.Registry.Basic
import Concordance.Text.Lines

/-! Blocks of statements, one a line: a name, an arrow, a pattern. Blank lines and lines that start
with a hash say nothing. -/

namespace Concordance.Registry

def isNameChar (c : Char) : Bool :=
  c == '_' ||
    match Text.CharClass.of c with
    | .letter | .number => true
    | _ => false

/-- Whether a row of characters is a name: parts with single dots between them, none of them empty.
`inside` tells whether a part is in progress. -/
def isName (inside : Bool) : List Char → Bool
  | [] => inside
  | c :: rest => if c == '.' then inside && isName false rest else isNameChar c && isName true rest

def statement? (line : List Char) : Option (String × String) :=
  let line := line.dropWhile Text.isBlank
  let inName := fun c => c == '.' || isNameChar c
  let name := line.takeWhile inName
  match (line.dropWhile inName).dropWhile Text.isBlank with
  | '-' :: '>' :: pattern =>
    if isName false name then some (String.ofList name, String.ofList (Text.strip pattern))
    else none
  | _ => none

def isSilent (line : List Char) : Bool :=
  match line.dropWhile Text.isBlank with
  | [] => true
  | c :: _ => c == '#'

def addLine (r : Registry) (number : Nat) (line : List Char) : Except Error Registry :=
  if isSilent line then .ok r
  else
    match statement? line with
    | none => .error (.malformedStatement number (String.ofList (Text.strip line)))
    | some (name, pattern) => (r.add name pattern).map Prod.snd

/-- Carry out lines one by one, up to the first that fails. -/
def addLines (r : Registry) (number : Nat) : List (List Char) → Registry × Option Error
  | [] => (r, none)
  | line :: rest =>
    match r.addLine number line with
    | .ok r => r.addLines (number + 1) rest
    | .error e => (r, some e)

def addBlock (r : Registry) (block : String) : Registry × Option Error :=
  r.addLines 1 (Text.lines block.toList)

end Concordance.Registry
