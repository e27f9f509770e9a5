import Concordance.Text.Blank

/-! The lexemes of a pattern: marks, quoted texts, bracketed lists, and words. White space stands
between them at will and belongs to none, except inside quotes and brackets. -/

namespace Concordance.Pattern

structure Lexeme where
  text : String
  position : Nat
  deriving DecidableEq, Repr

namespace Lexeme

/-- A character that words are made of: a word stops at white space, marks and quotes. -/
def isWordChar (c : Char) : Bool :=
  !(Text.isBlank c || c == '(' || c == ')' || c == ',' || c == '\x22')

/-- Up to the closing character and with it, or to the end of the text if it never comes. -/
def upTo (closing : Char) : List Char → List Char
  | [] => []
  | c :: rest => if c = closing then [c] else c :: upTo closing rest

def starting (first : Char) (rest : List Char) : List Char :=
  if first = '\x22' then first :: upTo '\x22' rest
  else if first = '[' then first :: upTo ']' rest
  else if isWordChar first then first :: rest.takeWhile isWordChar
  else [first]

/-- The lexemes from an offset on; `inside` characters still belong to the lexeme before. -/
def scan (position inside : Nat) : List Char → List Lexeme
  | [] => []
  | c :: rest =>
    match inside with
    | n + 1 => scan (position + 1) n rest
    | 0 =>
      if Text.isBlank c then scan (position + 1) 0 rest
      else
        let text := starting c rest
        ⟨String.ofList text, position⟩ :: scan (position + 1) (text.length - 1) rest

def all (pattern : String) : List Lexeme := scan 0 0 pattern.toList

end Lexeme
end Concordance.Pattern
