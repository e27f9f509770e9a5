import Concordance.Pattern.Term
import Concordance.Pattern.Tree

/-! Reading the lexemes of a pattern as a tree. In the grammar

    alternatives = chain, followed by any number of a comma and a chain
    chain        = one item or more
    item         = a term, or alternatives between parentheses

The lexemes are read once, from left to right, over a stack of the groups that are open. -/

namespace Concordance.Pattern

structure Group where
  /-- The parenthesis that opened it; none for the pattern as a whole. -/
  opener : Option Lexeme
  /-- The branches before the last comma. -/
  branches : List Chain
  comma : Option Lexeme
  chain : Chain

namespace Group

def opened (opener : Option Lexeme) : Group := ⟨opener, [], none, []⟩

def position (group : Group) : Nat := (group.opener.map Lexeme.position).getD 0

def allBranches (group : Group) : List Chain := group.branches ++ group.chain.branches

/-- What a group stands for: its only branch, or a choice between its branches. -/
def content (group : Group) : Chain :=
  match group.allBranches with
  | [chain] => chain
  | branches => [.choice branches group.position]

def add (group : Group) (chain : Chain) : Group := { group with chain := group.chain ++ chain }

def endBranch (group : Group) (comma : Lexeme) : Group :=
  { group with branches := group.allBranches, comma := some comma, chain := [] }

end Group

/-- The innermost open group and those around it, from the inside out. -/
abbrev Groups := Group × List Group

def readComma (comma : Lexeme) : Groups → Except Refusal Groups
  | (group, outer) =>
    if group.chain.isEmpty then (group.comma.getD comma).refuse .danglingAlternation
    else .ok (group.endBranch comma, outer)

/-- Read a closing parenthesis. There has to be an alternative before it, and a group to close. -/
def readClose (close : Lexeme) : Groups → Except Refusal Groups
  | (group, outer) =>
    if group.chain.isEmpty then
      match group.comma, group.opener with
      | some comma, _ => comma.refuse .danglingAlternation
      | none, some opener => opener.refuse .emptyGroup
      | none, none => close.refuse .unbalancedParentheses
    else
      match outer with
      | [] => close.refuse .unbalancedParentheses
      | next :: outer => .ok (next.add group.content, outer)

def readLexeme (lexicon : Option Lexicon) (groups : Groups) (lexeme : Lexeme) :
    Except Refusal Groups :=
  if lexeme.text = "(" then .ok (.opened (some lexeme), groups.1 :: groups.2)
  else if lexeme.text = ")" then readClose lexeme groups
  else if lexeme.text = "," then readComma lexeme groups
  else do
    let condition ← lexeme.term lexicon
    return (groups.1.add [.term condition lexeme.position], groups.2)

def readEnd (pattern : String) : Groups → Except Refusal Chain
  | (group, _) =>
    match group.chain.isEmpty, group.comma, group.opener with
    | true, some comma, _ => comma.refuse .danglingAlternation
    | _, _, some opener => opener.refuse .unbalancedParentheses
    | true, none, none => .error ⟨.emptyPattern, ⟨pattern, pattern.length⟩⟩
    | false, _, none => .ok group.content

def parse (lexicon : Option Lexicon) (pattern : String) : Except Refusal Chain :=
  match Lexeme.all pattern with
  | [] => .error ⟨.emptyPattern, ⟨pattern, 0⟩⟩
  | lexemes => do
    readEnd pattern (← lexemes.foldlM (readLexeme lexicon) (.opened none, []))

end Concordance.Pattern
