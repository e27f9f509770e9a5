import Concordance.Pattern.Lexeme

/-! What can be wrong with a pattern. -/

namespace Concordance.Pattern

inductive Fault
  | unbalancedParentheses
  | unterminatedList
  | unterminatedQuote
  | danglingAlternation
  | unknownGlob
  | emptyPattern
  | emptyGroup
  | emptyQuote
  | emptyList
  | misplacedGap
  | repeatedGap
  | unknownCategory
  deriving DecidableEq, Repr

def Fault.description : Fault → String
  | unbalancedParentheses => "Unbalanced parentheses"
  | unterminatedList => "Unterminated category list"
  | unterminatedQuote => "Unterminated quote"
  | danglingAlternation => "Comma with no alternative to attach to"
  | unknownGlob => "Unsupported wildcard (only '*' is allowed)"
  | emptyPattern => "Empty pattern"
  | emptyGroup => "Empty group"
  | emptyQuote => "Empty quoted term"
  | emptyList => "Empty category list"
  | misplacedGap => "Gap must follow a test"
  | repeatedGap => "Gap can't follow another gap"
  | unknownCategory => "Unknown category"

structure Refusal where
  fault : Fault
  construct : Lexeme
  deriving DecidableEq, Repr

structure CompileError extends Refusal where
  pattern : String
  deriving DecidableEq, Repr

def CompileError.message (e : CompileError) : String :=
  e.fault.description ++ ": '" ++ e.construct.text ++ "' at position " ++
    toString e.construct.position ++ " in pattern '" ++ e.pattern ++ "'"

end Concordance.Pattern
