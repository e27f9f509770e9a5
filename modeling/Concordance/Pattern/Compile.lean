import Concordance.Pattern.Graph
import Concordance.Pattern.Parser

/-! Compiling a pattern: it is parsed, laid out as a graph, and searched for gaps that have no term
before them. -/

namespace Concordance.Pattern

private def refuseGap (fault : Fault) (node : Node) : Refusal :=
  ⟨fault, ⟨node.condition.display, node.position⟩⟩

def headGap? (p : Pattern) : Option Node :=
  (root :: p.nodes.toList.flatMap Node.children).findSome? fun index =>
    (p.node? index).filter Node.isGap

def repeatedGap? (p : Pattern) : Option Node :=
  p.nodes.toList.findSome? fun node =>
    if node.isGap then (node.next.bind p.node?).filter Node.isGap else none

/-- Refuse a pattern in which a gap has no term before it. -/
def checkGaps (p : Pattern) : Except Refusal Unit :=
  match headGap? p, repeatedGap? p with
  | some node, _ => .error (refuseGap .misplacedGap node)
  | none, some node => .error (refuseGap .repeatedGap node)
  | none, none => .ok ()

def ofChain (chain : Chain) (source : String) : Pattern :=
  ⟨(layoutChain 0 none chain).toArray, source⟩

/-- Compile a pattern. With a lexicon, words that are headwords of it stand for all their forms. -/
def compile (lexicon : Option Lexicon) (source : String) : Except CompileError Pattern :=
  Except.mapError (fun refusal => ⟨refusal, source⟩) do
    let chain ← parse lexicon source
    let p := ofChain chain source
    checkGaps p
    return p

end Concordance.Pattern
