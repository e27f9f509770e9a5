import Concordance.Pattern.Tree

/-! Patterns as graphs: nodes that name each other by index, in the order of reading. The root is
node 0. A choice is a node with the heads of its branches as children; each branch ends where the
choice does, so that its last node goes on to the successor of the choice. -/

namespace Concordance

namespace Pattern

structure Node where
  condition : Condition
  /-- The node that follows; none at the end of the pattern. -/
  next : Option Nat
  /-- The heads of the branches; none for a term. -/
  children : List Nat
  position : Nat

def Node.isGap (node : Node) : Bool := node.condition.isGap

def Node.isChoice (node : Node) : Bool := !node.children.isEmpty

def branchHeads (index : Nat) : List Chain → List Nat
  | [] => []
  | chain :: rest => index :: branchHeads (index + Item.sizeOfChain chain) rest

mutual

def Item.layout (index : Nat) (next : Option Nat) : Item → List Node
  | .term condition position => [⟨condition, next, [], position⟩]
  | .choice branches position =>
    ⟨.either (Item.headConditions branches), next, branchHeads (index + 1) branches, position⟩ ::
      layoutBranches (index + 1) next branches

def layoutChain (index : Nat) (next : Option Nat) : List Item → List Node
  | [] => []
  | item :: rest =>
    item.layout index (if rest.isEmpty then next else some (index + item.size)) ++
      layoutChain (index + item.size) next rest

/-- The nodes of several chains, one chain after the other, all with the same follower. -/
def layoutBranches (index : Nat) (next : Option Nat) : List (List Item) → List Node
  | [] => []
  | chain :: rest =>
    layoutChain index next chain ++ layoutBranches (index + Item.sizeOfChain chain) next rest

end

end Pattern

structure Pattern where
  nodes : Array Pattern.Node
  source : String

namespace Pattern

def root : Nat := 0

def size (p : Pattern) : Nat := p.nodes.size

def node? (p : Pattern) (index : Nat) : Option Node := p.nodes[index]?

def gaps (p : Pattern) : List Nat :=
  (List.range p.size).filter fun i => (p.node? i).any Node.isGap

/-- The indices along a chain, from one up to another, which is not included. No chain is longer
than the pattern, so `fuel` of that many steps is enough. -/
def chainFrom (p : Pattern) : Nat → Option Nat → Option Nat → List Nat
  | 0, _, _ => []
  | fuel + 1, index, stop =>
    match index with
    | none => []
    | some i =>
      if stop = some i then []
      else
        match p.node? i with
        | none => []
        | some node => i :: chainFrom p fuel node.next stop

def chain (p : Pattern) : List Nat := p.chainFrom p.size (some root) none

/-- The items of a chain as a pattern writes them, from one index up to another. Children and
followers have greater indices, so `fuel` of the pattern's size is enough. -/
def displayFrom (p : Pattern) : Nat → Option Nat → Option Nat → List String
  | 0, _, _ => []
  | fuel + 1, index, stop =>
    match index with
    | none => []
    | some i =>
      if stop = some i then []
      else
        match p.node? i with
        | none => []
        | some node =>
          let here :=
            if node.isChoice then
              "(" ++ ", ".intercalate (node.children.map fun child =>
                " ".intercalate (displayFrom p fuel (some child) node.next)) ++ ")"
            else node.condition.display
          here :: displayFrom p fuel node.next stop

def display (p : Pattern) : String := " ".intercalate (p.displayFrom p.size (some root) none)

def literals (p : Pattern) : List String :=
  (p.nodes.toList.flatMap fun node =>
    if node.isChoice then [] else node.condition.literals).eraseDups

private def indexList (indices : List Nat) : String :=
  "[" ++ ", ".intercalate (indices.map toString) ++ "]"

private def listingLine (index : Nat) (node : Node) : String :=
  let follower := (node.next.map toString).getD "END"
  let content :=
    if node.isChoice then "ALT " ++ indexList node.children
    else node.condition.kind ++ " " ++ node.condition.display
  toString index ++ ": " ++ content ++ " -> " ++ follower ++ "\n"

def listing (p : Pattern) : String :=
  String.join ((p.nodes.toList.zipIdx).map fun (node, index) => listingLine index node)

end Pattern
end Concordance
