import Concordance.Pattern.Graph

/-! The matcher: it runs a pattern over a stream, one occurrence at a time, in a single pass.

A matcher is at the root, or it waits at a node with the occurrences taken so far. When that node
rejects an occurrence, the attempt is dropped and the occurrence is tried at the root, so that an
attempt can start where another broke off. At a gap the node behind it is tried first; otherwise the
occurrence is passed over as long as the budget lasts. -/

namespace Concordance

/-- Try an occurrence at a node: none if it is rejected, else the node that comes next. The branches
of a choice are tried in order. Children have greater indices, so `fuel` of the pattern's size is
enough. -/
def Pattern.advanceFrom (p : Pattern) (o : Occurrence) : Nat → Nat → Option (Option Nat)
  | 0, _ => none
  | fuel + 1, index =>
    match p.node? index with
    | none => none
    | some node =>
      if node.isChoice then node.children.findSome? (advanceFrom p o fuel)
      else if node.condition.accepts o then some node.next else none

def Pattern.advance? (p : Pattern) (index : Nat) (o : Occurrence) : Option (Option Nat) :=
  p.advanceFrom o p.size index

structure Matcher where
  /-- The node that waits for the next occurrence; none at the root. -/
  current : Option Nat
  pending : List Occurrence
  /-- What is left of the budgets of the gaps entered in this attempt. -/
  budgets : List (Nat × Int)
  found : List Occurrence
  deriving DecidableEq, Repr

namespace Matcher

def fresh : Matcher := ⟨none, [], [], []⟩

def atRoot (m : Matcher) : Bool := m.current.isNone

/-- Drop the attempt in progress. The last match is kept. -/
def reset (m : Matcher) : Matcher := { m with current := none, pending := [], budgets := [] }

def remaining (m : Matcher) (gap : Nat) (budget : Int) : Int := (m.budgets.lookup gap).getD budget

def setBudget (m : Matcher) (gap : Nat) (budget : Int) : Matcher :=
  { m with budgets := (gap, budget) :: m.budgets.filter fun entry => entry.1 != gap }

def push (m : Matcher) (o : Occurrence) : Matcher := { m with pending := m.pending ++ [o] }

/-- Go on to a node, or complete the match where none follows. -/
def moveTo (p : Pattern) (m : Matcher) : Option Nat → Bool × Matcher
  | none => (true, { m.reset with found := m.pending })
  | some index =>
    let m := { m with current := some index }
    match (p.node? index).map Pattern.Node.condition with
    | some (.gap budget) => (false, m.setBudget index budget)
    | _ => (false, m)

def begin (p : Pattern) (m : Matcher) (o : Occurrence) : Bool × Matcher :=
  match p.advance? Pattern.root o with
  | none => (false, m)
  | some next => moveTo p { m with pending := [o] } next

/-- Take an occurrence at a gap. A gap that nothing follows takes one occurrence, whatever it is. -/
def stepInGap (p : Pattern) (m : Matcher) (gap : Nat) (budget : Int) (next : Option Nat)
    (o : Occurrence) : Bool × Matcher :=
  match next with
  | none => moveTo p (m.push o) none
  | some follower =>
    match p.advance? follower o with
    | some next => moveTo p (m.push o) next
    | none =>
      let left := m.remaining gap budget
      if left > 0 then (false, (m.push o).setBudget gap (left - 1)) else begin p m.reset o

/-- Take the next occurrence; true if it completes a match. -/
def step (p : Pattern) (m : Matcher) (o : Occurrence) : Bool × Matcher :=
  match m.current with
  | none => begin p m o
  | some index =>
    match p.node? index with
    | some ⟨.gap budget, next, _, _⟩ => stepInGap p m index budget next o
    | _ =>
      match p.advance? index o with
      | some next => moveTo p (m.push o) next
      | none => begin p m.reset o

end Matcher
end Concordance
