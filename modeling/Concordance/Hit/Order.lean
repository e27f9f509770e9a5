import Concordance.Hit.Basic

/-! The order of hits: by their first occurrence, then by their last. Only hits from one source have
an order; hits from different sources are never equal. -/

namespace Concordance.Hit

def sameSource (a b : Hit) : Bool :=
  a.source.map Source.identity == b.source.map Source.identity

inductive Foreign
  | text
  | nothing
  deriving DecidableEq, Repr

inductive OrderError
  | differentSources
  | foreign (operand : Foreign)
  deriving DecidableEq, Repr

def OrderError.message (hitName : String) (foreignName : Foreign → String) : OrderError → String
  | .differentSources =>
    "Can't compare extents of matches from different sources " ++
      "(except for equality, which is never True)"
  | .foreign operand => "Comparing " ++ hitName ++ " to " ++ foreignName operand

def precedes (a b : Hit) : Except OrderError Bool :=
  if a.sameSource b then
    .ok (if a.start = b.start then decide (a.stop < b.stop) else decide (a.start < b.start))
  else .error .differentSources

def sameAs (a b : Hit) : Bool :=
  a.sameSource b && a.start == b.start && a.stop == b.stop

inductive Relation
  | lt | le | gt | ge | eq | ne
  deriving DecidableEq, Repr

/-- Compare two hits. The weak and the reversed orders derive from the strict one and equality. -/
def compare (a b : Hit) : Relation → Except OrderError Bool
  | .lt => a.precedes b
  | .le => (a.precedes b).map fun before => before || a.sameAs b
  | .gt => (a.precedes b).map fun before => !before && !a.sameAs b
  | .ge => (a.precedes b).map fun before => !before
  | .eq => .ok (a.sameAs b)
  | .ne => .ok (!a.sameAs b)

/-- Compare a hit with something else: only to differ from nothing at all makes sense. -/
def compareForeign (operand : Foreign) : Relation → Except OrderError Bool
  | .eq => if operand = .nothing then .ok false else .error (.foreign operand)
  | .ne => if operand = .nothing then .ok true else .error (.foreign operand)
  | _ => .error (.foreign operand)

def overlaps (a b : Hit) : Except OrderError Bool :=
  if a.sameSource b then
    .ok (decide (a.start ≤ b.start ∧ b.start < a.stop) ||
      decide (a.start < b.stop ∧ b.stop ≤ a.stop) ||
      decide (b.start ≤ a.start ∧ a.start < b.stop) ||
      decide (b.start < a.stop ∧ a.stop ≤ b.stop))
  else .error .differentSources

/-- The number of hits no two of which are the same. -/
def countDistinct : List Hit → Nat
  | [] => 0
  | hit :: rest => countDistinct rest + if rest.any hit.sameAs then 0 else 1

private def inOrder (a b : Hit) : Bool :=
  decide (a.start < b.start ∨ (a.start = b.start ∧ a.stop ≤ b.stop))

def sorted (hits : List Hit) : Except OrderError (List Hit) :=
  match hits with
  | [] => .ok []
  | hit :: rest =>
    if rest.all hit.sameSource then .ok (hits.mergeSort inOrder) else .error .differentSources

end Concordance.Hit
