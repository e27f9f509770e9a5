import Concordance.Proofs.Matcher.Streaming

/-! A matcher with a guard. It gives up where the condition of a gap would be asked, and else does what
a matcher does. Main statement: over a well-formed pattern it never gives up, in any state and in no
scan; so no matcher asks a gap. -/

namespace Concordance

namespace Pattern

/-- Trying an occurrence at a node, given up where a gap would be asked. -/
def guardedAdvanceFrom (p : Pattern) (o : Occurrence) : Nat → Nat → Option (Option (Option Nat))
  | 0, _ => some none
  | fuel + 1, index =>
    match p.node? index with
    | none => some none
    | some node =>
      if node.isChoice then node.children.findSomeM? (guardedAdvanceFrom p o fuel)
      else if node.isGap then none
      else some (if node.condition.accepts o then some node.next else none)

def guardedAdvance? (p : Pattern) (index : Nat) (o : Occurrence) : Option (Option (Option Nat)) :=
  p.guardedAdvanceFrom o p.size index

theorem findSomeM?_eq_some {α β : Type} {f : α → Option (Option β)} {g : α → Option β}
    {xs : List α} (h : ∀ x ∈ xs, f x = some (g x)) : xs.findSomeM? f = some (xs.findSome? g) := by
  induction xs with
  | nil => rfl
  | cons x rest ih =>
    rw [List.findSomeM?, h x List.mem_cons_self, List.findSome?_cons]
    cases g x with
    | none => exact ih fun y hmem => h y (List.mem_cons_of_mem _ hmem)
    | some _ => rfl

theorem guardedAdvanceFrom_eq {p : Pattern} (hp : p.WellFormed) (o : Occurrence)
    {fuel index : Nat} (h : ∀ node, p.node? index = some node → node.isGap = false) :
    p.guardedAdvanceFrom o fuel index = some (p.advanceFrom o fuel index) := by
  induction fuel generalizing index with
  | zero => rfl
  | succ fuel ih =>
    rw [guardedAdvanceFrom, advanceFrom]
    cases hnode : p.node? index with
    | none => rfl
    | some node =>
      cases hchoice : node.isChoice with
      | false => simp [hchoice, h node hnode]
      | true =>
        simp only [hchoice, if_true]
        exact findSomeM?_eq_some fun child hmem => ih fun _ => hp.child_isGap hnode hmem

theorem guardedAdvance?_eq {p : Pattern} (hp : p.WellFormed) {index : Nat} (o : Occurrence)
    (h : ∀ node, p.node? index = some node → node.isGap = false) :
    p.guardedAdvance? index o = some (p.advance? index o) := guardedAdvanceFrom_eq hp o h

end Pattern

namespace Matcher

open Pattern

def guardedBegin (p : Pattern) (m : Matcher) (o : Occurrence) : Option (Bool × Matcher) := do
  match ← p.guardedAdvance? root o with
  | none => return (false, m)
  | some next => return moveTo p { m with pending := [o] } next

def guardedStepInGap (p : Pattern) (m : Matcher) (gap : Nat) (budget : Int) (next : Option Nat)
    (o : Occurrence) : Option (Bool × Matcher) :=
  match next with
  | none => return moveTo p (m.push o) none
  | some follower => do
    match ← p.guardedAdvance? follower o with
    | some next => return moveTo p (m.push o) next
    | none =>
      let left := m.remaining gap budget
      if left > 0 then return (false, (m.push o).setBudget gap (left - 1))
      else guardedBegin p m.reset o

def guardedStep (p : Pattern) (m : Matcher) (o : Occurrence) : Option (Bool × Matcher) :=
  match m.current with
  | none => guardedBegin p m o
  | some index =>
    match p.node? index with
    | some ⟨.gap budget, next, _, _⟩ => guardedStepInGap p m index budget next o
    | _ => do
      match ← p.guardedAdvance? index o with
      | some next => return moveTo p (m.push o) next
      | none => guardedBegin p m.reset o

def guardedScanFrom (p : Pattern) (name : Option String) (source : Option Source)
    (limit : Option Nat) (index : Nat) (m : Matcher) : List Occurrence → Option (List Hit × Matcher)
  | [] => return ([], m)
  | o :: rest => do
    match ← guardedStep p m o with
    | (false, m) => guardedScanFrom p name source limit (index + 1) m rest
    | (true, m) =>
      let hit := m.hit (index + 1) name source
      if limit.any (· ≤ 1) then return ([hit], m)
      else
        let (hits, last) ← guardedScanFrom p name source (limit.map (· - 1)) (index + 1) m rest
        return (hit :: hits, last)

section
variable {p : Pattern}

theorem guardedBegin_eq (hp : p.WellFormed) (m : Matcher) (o : Occurrence) :
    guardedBegin p m o = some (begin p m o) := by
  rw [guardedBegin, begin, guardedAdvance?_eq hp o fun _ => hp.root_isGap]
  cases p.advance? root o <;> rfl

theorem guardedStepInGap_eq (hp : p.WellFormed) (m : Matcher) {gap position : Nat} {budget : Int}
    {next : Option Nat} {children : List Nat}
    (hnode : p.node? gap = some ⟨.gap budget, next, children, position⟩) (o : Occurrence) :
    guardedStepInGap p m gap budget next o = some (stepInGap p m gap budget next o) := by
  cases next with
  | none => rfl
  | some follower =>
    rw [guardedStepInGap, stepInGap,
      guardedAdvance?_eq hp o fun _ => hp.next_isGap hnode rfl rfl]
    cases p.advance? follower o with
    | some next => rfl
    | none =>
      simp only [Option.bind_eq_bind, Option.bind_some]
      split
      · rfl
      · exact guardedBegin_eq hp m.reset o

theorem any_isGap_of_ne {index : Nat} (h : ∀ budget next children position,
    p.node? index = some ⟨.gap budget, next, children, position⟩ → False) :
    (p.node? index).any Node.isGap = false := by
  cases hnode : p.node? index with
  | none => rfl
  | some node =>
    obtain ⟨condition, next, children, position⟩ := node
    cases condition with
    | gap budget => exact (h budget next children position hnode).elim
    | _ => rfl

/-- A matcher never asks a gap, whatever occurrence it takes. -/
theorem guardedStep_eq (hp : p.WellFormed) (m : Matcher) (o : Occurrence) :
    guardedStep p m o = some (step p m o) := by
  cases hcurrent : m.current with
  | none =>
    rw [guardedStep, hcurrent, step_root hcurrent]
    exact guardedBegin_eq hp m o
  | some index =>
    rw [guardedStep, hcurrent]
    dsimp only
    split
    · rename_i hnode
      rw [step_gap hcurrent hnode]
      exact guardedStepInGap_eq hp m hnode o
    · rename_i hother
      have hgap := any_isGap_of_ne hother
      have hterm : ∀ node, p.node? index = some node → node.isGap = false :=
        fun node hnode => by rwa [hnode] at hgap
      rw [step_node hcurrent hgap, guardedAdvance?_eq hp o hterm]
      cases p.advance? index o with
      | none => exact guardedBegin_eq hp m.reset o
      | some next => rfl

theorem guardedScanFrom_eq (hp : p.WellFormed) (name : Option String) (source : Option Source)
    (limit : Option Nat) (index : Nat) (m : Matcher) (stream : List Occurrence) :
    guardedScanFrom p name source limit index m stream =
      some (scanFrom p name source limit index m stream) := by
  induction stream generalizing limit index m with
  | nil => rfl
  | cons o rest ih =>
    rw [guardedScanFrom, scanFrom, guardedStep_eq hp]
    obtain ⟨completes, last⟩ := step p m o
    cases completes with
    | false => exact ih limit (index + 1) last
    | true =>
      simp only [Option.bind_eq_bind, Option.bind_some]
      split
      · rfl
      · rw [ih]
        rfl

end

end Matcher
end Concordance
