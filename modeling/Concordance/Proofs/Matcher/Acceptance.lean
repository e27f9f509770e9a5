import Concordance.Matcher.Basic
import Concordance.Proofs.Pattern.Compiled

/-! Trying an occurrence at a node, without a bound on the number of choices in one another. In a
well-formed pattern the children of a choice stand behind it, and the bound is never reached. -/

namespace Concordance.Pattern

/-- Try an occurrence at a node: none if it is rejected, else the node that comes next. The branches
of a choice are tried in order, and the first leaf that accepts decides. Children that do not stand
behind their choice, of which a compiled pattern has none, count for nothing. -/
def accept? (p : Pattern) (o : Occurrence) (index : Nat) : Option (Option Nat) :=
  match p.node? index with
  | none => none
  | some node =>
    if node.isChoice then
      node.children.findSome? fun child =>
        if _h : index < child ∧ child < p.size then accept? p o child else none
    else if node.condition.accepts o then some node.next else none
termination_by p.size - index

section
variable {p : Pattern} {o : Occurrence} {index : Nat} {node : Node}

theorem accept?_none (h : p.node? index = none) : p.accept? o index = none := by
  rw [accept?, h]

theorem accept?_term (hnode : p.node? index = some node) (hterm : node.isChoice = false) :
    p.accept? o index = if node.condition.accepts o then some node.next else none := by
  rw [accept?, hnode]
  simp only [hterm, Bool.false_eq_true, if_false]

theorem findSome?_congr {α β : Type} {f g : α → Option β} {xs : List α}
    (h : ∀ x ∈ xs, f x = g x) : xs.findSome? f = xs.findSome? g := by
  induction xs with
  | nil => rfl
  | cons x rest ih =>
    rw [List.findSome?_cons, List.findSome?_cons, h x List.mem_cons_self,
      ih fun x' hmem => h x' (List.mem_cons_of_mem _ hmem)]

theorem accept?_choice (hp : p.WellFormed) (hnode : p.node? index = some node)
    (hchoice : node.isChoice = true) :
    p.accept? o index = node.children.findSome? (p.accept? o) := by
  rw [accept?, hnode]
  simp only [hchoice, if_true]
  apply findSome?_congr
  intro child hmem
  rw [dif_pos (hp.child_onward hnode hmem)]

theorem advanceFrom_eq (hp : p.WellFormed) {fuel : Nat} (h : p.size ≤ index + fuel) :
    p.advanceFrom o fuel index = p.accept? o index := by
  induction fuel generalizing index with
  | zero =>
    have hnone : p.node? index = none := Array.getElem?_eq_none h
    rw [accept?_none hnone, advanceFrom]
  | succ fuel ih =>
    cases hnode : p.node? index with
    | none => rw [accept?_none hnode, advanceFrom, hnode]
    | some node =>
      cases hchoice : node.isChoice with
      | false =>
        rw [accept?_term hnode hchoice, advanceFrom, hnode]
        simp only [hchoice, Bool.false_eq_true, if_false]
      | true =>
        rw [accept?_choice hp hnode hchoice, advanceFrom, hnode]
        simp only [hchoice, if_true]
        apply findSome?_congr
        intro child hmem
        have hchild := hp.child_onward hnode hmem
        exact ih (by omega)

theorem advance?_eq (hp : p.WellFormed) : p.advance? index o = p.accept? o index :=
  advanceFrom_eq hp (Nat.le_add_left _ _)

end

end Concordance.Pattern
