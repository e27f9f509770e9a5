import Concordance.Proofs.Matcher.Acceptance
import Concordance.Proofs.Pattern.Display
import Mathlib.Data.List.Perm.Subperm
import Mathlib.Data.List.Chain

/-! Walks through a graph. Writing a chain, writing the whole pattern and trying an occurrence are
described without a bound on the number of steps, each step being at a node that is there. Main
statement: in a well-formed pattern every such walk comes to its end, and comes to what is computed. -/

namespace Concordance.Pattern

def Leads (p : Pattern) (i j : Nat) : Prop :=
  ∃ node, p.node? i = some node ∧ (j ∈ node.children ∨ node.next = some j)

inductive Followed (p : Pattern) (stop : Option Nat) : Option Nat → List Nat → Prop
  | stopped : Followed p stop stop []
  | ended : Followed p stop none []
  | node {i : Nat} {node : Node} {indices : List Nat} : stop ≠ some i → p.node? i = some node →
      Followed p stop node.next indices → Followed p stop (some i) (i :: indices)

inductive Displayed (p : Pattern) : Option Nat → Option Nat → List String → Prop
  | stopped {stop : Option Nat} : Displayed p stop stop []
  | ended {stop : Option Nat} : Displayed p stop none []
  | term {i : Nat} {stop : Option Nat} {node : Node} {rest : List String} : stop ≠ some i →
      p.node? i = some node → node.isChoice = false → Displayed p stop node.next rest →
      Displayed p stop (some i) (node.condition.display :: rest)
  | choice {i : Nat} {stop : Option Nat} {node : Node} {rest : List String}
      (branch : Nat → List String) : stop ≠ some i → p.node? i = some node →
      node.isChoice = true →
      (∀ child ∈ node.children, Displayed p node.next (some child) (branch child)) →
      Displayed p stop node.next rest →
      Displayed p stop (some i)
        (("(" ++ ", ".intercalate (node.children.map fun child =>
          " ".intercalate (branch child)) ++ ")") :: rest)

/-- An occurrence tried at a node: what comes next, or none if it is rejected. -/
inductive Tried (p : Pattern) (o : Occurrence) : Nat → Option (Option Nat) → Prop
  | accepted {i : Nat} {node : Node} : p.node? i = some node → node.isChoice = false →
      node.condition.accepts o = true → Tried p o i (some node.next)
  | rejected {i : Nat} {node : Node} : p.node? i = some node → node.isChoice = false →
      node.condition.accepts o = false → Tried p o i none
  | taken {i child : Nat} {node : Node} {before after : List Nat} {next : Option Nat} :
      p.node? i = some node → node.children = before ++ child :: after →
      (∀ other ∈ before, Tried p o other none) → Tried p o child (some next) →
      Tried p o i (some next)
  | refused {i : Nat} {node : Node} : p.node? i = some node → node.isChoice = true →
      (∀ child ∈ node.children, Tried p o child none) → Tried p o i none

section
variable {p : Pattern} {stop : Option Nat}

theorem exists_node {i : Nat} (h : i < p.size) : ∃ node, p.node? i = some node :=
  ⟨p.nodes[i], Array.getElem?_eq_getElem h⟩

/-- There are `fuel` nodes at most from an index on, and one is there. -/
def Within (p : Pattern) (fuel : Nat) (index : Option Nat) : Prop :=
  ∀ i, index = some i → i < p.size ∧ p.size ≤ i + fuel

theorem Within.next (hp : p.WellFormed) {fuel i : Nat} {node : Node}
    (h : p.Within (fuel + 1) (some i)) (hnode : p.node? i = some node) :
    p.Within fuel node.next := by
  intro j hj
  have hi := h i rfl
  have hnext := hp.next_onward hnode hj
  omega

theorem Within.child (hp : p.WellFormed) {fuel i child : Nat} {node : Node}
    (h : p.Within (fuel + 1) (some i)) (hnode : p.node? i = some node)
    (hmem : child ∈ node.children) : p.Within fuel (some child) := by
  intro j hj
  cases hj
  have hi := h i rfl
  have hchild := hp.child_onward hnode hmem
  omega

theorem Within.exhausted {index : Option Nat} (h : p.Within 0 index) : index = none := by
  cases index with
  | none => rfl
  | some i =>
    have hi := h i rfl
    omega

theorem within_size {i : Nat} (h : i < p.size) : p.Within p.size (some i) := by
  intro j hj
  cases hj
  omega

theorem followed_chainFrom (hp : p.WellFormed) {fuel : Nat} {index : Option Nat}
    (h : p.Within fuel index) : p.Followed stop index (p.chainFrom fuel index stop) := by
  induction fuel generalizing index with
  | zero =>
    rw [h.exhausted]
    exact .ended
  | succ fuel ih =>
    match index with
    | none => exact .ended
    | some i =>
      obtain ⟨node, hnode⟩ := exists_node (h i rfl).1
      rw [chainFrom]
      by_cases hstop : stop = some i
      · simp only [hstop, if_true]
        exact .stopped
      · simp only [hstop, if_false, hnode]
        exact .node hstop hnode (ih (h.next hp hnode))

theorem displayed_displayFrom (hp : p.WellFormed) {fuel : Nat} {index : Option Nat}
    (h : p.Within fuel index) : p.Displayed stop index (p.displayFrom fuel index stop) := by
  induction fuel generalizing index stop with
  | zero =>
    rw [h.exhausted]
    exact .ended
  | succ fuel ih =>
    match index with
    | none => exact .ended
    | some i =>
      obtain ⟨node, hnode⟩ := exists_node (h i rfl).1
      by_cases hstop : stop = some i
      · rw [hstop, displayFrom_end]
        exact .stopped
      · rw [displayFrom_node hstop hnode, displayNode]
        have hrest : p.Displayed stop node.next (p.displayFrom fuel node.next stop) :=
          ih (h.next hp hnode)
        cases hchoice : node.isChoice with
        | false => exact .term hstop hnode hchoice hrest
        | true => exact .choice _ hstop hnode hchoice (fun _ hmem => ih (h.child hp hnode hmem)) hrest

theorem tried_accept? (hp : p.WellFormed) (o : Occurrence) {fuel i : Nat}
    (h : p.Within fuel (some i)) : p.Tried o i (p.accept? o i) := by
  induction fuel generalizing i with
  | zero => cases h.exhausted
  | succ fuel ih =>
    obtain ⟨node, hnode⟩ := exists_node (h i rfl).1
    cases hchoice : node.isChoice with
    | false =>
      rw [accept?_term hnode hchoice]
      cases haccepts : node.condition.accepts o with
      | true => exact .accepted hnode hchoice haccepts
      | false => exact .rejected hnode hchoice haccepts
    | true =>
      rw [accept?_choice hp hnode hchoice]
      have hchild {child : Nat} (hmem : child ∈ node.children) :
          p.Tried o child (p.accept? o child) := ih (h.child hp hnode hmem)
      cases hfirst : node.children.findSome? (p.accept? o) with
      | none =>
        refine .refused hnode hchoice fun child hmem => ?_
        rw [← List.findSome?_eq_none_iff.mp hfirst child hmem]
        exact hchild hmem
      | some next =>
        obtain ⟨before, child, after, hsplit, htaken, hbefore⟩ :=
          List.findSome?_eq_some_iff.mp hfirst
        refine .taken hnode hsplit (fun other hmem => ?_) ?_
        · rw [← hbefore other hmem]
          exact hchild (hsplit ▸ List.mem_append_left _ hmem)
        · rw [← htaken]
          exact hchild (hsplit ▸ List.mem_append_right _ List.mem_cons_self)

theorem Leads.onward (hp : p.WellFormed) {i j : Nat} (h : p.Leads i j) : i < j ∧ j < p.size := by
  obtain ⟨node, hnode, hchild | hnext⟩ := h
  · exact hp.child_onward hnode hchild
  · exact hp.next_onward hnode hnext

theorem length_walk (hp : p.WellFormed) {walk : List Nat} (h : walk.IsChain p.Leads)
    (hstart : ∀ i ∈ walk.head?, i < p.size) :
    walk.length ≤ p.size ∧ ∀ i ∈ walk, i < p.size := by
  have hbounds : ∀ i ∈ walk, i < p.size := by
    induction walk with
    | nil => nofun
    | cons i rest ih =>
      refine List.forall_mem_cons.mpr ⟨hstart i rfl, ?_⟩
      cases rest with
      | nil => nofun
      | cons j rest =>
        obtain ⟨hleads, hrest⟩ := List.isChain_cons_cons.mp h
        exact ih hrest fun _ hj => by
          cases hj
          exact (hleads.onward hp).2
  have hsorted : walk.Pairwise (· < ·) :=
    List.isChain_iff_pairwise.mp (h.imp fun _ _ hleads => (hleads.onward hp).1)
  have hwithin : walk ⊆ List.range p.size := fun i hmem => List.mem_range.mpr (hbounds i hmem)
  have hnodup : walk.Nodup := hsorted.imp Nat.ne_of_lt
  have hlength := (hnodup.subperm hwithin).length_le
  rw [List.length_range] at hlength
  exact ⟨hlength, hbounds⟩

/-- What holds of all walks through a pattern that come to an end. -/
structure WalksEnd (p : Pattern) : Prop where
  bounded {walk : List Nat} : walk.IsChain p.Leads → (∀ i ∈ walk.head?, i < p.size) →
    walk.length ≤ p.size ∧ ∀ i ∈ walk, i < p.size
  chain_ends {i : Nat} (stop : Option Nat) : i < p.size →
    p.Followed stop (some i) (p.chainFrom p.size (some i) stop)
  display_ends {i : Nat} (stop : Option Nat) : i < p.size →
    p.Displayed stop (some i) (p.displayFrom p.size (some i) stop)
  advance_ends {i : Nat} (o : Occurrence) : i < p.size → p.Tried o i (p.advance? i o)

theorem WellFormed.walksEnd (hp : p.WellFormed) : p.WalksEnd where
  bounded := length_walk hp
  chain_ends _ h := followed_chainFrom hp (within_size h)
  display_ends _ h := displayed_displayFrom hp (within_size h)
  advance_ends o h := advance?_eq hp ▸ tried_accept? hp o (within_size h)

end
end Concordance.Pattern
