import Concordance.Proofs.Matcher.Streaming

/-! Every match of a matcher is one of its pattern: what a reachable matcher finds can be cut into
blocks along a path from the root. The reference finds only such stretches, and a reachable matcher
is one that the reference is a step behind. -/

namespace Concordance

namespace Pattern

/-- A row of occurrences can be cut into blocks along a path of a pattern, from a node on. A term
takes one occurrence; a gap takes as many as its budget allows, and none that the node behind it
accepts; a gap that nothing follows takes one, whatever it is. -/
inductive Cut (p : Pattern) : Option Nat → List Occurrence → Prop
  | done : Cut p none []
  | term {index : Nat} {node : Node} {o : Occurrence} {row : List Occurrence} :
      p.node? index = some node → node.isChoice = false → node.isGap = false →
      node.condition.accepts o = true → Cut p node.next row → Cut p (some index) (o :: row)
  | choice {index child : Nat} {node : Node} {row : List Occurrence} :
      p.node? index = some node → child ∈ node.children → Cut p (some child) row →
      Cut p (some index) row
  | gap {index follower position : Nat} {budget : Int} {children : List Nat}
      {passed row : List Occurrence} :
      p.node? index = some ⟨.gap budget, some follower, children, position⟩ →
      (passed.length : Int) ≤ budget → (∀ o ∈ passed, p.advance? follower o = none) →
      Cut p (some follower) row → Cut p (some index) (passed ++ row)
  | lastGap {index position : Nat} {budget : Int} {children : List Nat} {o : Occurrence} :
      p.node? index = some ⟨.gap budget, none, children, position⟩ → Cut p (some index) [o]

section
variable {p : Pattern} {stream : List Occurrence} {index stop : Nat} {o : Occurrence}

theorem cut_of_accept (hp : p.WellFormed) {next : Option Nat} {row : List Occurrence}
    (haccept : p.accept? o index = some next)
    (hgap : ∀ node, p.node? index = some node → node.isGap = false) (hrow : p.Cut next row) :
    p.Cut (some index) (o :: row) := by
  fun_induction accept? p o index with
  | case1 => cases haccept
  | case2 index node hnode hchoice ih =>
    obtain ⟨child, hmem, hchild⟩ := List.exists_of_findSome?_eq_some haccept
    have honward := hp.child_onward hnode hmem
    rw [dif_pos honward] at hchild
    exact .choice hnode hmem (ih child honward hchild fun head => hp.child_isGap hnode hmem)
  | case3 index node hnode hchoice haccepts =>
    cases haccept
    exact .term hnode (by simpa using hchoice) (hgap node hnode) haccepts hrow
  | case4 => cases haccept

theorem cut_of_attempt (hp : p.WellFormed) {current : Option Nat}
    (h : p.attempt stream current index = .matched stop) :
    p.Cut current (stretch stream index stop) := by
  fun_induction attempt p stream current index with
  | case1 index =>
    cases h
    rw [stretch_self]
    exact .done
  | case2 current index hlt _ _ _ hnode =>
    cases h
    rw [stretch_one (List.getElem?_eq_getElem hlt)]
    exact .lastGap hnode
  | case3 current index hlt budget follower _ _ hnode k next hfirst ih =>
    obtain ⟨hk, hpassed, o, ho, haccept⟩ := firstAccepted?_eq_some hfirst
    have hstop := attempt_le h
    have hbudget : 0 ≤ budget := hp.budget_nonneg hnode rfl
    obtain ⟨hlt, -⟩ := List.getElem?_eq_some_iff.mp ho
    rw [← stretch_append (Nat.le_add_right index k) (by omega), stretch_cons hstop ho]
    refine .gap hnode ?_ ?_ ?_
    · rw [length_stretch (by omega)]
      omega
    · intro o' hmem
      rw [advance?_eq hp]
      exact hpassed.of_mem_stretch hmem
    · exact cut_of_accept hp haccept (fun node => hp.next_isGap hnode rfl rfl) (ih h)
  | case4 => cases h
  | case5 => cases h
  | case6 current index hlt next haccept hlast hgap ih =>
    rw [stretch_cons (attempt_le h) (List.getElem?_eq_getElem hlt)]
    refine cut_of_accept hp haccept ?_ (ih h)
    rintro ⟨condition, follower, children, position⟩ hnode
    cases condition with
    | gap budget =>
      cases follower with
      | none => exact (hlast budget children position hnode).elim
      | some follower => exact (hgap budget follower children position hnode).elim
    | _ => rfl
  | case7 => cases h
  | case8 => cases h

theorem cut_of_extent (hp : p.WellFormed) {extent : Nat × Nat}
    (h : extent ∈ p.extents stream index) :
    p.Cut (some root) (stretch stream extent.1 extent.2) := by
  fun_induction extents p stream index with
  | case1 index hlt hreject ih => exact ih h
  | case2 index hlt next haccept stop hending ih =>
    rcases List.mem_cons.mp h with rfl | h
    · rw [stretch_cons (attempt_le hending) (List.getElem?_eq_getElem hlt)]
      exact cut_of_accept hp haccept (fun node => hp.root_isGap) (cut_of_attempt hp hending)
    · exact ih h
  | case3 index hlt next haccept restart hending ih => exact ih h
  | case4 => cases h
  | case5 => cases h

end

end Pattern

namespace Matcher

open Pattern

/-- The states that a matcher can be brought into: occurrence by occurrence, with a reset at any
time, and with scans that may have been left alone after any of their hits. -/
inductive Reachable (p : Pattern) : Matcher → Prop
  | fresh : Reachable p fresh
  | step {m : Matcher} (o : Occurrence) : Reachable p m → Reachable p (step p m o).2
  | reset {m : Matcher} : Reachable p m → Reachable p m.reset
  | scan {m : Matcher} (stream : List Occurrence) (name : Option String) (source : Option Source)
      (limit : Option Nat) : Reachable p m → Reachable p (m.scan p stream name source limit).2

/-- A matcher has a history: whatever comes, it is one that has taken the occurrences so far of a
stream. -/
def Traced (p : Pattern) (m : Matcher) : Prop :=
  ∃ history, ∀ future, ∃ start, Awaits p (history ++ future) m history.length start

section
variable {p : Pattern} {m : Matcher}

theorem traced_root (h : m.current = none) : Traced p m :=
  ⟨[], fun _ => ⟨0, .atRoot h⟩⟩

theorem Traced.step (hp : p.WellFormed) (h : Traced p m) (o : Occurrence) :
    Traced p (step p m o).2 := by
  obtain ⟨history, h⟩ := h
  refine ⟨history ++ [o], fun future => ?_⟩
  obtain ⟨start, hawaits⟩ := h (o :: future)
  have ho : (history ++ o :: future)[history.length]? = some o := by simp
  rw [List.append_assoc, List.length_append]
  exact (hawaits.step hp ho).awaits

theorem Traced.scanFrom (hp : p.WellFormed) (name : Option String) (source : Option Source)
    {row : List Occurrence} {limit : Option Nat} {index : Nat} (h : Traced p m) :
    Traced p (scanFrom p name source limit index m row).2 := by
  induction row generalizing m limit index with
  | nil => exact h
  | cons o rest ih =>
    have hstepped := h.step hp o
    rw [Matcher.scanFrom]
    cases hstep : Matcher.step p m o with
    | mk matched m =>
      rw [hstep] at hstepped
      cases matched with
      | false => exact ih hstepped
      | true =>
        dsimp only
        split
        · exact hstepped
        · exact ih hstepped

theorem Reachable.traced (hp : p.WellFormed) (h : Reachable p m) : Traced p m := by
  induction h with
  | fresh => exact traced_root rfl
  | step o _ ih => exact ih.step hp o
  | reset => exact traced_root rfl
  | scan stream name source limit _ ih => exact (traced_root rfl).scanFrom hp name source

end

/-- Soundness of every match: whatever a matcher has been through, the occurrences of a match that
it completes can be cut into blocks along a path of its pattern. -/
theorem cut_of_step {p : Pattern} {lexicon : Option Lexicon} {text : String}
    (h : compile lexicon text = .ok p) {m : Matcher} (hm : Reachable p m) {o : Occurrence}
    (hmatch : (step p m o).1 = true) : p.Cut (some root) (step p m o).2.found := by
  have hp := wellFormed_of_compile h
  obtain ⟨history, htraced⟩ := hm.traced hp
  obtain ⟨start, hawaits⟩ := htraced [o]
  have ho : (history ++ [o])[history.length]? = some o := by simp
  have hanswers := hawaits.step hp ho
  cases hstep : step p m o with
  | mk matched m' =>
    rw [hstep] at hanswers hmatch
    cases hmatch
    -- The match is an extent of the reference on the history and this occurrence.
    obtain ⟨-, start', -, hfound, hextents⟩ := hanswers
    have hextent : (start', history.length + 1) ∈ p.extents (history ++ [o]) start := by
      rw [hextents]
      exact List.mem_cons_self
    rw [hfound]
    exact cut_of_extent hp hextent

theorem cut_across_gap :
    ∃ p m o, compile none "a **1 b" = .ok p ∧ Reachable p m ∧ (step p m o).1 = true ∧
      (step p m o).2.found.map Occurrence.orth = ["a", "x", "b"] ∧
      p.Cut (some root) (step p m o).2.found := by
  have hcompile : compile none "a **1 b" = .ok (ofChain
      [.term (.form "a" .plain) 0, .term (.gap 1) 2, .term (.form "b" .plain) 6] "a **1 b") := by
    cbv
  refine ⟨_, _, .untagged "b" 4, hcompile,
    .scan [.untagged "a" 0, .untagged "x" 2] none none none .fresh, ?_, ?_, ?_⟩
  · cbv
  · cbv
  · exact cut_of_step hcompile (.scan _ none none none .fresh) (by cbv)

end Matcher
end Concordance
