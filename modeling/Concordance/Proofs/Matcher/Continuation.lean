import Concordance.Proofs.Matcher.Bisimulation
import Concordance.Proofs.Pattern.Expansion

/-! What is left of a pattern. The nodes that a matcher waits at are where the rest of a tree stands,
and what an occurrence leaves of that rest can be told from the tree alone. Main statement: two
patterns whose trees expand to one and the same, with conditions that take the same occurrences of a
stream, find the same in it. -/

namespace Concordance.Pattern

open Item

mutual

/-- What is left of an item and the chain behind it once an occurrence is taken; none if it is
rejected. The branches of a choice are tried in order. -/
def Item.take? (o : Occurrence) : Item → Chain → Option Chain
  | .term condition _, rest => if condition.accepts o then some rest else none
  | .choice branches _, rest => takeBranches? o branches rest

def takeChain? (o : Occurrence) : List Item → Chain → Option Chain
  | [], _ => none
  | item :: more, rest => item.take? o (more ++ rest)

def takeBranches? (o : Occurrence) : List (List Item) → Chain → Option Chain
  | [], _ => none
  | chain :: others, rest => (takeChain? o chain rest).or (takeBranches? o others rest)

end

def Chain.gap? : Chain → Option (Int × Chain)
  | .term (.gap budget) _ :: rest => some (budget, rest)
  | _ => none

/-- From a node on, a pattern goes on as a chain. -/
inductive Continues (p : Pattern) : Option Nat → Chain → Prop
  | done : Continues p none []
  | item {index : Nat} {next : Option Nat} {item : Item} {rest : Chain} : item.Normal →
      LaidAt p index (item.layout index next) → Continues p next rest →
      Continues p (some index) (item :: rest)

section Continues
variable {p : Pattern} {o : Occurrence}

theorem Continues.chain {chain rest : Chain} (h : NormalChain chain) {index : Nat}
    {next : Option Nat} (hlaid : LaidAt p index (layoutChain index next chain))
    (hrest : p.Continues next rest) :
    p.Continues (Chain.entrance index next chain) (chain ++ rest) := by
  induction chain generalizing index with
  | nil => exact hrest
  | cons item more ih =>
    obtain ⟨hitem, hmore⟩ := eachFrom_layoutChain.mp hlaid
    exact .item h.1 hitem (ih h.2 hmore)

mutual

theorem rel_take? (hp : p.WellFormed) (item : Item) (h : item.Normal) {index : Nat}
    {next : Option Nat} {rest : Chain} (hlaid : LaidAt p index (item.layout index next))
    (hrest : p.Continues next rest) :
    Option.Rel p.Continues (p.accept? o index) (item.take? o rest) := by
  match item with
  | .term condition position =>
    obtain ⟨hnode, -⟩ := eachFrom_cons.mp hlaid
    rw [accept?_term hnode rfl, Item.take?]
    split
    · exact .some hrest
    · exact .none
  | .choice branches position =>
    obtain ⟨hnode, hbranches⟩ := eachFrom_cons.mp hlaid
    have hchoice : (branchHeads (index + 1) branches).isEmpty = false := by
      simpa using branchHeads_ne_nil h.1 (index + 1)
    rw [accept?_choice hp hnode (by simp [Node.isChoice, hchoice]), Item.take?]
    exact rel_takeBranches? hp branches h.2 hbranches hrest

theorem rel_takeChain? (hp : p.WellFormed) (chain : List Item) (hne : chain ≠ [])
    (h : NormalChain chain) {index : Nat} {next : Option Nat} {rest : Chain}
    (hlaid : LaidAt p index (layoutChain index next chain)) (hrest : p.Continues next rest) :
    Option.Rel p.Continues (p.accept? o index) (takeChain? o chain rest) := by
  match chain with
  | [] => exact absurd rfl hne
  | item :: more =>
    obtain ⟨hitem, hmore⟩ := eachFrom_layoutChain.mp hlaid
    exact rel_take? hp item h.1 hitem (Continues.chain h.2 hmore hrest)

theorem rel_takeBranches? (hp : p.WellFormed) (branches : List (List Item))
    (h : NormalBranches branches) {index : Nat} {next : Option Nat} {rest : Chain}
    (hlaid : LaidAt p index (layoutBranches index next branches))
    (hrest : p.Continues next rest) :
    Option.Rel p.Continues ((branchHeads index branches).findSome? (p.accept? o))
      (takeBranches? o branches rest) := by
  match branches with
  | [] => exact .none
  | chain :: others =>
    obtain ⟨hchain, hothers⟩ := eachFrom_layoutBranches.mp hlaid
    have hfirst := rel_takeChain? hp chain h.1.1 h.1.2.2 hchain hrest
    have hothers := rel_takeBranches? hp others h.2 hothers hrest
    rw [branchHeads, List.findSome?_cons, takeBranches?]
    generalize p.accept? o index = first at hfirst
    generalize takeChain? o chain rest = second at hfirst
    cases hfirst with
    | some hrelated => exact .some hrelated
    | none => exact hothers

end

theorem Continues.accept (hp : p.WellFormed) {index : Nat} {chain : Chain}
    (h : p.Continues (some index) chain) :
    Option.Rel p.Continues (p.accept? o index) (takeChain? o chain []) := by
  cases h with
  | @item _ next item rest hitem hlaid hrest =>
    rw [takeChain?, List.append_nil]
    exact rel_take? hp item hitem hlaid hrest

theorem Continues.gap {index : Nat} {chain : Chain} (h : p.Continues (some index) chain) :
    Option.Rel (fun first second => first.1 = second.1 ∧ p.Continues first.2 second.2)
      (p.gapAt? index) (Chain.gap? chain) := by
  cases h with
  | @item _ next item rest hitem hlaid hrest =>
    cases item with
    | choice branches position =>
      obtain ⟨hnode, -⟩ := eachFrom_cons.mp hlaid
      rw [gapAt?, hnode]
      exact .none
    | term condition position =>
      obtain ⟨hnode, -⟩ := eachFrom_cons.mp hlaid
      rw [gapAt?, hnode]
      cases condition with
      | gap budget => exact .some ⟨rfl, hrest⟩
      | _ => exact .none

theorem continues_ofChain {chain : Chain} (hne : chain ≠ []) (h : NormalChain chain)
    (source : String) : (ofChain chain source).Continues (some root) chain := by
  have hcontinues := Continues.chain h (laidAt_ofChain chain source) .done
  rwa [Chain.entrance, if_neg (by simpa using hne), List.append_nil] at hcontinues

end Continues

section Take
variable (o : Occurrence)

theorem takeChain?_append {first : Chain} (h : first ≠ []) (second rest : Chain) :
    takeChain? o (first ++ second) rest = takeChain? o first (second ++ rest) := by
  obtain ⟨item, more, rfl⟩ := List.exists_cons_of_ne_nil h
  rw [List.cons_append, takeChain?, takeChain?, List.append_assoc]

theorem takeBranches?_append (first second : List Chain) (rest : Chain) :
    takeBranches? o (first ++ second) rest =
      (takeBranches? o first rest).or (takeBranches? o second rest) := by
  induction first with
  | nil => rfl
  | cons chain others ih =>
    rw [List.cons_append, takeBranches?, ih, takeBranches?, Option.or_assoc]

theorem takeBranches?_branches (chain rest : Chain) :
    takeBranches? o chain.branches rest = takeChain? o chain rest := by
  unfold Chain.branches
  split
  · rw [takeChain?, Item.take?, List.nil_append]
  · rw [takeBranches?, takeBranches?, Option.or_none]

theorem takeChain?_ofBranches (position : Nat) (branches : List Chain) (rest : Chain) :
    takeChain? o (Chain.ofBranches position branches) rest = takeBranches? o branches rest := by
  unfold Chain.ofBranches
  split
  · rw [takeBranches?, takeBranches?, Option.or_none]
  · rw [takeChain?, Item.take?, List.nil_append]

theorem takeChain?_anyOf (conditions : List Condition) (rest : Chain) :
    takeChain? o (anyOf conditions) rest =
      if conditions.any (Condition.accepts o) then some rest else none := by
  rw [anyOf, takeChain?_ofBranches]
  induction conditions with
  | nil => rfl
  | cons c conditions ih =>
    rw [List.map_cons, takeBranches?, ih, takeChain?, Item.take?, List.nil_append, List.any_cons]
    cases c.accepts o <;> rfl

end Take

namespace Expansion

def Agrees (e : Expansion) (o : Occurrence) : Prop :=
  ∀ c position, (e.conditions c position).any (Condition.accepts o) = c.accepts o

theorem agrees_refl (o : Occurrence) : refl.Agrees o := fun c _ => Bool.or_false (c.accepts o)

section
variable {e : Expansion} {o : Occurrence}

mutual

theorem take?_expand (h : e.Agrees o) (item : Item) (rest : Chain) :
    takeChain? o (e.expand item) (e.expandChain rest) =
      (item.take? o rest).map e.expandChain := by
  match item with
  | .term condition position =>
    rw [expand, takeChain?_anyOf, h condition position, Item.take?]
    split <;> rfl
  | .choice branches _ =>
    rw [expand, takeChain?, Item.take?, List.nil_append, take?_expandBranches h branches,
      Item.take?]

theorem take?_expandChain (h : e.Agrees o) (chain : List Item) (rest : Chain) :
    takeChain? o (e.expandChain chain) (e.expandChain rest) =
      (takeChain? o chain rest).map e.expandChain := by
  match chain with
  | [] => rfl
  | item :: more =>
    rw [expandChain, takeChain?_append o (e.expand_ne_nil item), ← expandChain_append,
      take?_expand h item, takeChain?]

theorem take?_expandBranches (h : e.Agrees o) (branches : List (List Item)) (rest : Chain) :
    takeBranches? o (e.expandBranches branches) (e.expandChain rest) =
      (takeBranches? o branches rest).map e.expandChain := by
  match branches with
  | [] => rfl
  | chain :: others =>
    rw [expandBranches, takeBranches?_append, takeBranches?_branches, take?_expandChain h chain,
      take?_expandBranches h others, takeBranches?, Option.map_or]

end

theorem gap?_anyOf {conditions : List Condition} (h : ∀ c ∈ conditions, c.isGap = false)
    (rest : Chain) : Chain.gap? (anyOf conditions ++ rest) = none := by
  match conditions with
  | [] => rfl
  | _ :: _ :: _ => rfl
  | [c] =>
    have hgap := h c (List.mem_singleton.mpr rfl)
    cases c with
    | gap budget => cases hgap
    | _ => rfl

theorem gap?_expandChain (chain : Chain) : Chain.gap? (e.expandChain chain) =
    (Chain.gap? chain).map fun gap => (gap.1, e.expandChain gap.2) := by
  match chain with
  | [] => rfl
  | .choice _ _ :: _ => rfl
  | .term condition position :: rest =>
    rw [expandChain, expand]
    cases hgap : condition.isGap with
    | false =>
      rw [gap?_anyOf fun c hc => e.isGap_eq hgap hc]
      cases condition with
      | gap budget => cases hgap
      | _ => rfl
    | true =>
      rw [e.of_gap position hgap]
      cases condition with
      | gap budget => rfl
      | _ => cases hgap

end

end Expansion

section Alike
variable {p q : Pattern} {e f : Expansion} {stream : List Occurrence}

def Alike (p q : Pattern) (e f : Expansion) (i j : Option Nat) : Prop :=
  ∃ chain chain', p.Continues i chain ∧ q.Continues j chain' ∧
    e.expandChain chain = f.expandChain chain'

theorem Alike.ends {i j : Option Nat} (h : Alike p q e f i j) : i = none ↔ j = none := by
  have hnil {p : Pattern} {i : Option Nat} {chain : Chain} (h : p.Continues i chain) :
      i = none ↔ chain = [] := by
    cases h with
    | done => exact iff_of_true rfl rfl
    | item => exact iff_of_false nofun nofun
  obtain ⟨chain, chain', hfirst, hsecond, heq⟩ := h
  rw [hnil hfirst, hnil hsecond, ← e.expandChain_eq_nil_iff, heq, f.expandChain_eq_nil_iff]

theorem Alike.accept (hp : p.WellFormed) (hq : q.WellFormed) {o : Occurrence} (he : e.Agrees o)
    (hf : f.Agrees o) {i j : Nat} (h : Alike p q e f (some i) (some j)) :
    Option.Rel (Alike p q e f) (p.accept? o i) (q.accept? o j) := by
  obtain ⟨chain, chain', hfirst, hsecond, heq⟩ := h
  have hleft : (takeChain? o chain []).map e.expandChain =
      (takeChain? o chain' []).map f.expandChain := by
    rw [← Expansion.take?_expandChain he, ← Expansion.take?_expandChain hf, heq]
    rfl
  exact rel_of_map_eq (hfirst.accept hp) (hsecond.accept hq) hleft

theorem Alike.gap {i j : Nat} (h : Alike p q e f (some i) (some j)) :
    Option.Rel (fun first second => first.1 = second.1 ∧ Alike p q e f first.2 second.2)
      (p.gapAt? i) (q.gapAt? j) := by
  obtain ⟨chain, chain', hfirst, hsecond, heq⟩ := h
  have hleft : (Chain.gap? chain).map (fun gap => (gap.1, e.expandChain gap.2)) =
      (Chain.gap? chain').map fun gap => (gap.1, f.expandChain gap.2) := by
    rw [← Expansion.gap?_expandChain, ← Expansion.gap?_expandChain, heq]
  refine rel_mono (rel_of_map_eq hfirst.gap hsecond.gap hleft) ?_
  rintro first second ⟨gap, gap', ⟨hbudget, hrest⟩, ⟨hbudget', hrest'⟩, hsame⟩
  obtain ⟨hbudgets, hchains⟩ := Prod.mk.inj hsame
  exact ⟨by rw [hbudget, hbudget', hbudgets], gap.2, gap'.2, hrest, hrest', hchains⟩

theorem bisimulation_alike (hp : p.WellFormed) (hq : q.WellFormed) (he : ∀ o ∈ stream, e.Agrees o)
    (hf : ∀ o ∈ stream, f.Agrees o) : Bisimulation p q stream (Alike p q e f) where
  ends h := h.ends
  accept h o ho := h.accept hp hq (he o ho) (hf o ho)
  gap h := h.gap

end Alike

/-- Trees that expand to the same are compiled to patterns that find the same. -/
theorem scan_eq_of_expandChain {e f : Expansion} {first second : Chain} {source text : String}
    (hp : (ofChain first source).WellFormed) (hq : (ofChain second text).WellFormed)
    (hfirst : first ≠ [] ∧ NormalChain first) (hsecond : second ≠ [] ∧ NormalChain second)
    (heq : e.expandChain first = f.expandChain second) {stream : List Occurrence}
    (he : ∀ o ∈ stream, e.Agrees o) (hf : ∀ o ∈ stream, f.Agrees o) (m m' : Matcher)
    (name : Option String) (origin : Option Source) :
    (m.scan (ofChain first source) stream name origin none).1 =
      (m'.scan (ofChain second text) stream name origin none).1 :=
  Matcher.scan_eq_of_bisimulation hp hq (bisimulation_alike hp hq he hf)
    ⟨first, second, continues_ofChain hfirst.1 hfirst.2 source,
      continues_ofChain hsecond.1 hsecond.2 text, heq⟩ m m' name origin

end Concordance.Pattern
