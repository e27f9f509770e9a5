import Concordance.Proofs.Pattern.Joined

/-! Patterns with other terms in the place of theirs. In a tree, several conditions can stand for one
as a choice between them; in a derivation, a whole phrase can stand for one lexeme. The tree of the
one is the other of the tree, and no gap is misplaced that was not. -/

namespace Concordance.Pattern

open Item Phrase

section Trees

theorem branches_unplaced (chain : Chain) :
    Chain.branches (unplacedChain chain) = unplacedBranches chain.branches := by
  match chain with
  | [] => rfl
  | [.term _ _] => rfl
  | [.choice _ _] => rfl
  | .term _ _ :: _ :: _ => rfl
  | .choice _ _ :: _ :: _ => rfl

theorem mem_readingsOfBranches {branches : List Chain} {reading : List Condition} :
    reading ∈ readingsOfBranches branches ↔
      ∃ branch ∈ branches, reading ∈ readingsOfChain branch := by
  induction branches with
  | nil => simp [readingsOfBranches]
  | cons chain rest ih => rw [readingsOfBranches, List.mem_append, ih, List.exists_mem_cons_iff]

theorem alternativesOfChain_append (first second : Chain) :
    alternativesOfChain (first ++ second) =
      alternativesOfChain first ++ alternativesOfChain second := by
  induction first with
  | nil => rfl
  | cons item rest ih => rw [List.cons_append, alternativesOfChain, ih, alternativesOfChain,
      List.append_assoc]

theorem alternativesOfBranches_append (first second : List Chain) :
    alternativesOfBranches (first ++ second) =
      alternativesOfBranches first ++ alternativesOfBranches second := by
  induction first with
  | nil => rfl
  | cons chain rest ih => rw [List.cons_append, alternativesOfBranches, ih, alternativesOfBranches,
      List.append_assoc]

theorem alternatives_branches_subset (chain : Chain) :
    alternativesOfBranches chain.branches ⊆ alternativesOfChain chain := by
  unfold Chain.branches
  split
  · rw [alternativesOfChain, alternatives, alternativesOfChain, List.append_nil]
    exact List.subset_append_right _ _
  · rw [alternativesOfBranches, alternativesOfBranches, List.append_nil]
    exact List.Subset.refl _

theorem startsWithGap_iff {reading : List Condition} :
    StartsWithGap reading ↔ (reading.map Condition.isGap).head? = some true := by
  rw [List.head?_map, Option.map_eq_some_iff]
  rfl

theorem repeatsGap_iff {reading : List Condition} :
    RepeatsGap reading ↔ [true, true] <:+: reading.map Condition.isGap := by
  rw [List.infix_map_iff]
  constructor
  · rintro ⟨c, d, hc, hd, hrow⟩
    exact ⟨[c, d], hrow, by rw [List.map_cons, List.map_singleton, hc, hd]⟩
  · rintro ⟨row, hrow, heq⟩
    obtain ⟨c, rest, rfl, hc, heq⟩ := List.map_eq_cons_iff.mp heq.symm
    obtain ⟨d, rest, rfl, hd, heq⟩ := List.map_eq_cons_iff.mp heq
    rw [List.map_eq_nil_iff.mp heq] at hrow
    exact ⟨c, d, hc, hd, hrow⟩

end Trees

def anyOf (conditions : List Condition) : Chain :=
  Chain.ofBranches 0 (conditions.map fun c => [.term c 0])

section AnyOf

theorem normalBranches_terms (conditions : List Condition) :
    NormalBranches (conditions.map fun c => [.term c 0]) := by
  induction conditions with
  | nil => trivial
  | cons c rest ih => exact ⟨⟨List.cons_ne_nil _ _, rfl, trivial, trivial⟩, ih⟩

theorem normal_anyOf {conditions : List Condition} (h : conditions ≠ []) :
    NormalChain (anyOf conditions) :=
  Chain.normal_ofBranches 0 (by simpa using h) (normalBranches_terms conditions)

theorem anyOf_ne_nil (conditions : List Condition) : anyOf conditions ≠ [] :=
  Chain.ofBranches_ne_nil 0 (normalBranches_terms conditions)

theorem unplacedBranches_terms (conditions : List Condition) :
    unplacedBranches (conditions.map fun c => [.term c 0]) =
      conditions.map fun c => [.term c 0] := by
  induction conditions with
  | nil => rfl
  | cons c rest ih => rw [List.map_cons, unplacedBranches, ih]; rfl

theorem unplaced_anyOf (conditions : List Condition) :
    unplacedChain (anyOf conditions) = anyOf conditions := by
  rw [anyOf, unplacedChain_ofBranches, unplacedBranches_terms]

theorem alternatives_anyOf_subset (conditions : List Condition) :
    alternativesOfChain (anyOf conditions) ⊆ conditions.map fun c => [.term c 0] := by
  have hterms : alternativesOfBranches (conditions.map fun c => [.term c 0]) = [] := by
    induction conditions with
    | nil => rfl
    | cons c rest ih => rw [List.map_cons, alternativesOfBranches, ih]; rfl
  match conditions with
  | [] => exact List.Subset.refl _
  | [_] => exact List.nil_subset _
  | _ :: _ :: _ =>
    rw [anyOf, Chain.ofBranches_eq (by simp), alternativesOfChain, alternatives, hterms]
    rw [alternativesOfChain, List.append_nil, List.append_nil]
    exact List.Subset.refl _

end AnyOf

/-- Several conditions for each that stands at an offset. A gap stands for itself, and nothing else
for a gap. -/
structure Expansion where
  conditions : Condition → Nat → List Condition
  ne_nil (c : Condition) (position : Nat) : conditions c position ≠ []
  of_gap {c : Condition} (position : Nat) : c.isGap = true → conditions c position = [c]
  isGap_eq {c d : Condition} {position : Nat} : c.isGap = false → d ∈ conditions c position →
    d.isGap = false

namespace Expansion

def refl : Expansion where
  conditions c _ := [c]
  ne_nil c _ := List.cons_ne_nil c []
  of_gap _ _ := rfl
  isGap_eq hgap hmem := by rwa [List.mem_singleton.mp hmem]

mutual

/-- The item with a choice in the place of each term for which several conditions stand. The tree is
flattened as trees are, and tells no offsets. -/
def expand (e : Expansion) : Item → Chain
  | .term condition position => anyOf (e.conditions condition position)
  | .choice branches _ => [.choice (expandBranches e branches) 0]

def expandChain (e : Expansion) : List Item → List Item
  | [] => []
  | item :: rest => expand e item ++ expandChain e rest

def expandBranches (e : Expansion) : List (List Item) → List (List Item)
  | [] => []
  | chain :: rest => Chain.branches (expandChain e chain) ++ expandBranches e rest

end

section Normal
variable (e : Expansion)

theorem expand_ne_nil (item : Item) : e.expand item ≠ [] := by
  cases item with
  | term condition position => exact anyOf_ne_nil _
  | choice branches position => exact List.cons_ne_nil _ _

theorem expandChain_eq_nil_iff {chain : Chain} : e.expandChain chain = [] ↔ chain = [] := by
  cases chain with
  | nil => exact iff_of_true rfl rfl
  | cons item rest =>
    exact iff_of_false (List.append_ne_nil_of_left_ne_nil (e.expand_ne_nil item) _)
      (List.cons_ne_nil _ _)

mutual

theorem normal_expand (item : Item) (h : item.Normal) : NormalChain (e.expand item) := by
  match item with
  | .term condition position => exact normal_anyOf (e.ne_nil condition position)
  | .choice branches _ =>
    obtain ⟨hlength, hnormal⟩ := normal_expandBranches branches h.2
    exact ⟨⟨Nat.le_trans h.1 hlength, hnormal⟩, trivial⟩

theorem normal_expandChain (chain : List Item) (h : NormalChain chain) :
    NormalChain (e.expandChain chain) := by
  match chain with
  | [] => trivial
  | item :: rest =>
    exact normalChain_append (normal_expand item h.1) (normal_expandChain rest h.2)

theorem normal_expandBranches (branches : List (List Item)) (h : NormalBranches branches) :
    branches.length ≤ (e.expandBranches branches).length ∧
      NormalBranches (e.expandBranches branches) := by
  match branches with
  | [] => exact ⟨Nat.le_refl _, trivial⟩
  | chain :: rest =>
    have hne : e.expandChain chain ≠ [] := mt e.expandChain_eq_nil_iff.mp h.1.1
    have hchain := normal_expandChain chain h.1.2.2
    obtain ⟨hlength, hrest⟩ := normal_expandBranches rest h.2
    have hpos := List.length_pos_iff.mpr (Chain.branches_ne_nil hchain)
    rw [expandBranches]
    refine ⟨?_, normalBranches_append (Chain.normal_branches hne hchain) hrest⟩
    rw [List.length_append, List.length_cons]
    omega

end

end Normal

section Trees
variable (e : Expansion)

theorem expandChain_append (first second : Chain) :
    e.expandChain (first ++ second) = e.expandChain first ++ e.expandChain second := by
  induction first with
  | nil => rfl
  | cons item rest ih =>
    rw [List.cons_append, expandChain, ih, expandChain, List.append_assoc]

theorem expandBranches_append (first second : List Chain) :
    e.expandBranches (first ++ second) = e.expandBranches first ++ e.expandBranches second := by
  induction first with
  | nil => rfl
  | cons chain rest ih =>
    rw [List.cons_append, expandBranches, ih, expandBranches, List.append_assoc]

theorem expandBranches_branches (chain : Chain) :
    e.expandBranches chain.branches = Chain.branches (e.expandChain chain) := by
  cases hchoice : chain.isChoice with
  | false => rw [Chain.branches_eq hchoice, expandBranches, expandBranches, List.append_nil]
  | true =>
    match chain with
    | [.choice branches _] => rfl

mutual

theorem unplaced_expand (item : Item) : unplacedChain (e.expand item) = e.expand item := by
  match item with
  | .term _ _ => exact unplaced_anyOf _
  | .choice branches _ =>
    rw [expand, unplacedChain, Item.unplaced, unplaced_expandBranches branches]
    rfl

theorem unplaced_expandChain (chain : List Item) :
    unplacedChain (e.expandChain chain) = e.expandChain chain := by
  match chain with
  | [] => rfl
  | item :: rest =>
    rw [expandChain, unplacedChain_append, unplaced_expand item, unplaced_expandChain rest]

theorem unplaced_expandBranches (branches : List (List Item)) :
    unplacedBranches (e.expandBranches branches) = e.expandBranches branches := by
  match branches with
  | [] => rfl
  | chain :: rest =>
    rw [expandBranches, unplacedBranches_append, ← branches_unplaced, unplaced_expandChain chain,
      unplaced_expandBranches rest]

end

theorem expandChain_ofBranches {branches : List Chain} (hne : branches ≠ [])
    (h : NormalBranches branches) (position : Nat) :
    e.expandChain (Chain.ofBranches position branches) =
      Chain.ofBranches 0 (e.expandBranches branches) := by
  match branches with
  -- A single branch becomes the chain itself, which may have turned into a choice.
  | [chain] =>
    have hwhole := Chain.ofBranches_branches (e.normal_expandChain chain h.1.2.2)
    rw [unplacedChain_ofBranches, ← branches_unplaced, e.unplaced_expandChain chain] at hwhole
    rw [Chain.ofBranches, expandBranches, expandBranches, List.append_nil, hwhole]
  | first :: second :: rest =>
    obtain ⟨hlength, -⟩ := e.normal_expandBranches _ h
    rw [Chain.ofBranches_eq (Nat.le_trans (by simp) hlength)]
    rfl

mutual

theorem expand_refl (item : Item) (h : item.Normal) : refl.expand item = [item.unplaced] := by
  match item with
  | .term _ _ => rfl
  | .choice branches _ => rw [expand, expandBranches_refl branches h.2, Item.unplaced]

theorem expandChain_refl (chain : List Item) (h : NormalChain chain) :
    refl.expandChain chain = unplacedChain chain := by
  match chain with
  | [] => rfl
  | item :: rest =>
    rw [expandChain, expand_refl item h.1, expandChain_refl rest h.2, unplacedChain]
    rfl

theorem expandBranches_refl (branches : List (List Item)) (h : NormalBranches branches) :
    refl.expandBranches branches = unplacedBranches branches := by
  match branches with
  | [] => rfl
  | chain :: rest =>
    have hlone : Chain.isChoice (unplacedChain chain) = false := by
      rw [isChoice_unplacedChain, h.1.2.1]
    rw [expandBranches, expandChain_refl chain h.1.2.2, expandBranches_refl rest h.2,
      Chain.branches_eq hlone, unplacedBranches]
    rfl

end

end Trees

section Gaps
variable {e : Expansion}

mutual

/-- What an expanded tree is read as has its gaps where a reading of the tree has them. -/
theorem reading_expand {reading : List Condition} (item : Item)
    (h : reading ∈ readingsOfChain (e.expand item)) : ∃ original ∈ item.readings,
      reading.map Condition.isGap = original.map Condition.isGap := by
  match item with
  | .term condition position =>
    rw [expand, anyOf, Chain.readings_ofBranches, mem_readingsOfBranches] at h
    obtain ⟨branch, hmem, hreading⟩ := h
    obtain ⟨c, hc, rfl⟩ := List.mem_map.mp hmem
    obtain rfl : reading = [c] := List.mem_singleton.mp hreading
    refine ⟨[condition], List.mem_singleton.mpr rfl, ?_⟩
    cases hgap : condition.isGap with
    | true =>
      rw [e.of_gap position hgap] at hc
      rw [List.mem_singleton.mp hc]
    | false => rw [List.map_singleton, List.map_singleton, e.isGap_eq hgap hc, hgap]
  | .choice branches _ =>
    rw [expand, readingsOfChain, readingsOfChain, combine_empty] at h
    exact reading_expandBranches branches h

theorem reading_expandChain {reading : List Condition} (chain : List Item)
    (h : reading ∈ readingsOfChain (e.expandChain chain)) : ∃ original ∈ readingsOfChain chain,
      reading.map Condition.isGap = original.map Condition.isGap := by
  match chain with
  | [] => exact ⟨reading, h, rfl⟩
  | item :: rest =>
    rw [expandChain, readingsOfChain_append] at h
    obtain ⟨first, hfirst, second, hsecond, rfl⟩ := mem_combine.mp h
    obtain ⟨original, horiginal, hsame⟩ := reading_expand item hfirst
    obtain ⟨original', horiginal', hsame'⟩ := reading_expandChain rest hsecond
    exact ⟨_, mem_combine.mpr ⟨original, horiginal, original', horiginal', rfl⟩,
      by rw [List.map_append, List.map_append, hsame, hsame']⟩

theorem reading_expandBranches {reading : List Condition} (branches : List (List Item))
    (h : reading ∈ readingsOfBranches (e.expandBranches branches)) :
    ∃ original ∈ readingsOfBranches branches,
      reading.map Condition.isGap = original.map Condition.isGap := by
  match branches with
  | [] => cases h
  | chain :: rest =>
    rw [expandBranches, readingsOfBranches_append, Chain.readings_branches] at h
    rcases List.mem_append.mp h with h | h
    · obtain ⟨original, horiginal, hsame⟩ := reading_expandChain chain h
      exact ⟨original, List.mem_append_left _ horiginal, hsame⟩
    · obtain ⟨original, horiginal, hsame⟩ := reading_expandBranches rest h
      exact ⟨original, List.mem_append_right _ horiginal, hsame⟩

end

def GapHeads (branches : List Chain) : Prop :=
  ∃ branch ∈ branches, ∃ reading ∈ readingsOfChain branch, StartsWithGap reading

theorem GapHeads.mono {branches others : List Chain} (h : GapHeads branches)
    (hsubset : branches ⊆ others) : GapHeads others := by
  obtain ⟨branch, hmem, hreading⟩ := h
  exact ⟨branch, hsubset hmem, hreading⟩

theorem gapHeads_append {first second : List Chain} :
    GapHeads (first ++ second) ↔ GapHeads first ∨ GapHeads second := by
  simp only [GapHeads, List.mem_append, or_and_right, exists_or]

theorem not_gapHeads_anyOf (condition : Condition) (position : Nat) :
    ¬GapHeads (alternativesOfChain (anyOf (e.conditions condition position))) := by
  rintro ⟨branch, hmem, reading, hreading, hstarts⟩
  cases hgap : condition.isGap with
  | true =>
    rw [e.of_gap position hgap] at hmem
    cases hmem
  | false =>
    obtain ⟨c, hc, rfl⟩ := List.mem_map.mp (alternatives_anyOf_subset _ hmem)
    cases List.mem_singleton.mp hreading
    obtain ⟨d, hd, hstarts⟩ := hstarts
    cases hd
    rw [e.isGap_eq hgap hc] at hstarts
    cases hstarts

theorem gapHeads_expandBranches {branches : List Chain} (h : GapHeads (e.expandBranches branches)) :
    GapHeads branches := by
  obtain ⟨branch, hmem, reading, hreading, hstarts⟩ := h
  induction branches with
  | nil => cases hmem
  | cons chain rest ih =>
    rw [expandBranches] at hmem
    rcases List.mem_append.mp hmem with hmem | hmem
    · have hwhole : reading ∈ readingsOfChain (e.expandChain chain) := by
        rw [← Chain.readings_branches]
        exact mem_readingsOfBranches.mpr ⟨branch, hmem, hreading⟩
      obtain ⟨original, horiginal, hsame⟩ := reading_expandChain chain hwhole
      rw [startsWithGap_iff, hsame, ← startsWithGap_iff] at hstarts
      exact ⟨chain, List.mem_cons_self, original, horiginal, hstarts⟩
    · exact (ih hmem).mono (List.subset_cons_self _ _)

mutual

theorem gapHeads_expand (item : Item) (h : GapHeads (alternativesOfChain (e.expand item))) :
    GapHeads item.alternatives := by
  match item with
  | .term condition position => exact absurd h (not_gapHeads_anyOf condition position)
  | .choice branches _ =>
    rw [expand, alternativesOfChain, alternatives, alternativesOfChain, List.append_nil,
      gapHeads_append] at h
    rw [alternatives, gapHeads_append]
    exact h.imp gapHeads_expandBranches (gapHeads_alternatives branches)

theorem gapHeads_expandChain (chain : List Item)
    (h : GapHeads (alternativesOfChain (e.expandChain chain))) :
    GapHeads (alternativesOfChain chain) := by
  match chain with
  | [] => exact h
  | item :: rest =>
    rw [expandChain, alternativesOfChain_append, gapHeads_append] at h
    rw [alternativesOfChain, gapHeads_append]
    exact h.imp (gapHeads_expand item) (gapHeads_expandChain rest)

theorem gapHeads_alternatives (branches : List (List Item))
    (h : GapHeads (alternativesOfBranches (e.expandBranches branches))) :
    GapHeads (alternativesOfBranches branches) := by
  match branches with
  | [] => exact h
  | chain :: rest =>
    rw [expandBranches, alternativesOfBranches_append, gapHeads_append] at h
    rw [alternativesOfBranches, gapHeads_append]
    exact h.imp (fun h => gapHeads_expandChain chain (h.mono (alternatives_branches_subset _)))
      (gapHeads_alternatives rest)

end

theorem misplaced_of_expandChain {chain : Chain} (h : Misplaced (e.expandChain chain)) :
    Misplaced chain := by
  rcases h with ⟨hreading, hstarts⟩ | ⟨hbranch, hreading, hstarts⟩ | ⟨hreading, hrepeats⟩
  · obtain ⟨original, horiginal, hsame⟩ := reading_expandChain chain hreading
    rw [startsWithGap_iff, hsame, ← startsWithGap_iff] at hstarts
    exact .first horiginal hstarts
  · obtain ⟨branch, hmem, reading, horiginal, hgaps⟩ :=
      gapHeads_expandChain chain ⟨_, hbranch, _, hreading, hstarts⟩
    exact .branch hmem horiginal hgaps
  · obtain ⟨original, horiginal, hsame⟩ := reading_expandChain chain hreading
    rw [repeatsGap_iff, hsame, ← repeatsGap_iff] at hrepeats
    exact .repeated horiginal hrepeats

end Gaps

end Expansion
end Concordance.Pattern
