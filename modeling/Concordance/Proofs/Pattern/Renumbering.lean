import Concordance.Proofs.Pattern.Layout

/-! The graph of a tree, built from its end. Every node is made after those that it leads to, so that
it can name them; the nodes are then visited from the root on, and named by their places in that
order. Main statement: the visit comes to every node once, and the nodes, named anew, are those that
the layout gives. -/

namespace Concordance.Pattern

open Item

mutual

/-- Add the nodes of an item to those made so far, with its head. -/
def Item.lay (nodes : List Node) (next : Option Nat) : Item → List Node × Nat
  | .term condition position => (nodes ++ [⟨condition, next, [], position⟩], nodes.length)
  | .choice branches position =>
    let (nodes, heads) := layBranches nodes next branches
    let alternatives := heads.filterMap fun head => nodes[head]?.map Node.condition
    (nodes ++ [⟨.either alternatives, next, heads, position⟩], nodes.length)

def layChain (nodes : List Node) (next : Option Nat) : List Item → List Node × Option Nat
  | [] => (nodes, next)
  | item :: rest =>
    let (nodes, follower) := layChain nodes next rest
    let (nodes, head) := item.lay nodes follower
    (nodes, some head)

def layBranches (nodes : List Node) (next : Option Nat) : List (List Item) → List Node × List Nat
  | [] => (nodes, [])
  | chain :: rest =>
    let (nodes, head) := layChain nodes next chain
    let (nodes, heads) := layBranches nodes next rest
    (nodes, head.toList ++ heads)

end

/-- Visit a chain from one index up to another, or up to a node visited before: each node, then its
branches up to its follower, then what follows it. None if a node is not there, or if the visit goes
deeper than `fuel`. -/
def visit (nodes : List Node) : Nat → Option Nat → Option Nat → List Nat → Option (List Nat)
  | 0, _, _, _ => none
  | fuel + 1, index, stop, seen =>
    match index with
    | none => some seen
    | some i =>
      if stop = some i ∨ i ∈ seen then some seen
      else do
        let node ← nodes[i]?
        let seen ← node.children.foldlM
          (fun seen child => visit nodes fuel (some child) node.next seen) (seen ++ [i])
        visit nodes fuel node.next stop seen

/-- A node that names others by their places in an order; none if one of them has no place. -/
def Node.renamed (order : List Nat) (node : Node) : Option Node := do
  let next ← node.next.mapM order.idxOf?
  let children ← node.children.mapM order.idxOf?
  return { node with next, children }

def renumber (nodes : List Node) (order : List Nat) : Option (List Node) :=
  order.mapM fun i => nodes[i]? >>= Node.renamed order

section Made

def Chain.madeEntrance (base : Nat) (next : Option Nat) (chain : Chain) : Option Nat :=
  if chain.isEmpty then next else some (base + (sizeOfChain chain - 1))

def madeHeads (base : Nat) : List Chain → List Nat
  | [] => []
  | chain :: rest =>
    (base + (sizeOfChain chain - 1)) :: madeHeads (base + sizeOfChain chain) rest

mutual

def Item.made (base : Nat) (next : Option Nat) : Item → List Node
  | .term condition position => [⟨condition, next, [], position⟩]
  | .choice branches position =>
    madeBranches base next branches ++
      [⟨.either (headConditions branches), next, madeHeads base branches, position⟩]

def madeChain (base : Nat) (next : Option Nat) : List Item → List Node
  | [] => []
  | item :: rest =>
    madeChain base next rest ++
      item.made (base + sizeOfChain rest) (Chain.madeEntrance base next rest)

def madeBranches (base : Nat) (next : Option Nat) : List (List Item) → List Node
  | [] => []
  | chain :: rest =>
    madeChain base next chain ++ madeBranches (base + sizeOfChain chain) next rest

end

mutual

def Item.visits (base : Nat) : Item → List Nat
  | .term _ _ => [base]
  | .choice branches _ => (base + sizeOfBranches branches) :: visitsBranches base branches

def visitsChain (base : Nat) : List Item → List Nat
  | [] => []
  | item :: rest => item.visits (base + sizeOfChain rest) ++ visitsChain base rest

def visitsBranches (base : Nat) : List (List Item) → List Nat
  | [] => []
  | chain :: rest => visitsChain base chain ++ visitsBranches (base + sizeOfChain chain) rest

end

mutual

@[simp] theorem length_made (item : Item) (base : Nat) (next : Option Nat) :
    (item.made base next).length = item.size := by
  match item with
  | .term _ _ => rfl
  | .choice branches _ =>
    rw [Item.made, List.length_append, length_madeBranches, List.length_singleton, Item.size]

@[simp] theorem length_madeChain (chain : List Item) (base : Nat) (next : Option Nat) :
    (madeChain base next chain).length = sizeOfChain chain := by
  match chain with
  | [] => rfl
  | item :: rest =>
    rw [madeChain, List.length_append, length_made, length_madeChain, sizeOfChain, Nat.add_comm]

@[simp] theorem length_madeBranches (branches : List (List Item)) (base : Nat)
    (next : Option Nat) : (madeBranches base next branches).length = sizeOfBranches branches := by
  match branches with
  | [] => rfl
  | chain :: rest =>
    rw [madeBranches, List.length_append, length_madeChain, length_madeBranches, sizeOfBranches]

end

mutual

theorem visits_perm (item : Item) (base : Nat) :
    (item.visits base).Perm (List.range' base item.size) := by
  match item with
  | .term _ _ => exact .refl _
  | .choice branches _ =>
    rw [Item.visits, Item.size, List.range'_concat, Nat.one_mul]
    exact ((visitsBranches_perm branches base).cons _).trans (List.perm_append_singleton _ _).symm

theorem visitsChain_perm (chain : List Item) (base : Nat) :
    (visitsChain base chain).Perm (List.range' base (sizeOfChain chain)) := by
  match chain with
  | [] => exact .refl _
  | item :: rest =>
    rw [visitsChain, sizeOfChain, Nat.add_comm item.size, ← List.range'_append_1]
    exact List.perm_append_comm.trans ((visitsChain_perm rest base).append (visits_perm item _))

theorem visitsBranches_perm (branches : List (List Item)) (base : Nat) :
    (visitsBranches base branches).Perm (List.range' base (sizeOfBranches branches)) := by
  match branches with
  | [] => exact .refl _
  | chain :: rest =>
    rw [visitsBranches, sizeOfBranches, ← List.range'_append_1]
    exact (visitsChain_perm chain base).append (visitsBranches_perm rest _)

end

theorem length_visits (item : Item) (base : Nat) : (item.visits base).length = item.size := by
  rw [(visits_perm item base).length_eq, List.length_range']

theorem length_visitsChain (chain : Chain) (base : Nat) :
    (visitsChain base chain).length = sizeOfChain chain := by
  rw [(visitsChain_perm chain base).length_eq, List.length_range']

theorem last_sizeOfChain (item : Item) (rest : Chain) (base : Nat) :
    base + (sizeOfChain (item :: rest) - 1) = base + sizeOfChain rest + (item.size - 1) := by
  have hpos := item.size_pos
  rw [sizeOfChain]
  omega

theorem Item.visits_eq_cons (item : Item) (base : Nat) :
    ∃ rest, item.visits base = (base + (item.size - 1)) :: rest := by
  cases item <;> exact ⟨_, rfl⟩

theorem visitsChain_eq_cons {chain : Chain} (hne : chain ≠ []) (base : Nat) :
    ∃ rest, visitsChain base chain = (base + (sizeOfChain chain - 1)) :: rest := by
  match chain with
  | item :: rest =>
    obtain ⟨others, hitem⟩ := item.visits_eq_cons (base + sizeOfChain rest)
    rw [visitsChain, hitem, last_sizeOfChain]
    exact ⟨_, rfl⟩

theorem Chain.madeEntrance_of_ne_nil {chain : Chain} (hne : chain ≠ []) (base : Nat)
    (next : Option Nat) :
    madeEntrance base next chain = some (base + (sizeOfChain chain - 1)) := by
  rw [madeEntrance, List.isEmpty_eq_false_iff.mpr hne]
  rfl

end Made

section Lay

def MadeAt (nodes : List Node) : Nat → List Node → Prop :=
  EachFrom fun i node => nodes[i]? = some node

theorem madeAt_append (nodes made : List Node) : MadeAt (nodes ++ made) nodes.length made := by
  intro k node hk
  rw [List.getElem?_append_right (Nat.le_add_right _ _), Nat.add_sub_cancel_left]
  exact hk

section MadeAt
variable {nodes : List Node} {base : Nat} {next : Option Nat}

theorem madeAt_choice {branches : List Chain} {position : Nat} :
    MadeAt nodes base ((Item.choice branches position).made base next) ↔
      MadeAt nodes base (madeBranches base next branches) ∧
        nodes[base + sizeOfBranches branches]? = some
          ⟨.either (headConditions branches), next, madeHeads base branches, position⟩ := by
  rw [Item.made, MadeAt, eachFrom_append, eachFrom_cons, length_madeBranches]
  exact and_congr_right fun _ => and_iff_left eachFrom_nil

theorem madeAt_madeChain {item : Item} {rest : Chain} :
    MadeAt nodes base (madeChain base next (item :: rest)) ↔
      MadeAt nodes base (madeChain base next rest) ∧ MadeAt nodes (base + sizeOfChain rest)
        (item.made (base + sizeOfChain rest) (Chain.madeEntrance base next rest)) := by
  rw [madeChain, MadeAt, eachFrom_append, length_madeChain]

theorem madeAt_madeBranches {chain : Chain} {rest : List Chain} :
    MadeAt nodes base (madeBranches base next (chain :: rest)) ↔
      MadeAt nodes base (madeChain base next chain) ∧ MadeAt nodes (base + sizeOfChain chain)
        (madeBranches (base + sizeOfChain chain) next rest) := by
  rw [madeBranches, MadeAt, eachFrom_append, length_madeChain]

end MadeAt

theorem head_made {nodes : List Node} (item : Item) {base : Nat} {next : Option Nat}
    (h : MadeAt nodes base (item.made base next)) :
    nodes[base + (item.size - 1)]?.map Node.condition = some item.condition := by
  match item with
  | .term condition position =>
    obtain ⟨hnode, -⟩ := eachFrom_cons.mp h
    exact congrArg (Option.map Node.condition) hnode
  | .choice branches position =>
    obtain ⟨-, hnode⟩ := madeAt_choice.mp h
    exact congrArg (Option.map Node.condition) hnode

theorem conditions_madeBranches {nodes : List Node} {branches : List Chain}
    (hnormal : NormalBranches branches) {base : Nat} {next : Option Nat}
    (h : MadeAt nodes base (madeBranches base next branches)) :
    (madeHeads base branches).filterMap (fun head => nodes[head]?.map Node.condition) =
      headConditions branches := by
  induction branches generalizing base with
  | nil => rfl
  | cons chain rest ih =>
    obtain ⟨⟨hne, -, -⟩, hrest⟩ := hnormal
    obtain ⟨hchain, hothers⟩ := madeAt_madeBranches.mp h
    match chain with
    | item :: tail =>
      obtain ⟨-, hitem⟩ := madeAt_madeChain.mp hchain
      rw [madeHeads, List.filterMap_cons, last_sizeOfChain, head_made item hitem,
        ih hrest hothers, headConditions]

mutual

theorem lay_eq (item : Item) (h : item.Normal) (nodes : List Node) (next : Option Nat) :
    item.lay nodes next =
      (nodes ++ item.made nodes.length next, nodes.length + (item.size - 1)) := by
  match item with
  | .term _ _ => rfl
  | .choice branches position =>
    have hconditions := conditions_madeBranches h.2
      (madeAt_append nodes (madeBranches nodes.length next branches))
    rw [Item.lay, layBranches_eq branches h.2]
    simp only [hconditions, List.append_assoc, List.length_append, length_madeBranches]
    rfl

theorem layChain_eq (chain : List Item) (h : NormalChain chain) (nodes : List Node)
    (next : Option Nat) : layChain nodes next chain =
      (nodes ++ madeChain nodes.length next chain, Chain.madeEntrance nodes.length next chain) := by
  match chain with
  | [] => simp [layChain, madeChain, Chain.madeEntrance]
  | item :: rest =>
    have hpos := item.size_pos
    simp only [layChain, layChain_eq rest h.2, lay_eq item h.1]
    rw [List.append_assoc, List.length_append, length_madeChain, madeChain,
      Chain.madeEntrance_of_ne_nil (List.cons_ne_nil item rest), sizeOfChain]
    congr 2
    omega

theorem layBranches_eq (branches : List (List Item)) (h : NormalBranches branches)
    (nodes : List Node) (next : Option Nat) : layBranches nodes next branches =
      (nodes ++ madeBranches nodes.length next branches, madeHeads nodes.length branches) := by
  match branches with
  | [] => simp [layBranches, madeBranches, madeHeads]
  | chain :: rest =>
    simp only [layBranches, layChain_eq chain h.1.2.2, layBranches_eq rest h.2]
    rw [Chain.madeEntrance_of_ne_nil h.1.1, List.append_assoc, List.length_append,
      length_madeChain, madeBranches, madeHeads]
    rfl

end

end Lay

section Visit
variable {nodes : List Node}

theorem visit_end (fuel : Nat) (stop : Option Nat) (seen : List Nat) :
    visit nodes (fuel + 1) stop stop seen = some seen := by
  cases stop with
  | none => rfl
  | some i =>
    rw [visit]
    simp only [true_or, if_true]

theorem visit_node {fuel i : Nat} {stop : Option Nat} {seen : List Nat} {node : Node}
    (hstop : stop ≠ some i) (hseen : i ∉ seen) (hnode : nodes[i]? = some node) :
    visit nodes (fuel + 1) (some i) stop seen =
      (node.children.foldlM (fun seen child => visit nodes fuel (some child) node.next seen)
        (seen ++ [i])) >>= visit nodes fuel node.next stop := by
  rw [visit]
  simp only [hstop, hseen, or_self, if_false, hnode]
  rfl

/-- None of some indices is in a stretch. A visit comes to nodes that it has not seen: what it has seen
was made before or behind them, or is a choice around them, made last. -/
def Clear (base size : Nat) (seen : List Nat) : Prop := ∀ i ∈ seen, i < base ∨ base + size ≤ i

theorem Clear.append {base size start extent : Nat} {seen more : List Nat}
    (h : Clear base size seen) (hmore : more.Perm (List.range' start extent))
    (happart : start + extent ≤ base ∨ base + size ≤ start) : Clear base size (seen ++ more) := by
  intro i hmem
  rcases List.mem_append.mp hmem with hmem | hmem
  · exact h i hmem
  · have hrange := List.mem_range'_1.mp (hmore.mem_iff.mp hmem)
    omega

theorem Clear.within {base size start extent : Nat} {seen : List Nat} (h : Clear base size seen)
    (hstart : base ≤ start) (hend : start + extent ≤ base + size) : Clear start extent seen := by
  intro i hmem
  have hi := h i hmem
  omega

theorem madeEntrance_lt {base : Nat} {next : Option Nat} (chain : Chain)
    (hnext : ∀ j, next = some j → j < base) {j : Nat}
    (h : Chain.madeEntrance base next chain = some j) : j < base + sizeOfChain chain := by
  cases chain with
  | nil => exact hnext j h
  | cons item rest =>
    have hpos := sizeOfChain_pos (List.cons_ne_nil item rest)
    rw [Chain.madeEntrance_of_ne_nil (List.cons_ne_nil item rest)] at h
    cases h
    omega

mutual

theorem visit_made (item : Item) (h : item.Normal) {base fuel : Nat} {next stop : Option Nat}
    {seen : List Nat} (hmade : MadeAt nodes base (item.made base next))
    (hnext : ∀ j, next = some j → j < base) (hseen : Clear base item.size seen)
    (hstop : stop ≠ some (base + (item.size - 1))) (hfuel : item.size ≤ fuel) :
    visit nodes (fuel + 1) (some (base + (item.size - 1))) stop seen =
      visit nodes fuel next stop (seen ++ item.visits base) := by
  have hpos := item.size_pos
  have hfresh : base + (item.size - 1) ∉ seen := by
    intro hmem
    have hclear := hseen _ hmem
    omega
  match item with
  | .term condition position =>
    obtain ⟨hnode, -⟩ := eachFrom_cons.mp hmade
    rw [visit_node hstop hfresh hnode]
    rfl
  | .choice branches position =>
    obtain ⟨hbranches, hnode⟩ := madeAt_choice.mp hmade
    rw [Item.size] at hseen hfuel
    have hclear : Clear base (sizeOfBranches branches) (seen ++ [base + sizeOfBranches branches]) :=
      (hseen.within (Nat.le_refl base) (by omega)).append (.refl (List.range' _ 1))
        (.inr (Nat.le_refl _))
    have hbody := visit_madeBranches branches h.2 hbranches hnext hclear
      (show sizeOfBranches branches < fuel by omega)
    rw [visit_node hstop hfresh hnode]
    change ((madeHeads base branches).foldlM _ (seen ++ [base + sizeOfBranches branches])) >>= _ = _
    rw [hbody, List.append_assoc]
    rfl

theorem visit_madeChain (chain : List Item) (h : NormalChain chain) {base fuel : Nat}
    {next : Option Nat} {seen : List Nat} (hmade : MadeAt nodes base (madeChain base next chain))
    (hnext : ∀ j, next = some j → j < base) (hseen : Clear base (sizeOfChain chain) seen)
    (hfuel : sizeOfChain chain < fuel) :
    visit nodes fuel (Chain.madeEntrance base next chain) next seen =
      some (seen ++ visitsChain base chain) := by
  match fuel, chain with
  | fuel + 1, [] =>
    rw [visitsChain, List.append_nil]
    exact visit_end fuel next seen
  | fuel + 1, item :: rest =>
    obtain ⟨hrest, hitem⟩ := madeAt_madeChain.mp hmade
    rw [sizeOfChain] at hseen hfuel
    have hpos := item.size_pos
    -- The follower was made before the chain, so none of its items is taken for it.
    have hstop : next ≠ some (base + sizeOfChain rest + (item.size - 1)) := by
      intro heq
      have hlt := hnext _ heq
      omega
    have hitemClear : Clear (base + sizeOfChain rest) item.size seen :=
      hseen.within (Nat.le_add_right _ _) (by omega)
    have hrestClear : Clear base (sizeOfChain rest)
        (seen ++ item.visits (base + sizeOfChain rest)) :=
      (hseen.within (Nat.le_refl base) (by omega)).append (visits_perm item _)
        (.inr (Nat.le_refl _))
    rw [Chain.madeEntrance_of_ne_nil (List.cons_ne_nil item rest), last_sizeOfChain,
      visit_made item h.1 hitem (fun j => madeEntrance_lt rest hnext) hitemClear hstop (by omega),
      visit_madeChain rest h.2 hrest hnext hrestClear (by omega), visitsChain, List.append_assoc]

theorem visit_madeBranches (branches : List (List Item)) (h : NormalBranches branches)
    {base fuel : Nat} {next : Option Nat} {seen : List Nat}
    (hmade : MadeAt nodes base (madeBranches base next branches))
    (hnext : ∀ j, next = some j → j < base) (hseen : Clear base (sizeOfBranches branches) seen)
    (hfuel : sizeOfBranches branches < fuel) :
    (madeHeads base branches).foldlM (fun seen child => visit nodes fuel (some child) next seen)
      seen = some (seen ++ visitsBranches base branches) := by
  match branches with
  | [] => simp [madeHeads, visitsBranches]
  | chain :: rest =>
    obtain ⟨hchain, hrest⟩ := madeAt_madeBranches.mp hmade
    rw [sizeOfBranches] at hseen hfuel
    have hfirst := visit_madeChain chain h.1.2.2 hchain hnext
      (hseen.within (Nat.le_refl base) (by omega)) (Nat.lt_of_le_of_lt (Nat.le_add_right _ _) hfuel)
    have hclear : Clear (base + sizeOfChain chain) (sizeOfBranches rest)
        (seen ++ visitsChain base chain) :=
      (hseen.within (Nat.le_add_right _ _) (by omega)).append (visitsChain_perm chain base)
        (.inl (Nat.le_refl _))
    have hbehind : ∀ j, next = some j → j < base + sizeOfChain chain := fun j hj =>
      Nat.lt_of_lt_of_le (hnext j hj) (Nat.le_add_right _ _)
    rw [Chain.madeEntrance_of_ne_nil h.1.1] at hfirst
    rw [madeHeads, List.foldlM_cons, hfirst]
    change (madeHeads _ rest).foldlM _ _ = _
    rw [visit_madeBranches rest h.2 hrest hbehind hclear (by omega), visitsBranches,
      List.append_assoc]

end

end Visit

section Rename
variable {nodes : List Node} {order : List Nat}

def PlacedFrom (order : List Nat) : Nat → List Nat → Prop
  | _, [] => True
  | place, i :: rest => order.idxOf? i = some place ∧ PlacedFrom order (place + 1) rest

theorem placedFrom_append {place : Nat} {first second : List Nat} :
    PlacedFrom order place (first ++ second) ↔
      PlacedFrom order place first ∧ PlacedFrom order (place + first.length) second := by
  induction first generalizing place with
  | nil => simp [PlacedFrom]
  | cons i rest ih =>
    rw [List.cons_append, PlacedFrom, PlacedFrom, ih, and_assoc, List.length_cons,
      Nat.add_assoc, Nat.add_comm 1]

theorem placedFrom_self (before : List Nat) {order : List Nat} (h : (before ++ order).Nodup) :
    PlacedFrom (before ++ order) before.length order := by
  induction order generalizing before with
  | nil => trivial
  | cons i rest ih =>
    have hfirst : i ∉ before := fun hmem =>
      (List.nodup_append.mp h).2.2 i hmem i List.mem_cons_self rfl
    have hsplit : before ++ i :: rest = (before ++ [i]) ++ rest := by simp
    refine ⟨List.idxOf?_eq_some_iff.mpr ⟨by simp, by simp, fun j hj => ?_⟩, ?_⟩
    · rw [List.getElem_append_left hj]
      exact fun heq => hfirst (heq ▸ List.getElem_mem hj)
    · have hrest := ih (before ++ [i]) (hsplit ▸ h)
      rwa [← hsplit, List.length_append, List.length_singleton] at hrest

theorem placed_madeHeads {branches : List Chain} (h : NormalBranches branches)
    {base place : Nat} (hplaced : PlacedFrom order place (visitsBranches base branches)) :
    (madeHeads base branches).mapM order.idxOf? = some (branchHeads place branches) := by
  induction branches generalizing base place with
  | nil => rfl
  | cons chain rest ih =>
    obtain ⟨hchain, hrest⟩ := placedFrom_append.mp hplaced
    rw [length_visitsChain] at hrest
    obtain ⟨others, hvisits⟩ := visitsChain_eq_cons h.1.1 base
    rw [hvisits] at hchain
    rw [madeHeads, List.mapM_cons, hchain.1, ih h.2 hrest]
    rfl

theorem placed_madeEntrance {chain : Chain} {base place : Nat} {next follower : Option Nat}
    (hplaced : PlacedFrom order place (visitsChain base chain))
    (hnext : next.mapM order.idxOf? = some follower) :
    (Chain.madeEntrance base next chain).mapM order.idxOf? =
      some (Chain.entrance place follower chain) := by
  match chain with
  | [] => exact hnext
  | item :: rest =>
    obtain ⟨others, hvisits⟩ := visitsChain_eq_cons (List.cons_ne_nil item rest) base
    rw [hvisits] at hplaced
    rw [Chain.madeEntrance_of_ne_nil (List.cons_ne_nil item rest)]
    exact congrArg (Option.map some) hplaced.1

mutual

theorem renamed_made (item : Item) (h : item.Normal) {base place : Nat}
    {next follower : Option Nat} (hmade : MadeAt nodes base (item.made base next))
    (hplaced : PlacedFrom order place (item.visits base))
    (hnext : next.mapM order.idxOf? = some follower) :
    (item.visits base).mapM (fun i => nodes[i]? >>= Node.renamed order) =
      some (item.layout place follower) := by
  match item with
  | .term condition position =>
    obtain ⟨hnode, -⟩ := eachFrom_cons.mp hmade
    simp [Item.visits, hnode, Node.renamed, hnext, Item.layout]
  | .choice branches position =>
    obtain ⟨hbranches, hnode⟩ := madeAt_choice.mp hmade
    have hheads := placed_madeHeads h.2 hplaced.2
    have hrest := renamed_madeBranches branches h.2 hbranches hplaced.2 hnext
    rw [Item.visits, List.mapM_cons, hrest, hnode]
    simp [Node.renamed, hnext, hheads, Item.layout]

theorem renamed_madeChain (chain : List Item) (h : NormalChain chain) {base place : Nat}
    {next follower : Option Nat} (hmade : MadeAt nodes base (madeChain base next chain))
    (hplaced : PlacedFrom order place (visitsChain base chain))
    (hnext : next.mapM order.idxOf? = some follower) :
    (visitsChain base chain).mapM (fun i => nodes[i]? >>= Node.renamed order) =
      some (layoutChain place follower chain) := by
  match chain with
  | [] => rfl
  | item :: rest =>
    obtain ⟨hrest, hitem⟩ := madeAt_madeChain.mp hmade
    obtain ⟨hitemPlaced, hrestPlaced⟩ := placedFrom_append.mp hplaced
    rw [length_visits] at hrestPlaced
    rw [visitsChain, List.mapM_append,
      renamed_made item h.1 hitem hitemPlaced (placed_madeEntrance hrestPlaced hnext),
      renamed_madeChain rest h.2 hrest hrestPlaced hnext, layoutChain_cons]
    rfl

theorem renamed_madeBranches (branches : List (List Item)) (h : NormalBranches branches)
    {base place : Nat} {next follower : Option Nat}
    (hmade : MadeAt nodes base (madeBranches base next branches))
    (hplaced : PlacedFrom order place (visitsBranches base branches))
    (hnext : next.mapM order.idxOf? = some follower) :
    (visitsBranches base branches).mapM (fun i => nodes[i]? >>= Node.renamed order) =
      some (layoutBranches place follower branches) := by
  match branches with
  | [] => rfl
  | chain :: rest =>
    obtain ⟨hchain, hrest⟩ := madeAt_madeBranches.mp hmade
    obtain ⟨hchainPlaced, hrestPlaced⟩ := placedFrom_append.mp hplaced
    rw [length_visitsChain] at hrestPlaced
    rw [visitsBranches, List.mapM_append,
      renamed_madeChain chain h.1.2.2 hchain hchainPlaced hnext,
      renamed_madeBranches rest h.2 hrest hrestPlaced hnext, layoutBranches]
    rfl

end

end Rename

/-- The nodes made from the end of a chain are visited once each, and in the order of the visit they
are the layout of the chain. -/
theorem renumber_layChain {chain : Chain} (hne : chain ≠ []) (h : NormalChain chain) :
    ∃ nodes head order, layChain [] none chain = (nodes, some head) ∧
      visit nodes (nodes.length + 1) (some head) none [] = some order ∧
      order.Perm (List.range nodes.length) ∧
      renumber nodes order = some (layoutChain 0 none chain) := by
  have hlaid := layChain_eq chain h [] none
  rw [List.nil_append, List.length_nil, Chain.madeEntrance_of_ne_nil hne] at hlaid
  have hmade : MadeAt (madeChain 0 none chain) 0 (madeChain 0 none chain) :=
    madeAt_append [] (madeChain 0 none chain)
  have hclear : Clear 0 (sizeOfChain chain) [] := nofun
  have hvisit := visit_madeChain chain h hmade nofun hclear (Nat.lt_succ_self (sizeOfChain chain))
  rw [Chain.madeEntrance_of_ne_nil hne, List.nil_append] at hvisit
  have hperm := visitsChain_perm chain 0
  have hplaced : PlacedFrom (visitsChain 0 chain) 0 (visitsChain 0 chain) :=
    placedFrom_self [] (hperm.nodup_iff.mpr List.nodup_range')
  refine ⟨_, _, visitsChain 0 chain, hlaid, ?_, ?_, renamed_madeChain chain h hmade hplaced rfl⟩
  · rw [length_madeChain]
    exact hvisit
  · rw [length_madeChain, List.range_eq_range']
    exact hperm

end Concordance.Pattern
