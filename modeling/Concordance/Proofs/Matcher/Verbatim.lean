import Concordance.Proofs.Matcher.Streaming
import Concordance.Proofs.Pattern.Gaps
import Concordance.Proofs.Pattern.Rewriting

/-! A stream written as a pattern. Each form stands between quotes, where no sign of the pattern
language means anything but itself, and is a test for just this form. Tests one behind another are a
row of nodes, and a matcher goes along the row as it goes along the stream. Main statement: a stream
is found in itself, once and as a whole. -/

namespace Concordance

namespace Occurrence

/-- The form can stand between quotes: it has characters, none of which is a quote, and it is no
name of a category. -/
structure Quotable (o : Occurrence) : Prop where
  orth_ne : o.orth ≠ ""
  quote_not_mem : '\x22' ∉ o.orth.toList
  isKnown_eq : Category.isKnown o.orth = false

instance (o : Occurrence) : Decidable o.Quotable :=
  decidable_of_iff (o.orth ≠ "" ∧ '\x22' ∉ o.orth.toList ∧ Category.isKnown o.orth = false)
    ⟨fun ⟨hne, hquote, hname⟩ => ⟨hne, hquote, hname⟩, fun ⟨hne, hquote, hname⟩ =>
      ⟨hne, hquote, hname⟩⟩

def sameForm (o : Occurrence) : Condition := .form o.orth .quoted

@[simp] theorem accepts_sameForm (o other : Occurrence) :
    o.sameForm.accepts other = true ↔ other.orth = o.orth := by
  simp [sameForm, Condition.accepts]

@[simp] theorem isGap_sameForm (o : Occurrence) : o.sameForm.isGap = false := rfl

end Occurrence

namespace Pattern

open Item

def quoting (os : List Occurrence) : String :=
  " ".intercalate (os.map fun o => "\x22" ++ o.orth ++ "\x22")

def rowOf (conditions : List Condition) : Chain := conditions.map fun c => .term c 0

/-- The nodes of a pattern are tests for some conditions, one behind another: none is a choice, and
each leads to the next. -/
structure Row (p : Pattern) (conditions : List Condition) : Prop where
  size_eq : p.size = conditions.length
  node_eq {i : Nat} {c : Condition} : conditions[i]? = some c → ∃ position, p.node? i =
    some ⟨c, if i + 1 < conditions.length then some (i + 1) else none, [], position⟩

section RowOf
variable {conditions : List Condition}

theorem displayItems_rowOf (conditions : List Condition) :
    displayItems (rowOf conditions) = conditions.map Condition.display := by
  induction conditions with
  | nil => rfl
  | cons c rest ih =>
    rw [List.map_cons, ← ih]
    rfl

theorem normal_rowOf (conditions : List Condition) : NormalChain (rowOf conditions) := by
  induction conditions with
  | nil => trivial
  | cons c rest ih => exact ⟨trivial, ih⟩

theorem leaves_rowOf (conditions : List Condition) :
    leavesOfChain (rowOf conditions) = conditions.map (·, 0) := by
  induction conditions with
  | nil => rfl
  | cons c rest ih =>
    rw [List.map_cons, ← ih]
    rfl

theorem unplaced_rowOf (conditions : List Condition) :
    unplacedChain (rowOf conditions) = rowOf conditions := by
  induction conditions with
  | nil => rfl
  | cons c rest ih =>
    rw [rowOf, List.map_cons, unplacedChain]
    exact congrArg (_ :: ·) ih

theorem size_rowOf (conditions : List Condition) :
    sizeOfChain (rowOf conditions) = conditions.length := by
  induction conditions with
  | nil => rfl
  | cons c rest ih =>
    rw [List.length_cons, ← ih, Nat.add_comm]
    rfl

theorem getElem?_layout_rowOf (index : Nat) (next : Option Nat) (k : Nat) :
    (layoutChain index next (rowOf conditions))[k]? = conditions[k]?.map fun c =>
      ⟨c, if k + 1 < conditions.length then some (index + k + 1) else next, [], 0⟩ := by
  induction conditions generalizing index k with
  | nil => rfl
  | cons c rest ih =>
    have hlayout : layoutChain index next (rowOf (c :: rest)) =
        ⟨c, if rest.isEmpty then next else some (index + 1), [], 0⟩ ::
          layoutChain (index + 1) next (rowOf rest) := by
      cases rest <;> rfl
    rw [hlayout]
    cases k with
    | zero => cases rest <;> simp
    | succ k =>
      rw [List.getElem?_cons_succ, List.getElem?_cons_succ, ih, List.length_cons,
        Nat.add_right_comm index 1 k, Nat.add_assoc index k 1]
      simp

theorem row_ofChain {chain : Chain} (h : unplacedChain chain = rowOf conditions)
    (source : String) : (ofChain chain source).Row conditions := by
  rw [← unplaced_rowOf] at h
  have hunplaced := unplaced_ofChain h source ""
  refine ⟨?_, fun {i c} hc => ?_⟩
  · rw [← size_unplaced, hunplaced, size_unplaced, size_ofChain, size_rowOf]
  · have hnode := node?_unplaced (ofChain chain source) i
    rw [hunplaced, node?_unplaced] at hnode
    have hlaid : (ofChain (rowOf conditions) "").node? i =
        (layoutChain 0 none (rowOf conditions))[i]? := List.getElem?_toArray
    rw [hlaid, getElem?_layout_rowOf, hc] at hnode
    obtain ⟨⟨_, _, _, position⟩, hnode, heq⟩ := Option.map_eq_some_iff.mp hnode.symm
    simp only [Node.unplaced, Node.mk.injEq] at heq
    obtain ⟨rfl, rfl, rfl, -⟩ := heq
    exact ⟨position, by rw [hnode, Nat.zero_add]⟩

end RowOf

section Row
variable {p : Pattern} {conditions : List Condition} {stream : List Occurrence}

theorem Row.term_of_mem (h : p.Row conditions) {node : Node} (hnode : node ∈ p.nodes) :
    node.isChoice = false ∧ node.condition ∈ conditions := by
  obtain ⟨i, hi⟩ := Array.mem_iff_getElem?.mp hnode
  obtain ⟨hlt, -⟩ := Array.getElem?_eq_some_iff.mp hi
  have hc := List.getElem?_eq_getElem (h.size_eq ▸ hlt : i < conditions.length)
  obtain ⟨position, hterm⟩ := h.node_eq hc
  cases hi.symm.trans hterm
  exact ⟨rfl, List.mem_of_getElem? hc⟩

theorem Row.chainFrom_eq (h : p.Row conditions) {fuel i : Nat}
    (hlength : i + fuel = conditions.length) :
    p.chainFrom fuel (if i < conditions.length then some i else none) none =
      List.range' i fuel := by
  induction fuel generalizing i with
  | zero => rfl
  | succ fuel ih =>
    have hlt : i < conditions.length := by omega
    obtain ⟨position, hnode⟩ := h.node_eq (List.getElem?_eq_getElem hlt)
    rw [if_pos hlt, chainFrom]
    simp only [hnode, reduceCtorEq, if_false]
    rw [ih (by omega), List.range'_succ]

theorem Row.chain_eq (h : p.Row conditions) (hne : conditions ≠ []) :
    p.chain = List.range conditions.length := by
  have hchain := h.chainFrom_eq (Nat.zero_add _)
  rw [if_pos (List.length_pos_iff.mpr hne), ← List.range_eq_range', ← h.size_eq] at hchain
  rw [chain, ← h.size_eq]
  exact hchain

section Taken
variable (haccepts : List.Forall₂ (fun c o => c.accepts o = true) conditions stream)
include haccepts

theorem Row.accept?_eq (h : p.Row conditions) {i : Nat} {o : Occurrence}
    (ho : stream[i]? = some o) :
    p.accept? o i = some (if i + 1 < stream.length then some (i + 1) else none) := by
  obtain ⟨hlt, rfl⟩ := List.getElem?_eq_some_iff.mp ho
  have hi : i < conditions.length := haccepts.length_eq ▸ hlt
  have haccept : conditions[i].accepts stream[i] = true := haccepts.get hi hlt
  obtain ⟨position, hnode⟩ := h.node_eq (List.getElem?_eq_getElem hi)
  rw [accept?_term hnode rfl]
  dsimp only
  rw [if_pos haccept, haccepts.length_eq]

end Taken

section Gapless
variable (hgaps : ∀ c ∈ conditions, c.isGap = false)
include hgaps

theorem Row.isGap_eq (h : p.Row conditions) {node : Node} (hnode : node ∈ p.nodes) :
    node.isGap = false := hgaps _ (h.term_of_mem hnode).2

theorem Row.any_isGap_eq (h : p.Row conditions) (i : Nat) :
    (p.node? i).any Node.isGap = false := by
  cases hnode : p.node? i with
  | none => rfl
  | some node => exact h.isGap_eq hgaps (Array.mem_of_getElem? hnode)

theorem Row.gaps_eq (h : p.Row conditions) : p.gaps = [] :=
  List.filter_eq_nil_iff.mpr fun i _ => Bool.eq_false_iff.mp (h.any_isGap_eq hgaps i)

theorem Row.checkGaps_eq (h : p.Row conditions) : checkGaps p = .ok () := by
  have hhead : headGap? p = none := List.findSome?_eq_none_iff.mpr fun i _ =>
    Option.filter_eq_none_iff.mpr fun node hnode =>
      Bool.eq_false_iff.mp (h.isGap_eq hgaps (Array.mem_of_getElem? hnode))
  have hrepeated : repeatedGap? p = none := List.findSome?_eq_none_iff.mpr fun node hmem =>
    if_neg (Bool.eq_false_iff.mp (h.isGap_eq hgaps (Array.mem_toList_iff.mp hmem)))
  rw [checkGaps, hhead, hrepeated]

variable (haccepts : List.Forall₂ (fun c o => c.accepts o = true) conditions stream)
include haccepts

theorem Row.attempt_eq (h : p.Row conditions) {i : Nat} (hi : i ≤ stream.length) :
    p.attempt stream (if i < stream.length then some i else none) i =
      .matched stream.length := by
  -- By what is left of the stream: an attempt ends with the row, which ends with the stream.
  induction hleft : stream.length - i generalizing i with
  | zero =>
    obtain rfl : i = stream.length := by omega
    rw [if_neg (Nat.lt_irrefl _), attempt]
  | succ left ih =>
    have hlt : i < stream.length := by omega
    have ho := List.getElem?_eq_getElem hlt
    rw [if_pos hlt, attempt_node ho (h.any_isGap_eq hgaps i), h.accept?_eq haccepts ho]
    exact ih hlt (by omega)

theorem Row.extents_eq (h : p.Row conditions) (hne : stream ≠ []) :
    p.extents stream 0 = [(0, stream.length)] := by
  have hlt : 0 < stream.length := List.length_pos_iff.mpr hne
  have ho := List.getElem?_eq_getElem hlt
  have hattempt := h.attempt_eq hgaps haccepts (i := 0 + 1) hlt
  rw [extents_accept ho (h.accept?_eq haccepts ho), root, hattempt, resume,
    extents_end (Nat.le_refl _)]

end Gapless
end Row

theorem compile_quoting (lexicon : Option Lexicon) {os : List Occurrence} (hne : os ≠ [])
    (hos : ∀ o ∈ os, o.Quotable) : ∃ p, compile lexicon (quoting os) = .ok p ∧
      p.Row (os.map Occurrence.sameForm) := by
  have hspeaks : ∀ leaf ∈ leavesOfChain (rowOf (os.map Occurrence.sameForm)),
      Speaks lexicon leaf.1 := by
    intro leaf hleaf
    rw [leaves_rowOf, List.map_map] at hleaf
    obtain ⟨o, ho, rfl⟩ := List.mem_map.mp hleaf
    obtain ⟨horth, hquote, hknown⟩ := hos o ho
    have hname := Option.not_isSome_iff_eq_none.mp (Bool.eq_false_iff.mp hknown)
    exact speaks_quoted horth hquote hname
  have hdisplay : Chain.display (rowOf (os.map Occurrence.sameForm)) = quoting os := by
    rw [Chain.display, displayItems_rowOf, List.map_map, quoting]
    exact congrArg _ (List.map_congr_left fun o _ => Condition.display_quoted o.orth)
  obtain ⟨chain, hparse, hchain⟩ :=
    parse_display (by simpa [rowOf] using hne) (normal_rowOf _) hspeaks
  rw [hdisplay] at hparse
  rw [unplaced_rowOf] at hchain
  have hrow := row_ofChain hchain (quoting os)
  refine ⟨_, ?_, hrow⟩
  rw [compile_of_parse hparse, hrow.checkGaps_eq (by simp)]
  rfl

end Pattern

namespace Matcher

open Pattern

/-- A stream is found in itself. Its forms between quotes compile, with whatever lexicon, to as many
tests for these forms one behind another, without gaps or choices, and a scan of the stream has one
hit, which is the whole stream. -/
theorem found_in_itself (lexicon : Option Lexicon) {os : List Occurrence} (hne : os ≠ [])
    (hos : ∀ o ∈ os, o.Quotable) : ∃ p, compile lexicon (quoting os) = .ok p ∧
      p.Row (os.map Occurrence.sameForm) ∧ p.chain = List.range os.length ∧ p.gaps = [] ∧
      (∀ node ∈ p.nodes, node.isChoice = false) ∧
      ∀ (m : Matcher) (name : Option String) (source : Option Source),
        (m.scan p os name source none).1 = [⟨os, 0, os.length, name, source⟩] := by
  obtain ⟨p, hcompile, hrow⟩ := compile_quoting lexicon hne hos
  have hgaps : ∀ c ∈ os.map Occurrence.sameForm, c.isGap = false := by simp
  have haccepts : List.Forall₂ (fun c o => Condition.accepts o c = true)
      (os.map Occurrence.sameForm) os := by
    rw [List.forall₂_map_left_iff, List.forall₂_same]
    exact fun o _ => (Occurrence.accepts_sameForm o o).mpr rfl
  refine ⟨p, hcompile, hrow, ?_, hrow.gaps_eq hgaps, fun node hmem => (hrow.term_of_mem hmem).1,
    fun m name source => ?_⟩
  · rw [hrow.chain_eq (by simpa using hne), List.length_map]
  · rw [scan, Awaits.scanFrom (wellFormed_of_compile hcompile) name source (.atRoot rfl)
      List.drop_zero, hrow.extents_eq hgaps haccepts hne, List.map_singleton, hitAt, stretch,
      List.drop_zero, Nat.sub_zero, List.take_length]
    rfl

/-- Signs of the pattern language stand for themselves between quotes, and a form that comes again
does not begin a new match. -/
theorem found_among_signs : ∃ (os : List Occurrence) (p : Pattern),
    quoting os = "\x22* \x22 \x22(a, b)\x22 \x22[\x22 \x22* \x22 \x22**3\x22 \x22x/VERB\x22" ∧
    compile none (quoting os) = .ok p ∧ p.size = 6 ∧ p.gaps = [] ∧
    (fresh.scan p os none none none).1.map (fun hit => (hit.start, hit.stop)) = [(0, 6)] := by
  let os : List Occurrence := [.untagged "* " 0, .untagged "(a, b)" 2, .untagged "[" 8,
    .untagged "* " 9, .untagged "**3" 11, .untagged "x/VERB" 14]
  have hos : ∀ o ∈ os, o.Quotable := by decide +kernel
  obtain ⟨p, hcompile, hrow, -, hgaps, -, hscan⟩ :=
    found_in_itself none (List.cons_ne_nil _ _ : os ≠ []) hos
  refine ⟨os, p, by decide +kernel, hcompile, hrow.size_eq, hgaps, ?_⟩
  rw [hscan]
  rfl

end Matcher
end Concordance
