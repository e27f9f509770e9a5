import Concordance.Proofs.Pattern.Expansion

/-! Phrases with others in the place of their terms. Where each term is replaced by a phrase for the
conditions that an expansion has for it, the tree of the one phrase is the expanded tree of the other,
and a text that is read as it compiles if the other does. -/

namespace Concordance.Pattern

open Item Phrase Expansion Lexeme

/-- Where the marks of a phrase are to stand, and what is to stand for each of its terms. -/
structure Replacement where
  place : Nat → Nat
  atom (lexeme : Lexeme) : lexeme.isMark = false → Atom

namespace Replacement

def move (place : Nat → Nat) : Replacement where
  place := place
  atom lexeme isTerm := .term (lexeme.moved place) ((lexeme.isMark_moved place).trans isTerm)

def lexemes (r : Replacement) (lexeme : Lexeme) : List Lexeme :=
  if h : lexeme.isMark = false then (r.atom lexeme h).lexemes else [lexeme.moved r.place]

def Realizes (r : Replacement) (e : Expansion) (condition : Lexeme → Condition)
    (lexemes : List Lexeme) : Prop :=
  ∀ lexeme ∈ lexemes, ∀ h : lexeme.isMark = false,
    unplacedChain ((r.atom lexeme h).chain condition) =
      anyOf (e.conditions (condition lexeme) lexeme.position)

section
variable {r : Replacement} {lexeme : Lexeme}

theorem lexemes_term (h : lexeme.isMark = false) :
    r.lexemes lexeme = (r.atom lexeme h).lexemes := dif_pos h

theorem lexemes_mark (h : lexeme.isMark = true) : r.lexemes lexeme = [lexeme.moved r.place] :=
  dif_neg (by simp [h])

theorem lexemes_move (place : Nat → Nat) (lexeme : Lexeme) :
    (move place).lexemes lexeme = [lexeme.moved place] := by
  cases h : lexeme.isMark with
  | false => exact lexemes_term h
  | true => exact lexemes_mark h

end

end Replacement

namespace Phrase

mutual

def Atom.replace (r : Replacement) : Atom → Atom
  | .term lexeme isTerm => r.atom lexeme isTerm
  | .group opener inner closer opens closes =>
    .group (opener.moved r.place) (inner.replace r) (closer.moved r.place)
      ((opener.text_moved r.place).trans opens) ((closer.text_moved r.place).trans closes)

def Sequence.replace (r : Replacement) : Sequence → Sequence
  | .one atom => .one (atom.replace r)
  | .snoc before atom => .snoc (before.replace r) (atom.replace r)

def Alternatives.replace (r : Replacement) : Alternatives → Alternatives
  | .one sequence => .one (sequence.replace r)
  | .snoc before comma sequence separates =>
    .snoc (before.replace r) (comma.moved r.place) (sequence.replace r)
      ((comma.text_moved r.place).trans separates)

end

section
variable (r : Replacement)

mutual

theorem Atom.lexemes_replace (d : Atom) : (d.replace r).lexemes = d.lexemes.flatMap r.lexemes := by
  match d with
  | .term lexeme isTerm =>
    rw [Atom.replace, Atom.lexemes, List.flatMap_singleton, Replacement.lexemes_term isTerm]
  | .group opener inner closer opens closes =>
    rw [Atom.replace, Atom.lexemes, inner.lexemes_replace, Atom.lexemes, List.flatMap_cons,
      List.flatMap_append, List.flatMap_singleton,
      Replacement.lexemes_mark (isMark_of_opener opens),
      Replacement.lexemes_mark (isMark_of_closer closes)]
    rfl

theorem Sequence.lexemes_replace (d : Sequence) :
    (d.replace r).lexemes = d.lexemes.flatMap r.lexemes := by
  match d with
  | .one atom => exact atom.lexemes_replace
  | .snoc before atom =>
    rw [Sequence.replace, Sequence.lexemes, before.lexemes_replace, atom.lexemes_replace,
      Sequence.lexemes, List.flatMap_append]

theorem Alternatives.lexemes_replace (d : Alternatives) :
    (d.replace r).lexemes = d.lexemes.flatMap r.lexemes := by
  match d with
  | .one sequence => exact sequence.lexemes_replace
  | .snoc before comma sequence separates =>
    rw [Alternatives.replace, Alternatives.lexemes, before.lexemes_replace,
      sequence.lexemes_replace, Alternatives.lexemes, List.flatMap_append, List.flatMap_cons,
      Replacement.lexemes_mark (isMark_of_comma separates)]
    rfl

end

end

section
variable {r : Replacement} {e : Expansion} {condition : Lexeme → Condition}

mutual

theorem Atom.chain_replace (d : Atom) (h : r.Realizes e condition d.lexemes) :
    unplacedChain ((d.replace r).chain condition) = e.expandChain (d.chain condition) := by
  match d with
  | .term lexeme isTerm =>
    rw [Atom.replace, h lexeme (List.mem_singleton.mpr rfl) isTerm, Atom.chain, expandChain, expand,
      expandChain, List.append_nil]
  | .group opener inner closer _ _ =>
    obtain ⟨hne, hnormal⟩ := inner.normal_branches condition
    have hinner : r.Realizes e condition inner.lexemes := fun lexeme hmem =>
      h lexeme (List.mem_cons_of_mem _ (List.mem_append_left _ hmem))
    rw [Atom.replace, Atom.chain, Atom.chain, unplacedChain_ofBranches,
      inner.branches_replace hinner, e.expandChain_ofBranches hne hnormal]

theorem Sequence.chain_replace (d : Sequence) (h : r.Realizes e condition d.lexemes) :
    unplacedChain ((d.replace r).chain condition) = e.expandChain (d.chain condition) := by
  match d with
  | .one atom => exact atom.chain_replace h
  | .snoc before atom =>
    rw [Sequence.replace, Sequence.chain, Sequence.chain, unplacedChain_append,
      before.chain_replace fun lexeme hmem => h lexeme (List.mem_append_left _ hmem),
      atom.chain_replace fun lexeme hmem => h lexeme (List.mem_append_right _ hmem),
      expandChain_append]

theorem Alternatives.branches_replace (d : Alternatives) (h : r.Realizes e condition d.lexemes) :
    unplacedBranches ((d.replace r).branches condition) =
      e.expandBranches (d.branches condition) := by
  match d with
  | .one sequence =>
    rw [Alternatives.replace, Alternatives.branches, Alternatives.branches, ← branches_unplaced,
      sequence.chain_replace h, expandBranches_branches]
  | .snoc before comma sequence _ =>
    rw [Alternatives.replace, Alternatives.branches, Alternatives.branches,
      unplacedBranches_append, ← branches_unplaced,
      before.branches_replace fun lexeme hmem => h lexeme (List.mem_append_left _ hmem),
      sequence.chain_replace fun lexeme hmem =>
        h lexeme (List.mem_append_right _ (List.mem_cons_of_mem _ hmem)),
      expandBranches_append, expandBranches_branches]

end

theorem Alternatives.chain_replace (d : Alternatives) (h : r.Realizes e condition d.lexemes) :
    unplacedChain ((d.replace r).chain condition) = e.expandChain (d.chain condition) := by
  obtain ⟨hne, hnormal⟩ := d.normal_branches condition
  rw [Alternatives.chain, Alternatives.chain, unplacedChain_ofBranches, d.branches_replace h,
    e.expandChain_ofBranches hne hnormal]

end

end Phrase

theorem Replacement.realizes_move {lexicon : Option Lexicon} {lexemes : List Lexeme}
    (h : Meaningful lexicon lexemes) (place : Nat → Nat) :
    (move place).Realizes .refl (meaning lexicon) lexemes := by
  intro lexeme hmem hterm
  change [Item.term (meaning lexicon (lexeme.moved place)) 0] = _
  rw [meaning_moved (h lexeme hmem hterm) place]
  rfl

theorem Phrase.Alternatives.lexemes_move (d : Alternatives) (place : Nat → Nat) :
    (d.replace (.move place)).lexemes = d.lexemes.map (Lexeme.moved place) := by
  rw [d.lexemes_replace, List.map_eq_flatMap]
  exact List.flatMap_congr fun lexeme _ => Replacement.lexemes_move place lexeme

section Substitute
variable {lexicon : Option Lexicon} {before text after inner : List Char} {group : Alternatives}

/-- The offsets in a text once as many characters as stand in one row have given way, from an offset
on, to as many as stand in another. -/
def shifted (position removed added n : Nat) : Nat :=
  if n < position then n else n + added - removed

theorem map_shifted {position : Nat} {lexemes : List Lexeme}
    (h : ∀ lexeme ∈ lexemes, lexeme.position < position) (removed added : Nat) :
    lexemes.map (moved (shifted position removed added)) = lexemes := by
  refine (List.map_congr_left fun lexeme hmem => ?_).trans (List.map_id _)
  rw [moved, shifted, if_pos (h lexeme hmem)]
  rfl

theorem scan_shifted (position removed added : Nat) (cs : List Char) :
    scan (position + added) 0 cs =
      (scan (position + removed) 0 cs).map (moved (shifted position removed added)) := by
  have hscan (n : Nat) : scan n 0 cs = (scan 0 0 cs).map (moved (· + n)) := by
    rw [← scan_add, Nat.zero_add]
  rw [hscan, hscan (position + removed), List.map_map]
  refine List.map_congr_left fun lexeme _ => ?_
  have hplace : lexeme.position + (position + added) =
      shifted position removed added (lexeme.position + (position + removed)) := by
    rw [shifted, if_neg (by omega)]
    omega
  exact congrArg (Lexeme.mk lexeme.text) hplace

/-- A group between parentheses for the term that stands behind a text. -/
def Replacement.substitute (before text inner : List Char) (group : Alternatives) :
    Replacement where
  place := shifted before.length text.length (inner.length + 2)
  atom lexeme isTerm :=
    if lexeme.position = before.length then
      .group ⟨"(", before.length⟩ group ⟨")", before.length + 1 + inner.length⟩ rfl rfl
    else
      .term (lexeme.moved (shifted before.length text.length (inner.length + 2)))
        ((lexeme.isMark_moved _).trans isTerm)

theorem Replacement.lexemes_elsewhere {lexeme : Lexeme} (h : lexeme.position ≠ before.length) :
    (substitute before text inner group).lexemes lexeme =
      [lexeme.moved (substitute before text inner group).place] := by
  cases hmark : lexeme.isMark with
  | true => exact lexemes_mark hmark
  | false =>
    rw [lexemes_term hmark, substitute]
    dsimp only
    rw [if_neg h]
    rfl

theorem Replacement.flatMap_elsewhere {lexemes : List Lexeme}
    (h : ∀ lexeme ∈ lexemes, lexeme.position ≠ before.length) :
    lexemes.flatMap (substitute before text inner group).lexemes =
      lexemes.map (Lexeme.moved (substitute before text inner group).place) := by
  rw [List.map_eq_flatMap]
  exact List.flatMap_congr fun lexeme hmem => lexemes_elsewhere (h lexeme hmem)

theorem Replacement.lexemes_here
    (hterm : (⟨String.ofList text, before.length⟩ : Lexeme).isMark = false) :
    (substitute before text inner group).lexemes ⟨String.ofList text, before.length⟩ =
      ⟨"(", before.length⟩ :: (group.lexemes ++ [⟨")", before.length + 1 + inner.length⟩]) := by
  rw [lexemes_term hterm, substitute]
  dsimp only
  rw [if_pos rfl]
  rfl

variable (hne : text ≠ []) (hterm : (⟨String.ofList text, before.length⟩ : Lexeme).isMark = false)
  (hmem : ⟨String.ofList text, before.length⟩ ∈ scan 0 0 (before ++ (text ++ after)))
  (hmeaningful : Meaningful lexicon (scan 0 0 (before ++ (text ++ after))))
  (hgroup : Written lexicon (before.length + 1) inner group.lexemes)
include hne hterm hmem hmeaningful hgroup

theorem scan_substitute : scan 0 0 (before ++ ('(' :: (inner ++ ')' :: after))) =
    (scan 0 0 (before ++ (text ++ after))).flatMap
      (Replacement.substitute before text inner group).lexemes := by
  -- What is before the term stays, and what is behind it is all moved by the same distance.
  rw [scan_split hne hmem (Nat.zero_add before.length).symm] at hmeaningful ⊢
  have hcloses : Closes ('(' :: (inner ++ ')' :: after)) := closes_cons (by decide) [] _
  have hbefore (lexeme : Lexeme) (h : lexeme ∈ scan 0 0 before) :
      lexeme.position < before.length := by
    have hbounds := (bounds_of_mem_scan h).2
    omega
  have hafter (lexeme : Lexeme) (h : lexeme ∈ scan (before.length + text.length) 0 after) :
      lexeme.position ≠ before.length := by
    have hbounds := (bounds_of_mem_scan h).1
    have hpos := List.length_pos_iff.mpr hne
    omega
  rw [(written_scan hmeaningful.left).scan_eq _ hcloses, Nat.zero_add, scan_parenthesized hgroup,
    scan_shifted before.length text.length, List.flatMap_append, List.flatMap_cons,
    Replacement.flatMap_elsewhere fun lexeme h => Nat.ne_of_lt (hbefore lexeme h),
    Replacement.flatMap_elsewhere hafter, Replacement.lexemes_here hterm,
    Replacement.substitute, map_shifted hbefore, List.cons_append, List.append_assoc]
  rfl

theorem meaningful_substitute :
    Meaningful lexicon (scan 0 0 (before ++ ('(' :: (inner ++ ')' :: after)))) := by
  rw [scan_substitute hne hterm hmem hmeaningful hgroup]
  intro lexeme hlexeme hmark
  obtain ⟨original, horiginal, hlexeme⟩ := List.mem_flatMap.mp hlexeme
  by_cases hplace : original.position = before.length
  · rw [eq_of_mem_scan horiginal hmem hplace, Replacement.lexemes_here hterm, ← List.cons_append,
      List.mem_append, List.mem_cons] at hlexeme
    rcases hlexeme with (rfl | hlexeme) | hlexeme
    · cases hmark
    · exact hgroup.meaningful lexeme hlexeme hmark
    · rw [List.mem_singleton.mp hlexeme] at hmark
      cases hmark
  · rw [Replacement.lexemes_elsewhere hplace] at hlexeme
    obtain rfl := List.mem_singleton.mp hlexeme
    obtain ⟨c, hc⟩ := hmeaningful original horiginal hmark
    exact ⟨c, term_moved _ _ hc⟩

theorem parse_substitute {e : Expansion} {d : Alternatives}
    (hd : d.lexemes = scan 0 0 (before ++ (text ++ after)))
    (hhere : Chain.ofBranches 0 (unplacedBranches (group.branches (meaning lexicon))) =
      anyOf (e.conditions (meaning lexicon ⟨String.ofList text, before.length⟩) before.length))
    (helsewhere : ∀ c position, position ≠ before.length → e.conditions c position = [c])
    {source : String} (hsource : source.toList = before ++ ('(' :: (inner ++ ')' :: after))) :
    ∃ chain, parse lexicon source = .ok chain ∧
      unplacedChain chain = e.expandChain (d.chain (meaning lexicon)) := by
  have hlexemes : (d.replace (.substitute before text inner group)).lexemes =
      Lexeme.all source := by
    rw [d.lexemes_replace, hd, Lexeme.all, hsource,
      scan_substitute hne hterm hmem hmeaningful hgroup]
  have hrealizes : (Replacement.substitute before text inner group).Realizes e (meaning lexicon)
      d.lexemes := by
    intro lexeme hlexeme hmark
    rw [hd] at hlexeme
    rw [Replacement.substitute]
    dsimp only
    split
    · rename_i hplace
      rw [eq_of_mem_scan hlexeme hmem hplace, ← hhere, Atom.chain, unplacedChain_ofBranches]
    · rename_i hplace
      rw [helsewhere _ _ hplace, Atom.chain, meaning_moved (hmeaningful lexeme hlexeme hmark)]
      rfl
  refine ⟨_, parse_eq_ok_iff.mpr ⟨?_, _, hlexemes, rfl⟩, d.chain_replace hrealizes⟩
  rw [Lexeme.all, hsource]
  exact meaningful_substitute hne hterm hmem hmeaningful hgroup

end Substitute

section Compile
variable {lexicon : Option Lexicon} {source text : String} {chain expanded : Chain}

theorem compile_of_expandChain {e : Expansion}
    (h : compile lexicon source = .ok (ofChain chain source)) (hne : chain ≠ [])
    (hnormal : NormalChain chain) (hparse : parse lexicon text = .ok expanded)
    (hexpanded : unplacedChain expanded = e.expandChain chain) :
    compile lexicon text = .ok (ofChain expanded text) := by
  have hne' : e.expandChain chain ≠ [] := mt e.expandChain_eq_nil_iff.mp hne
  -- The text's own tree differs from the expanded one in offsets, which gaps are not checked by.
  have hsame : (ofChain expanded text).unplaced = (ofChain (e.expandChain chain) text).unplaced :=
    unplaced_ofChain (hexpanded.trans (e.unplaced_expandChain chain).symm) _ _
  have hchecked : checkGaps (ofChain (e.expandChain chain) text) = .ok () := by
    cases hcheck : checkGaps (ofChain (e.expandChain chain) text) with
    | ok _ => rfl
    | error refusal =>
      have hmisplaced := misplaced_of_checkGaps hne' (e.normal_expandChain chain hnormal) hcheck
      exact absurd (misplaced_of_expandChain hmisplaced)
        (not_misplaced_of_wellFormed hne hnormal (wellFormed_of_compile h))
  rw [← checkGaps_unplaced, ← hsame, checkGaps_unplaced] at hchecked
  rw [compile, mapError_eq_ok]
  exact bind_eq_ok.mpr ⟨expanded, hparse, bind_eq_ok.mpr ⟨(), hchecked, rfl⟩⟩

end Compile

end Concordance.Pattern
