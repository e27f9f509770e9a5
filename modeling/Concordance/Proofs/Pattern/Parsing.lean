import Concordance.Proofs.Pattern.Phrase
import Concordance.Proofs.Pattern.Term

/-! The parser reads exactly the phrases of the grammar whose terms all mean something. What the
open groups hold is at each moment a derivation of the lexemes read since their parentheses, but
for a branch that has only just begun. -/

namespace Concordance.Pattern

open Phrase

/-- The condition that a term stands for. A lexeme without one stands for anything. -/
def meaning (lexicon : Option Lexicon) (lexeme : Lexeme) : Condition :=
  ((lexeme.term lexicon).toOption).getD .any

def Meaningful (lexicon : Option Lexicon) (lexemes : List Lexeme) : Prop :=
  ∀ lexeme ∈ lexemes, lexeme.isMark = false → ∃ c, lexeme.term lexicon = .ok c

theorem term_eq_meaning {lexicon : Option Lexicon} {lexeme : Lexeme}
    (h : ∃ c, lexeme.term lexicon = .ok c) :
    lexeme.term lexicon = .ok (meaning lexicon lexeme) := by
  obtain ⟨c, hc⟩ := h
  simp [meaning, hc, Except.toOption]

theorem Meaningful.left {lexicon : Option Lexicon} {first second : List Lexeme}
    (h : Meaningful lexicon (first ++ second)) : Meaningful lexicon first :=
  fun lexeme hmem => h lexeme (List.mem_append_left _ hmem)

theorem Meaningful.right {lexicon : Option Lexicon} {first second : List Lexeme}
    (h : Meaningful lexicon (first ++ second)) : Meaningful lexicon second :=
  fun lexeme hmem => h lexeme (List.mem_append_right _ hmem)

theorem Group.content_eq (group : Group) :
    group.content = Chain.ofBranches group.position group.allBranches := rfl

section Reading
variable {lexicon : Option Lexicon}

theorem readLexeme_opener {lexeme : Lexeme} (h : lexeme.text = "(") (groups : Groups) :
    readLexeme lexicon groups lexeme = .ok (.opened (some lexeme), groups.1 :: groups.2) := by
  simp [readLexeme, h]

theorem readLexeme_closer {lexeme : Lexeme} (h : lexeme.text = ")") (groups : Groups) :
    readLexeme lexicon groups lexeme = readClose lexeme groups := by
  simp [readLexeme, h]

theorem readLexeme_comma {lexeme : Lexeme} (h : lexeme.text = ",") (groups : Groups) :
    readLexeme lexicon groups lexeme = readComma lexeme groups := by
  simp [readLexeme, h]

theorem readLexeme_term {lexeme : Lexeme} (h : lexeme.isMark = false) (groups : Groups) :
    readLexeme lexicon groups lexeme = (do
      let condition ← lexeme.term lexicon
      return (groups.1.add [.term condition lexeme.position], groups.2)) := by
  simp only [Lexeme.isMark, Bool.or_eq_false_iff, beq_eq_false_iff_ne] at h
  rw [readLexeme, if_neg h.1.1, if_neg h.1.2, if_neg h.2]

mutual

theorem Phrase.Atom.read (d : Atom) (h : Meaningful lexicon d.lexemes) (group : Group)
    (outer : List Group) :
    d.lexemes.foldlM (readLexeme lexicon) (group, outer) =
      .ok (group.add (d.chain (meaning lexicon)), outer) := by
  match d with
  | .term lexeme hterm =>
    have hmeans := term_eq_meaning (h lexeme (by simp [Atom.lexemes]) hterm)
    simp only [Atom.lexemes, List.foldlM_cons, List.foldlM_nil, readLexeme_term hterm, hmeans]
    rfl
  | .group opener inner closer ho hc =>
    have hinner : Meaningful lexicon inner.lexemes := by
      rw [Atom.lexemes, ← List.singleton_append] at h
      exact h.right.left
    -- What stands between the parentheses is read in a group of its own; `group` waits behind it.
    obtain ⟨done, hdone, hopener, hchain, hbranches⟩ :=
      inner.read hinner (.opened (some opener)) (group :: outer) rfl
    have hcontent : done.content = Chain.ofBranches opener.position
        (inner.branches (meaning lexicon)) := by
      rw [Group.content_eq, hbranches, Group.position, hopener]
      rfl
    simp only [Atom.lexemes, List.foldlM_cons, readLexeme_opener ho]
    change (inner.lexemes ++ [closer]).foldlM (readLexeme lexicon)
      (.opened (some opener), group :: outer) = _
    rw [List.foldlM_append, hdone]
    change [closer].foldlM (readLexeme lexicon) (done, group :: outer) = _
    rw [List.foldlM_cons, readLexeme_closer hc]
    simp [readClose, hchain, hcontent, Atom.chain]

theorem Phrase.Sequence.read (d : Sequence) (h : Meaningful lexicon d.lexemes) (group : Group)
    (outer : List Group) :
    d.lexemes.foldlM (readLexeme lexicon) (group, outer) =
      .ok (group.add (d.chain (meaning lexicon)), outer) := by
  match d with
  | .one atom => exact atom.read h group outer
  | .snoc before atom =>
    rw [Sequence.lexemes] at h ⊢
    rw [List.foldlM_append, before.read h.left group outer]
    change atom.lexemes.foldlM (readLexeme lexicon) (_, outer) = _
    rw [atom.read h.right]
    simp [Group.add, Sequence.chain]

theorem Phrase.Alternatives.read (d : Alternatives) (h : Meaningful lexicon d.lexemes)
    (group : Group) (outer : List Group) (hempty : group.chain = []) :
    ∃ done : Group, d.lexemes.foldlM (readLexeme lexicon) (group, outer) = .ok (done, outer) ∧
      done.opener = group.opener ∧ done.chain ≠ [] ∧
      done.allBranches = group.branches ++ d.branches (meaning lexicon) := by
  match d with
  | .one sequence =>
    refine ⟨_, sequence.read h group outer, rfl, ?_, ?_⟩
    · simpa [Group.add, hempty] using (sequence.normal_chain _).1
    · simp [Group.allBranches, Group.add, hempty, Alternatives.branches]
  | .snoc before comma sequence hcomma =>
    rw [Alternatives.lexemes] at h ⊢
    obtain ⟨done, hdone, hopener, hchain, hbranches⟩ := before.read h.left group outer hempty
    have hsequence : Meaningful lexicon sequence.lexemes :=
      fun lexeme hmem => h.right lexeme (List.mem_cons_of_mem _ hmem)
    refine ⟨(done.endBranch comma).add (sequence.chain (meaning lexicon)), ?_, hopener, ?_, ?_⟩
    · rw [List.foldlM_append, hdone]
      change (comma :: sequence.lexemes).foldlM (readLexeme lexicon) (done, outer) = _
      rw [List.foldlM_cons, readLexeme_comma hcomma]
      have hread : readComma comma (done, outer) = .ok (done.endBranch comma, outer) := by
        simp [readComma, hchain]
      rw [hread]
      exact sequence.read hsequence _ outer
    · simpa [Group.add, Group.endBranch] using (sequence.normal_chain _).1
    · rw [Alternatives.branches, ← List.append_assoc, ← hbranches]
      simp [Group.allBranches, Group.add, Group.endBranch]

end

theorem parse_of_phrase {source : String} (d : Alternatives) (hd : d.lexemes = Lexeme.all source)
    (h : Meaningful lexicon (Lexeme.all source)) :
    parse lexicon source = .ok (d.chain (meaning lexicon)) := by
  obtain ⟨done, hdone, hopener, hchain, hbranches⟩ :=
    d.read (hd ▸ h) (.opened none) [] rfl
  rw [hd] at hdone
  have hcontent : done.content = d.chain (meaning lexicon) := by
    rw [Group.content_eq, hbranches, Group.position, hopener]
    rfl
  unfold parse
  split
  · rename_i hnil
    rw [hnil, List.foldlM_nil] at hdone
    cases hdone
    exact absurd rfl hchain
  · rw [hdone]
    change readEnd source (done, []) = _
    have hempty : done.chain.isEmpty = false := by simpa using hchain
    simp [readEnd, hopener, hempty, Group.opened, hcontent]

variable (lexicon) in
/-- What an open group holds, given the lexemes read since its parenthesis. -/
inductive Group.Holds : Group → List Lexeme → Prop
  | nothing {group} : group.branches = [] → group.chain = [] → group.comma = none →
      Group.Holds group []
  | first {group} (d : Sequence) : group.branches = [] →
      group.chain = d.chain (meaning lexicon) → Group.Holds group d.lexemes
  | comma {group} (before : Alternatives) (comma : Lexeme) : comma.text = "," →
      group.branches = before.branches (meaning lexicon) → group.chain = [] →
      group.comma = some comma → Group.Holds group (before.lexemes ++ [comma])
  | later {group} (before : Alternatives) (comma : Lexeme) (d : Sequence) : comma.text = "," →
      group.branches = before.branches (meaning lexicon) →
      group.chain = d.chain (meaning lexicon) →
      Group.Holds group (before.lexemes ++ comma :: d.lexemes)

variable (lexicon) in
inductive HoldAll : Groups → List Lexeme → Prop
  | whole {group lexemes} : group.opener = none → group.Holds lexicon lexemes →
      HoldAll (group, []) lexemes
  | inside {group next outer opener before lexemes} : HoldAll (next, outer) before →
      opener.text = "(" → group.opener = some opener → group.Holds lexicon lexemes →
      HoldAll (group, next :: outer) (before ++ opener :: lexemes)

theorem Group.Holds.phrase {group : Group} {lexemes : List Lexeme}
    (h : group.Holds lexicon lexemes) (hchain : group.chain ≠ []) :
    ∃ d : Alternatives, d.lexemes = lexemes ∧
      group.allBranches = d.branches (meaning lexicon) := by
  cases h with
  | nothing _ hnil _ => exact absurd hnil hchain
  | first d hbranches hc =>
    exact ⟨.one d, rfl, by simp [Group.allBranches, hbranches, hc, Alternatives.branches]⟩
  | comma _ _ _ _ hnil _ => exact absurd hnil hchain
  | later before comma d hcomma hbranches hc =>
    exact ⟨.snoc before comma d hcomma, rfl,
      by simp [Group.allBranches, hbranches, hc, Alternatives.branches]⟩

theorem Group.Holds.add {group : Group} {lexemes : List Lexeme}
    (h : group.Holds lexicon lexemes) (atom : Atom) :
    (group.add (atom.chain (meaning lexicon))).Holds lexicon (lexemes ++ atom.lexemes) := by
  cases h with
  | nothing hbranches hnil _ =>
    exact .first (.one atom) hbranches (by simp [Group.add, hnil, Sequence.chain])
  | first d hbranches hc =>
    exact .first (.snoc d atom) hbranches (by simp [Group.add, hc, Sequence.chain])
  | comma before comma hcomma hbranches hnil _ =>
    rw [List.append_assoc]
    exact .later before comma (.one atom) hcomma hbranches
      (by simp [Group.add, hnil, Sequence.chain])
  | later before comma d hcomma hbranches hc =>
    rw [List.append_assoc]
    exact .later before comma (.snoc d atom) hcomma hbranches
      (by simp [Group.add, hc, Sequence.chain])

theorem HoldAll.add {group : Group} {outer : List Group} {lexemes : List Lexeme}
    (h : HoldAll lexicon (group, outer) lexemes) (atom : Atom) :
    HoldAll lexicon (group.add (atom.chain (meaning lexicon)), outer)
      (lexemes ++ atom.lexemes) := by
  cases h with
  | whole hopener hholds => exact .whole hopener (hholds.add atom)
  | inside hbefore ho hopener hholds =>
    rw [List.append_assoc]
    exact .inside hbefore ho hopener (hholds.add atom)

theorem HoldAll.comma {group : Group} {outer : List Group} {lexemes : List Lexeme}
    (h : HoldAll lexicon (group, outer) lexemes) (hchain : group.chain ≠ []) {comma : Lexeme}
    (hcomma : comma.text = ",") :
    HoldAll lexicon (group.endBranch comma, outer) (lexemes ++ [comma]) := by
  cases h with
  | whole hopener hholds =>
    obtain ⟨d, rfl, hbranches⟩ := hholds.phrase hchain
    exact .whole hopener (.comma d comma hcomma hbranches rfl rfl)
  | inside hbefore ho hopener hholds =>
    obtain ⟨d, rfl, hbranches⟩ := hholds.phrase hchain
    rw [List.append_assoc]
    exact .inside hbefore ho hopener (.comma d comma hcomma hbranches rfl rfl)

theorem HoldAll.close {group next : Group} {outer : List Group} {lexemes : List Lexeme}
    (h : HoldAll lexicon (group, next :: outer) lexemes) (hchain : group.chain ≠ [])
    {closer : Lexeme} (hcloser : closer.text = ")") :
    HoldAll lexicon (next.add group.content, outer) (lexemes ++ [closer]) := by
  cases h with
  | inside hbefore ho hopener hholds =>
    obtain ⟨d, rfl, hbranches⟩ := hholds.phrase hchain
    have hcontent : group.content =
        Atom.chain (meaning lexicon) (.group _ d closer ho hcloser) := by
      rw [Group.content_eq, hbranches, Group.position, hopener]
      rfl
    rw [hcontent, List.append_assoc]
    exact hbefore.add (.group _ d closer ho hcloser)

theorem HoldAll.readLexeme {groups next : Groups} {lexemes : List Lexeme} {lexeme : Lexeme}
    (h : HoldAll lexicon groups lexemes) (hread : readLexeme lexicon groups lexeme = .ok next) :
    HoldAll lexicon next (lexemes ++ [lexeme]) ∧
      (lexeme.isMark = false → ∃ c, lexeme.term lexicon = .ok c) := by
  obtain ⟨group, outer⟩ := groups
  rcases lexeme.kinds with ho | hc | hcomma | hterm
  · rw [readLexeme_opener ho] at hread
    cases hread
    refine ⟨.inside h ho rfl (.nothing rfl rfl rfl), fun hterm => ?_⟩
    simp [isMark_of_opener ho] at hterm
  · rw [readLexeme_closer hc] at hread
    simp only [readClose] at hread
    refine ⟨?_, fun hterm => by simp [isMark_of_closer hc] at hterm⟩
    split at hread
    · split at hread <;> cases hread
    · rename_i hchain
      split at hread
      · cases hread
      · cases hread
        exact h.close (by simpa using hchain) hc
  · rw [readLexeme_comma hcomma] at hread
    simp only [readComma] at hread
    refine ⟨?_, fun hterm => by simp [isMark_of_comma hcomma] at hterm⟩
    split at hread
    · cases hread
    · rename_i hchain
      cases hread
      exact h.comma (by simpa using hchain) hcomma
  · rw [readLexeme_term hterm] at hread
    obtain ⟨c, hmeans, hadd⟩ := bind_eq_ok.mp hread
    have hc : c = meaning lexicon lexeme := by simp [meaning, hmeans, Except.toOption]
    cases hadd
    subst hc
    exact ⟨h.add (.term lexeme hterm), fun _ => ⟨_, hmeans⟩⟩

theorem HoldAll.foldlM {groups last : Groups} {before lexemes : List Lexeme}
    (h : HoldAll lexicon groups before)
    (hread : lexemes.foldlM (Pattern.readLexeme lexicon) groups = .ok last) :
    HoldAll lexicon last (before ++ lexemes) ∧ Meaningful lexicon lexemes := by
  induction lexemes generalizing groups before with
  | nil =>
    cases hread
    exact ⟨by simpa using h, by simp [Meaningful]⟩
  | cons lexeme rest ih =>
    rw [List.foldlM_cons] at hread
    obtain ⟨next, hnext, hrest⟩ := bind_eq_ok.mp hread
    obtain ⟨hholds, hterm⟩ := h.readLexeme hnext
    obtain ⟨hlast, hmeaningful⟩ := ih hholds hrest
    refine ⟨by simpa using hlast, ?_⟩
    intro other hmem
    rcases List.mem_cons.mp hmem with rfl | hmem
    · exact hterm
    · exact hmeaningful other hmem

theorem HoldAll.readEnd_ok {groups : Groups} {lexemes : List Lexeme} {source : String}
    {chain : Chain} (h : HoldAll lexicon groups lexemes)
    (hend : readEnd source groups = .ok chain) :
    ∃ d : Alternatives, d.lexemes = lexemes ∧ chain = d.chain (meaning lexicon) := by
  obtain ⟨group, outer⟩ := groups
  simp only [readEnd] at hend
  split at hend
  · cases hend
  · cases hend
  · cases hend
  · rename_i hchain hopener
    cases hend
    cases h with
    | whole _ hholds =>
      obtain ⟨d, hd, hbranches⟩ := hholds.phrase (by simpa using hchain)
      refine ⟨d, hd, ?_⟩
      rw [Group.content_eq, hbranches, Group.position, hopener]
      rfl
    | inside _ _ hsome _ => simp [hopener] at hsome

theorem parse_nil {source : String} (h : Lexeme.all source = []) :
    parse lexicon source = .error ⟨.emptyPattern, ⟨source, 0⟩⟩ := by
  simp [parse, h]

theorem parse_of_ne_nil {source : String} (h : Lexeme.all source ≠ []) :
    parse lexicon source = (do
      readEnd source (← (Lexeme.all source).foldlM (readLexeme lexicon) (.opened none, []))) := by
  unfold parse
  split
  · contradiction
  · rfl

theorem HoldAll.start : HoldAll lexicon (.opened none, []) [] :=
  .whole rfl (.nothing rfl rfl rfl)

theorem parse_eq_ok_iff {source : String} {chain : Chain} :
    parse lexicon source = .ok chain ↔
      Meaningful lexicon (Lexeme.all source) ∧ ∃ d : Alternatives,
        d.lexemes = Lexeme.all source ∧ chain = d.chain (meaning lexicon) := by
  constructor
  · intro h
    by_cases hnil : Lexeme.all source = []
    · rw [parse_nil hnil] at h
      cases h
    rw [parse_of_ne_nil hnil] at h
    obtain ⟨groups, hread, hend⟩ := bind_eq_ok.mp h
    obtain ⟨hholds, hmeaningful⟩ := HoldAll.start.foldlM hread
    exact ⟨hmeaningful, hholds.readEnd_ok hend⟩
  · rintro ⟨hmeaningful, d, hd, rfl⟩
    exact parse_of_phrase d hd hmeaningful

end Reading
end Concordance.Pattern
