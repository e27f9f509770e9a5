import Concordance.Proofs.Pattern.Gaps
import Concordance.Proofs.Pattern.Grammar
import Concordance.Proofs.Pattern.TermDisplay

/-! Where a refusal points. Every lexeme is where its offset says, and every refusal comes from a
lexeme that has been read: the one at hand, a comma or a parenthesis kept in an open group, or the
one that a node was made from. Main statement: a refused pattern has a lexeme at the offset that the
refusal tells. -/

namespace Concordance.Pattern

open Phrase

/-- What a refusal tells of the lexeme at its offset: all of it, the name in it that is no
category's, or the gap that it stands for in plain digits. -/
inductive Points (lexeme : Lexeme) : Refusal → Prop
  | whole {fault : Fault} : fault ∉ .unknownCategory :: gapFaults → Points lexeme ⟨fault, lexeme⟩
  | category {name : String} : name.toList <:+: lexeme.text.toList →
      Category.ofName? name = none →
      Points lexeme ⟨.unknownCategory, ⟨name, lexeme.position⟩⟩
  | gap {fault : Fault} {budget : Int} : fault ∈ gapFaults →
      Lexeme.gapBudget? lexeme.text.toList = some budget →
      Points lexeme ⟨fault, ⟨if budget = Condition.defaultBudget then "**" else
        "**" ++ toString budget, lexeme.position⟩⟩

namespace Lexeme

theorem prefix_upTo (closing : Char) (rest : List Char) : upTo closing rest <+: rest := by
  induction rest with
  | nil => exact List.prefix_rfl
  | cons c rest ih =>
    rw [upTo]
    split
    · exact List.prefix_append [c] rest
    · exact (List.prefix_cons_inj c).mpr ih

theorem prefix_starting (first : Char) (rest : List Char) :
    starting first rest <+: first :: rest := by
  unfold starting
  split
  · exact (List.prefix_cons_inj first).mpr (prefix_upTo _ rest)
  split
  · exact (List.prefix_cons_inj first).mpr (prefix_upTo _ rest)
  split
  · exact (List.prefix_cons_inj first).mpr (List.takeWhile_prefix _)
  · exact List.prefix_append [first] rest

theorem prefix_of_mem_scan {lexeme : Lexeme} {cs : List Char} {position inside : Nat}
    (h : lexeme ∈ scan position inside cs) :
    ∃ k, lexeme.position = position + k ∧ lexeme.text.toList <+: cs.drop k := by
  induction cs generalizing position inside with
  | nil => simp [scan] at h
  | cons c rest ih =>
    have hlater {inside : Nat} (h : lexeme ∈ scan (position + 1) inside rest) :
        ∃ k, lexeme.position = position + k ∧ lexeme.text.toList <+: (c :: rest).drop k := by
      obtain ⟨k, hposition, hfront⟩ := ih h
      exact ⟨k + 1, by rw [hposition, Nat.add_assoc, Nat.add_comm 1], hfront⟩
    cases inside with
    | succ inside => exact hlater h
    | zero =>
      rw [scan] at h
      split at h
      · exact hlater h
      · rcases List.mem_cons.mp h with rfl | h
        · refine ⟨0, rfl, ?_⟩
          rw [String.toList_ofList]
          exact prefix_starting c rest
        · exact hlater h

end Lexeme

section Reading
variable {lexicon : Option Lexicon} {refusal : Refusal}

theorem term_points {lexeme : Lexeme} (h : lexeme.term lexicon = .error refusal) :
    Points lexeme refusal := by
  have hreads := lexeme.reads_term lexicon
  rw [h] at hreads
  cases hreads with
  | quoted _ hquoted => cases hquoted <;> exact .whole (by decide)
  | listed hbracket hlisted =>
    cases hlisted with
    | unterminated => exact .whole (by decide)
    | empty => exact .whole (by decide)
    | unknown _ hmem hname =>
      refine .category ?_ hname
      obtain ⟨word, hword, rfl⟩ := List.mem_map.mp hmem
      rw [String.toList_ofList, hbracket]
      exact ((Text.infix_of_mem_words hword).trans (List.dropLast_prefix _).isInfix).trans
        (List.suffix_cons _ _).isInfix
  | worded _ _ hworded =>
    cases hworded with
    | unknownGlob => exact .whole (by decide)
    | @unknownCategory form name _ hsplit hname =>
      refine .category ?_ hname
      rw [Lexeme.of_splitAtSlash? hsplit]
      exact ((List.suffix_cons _ _).trans (List.suffix_append _ _)).isInfix

theorem HoldAll.comma_mem {group : Group} {outer : List Group} {lexemes : List Lexeme}
    {comma : Lexeme} (h : HoldAll lexicon (group, outer) lexemes) (hchain : group.chain = [])
    (hcomma : group.comma = some comma) : comma ∈ lexemes := by
  have hmem {lexemes : List Lexeme} (hholds : group.Holds lexicon lexemes) : comma ∈ lexemes := by
    cases hholds with
    | nothing _ _ hnone => cases hnone.symm.trans hcomma
    | first d _ hd => exact absurd (hd ▸ hchain) (d.normal_chain _).1
    | comma _ _ _ _ _ hsome =>
      cases hsome.symm.trans hcomma
      exact List.mem_append_right _ (List.mem_singleton.mpr rfl)
    | later _ _ d _ _ hd => exact absurd (hd ▸ hchain) (d.normal_chain _).1
  cases h with
  | whole _ hholds => exact hmem hholds
  | inside _ _ _ hholds =>
    exact List.mem_append_right _ (List.mem_cons_of_mem _ (hmem hholds))

theorem HoldAll.opener_mem {group : Group} {outer : List Group} {lexemes : List Lexeme}
    {opener : Lexeme} (h : HoldAll lexicon (group, outer) lexemes)
    (hopener : group.opener = some opener) : opener ∈ lexemes := by
  cases h with
  | whole hnone _ => cases hnone.symm.trans hopener
  | inside _ _ hsome _ =>
    cases hsome.symm.trans hopener
    exact List.mem_append_right _ List.mem_cons_self

theorem HoldAll.readLexeme_points {groups : Groups} {before : List Lexeme} {lexeme : Lexeme}
    (h : HoldAll lexicon groups before)
    (hread : Pattern.readLexeme lexicon groups lexeme = .error refusal) :
    ∃ culprit ∈ before ++ [lexeme], Points culprit refusal := by
  obtain ⟨group, outer⟩ := groups
  have hlast : lexeme ∈ before ++ [lexeme] := List.mem_append_right _ (List.mem_singleton.mpr rfl)
  rcases lexeme.kinds with ho | hc | hcomma | hterm
  · rw [readLexeme_opener ho] at hread
    cases hread
  · rw [readLexeme_closer hc] at hread
    simp only [readClose] at hread
    split at hread
    · rename_i hchain
      split at hread <;> cases hread
      · rename_i hcomma
        exact ⟨_, List.mem_append_left _ (h.comma_mem (by simpa using hchain) hcomma),
          .whole (by decide)⟩
      · rename_i hopener
        exact ⟨_, List.mem_append_left _ (h.opener_mem hopener), .whole (by decide)⟩
      · exact ⟨lexeme, hlast, .whole (by decide)⟩
    · split at hread <;> cases hread
      exact ⟨lexeme, hlast, .whole (by decide)⟩
  · rw [readLexeme_comma hcomma] at hread
    simp only [readComma] at hread
    split at hread <;> cases hread
    rename_i hchain
    refine ⟨_, ?_, .whole (by decide)⟩
    cases hbefore : group.comma with
    | none => exact hlast
    | some comma => exact List.mem_append_left _ (h.comma_mem (by simpa using hchain) hbefore)
  · rw [readLexeme_term hterm] at hread
    rcases bind_eq_error.mp hread with hmeans | ⟨c, -, hadd⟩
    · exact ⟨lexeme, hlast, term_points hmeans⟩
    · cases hadd

theorem HoldAll.foldlM_points {groups : Groups} {before lexemes : List Lexeme}
    (h : HoldAll lexicon groups before)
    (hread : lexemes.foldlM (Pattern.readLexeme lexicon) groups = .error refusal) :
    ∃ culprit ∈ before ++ lexemes, Points culprit refusal := by
  induction lexemes generalizing groups before with
  | nil => cases hread
  | cons lexeme rest ih =>
    rw [List.foldlM_cons] at hread
    rw [List.append_cons]
    rcases bind_eq_error.mp hread with hnext | ⟨next, hnext, hrest⟩
    · obtain ⟨culprit, hmem, hpoints⟩ := h.readLexeme_points hnext
      exact ⟨culprit, List.mem_append_left _ hmem, hpoints⟩
    · exact ih (h.readLexeme hnext).1 hrest

theorem HoldAll.readEnd_points {groups : Groups} {lexemes : List Lexeme} {source : String}
    (h : HoldAll lexicon groups lexemes) (hne : lexemes ≠ [])
    (hend : readEnd source groups = .error refusal) :
    ∃ culprit ∈ lexemes, Points culprit refusal := by
  have hfault := h.readEnd_error hne hend
  obtain ⟨group, outer⟩ := groups
  simp only [readEnd] at hend
  split at hend <;> cases hend
  · rename_i hchain hcomma
    exact ⟨_, h.comma_mem (by simpa using hchain) hcomma, .whole (by decide)⟩
  · rename_i hopener _
    exact ⟨_, h.opener_mem hopener, .whole (by decide)⟩
  · rcases hfault with hfault | hfault <;> cases hfault

theorem parse_points {source : String} (hne : Lexeme.all source ≠ [])
    (h : parse lexicon source = .error refusal) :
    ∃ lexeme ∈ Lexeme.all source, Points lexeme refusal := by
  rw [parse_of_ne_nil hne] at h
  rcases bind_eq_error.mp h with hread | ⟨groups, hread, hend⟩
  · exact HoldAll.start.foldlM_points hread
  · exact (HoldAll.start.foldlM hread).1.readEnd_points hne hend

theorem checkGaps_points {source : String} {chain : Chain} (h : parse lexicon source = .ok chain)
    (herror : checkGaps (ofChain chain source) = .error refusal) :
    ∃ lexeme ∈ Lexeme.all source, Points lexeme refusal := by
  obtain ⟨index, node, hnode, hgap, hconstruct, hwhere⟩ := checkGaps_eq_error herror
  have hfault : refusal.fault ∈ gapFaults := by
    rcases hwhere with ⟨hfault, -⟩ | ⟨hfault, -⟩ <;> simp [hfault, gapFaults]
  have hchoice : node.isChoice = false := by
    cases his : node.isChoice with
    | false => rfl
    | true => cases (isGap_of_isChoice hnode his).symm.trans hgap
  obtain ⟨lexeme, hmem, hterm, hposition⟩ :=
    leaf_of_parse h (mem_leaves (normal_of_parse h).2 hnode hchoice)
  obtain ⟨fault, construct⟩ := refusal
  obtain ⟨condition, next, children, position⟩ := node
  cases condition with
  | gap budget =>
    refine ⟨lexeme, (List.mem_filter.mp hmem).1, ?_⟩
    cases hconstruct
    cases hposition
    rw [Condition.display]
    exact .gap hfault (gapBudget?_of_term hterm)
  | _ => cases hgap

end Reading

/-- A pattern without lexemes is refused as empty, the whole of it. Any other that is refused has a
lexeme where the refusal points, and the refusal tells that lexeme, a name in it that is no
category's, or the gap that it stands for. -/
theorem compile_error_points {lexicon : Option Lexicon} {source : String} {e : CompileError}
    (h : compile lexicon source = .error e) :
    e.pattern = source ∧
    (Lexeme.all source = [] → e.toRefusal = ⟨.emptyPattern, ⟨source, 0⟩⟩) ∧
    (Lexeme.all source ≠ [] → ∃ lexeme ∈ Lexeme.all source,
      lexeme.text.toList <+: source.toList.drop lexeme.position ∧ Points lexeme e.toRefusal) := by
  have hplaced {refusal : Refusal} (h : ∃ lexeme ∈ Lexeme.all source, Points lexeme refusal) :
      ∃ lexeme ∈ Lexeme.all source,
        lexeme.text.toList <+: source.toList.drop lexeme.position ∧ Points lexeme refusal := by
    obtain ⟨lexeme, hmem, hpoints⟩ := h
    obtain ⟨k, hposition, hfront⟩ := Lexeme.prefix_of_mem_scan hmem
    rw [Nat.zero_add] at hposition
    exact ⟨lexeme, hmem, hposition ▸ hfront, hpoints⟩
  cases hparse : parse lexicon source with
  | error refusal =>
    rw [compile, hparse] at h
    cases h
    refine ⟨rfl, fun hnil => ?_, fun hne => hplaced (parse_points hne hparse)⟩
    rw [parse_nil hnil] at hparse
    exact (Except.error.inj hparse).symm
  | ok chain =>
    rw [compile_of_parse hparse] at h
    cases hcheck : checkGaps (ofChain chain source) with
    | ok _ =>
      rw [hcheck] at h
      cases h
    | error refusal =>
      rw [hcheck] at h
      cases h
      refine ⟨rfl, fun hnil => ?_, fun _ => hplaced (checkGaps_points hparse hcheck)⟩
      rw [parse_nil hnil] at hparse
      cases hparse

theorem compile_error_points_nested : ∃ e : CompileError,
    compile none "a (b, c **) **07" = .error e ∧ e.construct = ⟨"**7", 12⟩ ∧
    ∃ lexeme ∈ Lexeme.all "a (b, c **) **07",
      lexeme.text.toList <+: "a (b, c **) **07".toList.drop lexeme.position ∧
        Points lexeme e.toRefusal := by
  have hcompile : compile none "a (b, c **) **07" =
      .error ⟨⟨.repeatedGap, ⟨"**7", 12⟩⟩, "a (b, c **) **07"⟩ := by cbv
  exact ⟨_, hcompile, rfl, (compile_error_points hcompile).2.2 (by decide)⟩

end Concordance.Pattern
