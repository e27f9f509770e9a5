import Concordance.Proofs.Pattern.Spelling
import Concordance.Proofs.Text.Trimming

/-! How terms are written. A condition that a term stands for is written as one lexeme again, which
stands for the same condition: most are written as they were read, a list with one blank between its
names, and a gap with its budget in plain digits. -/

namespace Concordance

section Except
variable {ε α β : Type}

theorem toOption_eq_some {x : Except ε α} {a : α} : x.toOption = some a ↔ x = .ok a := by
  cases x <;> simp [Except.toOption]

theorem toOption_bind (x : Except ε α) (f : α → Except ε β) :
    (x >>= f).toOption = x.toOption.bind fun a => (f a).toOption := by
  cases x <;> rfl

end Except

namespace Condition

theorem display_quoted (text : String) :
    display (.form text .quoted) = "\x22" ++ text ++ "\x22" := by
  rw [display]
  rfl

theorem display_ofForm_quoted (text : String) :
    (ofForm text true true).display = "\x22" ++ text ++ "\x22" := display_quoted text

theorem display_ofForm (text : String) : (ofForm text true false).display = text := by
  rw [ofForm, if_neg Bool.false_ne_true]
  split <;> rw [display] <;> exact nofun

def written (c : Category) : String := if c.label.isEmpty then "NULL" else c.label

theorem display_category_quoted (c : Category) :
    display (.category c true) = "\x22" ++ written c ++ "\x22" := by
  rw [display]
  rfl

end Condition

namespace Category

theorem mem_table {name : String} {c : Category} (h : ofName? name = some c) :
    (name, c) ∈ table := by
  obtain ⟨before, after, heq, -⟩ := List.lookup_eq_some_iff.mp h
  rw [heq]
  exact List.mem_append_right _ List.mem_cons_self

theorem written_of_name {name : String} {c : Category} (h : ofName? name = some c) :
    Condition.written c = name := by
  have htable : ∀ entry ∈ table, Condition.written entry.2 = entry.1 := by decide +kernel
  exact htable (name, c) (mem_table h)

theorem display_of_name {name : String} {c : Category} (h : ofName? name = some c) :
    (Condition.ofCategory c).display = name := by
  have htable : ∀ entry ∈ table, (Condition.ofCategory entry.2).display = entry.1 := by
    decide +kernel
  exact htable (name, c) (mem_table h)

theorem chars_of_name {name : String} {c : Category} (h : ofName? name = some c) :
    name.toList ≠ [] ∧ ∀ d ∈ name.toList, Pattern.Lexeme.isWordChar d = true ∧ d ≠ ']' := by
  have htable : ∀ entry ∈ table, entry.1.toList ≠ [] ∧
      entry.1.toList.all (fun d => Pattern.Lexeme.isWordChar d && d != ']') = true := by
    decide +kernel
  obtain ⟨hne, hall⟩ := htable (name, c) (mem_table h)
  refine ⟨hne, fun d hd => ?_⟩
  have hchar := List.all_eq_true.mp hall d hd
  rwa [Bool.and_eq_true, bne_iff_ne] at hchar

end Category

namespace Pattern

namespace Lexeme

section Moved
variable {text : String} (here there : Nat)

/-! What a lexeme stands for does not depend on its offset, though a refusal tells the offset. -/

theorem categoryNamed_moved (name : String) : (categoryNamed ⟨text, here⟩ name).toOption =
    (categoryNamed ⟨text, there⟩ name).toOption := by
  rw [categoryNamed, categoryNamed]
  cases Category.ofName? name <;> rfl

theorem categoriesNamed_moved (names : List String) :
    (names.mapM (categoryNamed ⟨text, here⟩)).toOption =
      (names.mapM (categoryNamed ⟨text, there⟩)).toOption := by
  induction names with
  | nil => rfl
  | cons name names ih =>
    simp only [List.mapM_cons, toOption_bind, ih, categoryNamed_moved here there name]

theorem quotedTerm_moved (rest : List Char) : (quotedTerm ⟨text, here⟩ rest).toOption =
    (quotedTerm ⟨text, there⟩ rest).toOption := by
  rw [quotedTerm, quotedTerm]
  split
  · rfl
  dsimp only
  split
  · rfl
  cases Category.ofName? (String.ofList rest.dropLast) <;> rfl

theorem listTerm_moved (rest : List Char) : (listTerm ⟨text, here⟩ rest).toOption =
    (listTerm ⟨text, there⟩ rest).toOption := by
  rw [listTerm, listTerm]
  split
  · rfl
  dsimp only
  split
  · rfl
  · rw [toOption_bind, toOption_bind, categoriesNamed_moved here there]

theorem wordTerm_moved (lexicon : Option Lexicon) : (wordTerm lexicon ⟨text, here⟩).toOption =
    (wordTerm lexicon ⟨text, there⟩).toOption := by
  rw [wordTerm, wordTerm]
  dsimp only
  split
  · rfl
  cases gapBudget? text.toList with
  | some budget => rfl
  | none =>
    dsimp only
    split
    · rfl
    cases splitAtSlash? text.toList with
    | some parts =>
      simp only [toOption_bind, categoryNamed_moved here there]
    | none => rfl

theorem term_moved {lexicon : Option Lexicon} {c : Condition}
    (h : term lexicon ⟨text, here⟩ = .ok c) : term lexicon ⟨text, there⟩ = .ok c := by
  rw [← toOption_eq_some] at h ⊢
  rw [← h, term, term]
  dsimp only
  split
  · exact quotedTerm_moved there here _
  · exact listTerm_moved there here _
  · exact wordTerm_moved there here lexicon

end Moved

theorem of_splitAtSlash? {word : List Char} {form name : String}
    (h : splitAtSlash? word = some (form, name)) :
    word = form.toList ++ '/' :: name.toList := by
  simp only [splitAtSlash?, Option.ite_none_right_eq_some, Option.some.injEq, Prod.mk.injEq] at h
  obtain ⟨hslash, rfl, rfl⟩ := h
  have hmem : '/' ∈ word.reverse := by
    have hinner := (List.dropWhile_sublist _).mem (List.contains_iff_mem.mp hslash)
    rw [List.mem_reverse] at hinner
    exact List.mem_reverse.mpr ((List.dropWhile_sublist _).mem hinner)
  obtain ⟨after, before, hback, hafter⟩ := List.eq_append_cons_of_mem hmem
  have hpassed : ∀ c ∈ after, (c != '/') = true := by
    intro c hc
    rw [bne_iff_ne]
    rintro rfl
    exact hafter hc
  have hname : word.reverse.takeWhile (· != '/') = after := by
    rw [hback, List.takeWhile_append_of_pos hpassed, List.takeWhile_cons, if_neg (by decide),
      List.append_nil]
  have hform : word.reverse.dropWhile (· != '/') = '/' :: before := by
    rw [hback, List.dropWhile_append_of_pos hpassed, List.dropWhile_cons, if_neg (by decide)]
  rw [hname, hform, String.toList_ofList, String.toList_ofList, List.drop_one, List.tail_cons,
    ← List.reverse_reverse word, hback, List.reverse_append, List.reverse_cons, List.append_assoc,
    List.singleton_append]

theorem quoted_text {lexeme : Lexeme} {rest : List Char}
    (hquote : lexeme.text.toList = '\x22' :: rest) (hlast : rest.getLast? = some '\x22') :
    "\x22" ++ String.ofList rest.dropLast ++ "\x22" = lexeme.text := by
  obtain ⟨body, rfl⟩ := List.getLast?_eq_some_iff.mp hlast
  rw [← String.toList_inj, hquote, List.dropLast_concat]
  simp only [String.toList_append, String.toList_ofList, List.append_assoc]
  rfl

theorem isWordChar_of_digit {n : Nat} {d : Char} (h : d ∈ Nat.toDigits 10 n) :
    isWordChar d = true := by
  have hdigits : ∀ k < 58, 48 ≤ k → isWordChar (Char.ofNat k) = true := by decide
  have hdigit := Nat.isDigit_of_mem_toDigits (by decide) (by decide) h
  simp only [Char.isDigit, Bool.and_eq_true, decide_eq_true_eq] at hdigit
  rw [← Char.ofNat_toNat d]
  exact hdigits d.toNat (Nat.lt_succ_of_le hdigit.2) hdigit.1

theorem term_word {lexicon : Option Lexicon} (lexeme : Lexeme) {first : Char} {chars : List Char}
    (htext : lexeme.text.toList = first :: chars) (hquote : first ≠ '\x22')
    (hbracket : first ≠ '[') : lexeme.term lexicon = lexeme.wordTerm lexicon := by
  rw [term, htext]
  split
  · rename_i heq
    exact absurd (List.cons.inj heq).1 hquote
  · rename_i heq
    exact absurd (List.cons.inj heq).1 hbracket
  · rfl

theorem term_list {lexicon : Option Lexicon} (lexeme : Lexeme) {rest : List Char}
    (htext : lexeme.text.toList = '[' :: rest) : lexeme.term lexicon = lexeme.listTerm rest := by
  rw [term, htext]
  rfl

theorem term_quoted {lexicon : Option Lexicon} (lexeme : Lexeme) {rest : List Char}
    (htext : lexeme.text.toList = '\x22' :: rest) :
    lexeme.term lexicon = lexeme.quotedTerm rest := by
  rw [term, htext]
  rfl

theorem quotedTerm_form {lexeme : Lexeme} {text : String} (hne : text ≠ "")
    (hname : Category.ofName? text = none) :
    lexeme.quotedTerm (text.toList ++ ['\x22']) = .ok (.form text .quoted) := by
  rw [quotedTerm, if_neg (by simp), List.dropLast_concat, String.ofList_toList]
  simp only [hname]
  rw [if_neg (by simpa using hne)]
  rfl

theorem wordTerm_gap {lexicon : Option Lexicon} {lexeme : Lexeme} {budget : Int}
    (h : gapBudget? lexeme.text.toList = some budget) :
    lexeme.wordTerm lexicon = .ok (.gap budget) := by
  have hstar : lexeme.text.toList ≠ ['*'] := by
    intro heq
    rw [heq] at h
    cases h
  rw [wordTerm, if_neg hstar, h]

theorem listTerm_known {lexeme : Lexeme} {rest : List Char} {codes : List Category}
    (hlast : rest.getLast? = some ']') (hne : listedNames rest ≠ [])
    (hcodes : (listedNames rest).map Category.ofName? = codes.map some) :
    lexeme.listTerm rest = .ok (.oneOf (categorySet codes) (listedNames rest)) := by
  have hlisted := lexeme.listed_listTerm rest
  generalize lexeme.listTerm rest = answer at hlisted
  cases hlisted with
  | unterminated hother => exact absurd hlast hother
  | empty _ hnil => exact absurd hnil hne
  | unknown _ hmem hname =>
    have hnone := List.mem_map_of_mem (f := Category.ofName?) hmem
    rw [hname, hcodes] at hnone
    obtain ⟨_, _, hsome⟩ := List.mem_map.mp hnone
    cases hsome
  | @known others _ _ hothers =>
    have heq : codes.map some = others.map some := hcodes.symm.trans hothers
    rw [(List.map_inj_right fun _ _ => Option.some.inj).mp heq]

end Lexeme

/-- A condition is written as one lexeme, which stands for it wherever it is read. -/
structure Speaks (lexicon : Option Lexicon) (c : Condition) : Prop where
  whole : Lexeme.Whole c.display.toList
  term_eq (position : Nat) : Lexeme.term lexicon ⟨c.display, position⟩ = .ok c

section
variable {lexicon : Option Lexicon} {lexeme : Lexeme} {c : Condition}

theorem speaks_of_display (hwhole : Lexeme.Whole lexeme.text.toList)
    (h : lexeme.term lexicon = .ok c) (hdisplay : c.display = lexeme.text) : Speaks lexicon c :=
  ⟨hdisplay ▸ hwhole, fun position => hdisplay ▸ Lexeme.term_moved lexeme.position position h⟩

theorem speaks_gap (n : Nat) : Speaks lexicon (.gap n) := by
  have hstar : Lexeme.isWordChar '*' = true := by decide
  by_cases hdefault : (n : Int) = Condition.defaultBudget
  · have hdisplay : (Condition.gap n).display.toList = ['*', '*'] := by
      rw [Condition.display, if_pos hdefault]
      decide
    refine ⟨?_, fun position => ?_⟩
    · rw [hdisplay]
      exact .word (by decide) (by simp [hstar])
    · rw [Lexeme.term_word ⟨Condition.display (.gap n), position⟩ hdisplay (by decide)
        (by decide)]
      exact Lexeme.wordTerm_gap (by rw [hdisplay, hdefault]; rfl)
  · have hdisplay : (Condition.gap n).display.toList = '*' :: '*' :: Nat.toDigits 10 n := by
      rw [Condition.display, if_neg hdefault, String.toList_append]
      have hdigits : (toString (n : Int)).toList = Nat.toDigits 10 n := Nat.toList_repr
      rw [hdigits]
      rfl
    refine ⟨?_, fun position => ?_⟩
    · rw [hdisplay]
      refine .word (by decide) (List.forall_mem_cons.mpr ⟨hstar, List.forall_mem_cons.mpr
        ⟨hstar, fun d hd => Lexeme.isWordChar_of_digit hd⟩⟩)
    · rw [Lexeme.term_word ⟨Condition.display (.gap n), position⟩ hdisplay (by decide)
        (by decide)]
      have hdigits : (Nat.toDigits 10 n).isEmpty = false := by
        rw [List.isEmpty_eq_false_iff]
        exact Nat.toDigits_ne_nil
      refine Lexeme.wordTerm_gap ?_
      rw [hdisplay, Lexeme.gapBudget?, hdigits, if_neg Bool.false_ne_true,
        Text.decimalNumber?_toDigits]
      rfl

theorem speaks_quoted {text : String} (hne : text ≠ "") (hquote : '\x22' ∉ text.toList)
    (hname : Category.ofName? text = none) : Speaks lexicon (.form text .quoted) := by
  have hdisplay : (Condition.form text .quoted).display.toList =
      '\x22' :: (text.toList ++ ['\x22']) := by
    rw [Condition.display_quoted, String.toList_append, String.toList_append, List.append_assoc]
    rfl
  refine ⟨?_, fun position => ?_⟩
  · rw [hdisplay]
    exact .quoted hquote
  · rw [Lexeme.term_quoted ⟨Condition.display (.form text .quoted), position⟩ hdisplay,
      Lexeme.quotedTerm_form hne hname]

theorem speaks_oneOf {names : List String} {codes : List Category} (hne : names ≠ [])
    (hcodes : names.map Category.ofName? = codes.map some) :
    Speaks lexicon (.oneOf (Lexeme.categorySet codes) names) := by
  have hnames : ∀ w ∈ names.map String.toList, w ≠ [] ∧
      ∀ d ∈ w, Lexeme.isWordChar d = true ∧ d ≠ ']' := by
    intro w hw
    obtain ⟨name, hmem, rfl⟩ := List.mem_map.mp hw
    have hknown := List.mem_map_of_mem (f := Category.ofName?) hmem
    rw [hcodes] at hknown
    obtain ⟨c, -, hc⟩ := List.mem_map.mp hknown
    exact Category.chars_of_name hc.symm
  have hdisplay : (Condition.oneOf (Lexeme.categorySet codes) names).display.toList =
      '[' :: ([' '].intercalate (names.map String.toList) ++ [']']) := by
    rw [Condition.display, String.toList_append, String.toList_append, String.toList_intercalate]
    rfl
  have hread :
      Lexeme.listedNames ([' '].intercalate (names.map String.toList) ++ [']']) = names := by
    rw [Lexeme.listedNames, List.dropLast_concat, Text.words_intercalate fun w hw =>
      ⟨(hnames w hw).1, fun d hd => Lexeme.isBlank_of_isWordChar ((hnames w hw).2 d hd).1⟩]
    simp
  refine ⟨?_, fun position => ?_⟩
  · rw [hdisplay]
    refine .listed fun hmem => ?_
    rcases mem_of_mem_intercalate hmem with hblank | ⟨w, hw, hin⟩
    · cases List.mem_singleton.mp hblank
    · exact ((hnames w hw).2 ']' hin).2 rfl
  · rw [Lexeme.term_list ⟨Condition.display (.oneOf _ names), position⟩ hdisplay,
      Lexeme.listTerm_known List.getLast?_concat (by rw [hread]; exact hne)
        (by rw [hread]; exact hcodes), hread]

theorem speaks_of_term {source : String} (hmem : lexeme ∈ Lexeme.all source)
    (hmark : lexeme.isMark = false) (h : lexeme.term lexicon = .ok c) : Speaks lexicon c := by
  have hwhole := Lexeme.whole_of_term hmem hmark h
  have hreads := lexeme.reads_term lexicon
  rw [h] at hreads
  -- All but lists and gaps are written as they were read.
  cases hreads with
  | quoted hquote hquoted =>
    cases hquoted with
    | category hlast _ hname =>
      refine speaks_of_display hwhole h ?_
      rw [Condition.display_category_quoted, Category.written_of_name hname,
        Lexeme.quoted_text hquote hlast]
    | form hlast _ _ =>
      refine speaks_of_display hwhole h ?_
      rw [Condition.display_ofForm_quoted, Lexeme.quoted_text hquote hlast]
  | listed _ hlisted =>
    cases hlisted with
    | known _ hne hcodes => exact speaks_oneOf hne hcodes
  | worded _ _ hworded =>
    cases hworded with
    | any hstar =>
      refine speaks_of_display hwhole h ?_
      rw [← String.toList_inj, hstar, Condition.display]
      decide
    | @gap budget hgap =>
      obtain ⟨n, rfl⟩ := Int.eq_ofNat_of_zero_le (gapBudget?_nonneg hgap)
      exact speaks_gap n
    | both _ hsplit hname =>
      refine speaks_of_display hwhole h ?_
      rw [Condition.display, Condition.display_ofForm, Category.display_of_name hname,
        ← String.toList_inj, Lexeme.of_splitAtSlash? hsplit]
      simp
    | category _ _ hname => exact speaks_of_display hwhole h (Category.display_of_name hname)
    | headword => exact speaks_of_display hwhole h (by rw [Condition.display])
    | form => exact speaks_of_display hwhole h (Condition.display_ofForm _)

end

end Pattern
end Concordance
