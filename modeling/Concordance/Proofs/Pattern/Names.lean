import Mathlib.Data.List.Basic
import Concordance.Proofs.Pattern.TermDisplay

/-! The names of categories as terms, alone and in lists. A name by itself tests for what its code
means; a list tests by a set of codes, which holds what one of its codes means. -/

namespace Concordance

namespace Category

/-- The codes that a code means as a test: that of a family means its sixteen, and any other only
itself. The codes for nothing known and for unresolved mark no family. -/
def Spans (code category : Category) : Prop :=
  if code.isFamilyMarker then code ≤ category ∧ category < code + 16 else category = code

section
variable {code category : Category}

theorem spans_marker (h : code.isFamilyMarker = true) (hcode : 0 ≤ code ∧ code < 256)
    (hcategory : 0 ≤ category ∧ category < 256) :
    code.Spans category ↔ category.family = code.family := by
  rw [Spans, if_pos h]
  simp only [isFamilyMarker, Bool.and_eq_true, beq_iff_eq] at h
  unfold family Category at *
  omega

theorem marker_bound (h : code.isFamilyMarker = true) (hcode : 0 ≤ code) : 16 ≤ code := by
  simp only [isFamilyMarker, null, Bool.and_eq_true, bne_iff_ne, beq_iff_eq] at h
  unfold Category at *
  omega

theorem bounds_of_name {name : String} (h : ofName? name = some code) :
    0 ≤ code ∧ code < 256 := by
  have htable : ∀ entry ∈ table, 0 ≤ entry.2 ∧ entry.2 < 256 := by decide +kernel
  exact htable (name, code) (mem_table h)

end

end Category

namespace Condition

theorem isGap_ofCategory (code : Category) : (ofCategory code).isGap = false := by
  rw [ofCategory]
  split <;> rfl

theorem accepts_ofCategory {o : Occurrence} {code : Category}
    (hcode : 0 ≤ code ∧ code < 256) (ho : 0 ≤ o.category ∧ o.category < 256) :
    (ofCategory code).accepts o = true ↔ code.Spans o.category := by
  rw [ofCategory]
  split
  · rename_i hmarker
    rw [Category.spans_marker hmarker hcode ho, ofFamily, accepts, beq_iff_eq]
  · rename_i hmarker
    rw [Category.Spans, if_neg hmarker, accepts, beq_iff_eq]

end Condition

namespace Pattern

open Lexeme

section Set
variable {codes : List Category} {category : Category}

theorem contains_add (s : CategorySet) {code : Category} (hcode : 0 ≤ code ∧ code < 256)
    (hcategory : 0 ≤ category ∧ category < 256) :
    (if code.isFamilyMarker then s.insertFamily code else s.insert code).contains category ↔
      s.contains category ∨ code.Spans category := by
  split
  · rename_i hmarker
    rw [CategorySet.contains_insertFamily s ⟨Category.marker_bound hmarker hcode.1, hcode.2⟩
      hcategory, Category.spans_marker hmarker hcode hcategory]
  · rename_i hmarker
    rw [CategorySet.contains_insert s hcode hcategory, Category.Spans, if_neg hmarker]

theorem contains_categorySet (hcodes : ∀ code ∈ codes, 0 ≤ code ∧ code < 256)
    (hcategory : 0 ≤ category ∧ category < 256) :
    (categorySet codes).contains category ↔ ∃ code ∈ codes, code.Spans category := by
  suffices hfold : ∀ s : CategorySet, (codes.foldl (fun s code =>
      if code.isFamilyMarker then s.insertFamily code else s.insert code) s).contains category ↔
        s.contains category ∨ ∃ code ∈ codes, code.Spans category by
    have hempty : CategorySet.empty.contains category = false := by
      simp [CategorySet.contains, CategorySet.empty]
    rw [categorySet, hfold, hempty]
    simp
  induction codes with
  | nil => simp
  | cons code rest ih =>
    obtain ⟨hcode, hrest⟩ := List.forall_mem_cons.mp hcodes
    intro s
    rw [List.foldl_cons, ih hrest, contains_add s hcode hcategory, List.exists_mem_cons_iff,
      or_assoc]

end Set

section Names
variable {lexicon : Option Lexicon} {name : String} {code : Category}

theorem word_of_name (h : Category.ofName? name = some code) : name.toList ≠ ['*'] ∧
    gapBudget? name.toList = none ∧ Plain name.toList ∧ splitAtSlash? name.toList = none ∧
    name.toList.head? ≠ some '[' := by
  have htable : ∀ entry ∈ Category.table, entry.1.toList ≠ ['*'] ∧
      gapBudget? entry.1.toList = none ∧ Plain entry.1.toList ∧
      splitAtSlash? entry.1.toList = none ∧ entry.1.toList.head? ≠ some '[' := by
    unfold Plain
    decide +kernel
  exact htable (name, code) (Category.mem_table h)

theorem whole_of_name (h : Category.ofName? name = some code) : Whole name.toList := by
  obtain ⟨hne, hchars⟩ := Category.chars_of_name h
  obtain ⟨-, -, -, -, hbracket⟩ := word_of_name h
  obtain ⟨first, chars, heq⟩ := List.exists_cons_of_ne_nil hne
  rw [heq] at hchars hbracket ⊢
  exact .word (by simpa using hbracket) fun d hd => (hchars d hd).1

theorem term_of_name (h : Category.ofName? name = some code) (position : Nat) :
    Lexeme.term lexicon ⟨name, position⟩ = .ok (Condition.ofCategory code) := by
  obtain ⟨hne, hword⟩ := Category.chars_of_name h
  obtain ⟨hstar, hgap, hplain, hslash, hbracket⟩ := word_of_name h
  obtain ⟨first, chars, hchars⟩ := List.exists_cons_of_ne_nil hne
  have hquote : first ≠ '\x22' :=
    ne_quote_of_isWordChar (hword first (hchars ▸ List.mem_cons_self)).1
  rw [hchars, List.head?_cons, ne_eq, Option.some.injEq] at hbracket
  rw [term_word ⟨name, position⟩ hchars hquote hbracket, wordTerm]
  dsimp only
  rw [if_neg hstar, hgap]
  dsimp only
  rw [if_neg (Bool.eq_false_iff.mp hplain), hslash]
  dsimp only
  rw [h]

theorem speaks_of_name (h : Category.ofName? name = some code) :
    Speaks lexicon (Condition.ofCategory code) :=
  speaks_of_display (whole_of_name h) (term_of_name h 0) (Category.display_of_name h)

end Names

section Listed
variable {lexicon : Option Lexicon} {lexeme : Lexeme} {body : List Char} {c : Condition}

theorem isMark_bracket {rest : List Char} (h : lexeme.text.toList = '[' :: rest) :
    lexeme.isMark = false := by
  simp [isMark, ← String.toList_inj, h]

theorem list_of_term (htext : lexeme.text.toList = '[' :: (body ++ [']']))
    (h : lexeme.term lexicon = .ok c) : ∃ codes, codes ≠ [] ∧
      ((Text.words body).map String.ofList).map Category.ofName? = codes.map some ∧
      c = .oneOf (categorySet codes) ((Text.words body).map String.ofList) := by
  have hlisted := lexeme.listed_listTerm (body ++ [']'])
  rw [← term_list lexeme htext, h] at hlisted
  cases hlisted with
  | @known codes _ hne hcodes =>
    rw [listedNames, List.dropLast_concat] at hne hcodes ⊢
    refine ⟨codes, ?_, hcodes, rfl⟩
    rintro rfl
    exact hne (List.map_eq_nil_iff.mp hcodes)

end Listed

section Known
variable {names : List String} {codes : List Category}

theorem display_names (h : names.map Category.ofName? = codes.map some) :
    (codes.map Condition.ofCategory).map Condition.display = names := by
  induction names generalizing codes with
  | nil =>
    rw [List.map_eq_nil_iff.mp h.symm]
    rfl
  | cons name rest ih =>
    obtain ⟨code, codes, rfl, hcode, hcodes⟩ := List.map_eq_cons_iff.mp h.symm
    rw [List.map_cons, List.map_cons, ih hcodes.symm, Category.display_of_name hcode.symm]

theorem code_of_mem (h : names.map Category.ofName? = codes.map some) :
    (∀ name ∈ names, ∃ code ∈ codes, Category.ofName? name = some code) ∧
      ∀ code ∈ codes, ∃ name ∈ names, Category.ofName? name = some code := by
  constructor
  · intro name hmem
    have hknown := List.mem_map_of_mem (f := Category.ofName?) hmem
    rw [h] at hknown
    obtain ⟨code, hcode, hsome⟩ := List.mem_map.mp hknown
    exact ⟨code, hcode, hsome.symm⟩
  · intro code hmem
    have hknown := List.mem_map_of_mem (f := some) hmem
    rw [← h] at hknown
    obtain ⟨name, hname, hsome⟩ := List.mem_map.mp hknown
    exact ⟨name, hname, hsome⟩

theorem bounds_of_names (h : names.map Category.ofName? = codes.map some) :
    ∀ code ∈ codes, 0 ≤ code ∧ code < 256 := by
  intro code hmem
  obtain ⟨name, -, hname⟩ := (code_of_mem h).2 code hmem
  exact Category.bounds_of_name hname

end Known

end Pattern
end Concordance
