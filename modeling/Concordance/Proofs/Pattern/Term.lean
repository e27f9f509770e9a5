import Concordance.Pattern.Term

/-! What a term can come to. Each way of writing one has a relation between the lexeme and the
answer, with a case for every way through; the functions are taken apart here and nowhere else. -/

namespace Concordance

section Except
variable {ε ε' α β : Type} {x : Except ε α} {f : α → Except ε β}

theorem bind_eq_ok {b : β} : (x >>= f) = .ok b ↔ ∃ a, x = .ok a ∧ f a = .ok b := by
  cases x <;> simp [bind, Except.bind]

theorem bind_eq_error {e : ε} :
    (x >>= f) = .error e ↔ x = .error e ∨ ∃ a, x = .ok a ∧ f a = .error e := by
  cases x <;> simp [bind, Except.bind]

theorem mapError_eq_ok {g : ε → ε'} {a : α} : x.mapError g = .ok a ↔ x = .ok a := by
  cases x with
  | error e => constructor <;> intro h <;> cases h
  | ok b =>
    constructor <;> intro h <;> cases h <;> rfl

end Except

namespace Pattern

namespace Lexeme
variable {lexeme : Lexeme}

theorem categoryNamed_known {name : String} {c : Category} (h : Category.ofName? name = some c) :
    lexeme.categoryNamed name = .ok c := by
  rw [categoryNamed, h]

theorem categoryNamed_unknown {name : String} (h : Category.ofName? name = none) :
    lexeme.categoryNamed name = .error ⟨.unknownCategory, ⟨name, lexeme.position⟩⟩ := by
  rw [categoryNamed, h]

theorem categoriesNamed (lexeme : Lexeme) (names : List String) :
    (∃ codes : List Category, names.map Category.ofName? = codes.map some ∧
      names.mapM lexeme.categoryNamed = .ok codes) ∨
    ∃ name ∈ names, Category.ofName? name = none ∧
      names.mapM lexeme.categoryNamed = .error ⟨.unknownCategory, ⟨name, lexeme.position⟩⟩ := by
  induction names with
  | nil => exact .inl ⟨[], rfl, rfl⟩
  | cons name rest ih =>
    rw [List.mapM_cons]
    cases hname : Category.ofName? name with
    | none =>
      rw [categoryNamed_unknown hname]
      exact .inr ⟨name, List.mem_cons_self, hname, rfl⟩
    | some c =>
      rw [categoryNamed_known hname]
      rcases ih with ⟨codes, hcodes, hrest⟩ | ⟨other, hmem, hother, hrest⟩
      · rw [hrest]
        exact .inl ⟨c :: codes, by rw [List.map_cons, List.map_cons, hname, hcodes], rfl⟩
      · rw [hrest]
        exact .inr ⟨other, List.mem_cons_of_mem _ hmem, hother, rfl⟩

inductive Quoted (lexeme : Lexeme) (rest : List Char) : Except Refusal Condition → Prop
  | unterminated : rest.getLast? ≠ some '\x22' →
      Quoted lexeme rest (.error ⟨.unterminatedQuote, lexeme⟩)
  | empty : rest.getLast? = some '\x22' → (String.ofList rest.dropLast).isEmpty = true →
      Quoted lexeme rest (.error ⟨.emptyQuote, lexeme⟩)
  | category {c : Category} : rest.getLast? = some '\x22' →
      (String.ofList rest.dropLast).isEmpty = false →
      Category.ofName? (String.ofList rest.dropLast) = some c →
      Quoted lexeme rest (.ok (.category c true))
  | form : rest.getLast? = some '\x22' → (String.ofList rest.dropLast).isEmpty = false →
      Category.ofName? (String.ofList rest.dropLast) = none →
      Quoted lexeme rest (.ok (Condition.ofForm (String.ofList rest.dropLast) true true))

theorem quoted_quotedTerm (lexeme : Lexeme) (rest : List Char) :
    Quoted lexeme rest (lexeme.quotedTerm rest) := by
  unfold quotedTerm
  split
  · exact .unterminated (by assumption)
  · rename_i hlast
    have hquote : rest.getLast? = some '\x22' := by simpa using hlast
    dsimp only
    split
    · exact .empty hquote (by assumption)
    · rename_i hempty
      have hliteral : (String.ofList rest.dropLast).isEmpty = false := by simpa using hempty
      split
      · exact .category hquote hliteral (by assumption)
      · exact .form hquote hliteral (by assumption)

def listedNames (rest : List Char) : List String := (Text.words rest.dropLast).map String.ofList

inductive Listed (lexeme : Lexeme) (rest : List Char) : Except Refusal Condition → Prop
  | unterminated : rest.getLast? ≠ some ']' →
      Listed lexeme rest (.error ⟨.unterminatedList, lexeme⟩)
  | empty : rest.getLast? = some ']' → listedNames rest = [] →
      Listed lexeme rest (.error ⟨.emptyList, lexeme⟩)
  | unknown {name : String} : rest.getLast? = some ']' → name ∈ listedNames rest →
      Category.ofName? name = none →
      Listed lexeme rest (.error ⟨.unknownCategory, ⟨name, lexeme.position⟩⟩)
  | known {codes : List Category} : rest.getLast? = some ']' → listedNames rest ≠ [] →
      (listedNames rest).map Category.ofName? = codes.map some →
      Listed lexeme rest (.ok (.oneOf (categorySet codes) (listedNames rest)))

theorem listed_listTerm (lexeme : Lexeme) (rest : List Char) :
    Listed lexeme rest (lexeme.listTerm rest) := by
  unfold listTerm
  split
  · exact .unterminated (by assumption)
  · rename_i hlast
    have hbracket : rest.getLast? = some ']' := by simpa using hlast
    change Listed lexeme rest (if (listedNames rest).isEmpty then .error ⟨.emptyList, lexeme⟩
      else (listedNames rest).mapM lexeme.categoryNamed >>= fun codes =>
        .ok (.oneOf (categorySet codes) (listedNames rest)))
    split
    · exact .empty hbracket (List.isEmpty_iff.mp (by assumption))
    · rename_i hempty
      rcases categoriesNamed lexeme (listedNames rest) with
        ⟨codes, hcodes, heq⟩ | ⟨name, hmem, hname, heq⟩
      · rw [heq]
        exact .known hbracket (by simpa using hempty) hcodes
      · rw [heq]
        exact .unknown hbracket hmem hname

def Plain (word : List Char) : Prop :=
  (['*', '*', '*'].isPrefixOf word || word.any foreignGlobSigns.contains) = false

inductive Worded (lexicon : Option Lexicon) (lexeme : Lexeme) : Except Refusal Condition → Prop
  | any : lexeme.text.toList = ['*'] → Worded lexicon lexeme (.ok .any)
  | gap {budget : Int} : gapBudget? lexeme.text.toList = some budget →
      Worded lexicon lexeme (.ok (.gap budget))
  | unknownGlob : gapBudget? lexeme.text.toList = none → ¬Plain lexeme.text.toList →
      Worded lexicon lexeme (.error ⟨.unknownGlob, lexeme⟩)
  | unknownCategory {form name : String} : Plain lexeme.text.toList →
      splitAtSlash? lexeme.text.toList = some (form, name) → Category.ofName? name = none →
      Worded lexicon lexeme (.error ⟨.unknownCategory, ⟨name, lexeme.position⟩⟩)
  | both {form name : String} {c : Category} : Plain lexeme.text.toList →
      splitAtSlash? lexeme.text.toList = some (form, name) → Category.ofName? name = some c →
      Worded lexicon lexeme (.ok (.both (Condition.ofForm form true false)
        (Condition.ofCategory c)))
  | category {c : Category} : Plain lexeme.text.toList →
      splitAtSlash? lexeme.text.toList = none → Category.ofName? lexeme.text = some c →
      Worded lexicon lexeme (.ok (Condition.ofCategory c))
  | headword : Plain lexeme.text.toList → splitAtSlash? lexeme.text.toList = none →
      Category.ofName? lexeme.text = none → isHeadword lexicon lexeme.text = true →
      Worded lexicon lexeme (.ok (.headword lexeme.text))
  | form : Plain lexeme.text.toList → splitAtSlash? lexeme.text.toList = none →
      Category.ofName? lexeme.text = none → isHeadword lexicon lexeme.text = false →
      Worded lexicon lexeme (.ok (Condition.ofForm lexeme.text true false))

theorem worded_wordTerm (lexicon : Option Lexicon) (lexeme : Lexeme) :
    Worded lexicon lexeme (lexeme.wordTerm lexicon) := by
  unfold wordTerm
  dsimp only
  split
  · exact .any (by assumption)
  split
  · exact .gap (by assumption)
  rename_i hgap
  split
  · rename_i hglob
    exact .unknownGlob hgap (by simp only [Plain, hglob, Bool.true_eq_false, not_false_eq_true])
  rename_i hglob
  have hplain : Plain lexeme.text.toList := Bool.eq_false_iff.mpr hglob
  split
  · rename_i form name hsplit
    cases hname : Category.ofName? name with
    | some c =>
      rw [categoryNamed_known hname]
      exact .both hplain hsplit hname
    | none =>
      rw [categoryNamed_unknown hname]
      exact .unknownCategory hplain hsplit hname
  · rename_i hsplit
    split
    · exact .category hplain hsplit (by assumption)
    · rename_i hname
      split
      · exact .headword hplain hsplit hname (by assumption)
      · rename_i hheadword
        exact .form hplain hsplit hname (Bool.eq_false_iff.mpr hheadword)

/-- What a lexeme other than a mark can come to, by its first character. -/
inductive Reads (lexicon : Option Lexicon) (lexeme : Lexeme) : Except Refusal Condition → Prop
  | quoted {rest : List Char} {answer : Except Refusal Condition} :
      lexeme.text.toList = '"' :: rest → Quoted lexeme rest answer →
      Reads lexicon lexeme answer
  | listed {rest : List Char} {answer : Except Refusal Condition} :
      lexeme.text.toList = '[' :: rest → Listed lexeme rest answer →
      Reads lexicon lexeme answer
  | worded {answer : Except Refusal Condition} :
      (∀ rest, lexeme.text.toList ≠ '"' :: rest) → (∀ rest, lexeme.text.toList ≠ '[' :: rest) →
      Worded lexicon lexeme answer → Reads lexicon lexeme answer

theorem reads_term (lexicon : Option Lexicon) (lexeme : Lexeme) :
    Reads lexicon lexeme (lexeme.term lexicon) := by
  unfold term
  split
  · exact .quoted (by assumption) (quoted_quotedTerm _ _)
  · exact .listed (by assumption) (listed_listTerm _ _)
  · rename_i hquote hbracket
    exact .worded hquote hbracket (worded_wordTerm _ _)

end Lexeme

def termFaults : List Fault :=
  [.unterminatedQuote, .emptyQuote, .unterminatedList, .emptyList, .unknownGlob, .unknownCategory]

theorem term_fault {lexicon : Option Lexicon} {lexeme : Lexeme} {refusal : Refusal}
    (h : lexeme.term lexicon = .error refusal) : refusal.fault ∈ termFaults := by
  have hreads := lexeme.reads_term lexicon
  rw [h] at hreads
  cases hreads with
  | quoted _ hquoted => cases hquoted <;> simp [termFaults]
  | listed _ hlisted => cases hlisted <;> simp [termFaults]
  | worded _ _ hworded => cases hworded <;> simp [termFaults]

theorem ofCategory_ne_gap (c : Category) (budget : Int) :
    Condition.ofCategory c ≠ .gap budget := by
  unfold Condition.ofCategory
  split <;> simp [Condition.ofFamily]

theorem gapBudget?_of_term {lexicon : Option Lexicon} {lexeme : Lexeme} {budget : Int}
    (h : lexeme.term lexicon = .ok (.gap budget)) :
    Lexeme.gapBudget? lexeme.text.toList = some budget := by
  have hreads := lexeme.reads_term lexicon
  generalize lexeme.term lexicon = answer at h hreads
  cases hreads with
  | quoted _ hquoted => cases hquoted <;> cases h
  | listed _ hlisted => cases hlisted <;> cases h
  | worded _ _ hworded =>
    cases hworded with
    | gap hgap =>
      cases h
      exact hgap
    | category => exact absurd (Except.ok.inj h) (ofCategory_ne_gap _ _)
    | _ => cases h

theorem gapBudget?_nonneg {word : List Char} {budget : Int}
    (h : Lexeme.gapBudget? word = some budget) : 0 ≤ budget := by
  unfold Lexeme.gapBudget? at h
  split at h
  · split at h
    · cases h
      decide
    · obtain ⟨n, -, rfl⟩ := Option.map_eq_some_iff.mp h
      exact Int.natCast_nonneg n
  · cases h

end Pattern
end Concordance
