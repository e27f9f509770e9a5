import Concordance.Proofs.Pattern.Lexing
import Concordance.Proofs.Pattern.Parsing

/-! How lexemes stand in a text. The characters of a term are one lexeme wherever they stand, as long
as no word goes on behind them; a mark is one lexeme by itself, and a blank belongs to none. So a
text that is put together from such pieces is taken apart into them again. -/

namespace Concordance.Pattern

namespace Lexeme

inductive Whole : List Char → Prop
  | quoted {body : List Char} : '\x22' ∉ body → Whole ('\x22' :: (body ++ ['\x22']))
  | listed {body : List Char} : ']' ∉ body → Whole ('[' :: (body ++ [']']))
  | word {c : Char} {rest : List Char} : c ≠ '[' → (∀ d ∈ c :: rest, isWordChar d = true) →
      Whole (c :: rest)

def Closes (rest : List Char) : Prop := ∀ c ∈ rest.head?, isWordChar c = false

section
variable {first : Char} {chars rest : List Char} {position : Nat}

theorem upTo_closed {closing : Char} (h : (upTo closing rest).getLast? = some closing) :
    ∃ body, closing ∉ body ∧ upTo closing rest = body ++ [closing] := by
  by_cases hmem : closing ∈ rest
  · obtain ⟨body, tail, rfl, hbody⟩ := List.eq_append_cons_of_mem hmem
    exact ⟨body, hbody, upTo_append hbody tail⟩
  · rw [upTo_of_not_mem hmem] at h
    exact absurd (List.mem_of_getLast? h) hmem

theorem Whole.cuts {text : List Char} (h : Whole text) (hrest : Closes rest) :
    ∃ kind : Kind, kind.Cuts text rest := by
  cases h with
  | quoted hbody => exact ⟨.quoted, .quoted (.closed hbody)⟩
  | listed hbody => exact ⟨.listed, .listed (.closed hbody)⟩
  | word hbracket hword =>
    exact ⟨.word, .word hbracket (fun d hd => isWordChar_iff.mp (hword d hd))
      fun d hd => isWordChar_eq_false_iff.mp (hrest d hd)⟩

theorem Whole.scan {text : List Char} (h : Whole text) (hrest : Closes rest) (position : Nat) :
    scan position 0 (text ++ rest) =
      ⟨String.ofList text, position⟩ :: scan (position + text.length) 0 rest := by
  obtain ⟨kind, hcuts⟩ := h.cuts hrest
  exact hcuts.scan position

theorem scan_mark {mark : Char} (h : mark ∈ ['(', ')', ',']) (position : Nat) (rest : List Char) :
    Lexeme.scan position 0 (mark :: rest) =
      ⟨String.ofList [mark], position⟩ :: Lexeme.scan (position + 1) 0 rest :=
  (Kind.Cuts.mark h).scan position

theorem scan_blank (position : Nat) (rest : List Char) :
    scan position 0 (' ' :: rest) = scan (position + 1) 0 rest := by
  have hblank : Text.isBlank ' ' = true := by decide
  rw [scan, hblank, if_pos rfl]

theorem starting_of_mem_scan {cs : List Char} {inside : Nat} {lexeme : Lexeme}
    (h : lexeme ∈ Lexeme.scan position inside cs) : ∃ first rest, Text.isBlank first = false ∧
      lexeme.text = String.ofList (Lexeme.starting first rest) := by
  induction cs generalizing position inside with
  | nil => simp [Lexeme.scan] at h
  | cons c rest ih =>
    cases inside with
    | succ inside => exact ih h
    | zero =>
      rw [Lexeme.scan] at h
      split at h
      · exact ih h
      · rename_i hblank
        rcases List.mem_cons.mp h with rfl | h
        · exact ⟨c, rest, Bool.eq_false_iff.mpr hblank, rfl⟩
        · exact ih h

end

theorem head_starting (first : Char) (rest : List Char) :
    ∃ chars, starting first rest = first :: chars := by
  unfold starting
  split
  · exact ⟨_, rfl⟩
  split
  · exact ⟨_, rfl⟩
  split
  · exact ⟨_, rfl⟩
  · exact ⟨[], rfl⟩

theorem isMark_of_mark {mark : Char} (h : mark ∈ ['(', ')', ',']) {lexeme : Lexeme}
    (htext : lexeme.text = String.ofList [mark]) : lexeme.isMark = true := by
  rw [isMark, htext]
  simp only [List.mem_cons, List.not_mem_nil, or_false] at h
  rcases h with rfl | rfl | rfl <;> decide

theorem Whole.isMark {lexeme : Lexeme} (h : Whole lexeme.text.toList) : lexeme.isMark = false := by
  have hmarks : ∀ mark ∈ ["(", ")", ","], ¬Whole mark.toList := by
    intro mark hmark hwhole
    simp only [List.mem_cons, List.not_mem_nil, or_false] at hmark
    rcases hmark with rfl | rfl | rfl <;> cases hwhole with
    | word _ hword => exact absurd (hword _ List.mem_cons_self) (by decide)
  rcases lexeme.kinds with htext | htext | htext | hterm
  · exact absurd (htext ▸ h) (hmarks "(" (by decide))
  · exact absurd (htext ▸ h) (hmarks ")" (by decide))
  · exact absurd (htext ▸ h) (hmarks "," (by decide))
  · exact hterm

theorem whole_of_term {cs : List Char} {position inside : Nat} {lexicon : Option Lexicon}
    {lexeme : Lexeme} {condition : Condition} (hmem : lexeme ∈ scan position inside cs)
    (hmark : lexeme.isMark = false) (h : lexeme.term lexicon = .ok condition) :
    Whole lexeme.text.toList := by
  obtain ⟨first, rest, hblank, htext⟩ := starting_of_mem_scan hmem
  have hchars : lexeme.text.toList = starting first rest := by rw [htext, String.toList_ofList]
  obtain ⟨chars, hhead⟩ := head_starting first rest
  have hreads := lexeme.reads_term lexicon
  rw [h] at hreads
  cases hreads with
  | @quoted chars' _ hquote hquoted =>
    have hlast : chars'.getLast? = some '\x22' := by cases hquoted <;> assumption
    rw [hchars, hhead] at hquote
    cases hquote
    rw [starting, if_pos rfl] at hhead
    cases hhead
    obtain ⟨body, hbody, heq⟩ := upTo_closed hlast
    rw [hchars, starting, if_pos rfl, heq]
    exact .quoted hbody
  | @listed chars' _ hbracket hlisted =>
    have hlast : chars'.getLast? = some ']' := by cases hlisted; assumption
    rw [hchars, hhead] at hbracket
    cases hbracket
    rw [starting, if_neg (by decide), if_pos rfl] at hhead
    cases hhead
    obtain ⟨body, hbody, heq⟩ := upTo_closed hlast
    rw [hchars, starting, if_neg (by decide), if_pos rfl, heq]
    exact .listed hbody
  | worded hquote hbracket _ =>
    rw [hchars, hhead] at hquote hbracket
    have hquote' : first ≠ '\x22' := fun heq => hquote chars (by rw [heq])
    have hbracket' : first ≠ '[' := fun heq => hbracket chars (by rw [heq])
    rw [starting, if_neg hquote', if_neg hbracket'] at hchars
    cases hword : isWordChar first with
    | true =>
      rw [hchars, hword, if_pos rfl]
      exact .word hbracket'
        (List.forall_mem_cons.mpr ⟨hword, fun d hd => List.mem_takeWhile_imp hd⟩)
    | false =>
      rw [hword, if_neg Bool.false_ne_true] at hchars
      have hlone : lexeme.text = String.ofList [first] := by rw [← hchars, String.ofList_toList]
      rw [isMark_of_mark (mark_of_starting hblank hquote' hword) hlone] at hmark
      cases hmark

end Lexeme
end Concordance.Pattern
