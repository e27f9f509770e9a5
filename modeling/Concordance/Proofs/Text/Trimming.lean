import Mathlib.Data.List.TakeWhile
import Concordance.Text.Blank
import Concordance.Text.Lines

/-! Where white space stands: runs of it in front of what has none at its ends, and what is left of a
text when the white space at both ends is dropped. -/

namespace Concordance

theorem mem_of_mem_intercalate {α : Type} {a : α} {sep : List α} {ls : List (List α)}
    (h : a ∈ sep.intercalate ls) : a ∈ sep ∨ ∃ l ∈ ls, a ∈ l := by
  induction ls with
  | nil => cases h
  | cons l rest ih =>
    cases rest with
    | nil =>
      rw [List.intercalate_singleton] at h
      exact .inr ⟨l, List.mem_cons_self, h⟩
    | cons next rest =>
      rw [List.intercalate_cons_cons, List.mem_append, List.mem_append] at h
      rcases h with (hl | hsep) | hrest
      · exact .inr ⟨l, List.mem_cons_self, hl⟩
      · exact .inl hsep
      · rcases ih hrest with hsep | ⟨other, hother, hmem⟩
        · exact .inl hsep
        · exact .inr ⟨other, List.mem_cons_of_mem _ hother, hmem⟩

section Span
variable {α : Type} {p : α → Bool} {first rest : List α}

/-- A row does not go on with an element of some kind. -/
def Stops (p : α → Bool) (rest : List α) : Prop := ∀ c ∈ rest.head?, p c = false

theorem stops_cons {c : α} (h : p c = false) (rest : List α) : Stops p (c :: rest) := by
  intro d hd
  cases Option.mem_some_iff.mp hd
  exact h

theorem stops_dropWhile (p : α → Bool) (cs : List α) : Stops p (cs.dropWhile p) := by
  induction cs with
  | nil => nofun
  | cons c cs ih =>
    rw [List.dropWhile_cons]
    split
    · exact ih
    · exact stops_cons (Bool.eq_false_iff.mpr ‹_›) cs

theorem dropWhile_append_stops (hfirst : ∀ c ∈ first, p c = true) (hrest : Stops p rest) :
    (first ++ rest).dropWhile p = rest := by
  rw [List.dropWhile_append_of_pos hfirst]
  cases rest with
  | nil => rfl
  | cons c rest => rw [List.dropWhile_cons, hrest c rfl, if_neg Bool.false_ne_true]

theorem takeWhile_append_stops (hfirst : ∀ c ∈ first, p c = true) (hrest : Stops p rest) :
    (first ++ rest).takeWhile p = first := by
  rw [List.takeWhile_append_of_pos hfirst]
  cases rest with
  | nil => exact List.append_nil first
  | cons c rest =>
    rw [List.takeWhile_cons, hrest c rfl, if_neg Bool.false_ne_true, List.append_nil]

end Span

namespace Text

def Blank (cs : List Char) : Prop := ∀ c ∈ cs, isBlank c = true

structure Trimmed (cs : List Char) : Prop where
  head : Stops isBlank cs
  last : Stops isBlank cs.reverse

theorem blank_takeWhile (cs : List Char) : Blank (cs.takeWhile isBlank) := fun _ hc =>
  List.mem_takeWhile_imp hc

theorem Blank.reverse {cs : List Char} (h : Blank cs) : Blank cs.reverse := fun c hc =>
  h c (List.mem_reverse.mp hc)

theorem strip_eq_of_trimmed {before inner after : List Char} (hbefore : Blank before)
    (hinner : Trimmed inner) (hafter : Blank after) : strip (before ++ inner ++ after) = inner := by
  by_cases hnil : inner = []
  · subst hnil
    have hblank : Blank (before ++ [] ++ after) := by
      intro c hc
      rw [List.append_nil, List.mem_append] at hc
      exact hc.elim (hbefore c) (hafter c)
    rw [strip, List.dropWhile_eq_nil_iff.mpr hblank]
    rfl
  · have hstops : Stops isBlank (inner ++ after) := by
      obtain ⟨c, inner, rfl⟩ := List.exists_cons_of_ne_nil hnil
      exact stops_cons (hinner.head c rfl) _
    rw [strip, List.append_assoc, dropWhile_append_stops hbefore hstops, List.reverse_append,
      dropWhile_append_stops hafter.reverse hinner.last, List.reverse_reverse]

theorem trimmed_strip (cs : List Char) : Trimmed (strip cs) ∧
    ∃ before after, Blank before ∧ Blank after ∧ cs = before ++ strip cs ++ after := by
  let body := cs.dropWhile isBlank
  have hback : body = strip cs ++ (body.reverse.takeWhile isBlank).reverse := by
    have hsplit := congrArg List.reverse
      (List.takeWhile_append_dropWhile (p := isBlank) (l := body.reverse))
    rw [List.reverse_append, List.reverse_reverse] at hsplit
    exact hsplit.symm
  refine ⟨⟨?_, ?_⟩, cs.takeWhile isBlank, (body.reverse.takeWhile isBlank).reverse,
    blank_takeWhile cs, (blank_takeWhile _).reverse, ?_⟩
  · -- What is left begins as it did before its end was dropped, or it is nothing.
    intro c hc
    refine stops_dropWhile isBlank cs c ?_
    change c ∈ body.head?
    rw [hback, List.head?_append, Option.mem_def.mp hc]
    rfl
  · rw [strip, List.reverse_reverse]
    exact stops_dropWhile isBlank _
  · rw [List.append_assoc, ← hback]
    exact List.takeWhile_append_dropWhile.symm

theorem trimmed_of_ends {first last : Char} (hfirst : isBlank first = false)
    (hlast : isBlank last = false) (body : List Char) :
    Trimmed (first :: (body ++ [last])) := by
  refine ⟨stops_cons hfirst _, ?_⟩
  rw [← List.cons_append, List.reverse_append]
  exact stops_cons hlast _

theorem Trimmed.append {first last : List Char} (hfirst : Trimmed first) (hlast : Trimmed last)
    (hfirst_ne : first ≠ []) (hlast_ne : last ≠ []) (between : List Char) :
    Trimmed (first ++ between ++ last) := by
  constructor
  · obtain ⟨c, first, rfl⟩ := List.exists_cons_of_ne_nil hfirst_ne
    exact stops_cons (hfirst.head c rfl) _
  · obtain ⟨c, tail, hback⟩ := List.exists_cons_of_ne_nil (mt List.reverse_eq_nil_iff.mp hlast_ne)
    have hc := hlast.last c (by rw [hback]; rfl)
    rw [List.reverse_append, hback]
    exact stops_cons hc _

theorem infix_of_mem_words_go {w word cs : List Char} (h : w ∈ words.go word cs) :
    w <:+: word.reverse ++ cs := by
  induction cs generalizing word with
  | nil =>
    rw [words.go] at h
    split at h
    · cases h
    · cases List.mem_singleton.mp h
      exact (List.prefix_append _ _).isInfix
  | cons c cs ih =>
    rw [words.go] at h
    split at h
    · have hlater (h : w ∈ words.go [] cs) : w <:+: word.reverse ++ c :: cs := by
        rw [List.append_cons]
        exact (ih h).trans (List.suffix_append _ _).isInfix
      split at h
      · exact hlater h
      · rcases List.mem_cons.mp h with rfl | h
        · exact (List.prefix_append _ _).isInfix
        · exact hlater h
    · rw [List.append_cons, ← List.reverse_cons]
      exact ih h

theorem infix_of_mem_words {w cs : List Char} (h : w ∈ words cs) : w <:+: cs :=
  infix_of_mem_words_go h

theorem isBlank_of_isLineEnd {c : Char} (h : isLineEnd c = true) : isBlank c = true := by
  have hends : ['\n', '\r', '\x0b', '\x0c', '\x1c', '\x1d', '\x1e', '\u0085', '\u2028',
      '\u2029'].all isBlank = true := by decide
  exact List.all_eq_true.mp hends c (of_decide_eq_true h)

end Text
end Concordance
