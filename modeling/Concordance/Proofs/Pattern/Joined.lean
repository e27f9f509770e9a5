import Concordance.Proofs.Pattern.Refusals
import Concordance.Proofs.Pattern.Rewriting

/-! The lexemes of texts that are joined. A text is read apart from what stands behind it if a lexeme
begins there, or if its own lexemes are closed and no word goes on there; and a text that stands
farther back is read as the same lexemes farther back. -/

namespace Concordance.Pattern

namespace Lexeme

def moved (place : Nat → Nat) (lexeme : Lexeme) : Lexeme := ⟨lexeme.text, place lexeme.position⟩

section
variable {position inside : Nat} {lexeme : Lexeme} {first closing : Char} {front rest : List Char}

@[simp] theorem text_moved (lexeme : Lexeme) (place : Nat → Nat) :
    (lexeme.moved place).text = lexeme.text := rfl

@[simp] theorem isMark_moved (lexeme : Lexeme) (place : Nat → Nat) :
    (lexeme.moved place).isMark = lexeme.isMark := rfl

theorem scan_add (n position inside : Nat) (cs : List Char) :
    scan (position + n) inside cs = (scan position inside cs).map (moved (· + n)) := by
  induction cs generalizing position inside with
  | nil => rfl
  | cons c cs ih =>
    have hnext : position + n + 1 = position + 1 + n := Nat.add_right_comm position n 1
    cases inside with
    | succ inside => rw [scan, scan, hnext, ih]
    | zero =>
      rw [scan, scan, hnext]
      split
      · exact ih _ _
      · rw [List.map_cons, ← ih]
        rfl

theorem bounds_of_mem_scan {cs : List Char} (h : lexeme ∈ scan position inside cs) :
    position + inside ≤ lexeme.position ∧ lexeme.position < position + cs.length := by
  induction cs generalizing position inside with
  | nil => cases h
  | cons c cs ih =>
    rw [List.length_cons]
    cases inside with
    | succ inside =>
      have hbounds := ih h
      omega
    | zero =>
      rw [scan] at h
      split at h
      · have hbounds := ih h
        omega
      · rcases List.mem_cons.mp h with rfl | h
        · exact ⟨Nat.le_refl _, Nat.lt_add_of_pos_right (Nat.succ_pos _)⟩
        · have hbounds := ih h
          omega

theorem upTo_append_of_le (h : (upTo closing (front ++ rest)).length ≤ front.length) :
    upTo closing (front ++ rest) = upTo closing front := by
  induction front with
  | nil => exact List.eq_nil_of_length_eq_zero (Nat.le_zero.mp h)
  | cons c front ih =>
    rw [List.cons_append, upTo] at h ⊢
    rw [upTo]
    split
    · rfl
    · rename_i hc
      rw [if_neg hc, List.length_cons, List.length_cons] at h
      rw [ih (Nat.le_of_succ_le_succ h)]

theorem upTo_append_of_mem (h : closing ∈ front) (rest : List Char) :
    upTo closing (front ++ rest) = upTo closing front := by
  obtain ⟨body, tail, rfl, hbody⟩ := List.eq_append_cons_of_mem h
  rw [List.append_assoc, List.cons_append, upTo_append hbody, upTo_append hbody]

theorem takeWhile_append_of_le
    (h : ((front ++ rest).takeWhile isWordChar).length ≤ front.length) :
    (front ++ rest).takeWhile isWordChar = front.takeWhile isWordChar := by
  rw [List.takeWhile_append] at h ⊢
  split at h
  · rename_i hall
    rw [if_pos hall]
    rw [List.length_append] at h
    have hrest : rest.takeWhile isWordChar = [] := List.eq_nil_of_length_eq_zero (by omega)
    rw [hrest, List.append_nil, (List.takeWhile_prefix _).eq_of_length hall]
  · rename_i hsome
    rw [if_neg hsome]

theorem takeWhile_append_closes (hrest : Closes rest) :
    (front ++ rest).takeWhile isWordChar = front.takeWhile isWordChar := by
  have hnone : rest.takeWhile isWordChar = [] := by
    cases rest with
    | nil => rfl
    | cons c rest => rw [List.takeWhile_cons, hrest c rfl, if_neg Bool.false_ne_true]
  rw [List.takeWhile_append]
  split
  · rename_i hall
    rw [hnone, List.append_nil, (List.takeWhile_prefix _).eq_of_length hall]
  · rfl

theorem starting_append_of_le (h : (starting first (front ++ rest)).length ≤ front.length + 1) :
    starting first (front ++ rest) = starting first front := by
  unfold starting at h ⊢
  split
  · rename_i hquote
    rw [if_pos hquote] at h
    rw [upTo_append_of_le (Nat.le_of_succ_le_succ h)]
  rename_i hquote
  split
  · rename_i hbracket
    rw [if_neg hquote, if_pos hbracket] at h
    rw [upTo_append_of_le (Nat.le_of_succ_le_succ h)]
  rename_i hbracket
  split
  · rename_i hword
    rw [if_neg hquote, if_neg hbracket, if_pos hword] at h
    rw [takeWhile_append_of_le (Nat.le_of_succ_le_succ h)]
  · rfl

theorem starting_append_closes (hrest : Closes rest) (hquote : first = '\x22' → '\x22' ∈ front)
    (hbracket : first = '[' → ']' ∈ front) :
    starting first (front ++ rest) = starting first front := by
  unfold starting
  split
  · rename_i hfirst
    rw [upTo_append_of_mem (hquote hfirst)]
  split
  · rename_i hfirst
    rw [upTo_append_of_mem (hbracket hfirst)]
  split
  · rw [takeWhile_append_closes hrest]
  · rfl

theorem closing_mem_of_whole (h : Whole (starting first front)) :
    (first = '\x22' → '\x22' ∈ front) ∧ (first = '[' → ']' ∈ front) := by
  have hmem {closing : Char} {body : List Char} (heq : upTo closing front = body ++ [closing]) :
      closing ∈ front := by
    by_contra hnone
    rw [upTo_of_not_mem hnone] at heq
    exact hnone (heq ▸ List.mem_append_right _ (List.mem_singleton.mpr rfl))
  constructor
  · rintro rfl
    rw [starting, if_pos rfl] at h
    generalize hbody : upTo '\x22' front = chars at h
    cases h with
    | quoted => exact hmem hbody
    | word _ hword => exact absurd (hword _ List.mem_cons_self) (by decide)
  · rintro rfl
    rw [starting, if_neg (by decide), if_pos rfl] at h
    generalize hbody : upTo ']' front = chars at h
    cases h with
    | listed => exact hmem hbody
    | word hne _ => exact absurd rfl hne

theorem ne_of_isMark (h : isMark ⟨String.ofList (starting first front), position⟩ = true) :
    first ≠ '\x22' ∧ first ≠ '[' := by
  obtain ⟨chars, hchars⟩ := head_starting first front
  rw [hchars] at h
  constructor <;> rintro rfl <;> simp [isMark, ← String.toList_inj] at h

theorem scan_append_of_mem (h : lexeme ∈ scan position inside (front ++ rest))
    (hplace : lexeme.position = position + front.length) :
    scan position inside (front ++ rest) =
      scan position inside front ++ scan (position + front.length) 0 rest := by
  induction front generalizing position inside with
  | nil =>
    have hinside := (bounds_of_mem_scan h).1
    rw [hplace, List.length_nil, Nat.add_le_add_iff_left, Nat.le_zero] at hinside
    subst hinside
    rfl
  | cons c front ih =>
    rw [List.length_cons, Nat.add_comm front.length, ← Nat.add_assoc] at hplace ⊢
    cases inside with
    | succ inside => exact ih h hplace
    | zero =>
      rw [List.cons_append, scan] at h ⊢
      rw [scan]
      split at h
      · rename_i hblank
        rw [if_pos hblank, if_pos hblank]
        exact ih h hplace
      · rename_i hblank
        rw [if_neg hblank, if_neg hblank]
        rcases List.mem_cons.mp h with rfl | h
        · dsimp only at hplace
          omega
        -- The first lexeme has ended where the later one begins, so it is not longer than the front.
        · have hended := (bounds_of_mem_scan h).1
          have hstarting : starting c (front ++ rest) = starting c front :=
            starting_append_of_le (by omega)
          rw [hstarting] at h ⊢
          dsimp only
          rw [ih h hplace]
          rfl

theorem scan_sorted (position inside : Nat) (cs : List Char) :
    (scan position inside cs).Pairwise fun first second => first.position < second.position := by
  induction cs generalizing position inside with
  | nil => exact .nil
  | cons c cs ih =>
    cases inside with
    | succ inside => exact ih _ _
    | zero =>
      rw [scan]
      split
      · exact ih _ _
      · refine List.pairwise_cons.mpr ⟨fun later hlater => ?_, ih _ _⟩
        exact Nat.le_trans (Nat.le_add_right _ _) (bounds_of_mem_scan hlater).1

theorem eq_of_mem_scan {cs : List Char} {other : Lexeme} (h : lexeme ∈ scan position inside cs)
    (h' : other ∈ scan position inside cs) (hsame : lexeme.position = other.position) :
    lexeme = other := by
  have hapart : ((scan position inside cs).map Lexeme.position).Nodup :=
    List.pairwise_map.mpr ((scan_sorted position inside cs).imp Nat.ne_of_lt)
  exact List.inj_on_of_nodup_map hapart h h' hsame

theorem scan_split {text : List Char} {place : Nat} (hne : text ≠ [])
    (h : ⟨String.ofList text, place⟩ ∈ scan position 0 (front ++ (text ++ rest)))
    (hplace : place = position + front.length) :
    scan position 0 (front ++ (text ++ rest)) = scan position 0 front ++
      ⟨String.ofList text, place⟩ :: scan (place + text.length) 0 rest := by
  have hsplit := scan_append_of_mem h hplace
  rw [hsplit, ← hplace] at h ⊢
  obtain ⟨c, chars, rfl⟩ := List.exists_cons_of_ne_nil hne
  have hlater {inside : Nat} {cs : List Char} :
      ⟨String.ofList (c :: chars), place⟩ ∉ scan (place + 1) inside cs := fun h => by
    have hbounds := (bounds_of_mem_scan h).1
    dsimp only at hbounds
    omega
  rcases List.mem_append.mp h with h | h
  · have hbounds := (bounds_of_mem_scan h).2
    dsimp only at hbounds
    omega
  · rw [List.cons_append] at h ⊢
    cases hblank : Text.isBlank c with
    | true =>
      rw [scan, hblank, if_pos rfl] at h
      exact absurd h hlater
    | false =>
      rw [scan, hblank, if_neg Bool.false_ne_true] at h
      rcases List.mem_cons.mp h with heq | h
      · rw [Lexeme.mk.injEq, String.ofList_inj] at heq
        rw [scan_starting hblank heq.1.symm]
      · exact absurd h hlater

/-- Lexemes that are whole stay so before a text in which no word goes on. -/
theorem scan_append_closes (hrest : Closes rest)
    (h : ∀ lexeme ∈ scan position inside front,
      lexeme.isMark = false → Whole lexeme.text.toList) (hinside : inside ≤ front.length) :
    scan position inside (front ++ rest) =
      scan position inside front ++ scan (position + front.length) 0 rest := by
  induction front generalizing position inside with
  | nil =>
    cases Nat.le_zero.mp hinside
    rfl
  | cons c front ih =>
    rw [List.length_cons, Nat.add_comm front.length, ← Nat.add_assoc] at *
    cases inside with
    | succ inside => exact ih h (by omega)
    | zero =>
      rw [scan] at h
      rw [List.cons_append, scan, scan]
      split
      · rename_i hblank
        rw [if_pos hblank] at h
        exact ih h (Nat.zero_le _)
      · rename_i hblank
        rw [if_neg hblank] at h
        rw [List.forall_mem_cons] at h
        -- A word goes on into no text that closes, and what ends a quote or a list is in the front.
        have hstarting : starting c (front ++ rest) = starting c front := by
          cases hmark : isMark ⟨String.ofList (starting c front), position⟩ with
          | true =>
            obtain ⟨hquote, hbracket⟩ := ne_of_isMark hmark
            exact starting_append_closes hrest (absurd · hquote) (absurd · hbracket)
          | false =>
            have hwhole := h.1 hmark
            rw [String.toList_ofList] at hwhole
            obtain ⟨hquote, hbracket⟩ := closing_mem_of_whole hwhole
            exact starting_append_closes hrest hquote hbracket
        have hlength := (prefix_starting c front).length_le
        rw [List.length_cons] at hlength
        rw [hstarting]
        dsimp only
        rw [ih h.2 (by omega)]
        rfl

end

end Lexeme

open Lexeme

section
variable {lexicon : Option Lexicon} {position : Nat} {cs : List Char} {lexemes : List Lexeme}

theorem written_scan (h : Meaningful lexicon (scan position 0 cs)) :
    Written lexicon position cs (scan position 0 cs) := by
  refine ⟨fun rest hrest => scan_append_closes hrest (fun lexeme hmem hterm => ?_) (Nat.zero_le _),
    h⟩
  obtain ⟨c, hc⟩ := h lexeme hmem hterm
  exact whole_of_term hmem hterm hc

/-- What stands behind a closing parenthesis is read apart, even if a word goes on there. -/
theorem scan_parenthesized (h : Written lexicon (position + 1) cs lexemes) (rest : List Char) :
    scan position 0 ('(' :: (cs ++ ')' :: rest)) =
      ⟨"(", position⟩ :: (lexemes ++ ⟨")", position + 1 + cs.length⟩ ::
        scan (position + (cs.length + 2)) 0 rest) := by
  have hcloses : Closes (')' :: rest) := closes_cons (by decide) [] rest
  have hnext : position + 1 + cs.length + 1 = position + (cs.length + 2) := by omega
  rw [scan_mark (by decide), h.scan_eq _ hcloses, scan_mark (by decide), hnext]

theorem Written.parenthesized (h : Written lexicon (position + 1) cs lexemes) :
    Written lexicon position ('(' :: (cs ++ [')']))
      (⟨"(", position⟩ :: (lexemes ++ [⟨")", position + 1 + cs.length⟩])) := by
  have hclosing : isWordChar ')' = false := by decide
  exact .mark (by decide)
    (h.append (.mark (by decide) .nil) fun rest _ => closes_cons hclosing [] rest)

theorem Written.all_eq {text : String} (h : Written lexicon 0 text.toList lexemes) :
    Lexeme.all text = lexemes := by
  have hscan := h.scan_eq [] nofun
  rwa [List.append_nil, Lexeme.scan, List.append_nil] at hscan

theorem Meaningful.moved (h : Meaningful lexicon lexemes) (place : Nat → Nat) :
    Meaningful lexicon (lexemes.map (Lexeme.moved place)) := by
  intro lexeme hmem hterm
  obtain ⟨original, horiginal, rfl⟩ := List.mem_map.mp hmem
  obtain ⟨c, hc⟩ := h original horiginal hterm
  exact ⟨c, term_moved _ _ hc⟩

theorem meaning_moved {lexeme : Lexeme} (h : ∃ c, lexeme.term lexicon = .ok c)
    (place : Nat → Nat) : meaning lexicon (lexeme.moved place) = meaning lexicon lexeme := by
  obtain ⟨c, hc⟩ := h
  have hmoved : (lexeme.moved place).term lexicon = .ok c := term_moved _ _ hc
  rw [meaning, meaning, hmoved, hc]

end

end Concordance.Pattern
