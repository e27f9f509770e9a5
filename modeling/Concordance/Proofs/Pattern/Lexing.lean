import Concordance.Pattern.Lexeme
import Concordance.Proofs.Text.Trimming
import Concordance.Text.Slice

/-! How a pattern is taken apart. A lexeme begins at the first character that is not white space;
that character tells its kind, and the kind tells where it ends. Main statement: the lexemes of a
pattern lie one behind the other, each of exactly one kind, with nothing but white space between
them, and no other lexemes lie like that. -/

namespace Concordance.Pattern.Lexeme

inductive Kind
  | mark
  | quoted
  | listed
  | word
  deriving DecidableEq, Repr

def Parts (c : Char) : Prop := Text.isBlank c = true ∨ c ∈ ['(', ')', ',', '\x22']

/-- A run from an opening character to the next closing one, or, if there is none, to the end. -/
inductive Enclosed (opening closing : Char) : List Char → List Char → Prop
  | closed {body rest : List Char} : closing ∉ body →
      Enclosed opening closing (opening :: (body ++ [closing])) rest
  | unclosed {body : List Char} : closing ∉ body → Enclosed opening closing (opening :: body) []

inductive Kind.Cuts : Kind → List Char → List Char → Prop
  | mark {c : Char} {rest : List Char} : c ∈ ['(', ')', ','] → Kind.Cuts .mark [c] rest
  | quoted {run rest : List Char} : Enclosed '\x22' '\x22' run rest → Kind.Cuts .quoted run rest
  | listed {run rest : List Char} : Enclosed '[' ']' run rest → Kind.Cuts .listed run rest
  /-- A word goes on until a character ends it. -/
  | word {first : Char} {chars rest : List Char} : first ≠ '[' → (∀ c ∈ first :: chars, ¬Parts c) →
      (∀ c ∈ rest.head?, Parts c) → Kind.Cuts .word (first :: chars) rest

structure Covers (text : List Char) (lexemes : List Lexeme) : Prop where
  slices : ∀ lexeme ∈ lexemes, 0 < lexeme.text.length ∧
    lexeme.position + lexeme.text.length ≤ text.length ∧
    lexeme.text.toList =
      Text.slice text lexeme.position ↑(lexeme.position + lexeme.text.length)
  apart : lexemes.Pairwise fun first second => first.position + first.text.length ≤ second.position
  /-- A character that no lexeme holds is white space. -/
  outside : ∀ i c, text[i]? = some c →
    (∀ lexeme ∈ lexemes,
      ¬(lexeme.position ≤ i ∧ i < lexeme.position + lexeme.text.length)) →
    Text.isBlank c = true
  kinds : ∀ lexeme ∈ lexemes, ∃! kind : Kind,
    kind.Cuts lexeme.text.toList (text.drop (lexeme.position + lexeme.text.length))

section
variable {c first : Char} {chars run rest text : List Char} {kind other : Kind} {position : Nat}

theorem isWordChar_eq_false_iff : isWordChar c = false ↔ Parts c := by
  rw [isWordChar, Bool.not_eq_false', Parts]
  simp only [Bool.or_eq_true, beq_iff_eq, List.mem_cons, List.not_mem_nil, or_false, or_assoc]

theorem isWordChar_iff : isWordChar c = true ↔ ¬Parts c := by
  rw [← isWordChar_eq_false_iff, Bool.not_eq_false]

theorem Parts.of_mark (h : c ∈ ['(', ')', ',']) : Parts c :=
  .inr (List.mem_append_left ['\x22'] h)

theorem isBlank_of_isWordChar {c : Char} (h : isWordChar c = true) : Text.isBlank c = false := by
  simp only [isWordChar, Bool.not_eq_true', Bool.or_eq_false_iff] at h
  exact h.1.1.1.1

theorem ne_quote_of_isWordChar {c : Char} (h : isWordChar c = true) : c ≠ '\x22' := by
  rintro rfl
  exact absurd h (by decide)

theorem mark_of_starting {first : Char} (hblank : Text.isBlank first = false)
    (hquote : first ≠ '\x22') (hword : isWordChar first = false) : first ∈ ['(', ')', ','] := by
  simp only [isWordChar, hblank, Bool.not_eq_false', Bool.false_or, Bool.or_eq_true,
    beq_iff_eq] at hword
  rcases hword with ((rfl | rfl) | rfl) | rfl
  · exact List.mem_cons_self
  · exact List.mem_cons_of_mem _ List.mem_cons_self
  · exact List.mem_cons_of_mem _ (List.mem_cons_of_mem _ List.mem_cons_self)
  · exact absurd rfl hquote

theorem upTo_append {closing : Char} {body : List Char} (h : closing ∉ body) (rest : List Char) :
    upTo closing (body ++ closing :: rest) = body ++ [closing] := by
  induction body with
  | nil => rw [List.nil_append, upTo, if_pos rfl, List.nil_append]
  | cons c body ih =>
    simp only [List.mem_cons, not_or] at h
    obtain ⟨hc, hbody⟩ := h
    rw [List.cons_append, upTo, if_neg (Ne.symm hc), ih hbody, List.cons_append]

theorem upTo_of_not_mem {closing : Char} (h : closing ∉ rest) : upTo closing rest = rest := by
  induction rest with
  | nil => rfl
  | cons c rest ih =>
    simp only [List.mem_cons, not_or] at h
    obtain ⟨hc, hrest⟩ := h
    rw [upTo, if_neg (Ne.symm hc), ih hrest]

theorem scan_inside (chars rest : List Char) (position : Nat) :
    scan position chars.length (chars ++ rest) = scan (position + chars.length) 0 rest := by
  induction chars generalizing position with
  | nil => rfl
  | cons c chars ih =>
    rw [List.length_cons, List.cons_append, scan, ih, Nat.add_right_comm, Nat.add_assoc]

theorem scan_starting (hblank : Text.isBlank first = false)
    (hstarting : starting first (chars ++ rest) = first :: chars) :
    scan position 0 (first :: (chars ++ rest)) = ⟨String.ofList (first :: chars), position⟩ ::
      scan (position + (first :: chars).length) 0 rest := by
  rw [scan, hblank, if_neg Bool.false_ne_true]
  simp only [hstarting, List.length_cons, Nat.add_sub_cancel]
  rw [scan_inside, Nat.add_right_comm, Nat.add_assoc]

/-! The first character of a lexeme tells its kind. -/

def Kind.ofFirst (first : Char) : Kind :=
  if first = '\x22' then .quoted
  else if first = '[' then .listed
  else if first ∈ ['(', ')', ','] then .mark
  else .word

theorem Kind.Cuts.eq_ofFirst (h : kind.Cuts (first :: chars) rest) : kind = .ofFirst first := by
  cases h with
  | mark hmark =>
    simp only [List.mem_cons, List.not_mem_nil, or_false] at hmark
    rcases hmark with rfl | rfl | rfl <;> decide
  | quoted h => cases h <;> rfl
  | listed h => cases h <;> rfl
  | word hbracket hword =>
    have hfirst := hword first List.mem_cons_self
    have hquote : first ≠ '\x22' := fun heq => hfirst (.inr (by simp [heq]))
    rw [ofFirst, if_neg hquote, if_neg hbracket, if_neg (mt Parts.of_mark hfirst)]

theorem Kind.Cuts.ne_nil (h : kind.Cuts run rest) : run ≠ [] := by
  rintro rfl
  cases h with
  | quoted h => cases h
  | listed h => cases h

theorem Kind.Cuts.unique (h : kind.Cuts run rest) (h' : other.Cuts run rest) : other = kind := by
  obtain ⟨first, chars, rfl⟩ := List.exists_cons_of_ne_nil h.ne_nil
  rw [h.eq_ofFirst, h'.eq_ofFirst]

/-! What is read at a character is a lexeme of its kind, and each lexeme of a kind is read. -/

theorem upTo_encloses (opening closing : Char) (rest : List Char) : ∃ left,
    rest = upTo closing rest ++ left ∧
      Enclosed opening closing (opening :: upTo closing rest) left := by
  by_cases hmem : closing ∈ rest
  · obtain ⟨body, tail, rfl, hbody⟩ := List.eq_append_cons_of_mem hmem
    refine ⟨tail, ?_, ?_⟩
    · rw [upTo_append hbody, List.append_assoc, List.singleton_append]
    · rw [upTo_append hbody]
      exact .closed hbody
  · rw [upTo_of_not_mem hmem]
    exact ⟨[], (List.append_nil rest).symm, .unclosed hmem⟩

theorem Enclosed.upTo_eq {opening closing : Char}
    (h : Enclosed opening closing (first :: chars) rest) :
    upTo closing (chars ++ rest) = chars := by
  cases h with
  | closed hbody => rw [List.append_assoc, List.singleton_append, upTo_append hbody]
  | unclosed hbody => rw [List.append_nil, upTo_of_not_mem hbody]

theorem starting_cuts (hfirst : Text.isBlank first = false) (rest : List Char) :
    ∃ kind : Kind, ∃ left, first :: rest = starting first rest ++ left ∧
      kind.Cuts (starting first rest) left := by
  rw [starting]
  split
  · rename_i hquote
    subst hquote
    obtain ⟨left, hrest, hrun⟩ := upTo_encloses '\x22' '\x22' rest
    exact ⟨.quoted, left, congrArg _ hrest, .quoted hrun⟩
  rename_i hquote
  split
  · rename_i hbracket
    subst hbracket
    obtain ⟨left, hrest, hrun⟩ := upTo_encloses '[' ']' rest
    exact ⟨.listed, left, congrArg _ hrest, .listed hrun⟩
  rename_i hbracket
  split
  · rename_i hword
    refine ⟨.word, rest.dropWhile isWordChar, ?_, .word hbracket ?_ ?_⟩
    · rw [List.cons_append, List.takeWhile_append_dropWhile]
    · refine List.forall_mem_cons.mpr ⟨isWordChar_iff.mp hword, fun c hc => ?_⟩
      exact isWordChar_iff.mp (List.mem_takeWhile_imp hc)
    · exact fun c hc => isWordChar_eq_false_iff.mp (stops_dropWhile isWordChar rest c hc)
  · rename_i hword
    exact ⟨.mark, rest, rfl,
      .mark (mark_of_starting hfirst hquote (Bool.eq_false_iff.mpr hword))⟩

theorem Kind.Cuts.starting_eq (h : kind.Cuts (first :: chars) rest) :
    Text.isBlank first = false ∧ starting first (chars ++ rest) = first :: chars := by
  cases h with
  | mark hmark =>
    have hword : isWordChar first = false := isWordChar_eq_false_iff.mpr (.of_mark hmark)
    simp only [List.mem_cons, List.not_mem_nil, or_false] at hmark
    rcases hmark with rfl | rfl | rfl <;> exact ⟨by decide, by simp [starting, hword]⟩
  | quoted h =>
    have hrun := h.upTo_eq
    cases h <;> exact ⟨by decide, by rw [starting, if_pos rfl, hrun]⟩
  | listed h =>
    have hrun := h.upTo_eq
    cases h <;> exact ⟨by decide, by rw [starting, if_neg (by decide), if_pos rfl, hrun]⟩
  | word hbracket hword hrest =>
    obtain ⟨hfirst, hchars⟩ := List.forall_mem_cons.mp hword
    rw [← isWordChar_iff] at hfirst
    refine ⟨isBlank_of_isWordChar hfirst, ?_⟩
    rw [starting, if_neg (ne_quote_of_isWordChar hfirst), if_neg hbracket, if_pos hfirst,
      takeWhile_append_stops (fun c hc => isWordChar_iff.mpr (hchars c hc))
        (fun c hc => isWordChar_eq_false_iff.mpr (hrest c hc))]

theorem Kind.Cuts.scan (h : kind.Cuts run rest) (position : Nat) : scan position 0 (run ++ rest) =
    ⟨String.ofList run, position⟩ :: Lexeme.scan (position + run.length) 0 rest := by
  obtain ⟨first, chars, rfl⟩ := List.exists_cons_of_ne_nil h.ne_nil
  obtain ⟨hfirst, hstarting⟩ := h.starting_eq
  exact scan_starting hfirst hstarting

end

inductive Lexed : Nat → List Char → List Lexeme → Prop
  | nil {position : Nat} : Lexed position [] []
  | blank {position : Nat} {c : Char} {rest : List Char} {lexemes : List Lexeme} :
      Text.isBlank c = true → Lexed (position + 1) rest lexemes → Lexed position (c :: rest) lexemes
  | lexeme {position : Nat} {kind : Kind} {run rest : List Char} {lexemes : List Lexeme} :
      kind.Cuts run rest → Lexed (position + run.length) rest lexemes →
      Lexed position (run ++ rest) (⟨String.ofList run, position⟩ :: lexemes)

section
variable {position : Nat} {text chars : List Char} {lexemes : List Lexeme}

theorem lexed_scan (position : Nat) (chars : List Char) :
    Lexed position chars (scan position 0 chars) := by
  -- On the length: behind a lexeme, reading goes on after all its characters.
  induction hsize : chars.length using Nat.strong_induction_on generalizing position chars with
  | _ size ih =>
    cases chars with
    | nil => exact .nil
    | cons c rest =>
      rw [List.length_cons] at hsize
      cases hblank : Text.isBlank c with
      | true =>
        rw [scan, hblank, if_pos rfl]
        exact .blank hblank (ih rest.length (by omega) _ _ rfl)
      | false =>
        obtain ⟨kind, left, hrest, hcuts⟩ := starting_cuts hblank rest
        have hpos := List.length_pos_iff.mpr hcuts.ne_nil
        have hlength := congrArg List.length hrest
        rw [List.length_cons, List.length_append] at hlength
        rw [hrest, hcuts.scan]
        exact .lexeme hcuts (ih left.length (by omega) _ _ rfl)

theorem Lexed.le_position (h : Lexed position chars lexemes) :
    ∀ lexeme ∈ lexemes, position ≤ lexeme.position := by
  induction h with
  | nil => simp
  | blank _ _ ih => exact fun lexeme hmem => Nat.le_of_succ_le (ih lexeme hmem)
  | lexeme _ _ ih =>
    refine List.forall_mem_cons.mpr ⟨Nat.le_refl _, fun lexeme hmem => ?_⟩
    exact Nat.le_of_add_right_le (ih lexeme hmem)

theorem Lexed.apart (h : Lexed position chars lexemes) :
    lexemes.Pairwise fun first second =>
      first.position + first.text.length ≤ second.position := by
  induction h with
  | nil => exact .nil
  | blank _ _ ih => exact ih
  | lexeme _ hrest ih =>
    refine List.pairwise_cons.mpr ⟨fun lexeme hmem => ?_, ih⟩
    rw [String.length_ofList]
    exact hrest.le_position lexeme hmem

theorem Lexed.cuts (h : Lexed position chars lexemes) (hchars : text.drop position = chars) :
    ∀ lexeme ∈ lexemes, ∃ kind : Kind, ∃ rest,
      text.drop lexeme.position = lexeme.text.toList ++ rest ∧
        kind.Cuts lexeme.text.toList rest := by
  induction h with
  | nil => simp
  | blank _ _ ih =>
    refine ih ?_
    rw [← List.drop_drop, hchars]
    rfl
  | @lexeme position kind run rest lexemes hcuts _ ih =>
    have hrest : text.drop (position + run.length) = rest := by
      rw [← List.drop_drop, hchars, List.drop_left]
    refine List.forall_mem_cons.mpr ⟨⟨kind, rest, ?_⟩, ih hrest⟩
    rw [String.toList_ofList]
    exact ⟨hchars, hcuts⟩

theorem Lexed.outside (h : Lexed position chars lexemes) {i : Nat} {c : Char}
    (hget : chars[i]? = some c)
    (hnone : ∀ lexeme ∈ lexemes, ¬(lexeme.position ≤ position + i ∧
      position + i < lexeme.position + lexeme.text.length)) : Text.isBlank c = true := by
  induction h generalizing i with
  | nil => cases hget
  | blank hblank _ ih =>
    cases i with
    | zero =>
      cases hget
      exact hblank
    | succ i =>
      refine ih hget fun lexeme hmem => ?_
      have hout := hnone lexeme hmem
      omega
  | @lexeme position kind run rest lexemes _ _ ih =>
    obtain ⟨hhere, hlater⟩ := List.forall_mem_cons.mp hnone
    rw [String.length_ofList] at hhere
    dsimp only at hhere
    have hbehind : run.length ≤ i := by omega
    rw [List.getElem?_append_right hbehind] at hget
    refine ih hget fun lexeme hmem => ?_
    rw [Nat.add_assoc, Nat.add_sub_cancel' hbehind]
    exact hlater lexeme hmem

theorem covers_of_lexed (h : Lexed 0 text lexemes) : Covers text lexemes := by
  have hcuts := h.cuts (List.drop_zero (l := text))
  have hbehind {lexeme : Lexeme} {rest : List Char}
      (hstands : text.drop lexeme.position = lexeme.text.toList ++ rest) :
      text.drop (lexeme.position + lexeme.text.length) = rest := by
    rw [← List.drop_drop, hstands, ← String.length_toList, List.drop_left]
  refine ⟨fun lexeme hmem => ?_, h.apart, fun i c hget hnone => h.outside hget ?_,
    fun lexeme hmem => ?_⟩
  · obtain ⟨kind, rest, hstands, hkind⟩ := hcuts lexeme hmem
    have hpos := List.length_pos_iff.mpr hkind.ne_nil
    have hlength := congrArg List.length hstands
    rw [String.length_toList] at hpos
    simp only [List.length_drop, List.length_append, String.length_toList] at hlength
    refine ⟨hpos, by omega, ?_⟩
    rw [Text.slice_natCast (Nat.le_add_right _ _) (by omega), hstands, Nat.add_sub_cancel_left,
      ← String.length_toList, List.take_left]
  · simpa using hnone
  · obtain ⟨kind, rest, hstands, hkind⟩ := hcuts lexeme hmem
    rw [hbehind hstands]
    exact ⟨kind, hkind, fun other hother => hkind.unique hother⟩

end

section
variable {text : List Char} {lexemes before after : List Lexeme} {lexeme : Lexeme} {position : Nat}

theorem Covers.drop_position (h : Covers text lexemes) (hmem : lexeme ∈ lexemes) :
    text.drop lexeme.position =
      lexeme.text.toList ++ text.drop (lexeme.position + lexeme.text.length) := by
  obtain ⟨-, hle, hslice⟩ := h.slices lexeme hmem
  rw [hslice, Text.slice_natCast (Nat.le_add_right _ _) hle, Nat.add_sub_cancel_left,
    ← List.drop_drop, List.take_append_drop]

theorem Covers.after_eq_scan (h : Covers text (before ++ after))
    (hbefore : ∀ lexeme ∈ before, lexeme.position + lexeme.text.length ≤ position)
    (hafter : ∀ lexeme ∈ after, position ≤ lexeme.position) :
    after = scan position 0 (text.drop position) := by
  induction hsize : text.length - position using Nat.strong_induction_on
    generalizing position before after with
  | _ size ih =>
    cases hdrop : text.drop position with
    | nil =>
      cases after with
      | nil => rfl
      | cons lexeme later =>
        obtain ⟨hpos, hle, -⟩ := h.slices lexeme (by simp)
        have hhere := hafter lexeme List.mem_cons_self
        have hend := List.drop_eq_nil_iff.mp hdrop
        omega
    | cons c rest =>
      have hget : text[position]? = some c := by rw [← List.head?_drop, hdrop, List.head?_cons]
      have hrest : text.drop (position + 1) = rest := by rw [← List.drop_drop, hdrop]; rfl
      have hlt : position < text.length := (List.getElem?_eq_some_iff.mp hget).1
      -- Where no lexeme begins, none holds the character.
      have hpass (hfree : ∀ lexeme ∈ after, position < lexeme.position) :
          after = scan position 0 (c :: rest) := by
        have hblank : Text.isBlank c = true := by
          refine h.outside position c hget fun lexeme hmem => ?_
          rcases List.mem_append.mp hmem with hmem | hmem
          · have hended := hbefore lexeme hmem
            omega
          · have hlater := hfree lexeme hmem
            omega
        rw [scan, hblank, if_pos rfl, ← hrest]
        exact ih _ (by omega) h (fun other hmem => Nat.le_succ_of_le (hbefore other hmem)) hfree
          rfl
      cases after with
      | nil => exact hpass (by simp)
      | cons lexeme later =>
        obtain ⟨hnext, -⟩ := List.pairwise_cons.mp (List.pairwise_append.mp h.apart).2.1
        rcases Nat.eq_or_lt_of_le (hafter lexeme List.mem_cons_self) with rfl | hfree
        · obtain ⟨hpos, -⟩ := h.slices lexeme (by simp)
          obtain ⟨kind, hcuts, -⟩ := h.kinds lexeme (by simp)
          have hmoved : Covers text ((before ++ [lexeme]) ++ later) := by simpa using h
          have hlater := ih _ (by omega) hmoved
            (List.forall_mem_append.mpr
              ⟨fun other hmem => Nat.le_add_right_of_le (hbefore other hmem),
                List.forall_mem_singleton.mpr (Nat.le_refl _)⟩) hnext rfl
          rw [← hdrop, h.drop_position (by simp), hcuts.scan, String.ofList_toList,
            String.length_toList, ← hlater]
        · refine hpass (List.forall_mem_cons.mpr ⟨hfree, fun other hmem => ?_⟩)
          have hended := hnext other hmem
          omega

end

/-- The lexemes of a pattern are slices of it, one behind the other, and what stands between them is
white space. Each is a mark, or runs from a quote or a bracket to where that is closed or else to
the end, or is a word that goes on as far as it can; it is only one of these. No other lexemes are
all that. -/
theorem lexemes_cover (source : String) : Covers source.toList (all source) ∧
    ∀ lexemes, Covers source.toList lexemes → lexemes = all source := by
  refine ⟨covers_of_lexed (lexed_scan 0 source.toList), fun lexemes h => ?_⟩
  exact @Covers.after_eq_scan source.toList [] lexemes 0 h (by simp) (by simp)

/-- A quote ends the word before it and, where none closes it, takes marks and white space too. -/
example : all "a[b]\x22 (c" = [⟨"a[b]", 0⟩, ⟨"\x22 (c", 4⟩] := by decide

end Concordance.Pattern.Lexeme
