import Concordance.Tokenizer.Basic

/-! What is cut at one place of a text. Where a character stands that a token can hold, some such
characters are taken, at least that one, and the blank that closes the text is never reached. -/

namespace Concordance.Tokenizer

/-- A character that a token can hold: no space, and no bracket that opens markup. -/
def solid (markup : Bool) (c : Char) : Bool := !isSpace c && !(markup && c == '<')

/-- Some characters are taken from the front of a body that a blank closes, and what follows them is
closed by the same blank. -/
structure Takes (markup : Bool) (body run left : List Char) : Prop where
  body_eq : body = run ++ left
  run_solid : ∀ c ∈ run, solid markup c = true

section
variable {markup : Bool} {c : Char} {rest : List Char}

theorem solid_of_isPunctuation (h : isPunctuation c = true) : solid markup c = true := by
  have hspace : isSpace c = false := by
    rw [Bool.eq_false_iff]
    intro hspace
    rw [not_isPunctuation_of_isSpace hspace] at h
    cases h
  have hbracket : c ≠ '<' := by
    rintro rfl
    exact absurd h (by decide)
  simp [Tokenizer.solid, hspace, hbracket]

theorem solid_of_not_breaksWord (h : breaksWord markup c = false) : solid markup c = true := by
  simp only [breaksWord, Bool.or_eq_false_iff] at h
  simp [Tokenizer.solid, h.1.1, h.2]

theorem Takes.cons {run left : List Char} (hc : solid markup c = true)
    (h : Takes markup rest run left) : Takes markup (c :: rest) (c :: run) left :=
  ⟨by rw [h.body_eq, List.cons_append], List.forall_mem_cons.mpr ⟨hc, h.run_solid⟩⟩

theorem Takes.none : Takes markup rest [] rest := ⟨rfl, by simp⟩

theorem punctuationRun_closed (markup : Bool) (body : List Char) : ∃ run left,
    punctuationRun (body ++ [' ']) = some (run, left ++ [' ']) ∧ Takes markup body run left := by
  induction body with
  | nil => exact ⟨[], [], by decide, .none⟩
  | cons c rest ih =>
    obtain ⟨run, left, hrun, htakes⟩ := ih
    rw [List.cons_append, punctuationRun]
    cases hc : isPunctuation c with
    | true =>
      refine ⟨c :: run, left, ?_, htakes.cons (solid_of_isPunctuation hc)⟩
      rw [if_pos rfl, hrun, Option.map_some]
    | false => exact ⟨[], c :: rest, by rw [if_neg Bool.false_ne_true]; rfl, .none⟩

theorem encliticFrom_closed (word body : List Char) :
    ∃ answer, encliticFrom word (body ++ [' ']) = some answer := by
  induction body generalizing word with
  | nil =>
    have hletter : isLetter ' ' = false := not_isLetter_of_isSpace isSpace_blank
    rw [List.nil_append, encliticFrom, hletter]
    by_cases hword : isWord ' ' = true <;> simp [hword, isApostrophe]
  | cons c rest ih =>
    rw [List.cons_append, encliticFrom]
    split
    · exact ih _
    split
    · exact ⟨_, rfl⟩
    split
    · exact ih _
    split <;> exact ⟨_, rfl⟩

theorem euphonicT_closed (body : List Char) (h : euphonicT.isPrefixOf (body ++ [' ']) = true) :
    ∃ left, body = euphonicT ++ left := by
  match body with
  | [] => exact absurd h (by decide)
  | [a] =>
    simp [euphonicT, List.isPrefixOf] at h
  | [a, b] =>
    simp [euphonicT, List.isPrefixOf] at h
  | a :: b :: c :: left =>
    simp only [euphonicT, List.cons_append, List.isPrefixOf, Bool.and_true, Bool.and_eq_true,
      beq_iff_eq] at h
    obtain ⟨rfl, rfl, rfl⟩ := h
    exact ⟨left, rfl⟩

section Word
variable {before : List Char}

theorem wordRun_elision (h : (isApostrophe c && isElision before) = true) :
    wordRun markup before (c :: rest) = some ([c], rest) := by
  rw [wordRun.eq_def]
  simp only [h, if_true]

theorem wordRun_enclitic (h : encliticAfter rest = some true) :
    wordRun markup before ('-' :: rest) =
      if !before.isEmpty then some ([], '-' :: rest)
      else if euphonicT.isPrefixOf ('-' :: rest) then some (euphonicT, rest.drop 2)
      else some (['-'], rest) := by
  have helision : (isApostrophe '-' && isElision before) = false := rfl
  rw [wordRun.eq_def]
  simp only [helision, h, beq_self_eq_true, if_true, Bool.false_eq_true, if_false]

theorem wordRun_inside {d : Char} (h : (isApostrophe c && isElision before) = false)
    (hhyphen : c = '-' → encliticAfter (d :: rest) = some false) :
    wordRun markup before (c :: d :: rest) =
      if breaksWord markup d then some ([c], d :: rest)
      else (wordRun markup (c :: before) (d :: rest)).map fun (run, rest) => (c :: run, rest) := by
  have hanswer : (if c == '-' then encliticAfter (d :: rest) else some false) = some false := by
    split
    · exact hhyphen (beq_iff_eq.mp (by assumption))
    · rfl
  rw [wordRun.eq_def]
  simp only [h, hanswer, Bool.false_eq_true, if_false]

theorem wordRun_enclitic_closed (h : encliticAfter (rest ++ [' ']) = some true) : ∃ run left,
    wordRun markup before ('-' :: (rest ++ [' '])) = some (run, left ++ [' ']) ∧
      Takes markup ('-' :: rest) run left ∧ (before = [] → run ≠ []) := by
  have hhyphen : solid markup '-' = true := by cases markup <;> decide
  rw [wordRun_enclitic h]
  split
  · exact ⟨[], '-' :: rest, rfl, .none, by simp_all⟩
  split
  · rename_i heuphonic
    obtain ⟨left, hleft⟩ := euphonicT_closed ('-' :: rest) heuphonic
    obtain rfl : rest = 't' :: '-' :: left := (List.cons.inj hleft).2
    have ht : solid markup 't' = true := by cases markup <;> decide
    exact ⟨euphonicT, left, rfl, ((Takes.none.cons hhyphen).cons ht).cons hhyphen,
      by simp [euphonicT]⟩
  · exact ⟨['-'], rest, rfl, Takes.none.cons hhyphen, by simp⟩

theorem wordRun_here (before rest : List Char) (hc : solid markup c = true) :
    (∃ run left, wordRun markup before (c :: (rest ++ [' '])) = some (run, left ++ [' ']) ∧
      Takes markup (c :: rest) run left ∧ (before = [] → run ≠ [])) ∨
    (isApostrophe c && isElision before) = false ∧
      (c = '-' → encliticAfter (rest ++ [' ']) = some false) := by
  cases helision : isApostrophe c && isElision before with
  | true => exact .inl ⟨[c], rest, wordRun_elision helision, Takes.none.cons hc, by simp⟩
  | false =>
    obtain ⟨answer, hanswer⟩ := encliticFrom_closed [] rest
    cases answer with
    | false => exact .inr ⟨rfl, fun _ => hanswer⟩
    | true =>
      by_cases hhyphen : c = '-'
      · subst hhyphen
        exact .inl (wordRun_enclitic_closed hanswer)
      · exact .inr ⟨rfl, fun h => absurd h hhyphen⟩

/-- A word is cut from solid characters. It is not empty, unless a hyphen before an enclitic ends
the characters read before it. -/
theorem wordRun_closed (before rest : List Char) (hc : solid markup c = true) : ∃ run left,
    wordRun markup before (c :: (rest ++ [' '])) = some (run, left ++ [' ']) ∧
      Takes markup (c :: rest) run left ∧ (before = [] → run ≠ []) := by
  induction rest generalizing before c with
  | nil =>
    rcases wordRun_here before [] hc with hends | ⟨helision, hhyphen⟩
    · exact hends
    · have hblank : breaksWord markup ' ' = true := by cases markup <;> decide
      rw [List.nil_append] at hhyphen ⊢
      rw [wordRun_inside helision hhyphen, if_pos hblank]
      exact ⟨[c], [], rfl, Takes.none.cons hc, by simp⟩
  | cons d rest ih =>
    rcases wordRun_here before (d :: rest) hc with hends | ⟨helision, hhyphen⟩
    · exact hends
    · rw [List.cons_append] at hhyphen ⊢
      rw [wordRun_inside helision hhyphen]
      split
      · exact ⟨[c], d :: rest, rfl, Takes.none.cons hc, by simp⟩
      · rename_i hgoes
        obtain ⟨run, left, hrun, htakes, -⟩ :=
          ih (c :: before) (solid_of_not_breaksWord (Bool.eq_false_iff.mpr hgoes))
        exact ⟨c :: run, left, by rw [hrun, Option.map_some], htakes.cons hc, by simp⟩

end Word

theorem cut_closed (rest : List Char) (hc : solid markup c = true) : ∃ run left,
    cut markup (c :: (rest ++ [' '])) = some (run, left ++ [' ']) ∧
      Takes markup (c :: rest) run left ∧ run ≠ [] := by
  rw [cut]
  cases hpunctuation : isPunctuation c with
  | false =>
    obtain ⟨run, left, hrun, htakes, hne⟩ := wordRun_closed [] rest hc
    exact ⟨run, left, by rw [if_neg Bool.false_ne_true, hrun], htakes, hne rfl⟩
  | true =>
    obtain ⟨run, left, hrun, htakes⟩ := punctuationRun_closed markup rest
    refine ⟨c :: run, left, ?_, htakes.cons hc, List.cons_ne_nil _ _⟩
    rw [if_pos rfl, punctuationRun, if_pos hpunctuation, hrun, Option.map_some]

end
end Concordance.Tokenizer
