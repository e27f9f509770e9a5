import Concordance.Proofs.Tokenizer.Scanning

/-! What the tokenizer has read does not change with the text behind it. Each reading step answers
only once it has seen the character that decides, so that it answers the same when more characters
follow. -/

namespace Concordance.Tokenizer

section
variable {markup : Bool} {c : Char} {body rest run left : List Char}

theorem punctuationRun_append (h : punctuationRun body = some (run, left)) (tail : List Char) :
    punctuationRun (body ++ tail) = some (run, left ++ tail) := by
  induction body generalizing run with
  | nil => cases h
  | cons c rest ih =>
    rw [punctuationRun] at h
    rw [List.cons_append, punctuationRun]
    cases hc : isPunctuation c with
    | true =>
      rw [hc, if_pos rfl] at h
      obtain ⟨⟨run', left'⟩, hrun, heq⟩ := Option.map_eq_some_iff.mp h
      cases heq
      rw [if_pos rfl, ih hrun, Option.map_some]
    | false =>
      rw [hc, if_neg Bool.false_ne_true] at h
      cases h
      rw [if_neg Bool.false_ne_true, List.cons_append]

theorem encliticFrom_append {word : List Char} {answer : Bool}
    (h : encliticFrom word body = some answer) (tail : List Char) :
    encliticFrom word (body ++ tail) = some answer := by
  induction body generalizing word with
  | nil => cases h
  | cons c rest ih =>
    rw [encliticFrom] at h
    rw [List.cons_append, encliticFrom]
    by_cases hletter : isLetter c = true
    · rw [if_pos hletter] at h ⊢
      exact ih h
    rw [if_neg hletter] at h ⊢
    by_cases hapostrophe : isApostrophe c = true
    · rw [if_pos hapostrophe] at h ⊢
      exact h
    rw [if_neg hapostrophe] at h ⊢
    by_cases heuphonic : (word == ['t'] && c == '-') = true
    · rw [if_pos heuphonic] at h ⊢
      exact ih h
    · rw [if_neg heuphonic] at h ⊢
      exact h

theorem two_of_encliticAfter (h : encliticAfter rest = some true) :
    ∃ c d more, rest = c :: d :: more := by
  match rest with
  | [] => cases h
  | [c] =>
    rw [encliticAfter, encliticFrom] at h
    split at h
    · cases h
    split at h
    · exact absurd h (by decide)
    split at h
    · cases h
    split at h
    · exact absurd h (by decide)
    · exact absurd h (by decide)
  | c :: d :: more => exact ⟨c, d, more, rfl⟩

theorem wordRun_read {before : List Char} (helision : (isApostrophe c && isElision before) = false)
    (h : wordRun markup before (c :: rest) = some (run, left)) :
    (c = '-' ∧ encliticAfter rest = some true) ∨
      ∃ d more, rest = d :: more ∧ (c = '-' → encliticAfter (d :: more) = some false) := by
  rw [wordRun.eq_def] at h
  simp only [helision, Bool.false_eq_true, if_false] at h
  by_cases hhyphen : c = '-'
  · subst hhyphen
    simp only [beq_self_eq_true, if_true] at h
    cases hanswer : encliticAfter rest with
    | none => simp [hanswer] at h
    | some answer =>
      cases answer with
      | true => exact .inl ⟨rfl, rfl⟩
      | false =>
        cases rest with
        | nil => cases hanswer
        | cons d more => exact .inr ⟨d, more, rfl, fun _ => hanswer⟩
  · cases rest with
    | nil => simp [hhyphen] at h
    | cons d more => exact .inr ⟨d, more, rfl, fun heq => absurd heq hhyphen⟩

theorem wordRun_append {before : List Char} (h : wordRun markup before body = some (run, left))
    (tail : List Char) : wordRun markup before (body ++ tail) = some (run, left ++ tail) := by
  induction body generalizing before run with
  | nil => cases h
  | cons c rest ih =>
    rw [List.cons_append]
    cases helision : isApostrophe c && isElision before with
    | true =>
      rw [wordRun_elision helision] at h ⊢
      cases h
      rfl
    | false =>
      rcases wordRun_read helision h with ⟨rfl, hanswer⟩ | ⟨d, more, rfl, hhyphen⟩
      · obtain ⟨d, e, more, rfl⟩ := two_of_encliticAfter hanswer
        have heuphonic : euphonicT.isPrefixOf ('-' :: (d :: e :: more ++ tail)) =
            euphonicT.isPrefixOf ('-' :: d :: e :: more) := by
          simp [euphonicT, List.isPrefixOf]
        rw [wordRun_enclitic hanswer] at h
        rw [wordRun_enclitic (encliticFrom_append hanswer tail), heuphonic]
        by_cases hbefore : (!before.isEmpty) = true
        · rw [if_pos hbefore] at h ⊢
          cases h
          rfl
        rw [if_neg hbefore] at h ⊢
        by_cases ht : euphonicT.isPrefixOf ('-' :: d :: e :: more) = true
        · rw [if_pos ht] at h ⊢
          cases h
          rfl
        · rw [if_neg ht] at h ⊢
          cases h
          rfl
      · have hhyphen' : c = '-' → encliticAfter (d :: (more ++ tail)) = some false :=
          fun heq => encliticFrom_append (hhyphen heq) tail
        rw [wordRun_inside helision hhyphen] at h
        rw [List.cons_append, wordRun_inside helision hhyphen']
        by_cases hbreaks : breaksWord markup d = true
        · rw [if_pos hbreaks] at h ⊢
          cases h
          rfl
        · rw [if_neg hbreaks] at h ⊢
          obtain ⟨⟨run', left'⟩, hrun, heq⟩ := Option.map_eq_some_iff.mp h
          cases heq
          rw [← List.cons_append, ih hrun, Option.map_some]

/-- A token that has been cut is the same whatever follows. -/
theorem cut_append (h : cut markup body = some (run, left)) (tail : List Char) :
    cut markup (body ++ tail) = some (run, left ++ tail) := by
  cases body with
  | nil => cases h
  | cons c rest =>
    rw [cut] at h
    rw [List.cons_append, cut, ← List.cons_append]
    by_cases hpunctuation : isPunctuation c = true
    · rw [if_pos hpunctuation] at h ⊢
      exact punctuationRun_append h tail
    · rw [if_neg hpunctuation] at h ⊢
      exact wordRun_append h tail

end
end Concordance.Tokenizer
