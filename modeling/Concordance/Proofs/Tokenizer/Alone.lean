import Mathlib.Data.List.TakeWhile
import Concordance.Proofs.Tokenizer.Enclitic

/-! A token cut once more, from a text that holds nothing else. What stood behind it may have kept a
hyphen in it: the letters behind the hyphen went on with a hyphen of their own, and now they end and
are an enclitic. Main statement: the form of a token is one token again, unless it ends in a hyphen
and an enclitic. -/

namespace Concordance.Tokenizer

/-- All that stands behind a hyphen is an enclitic. -/
def EndsInEnclitic (run : List Char) : Prop := ∃ word ∈ enclitics, '-' :: word <:+ run

instance (run : List Char) : Decidable (EndsInEnclitic run) :=
  inferInstanceAs (Decidable (∃ word ∈ enclitics, _))

section
variable {markup : Bool} {text run rest first second : List Char} {c : Char} {place : Nat}

theorem EndsInEnclitic.mono (h : EndsInEnclitic first) (hsuffix : first <:+ second) :
    EndsInEnclitic second := by
  obtain ⟨word, hword, hend⟩ := h
  exact ⟨word, hword, hend.trans hsuffix⟩

theorem formed_cons (c : Char) (rest : List Char) :
    formed (c :: rest) = (if c = '’' then '\x27' else c) :: formed rest := rfl

@[simp] theorem length_formed (run : List Char) : (formed run).length = run.length :=
  List.length_map _

theorem formed_eq_self (h : '’' ∉ run) : formed run = run := by
  refine (List.map_congr_left fun c hc => if_neg ?_).trans (List.map_id run)
  rintro rfl
  exact h hc

theorem not_mem_formed (run : List Char) : '’' ∉ formed run := by
  intro hmem
  obtain ⟨c, -, hc⟩ := List.mem_map.mp hmem
  split at hc
  · exact absurd hc (by decide)
  · contradiction

theorem formed_formed (run : List Char) : formed (formed run) = formed run :=
  formed_eq_self (not_mem_formed run)

theorem solid_formed (h : ∀ c ∈ run, solid markup c = true) :
    ∀ c ∈ formed run, solid markup c = true := by
  intro c hc
  obtain ⟨d, hd, rfl⟩ := List.mem_map.mp hc
  split
  · cases markup <;> decide
  · exact h d hd

theorem getElem?_formed (h : (formed run)[place]? = some c) :
    run[place]? = some c ∨ isApostrophe c = true := by
  rw [formed, List.getElem?_map] at h
  obtain ⟨d, hd, hc⟩ := Option.map_eq_some_iff.mp h
  split at hc
  · subst hc
    exact .inr rfl
  · subst hc
    exact .inl hd

theorem encliticFrom_blank (word : List Char) :
    encliticFrom word [' '] = some (enclitics.contains word.reverse) := by
  have hletter : isLetter ' ' = false := by decide
  have happly : isApostrophe ' ' = false := by decide
  have hword : isWord ' ' = false := by decide
  have hblank : (word == ['t'] && ' ' == '-') = false := Bool.and_false _
  rw [encliticFrom, hletter, happly, hblank, hword]
  rfl

theorem encliticFrom_formed {word : List Char}
    (h : encliticFrom word (formed run ++ [' ']) = some true) :
    (∀ rest, encliticFrom word (run ++ rest) = some true) ∨
      word.reverse ++ formed run ∈ enclitics ∨ EndsInEnclitic (formed run) := by
  induction run generalizing word with
  | nil =>
    have hword := (encliticFrom_blank word).symm.trans h
    rw [Option.some.injEq, List.contains_iff_mem] at hword
    exact .inr (.inl (by rwa [formed, List.map_nil, List.append_nil]))
  | cons c run ih =>
    by_cases hapostrophe : c = '’'
    · subst hapostrophe
      exact .inl fun rest => h
    rw [formed_cons, if_neg hapostrophe] at h ⊢
    rw [List.cons_append, encliticFrom_cons_iff] at h
    simp only [List.cons_append, encliticFrom_cons_iff]
    have hend : formed run <:+ c :: formed run := List.suffix_cons _ _
    rcases h with ⟨hletter, h⟩ | hfollows
    · rw [List.append_cons, ← List.reverse_cons]
      exact (ih h).imp (fun hseen rest => .inl ⟨hletter, hseen rest⟩) (Or.imp_right (·.mono hend))
    cases hfollows with
    | elided hmark hword => exact .inl fun _ => .inr (.elided hmark hword)
    | plain hmark hword => exact .inl fun _ => .inr (.plain hmark hword)
    | euphonic hword hhyphen hafter =>
      -- Behind the euphonic t, an enclitic follows in turn.
      subst hhyphen
      rcases ih hafter with hseen | hall | hends
      · exact .inl fun rest => .inr (.euphonic hword rfl (hseen rest))
      · exact .inr (.inr ⟨_, hall, List.suffix_rfl⟩)
      · exact .inr (.inr (hends.mono hend))

theorem encliticAt_formed (h : EncliticAt (formed run) place) (rest : List Char) :
    EncliticAt (run ++ rest) place ∨ EndsInEnclitic (formed run) := by
  obtain ⟨hhyphen, hafter⟩ := h
  have hget : run[place]? = some '-' := (getElem?_formed hhyphen).resolve_right (by decide)
  obtain ⟨hlt, -⟩ := List.getElem?_eq_some_iff.mp hget
  have hdrop : (formed run).drop (place + 1) = formed (run.drop (place + 1)) := List.map_drop.symm
  have hfrom : (formed run).drop place = '-' :: formed (run.drop (place + 1)) := by
    obtain ⟨hlt, hget⟩ := List.getElem?_eq_some_iff.mp hhyphen
    rw [List.drop_eq_getElem_cons hlt, hget, hdrop]
  rw [hdrop] at hafter
  rcases encliticFrom_formed hafter with hseen | hword | hends
  · refine .inl ⟨by rw [List.getElem?_append_left hlt, hget], ?_⟩
    rw [List.drop_append_of_le_length hlt, List.append_assoc]
    exact hseen _
  · exact .inr ⟨_, hword, hfrom ▸ List.drop_suffix _ _⟩
  · exact .inr (hends.mono (hdrop ▸ List.drop_suffix _ _))

theorem elidedAt_formed (h : ElidedAt (formed run) place) (hplace : place ≤ run.length)
    (rest : List Char) : ElidedAt (run ++ rest) place := by
  obtain ⟨word, hword, mark, hmark, htake⟩ := h
  have hplain : ∀ word ∈ elisions, '\x27' ∉ word := by decide
  rw [formed, ← List.map_take] at htake
  obtain ⟨first, last, hsplit, hfirst, hlast⟩ := List.map_eq_append_iff.mp htake
  obtain ⟨d, rfl, hd⟩ := List.map_eq_singleton_iff.mp hlast
  have hsame : first = word := by
    rw [← hfirst]
    refine (formed_eq_self fun hmem => hplain word hword ?_).symm
    rw [← hfirst]
    exact List.mem_map.mpr ⟨_, hmem, if_pos rfl⟩
  refine ⟨word, hword, d, ?_, ?_⟩
  · split at hd
    · subst d
      rfl
    · rwa [hd]
  · rw [List.take_append_of_le_length hplace, hsplit, hsame]

theorem boundary_formed (h : Boundary markup (formed run) place) (hplace : place < run.length)
    (rest : List Char) : Boundary markup (run ++ rest) place ∨ EndsInEnclitic (formed run) := by
  generalize hplace' : place = place' at h
  cases h with
  | bound =>
    rw [length_formed] at hplace'
    exact absurd hplace' (Nat.ne_of_lt hplace)
  | breaks hget hbreaks =>
    subst hplace'
    rcases getElem?_formed hget with hget | hapostrophe
    · exact .inl (.breaks (by rw [List.getElem?_append_left hplace, hget]) hbreaks)
    · rw [breaksWord_of_isApostrophe hapostrophe] at hbreaks
      cases hbreaks
  | elision helided =>
    subst hplace'
    exact .inl (.elision (elidedAt_formed helided (Nat.le_of_lt hplace) rest))
  | enclitic henclitic =>
    subst hplace'
    exact (encliticAt_formed henclitic rest).imp_left .enclitic

theorem punctuated_formed (h : run ≠ []) (rest : List Char) :
    punctuated (formed run) = punctuated (run ++ rest) := by
  obtain ⟨c, run, rfl⟩ := List.exists_cons_of_ne_nil h
  have hapostrophe : isPunctuation '\x27' = isPunctuation '’' := by decide
  rw [formed_cons, List.cons_append, punctuated, punctuated]
  split
  · subst c
    exact hapostrophe
  · rfl

theorem not_endsInEnclitic (h : CutAt markup run 0 run) : ¬EndsInEnclitic run := by
  rintro ⟨word, hword, before, rfl⟩
  have hafter : ∀ word ∈ enclitics, encliticAfter (word ++ [' ']) = some true := by decide
  have hdetached : ¬EndsInEnclitic euphonicT ∧ ¬EndsInEnclitic ['-'] := by decide
  have htoken := h.token
  rw [List.drop_zero] at htoken
  have henclitic : EncliticAt (before ++ '-' :: word) before.length := by
    have hdrop : (before ++ '-' :: word).drop (before.length + 1) = word := by
      rw [List.drop_append]
      simp
    exact ⟨by simp, (congrArg (fun rest => encliticAfter (rest ++ [' '])) hdrop).trans
      (hafter word hword)⟩
  have hword' : punctuated (before ++ '-' :: word) = false := by
    rw [Bool.eq_false_iff]
    intro hpunctuated
    have hmem : '-' ∈ (before ++ '-' :: word).takeWhile isPunctuation :=
      htoken.punctuation hpunctuated ▸ List.mem_append_right _ List.mem_cons_self
    exact absurd (List.mem_takeWhile_imp hmem) (by decide)
  have hends : EndsInEnclitic (before ++ '-' :: word) := ⟨word, hword, before, rfl⟩
  have hnot : ¬EncliticAt (before ++ '-' :: word) 0 := by
    intro hhead
    have hrun := htoken.detached hhead
    split at hrun
    · exact hdetached.1 (hrun ▸ hends)
    · exact hdetached.2 (hrun ▸ hends)
  have hpos : 0 < before.length := by
    rw [Nat.pos_iff_ne_zero]
    intro hzero
    exact hnot (hzero ▸ henclitic)
  have hle := (htoken.word hword' hnot).2 ⟨hpos, .enclitic henclitic⟩
  rw [List.length_append, List.length_cons] at hle
  omega

theorem CutAt.exists_formed (h : CutAt markup text place run) :
    ∃ again, CutAt markup (formed run) 0 again := by
  have hsolid := solid_formed h.run_solid
  obtain ⟨c, rest, hform⟩ : ∃ c rest, formed run = c :: rest :=
    List.exists_cons_of_ne_nil (mt List.map_eq_nil_iff.mp h.ne_nil)
  exact cutAt_of_solid (List.drop_zero.trans hform) (hsolid c (hform ▸ List.mem_cons_self))

theorem CutAt.eq_of_length (h : CutAt markup text 0 run) (hlength : run.length = text.length) :
    run = text :=
  List.IsPrefix.eq_of_length ⟨_, h.drop_eq.symm⟩ hlength

theorem CutAt.whole_formed {again : List Char} (h : CutAt markup text place run)
    (hagain : CutAt markup (formed run) 0 again) (hends : ¬EndsInEnclitic (formed run)) :
    again = formed run := by
  have htoken := h.token
  have htoken' := hagain.token
  rw [h.drop_eq] at htoken
  rw [List.drop_zero] at htoken'
  generalize text.drop (place + run.length) = rest at htoken
  have hhead := punctuated_formed h.ne_nil rest
  cases hpunctuated : punctuated (run ++ rest) with
  | true =>
    have hall : ∀ c ∈ run, isPunctuation c = true := by
      rw [htoken.punctuation hpunctuated]
      exact fun c hc => List.mem_takeWhile_imp hc
    have hsame : formed run = run :=
      formed_eq_self fun hmem => absurd (hall _ hmem) (by decide)
    rw [htoken'.punctuation (hhead.trans hpunctuated), hsame]
    exact List.takeWhile_eq_self_iff.mpr hall
  | false =>
    by_cases hdetached : EncliticAt (run ++ rest) 0
    · have hcut : ∀ run ∈ [euphonicT, ['-']],
          formed run = run ∧ cut markup (run ++ [' ']) = some (run, [' ']) := by
        cases markup <;> decide
      have hrun := htoken.detached hdetached
      have hmem : run ∈ [euphonicT, ['-']] := by
        split at hrun <;> simp [hrun]
      obtain ⟨hsame, hcut⟩ := hcut run hmem
      have hcut' := hagain.cut_eq
      rw [List.drop_zero, hsame, hcut] at hcut'
      rw [hsame]
      exact (Prod.mk.inj (Option.some.inj hcut')).1.symm
    · -- A boundary inside the form would be one inside the token.
      have hdetached' : ¬EncliticAt (formed run) 0 := fun henclitic =>
        (encliticAt_formed henclitic rest).elim hdetached hends
      have hleast := htoken.word hpunctuated hdetached
      have hleast' := htoken'.word (hhead.trans hpunctuated) hdetached'
      have hlength : run.length ≤ again.length := by
        by_contra hlt
        rcases boundary_formed hleast'.1.2 (Nat.lt_of_not_le hlt) rest with hboundary | hends'
        · exact hlt (hleast.2 ⟨hleast'.1.1, hboundary⟩)
        · exact hends hends'
      refine htoken'.front.eq_of_length (Nat.le_antisymm htoken'.front.length_le ?_)
      rwa [length_formed]

/-- The form of a token is one token again exactly if it does not end in an enclitic. -/
theorem CutAt.alone_iff (h : CutAt markup text place run) :
    CutAt markup (formed run) 0 (formed run) ↔ ¬EndsInEnclitic (formed run) := by
  refine ⟨not_endsInEnclitic, fun hends => ?_⟩
  obtain ⟨again, hagain⟩ := h.exists_formed
  exact h.whole_formed hagain hends ▸ hagain

end
end Concordance.Tokenizer
