import Mathlib.Order.Bounds.Basic
import Concordance.Proofs.Text.Lowering
import Concordance.Proofs.Tokenizer.Enclitic

/-! The tokens of a text in lowercase. Characters keep their class, so that only the vocabularies can
tell the two texts apart: a word in capitals is no elision and no enclitic, while its lowercase may
be one. Main statement: where the lowercase of a text elides no word and detaches no enclitic that
the text itself does not, its tokens are those of the text in lowercase. -/

namespace Concordance.Tokenizer

open Text

/-- Lowercase, character by character, detaches no enclitic and elides no word that the text does
not. -/
structure CasedAlike (text : List Char) : Prop where
  enclitic {place : Nat} : EncliticAt (text.map small) place → EncliticAt text place
  elided {start place : Nat} : ElidedAt ((text.map small).drop start) place →
    ElidedAt (text.drop start) place

section Characters
variable {c mark : Char}

@[simp] theorem isSpace_small (c : Char) : isSpace (small c) = isSpace c := by
  rw [isSpace, isSpace, (class_small c).1]

@[simp] theorem isLetter_small (c : Char) : isLetter (small c) = isLetter c := by
  rw [isLetter, isLetter, (class_small c).1]

theorem class_of_mem_wordPunctuation (h : c ∈ wordPunctuation) :
    CharClass.of c = .punctuation := by
  have hall : (wordPunctuation.all fun c => CharClass.of c == .punctuation) = true := by
    decide +kernel
  exact beq_iff_eq.mp (List.all_eq_true.mp hall c h)

theorem small_eq_iff (h : mark ∈ wordPunctuation) : small c = mark ↔ c = mark := by
  obtain ⟨hclass, hsame | hother⟩ := class_small c
  · rw [hsame]
  · have hpunctuation := class_of_mem_wordPunctuation h
    constructor
    · rintro rfl
      exact absurd (hclass.symm.trans hpunctuation) hother
    · rintro rfl
      exact absurd hpunctuation hother

theorem small_of_mem_wordPunctuation (h : mark ∈ wordPunctuation) : small mark = mark :=
  (small_eq_iff h).mpr rfl

theorem hyphen_mem_wordPunctuation : '-' ∈ wordPunctuation := by decide

theorem small_hyphen : small '-' = '-' := small_of_mem_wordPunctuation hyphen_mem_wordPunctuation

theorem small_apostrophe : small '\x27' = '\x27' := small_of_mem_wordPunctuation (by decide)

@[simp] theorem contains_wordPunctuation_small (c : Char) :
    wordPunctuation.contains (small c) = wordPunctuation.contains c := by
  rw [Bool.eq_iff_iff, List.contains_iff_mem, List.contains_iff_mem]
  constructor
  · intro h
    rwa [← (small_eq_iff h).mp rfl] at h
  · intro h
    rwa [small_of_mem_wordPunctuation h]

@[simp] theorem isPunctuation_small (c : Char) : isPunctuation (small c) = isPunctuation c := by
  rw [isPunctuation, isPunctuation, contains_wordPunctuation_small, (class_small c).1]

@[simp] theorem isWord_small (c : Char) : isWord (small c) = isWord c := by
  rw [isWord, isWord, contains_wordPunctuation_small, (class_small c).1]

@[simp] theorem isApostrophe_small (c : Char) : isApostrophe (small c) = isApostrophe c := by
  rw [Bool.eq_iff_iff, isApostrophe_iff, isApostrophe_iff, small_eq_iff (by decide),
    small_eq_iff (by decide)]

@[simp] theorem breaksWord_small (c : Char) : breaksWord false (small c) = breaksWord false c := by
  rw [breaksWord, breaksWord, isSpace_small, isPunctuation_small]
  rfl

@[simp] theorem solid_small (c : Char) : solid false (small c) = solid false c := by
  rw [solid, solid, isSpace_small]
  rfl

end Characters

section Vocabularies
variable {text body run : List Char} {place : Nat}

theorem map_small_mem_enclitics : ∀ word ∈ enclitics, word.map small ∈ enclitics := by
  decide +kernel

theorem map_small_mem_elisions : ∀ word ∈ elisions, word.map small ∈ elisions := by
  decide +kernel

theorem formed_map_small (run : List Char) : formed (run.map small) = (formed run).map small := by
  simp only [formed, List.map_map]
  refine List.map_congr_left fun c _ => ?_
  simp only [Function.comp_apply, small_eq_iff (show '’' ∈ wordPunctuation by decide)]
  split
  · exact small_apostrophe.symm
  · rfl

theorem encliticFrom_small {word : List Char} (h : encliticFrom word body = some true) :
    encliticFrom (word.map small) (body.map small) = some true := by
  induction body generalizing word with
  | nil => cases h
  | cons c rest ih =>
    rw [List.map_cons, encliticFrom_cons_iff, isLetter_small]
    rcases encliticFrom_cons_iff.mp h with ⟨hletter, h⟩ | hfollows
    · exact .inl ⟨hletter, ih h⟩
    right
    rw [← List.map_reverse]
    cases hfollows with
    | elided hmark hword =>
      refine .elided ((isApostrophe_small c).trans hmark) ?_
      have hmem := map_small_mem_enclitics _ hword
      rwa [List.map_append, List.map_singleton, small_apostrophe] at hmem
    | euphonic hword hhyphen hafter =>
      rw [hword, hhyphen]
      exact .euphonic (by decide +kernel) small_hyphen (ih hafter)
    | plain hmark hword =>
      exact .plain ((isWord_small c).trans hmark) (map_small_mem_enclitics _ hword)

theorem EncliticAt.small (h : EncliticAt text place) : EncliticAt (text.map small) place := by
  obtain ⟨hhyphen, hafter⟩ := h
  have hblank : Text.small ' ' = ' ' := by decide +kernel
  refine ⟨by rw [List.getElem?_map, hhyphen, Option.map_some, small_hyphen], ?_⟩
  have hafter' := encliticFrom_small hafter
  rwa [List.map_append, List.map_drop, List.map_singleton, hblank] at hafter'

theorem ElidedAt.small (h : ElidedAt text place) : ElidedAt (text.map small) place := by
  obtain ⟨word, hword, mark, hmark, htake⟩ := h
  refine ⟨_, map_small_mem_elisions word hword, Text.small mark, ?_, ?_⟩
  · rwa [isApostrophe_small]
  · rw [← List.map_take, htake, List.map_append, List.map_singleton]

theorem CasedAlike.encliticAt_iff (h : CasedAlike text) :
    EncliticAt (text.map small) place ↔ EncliticAt text place :=
  ⟨h.enclitic, EncliticAt.small⟩

theorem casedAlike_of_plain (h : ∀ c ∈ text, c ≠ '-' ∧ isApostrophe c = false) :
    CasedAlike text := by
  constructor
  · rintro place ⟨hhyphen, -⟩
    obtain ⟨c, hc, hsmall⟩ := List.mem_map.mp (List.mem_of_getElem? hhyphen)
    exact absurd ((small_eq_iff hyphen_mem_wordPunctuation).mp hsmall) (h c hc).1
  · rintro start place ⟨word, -, mark, hmark, htake⟩
    have hmem : mark ∈ ((text.map small).drop start).take place := by
      rw [htake]
      exact List.mem_append_right _ List.mem_cons_self
    obtain ⟨c, hc, rfl⟩ := List.mem_map.mp (List.mem_of_mem_drop (List.mem_of_mem_take hmem))
    rw [isApostrophe_small, (h c hc).2] at hmark
    cases hmark

end Vocabularies

section Cuts
variable {text body run again : List Char} {place n : Nat}

theorem encliticAt_drop : EncliticAt (text.drop place) n ↔ EncliticAt text (place + n) := by
  rw [EncliticAt, EncliticAt, List.getElem?_drop, List.drop_drop, Nat.add_assoc]

theorem CasedAlike.boundary_iff (h : CasedAlike text) :
    Boundary false ((text.drop place).map small) n ↔ Boundary false (text.drop place) n := by
  constructor
  · intro hboundary
    generalize hbody : (text.drop place).map small = body at hboundary
    cases hboundary with
    | bound =>
      rw [← hbody, List.length_map]
      exact .bound
    | @breaks _ c hget hbreaks =>
      rw [← hbody, List.getElem?_map] at hget
      obtain ⟨d, hd, rfl⟩ := Option.map_eq_some_iff.mp hget
      exact .breaks hd ((breaksWord_small d).symm.trans hbreaks)
    | elision helided =>
      rw [← hbody, List.map_drop] at helided
      exact .elision (h.elided helided)
    | enclitic henclitic =>
      rw [← hbody, List.map_drop, encliticAt_drop, h.encliticAt_iff] at henclitic
      exact .enclitic (encliticAt_drop.mpr henclitic)
  · intro hboundary
    generalize hbody : text.drop place = body at hboundary
    cases hboundary with
    | bound =>
      have hbound : Boundary false (body.map small) (body.map small).length := .bound
      rwa [List.length_map] at hbound
    | @breaks _ c hget hbreaks =>
      have hget' : (body.map small)[n]? = some (small c) := by
        rw [List.getElem?_map, hget, Option.map_some]
      exact .breaks hget' ((breaksWord_small c).trans hbreaks)
    | elision helided => exact .elision helided.small
    | enclitic henclitic => exact .enclitic henclitic.small

theorem punctuated_small (body : List Char) : punctuated (body.map small) = punctuated body := by
  cases body with
  | nil => rfl
  | cons c rest => exact isPunctuation_small c

theorem map_small_euphonicT : euphonicT.map small = euphonicT ∧ ['-'].map small = ['-'] := by
  decide +kernel

/-- A capital T between hyphens is no euphonic t, and so no enclitic follows the first hyphen. -/
theorem euphonicT_prefix_small_iff (h : EncliticAt body 0) :
    euphonicT <+: body.map small ↔ euphonicT <+: body := by
  constructor
  · obtain ⟨rest, rfl, hafter⟩ := encliticAt_zero h
    rintro ⟨tail, htail⟩
    obtain ⟨c, more, rfl, hc, hmore⟩ := List.map_eq_cons_iff.mp (List.cons.inj htail).2.symm
    obtain ⟨d, left, rfl, hd, -⟩ := List.map_eq_cons_iff.mp hmore
    obtain rfl := (small_eq_iff hyphen_mem_wordPunctuation).mp hd
    have hletter : isLetter c = true := by
      rw [← isLetter_small, hc]
      decide
    obtain rfl : c = 't' := by
      rcases encliticFrom_cons_iff.mp hafter with ⟨-, hafter⟩ | hfollows
      · rcases encliticFrom_cons_iff.mp hafter with ⟨hletter, -⟩ | hfollows
        · exact absurd hletter (by decide)
        · cases hfollows with
          | elided hmark _ => exact absurd hmark (by decide)
          | euphonic hword _ _ => exact List.singleton_inj.mp hword
          | plain hmark _ => exact absurd hmark (by decide)
      · exact absurd (hfollows.not_isLetter.symm.trans hletter) (by decide)
    exact List.prefix_append euphonicT left
  · intro hfront
    exact map_small_euphonicT.1 ▸ hfront.map small

theorem CasedAlike.encliticAt_drop_iff (h : CasedAlike text) :
    EncliticAt ((text.drop place).map small) 0 ↔ EncliticAt (text.drop place) 0 := by
  rw [List.map_drop, encliticAt_drop, encliticAt_drop, h.encliticAt_iff]

theorem CasedAlike.eq_of_cutAt (h : CasedAlike text) (hrun : CutAt false text place run)
    (hagain : CutAt false (text.map small) place again) : again = run.map small := by
  have htoken := hrun.token
  have htoken' := hagain.token
  rw [← List.map_drop] at htoken'
  have hhead := punctuated_small (text.drop place)
  cases hpunctuated : punctuated (text.drop place) with
  | true =>
    rw [htoken'.punctuation (hhead.trans hpunctuated), htoken.punctuation hpunctuated,
      List.takeWhile_map]
    exact congrArg _ (congrArg (List.takeWhile · _) (funext isPunctuation_small))
  | false =>
    by_cases hdetached : EncliticAt (text.drop place) 0
    · rw [htoken'.detached hdetached.small, htoken.detached hdetached]
      simp only [euphonicT_prefix_small_iff hdetached]
      split
      · exact map_small_euphonicT.1.symm
      · exact map_small_euphonicT.2.symm
    · have hleast := htoken.word hpunctuated hdetached
      have hleast' := htoken'.word (hhead.trans hpunctuated)
        (mt h.encliticAt_drop_iff.mp hdetached)
      simp only [h.boundary_iff] at hleast'
      rw [List.prefix_iff_eq_take.mp htoken'.front, hleast'.unique hleast, ← List.map_take,
        ← List.prefix_iff_eq_take.mp htoken.front]

end Cuts

section Steps
variable {text chars : List Char} {place : Nat} {os : List Occurrence}

theorem silent_iff : Silent false false chars ↔ ∀ c ∈ chars, solid false c = false := by
  induction chars with
  | nil => simp [Silent, significance]
  | cons c rest ih =>
    have hhead : significance false false (c :: rest) =
        solid false c :: significance false false rest := by
      rw [significance, solid]
      simp
    rw [Silent, hhead, List.forall_mem_cons, List.forall_mem_cons]
    exact and_congr_right fun _ => ih

theorem silent_small (h : Silent false false chars) : Silent false false (chars.map small) := by
  rw [silent_iff] at h ⊢
  rw [List.forall_mem_map]
  exact fun c hc => (solid_small c).trans (h c hc)

theorem CasedAlike.next_standing (h : CasedAlike text) (hplace : place ≤ text.length) :
    ((standing false text place).next.1 = none ∧
      (standing false (text.map small) place).next.1 = none) ∨
    ∃ start run, start + run.length ≤ text.length ∧
      (standing false text place).next =
        (some (.untagged (String.ofList run) start), standing false text (start + run.length)) ∧
      (standing false (text.map small) place).next =
        (some (.untagged (String.ofList (run.map small)) start),
          standing false (text.map small) (start + run.length)) := by
  have hplace' : place ≤ (text.map small).length := by rwa [List.length_map]
  rcases (ahead_standing false hplace).reads with ⟨hsilent, hnone⟩ |
    ⟨passed, c, rest, _, _, hbody, -, hpassed, houtside, hc, -⟩
  · refine .inl ⟨hnone, ?_⟩
    rcases (ahead_standing false hplace').reads with ⟨-, hnone'⟩ |
      ⟨passed, c, rest, _, _, hbody, -, -, -, hc, -⟩
    · exact hnone'
    · have hall := silent_iff.mp (silent_small hsilent) c
        (by rw [List.map_drop, hbody]; exact List.mem_append_right _ List.mem_cons_self)
      cases hall.symm.trans hc
  · have hdrop : text.drop (place + passed.length) = c :: rest := drop_add_left hbody
    have hdrop' : (text.map small).drop (place + passed.length) =
        small c :: rest.map small := by rw [← List.map_drop, hdrop, List.map_cons]
    obtain ⟨run, hrun⟩ := cutAt_of_solid hdrop hc
    obtain ⟨again, hagain⟩ := cutAt_of_solid hdrop' ((solid_small c).trans hc)
    obtain rfl := h.eq_of_cutAt hrun hagain
    have hbody' : (text.map small).drop place = passed.map small ++
        (text.map small).drop (place + (passed.map small).length) := by
      rw [List.length_map, hdrop', ← List.map_drop, hbody, List.map_append, List.map_cons]
    have hnext' := next_standing_behind (silent_small hpassed) (insideAfter_without_markup _) hbody'
      (by rwa [List.length_map])
    rw [List.length_map, List.length_map] at hnext'
    exact .inr ⟨_, run, hrun.add_length_le,
      next_standing_behind hpassed houtside (hdrop ▸ hbody) hrun, hnext'⟩

theorem CasedAlike.yields (h : CasedAlike text) (hyields : Yields (standing false text place) os)
    (hplace : place ≤ text.length) : ∃ others, Yields (standing false (text.map small) place) others ∧
      others.map (fun o => o.orth.toList) = os.map fun o => o.orth.toList.map small := by
  induction os generalizing place with
  | nil =>
    refine ⟨[], ?_, rfl⟩
    cases hyields with
    | done hnext =>
      rcases h.next_standing hplace with ⟨-, hnone⟩ | ⟨start, run, -, hnext', -⟩
      · exact .done (Prod.ext hnone rfl)
      · rw [hnext] at hnext'
        cases hnext'
  | cons o os ih =>
    cases hyields with
    | cut hnext hrest =>
      rcases h.next_standing hplace with ⟨hnone, -⟩ | ⟨start, run, hle, hnext', hsmall⟩
      · rw [hnext] at hnone
        cases hnone
      · rw [hnext] at hnext'
        cases hnext'
        obtain ⟨others, hothers, hforms⟩ := ih hrest hle
        refine ⟨_, .cut hsmall hothers, ?_⟩
        rw [List.map_cons, List.map_cons, hforms, toList_orth_untagged, toList_orth_untagged,
          formed_map_small]

end Steps
end Concordance.Tokenizer
