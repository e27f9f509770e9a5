import Concordance.Proofs.Tokenizer.Boundary

/-! What follows a hyphen that is detached. The tokenizer detaches it where it sees an enclitic
ahead; the enclitic is the next token, unless a symbol is glued to it, which neither goes on with a
word nor ends one. Main statement: the next occurrence begins right behind the hyphen, with an
enclitic, and is that enclitic exactly if all its characters are those of words. -/

namespace Concordance.Tokenizer

/-- The letters that are read behind a hyphen with an enclitic, and the character that ends them:
the apostrophe of the enclitic, the second hyphen of the euphonic t, or none of a word. -/
inductive Follows (letters : List Char) (mark : Char) (left : List Char) : Prop
  | elided : isApostrophe mark = true → letters ++ ['\x27'] ∈ enclitics → Follows letters mark left
  | euphonic : letters = ['t'] → mark = '-' → encliticAfter left = some true →
      Follows letters mark left
  | plain : isWord mark = false → letters ∈ enclitics → Follows letters mark left

inductive EncliticRun : List Char → Prop
  | whole {run : List Char} : run ∈ enclitics → EncliticRun run
  | glued {word more : List Char} {symbol : Char} : word ∈ enclitics → isWord symbol = false →
      EncliticRun (word ++ symbol :: more)

section
variable {markup : Bool} {word body letters left before run rest : List Char} {mark : Char}

theorem breaksWord_of_isLetter {c : Char} (h : isLetter c = true) : breaksWord markup c = false := by
  have hbracket : c ≠ '<' := by
    rintro rfl
    exact absurd h (by decide)
  simp [breaksWord, not_isSpace_of_isLetter h, not_isPunctuation_of_isWord (isWord_of_isLetter h),
    hbracket]

theorem isApostrophe_iff {c : Char} : isApostrophe c = true ↔ c = '\x27' ∨ c = '’' := by
  rw [isApostrophe, Bool.or_eq_true, beq_iff_eq, beq_iff_eq]

theorem isApostrophe_of_isLetter {c : Char} (h : isLetter c = true) : isApostrophe c = false := by
  rw [Bool.eq_false_iff, ne_eq, isApostrophe_iff]
  rintro (rfl | rfl) <;> exact absurd h (by decide)

theorem isApostrophe_of_not_isWord {c : Char} (h : isWord c = false) : isApostrophe c = false := by
  rw [Bool.eq_false_iff, ne_eq, isApostrophe_iff]
  rintro (rfl | rfl) <;> exact absurd h (by decide)

theorem Follows.not_isLetter (h : Follows letters mark left) : isLetter mark = false := by
  cases h with
  | elided hmark _ =>
    rw [Bool.eq_false_iff]
    intro hletter
    exact absurd ((isApostrophe_of_isLetter hletter).symm.trans hmark) (by decide)
  | euphonic _ hmark _ =>
    subst hmark
    decide
  | plain hmark _ => exact Bool.eq_false_iff.mpr (mt isWord_of_isLetter (by simp [hmark]))

theorem encliticFrom_cons_iff {c : Char} : encliticFrom word (c :: rest) = some true ↔
    isLetter c = true ∧ encliticFrom (c :: word) rest = some true ∨
      Follows word.reverse c rest := by
  rw [encliticFrom]
  constructor
  · intro h
    split at h
    · exact .inl ⟨‹_›, h⟩
    right
    split at h
    · exact .elided ‹_› (List.contains_iff_mem.mp (Option.some.inj h))
    split at h
    · rename_i heuphonic
      obtain ⟨hword, hc⟩ := Bool.and_eq_true_iff.mp heuphonic
      exact .euphonic (by rw [beq_iff_eq.mp hword]; rfl) (beq_iff_eq.mp hc) h
    split at h
    · cases h
    · exact .plain (Bool.eq_false_iff.mpr ‹_›) (List.contains_iff_mem.mp (Option.some.inj h))
  · rintro (⟨hletter, h⟩ | h)
    · rwa [if_pos hletter]
    rw [if_neg (Bool.eq_false_iff.mp h.not_isLetter)]
    cases h with
    | elided hmark hword => rw [if_pos hmark, List.contains_iff_mem.mpr hword]
    | euphonic hword hmark hafter =>
      obtain rfl := List.reverse_eq_iff.mp hword
      subst hmark
      exact hafter
    | plain hmark hword =>
      have heuphonic : ¬(word == ['t'] && c == '-') = true := by
        rw [Bool.and_eq_true, beq_iff_eq, beq_iff_eq]
        rintro ⟨-, rfl⟩
        exact absurd hmark (by decide)
      rw [if_neg (Bool.eq_false_iff.mp (isApostrophe_of_not_isWord hmark)), if_neg heuphonic,
        if_neg (Bool.eq_false_iff.mp hmark), List.contains_iff_mem.mpr hword]

theorem encliticFrom_eq_true (h : encliticFrom word body = some true) :
    ∃ letters mark left, body = letters ++ mark :: left ∧ (∀ c ∈ letters, isLetter c = true) ∧
      isLetter mark = false ∧ Follows (word.reverse ++ letters) mark left := by
  induction body generalizing word with
  | nil => cases h
  | cons c rest ih =>
    rcases encliticFrom_cons_iff.mp h with ⟨hletter, h⟩ | hfollows
    · obtain ⟨letters, mark, left, rfl, hletters, hmark, hfollows⟩ := ih h
      refine ⟨c :: letters, mark, left, rfl, List.forall_mem_cons.mpr ⟨hletter, hletters⟩, hmark, ?_⟩
      rwa [List.reverse_cons, List.append_assoc, List.singleton_append] at hfollows
    · refine ⟨[], c, rest, rfl, by simp, hfollows.not_isLetter, ?_⟩
      rwa [List.append_nil]

theorem breaksWord_of_isApostrophe {c : Char} (h : isApostrophe c = true) :
    breaksWord markup c = false := by
  rcases isApostrophe_iff.mp h with rfl | rfl <;> cases markup <;> decide

theorem wordRun_letters (hletters : ∀ c ∈ letters, isLetter c = true) (hne : letters ≠ []) :
    wordRun markup before (letters ++ mark :: left) =
      if breaksWord markup mark then some (letters, mark :: left)
      else (wordRun markup (letters.reverse ++ before) (mark :: left)).map fun (run, rest) =>
        (letters ++ run, rest) := by
  induction letters generalizing before with
  | nil => exact absurd rfl hne
  | cons c rest ih =>
    obtain ⟨hc, hrest⟩ := List.forall_mem_cons.mp hletters
    have hgoes : (isApostrophe c && isElision before) = false := by
      rw [isApostrophe_of_isLetter hc, Bool.false_and]
    have hhyphen {after : List Char} : c = '-' → encliticAfter after = some false := by
      rintro rfl
      exact absurd hc (by decide)
    cases rest with
    | nil => exact wordRun_inside hgoes hhyphen
    | cons d more =>
      have hd : isLetter d = true := hrest d List.mem_cons_self
      rw [List.cons_append, List.cons_append, wordRun_inside hgoes hhyphen,
        breaksWord_of_isLetter hd, if_neg Bool.false_ne_true, ← List.cons_append,
        ih hrest (List.cons_ne_nil d more)]
      split
      · rfl
      · simp only [Option.map_map, List.reverse_cons, List.append_assoc, List.singleton_append]
        rfl

theorem wordRun_head {c : Char} (hapostrophe : isApostrophe c = false) (hhyphen : c ≠ '-')
    (h : wordRun markup before (c :: rest) = some (run, left)) : ∃ more, run = c :: more := by
  have helision : (isApostrophe c && isElision before) = false := by
    rw [hapostrophe, Bool.false_and]
  rcases wordRun_read helision h with ⟨rfl, -⟩ | ⟨d, more, rfl, hanswer⟩
  · exact absurd rfl hhyphen
  · rw [wordRun_inside helision hanswer] at h
    split at h
    · cases h
      exact ⟨[], rfl⟩
    · obtain ⟨⟨run', left'⟩, -, heq⟩ := Option.map_eq_some_iff.mp h
      cases heq
      exact ⟨run', rfl⟩

end

/-! The enclitics are words of letters, one of them with an apostrophe behind them. -/

theorem all_isWord_of_mem_enclitics : ∀ word ∈ enclitics, word.all isWord = true := by
  decide +kernel

theorem eq_of_elided_enclitic : ∀ word ∈ enclitics, word.getLast? = some '\x27' →
    word = ['m', '\x27'] := by
  decide +kernel

def formed (run : List Char) : List Char := run.map fun c => if c = '’' then '\x27' else c

theorem toList_orth_untagged (run : List Char) (start : Int) :
    (Occurrence.untagged (String.ofList run) start).orth.toList = formed run := by
  simp [Occurrence.untagged, Occurrence.ofGraph, Occurrence.normalize, formed]

theorem formed_letters {letters : List Char} (h : ∀ c ∈ letters, isLetter c = true) :
    formed letters = letters := by
  refine (List.map_congr_left fun c hc => if_neg ?_).trans (List.map_id letters)
  rintro rfl
  exact absurd (h _ hc) (by decide)

section
variable {markup : Bool} {letters left after run : List Char} {mark : Char}

theorem Follows.ne_nil (h : Follows letters mark left) : letters ≠ [] := by
  rintro rfl
  cases h with
  | elided _ hword => exact absurd hword (by decide +kernel)
  | euphonic hword => cases hword
  | plain _ hword => exact absurd hword (by decide +kernel)

theorem encliticRun_of_cut (hletters : ∀ c ∈ letters, isLetter c = true)
    (h : Follows letters mark left)
    (hcut : cut markup (letters ++ mark :: left) = some (run, after)) :
    EncliticRun (formed run) := by
  have hword : cut markup (letters ++ mark :: left) = wordRun markup [] (letters ++ mark :: left) := by
    obtain ⟨c, rest, rfl⟩ := List.exists_cons_of_ne_nil h.ne_nil
    have hc := not_isPunctuation_of_isWord (isWord_of_isLetter (hletters c List.mem_cons_self))
    rw [List.cons_append, cut, hc, if_neg Bool.false_ne_true]
  rw [hword, wordRun_letters hletters h.ne_nil, List.append_nil] at hcut
  cases h with
  | elided hmark hmem =>
    have heq := eq_of_elided_enclitic _ hmem (by simp)
    obtain rfl : letters = ['m'] := (List.append_inj' heq rfl).1
    have hgoes : breaksWord markup mark = false := breaksWord_of_isApostrophe hmark
    have helision : (isApostrophe mark && isElision ['m'].reverse) = true := by
      rw [hmark]
      decide
    rw [hgoes, if_neg Bool.false_ne_true, wordRun_elision helision] at hcut
    cases hcut
    have hformed : formed ['m', mark] = ['m', '\x27'] := by
      rcases isApostrophe_iff.mp hmark with rfl | rfl <;> decide
    exact hformed ▸ .whole hmem
  | euphonic hletter hmark hnext =>
    subst hletter hmark
    have hgoes : breaksWord markup '-' = false := by cases markup <;> decide
    rw [hgoes, if_neg Bool.false_ne_true, wordRun_enclitic hnext] at hcut
    cases hcut
    exact .whole (by decide)
  | plain hmark hmem =>
    by_cases hbreaks : breaksWord markup mark = true
    · rw [if_pos hbreaks] at hcut
      cases hcut
      rw [formed_letters hletters]
      exact .whole hmem
    · -- The character neither goes on with the word nor ends it, so it is taken with it.
      rw [if_neg hbreaks] at hcut
      obtain ⟨⟨tail, left'⟩, htail, heq⟩ := Option.map_eq_some_iff.mp hcut
      cases heq
      have hhyphen : mark ≠ '-' := by
        rintro rfl
        exact absurd hmark (by decide)
      have hmark' : mark ≠ '’' := by
        rintro rfl
        exact absurd hmark (by decide)
      obtain ⟨more, rfl⟩ := wordRun_head (isApostrophe_of_not_isWord hmark) hhyphen htail
      have hformed : formed (letters ++ mark :: more) = letters ++ mark :: formed more := by
        rw [formed, List.map_append, List.map_cons, if_neg hmark']
        exact congrArg (· ++ _) (formed_letters hletters)
      exact hformed ▸ .glued hmem hmark

theorem EncliticRun.mem_iff (h : EncliticRun run) :
    run ∈ enclitics ↔ ∀ c ∈ run, isWord c = true := by
  constructor
  · exact fun hmem => List.all_eq_true.mp (all_isWord_of_mem_enclitics run hmem)
  · intro hword
    cases h with
    | whole hmem => exact hmem
    | glued _ hsymbol =>
      rw [hword _ (List.mem_append_right _ List.mem_cons_self)] at hsymbol
      cases hsymbol

end

section
variable {markup : Bool} {text run : List Char} {place : Nat}

theorem CutAt.encliticAfter (h : CutAt markup text place run)
    (henclitic : EncliticAt (text.drop place) 0) :
    (run = ['-'] ∨ run = euphonicT) ∧
      encliticAfter (text.drop (place + run.length) ++ [' ']) = some true := by
  have hrun := run_of_encliticAt h.cut_eq henclitic
  obtain ⟨rest, hrest, hafter⟩ := encliticAt_zero henclitic
  have hdrop := h.drop_eq
  rw [hrest] at hdrop
  split at hrun
  · subst hrun
    obtain ⟨rfl⟩ : rest = 't' :: '-' :: text.drop (place + euphonicT.length) :=
      (List.cons.inj hdrop).2
    exact ⟨.inr rfl, hafter⟩
  · subst hrun
    obtain rfl := (List.cons.inj hdrop).2
    exact ⟨.inl rfl, hafter⟩

theorem cutAt_of_encliticAfter (markup : Bool)
    (h : encliticAfter (text.drop place ++ [' ']) = some true) :
    ∃ run, CutAt markup text place run ∧ EncliticRun (formed run) := by
  obtain ⟨letters, mark, left, hbody, hletters, -, hfollows⟩ := encliticFrom_eq_true h
  rw [List.reverse_nil, List.nil_append] at hfollows
  obtain ⟨c, rest, rfl⟩ := List.exists_cons_of_ne_nil hfollows.ne_nil
  cases hdrop : text.drop place with
  | nil =>
    rw [hdrop] at hbody
    simp at hbody
  | cons d more =>
    obtain rfl : d = c := by
      rw [hdrop] at hbody
      exact (List.cons.inj hbody).1
    have hsolid : solid markup d = true :=
      solid_of_not_breaksWord (breaksWord_of_isLetter (hletters d List.mem_cons_self))
    obtain ⟨run, hrun⟩ := cutAt_of_solid hdrop hsolid
    have hcut := hrun.cut_eq
    rw [hbody] at hcut
    exact ⟨run, hrun, encliticRun_of_cut hletters hfollows hcut⟩

end

/-- A hyphen that is detached is a token by itself or with the euphonic t, and right behind it the
next occurrence begins with an enclitic. It is no more than that exactly if all its characters are
those of words. -/
theorem enclitic_behind_hyphen (text : List Char) (start : Int) (stop : Option Int)
    (options : Options) {before after : List Occurrence} {o : Occurrence} {place : Nat}
    (hsplit : (ofText text start stop options).occurrences = before ++ o :: after)
    (hplace : o.start = place)
    (henclitic : EncliticAt (between text place (ofText text start stop options).stop) 0) :
    (o.graph = "-" ∨ o.graph = "-t-") ∧
    ∃ next later, after = next :: later ∧ next.start = o.stop ∧ EncliticRun next.orth.toList ∧
      (next.orth.toList ∈ enclitics ↔ ∀ c ∈ next.orth.toList, isWord c = true) := by
  obtain ⟨first, run, hrun, rfl, hafter⟩ := ofText_split text start stop options hsplit
  obtain rfl : first = place := Int.ofNat.inj hplace
  obtain ⟨hhyphen, hahead⟩ := hrun.encliticAfter henclitic
  obtain ⟨word, hword, hforms⟩ := cutAt_of_encliticAfter options.markup hahead
  rw [← toList_orth_untagged word ((first + run.length : Nat) : Int)] at hforms
  refine ⟨?_, ?_⟩
  · rcases hhyphen with rfl | rfl
    · exact .inl rfl
    · exact .inr rfl
  · cases hafter with
    | done hnext =>
      rw [next_standing_here hword] at hnext
      cases hnext
    | cut hnext hlater =>
      rw [next_standing_here hword] at hnext
      cases hnext
      exact ⟨_, _, rfl, (stop_untagged_ofList run first).symm, hforms, hforms.mem_iff⟩

theorem enclitic_behind_euphonic : ∃ (before after : List Occurrence) (o next : Occurrence)
    (later : List Occurrence),
    (ofText "Qu'y a-t-il ? Dis-m’en.".toList 0 none ⟨true, true⟩).occurrences =
      before ++ o :: after ∧
    o.start = (6 : Nat) ∧
    EncliticAt (between "Qu'y a-t-il ? Dis-m’en.".toList 6 23) 0 ∧ o.graph = "-t-" ∧
    after = next :: later ∧ next.orth = "il" ∧ next.start = o.stop ∧
    EncliticRun next.orth.toList ∧ next.orth.toList ∈ enclitics := by
  have hsplit : (ofText "Qu'y a-t-il ? Dis-m’en.".toList 0 none ⟨true, true⟩).occurrences =
      [.untagged "Qu'" 0, .untagged "y" 3, .untagged "a" 5] ++ .untagged "-t-" 6 ::
        [.untagged "il" 9, .untagged "?" 12, .untagged "Dis" 14, .untagged "-" 17,
          .untagged "m’" 18, .untagged "en" 20, .untagged "." 22] := by
    decide +kernel
  have henclitic : EncliticAt (between "Qu'y a-t-il ? Dis-m’en.".toList 6 23) 0 := by
    decide +kernel
  obtain ⟨-, next, later, hafter, hstart, hrun, hiff⟩ :=
    enclitic_behind_hyphen _ _ _ _ hsplit rfl henclitic
  obtain ⟨rfl, rfl⟩ := List.cons.inj hafter
  exact ⟨_, _, _, _, _, hsplit, rfl, henclitic, rfl, rfl, by decide +kernel, hstart, hrun,
    hiff.mpr (List.all_eq_true.mp (by decide +kernel))⟩

/-- A sign that is no punctuation hides the enclitic: the hyphen before it is detached, and what
follows is no enclitic. -/
theorem enclitic_glued_to_sign : ∃ (before after : List Occurrence) (o next : Occurrence),
    (ofText "dit-il+".toList 0 none ⟨true, true⟩).occurrences = before ++ o :: next :: after ∧
    o.start = (3 : Nat) ∧ EncliticAt (between "dit-il+".toList 3 7) 0 ∧ o.graph = "-" ∧
    next.orth = "il+" ∧ next.orth.toList ∉ enclitics :=
  ⟨[.untagged "dit" 0], [], .untagged "-" 3, .untagged "il+" 4, by decide +kernel, rfl,
    by decide +kernel, rfl, by decide +kernel, by decide +kernel⟩

end Concordance.Tokenizer
