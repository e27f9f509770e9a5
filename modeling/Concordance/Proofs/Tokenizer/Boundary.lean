import Mathlib.Order.Bounds.Defs
import Concordance.Proofs.Tokenizer.Places

/-! Where a token ends. A word ends at the first boundary behind its first character: where the text
ends, a character breaks words, an elision is complete, or a hyphen detaches an enclitic. Main
statement: the tokenizer cuts a word there, punctuation as far as it goes on, and the hyphen before
an enclitic by itself or with the euphonic t. -/

namespace Concordance.Tokenizer

/-- A hyphen stands at a place, and an enclitic behind it; a blank closes the body. -/
def EncliticAt (body : List Char) (place : Nat) : Prop :=
  body[place]? = some '-' ∧ encliticAfter (body.drop (place + 1) ++ [' ']) = some true

/-- What stands before a place is a word that is elided, and its apostrophe. -/
def ElidedAt (body : List Char) (place : Nat) : Prop :=
  ∃ word ∈ elisions, ∃ mark, isApostrophe mark = true ∧ body.take place = word ++ [mark]

inductive Boundary (markup : Bool) (body : List Char) : Nat → Prop
  | bound : Boundary markup body body.length
  | breaks {place : Nat} {c : Char} : body[place]? = some c → breaksWord markup c = true →
      Boundary markup body place
  | elision {place : Nat} : ElidedAt body place → Boundary markup body place
  | enclitic {place : Nat} : EncliticAt body place → Boundary markup body place

def punctuated : List Char → Bool
  | [] => false
  | c :: _ => isPunctuation c

instance (body : List Char) (place : Nat) : Decidable (EncliticAt body place) :=
  inferInstanceAs (Decidable (_ ∧ _))

structure Token (markup : Bool) (body run : List Char) : Prop where
  front : run <+: body
  ne_nil : run ≠ []
  /-- All punctuation that there is in a row is one token. -/
  punctuation : punctuated body = true → run = body.takeWhile isPunctuation
  /-- No other token holds any. -/
  pure : punctuated body = false → ∀ c ∈ run, isPunctuation c = false
  detached : EncliticAt body 0 → run = if euphonicT <+: body then euphonicT else ['-']
  word : punctuated body = false → ¬EncliticAt body 0 →
    IsLeast {n | 0 < n ∧ Boundary markup body n} run.length
  /-- Before a character that breaks no word, a longer word than those that are elided does not end
  at its apostrophe, and neither does any word at a hyphen without an enclitic. -/
  reason : punctuated body = false → ¬EncliticAt body 0 → ∀ c, body[run.length]? = some c →
    breaksWord markup c = false → ElidedAt body run.length ∨ EncliticAt body run.length

section
variable {markup : Bool} {body run left before rest : List Char} {c : Char} {place : Nat}

theorem punctuationRun_eq (h : punctuationRun body = some (run, left)) :
    run = body.takeWhile isPunctuation := by
  induction body generalizing run with
  | nil => cases h
  | cons c rest ih =>
    rw [punctuationRun] at h
    rw [List.takeWhile_cons]
    split at h
    · rename_i hc
      obtain ⟨⟨run', left'⟩, hrun, heq⟩ := Option.map_eq_some_iff.mp h
      cases heq
      rw [if_pos hc, ih hrun]
    · rename_i hc
      cases h
      rw [if_neg hc]

theorem takeWhile_closed (body : List Char) :
    (body ++ [' ']).takeWhile isPunctuation = body.takeWhile isPunctuation := by
  induction body with
  | nil => decide
  | cons c rest ih => rw [List.cons_append, List.takeWhile_cons, List.takeWhile_cons, ih]

theorem encliticAt_length_reverse :
    EncliticAt (before.reverse ++ c :: rest) before.length ↔
      c = '-' ∧ encliticAfter (rest ++ [' ']) = some true := by
  have hdrop : (before.reverse ++ c :: rest).drop (before.length + 1) = rest := by
    rw [List.drop_append]
    simp
  rw [EncliticAt, hdrop, List.getElem?_append_right (by simp)]
  simp

theorem take_length_reverse :
    (before.reverse ++ c :: rest).take (before.length + 1) = before.reverse ++ [c] := by
  rw [List.append_cons, List.take_left' (by simp)]

theorem elidedAt_length_reverse :
    ElidedAt (before.reverse ++ c :: rest) (before.length + 1) ↔
      (isApostrophe c && isElision before) = true := by
  rw [ElidedAt, take_length_reverse, Bool.and_eq_true, isElision_eq, List.contains_iff_mem]
  constructor
  · rintro ⟨word, hword, mark, hmark, heq⟩
    obtain ⟨rfl, hc⟩ := List.append_inj' heq rfl
    obtain rfl := List.singleton_inj.mp hc
    exact ⟨hmark, hword⟩
  · rintro ⟨hmark, hword⟩
    exact ⟨_, hword, c, hmark, rfl⟩

theorem not_boundary {d : Char} {more : List Char}
    (helision : (isApostrophe c && isElision before) = false) (hd : breaksWord markup d = false)
    (hnext : ¬EncliticAt (before.reverse ++ c :: d :: more) (before.length + 1)) :
    ¬Boundary markup (before.reverse ++ c :: d :: more) (before.length + 1) := by
  intro hboundary
  generalize hplace : before.length + 1 = place at hboundary
  cases hboundary with
  | bound =>
    simp only [List.length_append, List.length_reverse, List.length_cons] at hplace
    omega
  | breaks hget hbreaks =>
    subst hplace
    rw [List.getElem?_append_right (by simp)] at hget
    simp only [List.length_reverse, Nat.add_sub_cancel_left, List.getElem?_cons_succ,
      List.getElem?_cons_zero, Option.some.injEq] at hget
    rw [hget, hbreaks] at hd
    cases hd
  | elision helided =>
    subst hplace
    rw [elidedAt_length_reverse.mp helided] at helision
    cases helision
  | enclitic henclitic => exact hnext (hplace ▸ henclitic)

theorem wordRun_step (hnot : ¬EncliticAt (before.reverse ++ c :: rest) before.length)
    (h : wordRun markup before (c :: (rest ++ [' '])) = some (run, left)) :
    (run = [c] ∧ Boundary markup (before.reverse ++ c :: rest) (before.length + 1)) ∨
    ∃ d more run', rest = d :: more ∧ run = c :: run' ∧
      ¬Boundary markup (before.reverse ++ c :: rest) (before.length + 1) ∧
      wordRun markup (c :: before) (d :: (more ++ [' '])) = some (run', left) := by
  cases helision : isApostrophe c && isElision before with
  | true =>
    rw [wordRun_elision helision] at h
    cases h
    exact .inl ⟨rfl, .elision (elidedAt_length_reverse.mpr helision)⟩
  | false =>
    have hhyphen (hc : c = '-') : encliticAfter (rest ++ [' ']) = some false := by
      obtain ⟨answer, hanswer⟩ := encliticFrom_closed [] rest
      cases answer with
      | false => exact hanswer
      | true => exact absurd (encliticAt_length_reverse.mpr ⟨hc, hanswer⟩) hnot
    cases rest with
    | nil =>
      have hblank : breaksWord markup ' ' = true := by cases markup <;> decide
      have hlength : before.length + 1 = (before.reverse ++ [c]).length := by simp
      rw [List.nil_append] at hhyphen h
      rw [wordRun_inside helision hhyphen, if_pos hblank] at h
      cases h
      exact .inl ⟨rfl, hlength ▸ .bound⟩
    | cons d more =>
      rw [List.cons_append] at hhyphen h
      rw [wordRun_inside helision hhyphen] at h
      by_cases hbreaks : breaksWord markup d = true
      · have hget : (before.reverse ++ c :: d :: more)[before.length + 1]? = some d := by
          rw [List.append_cons, List.getElem?_append_right (by simp)]
          simp
        rw [if_pos hbreaks] at h
        cases h
        exact .inl ⟨rfl, .breaks hget hbreaks⟩
      · rw [if_neg hbreaks] at h
        obtain ⟨⟨run', left'⟩, hrun, heq⟩ := Option.map_eq_some_iff.mp h
        cases heq
        by_cases hnext : EncliticAt (before.reverse ++ c :: d :: more) (before.length + 1)
        · have hafter : d = '-' ∧ encliticAfter (more ++ [' ']) = some true := by
            rw [List.append_cons, ← List.reverse_cons] at hnext
            exact encliticAt_length_reverse.mp hnext
          obtain ⟨rfl, hafter⟩ := hafter
          rw [wordRun_enclitic hafter] at hrun
          cases hrun
          exact .inl ⟨rfl, .enclitic hnext⟩
        · exact .inr ⟨d, more, run', rfl, rfl,
            not_boundary helision (Bool.eq_false_iff.mpr hbreaks) hnext, hrun⟩

theorem wordRun_least (hnot : ¬EncliticAt (before.reverse ++ c :: rest) before.length)
    (h : wordRun markup before (c :: (rest ++ [' '])) = some (run, left)) :
    IsLeast {n | before.length < n ∧ Boundary markup (before.reverse ++ c :: rest) n}
      (before.length + run.length) := by
  induction run generalizing before c rest with
  | nil => rcases wordRun_step hnot h with ⟨hrun, -⟩ | ⟨_, _, _, -, hrun, -⟩ <;> cases hrun
  | cons head run ih =>
    rcases wordRun_step hnot h with ⟨hrun, hboundary⟩ | ⟨d, more, _, rfl, hrun, hnone, hrest⟩
    · cases hrun
      exact ⟨⟨Nat.lt_succ_self _, hboundary⟩, fun n hn => hn.1⟩
    · cases hrun
      have hbody : (head :: before).reverse ++ d :: more =
          before.reverse ++ head :: d :: more := by
        rw [List.reverse_cons, ← List.append_cons]
      have hleast := ih (hbody ▸ fun henclitic => hnone (.enclitic henclitic)) hrest
      rw [hbody, List.length_cons, Nat.add_right_comm, Nat.add_assoc] at hleast
      refine ⟨⟨Nat.lt_of_succ_lt hleast.1.1, hleast.1.2⟩, fun n hn => ?_⟩
      rcases Nat.eq_or_lt_of_le hn.1 with rfl | hlt
      · exact absurd hn.2 hnone
      · exact hleast.2 ⟨hlt, hn.2⟩

theorem not_isPunctuation_of_least {n i : Nat} (h : IsLeast {n | 0 < n ∧ Boundary markup body n} n)
    (hpos : 0 < i) (hi : i < n) (hc : body[i]? = some c) : isPunctuation c = false := by
  rw [Bool.eq_false_iff]
  intro hpunctuation
  have hbreaks : breaksWord markup c = true := by
    rw [breaksWord, hpunctuation, Bool.or_true, Bool.true_or]
  exact absurd (h.2 ⟨hpos, .breaks hc hbreaks⟩) (Nat.not_le_of_lt hi)

theorem euphonicT_prefix_iff : euphonicT <+: body ↔ euphonicT.isPrefixOf (body ++ [' ']) = true := by
  constructor
  · exact fun h => List.isPrefixOf_iff_prefix.mpr (h.trans (List.prefix_append body [' ']))
  · intro h
    obtain ⟨left, rfl⟩ := euphonicT_closed body h
    exact List.prefix_append euphonicT left

theorem encliticAt_zero (h : EncliticAt body 0) :
    ∃ rest, body = '-' :: rest ∧ encliticAfter (rest ++ [' ']) = some true := by
  obtain ⟨hhyphen, hafter⟩ := h
  cases body with
  | nil => cases hhyphen
  | cons c rest =>
    obtain rfl := Option.some.inj hhyphen
    exact ⟨rest, rfl, hafter⟩

theorem run_of_encliticAt (h : cut markup (body ++ [' ']) = some (run, left))
    (henclitic : EncliticAt body 0) :
    run = if euphonicT <+: body then euphonicT else ['-'] := by
  obtain ⟨rest, rfl, hafter⟩ := encliticAt_zero henclitic
  have hhyphen : isPunctuation '-' = false := by decide
  rw [List.cons_append, cut, hhyphen, if_neg Bool.false_ne_true, wordRun_enclitic hafter] at h
  simp only [euphonicT_prefix_iff, List.cons_append]
  by_cases ht : euphonicT.isPrefixOf ('-' :: (rest ++ [' '])) = true
  · rw [if_pos ht]
    simp only [List.isEmpty_nil, Bool.not_true, Bool.false_eq_true, if_false, ht, if_true] at h
    cases h
    rfl
  · rw [if_neg ht]
    simp only [List.isEmpty_nil, Bool.not_true, Bool.false_eq_true, if_false, ht] at h
    cases h
    rfl

theorem least_of_cut (h : cut markup (body ++ [' ']) = some (run, left)) (hbody : body ≠ [])
    (hword : punctuated body = false) (hnot : ¬EncliticAt body 0) :
    IsLeast {n | 0 < n ∧ Boundary markup body n} run.length := by
  obtain ⟨c, rest, rfl⟩ := List.exists_cons_of_ne_nil hbody
  have hc : isPunctuation c = false := hword
  rw [List.cons_append, cut, hc, if_neg Bool.false_ne_true] at h
  have hleast : IsLeast {n | 0 < n ∧ Boundary markup (c :: rest) n} (0 + run.length) :=
    @wordRun_least markup run left [] rest c hnot h
  rwa [Nat.zero_add] at hleast

theorem punctuated_of_head (hc : body[0]? = some c) : punctuated body = isPunctuation c := by
  cases body with
  | nil => cases hc
  | cons head rest =>
    obtain rfl := Option.some.inj hc
    rfl

theorem Boundary.elided_or_enclitic (h : Boundary markup body place) (hc : body[place]? = some c)
    (hbreaks : breaksWord markup c = false) : ElidedAt body place ∨ EncliticAt body place := by
  cases h with
  | bound =>
    rw [List.getElem?_eq_none (Nat.le_refl _)] at hc
    cases hc
  | breaks hget hbreaks' =>
    rw [hc] at hget
    cases hget
    rw [hbreaks] at hbreaks'
    cases hbreaks'
  | elision helided => exact .inl helided
  | enclitic henclitic => exact .inr henclitic

theorem run_of_punctuated (h : cut markup (body ++ [' ']) = some (run, left))
    (hpunctuated : punctuated body = true) : run = body.takeWhile isPunctuation := by
  cases body with
  | nil => cases hpunctuated
  | cons c rest =>
    have hc : isPunctuation c = true := hpunctuated
    rw [List.cons_append, cut, hc, if_pos rfl, ← List.cons_append] at h
    rw [punctuationRun_eq h, takeWhile_closed]

end

section
variable {markup : Bool} {text run : List Char} {place : Nat}

theorem CutAt.drop_ne_nil (h : CutAt markup text place run) : text.drop place ≠ [] := by
  rw [h.drop_eq]
  exact List.append_ne_nil_of_left_ne_nil h.ne_nil _

theorem CutAt.not_isPunctuation (h : CutAt markup text place run)
    (hword : punctuated (text.drop place) = false) {c : Char} (hc : c ∈ run) :
    isPunctuation c = false := by
  by_cases henclitic : EncliticAt (text.drop place) 0
  · rw [run_of_encliticAt h.cut_eq henclitic] at hc
    have hnone : (euphonicT ++ ['-']).all (fun c => !isPunctuation c) = true := by decide
    have hmem : c ∈ euphonicT ++ ['-'] := by
      split at hc
      · exact List.mem_append_left _ hc
      · exact List.mem_append_right _ hc
    simpa using List.all_eq_true.mp hnone c hmem
  · obtain ⟨i, hi, rfl⟩ := List.mem_iff_getElem.mp hc
    have hget : (text.drop place)[i]? = some run[i] := by
      rw [h.drop_eq, List.getElem?_append_left hi, List.getElem?_eq_getElem hi]
    rcases Nat.eq_zero_or_pos i with rfl | hpos
    · rw [← punctuated_of_head hget, hword]
    · exact not_isPunctuation_of_least (least_of_cut h.cut_eq h.drop_ne_nil hword henclitic) hpos
        hi hget

theorem CutAt.token (h : CutAt markup text place run) : Token markup (text.drop place) run where
  front := ⟨_, h.drop_eq.symm⟩
  ne_nil := h.ne_nil
  punctuation := run_of_punctuated h.cut_eq
  pure := fun hword _ => h.not_isPunctuation hword
  detached := run_of_encliticAt h.cut_eq
  word := least_of_cut h.cut_eq h.drop_ne_nil
  reason := by
    intro hword hnot c hc hbreaks
    obtain ⟨-, hboundary⟩ := (least_of_cut h.cut_eq h.drop_ne_nil hword hnot).1
    exact hboundary.elided_or_enclitic hc hbreaks

end

/-- Each occurrence of a text is a token of what stands from its start on up to the end bound: it
ends at the first boundary, unless it is punctuation or the hyphen before an enclitic. -/
theorem cut_at_first_boundary (text : List Char) (start : Int) (stop : Option Int)
    (options : Options) : ∀ o ∈ (ofText text start stop options).occurrences, ∃ place : Nat,
      o.start = place ∧ o.stop = place + o.graph.length ∧
      Token options.markup (between text place (ofText text start stop options).stop)
        o.graph.toList := by
  intro o ho
  obtain ⟨before, after, hsplit⟩ := List.append_of_mem ho
  obtain ⟨place, run, hrun, rfl, -⟩ := ofText_split text start stop options hsplit
  refine ⟨place, rfl, rfl, ?_⟩
  rw [Occurrence.graph_untagged, String.toList_ofList]
  exact hrun.token

/-- An elision, a longer word with an apostrophe, punctuation, and a verb with the euphonic t, one
after the other up to an end bound. -/
theorem cut_behind_elision : ∃ (os : List Occurrence) (o : Occurrence) (place : Nat),
    (ofText "puisqu'aujourd'hui, va-t-en-guerre".toList 0 (some 27) ⟨true, false⟩).occurrences =
      os ∧
    os.map Occurrence.graph = ["puisqu'", "aujourd'hui", ",", "va", "-t-", "en"] ∧
    o ∈ os ∧ o.start = place ∧ o.stop = place + o.graph.length ∧
    Token true ((("puisqu'aujourd'hui, va-t-en-guerre".toList).take 27).drop place)
      o.graph.toList := by
  have ho : Occurrence.untagged "aujourd'hui" 7 ∈
      (ofText "puisqu'aujourd'hui, va-t-en-guerre".toList 0 (some 27) ⟨true, false⟩).occurrences := by
    decide +kernel
  obtain ⟨place, hstart, hstop, htoken⟩ := cut_at_first_boundary _ _ _ _ _ ho
  exact ⟨_, _, place, rfl, by decide +kernel, ho, hstart, hstop, htoken⟩

end Concordance.Tokenizer
