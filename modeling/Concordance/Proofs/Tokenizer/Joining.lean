import Concordance.Proofs.Tokenizer.Lookahead
import Concordance.Tokenizer.Sequence

/-! Texts joined by a blank. The blank that closes a text and one that stands inside a longer text
are the same to the tokenizer: no token reaches over it, and what is read ahead stops there. Main
statement: the occurrences of two texts with a blank between them are those of the first, and then
those of the second, moved behind it. -/

namespace Concordance

def Occurrence.shift (n : Nat) (o : Occurrence) : Occurrence :=
  { o with start := o.start + n, stop := o.stop + n }

theorem Occurrence.shift_untagged (graph : String) (start : Int) (n : Nat) :
    (untagged graph start).shift n = untagged graph (start + n) := by
  have hstop : start + graph.length + (n : Int) = start + n + graph.length := by omega
  simp only [shift, untagged, ofGraph, hstop]

namespace Tokenizer

inductive Yields : Tokenizer → List Occurrence → Prop
  | done {t t' : Tokenizer} : t.next = (none, t') → Yields t []
  | cut {t t' : Tokenizer} {o : Occurrence} {os : List Occurrence} :
      t.next = (some o, t') → Yields t' os → Yields t (o :: os)

def shift (n : Nat) (t : Tokenizer) : Tokenizer :=
  { t with pointer := t.pointer + n, stop := t.stop + n }

/-- The tokenizer when a text stands behind its closing blank. -/
def followedBy (t : Tokenizer) (text : List Char) : Tokenizer :=
  { t with stop := t.stop + 1 + text.length, rest := t.rest ++ (text ++ [' ']) }

def behind (t : Tokenizer) (text : List Char) : Tokenizer :=
  { t with
    stop := t.stop + 1 + text.length
    pointer := t.stop.toNat + 1
    rest := text ++ [' ']
    inMarkup := false }

section
variable {t t' : Tokenizer} {os : List Occurrence} {body : List Char}

theorem Yields.unique {os' : List Occurrence} (h : Yields t os) (h' : Yields t os') : os = os' := by
  induction h generalizing os' with
  | done hnext =>
    cases h' with
    | done => rfl
    | cut hnext' =>
      rw [hnext] at hnext'
      cases hnext'
  | cut hnext _ ih =>
    cases h' with
    | done hnext' =>
      rw [hnext] at hnext'
      cases hnext'
    | cut hnext' hrest' =>
      rw [hnext] at hnext'
      cases hnext'
      rw [ih hrest']

theorem Yields.congr (h : Yields t os) (heq : t.next? = t'.next?) : Yields t' os := by
  cases hnext : t.next? with
  | none =>
    cases h with
    | done => exact .done (by rw [Tokenizer.next, ← heq, hnext, Option.getD_none])
    | cut hcut =>
      rw [Tokenizer.next, hnext, Option.getD_none] at hcut
      cases hcut
  | some answer =>
    have hsame : t.next = t'.next := by rw [Tokenizer.next, Tokenizer.next, ← heq, hnext]; rfl
    cases h with
    | done hdone => exact .done (hsame ▸ hdone)
    | cut hcut hrest => exact .cut (hsame ▸ hcut) hrest

theorem Ahead.yields_take (h : Ahead t body) {n : Nat} (hn : body.length < n) :
    Yields t (t.take n) := by
  induction n generalizing t body with
  | zero => cases hn
  | succ n ih =>
    rw [Tokenizer.take]
    rcases h.next with ⟨-, hnone⟩ |
      ⟨passed, run, left, rfl, -, -, hne, -, t', hnext, -, -, -, hahead⟩
    · cases hstep : t.next with
      | mk o t' =>
        rw [hstep] at hnone
        cases hnone
        exact .done hstep
    · have hpos := List.length_pos_iff.mpr hne
      simp only [List.length_append] at hn
      simp only [hnext]
      exact .cut hnext (ih hahead (by omega))

theorem Ahead.yields (h : Ahead t body) : Yields t t.occurrences := by
  refine h.yields_take ?_
  rw [h.rest_eq, List.length_append, List.length_singleton]
  exact Nat.lt_succ_self _

end

section Shift
variable {t : Tokenizer} {os : List Occurrence}

theorem skip_shift (markup : Bool) (stop : Int) (pointer n : Nat) (inside : Bool)
    (rest : List Char) : skip markup (stop + n) (pointer + n) inside rest =
      (skip markup stop pointer inside rest).map fun found => (found.1 + n, found.2) := by
  have hbound (pointer : Nat) : ((pointer + n : Nat) : Int) < stop + n ↔ (pointer : Int) < stop := by
    omega
  induction rest generalizing pointer inside with
  | nil =>
    simp only [skip, hbound]
    split <;> rfl
  | cons c rest ih =>
    simp only [skip, hbound, Nat.add_right_comm pointer n 1, ih]
    split
    · split
      · rfl
      split
      · rfl
      split <;> rfl
    · rfl

theorem next?_shift (t : Tokenizer) (n : Nat) :
    (t.shift n).next? = t.next?.map fun answer => (answer.1.map (Occurrence.shift n),
      answer.2.shift n) := by
  rw [next?, next?, show (t.shift n).markup = t.markup from rfl,
    show (t.shift n).inMarkup = t.inMarkup from rfl, show (t.shift n).rest = t.rest from rfl,
    show (t.shift n).stop = t.stop + n from rfl, show (t.shift n).pointer = t.pointer + n from rfl,
    skip_shift]
  cases skip t.markup t.stop t.pointer t.inMarkup t.rest with
  | none => rfl
  | some found =>
    obtain ⟨start, inside, rest⟩ := found
    have hbound : ((start + n : Nat) : Int) < t.stop + n ↔ (start : Int) < t.stop := by omega
    simp only [Option.map_some, hbound]
    split
    · cases cut t.markup rest with
      | none => rfl
      | some token =>
        simp only [Option.map_some, Occurrence.shift_untagged, Int.natCast_add, shift,
          Nat.add_right_comm start n]
    · rfl

theorem next_shift (t : Tokenizer) (n : Nat) :
    (t.shift n).next = (t.next.1.map (Occurrence.shift n), t.next.2.shift n) := by
  rw [next, next, next?_shift]
  cases t.next? <;> rfl

theorem Yields.shift (h : Yields t os) (n : Nat) :
    Yields (t.shift n) (os.map (Occurrence.shift n)) := by
  induction h with
  | done hnext => exact .done (by rw [next_shift, hnext]; rfl)
  | cut hnext _ ih => exact .cut (by rw [next_shift, hnext]; rfl) ih

end Shift

section Passing
variable {markup inside : Bool} {c : Char} {rest passed : List Char} {stop : Int} {pointer : Nat}

theorem insideAfter_append (first second : List Char) :
    insideAfter markup inside (first ++ second) =
      insideAfter markup (insideAfter markup inside first) second := by
  induction first generalizing inside with
  | nil => cases inside <;> rfl
  | cons c rest ih =>
    cases inside with
    | true => rw [List.cons_append, insideAfter, ih, insideAfter]
    | false => rw [List.cons_append, insideAfter, ih, insideAfter]

theorem insideAfter_without_markup (body : List Char) : insideAfter false false body = false := by
  induction body with
  | nil => rfl
  | cons c rest ih => rw [insideAfter, Bool.false_and, ih]

theorem pass_of_silent (h : Silent markup inside (c :: rest)) :
    (inside = true ∨ solid markup c = false) ∧ Silent markup (insideAfter markup inside [c]) rest := by
  rw [Silent, ← List.singleton_append, significance_append] at h
  obtain ⟨hhere, hrest⟩ := List.forall_mem_append.mp h
  refine ⟨?_, hrest⟩
  cases inside with
  | true => exact .inl rfl
  | false =>
    right
    rw [Bool.eq_false_iff]
    intro hsolid
    have hcounts : significance markup false [c] = [true] :=
      significance_solid (List.forall_mem_singleton.mpr hsolid)
    cases hhere true (hcounts ▸ List.mem_singleton_self true)

theorem skip_silent (h : Silent markup inside passed)
    (hstop : ((pointer + passed.length : Nat) : Int) ≤ stop) (rest : List Char) :
    skip markup stop pointer inside (passed ++ rest) =
      skip markup stop (pointer + passed.length) (insideAfter markup inside passed) rest := by
  induction passed generalizing pointer inside with
  | nil => cases inside <;> rfl
  | cons c more ih =>
    obtain ⟨hpass, hmore⟩ := pass_of_silent h
    rw [List.length_cons] at hstop
    rw [List.cons_append, skip_pass (by omega) hpass, ih hmore (by omega), ← insideAfter_append,
      List.singleton_append, List.length_cons, Nat.add_right_comm, Nat.add_assoc]

end Passing

section Followed
variable {t : Tokenizer} {body passed rest run left v : List Char} {c : Char}

theorem next_token (hrest : t.rest = passed ++ c :: rest)
    (hpassed : Silent t.markup t.inMarkup passed)
    (houtside : insideAfter t.markup t.inMarkup passed = false) (hc : solid t.markup c = true)
    (hlt : ((t.pointer + passed.length : Nat) : Int) < t.stop)
    (hcut : Tokenizer.cut t.markup (c :: rest) = some (run, left)) :
    t.next = (some (.untagged (String.ofList run) ((t.pointer + passed.length : Nat) : Int)),
      { t with
        pointer := t.pointer + passed.length + run.length
        rest := left
        inMarkup := false }) := by
  rw [next, next?, hrest, skip_silent hpassed (Int.le_of_lt hlt), houtside, skip_here hlt hc]
  simp only [hlt, if_true, hcut, Option.getD_some]

theorem Ahead.reads (h : Ahead t body) : (Silent t.markup t.inMarkup body ∧ t.next.1 = none) ∨
    ∃ passed c rest run left, body = passed ++ c :: rest ∧ c :: rest = run ++ left ∧
      Silent t.markup t.inMarkup passed ∧ insideAfter t.markup t.inMarkup passed = false ∧
      solid t.markup c = true ∧ (∀ c ∈ run, solid t.markup c = true) ∧
      Tokenizer.cut t.markup (c :: (rest ++ [' '])) = some (run, left ++ [' ']) := by
  rcases skip_closed t.markup t.inMarkup body h.stop_eq with ⟨hsilent, inside, hskip⟩ |
    ⟨passed, c, rest, rfl, hpassed, houtside, hc, -⟩
  · refine .inl ⟨hsilent, ?_⟩
    rw [Tokenizer.next, next?, h.rest_eq, hskip, h.stop_eq]
    simp only [Int.lt_irrefl, if_false, Option.getD_some]
  · obtain ⟨run, left, hcut, htakes, -⟩ := cut_closed rest hc
    exact .inr ⟨passed, c, rest, run, left, rfl, htakes.body_eq, hpassed, houtside, hc,
      htakes.run_solid, hcut⟩

theorem next?_congr {t' : Tokenizer} (hmarkup : t.markup = t'.markup) (hstop : t.stop = t'.stop)
    (hskip : skip t.markup t.stop t.pointer t.inMarkup t.rest =
      skip t'.markup t'.stop t'.pointer t'.inMarkup t'.rest) : t.next? = t'.next? := by
  obtain ⟨markup, stop, pointer, rest, inside⟩ := t
  obtain ⟨markup', stop', pointer', rest', inside'⟩ := t'
  subst hmarkup hstop
  rw [next?, next?, hskip]

theorem Ahead.next?_followedBy (h : Ahead t body) (hsilent : Silent t.markup t.inMarkup body)
    (hclosed : insideAfter t.markup t.inMarkup body = false) (v : List Char) :
    (t.followedBy v).next? = (t.behind v).next? := by
  have hrest : (t.followedBy v).rest = body ++ ' ' :: (v ++ [' ']) := by
    rw [followedBy, h.rest_eq, List.append_assoc, List.singleton_append]
  have hpointer : (t.behind v).pointer = t.pointer + body.length + 1 := by
    rw [behind, h.stop_eq, Int.toNat_natCast]
  have hblank : solid t.markup ' ' = false := by cases t.markup <;> rfl
  have houtside : insideAfter t.markup false [' '] = false := by cases t.markup <;> rfl
  have hstop : t.stop = ((t.pointer + body.length : Nat) : Int) := h.stop_eq
  have hskip : skip t.markup (t.stop + 1 + v.length) t.pointer t.inMarkup
      (body ++ ' ' :: (v ++ [' '])) = skip t.markup (t.stop + 1 + v.length)
        (t.pointer + body.length + 1) false (v ++ [' ']) := by
    rw [skip_silent hsilent (by omega), hclosed, skip_pass (by omega) (.inr hblank), houtside]
  refine next?_congr rfl rfl ?_
  rw [hrest, hpointer]
  exact hskip

/-- A step before the closing blank is the same whatever stands behind it. -/
theorem Ahead.next_followedBy (h : Ahead t body)
    (hclosed : insideAfter t.markup t.inMarkup body = false) (v : List Char) :
    (t.next.1 = none ∧ (t.followedBy v).next? = (t.behind v).next?) ∨
    ∃ o t' left, t.next = (some o, t') ∧ (t.followedBy v).next = (some o, t'.followedBy v) ∧
      t'.behind v = t.behind v ∧ Ahead t' left ∧
      insideAfter t'.markup t'.inMarkup left = false := by
  rcases h.reads with ⟨hsilent, hnone⟩ |
    ⟨passed, c, rest, run, left, rfl, hbody, hpassed, houtside, hc, hrun, hcut⟩
  · exact .inl ⟨hnone, h.next?_followedBy hsilent hclosed v⟩
  · -- Both steps stop at the same character, and the token that they cut there ends before the blank.
    have hstop := h.stop_eq
    have hlength := congrArg List.length hbody
    simp only [List.length_append, List.length_cons] at hstop hlength
    have hrest : t.rest = passed ++ c :: (rest ++ [' ']) := by
      rw [h.rest_eq, List.append_assoc, List.cons_append]
    have hrest' : (t.followedBy v).rest = passed ++ c :: (rest ++ [' '] ++ (v ++ [' '])) := by
      rw [followedBy, hrest, List.append_assoc, List.cons_append]
    have hlt : ((t.pointer + passed.length : Nat) : Int) < t.stop := by omega
    have hlt' : ((t.pointer + passed.length : Nat) : Int) < t.stop + 1 + v.length := by omega
    rw [hbody, insideAfter_append, houtside, insideAfter_append, insideAfter_solid hrun] at hclosed
    refine .inr ⟨_, _, left, next_token hrest hpassed houtside hc hlt hcut,
      next_token hrest' hpassed houtside hc hlt' (cut_append hcut _), rfl, ⟨rfl, ?_⟩, hclosed⟩
    dsimp only
    omega

theorem Yields.followedBy {us vs : List Occurrence} (h : Yields t us) (hahead : Ahead t body)
    (hclosed : insideAfter t.markup t.inMarkup body = false) (hv : Yields (t.behind v) vs) :
    Yields (t.followedBy v) (us ++ vs) := by
  induction h generalizing body with
  | done hnext =>
    rcases hahead.next_followedBy hclosed v with ⟨-, heq⟩ | ⟨o, t', left, hnext', -⟩
    · exact hv.congr heq.symm
    · rw [hnext] at hnext'
      cases hnext'
  | cut hnext _ ih =>
    rcases hahead.next_followedBy hclosed v with ⟨hnone, -⟩ |
      ⟨o, t', left, hnext', hfollowed, hbehind, hahead', hclosed'⟩
    · rw [hnext] at hnone
      cases hnone
    · rw [hnext] at hnext'
      cases hnext'
      exact .cut hfollowed (ih hahead' hclosed' (hbehind ▸ hv))

end Followed

section Whole
variable (markup : Bool) (text second : List Char)

theorem ofText_whole : ofText text 0 none ⟨markup, false⟩ =
    { markup := markup
      stop := text.length
      pointer := 0
      rest := text ++ [' ']
      inMarkup := false } := by
  have hslice : Text.slice text 0 text.length = text.take text.length :=
    Text.slice_natCast (Nat.zero_le _) (Nat.le_refl _)
  rw [ofText, bound, hslice, List.take_length]
  rfl

theorem ahead_whole : Ahead (ofText text 0 none ⟨markup, false⟩) text := by
  rw [ofText_whole]
  exact ⟨rfl, by rw [Nat.zero_add]⟩

theorem followedBy_whole : (ofText text 0 none ⟨markup, false⟩).followedBy second =
    ofText (text ++ ' ' :: second) 0 none ⟨markup, false⟩ := by
  rw [ofText_whole, ofText_whole]
  simp only [followedBy, List.length_append, List.length_cons, List.append_assoc,
    List.cons_append, List.nil_append, mk.injEq, and_true, true_and]
  omega

theorem behind_whole : (ofText text 0 none ⟨markup, false⟩).behind second =
    (ofText second 0 none ⟨markup, false⟩).shift (text.length + 1) := by
  rw [ofText_whole, ofText_whole]
  simp only [behind, shift, mk.injEq, and_true, true_and]
  omega

end Whole

/-- Tokenizing goes over to texts that a blank joins: where the first leaves no markup open, the
occurrences are those of the first text, and then those of the second, moved behind the first and
the blank. -/
theorem occurrences_append_blank (markup : Bool) (first second : String)
    (h : markup = true → insideAfter markup false first.toList = false) :
    (TokenSequence.ofText (first ++ " " ++ second) 0 none ⟨markup, false⟩).occurrences =
      (TokenSequence.ofText first 0 none ⟨markup, false⟩).occurrences ++
        (TokenSequence.ofText second 0 none ⟨markup, false⟩).occurrences.map
          (Occurrence.shift (first.length + 1)) := by
  have hclosed : insideAfter markup false first.toList = false := by
    cases markup with
    | true => exact h rfl
    | false => exact insideAfter_without_markup _
  have htext : (first ++ " " ++ second).toList = first.toList ++ ' ' :: second.toList := by simp
  have hfirst := ahead_whole markup first.toList
  have hsecond := (ahead_whole markup second.toList).yields.shift (first.toList.length + 1)
  rw [← behind_whole] at hsecond
  have hboth := hfirst.yields.followedBy hfirst hclosed hsecond
  rw [followedBy_whole, ← htext, String.length_toList] at hboth
  exact (ahead_whole markup (first ++ " " ++ second).toList).yields.unique hboth

theorem append_blank_before_pronoun : ∃ first second : String,
    first = "<i>donne</i> donne-t-" ∧ second = "il l'eau <b" ∧
    insideAfter true false first.toList = false ∧
    (TokenSequence.ofText (first ++ " " ++ second) 0 none ⟨true, false⟩).occurrences =
      (TokenSequence.ofText first 0 none ⟨true, false⟩).occurrences ++
        (TokenSequence.ofText second 0 none ⟨true, false⟩).occurrences.map
          (Occurrence.shift (first.length + 1)) ∧
    (TokenSequence.ofText (first ++ " " ++ second) 0 none ⟨true, false⟩).forms =
      ["donne", "donne-t-", "il", "l'", "eau"] := by
  have hclosed : insideAfter true false "<i>donne</i> donne-t-".toList = false := by decide
  exact ⟨_, _, rfl, rfl, hclosed, occurrences_append_blank true _ _ fun _ => hclosed,
    by decide +kernel⟩

end Tokenizer
end Concordance
