import Concordance.Proofs.Tokenizer.Coverage

/-! What the tokenizer cuts from a text. Between its two bounds, where a blank closes the text, each
step passes over what does not count and cuts a token from what does. The main statement says that
the occurrences of a text are its characters that count, in order, and where they stand. -/

namespace Concordance.Tokenizer

inductive Begins (text : List Char) (start stop : Int) : Bool → Nat → Prop
  | here : Begins text start stop false start.toNat
  | headless : (∀ k, ¬headerEnd <+: (Text.slice text 0 stop).drop k) →
      Begins text start stop true start.toNat
  | header {k : Nat} : headerEnd <+: (Text.slice text 0 stop).drop k →
      (∀ j < k, ¬headerEnd <+: (Text.slice text 0 stop).drop j) →
      Begins text start stop true (max start.toNat (k + headerEnd.length))

/-- The characters between two bounds; none if the second does not lie behind the first. -/
def between (text : List Char) (first : Nat) (stop : Int) : List Char :=
  (text.take stop.toNat).drop first

structure Covers (markup : Bool) (text : List Char) (first : Nat) (stop : Int)
    (os : List Occurrence) : Prop where
  inside : ∀ o ∈ os, (first : Int) ≤ o.start ∧ o.start < o.stop ∧ o.stop ≤ stop
  slices : ∀ o ∈ os, o.graph.toList = Text.slice text o.start o.stop
  apart : os.Pairwise fun a b => a.stop ≤ b.start
  covered : ∀ i : Nat, first ≤ i → (i : Int) < stop →
    ((∃ o ∈ os, o.start ≤ (i : Int) ∧ (i : Int) < o.stop) ↔
      (significance markup false (between text first stop))[i - first]? = some true)
  graphs : os.flatMap (fun o => o.graph.toList) = counted markup false (between text first stop)

theorem length_between (text : List Char) (first : Nat) (stop : Int) :
    (between text first stop).length = min stop.toNat text.length - first := by
  rw [between, List.length_drop, List.length_take]

section
variable {markup inside : Bool} {c : Char} {rest : List Char} {stop : Int} {pointer : Nat}

theorem firstPointer_begins (text : List Char) (start stop : Int) (skipHeader : Bool) :
    Begins text start stop skipHeader (firstPointer text start stop skipHeader) := by
  rw [firstPointer]
  cases skipHeader with
  | false => exact .here
  | true =>
    rw [if_pos rfl]
    cases hfound : Text.find? headerEnd (Text.slice text 0 stop) with
    | none => exact .headless fun k => Text.findFrom_eq_none hfound k
    | some found =>
      obtain ⟨k, hk, hheader, hbefore⟩ := Text.findFrom_eq_some hfound
      rw [hk, Nat.zero_add]
      exact .header hheader hbefore

theorem skip_pass (hlt : (pointer : Int) < stop) (h : inside = true ∨ solid markup c = false) :
    skip markup stop pointer inside (c :: rest) =
      skip markup stop (pointer + 1) (insideAfter markup inside [c]) rest := by
  rw [skip, if_pos hlt]
  cases inside with
  | true => rw [if_pos rfl, insideAfter, insideAfter]
  | false =>
    have hsolid : (!isSpace c && !(markup && c == '<')) = false := h.resolve_left Bool.false_ne_true
    rw [if_neg Bool.false_ne_true, insideAfter, insideAfter]
    split
    · rename_i hopens
      rw [hopens]
    · rename_i hopens
      rw [Bool.eq_false_iff.mpr hopens] at hsolid ⊢
      rw [if_pos (by simpa using hsolid)]

theorem silent_pass (h : inside = true ∨ solid markup c = false)
    (hrest : Silent markup (insideAfter markup inside [c]) rest) :
    Silent markup inside (c :: rest) := by
  have hhead : significance markup inside [c] = [false] := by
    cases inside with
    | true => rw [significance, significance]
    | false =>
      have hsolid : (!isSpace c && !(markup && c == '<')) = false :=
        h.resolve_left Bool.false_ne_true
      rw [significance, significance, significance]
      split
      · rfl
      · rename_i hopens
        rw [Bool.eq_false_iff.mpr hopens, Bool.not_false, Bool.and_true] at hsolid
        rw [hsolid]
  rw [Silent, ← List.singleton_append, significance_append, hhead]
  exact List.forall_mem_cons.mpr ⟨rfl, hrest⟩

theorem skip_here (hlt : (pointer : Int) < stop) (hc : solid markup c = true) :
    skip markup stop pointer false (c :: rest) = some (pointer, false, c :: rest) := by
  simp only [solid, Bool.and_eq_true, Bool.not_eq_true'] at hc
  rw [skip, if_pos hlt, if_neg Bool.false_ne_true, hc.1, hc.2, if_neg Bool.false_ne_true,
    if_neg Bool.false_ne_true]

theorem skip_behind (h : stop ≤ pointer) :
    skip markup stop pointer inside rest = some (pointer, inside, rest) := by
  cases rest <;> rw [skip, if_neg (Int.not_lt.mpr h)]

theorem skip_closed (markup inside : Bool) (body : List Char)
    (hstop : stop = ((pointer + body.length : Nat) : Int)) :
    (Silent markup inside body ∧ ∃ inside', skip markup stop pointer inside (body ++ [' ']) =
      some (pointer + body.length, inside', [' '])) ∨
    ∃ passed c left, body = passed ++ c :: left ∧ Silent markup inside passed ∧
      insideAfter markup inside passed = false ∧ solid markup c = true ∧
      skip markup stop pointer inside (body ++ [' ']) =
        some (pointer + passed.length, false, c :: (left ++ [' '])) := by
  induction body generalizing pointer inside with
  | nil =>
    rw [List.length_nil, Nat.add_zero] at hstop
    refine .inl ⟨by cases inside <;> simp [Silent, significance], inside, ?_⟩
    rw [hstop, List.nil_append, skip, if_neg (Int.lt_irrefl _)]
    rfl
  | cons c rest ih =>
    rw [List.length_cons] at hstop
    have hlt : (pointer : Int) < stop := by omega
    rw [List.cons_append]
    by_cases hpass : inside = true ∨ solid markup c = false
    · have hstop' : stop = ((pointer + 1 + rest.length : Nat) : Int) := by omega
      rw [skip_pass hlt hpass]
      rcases ih _ hstop' with ⟨hsilent, inside', hskip⟩ |
        ⟨passed, d, left, rfl, hpassed, houtside, hd, hskip⟩
      · refine .inl ⟨silent_pass hpass hsilent, inside', ?_⟩
        rw [hskip, List.length_cons, Nat.add_right_comm, Nat.add_assoc]
      · refine .inr ⟨c :: passed, d, left, rfl, silent_pass hpass hpassed, ?_, hd, ?_⟩
        · rw [← houtside]
          cases inside <;> rfl
        · rw [hskip, List.length_cons, Nat.add_right_comm, Nat.add_assoc]
    · simp only [not_or, Bool.not_eq_true, Bool.not_eq_false] at hpass
      obtain ⟨rfl, hc⟩ := hpass
      exact .inr ⟨[], c, rest, rfl, by simp [Silent, significance], rfl, hc, skip_here hlt hc⟩

end

/-- What lies ahead of a tokenizer, up to its bound and the closing blank. -/
structure Ahead (t : Tokenizer) (body : List Char) : Prop where
  rest_eq : t.rest = body ++ [' ']
  stop_eq : t.stop = ((t.pointer + body.length : Nat) : Int)

section
variable {t : Tokenizer} {body : List Char}

theorem Ahead.next (h : Ahead t body) :
    (Silent t.markup t.inMarkup body ∧ t.next.1 = none) ∨
    ∃ passed run left, body = passed ++ (run ++ left) ∧ Silent t.markup t.inMarkup passed ∧
      insideAfter t.markup t.inMarkup passed = false ∧ run ≠ [] ∧
      (∀ c ∈ run, solid t.markup c = true) ∧
      ∃ t', t.next = (some (.untagged (String.ofList run)
          ((t.pointer + passed.length : Nat) : Int)), t') ∧ t'.markup = t.markup ∧ t'.inMarkup = false ∧
        t'.pointer = t.pointer + passed.length + run.length ∧ Ahead t' left := by
  rw [Tokenizer.next, Tokenizer.next?, h.rest_eq]
  rcases skip_closed t.markup t.inMarkup body h.stop_eq with ⟨hsilent, inside', hskip⟩ |
    ⟨passed, c, tail, rfl, hpassed, houtside, hc, hskip⟩
  · refine .inl ⟨hsilent, ?_⟩
    rw [hskip, h.stop_eq]
    simp only [Int.lt_irrefl, if_false, Option.getD_some]
  · -- The token is cut from the character that the tokenizer stopped at.
    obtain ⟨run, left, hcut, htakes, hne⟩ := cut_closed tail hc
    have hbody := congrArg (passed ++ ·) htakes.body_eq
    have hlt : ((t.pointer + passed.length : Nat) : Int) < t.stop := by
      rw [h.stop_eq, List.length_append, List.length_cons]
      omega
    let t' := { t with
      pointer := t.pointer + passed.length + run.length, rest := left ++ [' '], inMarkup := false }
    refine .inr ⟨passed, run, left, hbody, hpassed, houtside, hne, htakes.run_solid, t', ?_,
      rfl, rfl, rfl, rfl, ?_⟩
    · rw [hskip]
      simp only [hlt, if_true, hcut, Option.getD_some]
      rfl
    · have hpointer : t'.pointer = t.pointer + passed.length + run.length := rfl
      rw [h.stop_eq, hbody, hpointer]
      simp only [List.length_append, Nat.add_assoc]

theorem Ahead.take (h : Ahead t body) {n : Nat} (hn : body.length < n) :
    Cuts t.markup t.inMarkup t.pointer body (t.take n) := by
  induction n generalizing t body with
  | zero => cases hn
  | succ n ih =>
    rw [Tokenizer.take]
    rcases h.next with ⟨hsilent, hnone⟩ |
      ⟨passed, run, left, rfl, hpassed, houtside, hne, hrun, t', hnext, hmarkup, hinside,
        hpointer, hahead⟩
    · cases hstep : t.next with
      | mk o t' =>
        rw [hstep] at hnone
        subst hnone
        exact .done hsilent
    · have hpos := List.length_pos_iff.mpr hne
      simp only [List.length_append] at hn
      have hcuts := ih hahead (by omega)
      rw [hmarkup, hinside, hpointer] at hcuts
      simp only [hnext]
      exact .token hpassed houtside hne hrun hcuts

end

/-- At the bound or behind it, a call changes nothing. -/
theorem next?_behind {t : Tokenizer} (h : t.stop ≤ t.pointer) : t.next? = some (none, t) := by
  rw [Tokenizer.next?, skip_behind h]
  simp only [Int.not_lt.mpr h, if_false]

theorem take_behind {t : Tokenizer} (h : t.stop ≤ t.pointer) (n : Nat) : t.take n = [] := by
  have hnext : t.next = (none, t) := by rw [Tokenizer.next, next?_behind h, Option.getD_some]
  cases n with
  | zero => rfl
  | succ n => rw [Tokenizer.take, hnext]

section
variable (text : List Char) (start : Int) (stop : Option Int) (options : Options)

theorem bound_le (length : Nat) (stop : Option Int) : bound length stop ≤ length := by
  cases stop with
  | none => exact Int.le_refl _
  | some stop => exact Int.min_le_right _ _

theorem ofText_ahead
    (h : ((ofText text start stop options).pointer : Int) ≤ (ofText text start stop options).stop) :
    Ahead (ofText text start stop options) (between text (ofText text start stop options).pointer
      (ofText text start stop options).stop) := by
  have hlength : (ofText text start stop options).stop ≤ text.length := bound_le _ _
  obtain ⟨n, hn⟩ := Int.eq_ofNat_of_zero_le (Int.le_trans (Int.natCast_nonneg _) h)
  have hslice : Text.slice text 0 n = text.take n :=
    Text.slice_natCast (Nat.zero_le n) (by omega)
  have hrest : (ofText text start stop options).rest =
      (Text.slice text 0 (ofText text start stop options).stop ++ [' ']).drop
        (ofText text start stop options).pointer := rfl
  rw [hn] at h hrest hlength
  have hpointer : (ofText text start stop options).pointer ≤ (text.take n).length := by
    rw [List.length_take]
    omega
  refine ⟨?_, ?_⟩
  · rw [hrest, hslice, List.drop_append_of_le_length hpointer, hn]
    rfl
  · rw [hn, between, List.length_drop, Int.toNat_natCast, Nat.add_sub_cancel' hpointer,
      List.length_take, Nat.min_eq_left (by omega)]

theorem ofText_cuts : Cuts options.markup false (ofText text start stop options).pointer
    (between text (ofText text start stop options).pointer (ofText text start stop options).stop)
    (ofText text start stop options).occurrences := by
  rw [occurrences]
  by_cases h : ((ofText text start stop options).pointer : Int) ≤
      (ofText text start stop options).stop
  · have hahead := ofText_ahead text start stop options h
    exact hahead.take (by rw [hahead.rest_eq, List.length_append, List.length_singleton]; omega)
  · -- The header ends behind the bound, or cutting was to begin there: nothing is between.
    have hnothing : between text (ofText text start stop options).pointer
        (ofText text start stop options).stop = [] := by
      rw [← List.length_eq_zero_iff, length_between]
      omega
    rw [take_behind (by omega), hnothing]
    exact .done (by simp [Silent, significance])

/-- The occurrences of a text are, in their order, the characters that count between its bounds. -/
theorem ofText_covers :
    Begins text start (ofText text start stop options).stop options.skipHeader
      (ofText text start stop options).pointer ∧
    (ofText text start stop options).stop =
      (stop.map fun s => min s (text.length : Int)).getD text.length ∧
    Covers options.markup text (ofText text start stop options).pointer
      (ofText text start stop options).stop (ofText text start stop options).occurrences := by
  have hcuts := ofText_cuts text start stop options
  have hbody : between text (ofText text start stop options).pointer
      (ofText text start stop options).stop <+:
        text.drop (ofText text start stop options).pointer := by
    rw [between, List.drop_take]
    exact List.take_prefix _ _
  have hlength : (ofText text start stop options).stop ≤ text.length := bound_le _ _
  refine ⟨firstPointer_begins _ _ _ _, by cases stop <;> rfl, fun o ho => ?_, fun o ho => ?_,
    hcuts.pairwise, fun i hfirst hi => ?_, hcuts.graphs⟩
  · obtain ⟨hstart, hlt, hstop, -⟩ := hcuts.spans hbody o ho
    rw [length_between] at hstop
    exact ⟨hstart, hlt, by omega⟩
  · exact (hcuts.spans hbody o ho).2.2.2
  · have hsize : i - (ofText text start stop options).pointer <
        (between text (ofText text start stop options).pointer
          (ofText text start stop options).stop).length := by
      rw [length_between]
      omega
    rw [← hcuts.mem_iff hsize, Nat.add_sub_cancel' hfirst]

end
end Concordance.Tokenizer
