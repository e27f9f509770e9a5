import Concordance.Proofs.Tokenizer.Joining

/-! A tokenizer between two tokens is told by its text, which its bound closes, and by its place
there: it stands outside markup, and what it has cut before makes no difference. Each occurrence is
cut from what stands from its start on, and what is cut after it is what the text holds from its
stop on. -/

namespace Concordance.Tokenizer

def standing (markup : Bool) (text : List Char) (place : Nat) : Tokenizer where
  markup := markup
  stop := text.length
  pointer := place
  rest := text.drop place ++ [' ']
  inMarkup := false

structure CutAt (markup : Bool) (text : List Char) (place : Nat) (run : List Char) : Prop where
  ne_nil : run ≠ []
  run_solid : ∀ c ∈ run, solid markup c = true
  drop_eq : text.drop place = run ++ text.drop (place + run.length)
  cut_eq : cut markup (text.drop place ++ [' ']) =
    some (run, text.drop (place + run.length) ++ [' '])

section
variable {markup : Bool} {text run : List Char} {place : Nat}

theorem CutAt.add_length_le (h : CutAt markup text place run) :
    place + run.length ≤ text.length := by
  have hlength := congrArg List.length h.drop_eq
  have hpos := List.length_pos_iff.mpr h.ne_nil
  simp only [List.length_append, List.length_drop] at hlength
  omega

theorem cutAt_of_solid {c : Char} {rest : List Char} (hdrop : text.drop place = c :: rest)
    (hc : solid markup c = true) : ∃ run, CutAt markup text place run := by
  obtain ⟨run, left, hcut, htakes, hne⟩ := cut_closed rest hc
  have hleft : text.drop (place + run.length) = left :=
    drop_add_left (hdrop.trans htakes.body_eq)
  refine ⟨run, hne, htakes.run_solid, ?_, ?_⟩
  · rw [hleft, hdrop, htakes.body_eq]
  · rw [hleft, hdrop]
    exact hcut

theorem ahead_standing (markup : Bool) (h : place ≤ text.length) :
    Ahead (standing markup text place) (text.drop place) := by
  refine ⟨rfl, ?_⟩
  rw [List.length_drop]
  exact congrArg Nat.cast (Nat.add_sub_cancel' h).symm

theorem next_standing_behind {passed : List Char} (hpassed : Silent markup false passed)
    (houtside : insideAfter markup false passed = false)
    (hbody : text.drop place = passed ++ text.drop (place + passed.length))
    (hrun : CutAt markup text (place + passed.length) run) :
    (standing markup text place).next =
      (some (.untagged (String.ofList run) ((place + passed.length : Nat) : Int)),
        standing markup text (place + passed.length + run.length)) := by
  obtain ⟨c, more, rfl⟩ := List.exists_cons_of_ne_nil hrun.ne_nil
  have hdrop := hrun.drop_eq
  have hcut := hrun.cut_eq
  have hle := hrun.add_length_le
  rw [hdrop] at hcut
  rw [List.length_cons] at hle
  have hlt : ((place + passed.length : Nat) : Int) < text.length := by omega
  have hrest : (standing markup text place).rest = passed ++
      c :: (more ++ text.drop (place + passed.length + (c :: more).length) ++ [' ']) := by
    rw [standing, hbody, hdrop, List.append_assoc]
    rfl
  exact next_token hrest hpassed houtside (hrun.run_solid c List.mem_cons_self) hlt hcut

theorem next_standing (markup : Bool) (h : place ≤ text.length) :
    (standing markup text place).next.1 = none ∨
    ∃ start run, place ≤ start ∧ CutAt markup text start run ∧
      (standing markup text place).next =
        (some (.untagged (String.ofList run) start), standing markup text (start + run.length)) := by
  rcases (ahead_standing markup h).reads with ⟨-, hnone⟩ |
    ⟨passed, c, rest, _, _, hbody, -, hpassed, houtside, hc, -⟩
  · exact .inl hnone
  · have hdrop : text.drop (place + passed.length) = c :: rest := drop_add_left hbody
    obtain ⟨run, hrun⟩ := cutAt_of_solid hdrop hc
    exact .inr ⟨_, run, Nat.le_add_right _ _, hrun,
      next_standing_behind hpassed houtside (hdrop ▸ hbody) hrun⟩

theorem next_standing_here (hrun : CutAt markup text place run) :
    (standing markup text place).next =
      (some (.untagged (String.ofList run) place), standing markup text (place + run.length)) :=
  @next_standing_behind markup text run place [] (by simp [Silent, significance]) rfl rfl hrun

theorem Yields.head {o : Occurrence} {os : List Occurrence}
    (h : Yields (standing markup text place) (o :: os)) (hplace : place ≤ text.length) :
    ∃ start run, CutAt markup text start run ∧ o = .untagged (String.ofList run) start ∧
      Yields (standing markup text (start + run.length)) os := by
  cases h with
  | cut hnext hrest =>
    rcases next_standing markup hplace with hnone | ⟨start, run, -, hrun, hnext'⟩
    · rw [hnext] at hnone
      cases hnone
    · rw [hnext] at hnext'
      cases hnext'
      exact ⟨start, run, hrun, rfl, hrest⟩

/-- Each occurrence is cut at its start, and what follows it is cut from its stop on. -/
theorem Yields.split {before after : List Occurrence} {o : Occurrence}
    (h : Yields (standing markup text place) (before ++ o :: after)) (hplace : place ≤ text.length) :
    ∃ start run, CutAt markup text start run ∧ o = .untagged (String.ofList run) start ∧
      Yields (standing markup text (start + run.length)) after := by
  induction before generalizing place with
  | nil => exact h.head hplace
  | cons first before ih =>
    obtain ⟨start, run, hrun, -, hrest⟩ := h.head hplace
    exact ih hrest hrun.add_length_le

end

section
variable (text : List Char) (start : Int) (stop : Option Int) (options : Options)

theorem ofText_eq_standing
    (h : ((ofText text start stop options).pointer : Int) ≤ (ofText text start stop options).stop) :
    ofText text start stop options =
      standing options.markup (text.take (ofText text start stop options).stop.toNat)
        (ofText text start stop options).pointer := by
  have hrest := (ofText_ahead text start stop options h).rest_eq
  have hlength : (ofText text start stop options).stop ≤ text.length := bound_le _ _
  have hstop : (ofText text start stop options).stop =
      (text.take (ofText text start stop options).stop.toNat).length := by
    rw [List.length_take]
    omega
  rw [standing, ← hstop]
  exact congrArg (fun rest => { ofText text start stop options with rest := rest }) hrest

theorem ofText_yields
    (h : ((ofText text start stop options).pointer : Int) ≤ (ofText text start stop options).stop) :
    Yields (standing options.markup (text.take (ofText text start stop options).stop.toNat)
      (ofText text start stop options).pointer) (ofText text start stop options).occurrences := by
  rw [← ofText_eq_standing text start stop options h]
  exact (ofText_ahead text start stop options h).yields

theorem ofText_split {before after : List Occurrence} {o : Occurrence}
    (h : (ofText text start stop options).occurrences = before ++ o :: after) :
    ∃ place run, CutAt options.markup (text.take (ofText text start stop options).stop.toNat) place
        run ∧
      o = .untagged (String.ofList run) place ∧
      Yields (standing options.markup (text.take (ofText text start stop options).stop.toNat)
        (place + run.length)) after := by
  by_cases hbound : ((ofText text start stop options).pointer : Int) ≤
      (ofText text start stop options).stop
  · have hyields := ofText_yields text start stop options hbound
    have hplace : (ofText text start stop options).pointer ≤
        (text.take (ofText text start stop options).stop.toNat).length := by
      have hlength : (ofText text start stop options).stop ≤ text.length := bound_le _ _
      rw [List.length_take]
      omega
    rw [h] at hyields
    exact hyields.split hplace
  · rw [occurrences, take_behind (by omega)] at h
    cases before <;> cases h

end
end Concordance.Tokenizer
