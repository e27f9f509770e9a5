import Concordance.Proofs.Tokenizer.Places

/-! Tokenizing taken up again. No cut depends on what stands before the place where it begins,
markup is never open there, and the header that is passed over lies before every token. Main
statement: a text is tokenized from the start or the stop of one of its tokens on as it was from the
beginning. -/

namespace Concordance.Tokenizer

section
variable {markup : Bool} {text run : List Char} {place first : Nat} {os : List Occurrence}
  {start stop : Int} {skipHeader : Bool}

theorem CutAt.yields (h : CutAt markup text place run)
    (hrest : Yields (standing markup text (place + run.length)) os) :
    Yields (standing markup text place) (.untagged (String.ofList run) place :: os) :=
  .cut (next_standing_here h) hrest

theorem firstPointer_of_le (h : firstPointer text start stop skipHeader ≤ place) :
    firstPointer text place stop skipHeader = place := by
  unfold firstPointer at *
  split at h
  · exact Nat.max_eq_left (by omega)
  · exact Int.toNat_natCast place

end

section
variable {text : List Char} {start : Int} {stop : Option Int} {options : Options} {place : Nat}
  {os : List Occurrence}

theorem ofText_occurrences_at (hfirst : (ofText text start stop options).pointer ≤ place)
    (hbound : (place : Int) ≤ (ofText text start stop options).stop)
    (h : Yields (standing options.markup
      (text.take (ofText text start stop options).stop.toNat) place) os) :
    (ofText text place stop options).occurrences = os := by
  have hpointer : (ofText text place stop options).pointer = place := firstPointer_of_le hfirst
  have hyields := ofText_yields text place stop options (by rw [hpointer]; exact hbound)
  rw [hpointer] at hyields
  exact hyields.unique h

end

/-- Tokenizing can be taken up at every boundary of a token: from where an occurrence starts, the
same options give it and all that comes after it, and from where it stops all that comes after it,
with the same offsets. -/
theorem sequence_resumes {text : String} {start : Int} {stop : Option Int} {options : Options}
    {before after : List Occurrence} {o : Occurrence}
    (h : (TokenSequence.ofText text start stop options).occurrences = before ++ o :: after) :
    TokenSequence.ofText text o.start stop options = ⟨text, o :: after⟩ ∧
      TokenSequence.ofText text o.stop stop options = ⟨text, after⟩ := by
  have hcuts := ofText_cuts text.toList start stop options
  have hlist : (ofText text.toList start stop options).occurrences = before ++ o :: after := h
  obtain ⟨place, run, hrun, rfl, hafter⟩ := ofText_split text.toList start stop options hlist
  have hfirst := hcuts.start_le _ (hlist ▸ List.mem_append_right before List.mem_cons_self)
  rw [Occurrence.start_untagged] at hfirst
  have hstop := hrun.add_length_le
  have hpos := List.length_pos_iff.mpr hrun.ne_nil
  rw [List.length_take] at hstop
  have hhere := ofText_occurrences_at (Int.ofNat_le.mp hfirst) (by omega) (hrun.yields hafter)
  have hbehind := ofText_occurrences_at (by omega) (by omega) hafter
  rw [Occurrence.start_untagged, stop_untagged_ofList]
  exact ⟨congrArg (TokenSequence.mk text) hhere, congrArg (TokenSequence.mk text) hbehind⟩

theorem resumes_at_euphonic : ∃ (text : String) (o : Occurrence) (before after : List Occurrence),
    text = "à</teiHeader> <p>qu'a-t-il <b>vu" ∧ o = .untagged "-t-" 21 ∧
    (TokenSequence.ofText text (-1) none ⟨true, true⟩).occurrences = before ++ o :: after ∧
    before.map Occurrence.graph = ["qu'", "a"] ∧ after.map Occurrence.graph = ["il", "vu"] ∧
    TokenSequence.ofText text o.start none ⟨true, true⟩ = ⟨text, o :: after⟩ ∧
    TokenSequence.ofText text o.stop none ⟨true, true⟩ = ⟨text, after⟩ := by
  have hsplit : (TokenSequence.ofText "à</teiHeader> <p>qu'a-t-il <b>vu" (-1) none
      ⟨true, true⟩).occurrences = [.untagged "qu'" 17, .untagged "a" 20] ++
        .untagged "-t-" 21 :: [.untagged "il" 24, .untagged "vu" 30] := by
    decide +kernel
  exact ⟨_, _, _, _, rfl, rfl, hsplit, rfl, rfl, sequence_resumes hsplit⟩

end Concordance.Tokenizer
