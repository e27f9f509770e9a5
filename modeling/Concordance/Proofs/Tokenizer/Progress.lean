import Concordance.Proofs.Tokenizer.Joining
import Concordance.Proofs.Tokenizer.Reads

/-! A tokenizer that is called again and again. It stands in its stored characters, or its pointer
is behind the bound and stays there. Main statement: whichever call comes next, it reads stored
characters only and does not move behind the bound; it moves on and gives the occurrence that ends
where it comes to, or it comes to the bound and changes nothing from then on. -/

namespace Concordance.Tokenizer

def afterCalls : Nat → Tokenizer → Tokenizer
  | 0, t => t
  | n + 1, t => (afterCalls n t).next.2

/-- The characters that are stored of a text: those before the end bound, and a blank. -/
def stored (text : List Char) (stop : Option Int) : List Char :=
  Text.slice text 0 (bound text.length stop) ++ [' ']

inductive Advances (t t' : Tokenizer) : Prop
  | cut {o : Occurrence} : t.next? = some (some o, t') → t.pointer < t'.pointer →
      0 < o.graph.length → o.start + o.graph.length = o.stop → o.stop = t'.pointer → Advances t t'
  /-- No call from then on gives an occurrence or changes anything. -/
  | exhausted : t.next? = some (none, t') → t.stop ≤ t'.pointer →
      (∀ n, (t'.afterCalls n).next? = some (none, t')) → Advances t t'

structure Bounded (chars : List Char) (first t : Tokenizer) : Prop where
  rest_eq : t.rest = chars.drop t.pointer
  stop_eq : t.stop = first.stop
  pointer_le : (t.pointer : Int) ≤ max (first.pointer : Int) first.stop
  reads_lt : ∀ i ∈ t.reads, i < chars.length
  advances : Advances t t.next.2

/-- A tokenizer in a body that a blank closes. Its bound is the end of the body, unless the pointer
is behind the bound. -/
structure Stands (body : List Char) (t : Tokenizer) : Prop where
  rest_eq : t.rest = (body ++ [' ']).drop t.pointer
  stop_eq : (t.pointer : Int) ≤ t.stop → t.stop = body.length

structure Moves (body : List Char) (t t' : Tokenizer) : Prop where
  advances : Advances t t'
  stands : Stands body t'
  stop_eq : t'.stop = t.stop
  pointer_le : (t'.pointer : Int) ≤ max (t.pointer : Int) t.stop

section
variable {t t' : Tokenizer} {o : Occurrence} {body left : List Char}

theorem next?_of_next (h : t.next = (some o, t')) : t.next? = some (some o, t') := by
  rw [next] at h
  cases hnext : t.next? with
  | none =>
    rw [hnext] at h
    cases h
  | some answer =>
    rw [hnext, Option.getD_some] at h
    rw [h]

theorem next_of_next? {answer : Option Occurrence} (h : t.next? = some (answer, t')) :
    t.next = (answer, t') := by rw [next, h, Option.getD_some]

theorem afterCalls_of_next? (h : t.next? = some (none, t)) (n : Nat) : t.afterCalls n = t := by
  induction n with
  | zero => rfl
  | succ n ih => rw [afterCalls, ih, next_of_next? h]

theorem Advances.next?_ne_none (h : Advances t t') : t.next? ≠ none := by
  cases h with
  | cut hnext => simp [hnext]
  | exhausted hnext => simp [hnext]

theorem advances_of_behind (hnext : t.next? = some (none, t')) (hstop : t'.stop = t.stop)
    (h : t.stop ≤ t'.pointer) : Advances t t' := by
  have hstays : t'.next? = some (none, t') := next?_behind (by rwa [hstop])
  refine .exhausted hnext h fun n => ?_
  rwa [afterCalls_of_next? hstays]

theorem Ahead.next?_of_silent (h : Ahead t body) (hsilent : Silent t.markup t.inMarkup body) :
    ∃ inside, t.next? = some (none,
      { t with pointer := t.pointer + body.length, rest := [' '], inMarkup := inside }) := by
  have hstop := h.stop_eq
  refine ⟨insideAfter t.markup t.inMarkup body, ?_⟩
  rw [next?, h.rest_eq, skip_silent hsilent (Int.le_of_eq hstop.symm),
    skip_behind (Int.le_of_eq hstop)]
  simp only [hstop, Int.lt_irrefl, if_false]

theorem Stands.ahead (h : Stands body t) (hle : (t.pointer : Int) ≤ t.stop) :
    Ahead t (body.drop t.pointer) := by
  have hstop := h.stop_eq hle
  have hpointer : t.pointer ≤ body.length := by omega
  refine ⟨?_, ?_⟩
  · rw [h.rest_eq, List.drop_append_of_le_length hpointer]
  · rw [hstop, List.length_drop, Nat.add_sub_cancel' hpointer]

theorem Ahead.stands (h : Ahead t left) (hleft : left = body.drop t.pointer)
    (hstop : t.stop = body.length) : Stands body t := by
  refine ⟨?_, fun _ => hstop⟩
  have hsize := h.stop_eq
  rw [h.rest_eq, hleft, List.drop_append_of_le_length (by omega)]

theorem Stands.moves_behind (h : Stands body t) (hbehind : t.stop ≤ t.pointer) :
    Moves body t t.next.2 := by
  have hnext := next?_behind hbehind
  rw [next_of_next? hnext]
  exact ⟨advances_of_behind hnext rfl hbehind, h, rfl, Int.le_max_left _ _⟩

theorem Stands.moves_silent (h : Stands body t) (hle : (t.pointer : Int) ≤ t.stop)
    (hsilent : Silent t.markup t.inMarkup (body.drop t.pointer)) : Moves body t t.next.2 := by
  have hstop := h.stop_eq hle
  have hsize := (h.ahead hle).stop_eq
  obtain ⟨inside, hnext⟩ := (h.ahead hle).next?_of_silent hsilent
  rw [next_of_next? hnext]
  refine ⟨advances_of_behind hnext rfl (Int.le_of_eq hsize), ⟨?_, fun _ => hstop⟩, rfl, ?_⟩
  · have hend : t.pointer + (body.drop t.pointer).length = body.length := by omega
    simp only [hend, List.drop_left]
  · exact Int.le_trans (Int.le_of_eq hsize.symm) (Int.le_max_right _ _)

theorem Stands.moves (h : Stands body t) : Moves body t t.next.2 := by
  by_cases hle : (t.pointer : Int) ≤ t.stop
  · have hsize := (h.ahead hle).stop_eq
    rcases (h.ahead hle).next with ⟨hsilent, -⟩ |
      ⟨passed, run, left, hbody, -, -, hne, -, t', hnext, -, -, hpointer, hleft⟩
    · exact h.moves_silent hle hsilent
    · have hpos := List.length_pos_iff.mpr hne
      have hend := hleft.stop_eq
      have hrest : body.drop t'.pointer = left := by
        rw [hpointer]
        exact drop_add_left (drop_add_left hbody)
      have hstop : t'.stop = t.stop := by
        rw [hend, hsize, hbody, hpointer]
        simp only [List.length_append, Nat.add_assoc]
      rw [hnext]
      dsimp only
      refine ⟨.cut (next?_of_next hnext) (by omega) ?_ rfl ?_,
        hleft.stands hrest.symm (hstop.trans (h.stop_eq hle)), hstop, by omega⟩
      · rwa [Occurrence.graph_untagged, String.length_ofList]
      · rw [stop_untagged_ofList, hpointer]
  · exact h.moves_behind (by omega)

theorem Stands.afterCalls (h : Stands body t) (n : Nat) : Stands body (t.afterCalls n) ∧
    (t.afterCalls n).stop = t.stop ∧
    ((t.afterCalls n).pointer : Int) ≤ max (t.pointer : Int) t.stop := by
  induction n with
  | zero => exact ⟨h, rfl, Int.le_max_left _ _⟩
  | succ n ih =>
    obtain ⟨hstands, hstop, hpointer⟩ := ih
    have hmoves := hstands.moves
    have hlater := hmoves.pointer_le
    rw [hstop] at hlater
    exact ⟨hmoves.stands, hmoves.stop_eq.trans hstop, by rw [Tokenizer.afterCalls]; omega⟩

theorem reads_behind (h : t.stop ≤ t.pointer) : t.reads = [] := by
  have hlt : ¬(t.pointer : Int) < t.stop := Int.not_lt.mpr h
  have hpassed : skipReads t.markup t.stop t.pointer t.inMarkup t.rest = [] := by
    cases t.rest <;> rw [skipReads, if_neg hlt]
  rw [reads, skip_behind h, hpassed]
  simp only [hlt, if_false, List.append_nil]

theorem Stands.reads_lt (h : Stands body t) : ∀ i ∈ t.reads, i < (body ++ [' ']).length := by
  intro i hi
  by_cases hle : (t.pointer : Int) ≤ t.stop
  · have hanswers := h.moves.advances.next?_ne_none
    rw [ne_eq, next?_eq_none_iff] at hanswers
    have hlt : i < t.pointer + t.rest.length :=
      Nat.lt_of_not_le fun hmiss => hanswers ⟨i, hi, hmiss⟩
    have hpointer : t.pointer ≤ body.length := by
      have hstop := h.stop_eq hle
      omega
    rw [h.rest_eq, List.length_drop] at hlt
    simp only [List.length_append, List.length_singleton] at hlt ⊢
    omega
  · rw [reads_behind (by omega)] at hi
    cases hi

end

section
variable (text : List Char) (start : Int) (stop : Option Int) (options : Options)

theorem ofText_stands : Stands (Text.slice text 0 (bound text.length stop))
    (ofText text start stop options) := by
  refine ⟨rfl, fun hle => ?_⟩
  have hahead := ofText_ahead text start stop options hle
  have hsize := congrArg List.length hahead.rest_eq
  have hrest : (ofText text start stop options).rest =
      (Text.slice text 0 (bound text.length stop) ++ [' ']).drop
        (ofText text start stop options).pointer := rfl
  simp only [hrest, List.length_drop, List.length_append, List.length_singleton] at hsize
  rw [hahead.stop_eq]
  omega

/-- However often a tokenizer has been called, its next call reads none but stored characters, and
its pointer is not behind the bound, unless it was so at the beginning. The call cuts an occurrence
of a character or more and moves on to its end, or it comes to the bound, and every call after it
gives none and changes nothing. -/
theorem calls_bounded (n : Nat) : Bounded (stored text stop) (ofText text start stop options)
    ((ofText text start stop options).afterCalls n) := by
  obtain ⟨hstands, hstop, hpointer⟩ := (ofText_stands text start stop options).afterCalls n
  exact ⟨hstands.rest_eq, hstop, hpointer, hstands.reads_lt, hstands.moves.advances⟩

end
end Concordance.Tokenizer
