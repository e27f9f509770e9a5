import Concordance.Proofs.Tokenizer.Cut

/-! Which characters of a text count, told by one pass from left to right, and what it is to cut them
from the text piece by piece. From one piece to the next no more is carried than whether the pass is
inside markup; pieces that are cut like that leave out no character that counts, and take none that
does not. -/

namespace Concordance.Tokenizer

/-- Which characters count, in one pass from left to right that begins inside markup or outside.
Neither markup counts, with the brackets around it, nor space. -/
def significance (markup : Bool) : Bool → List Char → List Bool
  | _, [] => []
  | true, c :: rest => false :: significance markup (c != '>') rest
  | false, c :: rest =>
    if markup && c == '<' then false :: significance markup true rest
    else (!isSpace c) :: significance markup false rest

def insideAfter (markup : Bool) : Bool → List Char → Bool
  | inside, [] => inside
  | true, c :: rest => insideAfter markup (c != '>') rest
  | false, c :: rest => insideAfter markup (markup && c == '<') rest

def counted (markup inside : Bool) (chars : List Char) : List Char :=
  ((chars.zip (significance markup inside chars)).filter Prod.snd).map Prod.fst

def Silent (markup inside : Bool) (chars : List Char) : Prop :=
  ∀ counts ∈ significance markup inside chars, counts = false

section
variable {markup inside : Bool} {chars : List Char}

@[simp] theorem length_significance (markup inside : Bool) (chars : List Char) :
    (significance markup inside chars).length = chars.length := by
  induction chars generalizing inside with
  | nil => cases inside <;> rfl
  | cons c rest ih =>
    cases inside with
    | true => rw [significance, List.length_cons, ih, List.length_cons]
    | false =>
      rw [significance]
      split <;> rw [List.length_cons, ih, List.length_cons]

theorem significance_append (first second : List Char) :
    significance markup inside (first ++ second) =
      significance markup inside first ++
        significance markup (insideAfter markup inside first) second := by
  induction first generalizing inside with
  | nil => cases inside <;> rfl
  | cons c rest ih =>
    cases inside with
    | true => rw [List.cons_append, significance, ih, significance, insideAfter, List.cons_append]
    | false =>
      rw [List.cons_append, significance, significance, insideAfter]
      split
      · rename_i hopens
        rw [ih, hopens, List.cons_append]
      · rename_i hopens
        rw [ih, Bool.eq_false_iff.mpr hopens, List.cons_append]

theorem counted_append (first second : List Char) :
    counted markup inside (first ++ second) =
      counted markup inside first ++ counted markup (insideAfter markup inside first) second := by
  rw [counted, significance_append, List.zip_append (length_significance _ _ _).symm,
    List.filter_append, List.map_append, counted, counted]

theorem counted_silent (h : Silent markup inside chars) : counted markup inside chars = [] := by
  rw [counted, List.map_eq_nil_iff, List.filter_eq_nil_iff]
  rintro ⟨c, counts⟩ hmem
  rw [h counts (List.of_mem_zip hmem).2]
  exact Bool.false_ne_true

theorem significance_solid (h : ∀ c ∈ chars, solid markup c = true) :
    significance markup false chars = chars.map fun _ => true := by
  induction chars with
  | nil => rfl
  | cons c rest ih =>
    obtain ⟨hc, hrest⟩ := List.forall_mem_cons.mp h
    simp only [solid, Bool.and_eq_true, Bool.not_eq_true'] at hc
    rw [significance, hc.2, hc.1, ih hrest]
    rfl

theorem insideAfter_solid (h : ∀ c ∈ chars, solid markup c = true) :
    insideAfter markup false chars = false := by
  induction chars with
  | nil => rfl
  | cons c rest ih =>
    obtain ⟨hc, hrest⟩ := List.forall_mem_cons.mp h
    simp only [solid, Bool.and_eq_true, Bool.not_eq_true'] at hc
    rw [insideAfter, hc.2, ih hrest]

theorem counted_solid (h : ∀ c ∈ chars, solid markup c = true) :
    counted markup false chars = chars := by
  rw [counted, significance_solid h]
  clear h
  induction chars with
  | nil => rfl
  | cons c rest ih => simpa using ih

end

/-- Occurrences that are cut from a body, which begins at an offset, inside markup or outside: what
stands between them does not count, and they are made of characters that do. -/
inductive Cuts (markup : Bool) : Bool → Nat → List Char → List Occurrence → Prop
  | done {inside : Bool} {offset : Nat} {body : List Char} : Silent markup inside body →
      Cuts markup inside offset body []
  | token {inside : Bool} {offset : Nat} {passed run left : List Char} {os : List Occurrence} :
      Silent markup inside passed → insideAfter markup inside passed = false → run ≠ [] →
      (∀ c ∈ run, solid markup c = true) →
      Cuts markup false (offset + passed.length + run.length) left os →
      Cuts markup inside offset (passed ++ (run ++ left))
        (.untagged (String.ofList run) ((offset + passed.length : Nat) : Int) :: os)

section
variable {markup inside : Bool} {offset : Nat} {body : List Char} {os : List Occurrence}

theorem Cuts.graphs (h : Cuts markup inside offset body os) :
    os.flatMap (fun o => o.graph.toList) = counted markup inside body := by
  induction h with
  | done hsilent => rw [counted_silent hsilent, List.flatMap_nil]
  | token hpassed houtside _ hrun _ ih =>
    rw [List.flatMap_cons, ih, counted_append, counted_silent hpassed, houtside, counted_append,
      counted_solid hrun, insideAfter_solid hrun, Occurrence.graph_untagged, String.toList_ofList,
      List.nil_append]

theorem drop_add_left {text passed run : List Char} (h : text.drop offset = passed ++ run) :
    text.drop (offset + passed.length) = run := by
  rw [← List.drop_drop, h, List.drop_left]

theorem stop_untagged_ofList (run : List Char) (start : Nat) :
    (Occurrence.untagged (String.ofList run) start).stop = ((start + run.length : Nat) : Int) := by
  rw [Occurrence.stop_untagged, String.length_ofList, Int.natCast_add]

theorem Cuts.spans (h : Cuts markup inside offset body os) {text : List Char}
    (hbody : body <+: text.drop offset) : ∀ o ∈ os, (offset : Int) ≤ o.start ∧ o.start < o.stop ∧
      o.stop ≤ offset + body.length ∧ o.graph.toList = Text.slice text o.start o.stop := by
  induction h with
  | done => simp
  | @token inside offset passed run left os _ _ hne _ _ ih =>
    obtain ⟨tail, htail⟩ := hbody
    rw [List.append_assoc, List.append_assoc] at htail
    have hrun := drop_add_left htail.symm
    have hleft := drop_add_left hrun
    have hpos := List.length_pos_iff.mpr hne
    have hsize : text.length - offset =
        passed.length + (run.length + (left.length + tail.length)) := by
      rw [← List.length_drop, ← htail]
      simp
    intro o hmem
    rcases List.mem_cons.mp hmem with rfl | hmem
    · rw [stop_untagged_ofList, Occurrence.start_untagged, Occurrence.graph_untagged,
        String.toList_ofList, Text.slice_natCast (by omega) (by omega), hrun,
        Nat.add_sub_cancel_left, List.take_left]
      simp only [List.length_append]
      exact ⟨by omega, by omega, by omega, trivial⟩
    · obtain ⟨hstart, hlt, hstop, hgraph⟩ := ih ⟨tail, hleft.symm⟩ o hmem
      simp only [List.length_append]
      exact ⟨by omega, hlt, by omega, hgraph⟩

theorem Cuts.start_le (h : Cuts markup inside offset body os) :
    ∀ o ∈ os, (offset : Int) ≤ o.start := by
  induction h with
  | done => simp
  | token _ _ _ _ _ ih =>
    intro o hmem
    rcases List.mem_cons.mp hmem with rfl | hmem
    · rw [Occurrence.start_untagged]
      omega
    · have hstart := ih o hmem
      omega

theorem Cuts.pairwise (h : Cuts markup inside offset body os) :
    os.Pairwise fun a b => a.stop ≤ b.start := by
  induction h with
  | done => exact .nil
  | token _ _ _ _ hrest ih =>
    refine List.pairwise_cons.mpr ⟨fun o hmem => ?_, ih⟩
    rw [stop_untagged_ofList]
    exact hrest.start_le o hmem

theorem Cuts.mem_iff (h : Cuts markup inside offset body os) {i : Nat} (hi : i < body.length) :
    (∃ o ∈ os, o.start ≤ ((offset + i : Nat) : Int) ∧ ((offset + i : Nat) : Int) < o.stop) ↔
      (significance markup inside body)[i]? = some true := by
  induction h generalizing i with
  | @done inside offset body hsilent =>
    constructor
    · rintro ⟨o, hmem, -⟩
      cases hmem
    · intro hcounts
      cases hsilent true (List.mem_of_getElem? hcounts)
  | @token inside offset passed run left os hpassed houtside _ hrun hrest ih =>
    simp only [List.mem_cons, exists_eq_or_imp]
    rw [stop_untagged_ofList, Occurrence.start_untagged, significance_append, houtside,
      significance_append, significance_solid hrun, insideAfter_solid hrun]
    simp only [List.length_append] at hi
    have hbehind {o : Occurrence} (hmem : o ∈ os) :
        ((offset + passed.length + run.length : Nat) : Int) ≤ o.start := hrest.start_le o hmem
    -- Before the token nothing counts, in it everything does, and behind it is what is left.
    by_cases hbefore : i < passed.length
    · rw [List.getElem?_append_left (by simpa using hbefore)]
      constructor
      · rintro (hhere | ⟨o, hmem, hstart, -⟩)
        · omega
        · have hstart' := hbehind hmem
          omega
      · intro hcounts
        cases hpassed true (List.mem_of_getElem? hcounts)
    rw [List.getElem?_append_right (by simpa using hbefore), length_significance]
    by_cases hin : i - passed.length < run.length
    · rw [List.getElem?_append_left (by simpa using hin), List.getElem?_map,
        List.getElem?_eq_getElem hin]
      exact iff_of_true (.inl (by omega)) rfl
    · rw [List.getElem?_append_right (by simpa using hin), List.length_map,
        ← ih (i := i - passed.length - run.length) (by omega)]
      have hoffset : offset + passed.length + run.length + (i - passed.length - run.length) =
          offset + i := by omega
      rw [hoffset]
      exact or_iff_right (by omega)

end
end Concordance.Tokenizer
