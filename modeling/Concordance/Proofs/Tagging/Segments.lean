import Concordance.Proofs.Lexicon.Runs
import Concordance.Proofs.Tagging.Tokens
import Concordance.Tokenizer.Sequence

/-! A lexicon tags a row of occurrences segment by segment, from left to right. Where the forms spell
an entry, the segment is all that the longest one spans; elsewhere it is a single occurrence, which
its first character tags. Main statement: what the tagger gives is made of these segments, each
occurrence in one of them and otherwise unchanged. -/

namespace Concordance.Tagging

/-- The longest entry that the forms of a row spell from an index on, where no punctuation stands. -/
def Locution (lexicon : Option Lexicon) (os : List Occurrence) (index stop : Nat)
    (entry : Lexicon.Entry) : Prop :=
  ∃ known ∈ lexicon, (∃ o ∈ os[index]?, ∃ first ∈ o.orth.toList.head?,
      Tokenizer.isPunctuation first = false) ∧
    known.longestAt (os.map Occurrence.orth) index = .ok (some ((stop : Int), entry))

/-- The tagged occurrences of a row from an index on, in segments up to its end. -/
inductive Segments (lexicon : Option Lexicon) (os : List Occurrence) :
    Nat → List Occurrence → Prop
  | done : Segments lexicon os os.length []
  | locution {index stop : Nat} {entry : Lexicon.Entry} {tagged : List Occurrence} :
      Locution lexicon os index stop entry → index < stop → stop ≤ os.length →
      Segments lexicon os stop tagged →
      Segments lexicon os index (((os.take stop).drop index).map (fun o =>
        { o with headword := entry.headword, category := entry.category }) ++ tagged)
  | single {index : Nat} {o o' : Occurrence} {tagged : List Occurrence} : os[index]? = some o →
      (∀ stop entry, ¬Locution lexicon os index stop entry) → TaggedByCharacter o o' →
      Segments lexicon os (index + 1) tagged → Segments lexicon os index (o' :: tagged)

section
variable {lexicon : Option Lexicon} {os rest : List Occurrence} {o : Occurrence} {n index stop : Nat}
  {entry : Lexicon.Entry}

theorem tagFrom_left (lexicon : Option Lexicon) (n : Nat) (entry : Lexicon.Entry)
    (os : List Occurrence) : tagFrom lexicon n entry os =
      (os.take n).map (tagByEntry entry) ++ tagFrom lexicon 0 entry (os.drop n) := by
  induction os generalizing n with
  | nil => simp [tagFrom]
  | cons o rest ih =>
    cases n with
    | zero => rfl
    | succ n =>
      rw [tagFrom, ih, List.take_succ_cons, List.map_cons, List.drop_succ_cons, List.cons_append]

theorem tagFrom_zero (lexicon : Option Lexicon) (entry : Lexicon.Entry) (os : List Occurrence) :
    tagFrom lexicon 0 entry os = tagByLexicon lexicon os := by
  rw [tagByLexicon]
  induction os with
  | nil => rfl
  | cons o rest ih =>
    simp only [tagFrom, ih]

theorem tagByLexicon_locution (h : longestRun? lexicon os = some (n + 1, entry)) :
    tagByLexicon lexicon os = (os.take (n + 1)).map (tagByEntry entry) ++
      tagByLexicon lexicon (os.drop (n + 1)) := by
  cases os with
  | nil => cases lexicon <;> cases h
  | cons o rest =>
    rw [tagByLexicon, tagFrom]
    simp only [h]
    rw [tagFrom_left, tagFrom_zero]
    rfl

theorem tagByLexicon_single (h : longestRun? lexicon (o :: rest) = none) :
    tagByLexicon lexicon (o :: rest) = tagByCharacter o :: tagByLexicon lexicon rest := by
  rw [tagByLexicon, tagFrom]
  simp only [h]
  rw [tagFrom_zero]

theorem bounds_of_longestRun? (h : longestRun? lexicon os = some (n, entry)) :
    0 < n ∧ n ≤ os.length := by
  unfold longestRun? at h
  split at h
  · split at h
    · cases h
    · exact Lexicon.bounds_of_longestRunOf? h
  · cases h

theorem longestRun?_drop (known : Lexicon) (ho : os[index]? = some o) :
    longestRun? (some known) (os.drop index) =
      if startsWithPunctuation o then none
      else known.longestRunOf? Occurrence.orth (os.drop index) := by
  obtain ⟨hindex, rfl⟩ := List.getElem?_eq_some_iff.mp ho
  rw [List.drop_eq_getElem_cons hindex]
  rfl

theorem startsWithPunctuation_eq_false_iff (hne : o.orth ≠ "") :
    startsWithPunctuation o = false ↔
      ∃ first ∈ o.orth.toList.head?, Tokenizer.isPunctuation first = false := by
  rw [startsWithPunctuation]
  cases htext : o.orth.toList with
  | nil => exact absurd (String.toList_eq_nil_iff.mp htext) hne
  | cons first rest => simp

theorem locution_iff (ho : os[index]? = some o) (hne : o.orth ≠ "") :
    Locution lexicon os index stop entry ↔
      ∃ n, stop = index + n ∧ longestRun? lexicon (os.drop index) = some (n, entry) := by
  cases lexicon with
  | none => simp [Locution, longestRun?]
  | some known =>
    have hle : index ≤ os.length := Nat.le_of_lt (List.getElem?_eq_some_iff.mp ho).1
    rw [longestRun?_drop known ho]
    simp only [Locution, Option.mem_some_iff, exists_eq_left', ho,
      ← startsWithPunctuation_eq_false_iff hne, Lexicon.longestAt_eq known Occurrence.orth hle,
      Except.ok.injEq, Option.map_eq_some_iff, Prod.exists, Prod.mk.injEq]
    cases hstarts : startsWithPunctuation o with
    | true => simp
    | false =>
      simp only [true_and, Bool.false_eq_true, if_false]
      constructor
      · rintro ⟨n, _, hfound, hstop, rfl⟩
        exact ⟨n, by omega, hfound⟩
      · rintro ⟨n, rfl, hfound⟩
        exact ⟨n, entry, hfound, rfl, rfl⟩

theorem segments_drop (lexicon : Option Lexicon) (hne : ∀ o ∈ os, o.orth ≠ "")
    (hle : index ≤ os.length) : Segments lexicon os index (tagByLexicon lexicon (os.drop index)) := by
  -- The segments are of any length, so the induction is on what is left of the row.
  induction hleft : os.length - index using Nat.strongRecOn generalizing index with
  | ind left ih =>
    rcases Nat.eq_or_lt_of_le hle with rfl | hlt
    · rw [List.drop_length]
      exact .done
    have ho := List.getElem?_eq_getElem hlt
    have hdrop := List.drop_eq_getElem_cons hlt
    have hiff (stop : Nat) (entry : Lexicon.Entry) : Locution lexicon os index stop entry ↔
        ∃ n, stop = index + n ∧ longestRun? lexicon (os.drop index) = some (n, entry) :=
      locution_iff ho (hne _ (List.getElem_mem hlt))
    cases hlongest : longestRun? lexicon (os.drop index) with
    | none =>
      have hnone (stop : Nat) (entry : Lexicon.Entry) : ¬Locution lexicon os index stop entry := by
        rw [hiff, hlongest]
        rintro ⟨n, -, hfound⟩
        cases hfound
      rw [hdrop] at hlongest ⊢
      rw [tagByLexicon_single hlongest]
      exact .single ho hnone (taggedByCharacter _) (ih _ (by omega) hlt rfl)
    | some found =>
      obtain ⟨n, entry⟩ := found
      obtain ⟨hpos, hn⟩ := bounds_of_longestRun? hlongest
      rw [List.length_drop] at hn
      have hlocution := (hiff (index + n) entry).mpr ⟨n, rfl, hlongest⟩
      have htake : (os.drop index).take n = (os.take (index + n)).drop index := by
        rw [List.drop_take, Nat.add_sub_cancel_left]
      obtain ⟨m, rfl⟩ := Nat.exists_eq_succ_of_ne_zero (Nat.ne_of_gt hpos)
      rw [tagByLexicon_locution hlongest, htake, List.drop_drop]
      exact .locution hlocution (by omega) (by omega) (ih _ (by omega) (by omega) rfl)

end

/-- A tagger by a lexicon sets the tags and nothing else, of each occurrence once: segment by segment
from left to right, each occurrence of a locution gets the headword and the category of its entry, and
any other those of its first character. -/
theorem tag_segments (lexicon : Option Lexicon) (text : String) {os : List Occurrence}
    (hne : ∀ o ∈ os, o.orth ≠ "") :
    let tagged := Tagger.tag text os (.lexical lexicon)
    tagged.map (fun o => (o.graph, o.orth, o.start, o.stop)) =
      os.map (fun o => (o.graph, o.orth, o.start, o.stop)) ∧
    Segments lexicon os 0 tagged :=
  ⟨Tagger.map_text_tag (.lexical lexicon) text os, segments_drop lexicon hne (Nat.zero_le _)⟩

/-- A locution goes on over a comma, and the one that its last word begins is not found. -/
theorem segments_across_comma : ∃ (lexicon : Lexicon) (os tagged : List Occurrence),
    lexicon = (Lexicon.empty false).addEach
      [("oui, mais", "", .name "CONJcoord"), ("mais non", "", .name "EXCL"),
        ("non", "", .name "ADVneg")] ∧
    os = (TokenSequence.ofText "Oui, mais non !" 0 none ⟨true, true⟩).occurrences ∧
    (∀ o ∈ os, o.orth ≠ "") ∧
    Tagger.tag "Oui, mais non !" os (.lexical (some lexicon)) = tagged ∧
    tagged.map (fun o => (o.headword, o.category.label)) = [("oui , mais", "CONJcoord"),
      ("oui , mais", "CONJcoord"), ("oui , mais", "CONJcoord"), ("non", "ADVneg"),
      ("!", "PUNsent")] ∧
    tagged.map (fun o => (o.graph, o.orth, o.start, o.stop)) =
      os.map (fun o => (o.graph, o.orth, o.start, o.stop)) ∧
    Segments (some lexicon) os 0 tagged := by
  have hne : ∀ o ∈ (TokenSequence.ofText "Oui, mais non !" 0 none ⟨true, true⟩).occurrences,
      o.orth ≠ "" := by
    decide +kernel
  obtain ⟨htext, hsegments⟩ := tag_segments (some ((Lexicon.empty false).addEach
    [("oui, mais", "", .name "CONJcoord"), ("mais non", "", .name "EXCL"),
      ("non", "", .name "ADVneg")])) "Oui, mais non !" hne
  exact ⟨_, _, _, rfl, rfl, hne, rfl, by decide +kernel, htext, hsegments⟩

end Concordance.Tagging
