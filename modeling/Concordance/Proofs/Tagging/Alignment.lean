import Concordance.Proofs.Tagging.Tokens
import Concordance.Tokenizer.Sequence

/-! The occurrences of a text and the tokens of its analysis are aligned in one sweep over both rows.
Where both are in the order of the text, the sweep passes over no token that an occurrence could take
its tags from. Main statement: each occurrence is aligned with the first token of the whole analysis
that overlaps it, and tagged by that. -/

namespace Concordance.Analysis

/-- A token that is no white space stands on characters of an occurrence. -/
def Token.Overlaps (t : Token) (o : Occurrence) : Prop :=
  t.isSpace = false ∧ t.offset < o.stop ∧ o.start < t.stop

instance (t : Token) (o : Occurrence) : Decidable (t.Overlaps o) :=
  inferInstanceAs (Decidable (_ ∧ _))

def FirstOverlap (tokens : List Token) (o : Occurrence) (t : Token) : Prop :=
  ∃ before after, tokens = before ++ t :: after ∧ t.Overlaps o ∧ ∀ u ∈ before, ¬u.Overlaps o

section
variable {tokens : List Token} {os : List Occurrence} {o : Occurrence} {t : Token}

theorem find?_dropWhile {α : Type} {drops found : α → Bool} {items : List α}
    (h : ∀ a ∈ items, drops a = true → found a = false) :
    (items.dropWhile drops).find? found = items.find? found := by
  induction items with
  | nil => rfl
  | cons a rest ih =>
    obtain ⟨ha, hrest⟩ := List.forall_mem_cons.mp h
    cases hdrops : drops a with
    | true => rw [List.dropWhile_cons_of_pos hdrops, ih hrest, List.find?_cons, ha hdrops]
    | false => rw [List.dropWhile_cons_of_neg (Bool.eq_false_iff.mp hdrops)]

theorem first_behind (hsolid : ∀ t ∈ tokens, t.isSpace = false)
    (htokens : tokens.Pairwise fun a b => a.offset ≤ b.offset) (o : Occurrence) :
    (tokens.dropWhile fun t => t.stop ≤ o.start).head?.filter (fun t => t.offset < o.stop) =
      tokens.find? fun t => t.Overlaps o := by
  induction tokens with
  | nil => rfl
  | cons t rest ih =>
    obtain ⟨ht, hrest⟩ := List.forall_mem_cons.mp hsolid
    obtain ⟨hfirst, hsorted⟩ := List.pairwise_cons.mp htokens
    by_cases hends : t.stop ≤ o.start
    · have hnot : ¬t.Overlaps o := fun hoverlaps => Int.not_lt.mpr hends hoverlaps.2.2
      rw [List.find?_cons_of_neg (by simpa using hnot), ← ih hrest hsorted]
      simp only [List.dropWhile_cons, hends, decide_true, if_true]
    simp only [List.dropWhile_cons, hends, decide_false, Bool.false_eq_true, if_false,
      List.head?_cons, Option.filter_some, decide_eq_true_eq]
    by_cases hstarts : t.offset < o.stop
    · have hoverlaps : t.Overlaps o := ⟨ht, hstarts, Int.not_le.mp hends⟩
      rw [if_pos hstarts, List.find?_cons_of_pos (by simpa using hoverlaps)]
    · -- The tokens behind this one start no earlier, so that they lie behind the occurrence too.
      have hnone : ∀ u ∈ t :: rest, ¬(decide (u.Overlaps o)) = true := by
        intro u hu hoverlaps
        have hlt := (of_decide_eq_true hoverlaps).2.1
        rcases List.mem_cons.mp hu with rfl | hmem
        · exact hstarts hlt
        · have hle := hfirst u hmem
          omega
      rw [if_neg hstarts, List.find?_eq_none.mpr hnone]

/-- One sweep finds for each occurrence what a search of all tokens finds. -/
theorem align_eq_map (hsolid : ∀ t ∈ tokens, t.isSpace = false)
    (htokens : tokens.Pairwise fun a b => a.offset ≤ b.offset)
    (hos : os.Pairwise fun a b => a.start ≤ b.start) :
    align tokens os = os.map fun o => tokens.find? fun t => t.Overlaps o := by
  induction os generalizing tokens with
  | nil => rfl
  | cons o rest ih =>
    obtain ⟨hfirst, hrest⟩ := List.pairwise_cons.mp hos
    have hsub := List.dropWhile_sublist (l := tokens) fun t => decide (t.stop ≤ o.start)
    rw [align, List.map_cons, first_behind hsolid htokens,
      ih (fun t ht => hsolid t (hsub.subset ht)) (htokens.sublist hsub) hrest]
    refine congrArg _ (List.map_congr_left fun next hnext => find?_dropWhile fun t _ hends => ?_)
    -- What ends before one occurrence starts is of no use to those that start later.
    have hle := hfirst next hnext
    have hends' : t.stop ≤ o.start := of_decide_eq_true hends
    refine decide_eq_false fun hoverlaps => ?_
    have hlt := hoverlaps.2.2
    omega

theorem find?_overlaps_filter (tokens : List Token) (o : Occurrence) :
    ((tokens.filter fun t => !t.isSpace).find? fun t => t.Overlaps o) =
      tokens.find? fun t => t.Overlaps o := by
  rw [List.find?_filter]
  refine congrArg (List.find? · tokens) (funext fun t => decide_eq_decide.mpr ?_)
  rw [decide_eq_true_eq, and_iff_right_iff_imp]
  intro hoverlaps
  rw [hoverlaps.1, Bool.not_false]

theorem find?_overlaps_eq_some_iff :
    (tokens.find? fun t => t.Overlaps o) = some t ↔ FirstOverlap tokens o t := by
  simp only [List.find?_eq_some_iff_append, FirstOverlap, decide_eq_true_eq, Bool.not_eq_true',
    decide_eq_false_iff_not]
  constructor
  · rintro ⟨hoverlaps, before, after, hsplit, hbefore⟩
    exact ⟨before, after, hsplit, hoverlaps, hbefore⟩
  · rintro ⟨before, after, hsplit, hoverlaps, hbefore⟩
    exact ⟨hoverlaps, before, after, hsplit, hbefore⟩

theorem find?_overlaps_eq_none_iff :
    (tokens.find? fun t => t.Overlaps o) = none ↔ ∀ t ∈ tokens, ¬t.Overlaps o := by
  simp only [List.find?_eq_none, decide_eq_true_eq]

theorem align_solid (htokens : tokens.Pairwise fun a b => a.offset ≤ b.offset)
    (hos : os.Pairwise fun a b => a.start ≤ b.start) :
    align (tokens.filter fun t => !t.isSpace) os =
      os.map fun o => tokens.find? fun t => t.Overlaps o := by
  have hsolid : ∀ t ∈ tokens.filter fun t => !t.isSpace, t.isSpace = false := by
    intro t ht
    simpa using (List.mem_filter.mp ht).2
  rw [align_eq_map hsolid (htokens.filter _) hos]
  exact List.map_congr_left fun o _ => find?_overlaps_filter tokens o

theorem tag_eq_map (htokens : tokens.Pairwise fun a b => a.offset ≤ b.offset)
    (hos : os.Pairwise fun a b => a.start ≤ b.start) :
    tag tokens os = os.map fun o => tagByToken o (tokens.find? fun t => t.Overlaps o) := by
  rw [tag, align_solid htokens hos, List.zipWith_map_right, List.zipWith_self]

end

/-- In one sweep over a text and its analysis, both in order, each occurrence is aligned with the
first token of the analysis that overlaps it, if one does. The tagger gives the same occurrences,
each with the tags of its token; without one it keeps its headword, and its category is unknown. -/
theorem align_first_overlap (analyse : String → List Token) (text : String) {os : List Occurrence}
    (htokens : (analyse text).Pairwise fun a b => a.offset ≤ b.offset)
    (hos : os.Pairwise fun a b => a.start ≤ b.start) :
    let aligned := align ((analyse text).filter fun t => !t.isSpace) os
    let tagged := Tagger.tag text os (.analytic analyse)
    aligned.length = os.length ∧
    (∀ (index : Nat) (o : Occurrence), os[index]? = some o →
      (∀ t, aligned[index]? = some (some t) ↔ FirstOverlap (analyse text) o t) ∧
      (aligned[index]? = some none ↔ ∀ t ∈ analyse text, ¬t.Overlaps o)) ∧
    tagged.map (fun o => (o.graph, o.orth, o.start, o.stop)) =
      os.map (fun o => (o.graph, o.orth, o.start, o.stop)) ∧
    ∀ (index : Nat) (o : Occurrence), os[index]? = some o →
      (∀ t, FirstOverlap (analyse text) o t → tagged[index]? =
        some { o with headword := Text.lower t.headword, category := t.category }) ∧
      ((∀ t ∈ analyse text, ¬t.Overlaps o) → tagged[index]? =
        some { o with category := Category.unknown }) := by
  intro aligned tagged
  have haligned : aligned = os.map fun o => (analyse text).find? fun t => t.Overlaps o :=
    align_solid htokens hos
  have htagged : tagged =
      os.map fun o => tagByToken o ((analyse text).find? fun t => t.Overlaps o) :=
    tag_eq_map htokens hos
  refine ⟨by rw [haligned, List.length_map], fun index o ho => ?_,
    Tagger.map_text_tag (.analytic analyse) text os, fun index o ho => ?_⟩
  · simp only [haligned, List.getElem?_map, ho, Option.map_some, Option.some.injEq,
      find?_overlaps_eq_some_iff, find?_overlaps_eq_none_iff, implies_true, and_self]
  · rw [htagged, List.getElem?_map, ho, Option.map_some]
    constructor
    · intro t ht
      rw [find?_overlaps_eq_some_iff.mpr ht]
      rfl
    · intro hnone
      rw [find?_overlaps_eq_none_iff.mpr hnone]
      rfl

/-- A token that begins with the hyphen tags the hyphen and the pronoun behind it; the mark behind
the blank has no token. -/
theorem hyphen_and_pronoun_share_token : ∃ (tokens : List Token) (os tagged : List Occurrence),
    tokens = [⟨"Que", 0, "PRON", "que", [("PronType", ["Int"])], false⟩,
      ⟨"direz", 4, "VERB", "Dire", [], false⟩, ⟨"-vous", 9, "PRON", "vous", [], false⟩,
      ⟨" ", 14, "SPACE", " ", [], true⟩] ∧
    os = (TokenSequence.ofText "Que direz-vous ?" 0 none ⟨true, true⟩).occurrences ∧
    (tokens.Pairwise fun a b => a.offset ≤ b.offset) ∧
    (os.Pairwise fun a b => a.start ≤ b.start) ∧
    Tagger.tag "Que direz-vous ?" os (.analytic fun _ => tokens) = tagged ∧
    tagged.map (fun o => (o.orth, o.headword, o.category.label)) =
      [("Que", "que", "PROint"), ("direz", "dire", "VERB"), ("-", "vous", "PRO"),
        ("vous", "vous", "PRO"), ("?", "", "UNKNOWN")] ∧
    tagged.map (fun o => (o.graph, o.orth, o.start, o.stop)) =
      os.map (fun o => (o.graph, o.orth, o.start, o.stop)) ∧
    (align (tokens.filter fun t => !t.isSpace) os).length = os.length := by
  have htokens : ([⟨"Que", 0, "PRON", "que", [("PronType", ["Int"])], false⟩,
      ⟨"direz", 4, "VERB", "Dire", [], false⟩, ⟨"-vous", 9, "PRON", "vous", [], false⟩,
      ⟨" ", 14, "SPACE", " ", [], true⟩] : List Token).Pairwise fun a b => a.offset ≤ b.offset := by
    decide
  have hos : (TokenSequence.ofText "Que direz-vous ?" 0 none ⟨true, true⟩).occurrences.Pairwise
      fun a b => a.start ≤ b.start := by
    decide +kernel
  obtain ⟨hlength, -, htext, -⟩ := align_first_overlap (fun _ => _) "Que direz-vous ?" htokens hos
  exact ⟨_, _, _, rfl, rfl, htokens, hos, rfl, by decide +kernel, htext, hlength⟩

end Concordance.Analysis
