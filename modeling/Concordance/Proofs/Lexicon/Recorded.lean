import Concordance.Proofs.Lexicon.Runs
import Concordance.Proofs.Text.Lowering
import Concordance.Proofs.Text.Trimming
import Concordance.Proofs.Tokenizer.Alone

/-! Entries under the form that is recorded in them: their tokens with a blank between each two. The
blanks end what the tokenizer reads ahead, so that it cuts this form token by token. Main statement:
an entry is found under its recorded form, and put in its place again, exactly if none of its tokens
ends in a hyphen and an enclitic. -/

namespace Concordance.Lexicon

open Tokenizer

theorem length_le_flatMap {α : Type} {f : α → List α} {xs : List α} (hne : ∀ x ∈ xs, f x ≠ []) :
    xs.length ≤ (xs.flatMap f).length := by
  induction xs with
  | nil => exact Nat.zero_le _
  | cons x xs ih =>
    obtain ⟨hx, hxs⟩ := List.forall_mem_cons.mp hne
    have hpos := List.length_pos_iff.mpr hx
    have hle := ih hxs
    rw [List.flatMap_cons, List.length_append, List.length_cons]
    omega

theorem length_eq_one_of_flatMap {α : Type} {f : α → List α} {xs : List α}
    (hne : ∀ x ∈ xs, f x ≠ []) (h : (xs.flatMap f).length = xs.length) :
    ∀ x ∈ xs, (f x).length = 1 := by
  induction xs with
  | nil => simp
  | cons x xs ih =>
    obtain ⟨hx, hxs⟩ := List.forall_mem_cons.mp hne
    have hpos := List.length_pos_iff.mpr hx
    have hle := length_le_flatMap hxs
    rw [List.flatMap_cons, List.length_append, List.length_cons] at h
    exact List.forall_mem_cons.mpr ⟨by omega, ih hxs (by omega)⟩

theorem flatMap_eq_self {α : Type} {f : α → List α} {xs : List α} (h : ∀ x ∈ xs, f x = [x]) :
    xs.flatMap f = xs := by
  rw [List.flatMap_congr h, List.flatMap_singleton']

section Tokens
variable {markup : Bool} {text token : String} {chars run : List Char} {place : Nat}
  {os : List Occurrence} {row : List String}

theorem orth_untagged_ofList (run : List Char) (start : Int) :
    (Occurrence.untagged (String.ofList run) start).orth = String.ofList (formed run) := by
  rw [← String.toList_inj, toList_orth_untagged, String.toList_ofList]

theorem yields_tokens (text : String) : ∃ os, Yields (standing false text.toList 0) os ∧
    tokens text = os.map Occurrence.orth := by
  have hwhole : ofText text.toList 0 none .plain = standing false text.toList 0 :=
    ofText_whole false text.toList
  exact ⟨_, hwhole ▸ (ahead_whole false text.toList).yields, rfl⟩

theorem cutAt_of_mem_tokens (h : token ∈ tokens text) : ∃ place run,
    CutAt false text.toList place run ∧ token = String.ofList (formed run) := by
  obtain ⟨os, hyields, htokens⟩ := yields_tokens text
  rw [htokens] at h
  obtain ⟨o, hmem, rfl⟩ := List.mem_map.mp h
  obtain ⟨before, after, rfl⟩ := List.append_of_mem hmem
  obtain ⟨place, run, hrun, rfl, -⟩ := hyields.split (Nat.zero_le _)
  exact ⟨place, run, hrun, orth_untagged_ofList run place⟩

theorem tokens_append_blank (first second : String) :
    tokens (first ++ " " ++ second) = tokens first ++ tokens second := by
  have htext : (first ++ " " ++ second).toList = first.toList ++ ' ' :: second.toList := by simp
  have hfirst := ahead_whole false first.toList
  have hsecond := (ahead_whole false second.toList).yields.shift (first.toList.length + 1)
  rw [← behind_whole] at hsecond
  have hboth := hfirst.yields.followedBy hfirst (insideAfter_without_markup _) hsecond
  rw [followedBy_whole, ← htext] at hboth
  have hos := (ahead_whole false (first ++ " " ++ second).toList).yields.unique hboth
  have hforms := congrArg (List.map Occurrence.orth) hos
  rw [List.map_append, List.map_map] at hforms
  exact hforms

theorem tokens_intercalate (row : List String) :
    tokens (" ".intercalate row) = row.flatMap tokens := by
  induction row with
  | nil => decide +kernel
  | cons token rest ih =>
    cases rest with
    | nil => rw [String.intercalate_singleton, List.flatMap_singleton]
    | cons next rest =>
      rw [String.intercalate_cons_cons, tokens_append_blank, ih]
      exact List.flatMap_cons.symm

theorem eq_nil_iff_of_solid (h : Yields (standing markup chars place) os)
    (hsolid : ∀ c ∈ chars, solid markup c = true) (hplace : place ≤ chars.length) :
    os = [] ↔ place = chars.length := by
  constructor
  · rintro rfl
    by_contra hne
    have hlt : place < chars.length := Nat.lt_of_le_of_ne hplace hne
    obtain ⟨run, hrun⟩ := cutAt_of_solid (List.drop_eq_getElem_cons hlt)
      (hsolid _ (List.getElem_mem hlt))
    cases h with
    | done hnext =>
      rw [next_standing_here hrun] at hnext
      cases hnext
  · rintro rfl
    cases h with
    | done => rfl
    | cut hnext _ =>
      rcases next_standing markup hplace with hnone | ⟨start, run, hstart, hrun, -⟩
      · rw [hnext] at hnone
        cases hnone
      · have hle := hrun.add_length_le
        have hpos := List.length_pos_iff.mpr hrun.ne_nil
        omega

theorem tokens_of_token (h : token ∈ tokens text) : tokens token ≠ [] ∧
    ((tokens token).length = 1 → ¬EndsInEnclitic token.toList) ∧
    (¬EndsInEnclitic token.toList → tokens token = [token]) := by
  obtain ⟨place, run, hrun, rfl⟩ := cutAt_of_mem_tokens h
  obtain ⟨again, hagain⟩ := hrun.exists_formed
  obtain ⟨os, hyields, htokens⟩ := yields_tokens (String.ofList (formed run))
  rw [String.toList_ofList] at hyields ⊢
  cases hyields with
  | done hnext =>
    rw [next_standing_here hagain] at hnext
    cases hnext
  | @cut _ _ _ os hnext hrest =>
    rw [next_standing_here hagain] at hnext
    cases hnext
    have hend := eq_nil_iff_of_solid hrest (solid_formed hrun.run_solid) hagain.add_length_le
    rw [Nat.zero_add] at hend
    rw [htokens, List.map_cons, orth_untagged_ofList]
    refine ⟨List.cons_ne_nil _ _, fun hone => ?_, fun hends => ?_⟩
    · rw [List.length_cons, Nat.add_eq_right, List.length_map, List.length_eq_zero_iff] at hone
      have hwhole : again = formed run := hagain.eq_of_length (hend.mp hone)
      exact hrun.alone_iff.mp (hwhole ▸ hagain)
    · have hwhole := hrun.whole_formed hagain hends
      rw [hend.mpr (congrArg List.length hwhole), hwhole, formed_formed]
      rfl

theorem blank_not_mem_token (h : token ∈ tokens text) : ' ' ∉ token.toList := by
  obtain ⟨place, run, hrun, rfl⟩ := cutAt_of_mem_tokens h
  rw [String.toList_ofList]
  intro hmem
  exact absurd (solid_formed hrun.run_solid _ hmem) (by decide)

theorem forall_mem_token {P : Char → Prop} (h : token ∈ tokens text) (hplain : P '\x27')
    (htext : ∀ c ∈ text.toList, P c) : ∀ c ∈ token.toList, P c := by
  obtain ⟨place, run, hrun, rfl⟩ := cutAt_of_mem_tokens h
  rw [String.toList_ofList]
  intro c hc
  obtain ⟨d, hd, rfl⟩ := List.mem_map.mp hc
  split
  · exact hplain
  · refine htext d (List.mem_of_mem_drop (i := place) ?_)
    rw [hrun.drop_eq]
    exact List.mem_append_left _ hd

end Tokens

theorem intercalate_blank_inj {row other : List String} (hrow : ∀ token ∈ row, ' ' ∉ token.toList)
    (hother : ∀ token ∈ other, ' ' ∉ token.toList) (hrow_ne : row ≠ []) (hother_ne : other ≠ [])
    (h : " ".intercalate row = " ".intercalate other) : row = other := by
  have hsplit {row : List String} (hrow : ∀ token ∈ row, ' ' ∉ token.toList) (hne : row ≠ []) :
      (" ".intercalate row).toList.splitOn ' ' = row.map String.toList := by
    rw [String.toList_intercalate]
    exact List.splitOn_intercalate ' ' (List.forall_mem_map.mpr hrow)
      (mt List.map_eq_nil_iff.mp hne)
  apply List.map_injective_iff.mpr fun _ _ => String.toList_inj.mp
  rw [← hsplit hrow hrow_ne, h, hsplit hother hother_ne]

section
variable {caseInsensitive : Bool} {calls : List Call} {lexicon : Lexicon} {row : List String}
  {entry : Entry}

theorem tokens_of_mem_rows (h : row ∈ rows caseInsensitive calls) :
    row ≠ [] ∧ ∃ text, row = tokens text ∧
      (caseInsensitive = true → ∀ c ∈ text.toList, Text.Settled c) := by
  obtain ⟨entered, hmem, rfl⟩ := List.mem_map.mp h
  obtain ⟨call, -, henters⟩ := List.mem_filterMap.mp hmem
  obtain ⟨category, -, hrow, hne, -⟩ := Call.enters?_eq_some henters
  refine ⟨hne, _, hrow.symm, ?_⟩
  rintro rfl
  exact Text.settled_lower call.1

theorem blank_not_mem_of_mem_rows (h : row ∈ rows caseInsensitive calls) :
    ∀ token ∈ row, ' ' ∉ token.toList := by
  obtain ⟨-, text, rfl, -⟩ := tokens_of_mem_rows h
  exact fun token hmem => blank_not_mem_token hmem

theorem form_of_stored? (h : stored? caseInsensitive calls row = some entry) :
    row ∈ rows caseInsensitive calls ∧ entry.form = " ".intercalate row := by
  refine ⟨isSome_stored?_iff.mp (h ▸ rfl), ?_⟩
  obtain ⟨call, -, hentry⟩ := List.exists_of_findSome?_eq_some h
  obtain ⟨entered, henters, hat⟩ := Option.bind_eq_some_iff.mp hentry
  rw [Option.ite_none_right_eq_some] at hat
  obtain ⟨rfl, hat⟩ := hat
  cases hat
  obtain ⟨category, -, -, -, hform⟩ := Call.enters?_eq_some henters
  rw [hform]

theorem eq_of_stored? {other : List String} (h : stored? caseInsensitive calls row = some entry)
    (hother : stored? caseInsensitive calls other = some entry) : other = row := by
  obtain ⟨hrow, hform⟩ := form_of_stored? h
  obtain ⟨hother, hform'⟩ := form_of_stored? hother
  exact intercalate_blank_inj (blank_not_mem_of_mem_rows hother) (blank_not_mem_of_mem_rows hrow)
    (tokens_of_mem_rows hother).1 (tokens_of_mem_rows hrow).1 (hform'.symm.trans hform)

theorem readRow_of_mem_rows (h : row ∈ rows caseInsensitive calls) :
    readRow caseInsensitive calls row = row := by
  obtain ⟨hne, text, hrow, hsettled⟩ := tokens_of_mem_rows h
  obtain ⟨first, rest, rfl⟩ := List.exists_cons_of_ne_nil hne
  cases caseInsensitive with
  | false =>
    have hfirst : first ∈ firstTokens false calls := mem_firstTokens_iff.mpr ⟨rest, h⟩
    simp [readRow, readFirst, hfirst]
  | true =>
    have hlower : ∀ token ∈ first :: rest, Text.lower token = token := fun token hmem =>
      Text.lower_eq_self
        (forall_mem_token (hrow ▸ hmem) Text.settled_apostrophe (hsettled rfl))
    obtain ⟨hfirst, hrest⟩ := List.forall_mem_cons.mp hlower
    rw [readRow, readFirst, if_pos (.inl rfl), hfirst, if_pos rfl, List.map_congr_left hrest,
      List.map_id']

theorem Holds.mem_runs_whole (h : Holds caseInsensitive calls lexicon) {forms : List String} :
    (forms.length, entry) ∈ lexicon.runs forms ↔ forms ≠ [] ∧
      stored? caseInsensitive calls (readRow caseInsensitive calls forms) = some entry := by
  rw [h.mem_runs_iff, List.take_length, ← List.length_pos_iff]
  exact and_congr_right fun _ => and_iff_right (Nat.le_refl _)

theorem Holds.longestAt_whole (h : Holds caseInsensitive calls lexicon) (forms : List String) :
    lexicon.longestAt forms 0 = .ok (some (forms.length, entry)) ↔ forms ≠ [] ∧
      stored? caseInsensitive calls (readRow caseInsensitive calls forms) = some entry := by
  have hlongest := longestAt_eq lexicon id (Nat.zero_le forms.length)
  rw [List.map_id, List.drop_zero, longestRunOf?, runsOf_eq, List.map_id] at hlongest
  have hgreatest : (lexicon.runs forms).getLast? = some (forms.length, entry) ↔ _ :=
    getLast?_eq_some_iff_greatest (h.pairwise_runs forms)
  rw [← h.mem_runs_whole]
  constructor
  · intro hwhole
    obtain ⟨⟨n, e⟩, hlast, heq⟩ :=
      Option.map_eq_some_iff.mp (Except.ok.inj (hlongest.symm.trans hwhole))
    simp only [Nat.zero_add, Prod.mk.injEq, Int.natCast_inj] at heq
    obtain ⟨rfl, rfl⟩ := heq
    exact (hgreatest.mp hlast).1
  · intro hmem
    have hlast := hgreatest.mpr ⟨hmem, fun other hother => (h.mem_runs_iff.mp hother).2.1⟩
    refine hlongest.trans ?_
    rw [hlast, Option.map_some]
    simp only [Nat.zero_add]

/-- The recorded form is cut into the row again if no token ends in an enclitic, and into more tokens
otherwise. -/
theorem recut_row (h : row ∈ rows caseInsensitive calls) :
    ((tokens (" ".intercalate row)).length = row.length →
      ∀ token ∈ row, ¬EndsInEnclitic token.toList) ∧
    ((∀ token ∈ row, ¬EndsInEnclitic token.toList) → tokens (" ".intercalate row) = row) := by
  obtain ⟨-, text, rfl, -⟩ := tokens_of_mem_rows h
  rw [tokens_intercalate]
  refine ⟨fun hlength token hmem => ?_, fun hends => ?_⟩
  · have hone := length_eq_one_of_flatMap (fun token hmem => (tokens_of_token hmem).1) hlength
    exact (tokens_of_token hmem).2.1 (hone token hmem)
  · exact flatMap_eq_self fun token hmem => (tokens_of_token hmem).2.2 (hends token hmem)

theorem rowOf_recorded (h : row ∈ rows caseInsensitive calls) :
    rowOf caseInsensitive (" ".intercalate row) = tokens (" ".intercalate row) := by
  cases caseInsensitive with
  | false => rfl
  | true =>
    obtain ⟨-, text, hrow, hsettled⟩ := tokens_of_mem_rows h
    refine congrArg tokens (Text.lower_eq_self fun c hc => ?_)
    rw [String.toList_intercalate] at hc
    rcases mem_of_mem_intercalate hc with hblank | ⟨token, htoken, hc⟩
    · cases List.mem_singleton.mp hblank
      decide +kernel
    · obtain ⟨token, hmem, rfl⟩ := List.mem_map.mp htoken
      exact forall_mem_token (hrow ▸ hmem) Text.settled_apostrophe (hsettled rfl) c hc

end

/-- An entry is found as the longest under the form that is recorded in it exactly if none of its
tokens ends in a hyphen and an enclitic. That form is then cut into the same tokens, and adding it
again puts the new entry in place of the old and no other. -/
theorem found_under_recorded_form (caseInsensitive : Bool) (calls : List Call) {row : List String}
    {entry : Entry}
    (h : ((empty caseInsensitive).addEach calls).forest.lookup? row = some entry) :
    let lexicon := (empty caseInsensitive).addEach calls
    let forms := tokens entry.form
    (lexicon.longestAt forms 0 = .ok (some (forms.length, entry)) ↔
      ∀ token ∈ row, ¬EndsInEnclitic token.toList) ∧
    (forms = row ↔ ∀ token ∈ row, ¬EndsInEnclitic token.toList) ∧
    ((∀ token ∈ row, ¬EndsInEnclitic token.toList) → ∀ (headword : String) (tag : Tag) c,
      tag.code? = some c → ∃ again, lexicon.add entry.form headword tag = .ok again ∧
        again.size = lexicon.size ∧
        ∀ other ≠ [], again.forest.lookup? other =
          if other = row then
            some ⟨entry.form, if headword = "" then entry.form else headword, c⟩
          else lexicon.forest.lookup? other) := by
  intro lexicon forms
  have hholds : Holds caseInsensitive calls lexicon := holds_addEach caseInsensitive calls
  have hrow_ne : row ≠ [] := by
    rintro rfl
    cases h
  have hstored : stored? caseInsensitive calls row = some entry :=
    (hholds.entry row hrow_ne).symm.trans h
  obtain ⟨hrow, hform⟩ := form_of_stored? hstored
  obtain ⟨hlength, hsame⟩ := recut_row hrow
  rw [← hform] at hlength hsame
  refine ⟨?_, ⟨fun heq => hlength (congrArg List.length heq), hsame⟩, fun hends => ?_⟩
  · rw [hholds.longestAt_whole]
    constructor
    · rintro ⟨-, hread⟩
      exact hlength (by rw [← length_readRow forms, eq_of_stored? hstored hread])
    · intro hends
      rw [show forms = row from hsame hends, readRow_of_mem_rows hrow]
      exact ⟨hrow_ne, hstored⟩
  · intro headword tag c hcode
    have hentered : rowOf caseInsensitive entry.form = row := by
      rw [hform, rowOf_recorded hrow, ← hform, hsame hends]
    have henters : Call.enters? lexicon.caseInsensitive (entry.form, headword, tag) = some (row,
        ⟨entry.form, if headword = "" then entry.form else headword, c⟩) := by
      rw [hholds.cased]
      simp only [Call.enters?, hcode, hentered, hrow_ne, if_false, ← hform]
    refine ⟨_, add_of_enters henters, ?_, fun other hother => ?_⟩
    · have hknown : (lexicon.forest.lookup? row).isSome = true := h ▸ rfl
      rw [put, hknown, if_pos rfl]
    · simp only [put, Forest.lookup?_insert _ _ row other hrow_ne, eq_comm]

theorem found_under_form_of_hearsay : ∃ (lexicon : Lexicon) (row : List String) (entry : Entry),
    lexicon = (empty true).addEach [("Qu'en dira-t-on", "", .name "SUBm")] ∧
    row = ["qu'", "en", "dira", "-t-", "on"] ∧ lexicon.forest.lookup? row = some entry ∧
    entry.form = "qu' en dira -t- on" ∧ tokens entry.form = row ∧
    lexicon.longestAt (tokens entry.form) 0 = .ok (some ((tokens entry.form).length, entry)) ∧
    ∃ again, lexicon.add entry.form "rumeur" (.code 0x20) = .ok again ∧
      again.size = lexicon.size := by
  let row := ["qu'", "en", "dira", "-t-", "on"]
  have hentry : ((empty true).addEach [("Qu'en dira-t-on", "", .name "SUBm")]).forest.lookup? row =
      some ⟨"qu' en dira -t- on", "qu' en dira -t- on", 0x21⟩ := by
    decide +kernel
  have hends : ∀ token ∈ row, ¬EndsInEnclitic token.toList := by decide +kernel
  obtain ⟨hlongest, hsame, hadd⟩ := found_under_recorded_form true _ hentry
  obtain ⟨again, hagain, hsize, -⟩ := hadd hends "rumeur" (.code 0x20) 0x20 rfl
  exact ⟨_, row, _, rfl, rfl, hentry, rfl, hsame.mpr hends, hlongest.mpr hends, again, hagain, hsize⟩

/-- Before another pronoun, a pronoun stays in the token of its verb. With a blank behind it, it is
detached: the entry is not found under its recorded form, which is entered in another place. -/
theorem recorded_form_detached : ∃ (lexicon : Lexicon) (row : List String) (entry : Entry),
    lexicon = (empty false).addEach [("rends-le-moi", "", .name "VERB")] ∧
    lexicon.forest.lookup? row = some entry ∧ row = ["rends-le", "-", "moi"] ∧
    entry.form = "rends-le - moi" ∧ tokens entry.form = ["rends", "-", "le", "-", "moi"] ∧
    lexicon.longestAt (tokens entry.form) 0 = .ok none ∧
    ∃ again, lexicon.add entry.form "" (.name "VERB") = .ok again ∧ lexicon.size = 1 ∧
      again.size = 2 := by
  refine ⟨_, ["rends-le", "-", "moi"], ⟨"rends-le - moi", "rends-le - moi", 0x10⟩, rfl, ?_, rfl, rfl,
    ?_, ?_, _, rfl, ?_, ?_⟩
  · decide +kernel
  · decide +kernel
  · decide +kernel
  · decide +kernel
  · decide +kernel

end Concordance.Lexicon
