import Concordance.Proofs.Lexicon.Recorded
import Concordance.Proofs.Tokenizer.Recased

/-! Entries in any casing, where case does not count. A form is put in lowercase before it is cut into
the tokens of its row, but a text is cut before its tokens are put in lowercase to be looked up. Main
statement: an entry is found in a casing of its form exactly if the two come to the same there, as
they do wherever lowercase makes no elision and no enclitic. -/

namespace Concordance.Lexicon

open Tokenizer

section
variable {calls : List Call} {text : String} {row : List String} {entry : Entry}

theorem tokens_lower (h : CasedAlike text.toList)
    (hsingle : ∀ c ∈ text.toList, c ≠ 'Σ' ∧ c ≠ 'İ') :
    tokens (Text.lower text) = (tokens text).map Text.lower := by
  obtain ⟨os, hyields, htokens⟩ := yields_tokens text
  obtain ⟨others, hothers, hforms⟩ := h.yields hyields (Nat.zero_le _)
  obtain ⟨again, hagain, htokens'⟩ := yields_tokens (Text.lower text)
  rw [Text.lower_eq_map hsingle, String.toList_ofList] at hagain
  have hlower : ∀ token ∈ tokens text,
      Text.lower token = String.ofList (token.toList.map Text.small) := fun token hmem =>
    Text.lower_eq_map (forall_mem_token hmem (by decide) hsingle)
  have hchars := congrArg (List.map String.ofList) hforms
  rw [List.map_map, List.map_map] at hchars
  rw [List.map_congr_left hlower, htokens', hagain.unique hothers, htokens, List.map_map]
  simpa [Function.comp_def] using hchars

theorem readRow_insensitive (forms : List String) :
    readRow true calls forms = forms.map Text.lower := by
  cases forms <;> simp [readRow, readFirst]

theorem stored?_of_last {caseInsensitive : Bool} {before after : List Call} {call : Call}
    (henters : call.enters? caseInsensitive = some (row, entry))
    (hlast : row ∉ rows caseInsensitive after) :
    stored? caseInsensitive (before ++ call :: after) row = some entry := by
  have hafter : after.reverse.findSome? (Call.entryAt? caseInsensitive row) = none :=
    stored?_eq_none_iff.mpr hlast
  rw [stored?, List.reverse_append, List.reverse_cons, List.findSome?_append,
    List.findSome?_append, hafter, List.findSome?_singleton, entryAt?_of_enters henters, if_pos rfl]
  rfl

end

/-- Where case does not count, the entry that was added last for a form is found as the longest in a
casing of the form exactly if the tokens of that casing are in lowercase what its lowercase is cut
into. They are wherever lowercase is taken character by character, and makes no elision and no
enclitic. -/
theorem found_in_casing (before after : List Call) {call : Call} {row : List String} {entry : Entry}
    (henters : call.enters? true = some (row, entry)) (hlast : row ∉ rows true after)
    {casing : String} (hcase : Text.lower casing = Text.lower call.1) :
    let lexicon := (empty true).addEach (before ++ call :: after)
    let forms := tokens casing
    (lexicon.longestAt forms 0 = .ok (some (forms.length, entry)) ↔
      forms.map Text.lower = tokens (Text.lower casing)) ∧
    ((∀ c ∈ casing.toList, c ≠ 'Σ' ∧ c ≠ 'İ') → CasedAlike casing.toList →
      lexicon.longestAt forms 0 = .ok (some (forms.length, entry))) := by
  intro lexicon forms
  have hholds : Holds true (before ++ call :: after) lexicon := holds_addEach true _
  have hstored : stored? true (before ++ call :: after) row = some entry :=
    stored?_of_last henters hlast
  obtain ⟨-, -, hrow, hrow_ne, -⟩ := Call.enters?_eq_some henters
  have hrow' : tokens (Text.lower casing) = row := hcase ▸ hrow
  have hfound : lexicon.longestAt forms 0 = .ok (some (forms.length, entry)) ↔
      forms.map Text.lower = tokens (Text.lower casing) := by
    rw [hholds.longestAt_whole, readRow_insensitive, hrow']
    constructor
    · exact fun hread => eq_of_stored? hstored hread.2
    · intro hsame
      refine ⟨?_, hsame ▸ hstored⟩
      rintro hnil
      exact hrow_ne (by rw [← hsame, hnil, List.map_nil])
  exact ⟨hfound, fun hsingle halike => hfound.mpr (tokens_lower halike hsingle).symm⟩

theorem found_in_capitals : ∃ (before after : List Call) (call : Call) (row : List String)
    (entry : Entry),
    before = [("tout à FAIT", "x", .code 1)] ∧ call = ("Tout à fait", "", .name "ADVloc") ∧
    after = [("tout", "", .name "DETindef")] ∧ call.enters? true = some (row, entry) ∧
    row ∉ rows true after ∧ Text.lower "TOUT À FAIT" = Text.lower call.1 ∧
    ((empty true).addEach (before ++ call :: after)).longestAt (tokens "TOUT À FAIT") 0 =
      .ok (some ((tokens "TOUT À FAIT").length, entry)) := by
  have henters : Call.enters? true ("Tout à fait", "", .name "ADVloc") =
      some (["tout", "à", "fait"], ⟨"tout à fait", "tout à fait", 0x4f⟩) := by decide +kernel
  have hlast : ["tout", "à", "fait"] ∉ rows true [("tout", "", .name "DETindef")] := by
    decide +kernel
  have hcase : Text.lower "TOUT À FAIT" = Text.lower "Tout à fait" := by decide +kernel
  have hall : ("TOUT À FAIT".toList.all fun c =>
      (c != '-' && !isApostrophe c) && (c != 'Σ' && c != 'İ')) = true := by decide +kernel
  have hplain : ∀ c ∈ "TOUT À FAIT".toList,
      (c ≠ '-' ∧ isApostrophe c = false) ∧ c ≠ 'Σ' ∧ c ≠ 'İ' := by
    simpa only [List.all_eq_true, Bool.and_eq_true, Bool.not_eq_true', bne_iff_ne] using hall
  obtain ⟨-, hfound⟩ :=
    found_in_casing [("tout à FAIT", "x", .code 1)] [("tout", "", .name "DETindef")] henters hlast
      hcase
  exact ⟨_, _, _, _, _, rfl, rfl, rfl, henters, hlast, hcase, hfound (fun c hc => (hplain c hc).2)
    (casedAlike_of_plain fun c hc => (hplain c hc).1)⟩

/-- The capital of a pronoun hides the pronoun, so that a form is not found as it was entered. -/
theorem missed_in_own_casing : ∃ (lexicon : Lexicon) (entry : Entry),
    lexicon = (empty true).addEach [("Rendez-Vous", "", .name "SUB")] ∧
    lexicon.forest.lookup? ["rendez", "-", "vous"] = some entry ∧
    tokens "Rendez-Vous" = ["Rendez-Vous"] ∧
    lexicon.longestAt (tokens "Rendez-Vous") 0 = .ok none := by
  refine ⟨_, ⟨"rendez - vous", "rendez - vous", 0x20⟩, rfl, ?_, ?_, ?_⟩
  · decide +kernel
  · decide +kernel
  · decide +kernel

end Concordance.Lexicon
