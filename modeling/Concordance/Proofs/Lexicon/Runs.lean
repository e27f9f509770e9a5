import Concordance.Lexicon.Lookup
import Concordance.Proofs.Lexicon.Entries
import Concordance.Proofs.Tagging.Tokens

/-! What is found in a lexicon. A row of forms is read as tokens, the first of them in lowercase if
it begins no entry, and spells the entries that stand under its beginnings. Main statements: what is
found from an index on are these entries and no others, and the longest of them comes last; a word
has the same entry alone as in a row of its own, unless it begins a locution without being an entry
while its lowercase is one. -/

namespace Concordance.Lexicon

def stored? (caseInsensitive : Bool) (calls : List Call) (row : List String) : Option Entry :=
  calls.reverse.findSome? (Call.entryAt? caseInsensitive row)

def firstTokens (caseInsensitive : Bool) (calls : List Call) : List String :=
  (rows caseInsensitive calls).filterMap List.head?

def readFirst (caseInsensitive : Bool) (calls : List Call) (form : String) : String :=
  if caseInsensitive = true ∨ form ∉ firstTokens caseInsensitive calls then Text.lower form
  else form

def readRow (caseInsensitive : Bool) (calls : List Call) : List String → List String
  | [] => []
  | first :: rest =>
    readFirst caseInsensitive calls first ::
      if caseInsensitive then rest.map Text.lower else rest

/-- The forms from an index up to another spell an entry. -/
def Spells (caseInsensitive : Bool) (calls : List Call) (forms : List String) (index stop : Nat)
    (entry : Entry) : Prop :=
  index < stop ∧
    stored? caseInsensitive calls (readRow caseInsensitive calls ((forms.take stop).drop index)) =
      some entry

/-- A word begins an entry and is none itself, while its lowercase is one. -/
def Shadowed (caseInsensitive : Bool) (calls : List Call) (word : String) : Prop :=
  caseInsensitive = false ∧ word ∈ firstTokens caseInsensitive calls ∧
    [word] ∉ rows caseInsensitive calls ∧ [Text.lower word] ∈ rows caseInsensitive calls

instance (caseInsensitive : Bool) (calls : List Call) (forms : List String) (index stop : Nat)
    (entry : Entry) : Decidable (Spells caseInsensitive calls forms index stop entry) :=
  inferInstanceAs (Decidable (_ ∧ _))

instance (caseInsensitive : Bool) (calls : List Call) (word : String) :
    Decidable (Shadowed caseInsensitive calls word) :=
  inferInstanceAs (Decidable (_ ∧ _))

theorem getLast?_eq_some_iff_greatest {α : Type} {items : List (Nat × α)}
    (h : items.Pairwise fun a b => a.1 < b.1) {item : Nat × α} :
    items.getLast? = some item ↔ item ∈ items ∧ ∀ other ∈ items, other.1 ≤ item.1 := by
  constructor
  · intro hlast
    obtain ⟨before, rfl⟩ := List.getLast?_eq_some_iff.mp hlast
    obtain ⟨-, -, hbefore⟩ := List.pairwise_append.mp h
    refine ⟨List.mem_append_right _ List.mem_cons_self, fun other hother => ?_⟩
    rcases List.mem_append.mp hother with hmem | hmem
    · exact Nat.le_of_lt (hbefore other hmem item List.mem_cons_self)
    · rw [List.mem_singleton.mp hmem]
  · rintro ⟨hmem, hgreatest⟩
    obtain ⟨before, after, rfl⟩ := List.append_of_mem hmem
    obtain ⟨-, hafter, -⟩ := List.pairwise_append.mp h
    cases after with
    | nil => exact List.getLast?_concat
    | cons next rest =>
      have hlt := List.rel_of_pairwise_cons hafter List.mem_cons_self
      have hle := hgreatest next (by simp)
      omega

namespace Forest

theorem lookup?_singleton (forest : Forest) (token : String) :
    forest.lookup? [token] = (forest.find? token).bind Prod.fst := by
  rw [lookup?_cons]
  rfl

theorem lookup?_below {forest below : Forest} {token : String} {entry : Option Entry}
    {rest : List String} (h : forest.find? token = some (entry, below)) (hrest : rest ≠ []) :
    forest.lookup? (token :: rest) = below.lookup? rest := by
  rw [lookup?_cons, h, Option.bind_some, if_neg hrest]

theorem runs_eq {α : Type} (token : α → String) (passed : Nat) (forest : Forest) (items : List α) :
    runs token passed forest items = (List.range items.length).filterMap fun n =>
      (forest.lookup? ((items.take (n + 1)).map token)).map fun entry =>
        (passed + n + 1, entry) := by
  induction items generalizing passed forest with
  | nil => rfl
  | cons item rest ih =>
    rw [runs, List.length_cons, List.range_succ_eq_map]
    cases hfind : forest.find? (token item) with
    | none => simp [lookup?_cons, hfind]
    | some found =>
      obtain ⟨entry, below⟩ := found
      have hhere : forest.lookup? [token item] = entry := by
        rw [lookup?_singleton, hfind]
        rfl
      have hbelow : ∀ n ∈ List.range rest.length,
          forest.lookup? (token item :: (rest.take (n + 1)).map token) =
            below.lookup? ((rest.take (n + 1)).map token) := by
        intro n hn
        refine lookup?_below hfind (List.ne_nil_of_length_pos ?_)
        have hlt := List.mem_range.mp hn
        rw [List.length_map, List.length_take]
        omega
      have hrest : (List.range rest.length).filterMap (fun n =>
          (forest.lookup? (token item :: (rest.take (n + 1)).map token)).map fun e =>
            (passed + (n + 1) + 1, e)) = runs token (passed + 1) below rest := by
        rw [ih]
        refine List.filterMap_congr fun n hn => ?_
        rw [hbelow n hn, Nat.add_right_comm passed 1 n, Nat.add_assoc passed n 1]
      rw [List.filterMap_cons, List.filterMap_map]
      simp only [Function.comp_def, List.take_succ_cons, List.map_cons, List.take_zero,
        List.map_nil, hhere, hrest]
      cases entry <;> rfl

theorem bounds_of_mem_runs {α : Type} {token : α → String} {passed n : Nat} {forest : Forest}
    {items : List α} {entry : Entry} (h : (n, entry) ∈ forest.runs token passed items) :
    passed < n ∧ n ≤ passed + items.length := by
  rw [runs_eq, List.mem_filterMap] at h
  obtain ⟨m, hm, hentry⟩ := h
  obtain ⟨_, -, heq⟩ := Option.map_eq_some_iff.mp hentry
  cases heq
  have hlt := List.mem_range.mp hm
  omega

end Forest

section
variable {caseInsensitive : Bool} {calls : List Call} {lexicon : Lexicon}

theorem isSome_stored?_iff {row : List String} :
    (stored? caseInsensitive calls row).isSome = true ↔ row ∈ rows caseInsensitive calls :=
  isSome_findSome?_iff

theorem mem_firstTokens_iff {token : String} :
    token ∈ firstTokens caseInsensitive calls ↔
      ∃ rest, token :: rest ∈ rows caseInsensitive calls := by
  simp only [firstTokens, List.mem_filterMap, List.head?_eq_some_iff]
  constructor
  · rintro ⟨_, hrow, rest, rfl⟩
    exact ⟨rest, hrow⟩
  · rintro ⟨rest, hrow⟩
    exact ⟨_, hrow, rest, rfl⟩

@[simp] theorem length_readRow (forms : List String) :
    (readRow caseInsensitive calls forms).length = forms.length := by
  cases forms with
  | nil => rfl
  | cons first rest => cases caseInsensitive <;> simp [readRow]

theorem readRow_take (n : Nat) (forms : List String) :
    readRow caseInsensitive calls (forms.take n) =
      (readRow caseInsensitive calls forms).take n := by
  cases n with
  | zero => rfl
  | succ n =>
    cases forms with
    | nil => rfl
    | cons first rest => cases caseInsensitive <;> simp [readRow, List.map_take]

theorem Holds.isSome_find?_iff (h : Holds caseInsensitive calls lexicon) (token : String) :
    (lexicon.forest.find? token).isSome = true ↔ token ∈ firstTokens caseInsensitive calls := by
  rw [h.full.isSome_find?_iff, mem_firstTokens_iff]
  simp only [← Option.isSome_iff_exists, h.isSome_lookup?_iff (List.cons_ne_nil token _)]

theorem Holds.key_eq (h : Holds caseInsensitive calls lexicon) (form : String) :
    lexicon.key form = if caseInsensitive then Text.lower form else form := by
  rw [key, h.cased]

theorem Holds.first?_eq (h : Holds caseInsensitive calls lexicon) (form : String) :
    lexicon.first? form = lexicon.forest.find? (readFirst caseInsensitive calls form) := by
  have hsome := h.isSome_find?_iff form
  rw [first?, h.key_eq, h.cased, readFirst]
  cases caseInsensitive with
  | true =>
    simp only [if_true, true_or]
    cases lexicon.forest.find? (Text.lower form) <;> rfl
  | false =>
    simp only [Bool.false_eq_true, if_false, false_or, ← hsome]
    cases hfind : lexicon.forest.find? form with
    | none => rfl
    | some found => simp [hfind]

theorem Holds.runs_read (h : Holds caseInsensitive calls lexicon) (forms : List String) :
    lexicon.runs forms = lexicon.forest.runs id 0 (readRow caseInsensitive calls forms) := by
  cases forms with
  | nil => rfl
  | cons first rest =>
    rw [runs, runsOf, readRow, Forest.runs, id, id, h.first?_eq]
    simp only [h.key_eq]
    cases lexicon.forest.find? (readFirst caseInsensitive calls first) with
    | none => rfl
    | some found =>
      cases caseInsensitive with
      | true => simp [Forest.runs_map]
      | false => rfl

theorem Holds.runs_eq (h : Holds caseInsensitive calls lexicon) (forms : List String) :
    lexicon.runs forms = (List.range forms.length).filterMap fun n =>
      (stored? caseInsensitive calls (readRow caseInsensitive calls (forms.take (n + 1)))).map
        fun entry => (n + 1, entry) := by
  rw [h.runs_read, Forest.runs_eq, length_readRow]
  refine List.filterMap_congr fun n hn => ?_
  have hne : readRow caseInsensitive calls (forms.take (n + 1)) ≠ [] := by
    have hlt := List.mem_range.mp hn
    refine List.ne_nil_of_length_pos ?_
    rw [length_readRow, List.length_take]
    omega
  rw [List.map_id, ← readRow_take, h.entry _ hne, Nat.zero_add, stored?]

theorem Holds.pairwise_runs (h : Holds caseInsensitive calls lexicon) (forms : List String) :
    (lexicon.runs forms).Pairwise fun a b => a.1 < b.1 := by
  rw [h.runs_eq]
  refine List.Pairwise.filterMap _ (fun n m hlt a ha b hb => ?_) List.pairwise_lt_range
  obtain ⟨_, -, rfl⟩ := Option.map_eq_some_iff.mp ha
  obtain ⟨_, -, rfl⟩ := Option.map_eq_some_iff.mp hb
  exact Nat.succ_lt_succ hlt

theorem Holds.mem_runs_iff (h : Holds caseInsensitive calls lexicon) {forms : List String}
    {n : Nat} {entry : Entry} : (n, entry) ∈ lexicon.runs forms ↔ 0 < n ∧ n ≤ forms.length ∧
      stored? caseInsensitive calls (readRow caseInsensitive calls (forms.take n)) =
        some entry := by
  rw [h.runs_eq, List.mem_filterMap]
  constructor
  · rintro ⟨m, hm, hentry⟩
    obtain ⟨_, hstored, heq⟩ := Option.map_eq_some_iff.mp hentry
    cases heq
    exact ⟨Nat.succ_pos m, List.mem_range.mp hm, hstored⟩
  · rintro ⟨hpos, hle, hstored⟩
    obtain ⟨m, rfl⟩ := Nat.exists_eq_succ_of_ne_zero (Nat.ne_of_gt hpos)
    exact ⟨m, List.mem_range.mpr hle, by rw [hstored, Option.map_some]⟩

theorem matchesAt_within (lexicon : Lexicon) {forms : List String} {index stop : Nat}
    (hindex : index ≤ stop) (hstop : stop ≤ forms.length) :
    lexicon.matchesAt forms index (some stop) =
      .ok ((lexicon.runs ((forms.take stop).drop index)).map fun (n, entry) =>
        (((index + n : Nat) : Int), entry)) := by
  have hcount : ((stop : Int) - index).toNat = stop - index := by omega
  have hrow : formsFrom forms index = forms.drop index := by
    rw [formsFrom, if_neg (by omega), Int.toNat_natCast]
  have henough : ¬(forms.drop index).length < stop - index := by
    rw [List.length_drop]
    omega
  rw [matchesAt, Option.getD_some, hcount, hrow, decide_eq_false henough, Bool.false_and,
    if_neg Bool.false_ne_true, List.drop_take]
  rfl

section
variable {α : Type} {form : α → String} {items : List α} {n : Nat} {entry : Entry}

theorem bounds_of_mem_runsOf (h : (n, entry) ∈ lexicon.runsOf form items) :
    0 < n ∧ n ≤ items.length := by
  cases items with
  | nil => cases h
  | cons item rest =>
    rw [runsOf] at h
    cases hfirst : lexicon.first? (form item) with
    | none =>
      rw [hfirst] at h
      cases h
    | some found =>
      obtain ⟨here, below⟩ := found
      simp only [hfirst, List.mem_append, Option.mem_toList] at h
      rw [List.length_cons]
      rcases h with hhere | hbelow
      · obtain ⟨_, -, heq⟩ := Option.map_eq_some_iff.mp hhere
        cases heq
        omega
      · have hbounds := Forest.bounds_of_mem_runs hbelow
        omega

theorem bounds_of_longestRunOf? (h : lexicon.longestRunOf? form items = some (n, entry)) :
    0 < n ∧ n ≤ items.length :=
  bounds_of_mem_runsOf (List.mem_of_getLast? h)

theorem longestAt_eq (lexicon : Lexicon) (form : α → String) {index : Nat}
    (h : index ≤ items.length) : lexicon.longestAt (items.map form) index =
      .ok ((lexicon.longestRunOf? form (items.drop index)).map fun (n, entry) =>
        (((index + n : Nat) : Int), entry)) := by
  have hlength : (items.map form).length = items.length := List.length_map _
  have hwhole : lexicon.matchesAt (items.map form) index none =
      lexicon.matchesAt (items.map form) index (some (items.map form).length) := rfl
  rw [longestAt, hwhole, matchesAt_within lexicon (hlength.symm ▸ h) (Nat.le_refl _),
    List.take_length, ← List.map_drop, ← runsOf_eq, Except.map, List.getLast?_map]
  rfl

end
theorem Holds.matchesAt_eq (h : Holds caseInsensitive calls lexicon) {forms : List String}
    {index stop : Nat} (hindex : index ≤ stop) (hstop : stop ≤ forms.length) :
    ∃ found : List (Nat × Entry), lexicon.matchesAt forms index (some stop) =
        .ok (found.map fun (k, entry) => ((k : Int), entry)) ∧
      found.Pairwise (fun a b => a.1 < b.1) ∧
      ∀ k entry, (k, entry) ∈ found ↔
        k ≤ stop ∧ Spells caseInsensitive calls forms index k entry := by
  refine ⟨(lexicon.runs ((forms.take stop).drop index)).map fun (n, entry) => (index + n, entry),
    ?_, ?_, fun k entry => ?_⟩
  · rw [matchesAt_within lexicon hindex hstop, List.map_map]
    rfl
  · exact (h.pairwise_runs _).map _ fun a b hlt => Nat.add_lt_add_left hlt index
  · have htake (n : Nat) (hn : index + n ≤ stop) :
        ((forms.take stop).drop index).take n = (forms.take (index + n)).drop index := by
      rw [List.take_drop, List.take_take, Nat.min_eq_left hn]
    have hlength : ((forms.take stop).drop index).length = stop - index := by
      rw [List.length_drop, List.length_take, Nat.min_eq_left hstop]
    simp only [List.mem_map, Prod.exists, Prod.mk.injEq, h.mem_runs_iff, hlength, Spells]
    constructor
    · rintro ⟨n, e, ⟨hpos, hle, hstored⟩, rfl, rfl⟩
      rw [htake n (by omega)] at hstored
      exact ⟨by omega, by omega, hstored⟩
    · rintro ⟨hle, hlt, hstored⟩
      refine ⟨k - index, entry, ⟨by omega, by omega, ?_⟩, by omega, rfl⟩
      rw [htake (k - index) (by omega), Nat.add_sub_cancel' (Nat.le_of_lt hlt)]
      exact hstored

theorem Holds.find?_eq (h : Holds caseInsensitive calls lexicon) (token : String) :
    (lexicon.forest.find? token).bind Prod.fst = stored? caseInsensitive calls [token] := by
  rw [← Forest.lookup?_singleton, h.entry _ (List.cons_ne_nil token []), stored?]

theorem Holds.lookup?_eq (h : Holds caseInsensitive calls lexicon) (word : String) :
    lexicon.lookup? word = (stored? caseInsensitive calls [lexicon.key word]).or
      (if caseInsensitive then none else stored? caseInsensitive calls [Text.lower word]) := by
  rw [← h.find?_eq, ← h.find?_eq, lookup?, h.cased]
  match lexicon.forest.find? (lexicon.key word) with
  | none => rfl
  | some (none, _) => rfl
  | some (some entry, _) => rfl

theorem Holds.runs_singleton (h : Holds caseInsensitive calls lexicon) (word : String) :
    lexicon.runs [word] =
      (stored? caseInsensitive calls [readFirst caseInsensitive calls word]).toList.map
        fun entry => (1, entry) := by
  rw [h.runs_eq]
  cases caseInsensitive <;>
    cases hstored : stored? _ calls [readFirst _ calls word] <;> simp [readRow, hstored]

theorem stored?_eq_none_iff {row : List String} :
    stored? caseInsensitive calls row = none ↔ row ∉ rows caseInsensitive calls := by
  rw [← isSome_stored?_iff, Option.not_isSome_iff_eq_none]

theorem Holds.isSome_lookup?_of_shadowed (h : Holds caseInsensitive calls lexicon) {word : String}
    (hshadowed : Shadowed caseInsensitive calls word) : (lexicon.lookup? word).isSome = true := by
  obtain ⟨rfl, -, -, hlower⟩ := hshadowed
  obtain ⟨entry, hentry⟩ := Option.isSome_iff_exists.mp (isSome_stored?_iff.mpr hlower)
  rw [h.lookup?_eq, if_neg Bool.false_ne_true, hentry, Option.isSome_or, Option.isSome_some,
    Bool.or_true]

theorem Holds.stored?_readFirst (h : Holds caseInsensitive calls lexicon) (word : String) :
    stored? caseInsensitive calls [readFirst caseInsensitive calls word] =
      if Shadowed caseInsensitive calls word then none else lexicon.lookup? word := by
  rw [h.lookup?_eq, h.key_eq]
  cases caseInsensitive with
  | true => simp [readFirst, Shadowed]
  | false =>
    by_cases hfirst : word ∈ firstTokens false calls
    · have hread : readFirst false calls word = word := by simp [readFirst, hfirst]
      rw [hread]
      by_cases hrow : [word] ∈ rows false calls
      · obtain ⟨entry, hentry⟩ := Option.isSome_iff_exists.mp (isSome_stored?_iff.mpr hrow)
        simp [Shadowed, hrow, hentry]
      · by_cases hlower : [Text.lower word] ∈ rows false calls
        · simp [Shadowed, hfirst, hrow, hlower, stored?_eq_none_iff.mpr hrow]
        · simp [Shadowed, hlower, stored?_eq_none_iff.mpr hrow, stored?_eq_none_iff.mpr hlower]
    · have hrow : [word] ∉ rows false calls := fun hrow =>
        hfirst (mem_firstTokens_iff.mpr ⟨[], hrow⟩)
      simp [readFirst, Shadowed, hfirst, stored?_eq_none_iff.mpr hrow]

theorem Holds.tagByLexicon_alone (h : Holds caseInsensitive calls lexicon) {o : Occurrence}
    (ho : Tagging.startsWithPunctuation o = false) : Tagging.tagByLexicon (some lexicon) [o] =
      [match stored? caseInsensitive calls [readFirst caseInsensitive calls o.orth] with
        | some entry => Tagging.tagByEntry entry o
        | none => Tagging.tagByCharacter o] := by
  rw [Tagging.tagByLexicon, Tagging.tagFrom, Tagging.longestRun?]
  simp only [ho, Bool.false_eq_true, if_false, longestRunOf?, runsOf_eq, List.map_cons,
    List.map_nil, h.runs_singleton]
  cases stored? caseInsensitive calls [readFirst caseInsensitive calls o.orth] <;> rfl

end

/-- From an index on, up to a bound, a lexicon finds the entries that the forms spell and no others,
shortest first; the longest that they spell up to the last form is found as such. -/
theorem matches_spelled (caseInsensitive : Bool) (calls : List Call) {forms : List String}
    {index stop : Nat} (hindex : index ≤ stop) (hstop : stop ≤ forms.length) :
    let lexicon := (empty caseInsensitive).addEach calls
    let spells := Spells caseInsensitive calls forms index
    (∃ found : List (Nat × Entry),
      lexicon.matchesAt forms index (some stop) =
        .ok (found.map fun (k, entry) => ((k : Int), entry)) ∧
      found.Pairwise (fun a b => a.1 < b.1) ∧
      ∀ k entry, (k, entry) ∈ found ↔ k ≤ stop ∧ spells k entry) ∧
    ∃ longest : Option (Nat × Entry),
      lexicon.longestAt forms index =
        .ok (longest.map fun (k, entry) => ((k : Int), entry)) ∧
      (longest = none ↔ ∀ k ≤ forms.length, ∀ entry, ¬spells k entry) ∧
      ∀ k entry, longest = some (k, entry) ↔ (k ≤ forms.length ∧ spells k entry) ∧
        ∀ j ≤ forms.length, ∀ other, spells j other → j ≤ k := by
  intro lexicon spells
  have h : Holds caseInsensitive calls lexicon := holds_addEach caseInsensitive calls
  refine ⟨h.matchesAt_eq hindex hstop, ?_⟩
  obtain ⟨found, hfound, hpairwise, hmem⟩ :=
    h.matchesAt_eq (Nat.le_trans hindex hstop) (Nat.le_refl forms.length)
  refine ⟨found.getLast?, ?_, ?_, fun k entry => ?_⟩
  · have hwhole : lexicon.matchesAt forms index none =
        lexicon.matchesAt forms index (some forms.length) := rfl
    rw [longestAt, hwhole, hfound, Except.map, List.getLast?_map]
  · rw [List.getLast?_eq_none_iff, List.eq_nil_iff_forall_not_mem]
    constructor
    · exact fun hnone k hk entry hspells => hnone (k, entry) ((hmem k entry).mpr ⟨hk, hspells⟩)
    · rintro hnone ⟨k, entry⟩ hin
      obtain ⟨hk, hspells⟩ := (hmem k entry).mp hin
      exact hnone k hk entry hspells
  · rw [getLast?_eq_some_iff_greatest hpairwise, hmem]
    refine and_congr_right fun _ => ⟨fun hgreatest j hj other hspells => ?_, ?_⟩
    · exact hgreatest (j, other) ((hmem j other).mpr ⟨hj, hspells⟩)
    · rintro hgreatest ⟨j, other⟩ hin
      obtain ⟨hj, hspells⟩ := (hmem j other).mp hin
      exact hgreatest j hj other hspells

theorem spelled_behind_capital : ∃ (calls : List Call) (forms : List String)
    (found : List (Nat × Entry)),
    calls = [("tout à fait", "", .name "ADVloc"), ("tout à l'heure", "", .name "ADVtemp"),
      ("tout", "", .name "DETindef")] ∧
    forms = ["il", "Tout", "à", "fait", "bien"] ∧ 1 ≤ 4 ∧ 4 ≤ forms.length ∧
    ((empty false).addEach calls).matchesAt forms 1 (some 4) =
      .ok (found.map fun (k, entry) => ((k : Int), entry)) ∧
    (2, ⟨"tout", "tout", 0x6a⟩) ∈ found ∧ (∀ entry, (3, entry) ∉ found) ∧
    (4, ⟨"tout à fait", "tout à fait", 0x4f⟩) ∈ found := by
  let calls : List Call := [("tout à fait", "", .name "ADVloc"),
    ("tout à l'heure", "", .name "ADVtemp"), ("tout", "", .name "DETindef")]
  let forms := ["il", "Tout", "à", "fait", "bien"]
  have hindex : 1 ≤ 4 := by decide
  have hstop : 4 ≤ forms.length := by decide
  obtain ⟨⟨found, hfound, -, hmem⟩, -⟩ := matches_spelled false calls hindex hstop
  refine ⟨calls, forms, found, rfl, rfl, hindex, hstop, hfound, ?_, fun entry hin => ?_, ?_⟩
  · exact (hmem _ _).mpr (by decide +kernel)
  · obtain ⟨-, -, hstored⟩ := (hmem _ _).mp hin
    have hnone : stored? false calls (readRow false calls ((forms.take 3).drop 1)) = none := by
      decide +kernel
    rw [hnone] at hstored
    cases hstored
  · exact (hmem _ _).mpr (by decide +kernel)

/-- A word has the same entry alone as in a row of its own exactly if it is not shadowed; a shadowed
word is not found in a row. So an occurrence by itself gets the headword and the category of the
entry of its form, or if the form is shadowed those of its first character. -/
theorem found_alone_iff (caseInsensitive : Bool) (calls : List Call) (word : String) :
    let lexicon := (empty caseInsensitive).addEach calls
    (lexicon.matchesAt [word] 0 none =
        .ok ((lexicon.lookup? word).toList.map fun entry => (1, entry)) ↔
      ¬Shadowed caseInsensitive calls word) ∧
    (Shadowed caseInsensitive calls word → lexicon.matchesAt [word] 0 none = .ok []) ∧
    ∀ (o : Occurrence) (entry : Entry), o.orth = word → lexicon.lookup? word = some entry →
      Tagging.startsWithPunctuation o = false →
      ∃ tagged, Tagging.tagByLexicon (some lexicon) [o] = [tagged] ∧
        (Shadowed caseInsensitive calls word → Tagging.TaggedByCharacter o tagged) ∧
        (¬Shadowed caseInsensitive calls word →
          tagged = { o with headword := entry.headword, category := entry.category }) := by
  intro lexicon
  have h : Holds caseInsensitive calls lexicon := holds_addEach caseInsensitive calls
  have hfound : lexicon.matchesAt [word] 0 none = .ok
      ((if Shadowed caseInsensitive calls word then none
        else lexicon.lookup? word).toList.map fun entry => (1, entry)) := by
    rw [← h.stored?_readFirst]
    have hwithin := matchesAt_within lexicon (Nat.zero_le 1) (Nat.le_refl [word].length)
    rw [List.take_succ_cons, List.take_zero, List.drop_zero, h.runs_singleton, List.map_map]
      at hwithin
    exact hwithin
  refine ⟨⟨fun hagree hshadowed => ?_, fun hplain => ?_⟩, fun hshadowed => ?_, ?_⟩
  · obtain ⟨entry, hentry⟩ :=
      Option.isSome_iff_exists.mp (h.isSome_lookup?_of_shadowed hshadowed)
    rw [hagree, if_pos hshadowed, hentry] at hfound
    cases hfound
  · rw [hfound, if_neg hplain]
  · rw [hfound, if_pos hshadowed]
    rfl
  · rintro o entry rfl hentry ho
    refine ⟨_, h.tagByLexicon_alone ho, fun hshadowed => ?_, fun hplain => ?_⟩
    · rw [h.stored?_readFirst, if_pos hshadowed]
      exact Tagging.taggedByCharacter o
    · rw [h.stored?_readFirst, if_neg hplain, hentry]
      rfl

theorem article_found_alone : ∃ (calls : List Call) (o : Occurrence) (entry : Entry),
    calls = [("le", "", .name "DETart"), ("La Rochelle", "", .name "NAMEplace")] ∧
    o = Occurrence.untagged "Le" 0 ∧ entry = ⟨"le", "le", 0x61⟩ ∧
    ((empty false).addEach calls).lookup? "Le" = some entry ∧
    ((empty false).addEach calls).matchesAt ["Le"] 0 none = .ok [(1, entry)] ∧
    Tagging.tagByLexicon (some ((empty false).addEach calls)) [o] =
      [{ o with headword := "le", category := .ofName "DETart" }] := by
  let calls : List Call := [("le", "", .name "DETart"), ("La Rochelle", "", .name "NAMEplace")]
  obtain ⟨hiff, -, htags⟩ := found_alone_iff false calls "Le"
  have hplain : ¬Shadowed false calls "Le" := by decide +kernel
  have hentry : ((empty false).addEach calls).lookup? "Le" = some ⟨"le", "le", 0x61⟩ := by
    decide +kernel
  have hruns := hiff.mpr hplain
  obtain ⟨tagged, htagged, -, hrecord⟩ :=
    htags (Occurrence.untagged "Le" 0) _ rfl hentry (by decide +kernel)
  rw [hentry] at hruns
  rw [hrecord hplain] at htagged
  exact ⟨calls, _, _, rfl, rfl, rfl, hentry, hruns, htagged⟩

/-- The article of a place hides the article: alone it has its entry, in a row it has none, and so
it is tagged as a name. -/
theorem article_hidden_by_place : ∃ lexicon : Lexicon,
    lexicon = (empty false).addEach
      [("Le Havre", "", .name "NAMEplace"), ("le", "", .name "DETart")] ∧
    lexicon.lookup? "Le" = some ⟨"le", "le", 0x61⟩ ∧
    lexicon.matchesAt ["Le"] 0 none = .ok [] ∧
    Tagging.tagByLexicon (some lexicon) [Occurrence.untagged "Le" 0] =
      [⟨"Le", "Le", "Le", .ofName "NAME", 0, 2⟩] := by
  refine ⟨_, rfl, ?_, ?_, ?_⟩
  · decide +kernel
  · decide +kernel
  · decide +kernel

end Concordance.Lexicon
