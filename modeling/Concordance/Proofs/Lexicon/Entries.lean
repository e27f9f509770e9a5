import Mathlib.Data.Finset.Card
import Concordance.Lexicon.Basic

/-! A lexicon is a map from rows of tokens to entries, in which the last entry for a row stands. Calls
to add an entry that are refused leave it as it was. Main statement: what a lexicon holds after any
calls, some of which may be refused, is told by the calls alone, and so is its size; and no tree in
it ends without an entry. -/

namespace Concordance.Lexicon

abbrev Call := String × String × Tag

/-- The tokens under which a form is entered. -/
def rowOf (caseInsensitive : Bool) (form : String) : List String :=
  tokens (if caseInsensitive then Text.lower form else form)

def Tag.code? : Tag → Option Category
  | .code c => some c
  | .name label => Category.ofName? label

/-- The row that a call enters, with the entry: its form is the tokens with blanks between them, and
its headword that form where none is given. A call is refused, and enters nothing, if its tag is the
name of no category or its form has no token. -/
def Call.enters? (caseInsensitive : Bool) (call : Call) : Option (List String × Entry) :=
  match call.2.2.code? with
  | none => none
  | some category =>
    let row := rowOf caseInsensitive call.1
    let form := " ".intercalate row
    if row = [] then none
    else some (row, ⟨form, if call.2.1 = "" then form else call.2.1, category⟩)

def Call.entryAt? (caseInsensitive : Bool) (row : List String) (call : Call) : Option Entry :=
  (call.enters? caseInsensitive).bind fun entered =>
    if entered.1 = row then some entered.2 else none

def rows (caseInsensitive : Bool) (calls : List Call) : List (List String) :=
  (calls.filterMap (Call.enters? caseInsensitive)).map Prod.fst

def addEach (lexicon : Lexicon) (calls : List Call) : Lexicon :=
  calls.foldl (fun lexicon call => (lexicon.addAll [call]).1) lexicon

/-- Each tree ends with an entry. -/
def Forest.Full : Forest → Prop
  | .nil => True
  | .cons _ entry below beside =>
    (below = .nil → entry.isSome = true) ∧ below.Full ∧ beside.Full

namespace Forest

section
variable {entry : Entry} {forest : Forest} {token : String} {row : List String}

theorem lookup?_nil (row : List String) : nil.lookup? row = none := by
  induction row with
  | nil => rfl
  | cons token rest ih =>
    rw [lookup?]
    split
    · rfl
    · exact ih

theorem insert_ne_nil (h : row ≠ []) : insert entry forest row ≠ nil := by
  cases row with
  | nil => exact absurd rfl h
  | cons token rest =>
    cases forest with
    | nil => rintro ⟨⟩
    | cons here old below beside =>
      rw [insert]
      split <;> rintro ⟨⟩

theorem full_path (entry : Entry) (row : List String) : (path entry row).Full := by
  induction row with
  | nil => trivial
  | cons token rest ih =>
    refine ⟨fun hend => ?_, ih, trivial⟩
    cases rest with
    | nil => rfl
    | cons => cases hend

theorem Full.insert (h : forest.Full) : (insert entry forest row).Full := by
  fun_induction Forest.insert entry forest row with
  | case1 => exact h
  | case2 row => exact full_path entry row
  | case3 here old below beside rest ih =>
    obtain ⟨hend, hbelow, hbeside⟩ := h
    refine ⟨fun hnil => ?_, ih hbelow, hbeside⟩
    cases rest with
    | nil => rfl
    | cons t more => exact absurd hnil (insert_ne_nil (List.cons_ne_nil t more))
  | case4 here old below beside token rest _ ih => exact ⟨h.1, h.2.1, ih h.2.2⟩

theorem Full.find? (h : forest.Full) {here : Option Entry} {below : Forest}
    (hfind : forest.find? token = some (here, below)) :
    (below = nil → here.isSome = true) ∧ below.Full := by
  induction forest with
  | nil => cases hfind
  | cons other old under beside _ ih =>
    rw [Forest.find?] at hfind
    split at hfind
    · cases hfind
      exact ⟨h.1, h.2.1⟩
    · exact ih h.2.2 hfind

theorem lookup?_cons (token : String) (rest : List String) : forest.lookup? (token :: rest) =
    (forest.find? token).bind fun found =>
      if rest = [] then found.1 else found.2.lookup? rest := by
  rw [lookup?, place]
  cases forest.find? token with
  | none => cases rest <;> simp [lookup?_nil]
  | some found => cases rest <;> simp

theorem Full.isSome_find?_iff (h : forest.Full) (token : String) :
    (forest.find? token).isSome = true ↔
      ∃ rest entry, forest.lookup? (token :: rest) = some entry := by
  simp only [lookup?_cons]
  constructor
  · intro hsome
    obtain ⟨⟨here, below⟩, hfind⟩ := Option.isSome_iff_exists.mp hsome
    obtain ⟨hend, hbelow⟩ := h.find? hfind
    simp only [hfind, Option.bind_some]
    -- The first tree at each place leads down to one with nothing below it, which has an entry.
    clear hfind hsome h
    induction below generalizing here with
    | nil =>
      obtain ⟨entry, rfl⟩ := Option.isSome_iff_exists.mp (hend rfl)
      exact ⟨[], entry, rfl⟩
    | cons first old under beside ih _ =>
      obtain ⟨rest, entry, hentry⟩ := ih old hbelow.1 hbelow.2.1
      refine ⟨first :: rest, entry, ?_⟩
      rw [if_neg (List.cons_ne_nil first rest), lookup?_cons, Forest.find?, if_pos rfl]
      exact hentry
  · rintro ⟨rest, entry, hentry⟩
    obtain ⟨found, hfind, -⟩ := Option.bind_eq_some_iff.mp hentry
    rw [hfind]
    rfl

end
end Forest

def put (lexicon : Lexicon) (row : List String) (entry : Entry) : Lexicon :=
  { lexicon with
    forest := lexicon.forest.insert entry row
    size := if (lexicon.forest.lookup? row).isSome then lexicon.size else lexicon.size + 1 }

section
variable {lexicon : Lexicon} {caseInsensitive : Bool} {call : Call} {calls : List Call}
  {row : List String} {entry : Entry}

theorem Tag.resolve_of_code {form : String} {tag : Tag} {category : Category}
    (h : tag.code? = some category) : tag.resolve form = .ok category := by
  cases tag with
  | code c =>
    cases h
    rfl
  | name label =>
    rw [code?] at h
    rw [resolve, h]

theorem Tag.resolve_of_none {tag : Tag} (h : tag.code? = none) (form : String) :
    ∃ e, tag.resolve form = .error e := by
  cases tag with
  | code c => cases h
  | name label =>
    rw [code?] at h
    rw [resolve, h]
    exact ⟨_, rfl⟩

theorem Call.enters?_eq_none_iff :
    call.enters? caseInsensitive = none ↔
      call.2.2.code? = none ∨ rowOf caseInsensitive call.1 = [] := by
  cases hcode : call.2.2.code? with
  | none => simp [enters?, hcode]
  | some category => simp [enters?, hcode]

theorem Call.enters?_eq_some (h : call.enters? caseInsensitive = some (row, entry)) :
    ∃ category, call.2.2.code? = some category ∧ rowOf caseInsensitive call.1 = row ∧ row ≠ [] ∧
      entry = ⟨" ".intercalate row, if call.2.1 = "" then " ".intercalate row else call.2.1,
        category⟩ := by
  rw [enters?] at h
  cases hcode : call.2.2.code? with
  | none => simp [hcode] at h
  | some category =>
    by_cases hrow : rowOf caseInsensitive call.1 = []
    · simp [hcode, hrow] at h
    · simp only [hcode, hrow, if_false, Option.some.injEq, Prod.mk.injEq] at h
      obtain ⟨rfl, rfl⟩ := h
      exact ⟨category, rfl, rfl, hrow, rfl⟩

theorem add_of_enters (h : call.enters? lexicon.caseInsensitive = some (row, entry)) :
    lexicon.add call.1 call.2.1 call.2.2 = .ok (lexicon.put row entry) := by
  have hkey : tokens (lexicon.key call.1) = rowOf lexicon.caseInsensitive call.1 := rfl
  obtain ⟨category, hcode, rfl, hrow, rfl⟩ := Call.enters?_eq_some h
  rw [add, Tag.resolve_of_code hcode, hkey]
  simp [bind, Except.bind, pure, Except.pure, hrow, put]

theorem add_of_refused (h : call.enters? lexicon.caseInsensitive = none) :
    ∃ e, lexicon.add call.1 call.2.1 call.2.2 = .error e := by
  have hkey : tokens (lexicon.key call.1) = rowOf lexicon.caseInsensitive call.1 := rfl
  cases hcode : call.2.2.code? with
  | none =>
    obtain ⟨e, he⟩ := Tag.resolve_of_none hcode call.1
    exact ⟨e, by rw [add, he]; rfl⟩
  | some category =>
    have hrow : rowOf lexicon.caseInsensitive call.1 = [] := by
      simpa [hcode] using Call.enters?_eq_none_iff.mp h
    refine ⟨.emptyEntry, ?_⟩
    rw [add, Tag.resolve_of_code hcode, hkey, hrow]
    rfl

theorem addAll_of_enters (h : call.enters? lexicon.caseInsensitive = some (row, entry)) :
    (lexicon.addAll [call]).1 = lexicon.put row entry := by
  have hadd := add_of_enters h
  obtain ⟨form, headword, tag⟩ := call
  rw [addAll, hadd]
  rfl

theorem addAll_of_refused (h : call.enters? lexicon.caseInsensitive = none) :
    (lexicon.addAll [call]).1 = lexicon := by
  obtain ⟨e, hadd⟩ := add_of_refused h
  obtain ⟨form, headword, tag⟩ := call
  rw [addAll, hadd]

theorem addEach_snoc (lexicon : Lexicon) (calls : List Call) (call : Call) :
    lexicon.addEach (calls ++ [call]) = ((lexicon.addEach calls).addAll [call]).1 := by
  rw [addEach, List.foldl_append]
  rfl

theorem rows_snoc (caseInsensitive : Bool) (calls : List Call) (call : Call) :
    rows caseInsensitive (calls ++ [call]) = rows caseInsensitive calls ++
      ((call.enters? caseInsensitive).map Prod.fst).toList := by
  rw [rows, List.filterMap_append, List.map_append, rows]
  cases h : call.enters? caseInsensitive <;> simp [h]

theorem entryAt?_of_enters (h : call.enters? caseInsensitive = some (row, entry))
    (other : List String) :
    call.entryAt? caseInsensitive other = if row = other then some entry else none := by
  rw [Call.entryAt?, h, Option.bind_some]

theorem entryAt?_of_refused (h : call.enters? caseInsensitive = none) (other : List String) :
    call.entryAt? caseInsensitive other = none := by
  rw [Call.entryAt?, h, Option.bind_none]

theorem isSome_findSome?_iff :
    (calls.reverse.findSome? (Call.entryAt? caseInsensitive row)).isSome = true ↔
      row ∈ rows caseInsensitive calls := by
  simp only [List.isSome_findSome?, List.any_eq_true, List.mem_reverse, rows, List.mem_map,
    List.mem_filterMap]
  constructor
  · rintro ⟨call, hmem, hentry⟩
    cases h : call.enters? caseInsensitive with
    | none => simp [entryAt?_of_refused h] at hentry
    | some entered =>
      refine ⟨entered, ⟨call, hmem, h⟩, ?_⟩
      by_contra hne
      simp [entryAt?_of_enters h, hne] at hentry
  · rintro ⟨entered, ⟨call, hmem, h⟩, rfl⟩
    exact ⟨call, hmem, by simp [entryAt?_of_enters h]⟩

end

/-- A lexicon holds what some calls have entered, of which some may have been refused. -/
structure Holds (caseInsensitive : Bool) (calls : List Call) (lexicon : Lexicon) : Prop where
  cased : lexicon.caseInsensitive = caseInsensitive
  entry : ∀ row ≠ [], lexicon.forest.lookup? row =
    calls.reverse.findSome? (Call.entryAt? caseInsensitive row)
  size : lexicon.size = (rows caseInsensitive calls).toFinset.card
  full : lexicon.forest.Full

section
variable {lexicon : Lexicon} {caseInsensitive : Bool} {calls : List Call}

theorem holds_empty (caseInsensitive : Bool) : Holds caseInsensitive [] (empty caseInsensitive) :=
  ⟨rfl, fun row _ => Forest.lookup?_nil row, rfl, trivial⟩

theorem Holds.isSome_lookup?_iff (h : Holds caseInsensitive calls lexicon) {row : List String}
    (hrow : row ≠ []) :
    (lexicon.forest.lookup? row).isSome = true ↔ row ∈ rows caseInsensitive calls := by
  rw [h.entry row hrow, isSome_findSome?_iff]

theorem Holds.put (h : Holds caseInsensitive calls lexicon) {call : Call} {row : List String}
    {entry : Entry} (henters : call.enters? caseInsensitive = some (row, entry)) :
    Holds caseInsensitive (calls ++ [call]) (lexicon.put row entry) := by
  obtain ⟨-, -, -, hrow, -⟩ := Call.enters?_eq_some henters
  refine ⟨h.cased, fun other hother => ?_, ?_, h.full.insert⟩
  · rw [Lexicon.put, Forest.lookup?_insert entry _ row other hrow, List.reverse_append,
      List.reverse_singleton, List.singleton_append, List.findSome?_cons,
      entryAt?_of_enters henters, h.entry other hother]
    split <;> rfl
  · have hrows : (rows caseInsensitive (calls ++ [call])).toFinset =
        insert row (rows caseInsensitive calls).toFinset := by
      ext other
      simp [rows_snoc, henters]
    -- A row that has an entry has been counted.
    rw [hrows, Lexicon.put, h.size]
    dsimp only
    split
    · rename_i hknown
      rw [h.isSome_lookup?_iff hrow] at hknown
      rw [Finset.insert_eq_of_mem (List.mem_toFinset.mpr hknown)]
    · rename_i hknown
      rw [h.isSome_lookup?_iff hrow] at hknown
      rw [Finset.card_insert_of_notMem fun hmem => hknown (List.mem_toFinset.mp hmem)]

theorem Holds.snoc (h : Holds caseInsensitive calls lexicon) (call : Call) :
    Holds caseInsensitive (calls ++ [call]) (lexicon.addAll [call]).1 := by
  cases henters : call.enters? caseInsensitive with
  | some entered =>
    rw [addAll_of_enters (h.cased ▸ henters)]
    exact h.put henters
  | none =>
    rw [addAll_of_refused (h.cased ▸ henters)]
    refine ⟨h.cased, fun row hrow => ?_, ?_, h.full⟩
    · rw [h.entry row hrow, List.reverse_append, List.reverse_singleton, List.singleton_append,
        List.findSome?_cons, entryAt?_of_refused henters]
    · rw [h.size, rows_snoc, henters, Option.map_none, Option.toList_none, List.append_nil]

theorem Holds.refused_iff (h : Holds caseInsensitive calls lexicon) (call : Call) :
    (∃ e, lexicon.add call.1 call.2.1 call.2.2 = .error e) ↔
      call.enters? caseInsensitive = none := by
  rw [← h.cased]
  constructor
  · rintro ⟨e, he⟩
    cases henters : call.enters? lexicon.caseInsensitive with
    | none => rfl
    | some entered =>
      rw [add_of_enters henters] at he
      cases he
  · exact add_of_refused

theorem holds_addEach (caseInsensitive : Bool) (calls : List Call) :
    Holds caseInsensitive calls ((empty caseInsensitive).addEach calls) := by
  induction calls using List.reverseRecOn with
  | nil => exact holds_empty caseInsensitive
  | append_singleton calls call ih =>
    rw [addEach_snoc]
    exact ih.snoc call

end

/-- A lexicon is a map in which the last entry for a row of tokens stands. Behind any calls to add
entries, it holds what they have entered, has as many entries as there are rows, and has no tree
that ends without an entry, so that the tokens at its root are those that an entry begins with. A
call is refused if its tag names no category or its form has no token, and then changes nothing. -/
theorem last_entry_stands (caseInsensitive : Bool) (calls : List Call) :
    let lexicon := (empty caseInsensitive).addEach calls
    Holds caseInsensitive calls lexicon ∧
    (∀ token, (lexicon.forest.find? token).isSome = true ↔
      ∃ rest, token :: rest ∈ rows caseInsensitive calls) ∧
    ∀ call : Call,
      ((∃ e, lexicon.add call.1 call.2.1 call.2.2 = .error e) ↔
        call.2.2.code? = none ∨ rowOf caseInsensitive call.1 = []) ∧
      ((∃ e, lexicon.add call.1 call.2.1 call.2.2 = .error e) →
        (empty caseInsensitive).addEach (calls ++ [call]) = lexicon) := by
  intro lexicon
  have h : Holds caseInsensitive calls lexicon := holds_addEach caseInsensitive calls
  refine ⟨h, fun token => ?_, fun call => ?_⟩
  · rw [h.full.isSome_find?_iff]
    simp only [← Option.isSome_iff_exists, h.isSome_lookup?_iff (List.cons_ne_nil token _)]
  · refine ⟨(h.refused_iff call).trans Call.enters?_eq_none_iff, fun herror => ?_⟩
    have henters := (h.refused_iff call).mp herror
    rw [← h.cased] at henters
    rw [addEach_snoc, addAll_of_refused henters]

theorem last_entry_of_locution : ∃ (calls : List Call) (call : Call) (lexicon : Lexicon),
    calls = [("Parce que", "", .name "CONJ"), ("parce", "x", .code 1), ("", "y", .code 2),
      ("PARCE QUE", "car", .name "CONJsubord")] ∧
    call = ("parce que", "", .name "FOO") ∧ lexicon = (empty true).addEach calls ∧
    lexicon.forest.lookup? ["parce", "que"] = some ⟨"parce que", "car", 0x82⟩ ∧
    lexicon.size = 2 ∧ (∃ e, lexicon.add call.1 call.2.1 call.2.2 = .error e) ∧
    (empty true).addEach (calls ++ [call]) = lexicon := by
  let calls : List Call := [("Parce que", "", .name "CONJ"), ("parce", "x", .code 1),
    ("", "y", .code 2), ("PARCE QUE", "car", .name "CONJsubord")]
  let call : Call := ("parce que", "", .name "FOO")
  obtain ⟨hholds, -, hrefused⟩ := last_entry_stands true calls
  have herror := (hrefused call).1.mpr (.inl (by decide))
  refine ⟨calls, call, _, rfl, rfl, rfl, ?_, ?_, herror, (hrefused call).2 herror⟩
  · rw [hholds.entry _ (List.cons_ne_nil _ _)]
    decide +kernel
  · rw [hholds.size]
    decide +kernel

end Concordance.Lexicon
