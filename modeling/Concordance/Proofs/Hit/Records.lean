import Concordance.Hit.Record
import Concordance.Proofs.Text.Quoting

/-! The record of a hit stands on one line, and says what the hit is: hits with one record have one
name, one extent, one text and the same occurrences. Each value of a record can be told from what
stands behind it, so that no value runs into the next. -/

namespace Concordance.Hit

open Text Text.Quoted

/-- Two written values are told apart, whatever stands behind them, as long as that does not go on
like a number. -/
def ToldApart (v w : String) : Prop := ∀ xs ys, Stops isNumeral xs → Stops isNumeral ys →
  v.toList ++ xs = w.toList ++ ys → v = w ∧ xs = ys

section Values

theorem toldApart_self (v : String) : ToldApart v v := fun _ _ _ _ h =>
  ⟨rfl, List.append_cancel_left h⟩

theorem toldApart_encode (s t : String) : ToldApart (encode s) (encode t) := by
  intro xs ys _ _ h
  obtain ⟨rfl, hrest⟩ := encode_append_inj h
  exact ⟨rfl, hrest⟩

theorem toldApart_toString (m n : Int) : ToldApart (toString m) (toString n) := by
  intro xs ys hxs hys h
  obtain ⟨rfl, hrest⟩ := toString_append_inj hxs hys h
  exact ⟨rfl, hrest⟩

def writtenName (name : Option String) : String := (name.map encode).getD "null"

theorem encode_append_ne_null (s : String) (xs ys : List Char) :
    (encode s).toList ++ xs ≠ "null".toList ++ ys := by
  intro h
  rw [toList_encode, List.cons_append] at h
  exact absurd (List.head_eq_of_cons_eq h) (by decide)

theorem encode_ne_null (s : String) : encode s ≠ "null" := by
  intro h
  apply encode_append_ne_null s [] []
  rw [h]

theorem toldApart_writtenName (name other : Option String) :
    ToldApart (writtenName name) (writtenName other) := by
  cases name with
  | none =>
    cases other with
    | none => exact toldApart_self _
    | some t => exact fun xs ys _ _ h => (encode_append_ne_null t ys xs h.symm).elim
  | some s =>
    cases other with
    | none => exact fun xs ys _ _ h => (encode_append_ne_null s xs ys h).elim
    | some t => exact toldApart_encode s t

theorem writtenName_injective {name other : Option String}
    (h : writtenName name = writtenName other) : name = other := by
  cases name with
  | none =>
    cases other with
    | none => rfl
    | some t => exact (encode_ne_null t h.symm).elim
  | some s =>
    cases other with
    | none => exact (encode_ne_null s h).elim
    | some t => exact congrArg some (encode_injective h)

theorem printed_writtenName (name : Option String) : Printed (writtenName name) := by
  cases name with
  | none => simp [writtenName, Printed]
  | some s => exact printed_encode s

end Values

section Rows
variable {close : Char} {xs ys : List Char}

/-- What follows a value in a row of values that a mark closes: the other values, behind a comma
each, and the mark. -/
def following (close : Char) (xs : List Char) : List String → List Char
  | [] => close :: xs
  | v :: rest => ',' :: ' ' :: (v.toList ++ following close xs rest)

theorem intercalate_append (v : String) (rest : List String) :
    (", ".intercalate (v :: rest)).toList ++ close :: xs =
      v.toList ++ following close xs rest := by
  induction rest generalizing v with
  | nil => rw [String.intercalate_singleton, following]
  | cons w rest ih =>
    rw [String.intercalate_cons_cons, String.toList_append, String.toList_append, List.append_assoc,
      ih w, List.append_assoc, following]
    rfl

theorem stops_following (hclose : isNumeral close = false) (xs : List Char) (rest : List String) :
    Stops isNumeral (following close xs rest) := by
  cases rest with
  | nil => exact stops_cons hclose xs
  | cons v rest => exact stops_cons (by decide) _

theorem following_inj (hcomma : close ≠ ',') (hclose : isNumeral close = false)
    {vs ws : List String} (htold : ∀ v w, (v, w) ∈ vs.zip ws → ToldApart v w)
    (h : following close xs vs = following close ys ws) : vs = ws ∧ xs = ys := by
  induction vs generalizing ws with
  | nil =>
    cases ws with
    | nil => exact ⟨rfl, List.tail_eq_of_cons_eq h⟩
    | cons w ws => exact absurd (List.head_eq_of_cons_eq h) hcomma
  | cons v vs ih =>
    cases ws with
    | nil => exact absurd (List.head_eq_of_cons_eq h).symm hcomma
    | cons w ws =>
      have hvalues := List.tail_eq_of_cons_eq (List.tail_eq_of_cons_eq h)
      obtain ⟨rfl, hrest⟩ :=
        htold v w List.mem_cons_self _ _ (stops_following hclose _ _)
          (stops_following hclose _ _) hvalues
      obtain ⟨rfl, hxs⟩ := ih (fun v w hmem => htold v w (List.mem_cons_of_mem _ hmem)) hrest
      exact ⟨rfl, hxs⟩

/-- Rows of values that are told apart place by place, and of which none is empty, are told apart up
to the mark that closes them. -/
theorem intercalate_append_inj (hcomma : close ≠ ',') (hclose : isNumeral close = false)
    {vs ws : List String} (hvs : vs ≠ []) (hws : ws ≠ [])
    (htold : ∀ v w, (v, w) ∈ vs.zip ws → ToldApart v w)
    (h : (", ".intercalate vs).toList ++ close :: xs =
      (", ".intercalate ws).toList ++ close :: ys) : vs = ws ∧ xs = ys := by
  obtain ⟨v, vs, rfl⟩ := List.exists_cons_of_ne_nil hvs
  obtain ⟨w, ws, rfl⟩ := List.exists_cons_of_ne_nil hws
  rw [intercalate_append, intercalate_append] at h
  obtain ⟨rfl, hrest⟩ := htold v w List.mem_cons_self _ _ (stops_following hclose _ _)
    (stops_following hclose _ _) h
  obtain ⟨rfl, hxs⟩ := following_inj hcomma hclose
    (fun v w hmem => htold v w (List.mem_cons_of_mem _ hmem)) hrest
  exact ⟨rfl, hxs⟩

end Rows

section Objects

def field (entry : String × String) : String := encode entry.1 ++ ": " ++ entry.2

theorem toldApart_field (key : String) {v w : String} (h : ToldApart v w) :
    ToldApart (field (key, v)) (field (key, w)) := by
  intro xs ys hxs hys heq
  have hsplit (value : String) (rest : List Char) : (field (key, value)).toList ++ rest =
      (encode key ++ ": ").toList ++ (value.toList ++ rest) := by
    rw [field, String.toList_append, List.append_assoc]
  rw [hsplit, hsplit] at heq
  obtain ⟨rfl, hrest⟩ := h xs ys hxs hys (List.append_cancel_left heq)
  exact ⟨rfl, hrest⟩

theorem printed_object {entries : List (String × String)} (h : ∀ entry ∈ entries, Printed entry.2) :
    Printed (object entries) := by
  have hfields : ∀ text ∈ entries.map field, Printed text := by
    rw [List.forall_mem_map]
    exact fun entry hmem =>
      ((printed_encode entry.1).append (by simp [Printed])).append (h entry hmem)
  exact Printed.append (Printed.append (by simp [Printed])
    (.intercalate (by simp [Printed]) hfields)) (by simp [Printed])

theorem object_append_inj {entries others : List (String × String)} (hentries : entries ≠ [])
    (hothers : others ≠ [])
    (h : ∀ v w, (v, w) ∈ (entries.map field).zip (others.map field) → ToldApart v w)
    {xs ys : List Char} (heq : (object entries).toList ++ xs = (object others).toList ++ ys) :
    entries.map field = others.map field ∧ xs = ys := by
  have hsplit (entries : List (String × String)) (rest : List Char) :
      (object entries).toList ++ rest =
        '\x7b' :: ((", ".intercalate (entries.map field)).toList ++ '\x7d' :: rest) := by
    rw [object, String.toList_append, String.toList_append, List.append_assoc, List.append_assoc]
    rfl
  rw [hsplit, hsplit] at heq
  exact intercalate_append_inj (by decide) (by decide) (by simpa using hentries)
    (by simpa using hothers) h (List.tail_eq_of_cons_eq heq)

end Objects

section Occurrences
variable {xs ys : List Char}

def recorded (o : Occurrence) : String × String × Category := (o.graph, o.headword, o.category)

def writtenOccurrence (r : String × String × Category) : String :=
  object [("form", encode r.1), ("lemma", encode r.2.1), ("category", toString r.2.2)]

theorem map_occurrenceRecord (os : List Occurrence) :
    os.map occurrenceRecord = (os.map recorded).map writtenOccurrence := by
  rw [List.map_map]
  rfl

theorem field_inj {key v w : String} (h : field (key, v) = field (key, w)) : v = w :=
  (String.append_right_inj _).mp h

theorem printed_writtenOccurrence (r : String × String × Category) :
    Printed (writtenOccurrence r) := by
  refine printed_object ?_
  simp only [List.forall_mem_cons]
  exact ⟨printed_encode _, printed_encode _, printed_toString _, nofun⟩

theorem writtenOccurrence_append_inj {r r' : String × String × Category}
    (h : (writtenOccurrence r).toList ++ xs = (writtenOccurrence r').toList ++ ys) :
    r = r' ∧ xs = ys := by
  obtain ⟨hfields, hrest⟩ := object_append_inj (by simp) (by simp) (by
    simp only [List.map_cons, List.map_nil, List.zip_cons_cons, List.zip_nil_left, List.mem_cons,
      Prod.mk.injEq, List.not_mem_nil, or_false]
    rintro v w (⟨rfl, rfl⟩ | ⟨rfl, rfl⟩ | ⟨rfl, rfl⟩)
    · exact toldApart_field _ (toldApart_encode _ _)
    · exact toldApart_field _ (toldApart_encode _ _)
    · exact toldApart_field _ (toldApart_toString _ _)) h
  simp only [List.map_cons, List.map_nil, List.cons.injEq, and_true] at hfields
  obtain ⟨hform, hlemma, hcategory⟩ := hfields
  exact ⟨Prod.ext (encode_injective (field_inj hform)) (Prod.ext
    (encode_injective (field_inj hlemma)) (Int.repr_inj.mp (field_inj hcategory))), hrest⟩

theorem writtenOccurrence_injective : Function.Injective writtenOccurrence := by
  intro r r' h
  have happend : (writtenOccurrence r).toList ++ [] = (writtenOccurrence r').toList ++ [] := by
    rw [h]
  exact (writtenOccurrence_append_inj happend).1

theorem toldApart_writtenOccurrence (r r' : String × String × Category) :
    ToldApart (writtenOccurrence r) (writtenOccurrence r') := by
  intro xs ys _ _ h
  obtain ⟨rfl, hrest⟩ := writtenOccurrence_append_inj h
  exact ⟨rfl, hrest⟩

theorem printed_array {values : List String} (h : ∀ v ∈ values, Printed v) :
    Printed (array values) :=
  Printed.append (Printed.append (by simp [Printed]) (.intercalate (by simp [Printed]) h))
    (by simp [Printed])

theorem array_append_inj {values others : List String} (hvalues : values ≠ [])
    (hothers : others ≠ []) (h : ∀ v w, (v, w) ∈ values.zip others → ToldApart v w)
    (heq : (array values).toList ++ xs = (array others).toList ++ ys) :
    values = others ∧ xs = ys := by
  have hsplit (values : List String) (rest : List Char) : (array values).toList ++ rest =
      '[' :: ((", ".intercalate values).toList ++ ']' :: rest) := by
    rw [array, String.toList_append, String.toList_append, List.append_assoc, List.append_assoc]
    rfl
  rw [hsplit, hsplit] at heq
  exact intercalate_append_inj (by decide) (by decide) hvalues hothers h
    (List.tail_eq_of_cons_eq heq)

def writtenOccurrences (os : List Occurrence) : String := array (os.map occurrenceRecord)

theorem printed_writtenOccurrences (os : List Occurrence) : Printed (writtenOccurrences os) := by
  refine printed_array ?_
  rw [map_occurrenceRecord, List.forall_mem_map]
  exact fun r _ => printed_writtenOccurrence r

theorem writtenOccurrences_append_inj {os os' : List Occurrence} (hos : os ≠ []) (hos' : os' ≠ [])
    (h : (writtenOccurrences os).toList ++ xs = (writtenOccurrences os').toList ++ ys) :
    os.map recorded = os'.map recorded ∧ xs = ys := by
  rw [writtenOccurrences, writtenOccurrences, map_occurrenceRecord, map_occurrenceRecord] at h
  obtain ⟨heq, hrest⟩ := array_append_inj (by simpa using hos) (by simpa using hos')
    (fun v w hmem => by
      obtain ⟨hv, hw⟩ := List.of_mem_zip hmem
      obtain ⟨r, -, rfl⟩ := List.mem_map.mp hv
      obtain ⟨r', -, rfl⟩ := List.mem_map.mp hw
      exact toldApart_writtenOccurrence r r') h
  exact ⟨writtenOccurrence_injective.list_map heq, hrest⟩

theorem toldApart_writtenOccurrences {os os' : List Occurrence} (hos : os ≠ []) (hos' : os' ≠ []) :
    ToldApart (writtenOccurrences os) (writtenOccurrences os') := by
  intro xs ys _ _ h
  obtain ⟨heq, hrest⟩ := writtenOccurrences_append_inj hos hos' h
  refine ⟨?_, hrest⟩
  rw [writtenOccurrences, writtenOccurrences, map_occurrenceRecord, map_occurrenceRecord, heq]

end Occurrences

section Record
variable {a b : Hit} {record : String}

def recordFields (hit : Hit) (start stop : Int) (text : String) : List (String × String) :=
  [("name", writtenName hit.name), ("begin", toString hit.start), ("end", toString hit.stop),
    ("start_offset", toString start), ("end_offset", toString stop), ("text", encode text),
    ("occurrences", writtenOccurrences hit.occurrences)]

theorem record_of_ne_nil (h : a.occurrences ≠ []) : ∃ start stop text,
    a.startOffset = .ok start ∧ a.stopOffset = .ok stop ∧ a.text = .ok text ∧
      a.record = .ok (object (a.recordFields start stop text)) := by
  obtain ⟨first, hfirst⟩ : ∃ o, a.occurrences.head? = some o :=
    Option.isSome_iff_exists.mp (by simpa using h)
  obtain ⟨last, hlast⟩ : ∃ o, a.occurrences.getLast? = some o :=
    Option.isSome_iff_exists.mp (by simpa using h)
  have hstart : a.startOffset = .ok first.start := by rw [startOffset, hfirst]
  have hstop : a.stopOffset = .ok last.stop := by rw [stopOffset, hlast]
  obtain ⟨text, htext⟩ : ∃ text, a.text = .ok text := by
    rw [Hit.text, hstart, hstop]
    cases a.source with
    | none => exact ⟨_, rfl⟩
    | some source => exact ⟨_, rfl⟩
  refine ⟨_, _, text, hstart, hstop, htext, ?_⟩
  rw [Hit.record, hstart, hstop, htext]
  rfl

theorem ne_nil_of_record (h : a.record = .ok record) : a.occurrences ≠ [] := by
  intro hnil
  have hstart : a.startOffset = .error .occurrence := by rw [startOffset, hnil, List.head?_nil]
  rw [Hit.record, hstart] at h
  cases h

theorem record_eq_ok (h : a.record = .ok record) : ∃ start stop text,
    a.startOffset = .ok start ∧ a.stopOffset = .ok stop ∧ a.text = .ok text ∧
      record = object (a.recordFields start stop text) := by
  obtain ⟨start, stop, text, hstart, hstop, htext, hrecord⟩ :=
    record_of_ne_nil (ne_nil_of_record h)
  exact ⟨start, stop, text, hstart, hstop, htext, Except.ok.inj (h.symm.trans hrecord)⟩

theorem printed_record (h : a.record = .ok record) : Printed record := by
  obtain ⟨start, stop, text, -, -, -, rfl⟩ := record_eq_ok h
  refine printed_object ?_
  simp only [recordFields, List.forall_mem_cons]
  exact ⟨printed_writtenName _, printed_toString _, printed_toString _, printed_toString _,
    printed_toString _, printed_encode _, printed_writtenOccurrences _, nofun⟩

theorem eq_of_record (ha : a.record = .ok record) (hb : b.record = .ok record) :
    a.name = b.name ∧ a.start = b.start ∧ a.stop = b.stop ∧ a.startOffset = b.startOffset ∧
      a.stopOffset = b.stopOffset ∧ a.text = b.text ∧
      a.occurrences.map recorded = b.occurrences.map recorded := by
  have hane := ne_nil_of_record ha
  have hbne := ne_nil_of_record hb
  obtain ⟨start, stop, text, hstart, hstop, htext, hrecord⟩ := record_eq_ok ha
  obtain ⟨start', stop', text', hstart', hstop', htext', hrecord'⟩ := record_eq_ok hb
  have hobjects : (object (a.recordFields start stop text)).toList ++ [] =
      (object (b.recordFields start' stop' text')).toList ++ [] := by
    rw [← hrecord, hrecord']
  obtain ⟨hfields, -⟩ := object_append_inj (by simp [recordFields]) (by simp [recordFields]) (by
    simp only [recordFields, List.map_cons, List.map_nil, List.zip_cons_cons, List.zip_nil_left,
      List.mem_cons, Prod.mk.injEq, List.not_mem_nil, or_false]
    rintro v w (⟨rfl, rfl⟩ | ⟨rfl, rfl⟩ | ⟨rfl, rfl⟩ | ⟨rfl, rfl⟩ | ⟨rfl, rfl⟩ | ⟨rfl, rfl⟩ |
      ⟨rfl, rfl⟩)
    · exact toldApart_field _ (toldApart_writtenName _ _)
    · exact toldApart_field _ (toldApart_toString _ _)
    · exact toldApart_field _ (toldApart_toString _ _)
    · exact toldApart_field _ (toldApart_toString _ _)
    · exact toldApart_field _ (toldApart_toString _ _)
    · exact toldApart_field _ (toldApart_encode _ _)
    · exact toldApart_field _ (toldApart_writtenOccurrences hane hbne)) hobjects
  simp only [recordFields, List.map_cons, List.map_nil, List.cons.injEq, and_true] at hfields
  obtain ⟨hname, hbegin, hend, hfirst, hlast, hquoted, hrows⟩ := hfields
  have hrows : (writtenOccurrences a.occurrences).toList ++ [] =
      (writtenOccurrences b.occurrences).toList ++ [] := by
    rw [field_inj hrows]
  refine ⟨writtenName_injective (field_inj hname), Int.repr_inj.mp (field_inj hbegin),
    Int.repr_inj.mp (field_inj hend), ?_, ?_, ?_, (writtenOccurrences_append_inj hane hbne hrows).1⟩
  · rw [hstart, hstart', Int.repr_inj.mp (field_inj hfirst)]
  · rw [hstop, hstop', Int.repr_inj.mp (field_inj hlast)]
  · rw [htext, htext', encode_injective (field_inj hquoted)]

end Record

end Concordance.Hit
