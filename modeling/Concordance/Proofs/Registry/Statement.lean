import Concordance.Registry.Block
import Concordance.Proofs.Pattern.TermDisplay
import Concordance.Proofs.Text.Trimming

/-! What a statement of a block looks like: a name, an arrow and a pattern, with white space around
each of them or none. A line is a statement in at most one way, as neither a name nor an arrow has
white space in it, and the pattern is all that is left but the white space at its ends. -/

namespace Concordance.Registry

/-- A name: parts with a dot between each two, none of them empty. -/
def Dotted (cs : List Char) : Prop := ∃ parts : List (List Char), parts ≠ [] ∧
  (∀ part ∈ parts, part ≠ [] ∧ ∀ c ∈ part, isNameChar c = true) ∧ cs = ['.'].intercalate parts

structure States (line : List Char) (name pattern : String) : Prop where
  dotted : Dotted name.toList
  trimmed : Text.Trimmed pattern.toList
  spelled : ∃ before gap lead after, Text.Blank before ∧ Text.Blank gap ∧ Text.Blank lead ∧
    Text.Blank after ∧
    line = before ++ (name.toList ++ (gap ++ '-' :: '>' :: (lead ++ pattern.toList ++ after)))

section Names

theorem isNameChar_dot : isNameChar '.' = false := by decide +kernel

theorem isNameChar_of_isBlank {c : Char} (h : Text.isBlank c = true) : isNameChar c = false := by
  have hcodes : ∀ n ∈ Text.blankCodes, isNameChar (Char.ofNat n) = false := by decide +kernel
  rw [← Char.ofNat_toNat c]
  exact hcodes c.toNat (Text.toNat_mem_blankCodes h)

theorem isName_append {part : List Char} (hchars : ∀ c ∈ part, isNameChar c = true) {inside : Bool}
    (h : part = [] → inside = true) (rest : List Char) :
    isName inside (part ++ rest) = isName true rest := by
  induction part generalizing inside with
  | nil => rw [h rfl, List.nil_append]
  | cons c part ih =>
    obtain ⟨hc, hpart⟩ := List.forall_mem_cons.mp hchars
    have hdot : (c == '.') = false := by
      rw [beq_eq_false_iff_ne]
      rintro rfl
      rw [isNameChar_dot] at hc
      cases hc
    rw [List.cons_append, isName, hdot, if_neg Bool.false_ne_true, hc, Bool.true_and,
      ih hpart fun _ => rfl]

theorem isName_intercalate {parts : List (List Char)} (hne : parts ≠ [])
    (h : ∀ part ∈ parts, part ≠ [] ∧ ∀ c ∈ part, isNameChar c = true) :
    isName false (['.'].intercalate parts) = true := by
  induction parts with
  | nil => exact absurd rfl hne
  | cons part rest ih =>
    obtain ⟨⟨hpart, hchars⟩, hrest⟩ := List.forall_mem_cons.mp h
    cases rest with
    | nil =>
      rw [List.intercalate_singleton, ← List.append_nil part,
        isName_append hchars fun heq => absurd heq hpart]
      rfl
    | cons next rest =>
      rw [List.intercalate_cons_cons, List.append_assoc,
        isName_append hchars fun heq => absurd heq hpart, List.singleton_append, isName,
        if_pos (beq_self_eq_true '.'), Bool.true_and]
      exact ih (List.cons_ne_nil _ _) hrest

theorem parts_of_isName {inside : Bool} {cs : List Char} (h : isName inside cs = true) :
    ∃ part parts, (part = [] → inside = true) ∧ (∀ c ∈ part, isNameChar c = true) ∧
      (∀ other ∈ parts, other ≠ [] ∧ ∀ c ∈ other, isNameChar c = true) ∧
      cs = ['.'].intercalate (part :: parts) := by
  induction cs generalizing inside with
  | nil => exact ⟨[], [], fun _ => h, nofun, nofun, rfl⟩
  | cons c cs ih =>
    rw [isName] at h
    split at h
    next hdot =>
      obtain ⟨hinside, hname⟩ := Bool.and_eq_true_iff.mp h
      obtain ⟨part, parts, hpart, hchars, hparts, rfl⟩ := ih hname
      have hne : part ≠ [] := fun heq => Bool.false_ne_true (hpart heq)
      refine ⟨[], part :: parts, fun _ => hinside, nofun,
        List.forall_mem_cons.mpr ⟨⟨hne, hchars⟩, hparts⟩, ?_⟩
      rw [List.intercalate_cons_cons, beq_iff_eq.mp hdot]
      rfl
    next =>
      obtain ⟨hc, hname⟩ := Bool.and_eq_true_iff.mp h
      obtain ⟨part, parts, -, hchars, hparts, rfl⟩ := ih hname
      refine ⟨c :: part, parts, nofun, List.forall_mem_cons.mpr ⟨hc, hchars⟩, hparts, ?_⟩
      cases parts with
      | nil => rw [List.intercalate_singleton, List.intercalate_singleton]
      | cons next parts =>
        rw [List.intercalate_cons_cons, List.intercalate_cons_cons]
        rfl

theorem isName_iff {cs : List Char} : isName false cs = true ↔ Dotted cs := by
  constructor
  · intro h
    obtain ⟨part, parts, hpart, hchars, hparts, rfl⟩ := parts_of_isName h
    have hne : part ≠ [] := fun heq => Bool.false_ne_true (hpart heq)
    exact ⟨part :: parts, List.cons_ne_nil _ _,
      List.forall_mem_cons.mpr ⟨⟨hne, hchars⟩, hparts⟩, rfl⟩
  · rintro ⟨parts, hne, hparts, rfl⟩
    exact isName_intercalate hne hparts

instance (cs : List Char) : Decidable (Dotted cs) := decidable_of_iff _ isName_iff

def inName (c : Char) : Bool := c == '.' || isNameChar c

theorem inName_of_isBlank {c : Char} (h : Text.isBlank c = true) : inName c = false := by
  rw [inName, isNameChar_of_isBlank h, Bool.or_false, beq_eq_false_iff_ne]
  rintro rfl
  exact absurd h (by decide)

theorem Dotted.inName {cs : List Char} (h : Dotted cs) : ∀ c ∈ cs, inName c = true := by
  obtain ⟨parts, -, hparts, rfl⟩ := h
  intro c hc
  rw [Registry.inName, Bool.or_eq_true, beq_iff_eq]
  rcases mem_of_mem_intercalate hc with hdot | ⟨part, hpart, hmem⟩
  · exact .inl (List.mem_singleton.mp hdot)
  · exact .inr ((hparts part hpart).2 c hmem)

theorem Dotted.exists_cons {cs : List Char} (h : Dotted cs) :
    ∃ c rest, cs = c :: rest ∧ isNameChar c = true := by
  obtain ⟨parts, hne, hparts, rfl⟩ := h
  obtain ⟨part, parts, rfl⟩ := List.exists_cons_of_ne_nil hne
  obtain ⟨hpart, hchars⟩ := hparts part List.mem_cons_self
  obtain ⟨c, chars, rfl⟩ := List.exists_cons_of_ne_nil hpart
  cases parts with
  | nil => exact ⟨c, chars, List.intercalate_singleton, hchars c List.mem_cons_self⟩
  | cons next parts =>
    rw [List.intercalate_cons_cons]
    exact ⟨c, _, rfl, hchars c List.mem_cons_self⟩

theorem Dotted.stops_isBlank {cs : List Char} (h : Dotted cs) (rest : List Char) :
    Stops Text.isBlank (cs ++ rest) := by
  obtain ⟨c, chars, rfl, hc⟩ := h.exists_cons
  refine stops_cons (Bool.eq_false_iff.mpr fun hblank => ?_) _
  rw [isNameChar_of_isBlank hblank] at hc
  cases hc

end Names

section Statement
variable {line : List Char} {name pattern : String}

theorem statement?_eq_match (line body : List Char) (h : line.dropWhile Text.isBlank = body) :
    statement? line =
      match (body.dropWhile inName).dropWhile Text.isBlank with
      | '-' :: '>' :: pattern =>
        if isName false (body.takeWhile inName) then
          some (String.ofList (body.takeWhile inName), String.ofList (Text.strip pattern))
        else none
      | _ => none := by
  rw [← h]
  rfl

theorem States.statement?_eq (h : States line name pattern) :
    statement? line = some (name, pattern) := by
  obtain ⟨hdotted, htrimmed, before, gap, lead, after, hbefore, hgap, hlead, hafter, rfl⟩ := h
  let tail := lead ++ pattern.toList ++ after
  have harrow : Stops inName (gap ++ '-' :: '>' :: tail) := by
    cases gap with
    | nil => exact stops_cons (by decide +kernel) _
    | cons c gap => exact stops_cons (inName_of_isBlank (hgap c List.mem_cons_self)) _
  have hdash : Stops Text.isBlank ('-' :: '>' :: tail) := stops_cons (by decide) _
  rw [statement?_eq_match _ _ (dropWhile_append_stops hbefore (hdotted.stops_isBlank _)),
    dropWhile_append_stops hdotted.inName harrow, dropWhile_append_stops hgap hdash,
    takeWhile_append_stops hdotted.inName harrow]
  refine (if_pos (isName_iff.mpr hdotted)).trans ?_
  rw [Text.strip_eq_of_trimmed hlead htrimmed hafter, String.ofList_toList, String.ofList_toList]

theorem states_of_statement? (h : statement? line = some (name, pattern)) :
    States line name pattern := by
  let body := line.dropWhile Text.isBlank
  rw [statement?_eq_match line body rfl] at h
  split at h
  next source harrow =>
    obtain ⟨hname, heq⟩ := Option.ite_none_right_eq_some.mp h
    obtain ⟨rfl, rfl⟩ := Prod.mk.inj (Option.some.inj heq)
    obtain ⟨htrimmed, lead, after, hlead, hafter, hsource⟩ := Text.trimmed_strip source
    refine ⟨?_, ?_, line.takeWhile Text.isBlank,
      (body.dropWhile inName).takeWhile Text.isBlank, lead, after, Text.blank_takeWhile _,
      Text.blank_takeWhile _, hlead, hafter, ?_⟩
    · rw [String.toList_ofList]
      exact isName_iff.mp hname
    · rw [String.toList_ofList]
      exact htrimmed
    · rw [String.toList_ofList, String.toList_ofList, ← hsource, ← harrow,
        List.takeWhile_append_dropWhile, List.takeWhile_append_dropWhile,
        List.takeWhile_append_dropWhile]
  · cases h

theorem statement?_eq_some_iff :
    statement? line = some (name, pattern) ↔ States line name pattern :=
  ⟨states_of_statement?, States.statement?_eq⟩

theorem statement?_eq_none_iff :
    statement? line = none ↔ ∀ name pattern, ¬ States line name pattern := by
  rw [Option.eq_none_iff_forall_ne_some, Prod.forall]
  exact forall₂_congr fun name pattern => not_congr statement?_eq_some_iff

example : statement? "a..b -> c".toList = none := by decide +kernel

theorem States.not_isSilent (h : States line name pattern) : isSilent line = false := by
  obtain ⟨hdotted, -, before, gap, lead, after, hbefore, -, -, -, rfl⟩ := h
  rw [isSilent, dropWhile_append_stops hbefore (hdotted.stops_isBlank _)]
  obtain ⟨c, rest, hname, hc⟩ := hdotted.exists_cons
  rw [hname]
  refine beq_eq_false_iff_ne.mpr ?_
  rintro rfl
  exact absurd hc (by decide +kernel)

end Statement
end Concordance.Registry
