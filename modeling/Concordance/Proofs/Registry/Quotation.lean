import Concordance.Proofs.Matcher.Slices
import Concordance.Proofs.Registry.Built
import Concordance.Proofs.Tagging.Tokens
import Concordance.Proofs.Tokenizer.Scanning

/-! What a registry finds in a text, told in the offsets of the text. Tokens stand in the text one
behind another, and no tagger moves them; a row of them that a pattern has taken is therefore a
quotation, from its first token to its last one, and nothing that is between them is missing from
it. -/

namespace Concordance

structure InText (text : List Char) (os : List Occurrence) : Prop where
  inside : ∀ o ∈ os, 0 ≤ o.start ∧ o.start < o.stop ∧ o.stop ≤ text.length
  graphs : ∀ o ∈ os, o.graph.toList = Text.slice text o.start o.stop
  apart : os.Pairwise fun a b => a.stop ≤ b.start

/-- A hit, from its first occurrence to its last one, that quotes a text whose occurrences are those
of a stream. -/
structure Hit.Quotes (hit : Hit) (text : String) (stream : List Occurrence)
    (first last : Occurrence) : Prop where
  extent : 0 ≤ hit.start ∧ hit.start < hit.stop ∧ hit.stop ≤ stream.length
  occurrences_eq : hit.occurrences = Text.slice stream hit.start hit.stop
  head?_eq : hit.occurrences.head? = some first
  getLast?_eq : hit.occurrences.getLast? = some last
  startOffset_eq : hit.startOffset = .ok first.start
  stopOffset_eq : hit.stopOffset = .ok last.stop
  inside : 0 ≤ first.start ∧ first.start < last.stop ∧ last.stop ≤ text.toList.length
  text_eq : hit.text = .ok (String.ofList (Text.slice text.toList first.start last.stop))
  text_ne : Text.slice text.toList first.start last.stop ≠ []
  begins : first.graph.toList <+: Text.slice text.toList first.start last.stop
  ends : last.graph.toList <:+ Text.slice text.toList first.start last.stop
  /-- What stands between the offsets of the hit belongs to it. -/
  whole : ∀ o ∈ stream, first.start ≤ o.start → o.stop ≤ last.stop → o ∈ hit.occurrences

namespace Hit

variable {hit : Hit} {first last : Occurrence}

theorem startOffset_of_head? (h : hit.occurrences.head? = some first) :
    hit.startOffset = .ok first.start := by
  rw [startOffset, h]

theorem stopOffset_of_getLast? (h : hit.occurrences.getLast? = some last) :
    hit.stopOffset = .ok last.stop := by
  rw [stopOffset, h]

theorem text_of_source {source : Source} (hsource : hit.source = some source)
    (hfirst : hit.occurrences.head? = some first) (hlast : hit.occurrences.getLast? = some last) :
    hit.text = .ok (source.piece first.start last.stop) := by
  rw [text, hsource, startOffset_of_head? hfirst, stopOffset_of_getLast? hlast]
  rfl

end Hit

section
variable {α : Type} {xs : List α}

theorem slice_append {start middle stop : Int} (hstart : 0 ≤ start) (hmiddle : start ≤ middle)
    (hstop : middle ≤ stop) (hlength : stop ≤ xs.length) :
    Text.slice xs start middle ++ Text.slice xs middle stop = Text.slice xs start stop := by
  obtain ⟨i, rfl⟩ := Int.eq_ofNat_of_zero_le hstart
  obtain ⟨j, rfl⟩ := Int.eq_ofNat_of_zero_le (Int.le_trans hstart hmiddle)
  obtain ⟨k, rfl⟩ := Int.eq_ofNat_of_zero_le (by omega : 0 ≤ stop)
  have hij : i ≤ j := Int.ofNat_le.mp hmiddle
  have hjk : j ≤ k := Int.ofNat_le.mp hstop
  have hk : k ≤ xs.length := Int.ofNat_le.mp hlength
  rw [slice_eq_stretch hij (hjk.trans hk), slice_eq_stretch hjk hk,
    slice_eq_stretch (hij.trans hjk) hk, stretch_append hij hjk]

theorem length_slice {start stop : Int} (hstart : 0 ≤ start) (hstop : start ≤ stop)
    (hlength : stop ≤ xs.length) : ((Text.slice xs start stop).length : Int) = stop - start := by
  obtain ⟨i, rfl⟩ := Int.eq_ofNat_of_zero_le hstart
  obtain ⟨j, rfl⟩ := Int.eq_ofNat_of_zero_le (Int.le_trans hstart hstop)
  have hij : i ≤ j := Int.ofNat_le.mp hstop
  have hj : j ≤ xs.length := Int.ofNat_le.mp hlength
  rw [slice_eq_stretch hij hj, length_stretch hj, Int.ofNat_sub hij]

theorem mem_stretch {start stop index : Nat} {x : α} (hstart : start ≤ index) (hstop : index < stop)
    (hx : xs[index]? = some x) : x ∈ stretch xs start stop := by
  rw [← stretch_append hstart (Nat.le_of_lt hstop), stretch_cons hstop hx]
  simp

end

namespace InText

variable {text : List Char} {os : List Occurrence}

theorem map_bare_iff : InText text (os.map Occurrence.bare) ↔ InText text os := by
  constructor
  · rintro ⟨hinside, hgraphs, hapart⟩
    exact ⟨List.forall_mem_map.mp hinside, List.forall_mem_map.mp hgraphs,
      List.pairwise_map.mp hapart⟩
  · rintro ⟨hinside, hgraphs, hapart⟩
    exact ⟨List.forall_mem_map.mpr hinside, List.forall_mem_map.mpr hgraphs,
      List.pairwise_map.mpr hapart⟩

theorem of_map_bare {tagged : List Occurrence} (h : InText text os)
    (heq : tagged.map Occurrence.bare = os.map Occurrence.bare) : InText text tagged := by
  rw [← map_bare_iff, heq]
  exact map_bare_iff.mpr h

section
variable {a b : Occurrence} {i j : Nat}

theorem stop_le_start (h : InText text os) (hi : os[i]? = some a) (hj : os[j]? = some b)
    (hij : i < j) : a.stop ≤ b.start := by
  obtain ⟨hilt, rfl⟩ := List.getElem?_eq_some_iff.mp hi
  obtain ⟨hjlt, rfl⟩ := List.getElem?_eq_some_iff.mp hj
  exact List.pairwise_iff_getElem.mp h.apart i j hilt hjlt hij

theorem le_of_le (h : InText text os) (hi : os[i]? = some a) (hj : os[j]? = some b)
    (hij : i ≤ j) : a.start ≤ b.start ∧ a.stop ≤ b.stop := by
  rcases Nat.eq_or_lt_of_le hij with rfl | hlt
  · cases Option.some.inj (hi.symm.trans hj)
    exact ⟨Int.le_refl _, Int.le_refl _⟩
  · have hapart := h.stop_le_start hi hj hlt
    have ha := h.inside a (List.mem_of_getElem? hi)
    have hb := h.inside b (List.mem_of_getElem? hj)
    omega

theorem index_between {o : Occurrence} {k : Nat} (h : InText text os) (hi : os[i]? = some a)
    (hj : os[j]? = some b) (hk : os[k]? = some o) (hstart : a.start ≤ o.start)
    (hstop : o.stop ≤ b.stop) : i ≤ k ∧ k ≤ j := by
  have ho := h.inside o (List.mem_of_getElem? hk)
  constructor
  · by_contra hki
    have hapart := h.stop_le_start hk hi (by omega)
    omega
  · by_contra hjk
    have hapart := h.stop_le_start hj hk (by omega)
    omega

end
end InText

theorem Tokenizer.inText (text : String) (start : Int) (stop : Option Int) (options : Options) :
    InText text.toList (TokenSequence.ofText text start stop options).occurrences := by
  have hcuts := ofText_cuts text.toList start stop options
  have hbody : between text.toList (ofText text.toList start stop options).pointer
      (ofText text.toList start stop options).stop <+:
        text.toList.drop (ofText text.toList start stop options).pointer := by
    rw [between, List.drop_take]
    exact List.take_prefix _ _
  have hspans := hcuts.spans hbody
  refine ⟨fun o ho => ?_, fun o ho => (hspans o ho).2.2.2, hcuts.pairwise⟩
  obtain ⟨hstart, hlt, hstop, -⟩ := hspans o ho
  rw [length_between] at hstop
  omega

namespace InText

variable {text : String} {stream : List Occurrence}

theorem begins_ends {first last : Occurrence} {i j : Nat} (h : InText text.toList stream)
    (hfirst : stream[i]? = some first) (hlast : stream[j]? = some last) (hij : i ≤ j) :
    first.graph.toList <+: Text.slice text.toList first.start last.stop ∧
      last.graph.toList <:+ Text.slice text.toList first.start last.stop := by
  obtain ⟨hfirst₀, hfirst₁, -⟩ := h.inside first (List.mem_of_getElem? hfirst)
  obtain ⟨-, hlast₁, hlength⟩ := h.inside last (List.mem_of_getElem? hlast)
  obtain ⟨hstarts, hstops⟩ := h.le_of_le hfirst hlast hij
  constructor
  · rw [h.graphs first (List.mem_of_getElem? hfirst),
      ← slice_append hfirst₀ (Int.le_of_lt hfirst₁) hstops hlength]
    exact List.prefix_append _ _
  · rw [h.graphs last (List.mem_of_getElem? hlast),
      ← slice_append hfirst₀ hstarts (Int.le_of_lt hlast₁) hlength]
    exact List.suffix_append _ _

theorem quotes {first last : Occurrence} {i j : Nat} (h : InText text.toList stream)
    (name : Option String) (hfirst : stream[i]? = some first) (hlast : stream[j]? = some last)
    (hij : i ≤ j) :
    (Matcher.hitAt stream name (some (Registry.sourceOf text)) (i, j + 1)).Quotes text stream
      first last := by
  obtain ⟨hlt, -⟩ := List.getElem?_eq_some_iff.mp hlast
  have hhead : (stretch stream i (j + 1)).head? = some first := by
    rw [stretch_cons (Nat.succ_le_succ hij) hfirst, List.head?_cons]
  have hend : (stretch stream i (j + 1)).getLast? = some last := by
    rw [stretch_snoc hij hlast, List.getLast?_concat]
  obtain ⟨hfirst₀, hfirst₁, -⟩ := h.inside first (List.mem_of_getElem? hfirst)
  obtain ⟨-, -, hlength⟩ := h.inside last (List.mem_of_getElem? hlast)
  have hstops := (h.le_of_le hfirst hlast hij).2
  obtain ⟨hbegins, hends⟩ := h.begins_ends hfirst hlast hij
  refine {
    extent := ⟨Int.natCast_nonneg _, Int.ofNat_lt.mpr (Nat.lt_succ_of_le hij), Int.ofNat_le.mpr hlt⟩
    occurrences_eq := (slice_eq_stretch (Nat.le_succ_of_le hij) hlt).symm
    head?_eq := hhead
    getLast?_eq := hend
    startOffset_eq := Hit.startOffset_of_head? hhead
    stopOffset_eq := Hit.stopOffset_of_getLast? hend
    inside := ⟨hfirst₀, by omega, hlength⟩
    text_eq := ?_
    text_ne := ?_
    begins := hbegins
    ends := hends
    whole := ?_ }
  · rw [Hit.text_of_source rfl hhead hend, Registry.sourceOf, Source.piece_ofText]
  · intro hnil
    have hsize := length_slice hfirst₀ (by omega : first.start ≤ last.stop) hlength
    rw [hnil, List.length_nil] at hsize
    omega
  · intro o ho hstart hstop
    obtain ⟨k, hk⟩ := List.mem_iff_getElem?.mp ho
    obtain ⟨hik, hkj⟩ := h.index_between hfirst hlast hk hstart hstop
    exact mem_stretch hik (Nat.lt_succ_of_le hkj) hk

theorem quotes_extent (h : InText text.toList stream) (name : Option String) {p : Pattern}
    {extent : Nat × Nat} (hextent : extent ∈ p.extents stream 0) : ∃ first last,
      stream[extent.1]? = some first ∧ stream[extent.2 - 1]? = some last ∧
      (Matcher.hitAt stream name (some (Registry.sourceOf text)) extent).Quotes text stream first
        last := by
  obtain ⟨start, stop⟩ := extent
  obtain ⟨-, hlt, hstop⟩ := Pattern.mem_extents hextent
  obtain ⟨last, rfl⟩ : ∃ last, stop = last + 1 := ⟨stop - 1, by omega⟩
  have hfirst := List.getElem?_eq_getElem (show start < stream.length by omega)
  have hlast := List.getElem?_eq_getElem (show last < stream.length from hstop)
  exact ⟨_, _, hfirst, hlast, h.quotes name hfirst hlast (Nat.le_of_lt_succ hlt)⟩

end InText

namespace Registry

variable {r : Registry}

theorem inText_sequence (r : Registry) (text : String) (start : Int) (stop : Option Int) :
    InText text.toList (r.sequence text start stop).occurrences := by
  have htokens := Tokenizer.inText text start stop r.options
  rw [sequence, occurrences]
  cases r.tagger with
  | none => exact htokens
  | some tagger => exact htokens.of_map_bare (tagger.map_bare_tag text _)

theorem scan_eq_extents (hr : r.Built) {name : String} (hname : name ∈ r.names) (text : String)
    (start : Int) (stop : Option Int) : ∃ p : Pattern, r.scan name text start stop =
      .ok ((p.extents (r.sequence text start stop).occurrences 0).map (Matcher.hitAt
        (r.sequence text start stop).occurrences (some name) (some (sourceOf text)))) := by
  obtain ⟨p, hget, hlookup⟩ := lookup_of_mem_names hname
  obtain ⟨lexicon, source, hcompile⟩ := hr.compiled name p hget
  refine ⟨p, ?_⟩
  rw [scan, hitsIn, hlookup]
  exact congrArg Except.ok (Matcher.Awaits.scanFrom (Pattern.wellFormed_of_compile hcompile)
    (some name) (some (sourceOf text)) (.atRoot rfl) List.drop_zero)

/-- Each hit of a scan quotes the text, with all that the registry reads of it between the two ends
of the hit; and what a hit quotes ends where the quotation of the next one begins or before. -/
theorem scan_quotes (hr : r.Built) {name : String} (hname : name ∈ r.names) (text : String)
    (start : Int) (stop : Option Int) : ∃ hits, r.scan name text start stop = .ok hits ∧
      (∀ hit ∈ hits, ∃ first last,
        hit.Quotes text (r.sequence text start stop).occurrences first last) ∧
      hits.Pairwise fun a b => ∃ x y, a.stopOffset = .ok x ∧ b.startOffset = .ok y ∧ x ≤ y := by
  obtain ⟨p, hscan⟩ := scan_eq_extents hr hname text start stop
  have htext := inText_sequence r text start stop
  refine ⟨_, hscan, fun hit hmem => ?_, List.pairwise_map.mpr ?_⟩
  · obtain ⟨extent, hextent, rfl⟩ := List.mem_map.mp hmem
    obtain ⟨first, last, -, -, hquotes⟩ := htext.quotes_extent (some name) hextent
    exact ⟨first, last, hquotes⟩
  · refine (Pattern.extents_pairwise p _ 0).imp_of_mem fun {a b} ha hb hle => ?_
    -- The last occurrence of the one extent and the first of the other are different ones.
    obtain ⟨_, last, -, hlast, hquotes⟩ := htext.quotes_extent (some name) ha
    obtain ⟨first, _, hfirst, -, hquotes'⟩ := htext.quotes_extent (some name) hb
    have hlt := (Pattern.mem_extents ha).2.1
    exact ⟨_, _, hquotes.stopOffset_eq, hquotes'.startOffset_eq,
      htext.stop_le_start hlast hfirst (by omega)⟩

theorem quotes_across_markup : ∃ (r : Registry) (hits : List Hit),
    r.Built ∧ "phrase" ∈ r.names ∧
    r.scan "phrase" "<b>Marie</b> rit. Luc dort <i>bien</i> !" 0 none = .ok hits ∧
    hits.map Hit.text = [.ok "Marie</b> rit.", .ok "Luc dort <i>bien</i> !"] ∧
    (∀ hit ∈ hits, ∃ first last, hit.Quotes "<b>Marie</b> rit. Luc dort <i>bien</i> !"
      (r.sequence "<b>Marie</b> rit. Luc dort <i>bien</i> !" 0 none).occurrences first last) ∧
    hits.Pairwise fun a b => ∃ x y, a.stopOffset = .ok x ∧ b.startOffset = .ok y ∧ x ≤ y := by
  have hshown : ((empty none (some (.lexical none)) false ⟨true, false⟩).add "phrase"
      "NAME **2 PUNsent").toOption.map (fun added => (added.2.names, (added.2.scan "phrase"
        "<b>Marie</b> rit. Luc dort <i>bien</i> !" 0 none).toOption.map (List.map Hit.text))) =
      some (["phrase"], some [.ok "Marie</b> rit.", .ok "Luc dort <i>bien</i> !"]) := by
    decide +kernel
  cases hadd : (empty none (some (.lexical none)) false ⟨true, false⟩).add "phrase"
      "NAME **2 PUNsent" with
  | error e =>
    rw [hadd] at hshown
    cases hshown
  | ok added =>
    rw [hadd] at hshown
    obtain ⟨hnames, htexts⟩ := Prod.mk.inj (Option.some.inj hshown)
    have hbuilt : added.2.Built := .add (.empty _ _ _ _) hadd
    have hname : "phrase" ∈ added.2.names := hnames ▸ List.mem_singleton_self _
    obtain ⟨hits, hscan, hquotes, hapart⟩ := scan_quotes hbuilt hname
      "<b>Marie</b> rit. Luc dort <i>bien</i> !" 0 none
    rw [hscan] at htexts
    exact ⟨_, hits, hbuilt, hname, hscan, Option.some.inj htexts, hquotes, hapart⟩

end Registry
end Concordance
