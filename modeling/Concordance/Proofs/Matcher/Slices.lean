import Concordance.Hit.Order
import Concordance.Proofs.Matcher.Streaming

/-! The hits of a scan are slices of the stream, and they follow each other without touching the
same occurrence twice. The reference has this by the way it goes on behind each match; a scan that
is left alone early has the first of the same hits. -/

namespace Concordance

namespace Pattern

section
variable {p : Pattern} {stream : List Occurrence} {index : Nat}

theorem attempt_stop_le {current : Option Nat} {stop : Nat}
    (h : p.attempt stream current index = .matched stop) (hindex : index ≤ stream.length) :
    stop ≤ stream.length := by
  fun_induction attempt p stream current index with
  | case1 index =>
    cases h
    exact hindex
  | case2 _ index hlt =>
    cases h
    exact hlt
  | case3 _ index _ _ _ _ _ _ k _ hfirst ih =>
    obtain ⟨-, -, o, ho, -⟩ := firstAccepted?_eq_some hfirst
    obtain ⟨hlt, -⟩ := List.getElem?_eq_some_iff.mp ho
    exact ih h hlt
  | case4 => cases h
  | case5 => cases h
  | case6 _ index hlt _ _ _ _ ih => exact ih h hlt
  | case7 => cases h
  | case8 => cases h

theorem mem_extents {extent : Nat × Nat} (h : extent ∈ p.extents stream index) :
    index ≤ extent.1 ∧ extent.1 < extent.2 ∧ extent.2 ≤ stream.length := by
  fun_induction extents p stream index with
  | case1 index _ _ ih =>
    have hextent := ih h
    omega
  | case2 index hlt next _ stop hending ih =>
    have hstart : index + 1 ≤ stop := attempt_le hending
    rcases List.mem_cons.mp h with rfl | h
    · exact ⟨Nat.le_refl index, hstart, attempt_stop_le hending hlt⟩
    · have hextent := ih h
      omega
  | case3 index _ next _ restart hending ih =>
    have hrestart := attempt_after p stream next (index + 1)
    rw [hending] at hrestart
    simp only [Attempt.After] at hrestart
    have hextent := ih h
    omega
  | case4 => cases h
  | case5 => cases h

theorem extents_pairwise (p : Pattern) (stream : List Occurrence) (index : Nat) :
    (p.extents stream index).Pairwise fun first second => first.2 ≤ second.1 := by
  fun_induction extents p stream index with
  | case1 _ _ _ ih => exact ih
  | case2 _ _ _ _ stop _ ih =>
    exact List.pairwise_cons.mpr ⟨fun extent hmem => (mem_extents hmem).1, ih⟩
  | case3 _ _ _ _ _ _ ih => exact ih
  | case4 => exact .nil
  | case5 => exact .nil

end

end Pattern

theorem slice_eq_stretch {α : Type} {stream : List α} {start stop : Nat} (hstart : start ≤ stop)
    (hstop : stop ≤ stream.length) :
    Text.slice stream start stop = stretch stream start stop := by
  rw [Text.slice_natCast hstart hstop, stretch]

namespace Hit

theorem apart {a b : Hit} (hsource : a.sameSource b = true) (hreversed : b.sameSource a = true)
    (ha : a.start < a.stop) (hb : b.start < b.stop) (h : a.stop ≤ b.start) :
    a.precedes b = .ok true ∧ a.overlaps b = .ok false ∧ b.overlaps a = .ok false := by
  refine ⟨?_, ?_, ?_⟩
  · rw [precedes, if_pos hsource, if_neg (by omega), decide_eq_true (by omega)]
  · rw [overlaps, if_pos hsource]
    simp only [Except.ok.injEq, Bool.or_eq_false_iff, decide_eq_false_iff_not]
    omega
  · rw [overlaps, if_pos hreversed]
    simp only [Except.ok.injEq, Bool.or_eq_false_iff, decide_eq_false_iff_not]
    omega

end Hit

namespace Matcher

open Pattern

/-- A scan that is left alone after some hits has yielded the first of those that it would have. -/
theorem scanFrom_limited (p : Pattern) (name : Option String) (source : Option Source)
    (limit : Option Nat) (index : Nat) (m : Matcher) (row : List Occurrence) :
    (scanFrom p name source limit index m row).1 <+:
      (scanFrom p name source none index m row).1 := by
  induction row generalizing limit index m with
  | nil => exact List.prefix_refl _
  | cons o rest ih =>
    rw [scanFrom, scanFrom]
    split
    · exact ih limit _ _
    · dsimp only [Option.any_none, Option.map_none]
      rw [if_neg Bool.false_ne_true]
      split
      · exact List.cons_prefix_cons.mpr ⟨rfl, List.nil_prefix⟩
      · exact List.cons_prefix_cons.mpr ⟨rfl, ih _ _ _⟩

/-- The hits of a scan are slices of its stream that are not empty, and their extents fit. Each hit
stops where the next one starts or before, so that it comes first and they do not overlap. -/
theorem scan_slices {p : Pattern} {lexicon : Option Lexicon} {text : String}
    (h : compile lexicon text = .ok p) (m : Matcher) (stream : List Occurrence)
    (name : Option String) (source : Option Source) (limit : Option Nat) :
    (∀ hit ∈ (m.scan p stream name source limit).1,
      0 ≤ hit.start ∧ hit.start < hit.stop ∧ hit.stop ≤ stream.length ∧
        hit.occurrences = Text.slice stream hit.start hit.stop ∧
        Hit.ofExtent hit.occurrences hit.start hit.stop name source = .ok hit) ∧
    (m.scan p stream name source limit).1.Pairwise fun a b =>
      a.stop ≤ b.start ∧ a.precedes b = .ok true ∧ a.overlaps b = .ok false ∧
        b.overlaps a = .ok false := by
  have hfirst := scanFrom_limited p name source limit 0 m.reset stream
  rw [Awaits.scanFrom (wellFormed_of_compile h) name source (.atRoot rfl) List.drop_zero] at hfirst
  constructor
  · intro hit hmem
    obtain ⟨extent, hextent, rfl⟩ := List.mem_map.mp (hfirst.mem hmem)
    obtain ⟨-, hstart, hstop⟩ := mem_extents hextent
    have hlength : (stretch stream extent.1 extent.2).length = extent.2 - extent.1 :=
      length_stretch hstop
    refine ⟨Int.natCast_nonneg _, Int.ofNat_lt.mpr hstart, Int.ofNat_le.mpr hstop, ?_, ?_⟩
    · exact (slice_eq_stretch (Nat.le_of_lt hstart) hstop).symm
    · rw [Hit.ofExtent, if_pos]
      · rfl
      · simp only [hitAt, hlength]
        omega
  · refine List.Pairwise.sublist hfirst.sublist (List.pairwise_map.mpr ?_)
    refine (extents_pairwise p stream 0).imp_of_mem fun ha hb hle => ?_
    have hsource := fun extent other : Nat × Nat => show
      (hitAt stream name source extent).sameSource (hitAt stream name source other) = true from
        beq_self_eq_true _
    have hapart := Hit.apart (hsource _ _) (hsource _ _) (Int.ofNat_lt.mpr (mem_extents ha).2.1)
      (Int.ofNat_lt.mpr (mem_extents hb).2.1) (Int.ofNat_le.mpr hle)
    exact ⟨Int.ofNat_le.mpr hle, hapart⟩

theorem slices_behind_leftover : ∃ (p : Pattern) (m : Matcher) (stream : List Occurrence),
    compile none "a **1 b" = .ok p ∧ m = (step p fresh (.untagged "a" 7)).2 ∧ m.atRoot = false ∧
      stream = Occurrence.ofSymbols (fun _ => .null) "b a x b a b" ∧
      (m.scan p stream none none none).1.map (fun hit => (hit.start, hit.stop)) =
        [(1, 4), (4, 6)] ∧
      (m.scan p stream none none none).1.Pairwise fun a b => a.precedes b = .ok true := by
  have hcompile : compile none "a **1 b" = .ok (ofChain
      [.term (.form "a" .plain) 0, .term (.gap 1) 2, .term (.form "b" .plain) 6] "a **1 b") := by
    cbv
  refine ⟨_, _, _, hcompile, rfl, ?_, rfl, ?_, ?_⟩
  · cbv
  · cbv
  · exact (scan_slices hcompile _ _ none none none).2.imp fun h => h.2.1

end Matcher
end Concordance
