import Concordance.Text.Case
import Concordance.Text.CharClass

/-! Lowercase is its own lowercase, and characters keep their class in it. The table is looked into
row by row: a row of letters in two cases by turns maps each to its neighbour in the row, and any
other row maps to where the table has nothing to say. -/

namespace Concordance.Text

namespace CodeTable
variable {α : Type} {rows : List (CodeRow α)} {row : CodeRow α} {table : CodeTable α}
  {n m lo hi : Nat}

def clearIn : List (CodeRow α) → Nat → Nat → Bool
  | [], _, _ => true
  | row :: rows, lo, hi => decide (hi < row.first) || decide (row.last < lo) && clearIn rows lo hi

def clear : CodeTable α → Nat → Nat → Bool
  | [], _, _ => true
  | (last, rows) :: blocks, lo, hi =>
    if hi ≤ last then clearIn rows lo hi else decide (last < lo) && clear blocks lo hi

theorem rowIn_of_clearIn (h : clearIn rows lo hi = true) (hlo : lo ≤ n) (hhi : n ≤ hi) :
    rowIn rows n = none := by
  induction rows with
  | nil => rfl
  | cons row rows ih =>
    simp only [clearIn, Bool.or_eq_true, Bool.and_eq_true, decide_eq_true_eq] at h
    rw [rowIn]
    rcases h with hbefore | ⟨hbehind, hrest⟩
    · rw [if_pos (Nat.lt_of_le_of_lt hhi hbefore)]
    · split
      · rfl
      · rw [if_neg (Nat.not_le_of_lt (Nat.lt_of_lt_of_le hbehind hlo)), ih hrest]

theorem row?_of_clear (h : clear table lo hi = true) (hlo : lo ≤ n) (hhi : n ≤ hi) :
    table.row? n = none := by
  induction table with
  | nil => rfl
  | cons block blocks ih =>
    obtain ⟨last, rows⟩ := block
    rw [clear] at h
    rw [row?]
    split at h
    · rw [if_pos (by omega), rowIn_of_clearIn h hlo hhi]
    · obtain ⟨hbehind, hrest⟩ := Bool.and_eq_true_iff.mp h
      have hlast := of_decide_eq_true hbehind
      rw [if_neg (by omega), ih hrest]

theorem rowIn_of_le (h : rowIn rows n = some row) (hle : n ≤ m) (hm : m ≤ row.last) :
    rowIn rows m = some row := by
  induction rows with
  | nil => cases h
  | cons here rows ih =>
    rw [rowIn] at h ⊢
    split at h
    · cases h
    split at h
    · cases h
      rw [if_neg (by omega), if_pos hm]
    · rw [if_neg (by omega), if_neg (by omega), ih h]

def Bounded (table : CodeTable α) : Prop := ∀ block ∈ table, ∀ row ∈ block.2, row.last ≤ block.1

theorem row?_of_le (hbounded : Bounded table) (h : table.row? n = some row) (hle : n ≤ m)
    (hm : m ≤ row.last) : table.row? m = some row := by
  induction table with
  | nil => cases h
  | cons block blocks ih =>
    obtain ⟨last, rows⟩ := block
    obtain ⟨hblock, hrest⟩ := List.forall_mem_cons.mp hbounded
    rw [row?] at h ⊢
    split at h
    · rw [if_pos (Nat.le_trans hm (hblock row (rowIn_eq_some h).1)), rowIn_of_le h hle hm]
    · rw [if_neg (by omega), ih hrest h]

theorem row?_eq_some (h : table.row? n = some row) :
    (∃ block ∈ table, row ∈ block.2) ∧ row.first ≤ n ∧ n ≤ row.last := by
  induction table with
  | nil => cases h
  | cons block blocks ih =>
    rw [row?] at h
    split at h
    · obtain ⟨hmem, hbounds⟩ := rowIn_eq_some h
      exact ⟨⟨block, List.mem_cons_self, hmem⟩, hbounds⟩
    · obtain ⟨⟨block, hblock, hmem⟩, hbounds⟩ := ih h
      exact ⟨⟨block, List.mem_cons_of_mem _ hblock, hmem⟩, hbounds⟩

end CodeTable

open Case CodeTable

def Settled (c : Char) : Prop := lowerChar c = [c] ∧ c ≠ 'Σ'

instance (c : Char) : Decidable (Settled c) := inferInstanceAs (Decidable (_ ∧ _))

def steady (n : Nat) : Bool :=
  match lowerTable.row? n with
  | some row => (n - row.first) % row.value.step != 0
  | none => true

/-- Whether a row maps its code points to characters at which the table is steady: beyond all rows,
or by turns to the next code point of the row itself. -/
def lands (row : CodeRow CaseShift) : Bool :=
  let lo := (row.first + row.value.distance).toNat
  let hi := (row.last + row.value.distance).toNat
  (decide (hi < 0xd800) || decide (0xdfff < lo) && decide (hi < 0x110000)) &&
    (decide (hi < 0x130) || decide (0x130 < lo)) &&
    (lowerTable.clear lo hi || lo == hi && steady lo ||
      row.value.step == 2 && row.value.distance == 1 && steady (row.last + 1))

theorem lands_lowerTable : ∀ block ∈ lowerTable, ∀ row ∈ block.2, lands row = true := by
  decide +kernel

theorem bounded_lowerTable : Bounded lowerTable := by
  unfold Bounded
  decide +kernel

theorem steady_of_clear {n lo hi : Nat} (h : lowerTable.clear lo hi = true) (hlo : lo ≤ n)
    (hhi : n ≤ hi) : steady n = true := by
  rw [steady, row?_of_clear h hlo hhi]

theorem steady_succ {row : CodeRow CaseShift} {n : Nat} (hrow : lowerTable.row? n = some row)
    (hstep : (n - row.first) % row.value.step = 0) (htwo : row.value.step = 2)
    (hend : steady (row.last + 1) = true) : steady (n + 1) = true := by
  obtain ⟨-, hfirst, hlast⟩ := row?_eq_some hrow
  rcases Nat.eq_or_lt_of_le hlast with rfl | hlt
  · exact hend
  · rw [steady, row?_of_le bounded_lowerTable hrow (Nat.le_succ n) hlt]
    rw [htwo] at hstep
    simp only [htwo, bne_iff_ne]
    omega

theorem steady_of_lands {row : CodeRow CaseShift} {n : Nat} (hrow : lowerTable.row? n = some row)
    (hstep : (n - row.first) % row.value.step = 0) (h : lands row = true) :
    let image := (n + row.value.distance).toNat
    steady image = true ∧ image.isValidChar ∧ image ≠ 0x130 := by
  obtain ⟨-, hfirst, hlast⟩ := row?_eq_some hrow
  simp only [lands, Bool.and_eq_true, Bool.or_eq_true, decide_eq_true_eq, beq_iff_eq] at h
  obtain ⟨⟨hvalid, hdotted⟩, hsteady⟩ := h
  have hlo : (row.first + row.value.distance).toNat ≤ (n + row.value.distance).toNat := by omega
  have hhi : (n + row.value.distance).toNat ≤ (row.last + row.value.distance).toNat := by omega
  refine ⟨?_, ?_, by omega⟩
  · rcases hsteady with (hclear | ⟨hone, hlo'⟩) | ⟨⟨htwo, hdistance⟩, hend⟩
    · exact steady_of_clear hclear hlo hhi
    · rw [Nat.le_antisymm (hone ▸ hhi) hlo]
      exact hlo'
    · rw [hdistance]
      exact steady_succ hrow hstep htwo hend
  · unfold Nat.isValidChar
    omega

theorem toNat_ofNat_of_valid {n : Nat} (h : n.isValidChar) : (Char.ofNat n).toNat = n := by
  rw [Char.ofNat, dif_pos h]
  rfl

theorem settled_of_steady {n : Nat} (h : steady n = true) (hvalid : n.isValidChar)
    (hdotted : n ≠ 0x130) : Settled (Char.ofNat n) := by
  have hcode := toNat_ofNat_of_valid hvalid
  have hne {c : Char} (hc : n ≠ c.toNat) : Char.ofNat n ≠ c := by
    rintro rfl
    exact hc hcode.symm
  refine ⟨lowerChar_of_silent (hne hdotted) fun row hrow => ?_, hne ?_⟩
  · rw [hcode] at hrow ⊢
    rw [steady, hrow] at h
    simpa using h
  · rintro rfl
    exact absurd h (by decide +kernel)

inductive Lowers (c : Char) : List Char → Prop
  | dotted : c = 'İ' → Lowers c ['i', '\u0307']
  | row {block : Nat × List (CodeRow CaseShift)} {row : CodeRow CaseShift} :
      block ∈ lowerTable → row ∈ block.2 → lowerTable.row? c.toNat = some row →
      (c.toNat - row.first) % row.value.step = 0 →
      Lowers c [Char.ofNat (c.toNat + row.value.distance).toNat]
  | stays : Lowers c [c]

theorem lowers_lowerChar (c : Char) : Lowers c (lowerChar c) := by
  by_cases hdotted : c = 'İ'
  · rw [lowerChar, if_pos hdotted]
    exact .dotted hdotted
  by_cases hrow : ∃ row, lowerTable.row? c.toNat = some row ∧
      (c.toNat - row.first) % row.value.step = 0
  · obtain ⟨row, hrow, hstep⟩ := hrow
    obtain ⟨⟨block, hblock, hmem⟩, -⟩ := row?_eq_some hrow
    rw [lowerChar_of_row hdotted hrow hstep]
    exact .row hblock hmem hrow hstep
  · rw [lowerChar_of_silent hdotted fun row hrow' hstep => hrow ⟨row, hrow', hstep⟩]
    exact .stays

theorem settled_of_mem_lowerChar {c d : Char} (hsigma : c ≠ 'Σ') (h : d ∈ lowerChar c) :
    Settled d := by
  have hlowers := lowers_lowerChar c
  generalize heq : lowerChar c = lowered at h hlowers
  cases hlowers with
  | dotted =>
    have hboth : Settled 'i' ∧ Settled '\u0307' := by decide +kernel
    rw [List.mem_cons, List.mem_singleton] at h
    rcases h with rfl | rfl
    · exact hboth.1
    · exact hboth.2
  | row hblock hmem hrow hstep =>
    obtain ⟨hsteady, hvalid, hne⟩ := steady_of_lands hrow hstep (lands_lowerTable _ hblock _ hmem)
    rw [List.mem_singleton.mp h]
    exact settled_of_steady hsteady hvalid hne
  | stays =>
    rw [List.mem_singleton.mp h]
    exact ⟨heq, hsigma⟩

/-- The first character of the lowercase: all of it, save for the dotted capital I. -/
def small (c : Char) : Char := (lowerChar c).headD c

theorem lowerChar_eq_small {c : Char} (h : c ≠ 'İ') : lowerChar c = [small c] := by
  have hlowers := lowers_lowerChar c
  rw [small]
  generalize lowerChar c = lowered at hlowers
  cases hlowers with
  | dotted hdotted => exact absurd hdotted h
  | row => rfl
  | stays => rfl

def codeClass (n : Nat) : CharClass := (CharClass.table.value? n).getD .other

def uniform (k : CharClass) (lo hi : Nat) : Bool :=
  match CharClass.table.row? lo with
  | some row => decide (hi ≤ row.last) && row.value == k
  | none => CharClass.table.clear lo hi && k == .other

/-- Whether a row maps its code points, none of which is punctuation, to their own class: all that
lie between its ends have it, or those that it maps. -/
def keeps (row : CodeRow CaseShift) : Bool :=
  let k := codeClass row.first
  let image (n : Nat) : Nat := (n + row.value.distance).toNat
  k != .punctuation &&
    (uniform k row.first row.last && uniform k (image row.first) (image row.last) ||
      (List.range (row.last + 1 - row.first)).all fun n => n % row.value.step != 0 ||
        codeClass (row.first + n) == k && codeClass (image (row.first + n)) == k)

theorem keeps_lowerTable : ∀ block ∈ lowerTable, ∀ row ∈ block.2, keeps row = true := by
  decide +kernel

theorem bounded_classTable : Bounded CharClass.table := by
  unfold Bounded
  decide +kernel

theorem codeClass_of_uniform {k : CharClass} {n lo hi : Nat} (h : uniform k lo hi = true)
    (hlo : lo ≤ n) (hhi : n ≤ hi) : codeClass n = k := by
  rw [uniform] at h
  rw [codeClass, value?]
  split at h
  · rename_i row hrow
    simp only [Bool.and_eq_true, decide_eq_true_eq, beq_iff_eq] at h
    obtain ⟨hlast, hvalue⟩ := h
    rw [row?_of_le bounded_classTable hrow hlo (Nat.le_trans hhi hlast)]
    exact hvalue
  · simp only [Bool.and_eq_true, beq_iff_eq] at h
    obtain ⟨hclear, hother⟩ := h
    rw [row?_of_clear hclear hlo hhi]
    exact hother.symm

theorem codeClass_of_keeps {row : CodeRow CaseShift} {n : Nat} (hfirst : row.first ≤ n)
    (hlast : n ≤ row.last) (hstep : (n - row.first) % row.value.step = 0)
    (h : keeps row = true) : codeClass n ≠ .punctuation ∧
      codeClass (n + row.value.distance).toNat = codeClass n := by
  simp only [keeps, Bool.and_eq_true, Bool.or_eq_true, bne_iff_ne, List.all_eq_true,
    List.mem_range, beq_iff_eq] at h
  obtain ⟨hclass, ⟨hhere, hthere⟩ | heach⟩ := h
  · have himage : codeClass (n + row.value.distance).toNat = codeClass row.first :=
      codeClass_of_uniform hthere (by omega) (by omega)
    rw [himage, codeClass_of_uniform hhere hfirst hlast]
    exact ⟨hclass, rfl⟩
  · obtain hskip | ⟨hhere, hthere⟩ := heach (n - row.first) (by omega)
    · exact absurd hstep hskip
    · rw [Nat.add_sub_cancel' hfirst] at hhere hthere
      rw [hhere, hthere]
      exact ⟨hclass, rfl⟩

/-- Lowercase keeps the class of a character, and punctuation as it is. -/
theorem class_small (c : Char) : CharClass.of (small c) = CharClass.of c ∧
    (small c = c ∨ CharClass.of c ≠ .punctuation) := by
  have hlowers := lowers_lowerChar c
  rw [small]
  generalize lowerChar c = lowered at hlowers
  cases hlowers with
  | dotted hdotted =>
    subst hdotted
    decide +kernel
  | row hblock hmem hrow hstep =>
    obtain ⟨-, hvalid, -⟩ := steady_of_lands hrow hstep (lands_lowerTable _ hblock _ hmem)
    obtain ⟨-, hfirst, hlast⟩ := row?_eq_some hrow
    obtain ⟨hclass, hsame⟩ :=
      codeClass_of_keeps hfirst hlast hstep (keeps_lowerTable _ hblock _ hmem)
    have hcode := toNat_ofNat_of_valid hvalid
    refine ⟨?_, .inr hclass⟩
    change codeClass (Char.ofNat _).toNat = codeClass c.toNat
    rw [hcode, hsame]
  | stays => exact ⟨rfl, .inl rfl⟩

theorem settled_apostrophe : Settled '\x27' := by decide +kernel

theorem settled_of_mem_lowerFrom {c : Char} {cs : List Char} {afterCased : Bool}
    (h : c ∈ lowerFrom afterCased cs) : Settled c := by
  have hsmall : Settled 'σ' ∧ Settled 'ς' := by decide +kernel
  induction cs generalizing afterCased with
  | nil => cases h
  | cons d rest ih =>
    rw [lowerFrom, List.mem_append] at h
    rcases h with hhere | hrest
    · split at hhere
      · split at hhere <;> cases List.mem_singleton.mp hhere
        · exact hsmall.2
        · exact hsmall.1
      · exact settled_of_mem_lowerChar ‹_› hhere
    · exact ih hrest

theorem lowerFrom_eq_self {cs : List Char} (h : ∀ c ∈ cs, Settled c) (afterCased : Bool) :
    lowerFrom afterCased cs = cs := by
  induction cs generalizing afterCased with
  | nil => rfl
  | cons c rest ih =>
    obtain ⟨⟨hc, hsigma⟩, hrest⟩ := List.forall_mem_cons.mp h
    rw [lowerFrom, if_neg hsigma, hc, ih hrest]
    rfl

theorem lower_eq_self {s : String} (h : ∀ c ∈ s.toList, Settled c) : lower s = s := by
  rw [lower, lowerFrom_eq_self h, String.ofList_toList]

theorem lowerFrom_eq_map {cs : List Char} (h : ∀ c ∈ cs, c ≠ 'Σ' ∧ c ≠ 'İ') (afterCased : Bool) :
    lowerFrom afterCased cs = cs.map small := by
  induction cs generalizing afterCased with
  | nil => rfl
  | cons c rest ih =>
    obtain ⟨⟨hsigma, hdotted⟩, hrest⟩ := List.forall_mem_cons.mp h
    rw [lowerFrom, if_neg hsigma, lowerChar_eq_small hdotted, ih hrest]
    rfl

theorem lower_eq_map {s : String} (h : ∀ c ∈ s.toList, c ≠ 'Σ' ∧ c ≠ 'İ') :
    lower s = String.ofList (s.toList.map small) := by
  rw [lower, lowerFrom_eq_map h]

theorem settled_lower (s : String) : ∀ c ∈ (lower s).toList, Settled c := by
  rw [lower, String.toList_ofList]
  exact fun c hc => settled_of_mem_lowerFrom hc

end Concordance.Text
