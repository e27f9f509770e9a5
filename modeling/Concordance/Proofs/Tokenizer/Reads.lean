import Concordance.Tokenizer.Basic

/-! Which characters a call reads. Each step is followed through the branches that it takes, and the
offset is put down wherever it asks which character stands there. Main statement: a call fails
exactly if one of these offsets lies behind the stored characters. -/

namespace Concordance.Tokenizer

def skipReads (markup : Bool) (stop : Int) : Nat → Bool → List Char → List Nat
  | pointer, _, [] => if pointer < stop then [pointer] else []
  | pointer, inMarkup, c :: rest =>
    if pointer < stop then
      pointer ::
        if inMarkup then skipReads markup stop (pointer + 1) (c != '>') rest
        else if markup && c == '<' then skipReads markup stop (pointer + 1) true rest
        else if isSpace c then skipReads markup stop (pointer + 1) false rest
        else []
    else []

def punctuationReads : Nat → List Char → List Nat
  | offset, [] => [offset]
  | offset, c :: rest =>
    offset :: if isPunctuation c then punctuationReads (offset + 1) rest else []

def encliticReads : Nat → List Char → List Char → List Nat
  | offset, _, [] => [offset]
  | offset, word, c :: rest =>
    offset ::
      if isLetter c then encliticReads (offset + 1) (c :: word) rest
      else if isApostrophe c then []
      else if word == ['t'] && c == '-' then encliticReads (offset + 1) [] rest
      else []

/-- The offsets that are read from a character of a word on, which has been read itself: behind a
hyphen those that tell whether it is detached, and then the next one, unless the word ends here. -/
def wordReads (markup : Bool) : Nat → List Char → List Char → List Nat
  | offset, _, [] => [offset]
  | offset, before, c :: rest =>
    if isApostrophe c && isElision before then []
    else
      (if c == '-' then encliticReads (offset + 1) [] rest else []) ++
        match if c == '-' then encliticAfter rest else some false with
        | some false =>
          (offset + 1) ::
            match rest with
            | [] => []
            | d :: _ =>
              if breaksWord markup d then [] else wordReads markup (offset + 1) (c :: before) rest
        | _ => []

def cutReads (markup : Bool) (offset : Nat) : List Char → List Nat
  | [] => [offset]
  | c :: rest =>
    if isPunctuation c then punctuationReads offset (c :: rest)
    else wordReads markup offset [] (c :: rest)

def reads (t : Tokenizer) : List Nat :=
  skipReads t.markup t.stop t.pointer t.inMarkup t.rest ++
    match skip t.markup t.stop t.pointer t.inMarkup t.rest with
    | none => []
    | some (start, _, rest) => if start < t.stop then cutReads t.markup start rest else []

/-- One of the offsets has no character, where `size` characters are stored. -/
def Misses (size : Nat) (offsets : List Nat) : Prop := ∃ i ∈ offsets, size ≤ i

section
variable {size offset : Nat} {offsets later : List Nat}

@[simp] theorem not_misses_nil : ¬Misses size [] := by simp [Misses]

@[simp] theorem misses_cons :
    Misses size (offset :: offsets) ↔ size ≤ offset ∨ Misses size offsets := by
  simp [Misses]

@[simp] theorem misses_append :
    Misses size (offsets ++ later) ↔ Misses size offsets ∨ Misses size later := by
  simp only [Misses, List.mem_append, or_and_right, exists_or]

end

section
variable {markup inside : Bool} {stop : Int} {pointer offset size : Nat}
  {word before rest : List Char}

theorem skip_length {start : Nat} {inside' : Bool} {left : List Char}
    (h : skip markup stop pointer inside rest = some (start, inside', left)) :
    start + left.length = pointer + rest.length := by
  induction rest generalizing pointer inside with
  | nil =>
    rw [skip] at h
    split at h
    · cases h
    · cases h
      rfl
  | cons c rest ih =>
    have hnext {inside : Bool} (h : skip markup stop (pointer + 1) inside rest =
        some (start, inside', left)) : start + left.length = pointer + (c :: rest).length := by
      rw [ih h, List.length_cons, Nat.add_assoc, Nat.add_comm 1]
    rw [skip] at h
    split at h
    · split at h
      · exact hnext h
      split at h
      · exact hnext h
      split at h
      · exact hnext h
      · cases h
        rfl
    · cases h
      rfl

theorem skip_eq_none_iff (hsize : pointer + rest.length = size) :
    skip markup stop pointer inside rest = none ↔
      Misses size (skipReads markup stop pointer inside rest) := by
  induction rest generalizing pointer inside with
  | nil =>
    rw [skip, skipReads]
    split <;> simp [← hsize]
  | cons c rest ih =>
    rw [List.length_cons] at hsize
    have hhere : ¬size ≤ pointer := by omega
    rw [skip, skipReads]
    split
    · rw [misses_cons, or_iff_right hhere]
      split
      · exact ih (by omega)
      split
      · exact ih (by omega)
      split
      · exact ih (by omega)
      · simp
    · simp

theorem punctuationRun_eq_none_iff (hsize : offset + rest.length = size) :
    punctuationRun rest = none ↔ Misses size (punctuationReads offset rest) := by
  induction rest generalizing offset with
  | nil => simp [punctuationRun, punctuationReads, ← hsize]
  | cons c rest ih =>
    rw [List.length_cons] at hsize
    have hhere : ¬size ≤ offset := by omega
    rw [punctuationRun, punctuationReads, misses_cons, or_iff_right hhere]
    split
    · rw [Option.map_eq_none_iff]
      exact ih (by omega)
    · simp

theorem encliticFrom_eq_none_iff (hsize : offset + rest.length = size) :
    encliticFrom word rest = none ↔ Misses size (encliticReads offset word rest) := by
  induction rest generalizing offset word with
  | nil => simp [encliticFrom, encliticReads, ← hsize]
  | cons c rest ih =>
    rw [List.length_cons] at hsize
    have hhere : ¬size ≤ offset := by omega
    rw [encliticFrom, encliticReads, misses_cons, or_iff_right hhere]
    split
    · exact ih (by omega)
    split
    · simp
    split
    · exact ih (by omega)
    · split <;> simp

theorem wordRun_eq_none_iff (hsize : offset + rest.length = size) :
    wordRun markup before rest = none ↔ Misses size (wordReads markup offset before rest) := by
  induction rest generalizing offset before with
  | nil => simp [wordRun, wordReads, ← hsize]
  | cons c rest ih =>
    rw [List.length_cons] at hsize
    have hahead : (if c == '-' then encliticAfter rest else some false) = none ↔
        Misses size (if c == '-' then encliticReads (offset + 1) [] rest else []) := by
      split
      · exact encliticFrom_eq_none_iff (by omega)
      · simp
    rw [wordRun.eq_def, wordReads.eq_def]
    dsimp only
    split
    · simp
    rw [misses_append, ← hahead]
    generalize (if c == '-' then encliticAfter rest else some false) = answer
    match answer with
    | none => simp
    | some true =>
      simp only [reduceCtorEq, not_misses_nil, or_self, iff_false]
      split
      · simp
      · split <;> simp
    | some false =>
      -- No enclitic follows: the next character tells whether the word goes on.
      cases rest with
      | nil => simp [← hsize]
      | cons d rest =>
        have hnext : ¬size ≤ offset + 1 := by
          rw [List.length_cons] at hsize
          omega
        simp only [reduceCtorEq, false_or, misses_cons, or_iff_right hnext]
        split
        · simp
        · rw [Option.map_eq_none_iff]
          exact ih (by omega)

theorem cut_eq_none_iff (hsize : offset + rest.length = size) :
    cut markup rest = none ↔ Misses size (cutReads markup offset rest) := by
  cases rest with
  | nil => simp [cut, cutReads, ← hsize]
  | cons c rest =>
    rw [cut, cutReads]
    split
    · exact punctuationRun_eq_none_iff hsize
    · exact wordRun_eq_none_iff hsize

end

/-- A call fails exactly if it reads where no character is stored. -/
theorem next?_eq_none_iff (t : Tokenizer) :
    t.next? = none ↔ Misses (t.pointer + t.rest.length) t.reads := by
  rw [next?, reads, misses_append, ← skip_eq_none_iff rfl]
  cases hskip : skip t.markup t.stop t.pointer t.inMarkup t.rest with
  | none => simp
  | some found =>
    obtain ⟨start, inside, rest⟩ := found
    simp only [reduceCtorEq, false_or]
    split
    · rw [← cut_eq_none_iff (skip_length hskip)]
      cases cut t.markup rest <;> simp
    · simp

/-- Behind the hyphen all is read ahead up to the closing blank, which ends the enclitic. -/
example : (ofText "y-t-on".toList 0 none .plain).reads = [0, 1, 2, 3, 4, 5, 6] := by decide

end Concordance.Tokenizer
