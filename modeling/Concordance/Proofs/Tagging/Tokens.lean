import Concordance.Tagging.Tagger
import Mathlib.Tactic.SplitIfs

/-! A tagger sets tags and nothing else: the occurrences that it gives are those that it was given,
as many and in the same order, and differ from them in their headwords and categories only. What the
first character of a form makes of an occurrence is told by the kind of the character. -/

namespace Concordance

def Occurrence.bare (o : Occurrence) : Occurrence := o.withTags (some "") (some Category.null)

@[simp] theorem Occurrence.bare_withTags (o : Occurrence) (headword : Option String)
    (category : Option Category) : (o.withTags headword category).bare = o.bare := rfl

namespace Tagging

open Tokenizer (isPunctuation)

/-- An occurrence with the tags that its first character gives it. Its form is its headword, unless
the character tells nothing. -/
inductive TaggedByCharacter (o : Occurrence) : Occurrence → Prop
  | sentenceMark {first : Char} : o.orth.toList.head? = some first → isPunctuation first = true →
      first ∈ ['.', '?', '!', '…'] →
      TaggedByCharacter o { o with headword := o.orth, category := .ofName "PUNsent" }
  | clauseMark {first : Char} : o.orth.toList.head? = some first → isPunctuation first = true →
      first ∈ [',', ';', ':', '(', ')', '—', '–'] →
      TaggedByCharacter o { o with headword := o.orth, category := .ofName "PUNcl" }
  | otherMark {first : Char} : o.orth.toList.head? = some first → isPunctuation first = true →
      first ∉ ['.', '?', '!', '…'] → first ∉ [',', ';', ':', '(', ')', '—', '–'] →
      TaggedByCharacter o { o with headword := o.orth, category := .ofName "PUN" }
  | digit {first : Char} : o.orth.toList.head? = some first → isPunctuation first = false →
      Text.isDigit first = true →
      TaggedByCharacter o { o with headword := o.orth, category := .ofName "DETnum" }
  | capital {first : Char} : o.orth.toList.head? = some first → isPunctuation first = false →
      Text.isDigit first = false → Text.isCapital first = true →
      TaggedByCharacter o { o with headword := o.orth, category := .ofName "NAME" }
  | other : (∀ first ∈ o.orth.toList.head?, isPunctuation first = false ∧
        Text.isDigit first = false ∧ Text.isCapital first = false) →
      TaggedByCharacter o { o with category := Category.unknown }

theorem taggedByMark {o : Occurrence} {first : Char} (hfirst : o.orth.toList.head? = some first)
    (hmark : isPunctuation first = true) : TaggedByCharacter o
      { o with headword := o.orth, category := punctuationCategory first } := by
  unfold punctuationCategory
  split_ifs with hsentence hclause
  · exact .sentenceMark hfirst hmark (List.contains_iff_mem.mp hsentence)
  · exact .clauseMark hfirst hmark (List.contains_iff_mem.mp hclause)
  · exact .otherMark hfirst hmark (fun h => hsentence (List.contains_iff_mem.mpr h))
      fun h => hclause (List.contains_iff_mem.mpr h)

theorem taggedByCharacter (o : Occurrence) : TaggedByCharacter o (tagByCharacter o) := by
  unfold tagByCharacter
  split
  case h_1 hempty =>
    apply TaggedByCharacter.other
    simp [hempty]
  case h_2 first rest htext =>
    have hfirst : o.orth.toList.head? = some first := by rw [htext, List.head?_cons]
    split_ifs with hmark hdigit hcapital
    · exact taggedByMark hfirst hmark
    · exact .digit hfirst (Bool.eq_false_iff.mpr hmark) hdigit
    · exact .capital hfirst (Bool.eq_false_iff.mpr hmark) (Bool.eq_false_iff.mpr hdigit) hcapital
    · apply TaggedByCharacter.other
      simp [hfirst, hmark, hdigit, hcapital]

theorem TaggedByCharacter.bare_eq {o tagged : Occurrence} (h : TaggedByCharacter o tagged) :
    tagged.bare = o.bare := by
  cases h <;> rfl

theorem map_bare_tagFrom (lexicon : Option Lexicon) (left : Nat) (entry : Lexicon.Entry)
    (os : List Occurrence) :
    (tagFrom lexicon left entry os).map Occurrence.bare = os.map Occurrence.bare := by
  induction os generalizing left entry with
  | nil => rfl
  | cons o rest ih =>
    unfold tagFrom
    split
    · rw [List.map_cons, ih, tagByEntry, Occurrence.bare_withTags, List.map_cons]
    split
    · rw [List.map_cons, ih, tagByEntry, Occurrence.bare_withTags, List.map_cons]
    · rw [List.map_cons, ih, (taggedByCharacter o).bare_eq, List.map_cons]

end Tagging

namespace Analysis

theorem bare_tagByToken (o : Occurrence) (token : Option Token) :
    (tagByToken o token).bare = o.bare := by
  cases token <;> rfl

theorem map_bare_zipWith (tokens : List Token) (os : List Occurrence) :
    (List.zipWith tagByToken os (align tokens os)).map Occurrence.bare =
      os.map Occurrence.bare := by
  induction os generalizing tokens with
  | nil => rfl
  | cons o rest ih =>
    rw [align, List.zipWith_cons_cons, List.map_cons, ih, bare_tagByToken, List.map_cons]

end Analysis

/-- Whatever the tagger, it keeps the tokens. -/
theorem Tagger.map_bare_tag (tagger : Tagger) (text : String) (os : List Occurrence) :
    (tagger.tag text os).map Occurrence.bare = os.map Occurrence.bare := by
  cases tagger with
  | lexical lexicon => exact Tagging.map_bare_tagFrom lexicon 0 _ os
  | analytic analyse => exact Analysis.map_bare_zipWith _ os

theorem Tagger.map_text_tag (tagger : Tagger) (text : String) (os : List Occurrence) :
    (tagger.tag text os).map (fun o => (o.graph, o.orth, o.start, o.stop)) =
      os.map fun o => (o.graph, o.orth, o.start, o.stop) := by
  have hbare := congrArg (List.map fun o => (o.graph, o.orth, o.start, o.stop))
    (tagger.map_bare_tag text os)
  rwa [List.map_map, List.map_map] at hbare

end Concordance
