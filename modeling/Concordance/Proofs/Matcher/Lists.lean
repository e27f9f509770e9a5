import Concordance.Proofs.Matcher.Continuation
import Concordance.Proofs.Pattern.Names
import Concordance.Proofs.Pattern.Replacement

/-! Lists of categories. A list is one test, by a set of codes; the alternation of its names is a
choice between as many. Main statement: written for a list in whatever pattern, the alternation finds
the same in every stream of byte categories. -/

namespace Concordance

namespace Pattern

open Item Phrase Lexeme

section Alternation
variable {lexicon : Option Lexicon} {conditions : List Condition}

theorem displayBranches_terms (conditions : List Condition) :
    displayBranches (conditions.map fun c => [.term c 0]) =
      conditions.map Condition.display := by
  induction conditions with
  | nil => rfl
  | cons c rest ih =>
    rw [List.map_cons, displayBranches, ih, List.map_cons]
    exact congrArg (· :: _) ((display_singleton _).trans (by rw [Item.display]))

theorem leavesOfBranches_terms (conditions : List Condition) :
    leavesOfBranches (conditions.map fun c => [.term c 0]) = conditions.map (·, 0) := by
  induction conditions with
  | nil => rfl
  | cons c rest ih => rw [List.map_cons, leavesOfBranches, ih]; rfl

/-- Several conditions are written as alternatives, and read as those. -/
theorem written_terms (hne : conditions ≠ []) (hspeaks : ∀ c ∈ conditions, Speaks lexicon c)
    (position : Nat) : ∃ d : Alternatives,
      Written lexicon position (", ".intercalate (conditions.map Condition.display)).toList
        d.lexemes ∧
      unplacedBranches (d.branches (meaning lexicon)) = conditions.map fun c => [.term c 0] := by
  have hleaves : ∀ leaf ∈ leavesOfBranches (conditions.map fun c => [.term c 0]),
      Speaks lexicon leaf.1 := by
    rw [leavesOfBranches_terms]
    intro leaf hmem
    obtain ⟨c, hc, rfl⟩ := List.mem_map.mp hmem
    exact hspeaks c hc
  obtain ⟨d, hwritten, hbranches⟩ := written_branches _ (by simpa using hne)
    (normalBranches_terms conditions) hleaves position
  rw [displayAlternatives, displayBranches_terms] at hwritten
  exact ⟨d, hwritten, hbranches.trans (unplacedBranches_terms conditions)⟩

end Alternation

section Listed
variable {codes : List Category}

def Expansion.listed (position : Nat) (codes : List Category) (hne : codes ≠ []) : Expansion where
  conditions
    | .oneOf set names, place =>
      if set = categorySet codes ∧ place = position then codes.map Condition.ofCategory
      else [.oneOf set names]
    | c, _ => [c]
  ne_nil c place := by
    split
    · split
      · simpa using hne
      · exact List.cons_ne_nil _ _
    · exact List.cons_ne_nil _ _
  of_gap {c} place hgap := by
    split
    · cases hgap
    · rfl
  isGap_eq {c d place} hgap hmem := by
    split at hmem
    · split at hmem
      · obtain ⟨code, -, rfl⟩ := List.mem_map.mp hmem
        exact Condition.isGap_ofCategory code
      · rwa [List.mem_singleton.mp hmem]
    · rwa [List.mem_singleton.mp hmem]

section
variable {position place : Nat} {hne : codes ≠ []}

theorem Expansion.listed_here {names : List String} :
    (listed position codes hne).conditions (.oneOf (categorySet codes) names) position =
      codes.map Condition.ofCategory := if_pos ⟨rfl, rfl⟩

theorem Expansion.listed_elsewhere {c : Condition} (h : place ≠ position) :
    (listed position codes hne).conditions c place = [c] := by
  rw [listed]
  dsimp only
  split
  · exact if_neg fun hhere => h hhere.2
  · rfl

end

theorem Expansion.agrees_listed {position : Nat} {hne : codes ≠ []} {o : Occurrence}
    (hcodes : ∀ code ∈ codes, 0 ≤ code ∧ code < 256) (ho : 0 ≤ o.category ∧ o.category < 256) :
    (listed position codes hne).Agrees o := by
  intro c place
  rw [listed]
  dsimp only
  split
  · split
    · rename_i hhere
      rw [Bool.eq_iff_iff, List.any_map, List.any_eq_true, hhere.1, Condition.accepts,
        contains_categorySet hcodes ho]
      exact exists_congr fun code => and_congr_right fun hmem =>
        Condition.accepts_ofCategory (hcodes code hmem) ho
    · exact Bool.or_false _
  · exact Bool.or_false _

end Listed

section Compile
variable {lexicon : Option Lexicon} {source other : String} {p : Pattern}
  {before body after : List Char} {names : List String} {codes : List Category}

theorem compile_alternation (h : compile lexicon source = .ok p)
    (hsource : source.toList = before ++ ('[' :: (body ++ [']']) ++ after))
    (hmem : ⟨String.ofList ('[' :: (body ++ [']'])), before.length⟩ ∈ Lexeme.all source)
    (hterm : Lexeme.term lexicon ⟨String.ofList ('[' :: (body ++ [']'])), before.length⟩ =
      .ok (.oneOf (categorySet codes) names))
    (hne : codes ≠ []) (hcodes : names.map Category.ofName? = codes.map some)
    (hother : other.toList = before ++ ('(' :: ((", ".intercalate names).toList ++ ')' :: after))) :
    ∃ q, compile lexicon other = .ok q ∧
      ∀ stream : List Occurrence, (∀ o ∈ stream, 0 ≤ o.category ∧ o.category < 256) →
        ∀ (m m' : Matcher) (name : Option String) (origin : Option Source),
          (m.scan p stream name origin none).1 = (m'.scan q stream name origin none).1 := by
  obtain ⟨hmeaningful, ⟨d, hd, rfl⟩, -⟩ := compile_eq_ok h
  have hlexemes : Lexeme.all source = scan 0 0 (before ++ ('[' :: (body ++ [']']) ++ after)) := by
    rw [Lexeme.all, hsource]
  have hspeaks : ∀ c ∈ codes.map Condition.ofCategory, Speaks lexicon c := by
    intro c hc
    obtain ⟨code, hcode, rfl⟩ := List.mem_map.mp hc
    obtain ⟨name, -, hname⟩ := (code_of_mem hcodes).2 code hcode
    exact speaks_of_name hname
  obtain ⟨group, hgroup, hbranches⟩ :=
    written_terms (by simpa using hne) hspeaks (before.length + 1)
  rw [display_names hcodes] at hgroup
  have hmeaning : meaning lexicon ⟨String.ofList ('[' :: (body ++ [']'])), before.length⟩ =
      .oneOf (categorySet codes) names := by
    rw [meaning, hterm]
    rfl
  have hmark : (⟨String.ofList ('[' :: (body ++ [']'])), before.length⟩ : Lexeme).isMark = false :=
    isMark_bracket String.toList_ofList
  obtain ⟨hfirst, hnormal⟩ := d.normal (meaning lexicon)
  let e := Expansion.listed before.length codes hne
  have hhere : Chain.ofBranches 0 (unplacedBranches (group.branches (meaning lexicon))) =
      anyOf (e.conditions (meaning lexicon ⟨String.ofList ('[' :: (body ++ [']'])), before.length⟩)
        before.length) := by
    rw [hmeaning, hbranches, Expansion.listed_here]
    rfl
  obtain ⟨chain, hparse, hchain⟩ := parse_substitute (List.cons_ne_nil _ _) hmark (hlexemes ▸ hmem)
    (hlexemes ▸ hmeaningful) hgroup (hd.trans hlexemes) hhere
    (fun _ _ h => Expansion.listed_elsewhere h) hother
  obtain ⟨hsecond, hnormal'⟩ := normal_of_parse hparse
  have hcompile := compile_of_expandChain h hfirst hnormal hparse hchain
  refine ⟨_, hcompile, fun stream hstream m m' name origin => ?_⟩
  -- The tree of the alternation tells what the list's does, once the list is told by its names.
  have hsame : e.expandChain (d.chain (meaning lexicon)) = Expansion.refl.expandChain chain := by
    rw [← hchain, Expansion.expandChain_refl chain hnormal']
  exact scan_eq_of_expandChain (wellFormed_of_compile h) (wellFormed_of_compile hcompile)
    ⟨hfirst, hnormal⟩ ⟨hsecond, hnormal'⟩ hsame
    (fun o ho => Expansion.agrees_listed (bounds_of_names hcodes) (hstream o ho))
    (fun o _ => Expansion.agrees_refl o) m m' name origin

end Compile

/-- A list of categories is the alternation of its names. With the names between parentheses and
commas between them in its place, a pattern compiles again, and finds the same in every stream of byte
categories. The list takes such a category if one of the names does; the name of a family means its
sixteen codes, and any other only the one of its own. -/
theorem list_as_alternation {lexicon : Option Lexicon} {before body after : String} {p : Pattern}
    (hcompile : compile lexicon (before ++ ("[" ++ body ++ "]") ++ after) = .ok p)
    (hterm : ⟨"[" ++ body ++ "]", before.length⟩ ∈
      Lexeme.all (before ++ ("[" ++ body ++ "]") ++ after))
    {names : List String} (hnames : (Text.words body.toList).map String.ofList = names) :
    (∃ q, compile lexicon (before ++ ("(" ++ ", ".intercalate names ++ ")") ++ after) = .ok q ∧
      ∀ stream : List Occurrence, (∀ o ∈ stream, 0 ≤ o.category ∧ o.category < 256) →
        ∀ (m m' : Matcher) (name : Option String) (source : Option Source),
          (m.scan p stream name source none).1 = (m'.scan q stream name source none).1) ∧
    ∃ codes : List Category, names.map Category.ofName? = codes.map some ∧
      Lexeme.term lexicon ⟨"[" ++ body ++ "]", before.length⟩ =
        .ok (.oneOf (categorySet codes) names) ∧
      ∀ o : Occurrence, 0 ≤ o.category ∧ o.category < 256 →
        ((categorySet codes).contains o.category = true ↔ ∃ name ∈ names, ∃ test,
          (∀ position, Lexeme.term lexicon ⟨name, position⟩ = .ok test) ∧ test.accepts o = true) ∧
        ((categorySet codes).contains o.category = true ↔ ∃ code ∈ codes,
          if code.isFamilyMarker then code ≤ o.category ∧ o.category < code + 16
          else o.category = code) := by
  have htext : ("[" ++ body ++ "]").toList = '[' :: (body.toList ++ [']']) := by
    rw [String.toList_append, String.toList_append, List.append_assoc]
    rfl
  obtain ⟨hmeaningful, -, -⟩ := compile_eq_ok hcompile
  obtain ⟨c, hc⟩ := hmeaningful _ hterm (isMark_bracket htext)
  obtain ⟨codes, hne, hcodes, rfl⟩ := list_of_term htext hc
  rw [hnames] at hcodes hc
  refine ⟨?_, codes, hcodes, hc, fun o ho => ?_⟩
  · have hlexeme : (⟨"[" ++ body ++ "]", before.length⟩ : Lexeme) =
        ⟨String.ofList ('[' :: (body.toList ++ [']'])), before.toList.length⟩ := by
      rw [← htext, String.ofList_toList, String.length_toList]
    have hsource : (before ++ ("[" ++ body ++ "]") ++ after).toList =
        before.toList ++ ('[' :: (body.toList ++ [']']) ++ after.toList) := by
      rw [String.toList_append, String.toList_append, htext, List.append_assoc]
    have hother : (before ++ ("(" ++ ", ".intercalate names ++ ")") ++ after).toList =
        before.toList ++ ('(' :: ((", ".intercalate names).toList ++ ')' :: after.toList)) := by
      simp only [String.toList_append, List.append_assoc]
      rfl
    rw [hlexeme] at hterm hc
    exact compile_alternation hcompile hsource hterm hc hne hcodes hother
  · rw [contains_categorySet (bounds_of_names hcodes) ho]
    refine ⟨⟨?_, ?_⟩, Iff.rfl⟩
    · rintro ⟨code, hmem, hspans⟩
      obtain ⟨name, hname, hcode⟩ := (code_of_mem hcodes).2 code hmem
      exact ⟨name, hname, _, term_of_name hcode,
        (Condition.accepts_ofCategory (bounds_of_names hcodes code hmem) ho).mpr hspans⟩
    · rintro ⟨name, hname, test, htest, haccepts⟩
      obtain ⟨code, hmem, hcode⟩ := (code_of_mem hcodes).1 name hname
      cases (htest 0).symm.trans (term_of_name hcode 0)
      exact ⟨code, hmem,
        (Condition.accepts_ofCategory (bounds_of_names hcodes code hmem) ho).mp haccepts⟩

theorem alternation_among_branches : ∃ p q stream,
    compile none ("(a, " ++ ("[" ++ "SUB  NULL" ++ "]") ++ ") **1 VERB") = .ok p ∧
    compile none ("(a, " ++ ("(" ++ ", ".intercalate ["SUB", "NULL"] ++ ")") ++ ") **1 VERB") =
      .ok q ∧
    stream = Occurrence.ofSymbols
      (fun symbol => if symbol = "b" then 0x21 else if symbol = "d" then 0x12 else 0) "b c d c" ∧
    (p.hits stream none none).map (fun hit => (hit.start, hit.stop)) = [(0, 3)] ∧
    q.hits stream none none = p.hits stream none none := by
  let stream := Occurrence.ofSymbols
    (fun symbol => if symbol = "b" then 0x21 else if symbol = "d" then 0x12 else 0) "b c d c"
  have hfound : (compile none ("(a, " ++ ("[" ++ "SUB  NULL" ++ "]") ++ ") **1 VERB")).toOption.map
      (fun p => (p.hits stream none none).map fun hit => (hit.start, hit.stop)) =
        some [(0, 3)] := by
    decide +kernel
  obtain ⟨p, hp, hhits⟩ := Option.map_eq_some_iff.mp hfound
  have hcompile := toOption_eq_some.mp hp
  have hterm : (⟨"[" ++ "SUB  NULL" ++ "]", "(a, ".length⟩ : Lexeme) ∈
      Lexeme.all ("(a, " ++ ("[" ++ "SUB  NULL" ++ "]") ++ ") **1 VERB") := by
    decide +kernel
  have hnames : (Text.words "SUB  NULL".toList).map String.ofList = ["SUB", "NULL"] := by
    decide +kernel
  have hbytes : ∀ o ∈ stream, 0 ≤ o.category ∧ o.category < 256 := by
    decide +kernel
  obtain ⟨⟨q, hq, hsame⟩, -⟩ := list_as_alternation hcompile hterm hnames
  exact ⟨p, q, stream, hcompile, hq, rfl, hhits,
    (hsame stream hbytes .fresh .fresh none none).symm⟩

end Pattern
end Concordance
