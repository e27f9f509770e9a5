import Concordance.Proofs.Pattern.Rewriting
import Concordance.Proofs.Registry.History

/-! Registries written as blocks, a line for each pattern: its name, an arrow, and the pattern as it
is written from its compiled form. An empty registry that reads the block has the same patterns under
the same names. Nothing in a pattern moves the arrow, as a name ends at white space; and no white
space is lost at the ends of a pattern, as it is written without any there. -/

namespace Concordance

namespace Pattern

open Item

theorem Lexeme.Whole.trimmed {text : List Char} (h : Lexeme.Whole text) :
    Text.Trimmed text ∧ text ≠ [] := by
  cases h with
  | quoted => exact ⟨Text.trimmed_of_ends (by decide) (by decide) _, List.cons_ne_nil _ _⟩
  | listed => exact ⟨Text.trimmed_of_ends (by decide) (by decide) _, List.cons_ne_nil _ _⟩
  | word _ hword =>
    refine ⟨⟨fun c hc => ?_, fun c hc => ?_⟩, List.cons_ne_nil _ _⟩
    · exact isBlank_of_isWordChar (hword c (List.mem_of_head? hc))
    · exact isBlank_of_isWordChar (hword c (List.mem_reverse.mp (List.mem_of_head? hc)))

section
variable {lexicon : Option Lexicon}

theorem trimmed_item {item : Item} (h : ∀ leaf ∈ item.leaves, Speaks lexicon leaf.1) :
    Text.Trimmed item.display.toList ∧ item.display.toList ≠ [] := by
  cases item with
  | term condition position =>
    rw [Item.display]
    exact (h (condition, position) (by simp [leaves])).whole.trimmed
  | choice branches position =>
    rw [display_choice]
    exact ⟨Text.trimmed_of_ends (by decide) (by decide) _, List.cons_ne_nil _ _⟩

theorem trimmed_chain {chain : Chain} (hne : chain ≠ [])
    (h : ∀ leaf ∈ leavesOfChain chain, Speaks lexicon leaf.1) :
    Text.Trimmed (Chain.display chain).toList ∧ (Chain.display chain).toList ≠ [] := by
  induction chain with
  | nil => exact absurd rfl hne
  | cons item rest ih =>
    obtain ⟨htrimmed, hitem⟩ := trimmed_item fun leaf hmem => h leaf (List.mem_append_left _ hmem)
    by_cases hrest : rest = []
    · subst hrest
      rw [display_singleton]
      exact ⟨htrimmed, hitem⟩
    · obtain ⟨htrimmed', hrest'⟩ := ih hrest fun leaf hmem => h leaf (List.mem_append_right _ hmem)
      rw [display_cons hrest, ← List.singleton_append, ← List.append_assoc]
      exact ⟨htrimmed.append htrimmed' hitem hrest' [' '],
        List.append_ne_nil_of_right_ne_nil _ hrest'⟩

theorem trimmed_display {source : String} {p : Pattern} (h : compile lexicon source = .ok p) :
    Text.Trimmed p.display.toList := by
  obtain ⟨chain, hne, hnormal, hspeaks, hp⟩ := tree_of_compile h
  rw [hp, display_ofChain hne hnormal]
  exact (trimmed_chain hne hspeaks).1

end
end Pattern

namespace Registry

def unplaced (r : Registry) : Named Pattern :=
  r.patterns.map fun entry => (entry.1, entry.2.unplaced)

def statementOf (entry : String × Pattern) : String := entry.1 ++ " -> " ++ entry.2.display

def transcript (r : Registry) : String :=
  String.join (r.patterns.map fun entry => statementOf entry ++ "\n")

/-- Each pattern has been compiled with the lexicon that the registry has. -/
def Current (r : Registry) : Prop :=
  ∀ entry ∈ r.patterns, ∃ source, Pattern.compile r.lexicon source = .ok entry.2

section History
variable {r r' : Registry} {name source : String} {p : Pattern}

theorem Current.add (hr : r.Current) (h : r.add name source = .ok (p, r')) : r'.Current := by
  obtain ⟨hcompile, rfl⟩ := add_eq_ok h
  intro entry hentry
  rcases Named.mem_put hentry with rfl | hmem
  · exact ⟨source, hcompile⟩
  · exact hr entry hmem

theorem forget_sublist (r : Registry) (names : List String) :
    (r.forget names).patterns.Sublist r.patterns := by
  rw [forget]
  dsimp only
  split
  · exact List.nil_sublist _
  · exact Named.without_sublist _ _

theorem Current.forget (hr : r.Current) (names : List String) : (r.forget names).Current :=
  fun entry hentry => hr entry ((r.forget_sublist names).mem hentry)

theorem Current.performAll (hr : r.Current) (calls : List Call) : (r.performAll calls).Current :=
  performAll_invariant Current.add hr fun names _ {_} h => h.forget names

theorem Built.performAll (hr : r.Built) (calls : List Call) : (r.performAll calls).Built :=
  performAll_invariant Built.add hr fun names _ {_} h => h.forget names

theorem nodup_add (hr : r.names.Nodup) (h : r.add name source = .ok (p, r')) : r'.names.Nodup := by
  obtain ⟨-, rfl⟩ := add_eq_ok h
  exact Named.nodup_names_put hr name p

theorem Built.nodup (hr : r.Built) : r.names.Nodup := by
  induction hr with
  | empty => exact List.nodup_nil
  | set _ _ _ _ _ ih => exact ih
  | add _ hadd ih => exact nodup_add ih hadd
  | @addBlock r block _ ih =>
    have hnodup : (r.perform (.addBlock block)).1.names.Nodup :=
      perform_invariant nodup_add ih nofun
    exact hnodup
  | @forget r names _ ih => exact ih.sublist ((r.forget_sublist names).map Prod.fst)

theorem add_of_not_mem (hname : name ∉ r.names) (h : Pattern.compile r.lexicon source = .ok p) :
    r.add name source = .ok (p, { r with patterns := r.patterns ++ [(name, p)] }) := by
  have hnew : ¬ (r.keepsDefinitions && (r.patterns.get? name).isSome) = true := by
    rw [Bool.and_eq_true, ← Named.mem_names_iff]
    exact fun hkept => hname hkept.2
  rw [Registry.add, if_neg hnew, h]
  dsimp only
  rw [Named.put_of_not_mem _ hname]

end History

section Reading
variable {r : Registry}

theorem States.addLine_eq {line : List Char} {name pattern : String} {number : Nat}
    (h : States line name pattern) :
    r.addLine number line = (r.add name pattern).map Prod.snd := by
  rw [addLine, h.not_isSilent, if_neg Bool.false_ne_true, h.statement?_eq]

theorem states_statementOf {lexicon : Option Lexicon} {name source : String} {p : Pattern}
    (hname : Dotted name.toList) (h : Pattern.compile lexicon source = .ok p) :
    States (statementOf (name, p)).toList name p.display := by
  have hblank : Text.Blank [' '] := List.forall_mem_singleton.mpr (by decide)
  refine ⟨hname, Pattern.trimmed_display h, [], [' '], [' '], [], nofun, hblank, hblank, nofun, ?_⟩
  rw [statementOf, String.toList_append, String.toList_append, List.append_assoc, List.append_nil]
  rfl

theorem names_unplaced (r : Registry) : Named.names r.unplaced = r.names := List.map_map

theorem unplaced_concat (r : Registry) (name : String) (p : Pattern) :
    unplaced { r with patterns := r.patterns ++ [(name, p)] } =
      r.unplaced ++ [(name, p.unplaced)] := List.map_append

theorem addLines_statementOf {entries : Named Pattern} (number : Nat)
    (h : ∀ entry ∈ entries, Dotted entry.1.toList ∧
      ∃ source, Pattern.compile r.lexicon source = .ok entry.2)
    (hnodup : (r.names ++ entries.names).Nodup) :
    ∃ again, r.addLines number (entries.map fun entry => (statementOf entry).toList) =
        (again, none) ∧
      again.unplaced = r.unplaced ++ entries.map fun entry => (entry.1, entry.2.unplaced) := by
  induction entries generalizing r number with
  | nil => exact ⟨r, rfl, (List.append_nil _).symm⟩
  | cons entry entries ih =>
    obtain ⟨name, p⟩ := entry
    obtain ⟨⟨hdotted, source, hcompile⟩, hentries⟩ := List.forall_mem_cons.mp h
    obtain ⟨q, hwritten, hsame⟩ := Pattern.compile_written hcompile
    have hfresh : name ∉ r.names := fun hmem =>
      (List.nodup_append.mp hnodup).2.2 name hmem name List.mem_cons_self rfl
    have hline : r.addLine number (statementOf (name, p)).toList =
        .ok { r with patterns := r.patterns ++ [(name, q)] } := by
      rw [(states_statementOf hdotted hcompile).addLine_eq, add_of_not_mem hfresh hwritten]
      rfl
    have hrest : (Named.names (r.patterns ++ [(name, q)]) ++ Named.names entries).Nodup := by
      rw [Named.names, List.map_append, List.append_assoc]
      exact hnodup
    obtain ⟨again, hread, hagain⟩ :=
      ih (r := { r with patterns := r.patterns ++ [(name, q)] }) (number + 1) hentries hrest
    refine ⟨again, ?_, ?_⟩
    · rw [List.map_cons, addLines, hline]
      exact hread
    · rw [hagain, unplaced_concat, hsame, List.append_assoc]
      rfl

theorem Dotted.not_isLineEnd {cs : List Char} (h : Dotted cs) :
    ∀ c ∈ cs, Text.isLineEnd c = false := by
  intro c hc
  refine Bool.eq_false_iff.mpr fun hend => ?_
  have hname := h.inName c hc
  rw [inName_of_isBlank (Text.isBlank_of_isLineEnd hend)] at hname
  cases hname

theorem lines_transcript (hnames : ∀ entry ∈ r.patterns, Dotted entry.1.toList)
    (hlabels : ∀ entry ∈ r.patterns, ∀ c ∈ entry.2.display.toList, Text.isLineEnd c = false) :
    Text.lines r.transcript.toList = r.patterns.map fun entry => (statementOf entry).toList := by
  have hjoin : r.transcript.toList =
      (r.patterns.map fun entry => (statementOf entry).toList).flatMap fun l => l ++ ['\n'] := by
    rw [transcript, String.toList_join, List.flatMap_map, List.flatMap_map]
    congr 1
    funext entry
    rw [String.toList_append]
    rfl
  rw [hjoin, Text.lines_flatMap]
  intro line hline c hc
  obtain ⟨entry, hentry, rfl⟩ := List.mem_map.mp hline
  rw [statementOf, String.toList_append, String.toList_append, List.mem_append, List.mem_append] at hc
  rcases hc with (hname | harrow) | hlabel
  · exact (hnames entry hentry).not_isLineEnd c hname
  · have hfree : " -> ".toList.any Text.isLineEnd = false := by decide
    exact Bool.eq_false_iff.mpr (List.any_eq_false.mp hfree c harrow)
  · exact hlabels entry hentry c hlabel

/-- A registry that is written as a block is read back: the same names in the same order, each with
the same nodes but for offsets. -/
theorem read_transcript (hr : r.Built) (hcurrent : r.Current)
    (hnames : ∀ name ∈ r.names, Dotted name.toList)
    (hlabels : ∀ entry ∈ r.patterns, ∀ c ∈ entry.2.display.toList, Text.isLineEnd c = false)
    (tagger : Option Tagger) (keepsDefinitions : Bool) (options : Tokenizer.Options) :
    ∃ again, (empty r.lexicon tagger keepsDefinitions options).addBlock r.transcript =
      (again, none) ∧ again.names = r.names ∧ again.unplaced = r.unplaced := by
  have hdotted : ∀ entry ∈ r.patterns, Dotted entry.1.toList := fun entry hentry =>
    hnames entry.1 (List.mem_map_of_mem hentry)
  obtain ⟨again, hread, hagain⟩ := addLines_statementOf
    (r := empty r.lexicon tagger keepsDefinitions options) 1
    (fun entry hentry => ⟨hdotted entry hentry, hcurrent entry hentry⟩) hr.nodup
  rw [← lines_transcript hdotted hlabels] at hread
  have hsame : again.unplaced = r.unplaced := hagain
  exact ⟨again, hread, by rw [← names_unplaced, hsame, names_unplaced], hsame⟩

/-- An arrow or a hash in a pattern, and a dot in its name, are read as what they are. -/
theorem read_transcript_marks : ∃ r again : Registry, r.Built ∧ r.Current ∧
    (∀ name ∈ r.names, Dotted name.toList) ∧
    (∀ entry ∈ r.patterns, ∀ c ∈ entry.2.display.toList, Text.isLineEnd c = false) ∧
    r.transcript = "n.1 -> #x \x22a -> b\x22\nco_2.é -> courir **7 (c., d)\n" ∧
    (empty r.lexicon none false ⟨true, false⟩).addBlock r.transcript = (again, none) ∧
    again.names = ["n.1", "co_2.é"] ∧ again.unplaced = r.unplaced := by
  let lexicon := ((Lexicon.empty true).load "l" ["court;courir;VERB"]).1
  let r := (empty (some lexicon) none true ⟨true, false⟩).performAll
    [.add "n.1" " #x  \x22a -> b\x22", .add "co" "(a",
      .addBlock "co_2.é->courir **07 ((c., d))\nn.1 -> a"]
  have hshown : (r.names, r.patterns.map fun entry => entry.2.display) =
      (["n.1", "co_2.é"], ["#x \x22a -> b\x22", "courir **7 (c., d)"]) ∧
      r.transcript = "n.1 -> #x \x22a -> b\x22\nco_2.é -> courir **7 (c., d)\n" := by
    decide +kernel
  obtain ⟨hlists, htranscript⟩ := hshown
  obtain ⟨hnames, hlabels⟩ := Prod.mk.inj hlists
  have hempty : (empty (some lexicon) none true ⟨true, false⟩).Current := nofun
  have hbuilt : r.Built := .performAll (.empty _ _ _ _) _
  have hcurrent : r.Current := hempty.performAll _
  have hdotted : ∀ name ∈ ["n.1", "co_2.é"], Dotted name.toList := by decide +kernel
  have hfree : ∀ label ∈ ["#x \x22a -> b\x22", "courir **7 (c., d)"],
      label.toList.any Text.isLineEnd = false := by
    decide +kernel
  have hnamed : ∀ name ∈ r.names, Dotted name.toList := hnames ▸ hdotted
  have hwritten : ∀ entry ∈ r.patterns, ∀ c ∈ entry.2.display.toList, Text.isLineEnd c = false :=
    fun entry hentry c hc => Bool.eq_false_iff.mpr
      (List.any_eq_false.mp (hfree _ (hlabels ▸ List.mem_map_of_mem hentry)) c hc)
  obtain ⟨again, hread, hsame, hunplaced⟩ :=
    read_transcript hbuilt hcurrent hnamed hwritten none false ⟨true, false⟩
  exact ⟨r, again, hbuilt, hcurrent, hnamed, hwritten, htranscript, hread, hsame.trans hnames,
    hunplaced⟩

end Reading
end Registry
end Concordance
