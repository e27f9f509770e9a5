import Concordance.CommandLine.Basic
import Concordance.Proofs.Hit.Records
import Concordance.Proofs.Registry.Built

/-! What the command line prints for its hits. Main statement: each record is one line, from which
the hit can be told, and there are as many lines of records as the count of the hits says. -/

namespace Concordance

namespace Matcher

section
variable {p : Pattern} {m m' : Matcher}

theorem found_of_moveTo {next : Option Nat} (h : moveTo p m next = (true, m')) :
    m'.found = m.pending := by
  cases next with
  | none =>
    cases h
    rfl
  | some index =>
    unfold moveTo at h
    dsimp only at h
    split at h <;> cases h

theorem found_of_begin {o : Occurrence} (h : begin p m o = (true, m')) : m'.found = [o] := by
  unfold begin at h
  split at h
  · cases h
  · exact found_of_moveTo h

theorem found_ne_nil {o : Occurrence} (h : step p m o = (true, m')) : m'.found ≠ [] := by
  have hbegin {m : Matcher} (h : begin p m o = (true, m')) : m'.found ≠ [] := by
    rw [found_of_begin h]
    exact List.cons_ne_nil o []
  have hpush {next : Option Nat} (h : moveTo p (m.push o) next = (true, m')) : m'.found ≠ [] := by
    rw [found_of_moveTo h]
    exact List.append_ne_nil_of_right_ne_nil _ (List.cons_ne_nil o [])
  unfold step at h
  split at h
  · exact hbegin h
  split at h
  · unfold stepInGap at h
    split at h
    · exact hpush h
    split at h
    · exact hpush h
    dsimp only at h
    split at h
    · cases h
    · exact hbegin h
  · split at h
    · exact hpush h
    · exact hbegin h

theorem ne_nil_of_mem_scanFrom {name : Option String} {source : Option Source} {limit : Option Nat}
    {index : Nat} {row : List Occurrence} {hit : Hit}
    (h : hit ∈ (scanFrom p name source limit index m row).1) : hit.occurrences ≠ [] := by
  induction row generalizing m limit index with
  | nil => cases h
  | cons o rest ih =>
    rw [scanFrom] at h
    split at h
    · exact ih h
    · rename_i m' hstep
      have hfound : (m'.hit (index + 1) name source).occurrences ≠ [] := found_ne_nil hstep
      dsimp only at h
      split at h
      · cases List.mem_singleton.mp h
        exact hfound
      · rcases List.mem_cons.mp h with rfl | h
        · exact hfound
        · exact ih h

end
end Matcher

theorem Pattern.ne_nil_of_mem_hits {p : Pattern} {stream : List Occurrence} {name : Option String}
    {source : Option Source} {hit : Hit} (h : hit ∈ p.hits stream name source) :
    hit.occurrences ≠ [] :=
  Matcher.ne_nil_of_mem_scanFrom h

namespace CommandLine

open Text

theorem exists_records {hits : List Hit} (h : ∀ hit ∈ hits, hit.occurrences ≠ []) :
    ∃ records, List.Forall₂ (fun hit record => hit.record = .ok record) hits records ∧
      ∀ record ∈ records, Printed record := by
  induction hits with
  | nil => exact ⟨[], .nil, nofun⟩
  | cons hit rest ih =>
    obtain ⟨hhit, hrest⟩ := List.forall_mem_cons.mp h
    obtain ⟨records, hrecords, hprinted⟩ := ih hrest
    obtain ⟨_, _, _, -, -, -, hrecord⟩ := Hit.record_of_ne_nil hhit
    exact ⟨_, .cons hrecord hrecords,
      List.forall_mem_cons.mpr ⟨Hit.printed_record hrecord, hprinted⟩⟩

theorem report_records {hits : List Hit} {records : List String}
    (h : List.Forall₂ (fun hit record => hit.record = .ok record) hits records) :
    report .records hits = String.join (records.map (· ++ "\n")) := by
  have hlines : hits.filterMap (fun hit => hit.record.toOption) = records := by
    induction h with
    | nil => rfl
    | cons hhead _ ih => rw [List.filterMap_cons, hhead, Except.toOption, ih]
  rw [report, hitLines, hlines]

/-- The tagger that a request asks for, none where nothing is to be tagged. -/
inductive Engages (models : Analysis.Models) (request : Request) : Option Tagger → Prop
  | unnamed : request.engine = none → Engages models request none
  | off : request.engine = some "off" → Engages models request none
  | lexical : request.engine = some "lexicon" → Engages models request (some (.lexical none))
  | analytic {analyse : String → List Analysis.Token} : request.engine = some "spacy" →
      models.load (models.nameOf request.model) = .ok analyse →
      Engages models request (some (.analytic analyse))

def start (tagger : Option Tagger) : Registry := .empty none tagger false ⟨true, true⟩

/-- The registry that a request sets up, and the name of the pattern that it asks for: one that is
given alone, or one of a file. -/
inductive Defines (models : Analysis.Models) (request : Request) : Registry → String → Prop
  | alone {tagger : Option Tagger} {p : Pattern} {registry : Registry} :
      Engages models request tagger → request.patternFile = none →
      (start tagger).add "pattern" request.pattern = .ok (p, registry) →
      Defines models request registry "pattern"
  | file {tagger : Option Tagger} {bytes : ByteArray} {block : String} {registry : Registry} :
      Engages models request tagger → request.patternFile = some bytes →
      Text.ofBytes? bytes = some block → (start tagger).addBlock block = (registry, none) →
      request.pattern ∈ registry.names → Defines models request registry request.pattern

inductive Answer
  | hits (hits : List Hit)
  | refused (message : String)
  | undecodable

/-- What comes of a request: the hits that the scan of its target finds, or the first reason why
there are none. -/
inductive Answers (models : Analysis.Models) (request : Request) (target : ByteArray) :
    Answer → Prop
  | unknownEngine {engine : String} : request.engine = some engine →
      engine ∉ ["off", "spacy", "lexicon"] →
      Answers models request target (.refused ("Unknown tagger engine '" ++ engine ++ "'"))
  | missingModel {reason : String} : request.engine = some "spacy" →
      models.load (models.nameOf request.model) = .error reason →
      Answers models request target (.refused
        ("Can't load spacy model '" ++ models.nameOf request.model ++ "': " ++ reason))
  | faultyPattern {tagger : Option Tagger} {e : Registry.Error} :
      Engages models request tagger → request.patternFile = none →
      (start tagger).add "pattern" request.pattern = .error e →
      Answers models request target (.refused e.message)
  | undecodableFile {tagger : Option Tagger} {bytes : ByteArray} :
      Engages models request tagger → request.patternFile = some bytes →
      Text.ofBytes? bytes = none → Answers models request target .undecodable
  | faultyFile {tagger : Option Tagger} {bytes : ByteArray} {block : String} {registry : Registry}
      {e : Registry.Error} : Engages models request tagger → request.patternFile = some bytes →
      Text.ofBytes? bytes = some block → (start tagger).addBlock block = (registry, some e) →
      Answers models request target (.refused e.message)
  | unknownName {tagger : Option Tagger} {bytes : ByteArray} {block : String}
      {registry : Registry} : Engages models request tagger → request.patternFile = some bytes →
      Text.ofBytes? bytes = some block → (start tagger).addBlock block = (registry, none) →
      request.pattern ∉ registry.names →
      Answers models request target (.refused ("Unknown pattern '" ++ request.pattern ++ "'"))
  | undecodableTarget {registry : Registry} {name : String} :
      Defines models request registry name → Text.ofBytes? target = none →
      Answers models request target .undecodable
  | hits {registry : Registry} {name text : String} {hits : List Hit} :
      Defines models request registry name → Text.ofBytes? target = some text →
      registry.scan name text request.start request.stop = .ok hits →
      Answers models request target (.hits hits)

/-- What a request prints as a count and as records: the number of the hits, and as many lines, each
the record of a hit. -/
structure Counts (models : Analysis.Models) (request : Request) (target : ByteArray)
    (hits : List Hit) (lines : List String) : Prop where
  records : List.Forall₂ (fun hit line => hit.record = .ok line) hits lines
  unbroken : ∀ line ∈ lines, '\n' ∉ line.toList
  count_eq : run models { request with action := .count } target =
    .ok ⟨toString lines.length ++ "\n", "", 0⟩
  records_eq : run models { request with action := .records } target =
    .ok ⟨String.join (lines.map (· ++ "\n")), "", 0⟩

/-- What is printed about an answer. A refusal goes to the errors and leaves nothing else. -/
def Prints (models : Analysis.Models) (request : Request) (target : ByteArray) : Answer → Prop
  | .hits hits => ∃ lines, Counts models request target hits lines
  | .refused message => ∀ action ∈ [.count, .records],
      run models { request with action := action } target = .ok ⟨"", message ++ "\n", 1⟩
  | .undecodable => ∀ action ∈ [.count, .records],
      run models { request with action := action } target = .error ⟨⟩

def carryOut (target : ByteArray) : Plan → Except Undecodable Outcome
  | .finished outcome => .ok outcome
  | .reading report =>
    match Text.ofBytes? target with
    | some text => .ok (report text)
    | none => .error ⟨⟩

theorem run_eq (models : Analysis.Models) (request : Request) (target : ByteArray) :
    run models request target = (plan models request).bind (carryOut target) := rfl

section
variable {models : Analysis.Models} {request : Request} {target : ByteArray}
  {tagger : Option Tagger} {registry : Registry} {name text : String} {action : Action}

theorem ofEngine_eq_ok :
    Tagger.ofEngine models none request.model request.engine = .ok tagger ↔
      Engages models request tagger := by
  constructor
  · intro h
    unfold Tagger.ofEngine at h
    split at h
    case h_1 hengine =>
      cases h
      exact .unnamed hengine
    case h_2 engine hengine =>
      split_ifs at h with hoff hanalytic hlexical
      · subst hoff
        cases h
        exact .off hengine
      · subst hanalytic
        unfold Tagger.ofModel at h
        split at h
        · cases h
          exact .analytic hengine ‹_›
        · cases h
      · subst hlexical
        cases h
        exact .lexical hengine
  · intro h
    cases h with
    | unnamed hengine | off hengine | lexical hengine => simp [Tagger.ofEngine, hengine]
    | analytic hengine hload => simp [Tagger.ofEngine, Tagger.ofModel, hengine, hload, Except.map]

theorem answers_of_ofEngine {refusal : Tagger.Refusal}
    (h : Tagger.ofEngine models none request.model request.engine = .error refusal) :
    Answers models request target (.refused refusal.message) := by
  unfold Tagger.ofEngine at h
  split at h
  case h_1 => cases h
  case h_2 engine hengine =>
    split_ifs at h with hoff hanalytic hlexical
    · subst hanalytic
      unfold Tagger.ofModel at h
      split at h
      · cases h
      · cases h
        exact .missingModel hengine ‹_›
    · cases h
      apply Answers.unknownEngine hengine
      simp [hoff, hanalytic, hlexical]

theorem Defines.lookup (h : Defines models request registry name) :
    ∃ p, registry.lookup name = .ok p := by
  cases h with
  | alone _ _ hadd => exact ⟨_, Registry.lookup_of_add hadd⟩
  | file _ _ _ _ hname =>
    obtain ⟨p, -, hlookup⟩ := Registry.lookup_of_mem_names hname
    exact ⟨p, hlookup⟩

theorem exists_answer_of_defines (h : Defines models request registry name) (target : ByteArray) :
    ∃ answer, Answers models request target answer := by
  obtain ⟨p, hlookup⟩ := h.lookup
  cases htext : Text.ofBytes? target with
  | none => exact ⟨_, .undecodableTarget h htext⟩
  | some text =>
    refine ⟨.hits (p.hits (registry.occurrences text request.start request.stop) (some name)
      (some (Registry.sourceOf text))), .hits h htext ?_⟩
    simp [Registry.scan, Registry.hitsIn, hlookup, Except.map]

theorem exists_answer (models : Analysis.Models) (request : Request) (target : ByteArray) :
    ∃ answer, Answers models request target answer := by
  cases hengine : Tagger.ofEngine models none request.model request.engine with
  | error refusal => exact ⟨_, answers_of_ofEngine hengine⟩
  | ok tagger =>
    have hengages := ofEngine_eq_ok.mp hengine
    cases hfile : request.patternFile with
    | none =>
      cases hadd : (start tagger).add "pattern" request.pattern with
      | error e => exact ⟨_, .faultyPattern hengages hfile hadd⟩
      | ok added => exact exists_answer_of_defines (.alone hengages hfile hadd) target
    | some bytes =>
      cases hblock : Text.ofBytes? bytes with
      | none => exact ⟨_, .undecodableFile hengages hfile hblock⟩
      | some block =>
        cases hadd : (start tagger).addBlock block with
        | mk registry failed =>
          cases failed with
          | some e => exact ⟨_, .faultyFile hengages hfile hblock hadd⟩
          | none =>
            by_cases hname : request.pattern ∈ registry.names
            · exact exists_answer_of_defines (.file hengages hfile hblock hadd hname) target
            · exact ⟨_, .unknownName hengages hfile hblock hadd hname⟩

/-- The patterns of a request are defined without a look at what it wants printed. -/
theorem plan_of_engages (h : Engages models request tagger) :
    plan models { request with action := action } =
      define (start tagger) request >>= fun (registry, failed, name) =>
        match failed, registry.lookup name with
        | some e, _ | none, .error e => return refused e.message
        | none, .ok p =>
          if action = .listing then return .finished (printed (p.display ++ "\n" ++ p.listing))
          else
            return .reading fun text => printed (report action (p.hits
              (registry.occurrences text request.start request.stop) (some name)
              (some (Registry.sourceOf text)))) := by
  have hengine := ofEngine_eq_ok.mpr h
  simp only [plan, hengine]
  rfl

theorem Defines.define_eq (h : Defines models request registry name) : ∃ tagger,
    Engages models request tagger ∧ define (start tagger) request = .ok (registry, none, name) := by
  cases h with
  | alone hengages hfile hadd =>
    refine ⟨_, hengages, ?_⟩
    simp only [define, hfile, patternName, hadd]
  | file hengages hfile hblock hadd _ =>
    refine ⟨_, hengages, ?_⟩
    simp only [define, hfile, hblock, hadd]

theorem run_refused {registry : Registry} {failed : Option Registry.Error} {e : Registry.Error}
    (h : Engages models request tagger)
    (hdefine : define (start tagger) request = .ok (registry, failed, name))
    (he : failed = some e ∨ failed = none ∧ registry.lookup name = .error e) :
    run models { request with action := action } target = .ok ⟨"", e.message ++ "\n", 1⟩ := by
  rw [run_eq, plan_of_engages h, hdefine]
  rcases he with rfl | ⟨rfl, hlookup⟩
  · rfl
  · simp only [bind, Except.bind, hlookup]
    rfl

theorem run_reports {p : Pattern} (h : Defines models request registry name)
    (hlookup : registry.lookup name = .ok p) (haction : action ≠ .listing) :
    run models { request with action := action } target =
      carryOut target (.reading fun text => printed (report action (p.hits
        (registry.occurrences text request.start request.stop) (some name)
        (some (Registry.sourceOf text))))) := by
  obtain ⟨tagger, hengages, hdefine⟩ := h.define_eq
  rw [run_eq, plan_of_engages hengages, hdefine]
  simp only [bind, Except.bind, hlookup, if_neg haction]
  rfl

theorem counts_of_run {hits : List Hit} (hne : ∀ hit ∈ hits, hit.occurrences ≠ [])
    (hrun : ∀ action ≠ .listing,
      run models { request with action := action } target = .ok (printed (report action hits))) :
    ∃ lines, Counts models request target hits lines := by
  obtain ⟨lines, hrecords, hprinted⟩ := exists_records hne
  refine ⟨lines, hrecords, ?_, ?_, ?_⟩
  · intro line hmem hbreak
    exact absurd (hprinted line hmem '\n' hbreak) (by decide)
  · rw [hrun .count (by decide), report, hrecords.length_eq]
    rfl
  · rw [hrun .records (by decide), report_records hrecords]
    rfl

theorem Answers.prints {answer : Answer} (h : Answers models request target answer) :
    Prints models request target answer := by
  cases h with
  | unknownEngine hengine hunknown =>
    intro action _
    simp only [List.mem_cons, List.not_mem_nil, or_false, not_or] at hunknown
    obtain ⟨hoff, hanalytic, hlexical⟩ := hunknown
    simp only [run_eq, plan, Tagger.ofEngine, hengine, if_neg hoff, if_neg hanalytic,
      if_neg hlexical]
    rfl
  | missingModel hengine hload =>
    intro action _
    simp only [run_eq, plan, Tagger.ofEngine, Tagger.ofModel, hengine, hload]
    rfl
  | @faultyPattern tagger e hengages hfile hadd =>
    intro action _
    have hdefine : define (start tagger) request = .ok (start tagger, some e, "pattern") := by
      simp only [define, hfile, patternName, hadd]
    exact run_refused hengages hdefine (.inl rfl)
  | @undecodableFile tagger _ hengages hfile hblock =>
    intro action _
    have hdefine : define (start tagger) request = .error ⟨⟩ := by
      simp only [define, hfile, hblock]
    rw [run_eq, plan_of_engages hengages, hdefine]
    rfl
  | @faultyFile tagger _ _ registry e hengages hfile hblock hadd =>
    intro action _
    have hdefine : define (start tagger) request = .ok (registry, some e, request.pattern) := by
      simp only [define, hfile, hblock, hadd]
    exact run_refused hengages hdefine (.inl rfl)
  | @unknownName tagger _ _ registry hengages hfile hblock hadd hname =>
    intro action _
    have hdefine : define (start tagger) request = .ok (registry, none, request.pattern) := by
      simp only [define, hfile, hblock, hadd]
    exact run_refused hengages hdefine (.inr ⟨rfl, Registry.lookup_of_not_mem_names hname⟩)
  | undecodableTarget hdefines htext =>
    intro action haction
    obtain ⟨p, hlookup⟩ := hdefines.lookup
    rw [run_reports hdefines hlookup (by rintro rfl; simp at haction), carryOut, htext]
  | hits hdefines htext hscan =>
    obtain ⟨p, hlookup⟩ := hdefines.lookup
    rw [Registry.scan, Registry.hitsIn, hlookup] at hscan
    cases hscan
    apply counts_of_run
    · intro hit hmem
      exact Pattern.ne_nil_of_mem_hits hmem
    · intro action haction
      rw [run_reports hdefines hlookup haction, carryOut, htext]

end

/-- The record of a hit is one line, and tells the hit: its name, its extent, its offsets, its text,
and the graph, headword and category of each occurrence. So of all that the scan of a target finds,
the command line prints as many lines of records as it counts hits, each the record of one; and
where a request is refused, it is refused for either. -/
theorem records_on_lines :
    (∀ hit : Hit, hit.occurrences ≠ [] → ∃ record, hit.record = .ok record ∧
      (∀ c ∈ record.toList, 0x20 ≤ c.toNat) ∧
      ∀ other : Hit, other.record = .ok record →
        other.name = hit.name ∧ other.start = hit.start ∧ other.stop = hit.stop ∧
        other.startOffset = hit.startOffset ∧ other.stopOffset = hit.stopOffset ∧
        other.text = hit.text ∧
        other.occurrences.map (fun o => (o.graph, o.headword, o.category)) =
          hit.occurrences.map fun o => (o.graph, o.headword, o.category)) ∧
    ∀ (models : Analysis.Models) (request : Request) (target : ByteArray),
      (∃ answer, Answers models request target answer) ∧
      ∀ answer, Answers models request target answer → Prints models request target answer := by
  constructor
  · intro hit hne
    obtain ⟨_, _, _, -, -, -, hrecord⟩ := Hit.record_of_ne_nil hne
    exact ⟨_, hrecord, Hit.printed_record hrecord, fun other hother =>
      Hit.eq_of_record hother hrecord⟩
  · intro models request target
    exact ⟨exists_answer models request target, fun answer h => h.prints⟩

/-- A line break and a quote between the words that are found stand as escapes in the record, with
the tags of the analysis. -/
theorem record_of_broken_line : ∃ (models : Analysis.Models) (request : Request)
    (target : ByteArray) (hit : Hit) (record : String),
    request.engine = some "spacy" ∧ Text.ofBytes? target = some "le\n\x22chat\x22" ∧
    Answers models request target (.hits [hit]) ∧
    hit.occurrences.length = 3 ∧ hit.text = .ok "le\n\x22chat" ∧ hit.record = .ok record ∧
    (∀ c ∈ record.toList, 0x20 ≤ c.toNat) ∧ record =
      "\x7b\x22name\x22: \x22pattern\x22, \x22begin\x22: 0, \x22end\x22: 3, " ++
      "\x22start_offset\x22: 0, \x22end_offset\x22: 8, \x22text\x22: \x22le\x5cn\x5c\x22chat\x22, " ++
      "\x22occurrences\x22: [\x7b\x22form\x22: \x22le\x22, \x22lemma\x22: \x22le\x22, " ++
      "\x22category\x22: 97\x7d, \x7b\x22form\x22: \x22\x5c\x22\x22, \x22lemma\x22: " ++
      "\x22\x5c\x22\x22, \x22category\x22: 192\x7d, \x7b\x22form\x22: \x22chat\x22, " ++
      "\x22lemma\x22: \x22chat\x22, \x22category\x22: 32\x7d]\x7d" ∧
    run models { request with action := .count } target = .ok ⟨"1\n", "", 0⟩ ∧
    run models { request with action := .records } target = .ok ⟨record ++ "\n", "", 0⟩ := by
  let tokens : List Analysis.Token := [⟨"le", 0, "DET", "le", [("PronType", ["Art"])], false⟩,
    ⟨"\n", 2, "SPACE", "\n", [], true⟩, ⟨"\x22", 3, "PUNCT", "\x22", [], false⟩,
    ⟨"chat", 4, "NOUN", "chat", [], false⟩, ⟨"\x22", 8, "PUNCT", "\x22", [], false⟩]
  let models : Analysis.Models := ⟨none, fun _ => .ok fun _ => tokens⟩
  let request : Request := ⟨"DETart * SUB", none, some "spacy", none, .hits, 0, none⟩
  let target := "le\n\x22chat\x22".toUTF8
  let hit : Hit := ⟨[⟨"le", "le", "le", 97, 0, 2⟩, ⟨"\x22", "\x22", "\x22", 192, 3, 4⟩,
    ⟨"chat", "chat", "chat", 32, 4, 8⟩], 0, 3, some "pattern", some (.ofText 0 "le\n\x22chat\x22")⟩
  have htext : Text.ofBytes? target = some "le\n\x22chat\x22" := by decide +kernel
  have hfound : ((start (some (.analytic fun _ => tokens))).add "pattern" "DETart * SUB").bind
      (fun added => added.2.scan "pattern" "le\n\x22chat\x22" 0 none) = .ok [hit] := by
    decide +kernel
  have hanswers : Answers models request target (.hits [hit]) := by
    cases hadd : (start (some (.analytic fun _ => tokens))).add "pattern" "DETart * SUB" with
    | error e =>
      rw [hadd] at hfound
      cases hfound
    | ok added =>
      rw [hadd] at hfound
      exact .hits (.alone (.analytic rfl rfl) rfl hadd) htext hfound
  obtain ⟨hrecords, hruns⟩ := records_on_lines
  obtain ⟨record, hrecord, hprinted, -⟩ := hrecords hit (by decide)
  obtain ⟨lines, hcounts⟩ := (hruns models request target).2 _ hanswers
  have hlines : lines = [record] := by
    cases hcounts.records with
    | cons hline hrest =>
      cases hrest
      rw [Except.ok.inj (hline.symm.trans hrecord)]
  have hcount := hcounts.count_eq
  have hprint := hcounts.records_eq
  subst hlines
  refine ⟨models, request, target, hit, record, rfl, htext, hanswers, rfl, by cbv, hrecord,
    hprinted, Except.ok.inj (hrecord.symm.trans ?_), ?_, ?_⟩
  · cbv
  · rw [hcount, List.length_singleton]
    rfl
  · simpa using hprint

end CommandLine
end Concordance
