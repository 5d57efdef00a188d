import Packetry.Comparison
import Packetry.Proofs.Digests
import Packetry.Proofs.DryRun
import Packetry.Proofs.Surroundings

/-!
# Comparisons and dry runs

A comparison and a dry run start from the same plan, and neither writes anything. They have two
notions of a change. A dry run compares the digests of what is in the file and of what is to be
there; a comparison compares the texts, and takes pairs of carriage return and line feed for line
feeds. So the two list the same artifacts, but for those in which nothing changes but ends of lines
(`Packetry.compareWithPlan_dry`).

Such a change is rare. A file is written with the ends of lines that it has; so it takes a file that
mixes the two, or generated code that brings a pair into a file without one
(`Packetry.Plans.mixed_of_changesEnds`).
-/

namespace Packetry

open Disk Text

/-! ### Texts that are planned -/

/-- The begin sentinel stands before the interior of a region. -/
theorem Region.Splits.before_ne_nil {r : Region} {text : List Char} {l : Location}
    (h : r.Splits text l) : l.before ≠ [] := by
  obtain ⟨c, -, hlines, rfl⟩ := h
  have hmem : c.opening ∈ lines text := by simp [hlines, Cut.lines]
  have hopening : c.opening ≠ [] := ne_nil_of_mem_lines hmem
  simp [Cut.location, hopening]

/-- What is to be in a file has the ends of lines that are there, and is not empty. -/
theorem exists_of_mergedText {config : Config} {packets : List Packet} {a : Artifact}
    {current merged : String} {n : Nat}
    (h : mergedText config packets a current = .ok (merged, n)) :
    ∃ text, text ≠ [] ∧ merged.toList = endsOf current.toList text := by
  obtain ⟨⟨d, n'⟩, hupdate, h⟩ := Tree.bind_ok h
  obtain ⟨rfl, rfl⟩ := Prod.mk.inj (Except.ok.inj h)
  obtain ⟨l, hl⟩ := Document.splits_of_update hupdate
  have hrender : ∀ text, (Document.render { Document.parse current with text := text }).toList =
      endsOf current.toList text := fun text => String.toList_ofList
  have haround : ∀ interior, l.around interior ≠ [] := by
    intro interior
    simp [Region.Location.around, hl.before_ne_nil]
  generalize contentOf config.sessionClass packets a = content at hupdate
  cases content with
  | replace text =>
    rw [Document.update_replace hl] at hupdate
    obtain ⟨rfl, -⟩ := Prod.mk.inj (Except.ok.inj hupdate)
    exact ⟨_, haround _, hrender _⟩
  | additive entries =>
    rw [Document.update_additive hl] at hupdate
    obtain ⟨rfl, -⟩ := Prod.mk.inj (Except.ok.inj hupdate)
    exact ⟨_, haround _, hrender _⟩

theorem toPairs_ne_nil {text : List Char} (h : text ≠ []) : toPairs text ≠ [] := by
  obtain ⟨c, rest, rfl⟩ := List.exists_cons_of_ne_nil h
  rw [toPairs]
  split <;> simp

theorem toLineFeeds_ne_nil {text : List Char} (h : text ≠ []) : toLineFeeds text ≠ [] := by
  fun_induction toLineFeeds text with
  | case1 => simp
  | case2 => simp
  | case3 => exact absurd rfl h

theorem endsOf_ne_nil {file text : List Char} (h : text ≠ []) : endsOf file text ≠ [] := by
  unfold endsOf
  split
  · exact toPairs_ne_nil h
  · exact h

/-- **Where nothing but ends of lines changes**, the two ends of lines are mixed in the file, or a
pair comes into a file that has none. -/
theorem mixed_of_toLineFeeds_eq {file text : List Char} (hne : file ≠ endsOf file text)
    (hplain : toLineFeeds file = toLineFeeds (endsOf file text)) :
    ¬IsUniform file ∨ hasPair file = false ∧ hasPair (endsOf file text) = true := by
  by_cases hpair : hasPair file = true
  · refine .inl ?_
    rintro (hno | hends)
    · rw [hpair] at hno
      cases hno
    · have hall : endsOf file text = toPairs text := if_pos hpair
      rw [hall, toLineFeeds_toPairs] at hplain
      rw [hall, ← hplain, toPairs_toLineFeeds hends] at hne
      exact hne rfl
  · have hno : hasPair file = false := by simpa using hpair
    have hall : endsOf file text = text := if_neg hpair
    rw [hall] at hne hplain ⊢
    refine .inr ⟨hno, ?_⟩
    by_contra hpair'
    rw [toLineFeeds_of_hasPair_eq_false hno,
      toLineFeeds_of_hasPair_eq_false (by simpa using hpair')] at hplain
    exact hne hplain

/-! ### Two notions of a change -/

/-- Whether nothing changes but ends of lines: the file is there, and its text is that which it is
to have if pairs of carriage return and line feed count as line feeds. -/
def PlannedArtifact.changesEnds (a : PlannedArtifact) : Bool :=
  a.existed && a.current != a.merged && plainLines a.current == plainLines a.merged

/-- What a dry run is to say of an artifact. -/
def PlannedArtifact.dryOutcome (a : PlannedArtifact) : Outcome :=
  if a.changes then .wouldWrite a.path else .unchanged a.path

/-- A file and its new content are different and have the same digest. -/
def Disk.Tree.Confuses (t : Tree) (a : PlannedArtifact) : Prop :=
  ∃ bytes, t.read a.path = .ok bytes ∧ bytes ≠ a.merged.toUTF8 ∧
    digest bytes = digest a.merged.toUTF8

section Changes

variable {s : Scaffolds} {packets : List Packet} {t : Tree} {file : Artifact × Path}
  {a : PlannedArtifact}

/-- There is a plan for a file that is missing. -/
theorem exists_plans_of_missing {config : Config} (hconfig : config.IsSteady)
    (hpackets : ∀ p ∈ packets, p.IsPlain) (h : t.read file.2 = .error .notFound) :
    ∃ a, Plans ⟨config, []⟩ packets t file a := by
  obtain ⟨text, htext, hmanaged⟩ := scaffold_managed hconfig file.1
  obtain ⟨merged, n, hmerged, -, -⟩ := mergedText_managed hconfig hpackets hmanaged
  refine ⟨_, none, ?_, planArtifact_eq_ok_iff.mpr ⟨text, merged, n, ?_, hmerged, rfl⟩⟩
  · unfold Tree.textAt
    rw [h]
  · rw [Option.elim_none, htext]
    rfl

theorem Plans.isClear (h : Plans s packets t file a) : t.IsClear a.path := by
  rcases h.cases.2 with ⟨-, hread⟩ | ⟨-, hread⟩
  · exact .inl ⟨_, hread⟩
  · exact .inr hread

/-- **What a dry run says of an artifact**, if no digests are confused: whether it changes. -/
theorem Plans.forecast_eq (h : Plans s packets t file a) (hdigest : ¬t.Confuses a) :
    t.forecast a = a.dryOutcome := by
  unfold PlannedArtifact.dryOutcome PlannedArtifact.changes
  rcases h.cases.2 with ⟨hthere, hread⟩ | ⟨hmissing, hread⟩
  · rw [forecast_of_read hread, hthere]
    by_cases hsame : a.current = a.merged
    · simp [hsame]
    · have hbytes : a.current.toUTF8 ≠ a.merged.toUTF8 :=
        fun heq => hsame (String.toByteArray_inj.mp heq)
      rw [if_neg fun heq => hdigest ⟨_, hread, hbytes, heq⟩, if_pos (by simp [hsame])]
  · rw [forecast_of_error hread, hmissing]
    rfl

/-- **What a comparison lists**: what changes, unless nothing changes but ends of lines. -/
theorem Plans.comparison?_eq (h : Plans s packets t file a) (directory : Path) :
    (a.comparison? directory).map (fun c => (c.artifact, c.path)) =
      if a.changes && !a.changesEnds then some (a.artifact, a.path) else none := by
  have hlisted : (a.comparison? directory).map (fun c => (c.artifact, c.path)) =
      if (if a.existed then plainLines a.current else "") = plainLines a.merged then none
      else some (a.artifact, a.path) := by
    unfold PlannedArtifact.comparison?
    dsimp only
    generalize (if a.existed then plainLines a.current else "") = old
    split <;> rfl
  obtain ⟨hmerged, hfile⟩ := h.cases
  rw [hlisted]
  unfold PlannedArtifact.changes PlannedArtifact.changesEnds
  rcases hfile with ⟨hthere, -⟩ | ⟨hmissing, -⟩
  · rw [hthere]
    by_cases hsame : a.current = a.merged
    · simp [hsame]
    · by_cases hplain : plainLines a.current = plainLines a.merged
      · simp [hplain]
      · simp [hsame, hplain]
  · -- A file that is missing counts as empty, and what is to be there is not.
    obtain ⟨text, hne, htext⟩ := exists_of_mergedText hmerged
    have hplain : plainLines a.merged ≠ "" := by
      intro heq
      have hends : endsOf a.current.toList text ≠ [] := endsOf_ne_nil hne
      refine toLineFeeds_ne_nil hends ?_
      rw [← htext]
      exact String.ofList_eq_empty_iff.mp heq
    simp [hmissing, hplain.symm]

/-- The file of an artifact of which nothing changes but ends of lines. -/
theorem Plans.mixed_of_changesEnds (h : Plans s packets t file a) (hends : a.changesEnds = true) :
    ¬IsUniform a.current.toList ∨
      hasPair a.current.toList = false ∧ hasPair a.merged.toList = true := by
  unfold PlannedArtifact.changesEnds at hends
  simp only [Bool.and_eq_true, bne_iff_ne, beq_iff_eq] at hends
  obtain ⟨⟨-, hne⟩, hplain⟩ := hends
  obtain ⟨text, -, htext⟩ := exists_of_mergedText h.cases.1
  rw [htext]
  refine mixed_of_toLineFeeds_eq ?_ ?_
  · rw [← htext]
    exact fun heq => hne (String.toList_inj.mp heq)
  · rw [← htext]
    exact String.ofList_injective hplain

end Changes

/-! ### The two programs -/

section Programs

variable {config : Config} {t : Tree} {s : Scaffolds} {p : Plan}

/-- A comparison whose parts succeed. -/
theorem compareWithPlan_of_parts (hload : (Scaffolds.load config).run t = (.ok s, t))
    (hplan : (plan s).run t = (.ok p, t)) :
    (compareWithPlan config).run t = (.ok (p.comparisons config.targetDirectory), t) := by
  unfold compareWithPlan
  rw [Program.run_bind, hload]
  dsimp only
  rw [Program.run_bind, hplan]
  rfl

/-- A dry run that has a plan. -/
theorem generate_dry_of_plan (hload : (Scaffolds.load config).run t = (.ok s, t))
    (hplan : (plan s).run t = (.ok p, t)) : (generate config true).run t =
      (.ok ⟨true, p.packets.length, [],
        p.artifacts.map fun a => ⟨a.artifact, t.forecast a, a.inserted⟩, []⟩, t) := by
  obtain ⟨-, -, hplans⟩ := plan_ok hplan
  rw [generate_dry_of_parts hload hplan, List.zipWith_map_right, List.zipWith_self]
  intro a ha
  obtain ⟨file, -, hplans⟩ := (forall₂_mem hplans).2 a ha
  exact hplans.isClear

/-- A comparison and a dry run fail alike unless there is a plan. -/
theorem exists_failure_or_plan (config : Config) (t : Tree) :
    (∃ failure, (compareWithPlan config).run t = (.error failure, t) ∧
      (generate config true).run t = (.error failure, t)) ∨
    ∃ s p, (Scaffolds.load config).run t = (.ok s, t) ∧ (plan s).run t = (.ok p, t) := by
  have hload := (isReading_load config).run_snd t
  unfold compareWithPlan generate
  simp only [Program.run_bind]
  generalize (Scaffolds.load config).run t = loaded at hload ⊢
  obtain ⟨fault | s, t'⟩ := loaded <;> obtain rfl : t' = t := hload
  · exact .inl ⟨.scaffold fault, rfl, rfl⟩
  have hplan := (isReading_plan s).run_snd t'
  simp only [if_true, generateWith, Program.run_bind]
  generalize hrun : (plan s).run t' = planned at hplan ⊢
  obtain ⟨failure | p, t⟩ := planned <;> obtain rfl : t = t' := hplan
  · exact .inl ⟨failure, rfl, rfl⟩
  · exact .inr ⟨s, p, rfl, hrun⟩

/-- In no file that a run would plan are digests confused. -/
def Config.Distinguishes (config : Config) (t : Tree) : Prop :=
  ∀ s p, (Scaffolds.load config).run t = (.ok s, t) → (plan s).run t = (.ok p, t) →
    ∀ a ∈ p.artifacts, ¬t.Confuses a

/-- The comparisons of a plan are in the order of its artifacts. -/
theorem comparisons_eq {packets : List Packet} {files : List (Artifact × Path)}
    (h : List.Forall₂ (Plans s packets t) files p.artifacts) (directory : Path) :
    (p.comparisons directory).map (fun c => (c.artifact, c.path)) =
      (p.artifacts.filter fun a => a.changes && !a.changesEnds).map
        fun a => (a.artifact, a.path) := by
  rw [Plan.comparisons, List.map_filterMap, ← List.filterMap_eq_map, List.filterMap_filter]
  refine List.filterMap_congr fun a ha => ?_
  obtain ⟨file, -, hplans⟩ := (forall₂_mem h).2 a ha
  exact hplans.comparison?_eq directory

/-- **A comparison lists what a dry run would write**, but for ends of lines, if no digests are
confused. The two fail alike, or there is a plan for the artifacts that are configured, in their
order. Then both succeed and change nothing; the dry run says of an artifact that it would be
written exactly if it changes, and the comparison lists, in the same order, those that change
unless nothing changes in them but ends of lines. Such a file mixes the two ends of lines, or it
has no pair and gets one. -/
theorem compareWithPlan_dry (h : config.Distinguishes t) :
    (∃ failure, (compareWithPlan config).run t = (.error failure, t) ∧
      (generate config true).run t = (.error failure, t)) ∨
    ∃ (s : Scaffolds) (p : Plan) (comparisons : List Comparison) (report : RunReport),
      (Scaffolds.load config).run t = (.ok s, t) ∧ (plan s).run t = (.ok p, t) ∧
      List.Forall₂ (Plans s p.packets t) config.configured p.artifacts ∧
      (compareWithPlan config).run t = (.ok comparisons, t) ∧
      (generate config true).run t = (.ok report, t) ∧
      report.artifacts = p.artifacts.map (fun a => ⟨a.artifact, a.dryOutcome, a.inserted⟩) ∧
      comparisons.map (fun c => (c.artifact, c.path)) =
        (p.artifacts.filter fun a => a.changes && !a.changesEnds).map
          (fun a => (a.artifact, a.path)) ∧
      ∀ a ∈ p.artifacts, a.changesEnds = true → a.changes = true ∧ (¬IsUniform a.current.toList ∨
        hasPair a.current.toList = false ∧ hasPair a.merged.toList = true) := by
  refine (exists_failure_or_plan config t).imp_right ?_
  rintro ⟨s, p, hload, hplan⟩
  obtain ⟨-, -, hplans⟩ := plan_ok hplan
  have hmem := (forall₂_mem hplans).2
  refine ⟨s, p, _, _, hload, hplan, ?_, compareWithPlan_of_parts hload hplan,
    generate_dry_of_plan hload hplan, ?_, comparisons_eq hplans _, fun a ha hends => ?_⟩
  · rwa [config_of_load hload] at hplans
  · refine List.map_congr_left fun a ha => ?_
    obtain ⟨file, -, hplans⟩ := hmem a ha
    rw [hplans.forecast_eq (h s p hload hplan a ha)]
  · obtain ⟨file, -, hplans⟩ := hmem a ha
    refine ⟨?_, hplans.mixed_of_changesEnds hends⟩
    unfold PlannedArtifact.changesEnds at hends
    unfold PlannedArtifact.changes
    simp only [Bool.and_eq_true] at hends
    simp [hends.1.2]

end Programs

/-! ### A file that mixes the ends of lines -/

/-- A file with all that is generated for one packet, and with a pair at the end of its first
line only. -/
def Config.mixedText : String :=
  "#pragma region packet id\r\n\tINVALID_PACKET_ID = 0\n\t, PING\n#pragma endregion packet id\n"

/-- What it is to be, with pairs at the ends of all lines. -/
def Config.pairedText : String :=
  "#pragma region packet id\r\n\tINVALID_PACKET_ID = 0\r\n\t, PING\r\n" ++
    "#pragma endregion packet id\r\n"

/-- A tree with the schema and this file, and nothing else. -/
def Config.mixedTree : Tree :=
  ((Program.writeWithParents ⟨"./t/a"⟩ mixedText.toUTF8).run shortTree).2

namespace Config

/-- The plan for the file. -/
def mixedArtifact : PlannedArtifact :=
  ⟨.packetId, ⟨"./t/a"⟩, true, mixedText, pairedText, 0⟩

/-- What is read in this tree: the schema as before, the file, and none of the other files. -/
theorem mixedTree_read :
    mixedTree.read short.schemaPath = shortTree.read short.schemaPath ∧
      mixedTree.read ⟨"./t/a"⟩ = .ok mixedText.toUTF8 ∧
      ∀ file ∈ short.configured, file = (.packetId, ⟨"./t/a"⟩) ∨
        mixedTree.read file.2 = .error .notFound ∧ file.1 ≠ .packetId := by
  decide

theorem plans_mixedArtifact : Plans ⟨short, []⟩ [⟨.request, "Ping", none, none⟩] mixedTree
    (.packetId, ⟨"./t/a"⟩) mixedArtifact := by
  have hmerged : mergedText short [⟨.request, "Ping", none, none⟩] .packetId mixedText =
      .ok (pairedText, 0) := by
    decide
  exact ⟨some mixedText, Tree.textAt_eq_some_iff.mpr mixedTree_read.2.1,
    planArtifact_eq_ok_iff.mpr ⟨_, _, _, rfl, hmerged, rfl⟩⟩

theorem mixedTree_loadValid :
    (loadValid short).run mixedTree = (.ok [⟨.request, "Ping", none, none⟩], mixedTree) := by
  obtain ⟨bytes, hread, hsame⟩ := exists_read_of_loadValid
    (shortTree_ready.schema.loadValid_run shortTree_ready.hosts)
  exact hsame mixedTree (mixedTree_read.1.trans hread)

/-- There is a plan for this tree. -/
theorem mixedTree_plan : ∃ p, (plan ⟨short, []⟩).run mixedTree = (.ok p, mixedTree) ∧
    mixedArtifact ∈ p.artifacts := by
  obtain ⟨artifacts, hplans⟩ : ∃ artifacts, List.Forall₂
      (Plans ⟨short, []⟩ [⟨.request, "Ping", none, none⟩] mixedTree) short.configured artifacts := by
    refine exists_forall₂ fun file hfile => ?_
    rcases mixedTree_read.2.2 file hfile with rfl | ⟨hread, -⟩
    · exact ⟨_, plans_mixedArtifact⟩
    · exact exists_plans_of_missing short_isPlain.steady shortTree_ready.schema.plain hread
  refine ⟨_, plan_run mixedTree_loadValid hplans, ?_⟩
  obtain ⟨a, ha, hplan⟩ := (forall₂_mem hplans).1 (.packetId, ⟨"./t/a"⟩) (by decide)
  obtain rfl := plans_mixedArtifact.unique hplan
  exact ha

/-- What is planned for this tree, but for the file, is planned for files that are missing. -/
theorem eq_mixedArtifact {p : Plan} (h : (plan ⟨short, []⟩).run mixedTree = (.ok p, mixedTree))
    {a : PlannedArtifact} (ha : a ∈ p.artifacts) : a = mixedArtifact ∨
      mixedTree.read a.path = .error .notFound ∧ a.artifact ≠ .packetId := by
  obtain ⟨-, hload, hplans⟩ := plan_ok h
  obtain ⟨file, hfile, hplan⟩ := (forall₂_mem hplans).2 a ha
  rw [mixedTree_loadValid] at hload
  rw [← Except.ok.inj (Prod.mk.inj hload).1] at hplan
  rcases mixedTree_read.2.2 file hfile with rfl | hother
  · exact .inl (plans_mixedArtifact.unique hplan)
  · rw [hplan.eq.1, hplan.eq.2]
    exact .inr hother

theorem mixedTree_distinguishes : short.Distinguishes mixedTree := by
  rintro s p hload hplan a ha ⟨bytes, hread, hne, hdigest⟩
  rw [load_run_of_templates rfl] at hload
  obtain rfl := Except.ok.inj (Prod.mk.inj hload).1
  rcases eq_mixedArtifact hplan ha with rfl | ⟨hmissing, -⟩
  · have hdigests : digest mixedText.toUTF8 ≠ digest pairedText.toUTF8 :=
      mt digest_eq_iff.mp (by decide +kernel)
    obtain rfl := Except.ok.inj (hread.symm.trans mixedTree_read.2.1)
    exact hdigests hdigest
  · rw [hmissing] at hread
    cases hread

end Config

/-- The comparison and the dry run in a tree with a file that mixes the ends of lines. -/
theorem compareWithPlan_dry_mixed :
    Config.short.Distinguishes Config.mixedTree ∧
    ∃ (s : Scaffolds) (p : Plan) (comparisons : List Comparison) (report : RunReport),
      (Scaffolds.load Config.short).run Config.mixedTree = (.ok s, Config.mixedTree) ∧
      (plan s).run Config.mixedTree = (.ok p, Config.mixedTree) ∧
      List.Forall₂ (Plans s p.packets Config.mixedTree) Config.short.configured p.artifacts ∧
      (compareWithPlan Config.short).run Config.mixedTree = (.ok comparisons, Config.mixedTree) ∧
      (generate Config.short true).run Config.mixedTree = (.ok report, Config.mixedTree) ∧
      report.artifacts = p.artifacts.map (fun a => ⟨a.artifact, a.dryOutcome, a.inserted⟩) ∧
      comparisons.map (fun c => (c.artifact, c.path)) =
        (p.artifacts.filter fun a => a.changes && !a.changesEnds).map
          (fun a => (a.artifact, a.path)) ∧
      ∀ a ∈ p.artifacts, a.changesEnds = true → a.changes = true ∧ (¬IsUniform a.current.toList ∨
        hasPair a.current.toList = false ∧ hasPair a.merged.toList = true) := by
  refine ⟨Config.mixedTree_distinguishes, ?_⟩
  rcases compareWithPlan_dry Config.mixedTree_distinguishes with ⟨failure, hfails, -⟩ | hplan
  · obtain ⟨p, hplan, -⟩ := Config.mixedTree_plan
    rw [compareWithPlan_of_parts (load_run_of_templates rfl _) hplan] at hfails
    cases (Prod.mk.inj hfails).1
  · exact hplan

/-- **A change of ends of lines is not compared.** The dry run says that the file would be written,
and the comparison does not list it. -/
theorem compareWithPlan_ne_dry :
    Config.short.Distinguishes Config.mixedTree ∧
    ∃ (comparisons : List Comparison) (report : RunReport),
      (compareWithPlan Config.short).run Config.mixedTree = (.ok comparisons, Config.mixedTree) ∧
      (generate Config.short true).run Config.mixedTree = (.ok report, Config.mixedTree) ∧
      (∃ o ∈ report.artifacts, o.artifact = .packetId ∧ o.outcome = .wouldWrite ⟨"./t/a"⟩) ∧
      ∀ c ∈ comparisons, c.artifact ≠ .packetId := by
  refine ⟨Config.mixedTree_distinguishes, ?_⟩
  have hload : (Scaffolds.load Config.short).run Config.mixedTree =
      (.ok ⟨Config.short, []⟩, Config.mixedTree) := load_run_of_templates rfl Config.mixedTree
  obtain ⟨p, hplan, hmixed⟩ := Config.mixedTree_plan
  obtain ⟨-, -, hplans⟩ := plan_ok hplan
  refine ⟨_, _, compareWithPlan_of_parts hload hplan, generate_dry_of_plan hload hplan, ?_, ?_⟩
  · refine ⟨⟨.packetId, .wouldWrite ⟨"./t/a"⟩, 0⟩, ?_, rfl, rfl⟩
    obtain ⟨file, -, hplans⟩ := (forall₂_mem hplans).2 _ hmixed
    have hforecast := hplans.forecast_eq
      (Config.mixedTree_distinguishes _ p hload hplan _ hmixed)
    have houtcome : Config.mixedArtifact.dryOutcome = .wouldWrite ⟨"./t/a"⟩ := by decide
    refine List.mem_map.mpr ⟨_, hmixed, ?_⟩
    rw [hforecast, houtcome]
    rfl
  · intro c hc hpacketId
    have hlisted := List.mem_map_of_mem (f := fun c : Comparison => (c.artifact, c.path)) hc
    rw [comparisons_eq hplans] at hlisted
    obtain ⟨a, ha, heq⟩ := List.mem_map.mp hlisted
    obtain ⟨ha, hchanges⟩ := List.mem_filter.mp ha
    have hartifact : a.artifact = .packetId := (congrArg Prod.fst heq).trans hpacketId
    rcases Config.eq_mixedArtifact hplan ha with rfl | ⟨-, hother⟩
    · exact absurd hchanges (by decide)
    · exact hother hartifact

end Packetry
