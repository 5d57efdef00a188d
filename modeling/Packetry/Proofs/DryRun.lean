import Packetry.Proofs.SuccessfulRun

/-!
# Dry runs

A dry run takes another way than a real one. An artifact that is missing is planned from its
scaffold, where a real run makes the file first and then reads it back; and digests are compared
at once, where a real run stages the new contents and compares when it commits. Still a dry run
foretells what a real run does, if that succeeds: it says that an artifact would be written
exactly if the real run leaves other bytes at its path, or makes it.

Nothing has to be assumed about collisions of digests. A file whose digest is that of another new
content is left alone by the real run, and the dry run says so. Nor do devices matter, which lose
what is written to them: such an artifact reads as empty, an empty text has no region, and a run
that reads one does not succeed.

* `Packetry.Succeeded.plans_before`: the plan of the real run is that of the dry run.
* `Packetry.generate_dry`: a dry run foretells the real run.
-/

namespace Packetry

open Disk

/-! ### What a dry run says -/

section Forecast

variable {t : Tree} {a : PlannedArtifact} {x : Transaction} {artifacts : List PlannedArtifact}

/-- What a dry run says of an artifact. -/
def Disk.Tree.forecast (t : Tree) (a : PlannedArtifact) : Outcome :=
  match t.read a.path with
  | .ok old =>
    if digest old = digest a.merged.toUTF8 then .unchanged a.path else .wouldWrite a.path
  | .error _ => .wouldWrite a.path

theorem forecast_of_read {old : ByteArray} (h : t.read a.path = .ok old) : t.forecast a =
    if digest old = digest a.merged.toUTF8 then .unchanged a.path else .wouldWrite a.path := by
  unfold Tree.forecast
  rw [h]

theorem forecast_of_error {e : Disk.Error} (h : t.read a.path = .error e) :
    t.forecast a = .wouldWrite a.path := by
  unfold Tree.forecast
  rw [h]

theorem forecast_path (t : Tree) (a : PlannedArtifact) : (t.forecast a).path = a.path := by
  cases hread : t.read a.path with
  | error e => rw [forecast_of_error hread, Outcome.path]
  | ok old =>
    rw [forecast_of_read hread]
    split
    · rfl
    · rfl

/-- A file is there, or it is not, and nothing else keeps it from being read. -/
def Disk.Tree.IsClear (t : Tree) (p : Path) : Prop :=
  (∃ bytes, t.read p = .ok bytes) ∨ t.read p = .error .notFound

theorem compare_run (h : t.IsClear a.path) :
    (Transaction.compare a.path (digest a.merged.toUTF8)).run t = (.ok (t.forecast a), t) := by
  unfold Transaction.compare
  rw [Program.run_bind, digestOf_run]
  rcases h with ⟨old, hread⟩ | hread
  · rw [forecast_of_read hread, hread]
    simp
  · rw [forecast_of_error hread, hread]
    simp

/-- A dry transaction notes what it says of each artifact. -/
theorem stageAll_dry (artifacts : List PlannedArtifact) (x : Transaction) (hdry : x.isDry = true)
    (h : ∀ a ∈ artifacts, t.IsClear a.path) : (stageAll x artifacts).run t =
      (.ok { x with planned := x.planned ++ artifacts.map t.forecast }, t) := by
  induction artifacts generalizing x with
  | nil => simp [stageAll]
  | cons a artifacts ih =>
    have hstage : (x.stage a.path a.merged.toUTF8).run t =
        ((.ok (), { x with planned := x.planned ++ [t.forecast a] }), t) := by
      unfold Transaction.stage
      simp only [hdry, if_true, Program.run_bind, compare_run (h a List.mem_cons_self),
        Program.run_pure]
    have hrest := ih { x with planned := x.planned ++ [t.forecast a] } hdry
      fun a ha => h a (List.mem_cons_of_mem _ ha)
    unfold stageAll
    rw [Program.run_bind, hstage]
    simpa using hrest

/-- **What a dry run says of its plan.** -/
theorem writePlan_dry (h : ∀ a ∈ artifacts, t.IsClear a.path) :
    (writePlan true artifacts).run t = (.ok (artifacts.map t.forecast), t) := by
  unfold writePlan
  rw [Program.run_bind, stageAll_dry artifacts (.new true) rfl h]
  rfl

/-- A dry run all parts of which succeed. -/
theorem generate_dry_of_parts {config : Config} {s : Scaffolds} {p : Plan}
    (hload : (Scaffolds.load config).run t = (.ok s, t)) (hplan : (plan s).run t = (.ok p, t))
    (h : ∀ a ∈ p.artifacts, t.IsClear a.path) :
    (generate config true).run t = (.ok ⟨true, p.packets.length, [],
      p.artifacts.zipWith (fun a o => ⟨a.artifact, o, a.inserted⟩) (p.artifacts.map t.forecast),
      []⟩, t) := by
  have hpublish : (publishIfWanted s.config true).run t = (.ok [], t) := by
    unfold publishIfWanted
    cases s.config.publishDirectory? with
    | none => rfl
    | some directory => rfl
  unfold generate
  rw [Program.run_bind, hload]
  simp only [if_true, generateWith, Program.run_bind, hplan, writePlan_dry h, hpublish,
    Program.run_pure]

end Forecast

/-! ### The plan of a dry run -/

/-- There is no region in an empty text. -/
theorem mergedText_empty (config : Config) (packets : List Packet) (a : Artifact) :
    mergedText config packets a "" = .error (.missingBegin (config.region a).beginMarker) := by
  unfold mergedText
  cases contentOf config.sessionClass packets a with
  | replace text => rfl
  | additive entries => rfl

section Plan

variable {config : Config} {t t₁ t₂ t' : Tree} {s : Scaffolds} {made : List Path} {p : Plan}
  {outcomes published : List Outcome} {file : Artifact × Path} {a : PlannedArtifact}
  {packets : List Packet} {bytes : ByteArray}

/-- What is planned for an artifact, in a tree in which it may be missing. -/
def PlannedArtifact.seenFrom (a : PlannedArtifact) (t : Tree) : PlannedArtifact :=
  { a with existed := t.exists? a.path }

/-- An empty text is not planned for. -/
theorem Plans.current_ne_empty (h : Plans s packets t file a) : a.current.toUTF8 ≠ .empty := by
  intro hempty
  have hcurrent : a.current = "" := String.toByteArray_inj.mp hempty
  have hmerged := h.cases.1
  rw [hcurrent, mergedText_empty] at hmerged
  cases hmerged

/-- What the plan of a run has read of an artifact. -/
theorem Succeeded.read_planned (h : Succeeded config t t₁ t₂ t' s made p outcomes published)
    (hw : t.WellFormed) (hparted : config.Parted t) (hfile : file ∈ config.configured)
    (hplan : Plans s p.packets t₁ file a) : t₁.read file.2 = .ok a.current.toUTF8 := by
  obtain ⟨hspares, hthere⟩ := h.spares hw hparted
  rw [← hplan.eq.2]
  exact hplan.read hspares.wellFormed (hthere _ (Config.path_mem_paths hfile))

/-- **The plan of a real run is that of a dry run.** -/
theorem Succeeded.plans_before (h : Succeeded config t t₁ t₂ t' s made p outcomes published)
    (hw : t.WellFormed) (hcwd : t.lookup t.workingDirectory = some .directory)
    (hdistinct : config.Distinct t) (hschema : t.exists? config.schemaPath = true)
    (hfile : file ∈ config.configured) (hplan : Plans s p.packets t₁ file a) :
    Plans s p.packets t file (a.seenFrom t) ∧ t.IsClear file.2 := by
  have hpath := Config.path_mem_paths hfile
  have hread := h.read_planned hw hdistinct.parted hfile hplan
  have hmerged := hplan.cases.1
  obtain ⟨hartifact, hpath'⟩ := hplan.eq
  cases hthere : t.exists? file.2 with
  | true =>
    have hread' := h.read_before hw hdistinct hpath hthere hread
    refine ⟨⟨some a.current, Tree.textAt_eq_some_iff.mpr hread', ?_⟩, Or.inl ⟨_, hread'⟩⟩
    · refine planArtifact_eq_ok_iff.mpr ⟨a.current, a.merged, a.inserted, rfl, hmerged, ?_⟩
      rw [PlannedArtifact.seenFrom, hpath', hthere, ← hartifact, ← hpath']
      rfl
  | false =>
    -- The real run has read its own scaffold.
    obtain ⟨text, htext, hbytes⟩ := h.scaffold_of_missing hw hdistinct.parted hfile hthere hread
    obtain rfl : a.current = text :=
      String.toByteArray_inj.mp (hbytes.resolve_right hplan.current_ne_empty)
    have hopen := h.isOpen_of_missing hw hcwd hdistinct hschema hfile hread
    have hnone : t.lookup (t.placeOf file.2) = none := by
      by_contra hsome
      rw [← ne_eq, ← hopen.exists?_iff hw, hthere] at hsome
      cases hsome
    have hread' := hopen.read_eq_notFound hnone
    refine ⟨⟨none, ?_, ?_⟩, Or.inr hread'⟩
    · unfold Tree.textAt
      rw [hread']
    · refine planArtifact_eq_ok_iff.mpr ⟨a.current, a.merged, a.inserted, ?_, hmerged, ?_⟩
      · rw [Option.elim_none, htext]
        rfl
      · rw [PlannedArtifact.seenFrom, hpath', hthere, ← hartifact, ← hpath']
        rfl

/-! ### What a dry run foretells -/

/-- A run has left other bytes at a path, or it has made the file. -/
def Disk.Tree.Alters (t t' : Tree) (p : Path) : Prop :=
  t.exists? p = false ∨ t'.read p ≠ t.read p

/-- What a dry run says of an artifact **foretells** what a real run says and does. -/
structure Foretold (t t' : Tree) (real dry : ArtifactOutcome) : Prop where
  /-- It is the same artifact. -/
  artifact : dry.artifact = real.artifact
  /-- The path is the same. -/
  path : dry.outcome.path = real.outcome.path
  /-- As many entries are added. -/
  inserted : dry.inserted = real.inserted
  /-- The real run leaves a file there. -/
  there : ∃ bytes, t'.read real.outcome.path = .ok bytes
  /-- The file would be written if the real run alters it. -/
  altered : t.Alters t' real.outcome.path → dry.outcome = .wouldWrite real.outcome.path
  /-- It is unchanged otherwise. -/
  kept : ¬t.Alters t' real.outcome.path → dry.outcome = .unchanged real.outcome.path

theorem refreshOutcome_path (t : Tree) (a : PlannedArtifact) :
    (t.refreshOutcome a).path = a.path := by
  unfold Tree.refreshOutcome
  split
  · rfl
  · rfl

/-- What a run leaves at an artifact: what it has read there, if that has the right digest, and
otherwise the new content, unless its copy was a device, which loses what is written to it. -/
theorem Succeeded.read_left (h : Succeeded config t t₁ t₂ t' s made p outcomes published)
    (hw : t.WellFormed) (hparted : config.Parted t) (hfile : file ∈ config.configured)
    (ha : a ∈ p.artifacts) (hplan : Plans s p.packets t₁ file a)
    (hread : t₁.read file.2 = .ok bytes) :
    (digest bytes = digest a.merged.toUTF8 → t'.read file.2 = .ok bytes) ∧
      (digest bytes ≠ digest a.merged.toUTF8 → t'.read file.2 = .ok a.merged.toUTF8 ∨
        t₁.lookup (t.placeOf (stagingPath file.2)) = some .device ∧
          t'.read file.2 = .ok .empty) := by
  have hspares := (h.spares hw hparted).1
  obtain ⟨-, hkept, hwritten, -⟩ := (hparted.rewritten hw h).2.2.2 a ha
  have hafter : ∀ bytes, t₂.read file.2 = .ok bytes → t'.read file.2 = .ok bytes := fun _ =>
    h.read_after hw hparted (Config.path_mem_paths hfile)
  rw [hplan.eq.2] at hkept hwritten
  rw [Tree.matches_iff hspares.wellFormed hread] at hkept hwritten
  rw [hspares.placeOf_eq] at hwritten
  exact ⟨fun hdigest => hafter _ ((hkept hdigest).trans hread), fun hdigest =>
    (hwritten hdigest).imp (hafter _) fun ⟨hdevice, hempty⟩ => ⟨hdevice, hafter _ hempty⟩⟩

/-- What a run leaves is what it has read, if that has the right digest, and is something else
otherwise. -/
theorem Succeeded.exists_left (h : Succeeded config t t₁ t₂ t' s made p outcomes published)
    (hw : t.WellFormed) (hparted : config.Parted t) (hfile : file ∈ config.configured)
    (ha : a ∈ p.artifacts) (hplan : Plans s p.packets t₁ file a) :
    ∃ old new, t₁.read file.2 = .ok old ∧ t'.read file.2 = .ok new ∧
      (new = old ↔ digest old = digest a.merged.toUTF8) := by
  have hread := h.read_planned hw hparted hfile hplan
  obtain ⟨hkept, hwritten⟩ := h.read_left hw hparted hfile ha hplan hread
  by_cases hdigest : digest a.current.toUTF8 = digest a.merged.toUTF8
  · exact ⟨_, _, hread, hkept hdigest, iff_of_true rfl hdigest⟩
  · -- The file has the new content, or is a device now.
    rcases hwritten hdigest with hnow | ⟨-, hnow⟩
    · exact ⟨_, _, hread, hnow, iff_of_false (fun heq => hdigest (heq ▸ rfl)) hdigest⟩
    · exact ⟨_, _, hread, hnow, iff_of_false hplan.current_ne_empty.symm hdigest⟩

/-- **What is said of one artifact.** -/
theorem Succeeded.foretold (h : Succeeded config t t₁ t₂ t' s made p outcomes published)
    (hw : t.WellFormed) (hcwd : t.lookup t.workingDirectory = some .directory)
    (hdistinct : config.Distinct t) (hschema : t.exists? config.schemaPath = true)
    (hfile : file ∈ config.configured) (ha : a ∈ p.artifacts)
    (hplan : Plans s p.packets t₁ file a) :
    Foretold t t' ⟨a.artifact, t₁.refreshOutcome a, a.inserted⟩
      ⟨a.artifact, t.forecast a, a.inserted⟩ := by
  obtain ⟨old, new, hread, hnew, hsame⟩ := h.exists_left hw hdistinct.parted hfile ha hplan
  have hclear := (h.plans_before hw hcwd hdistinct hschema hfile hplan).2
  have hbefore : t.exists? file.2 = true → t.read file.2 = .ok old := fun hthere =>
    h.read_before hw hdistinct (Config.path_mem_paths hfile) hthere hread
  rw [← hplan.eq.2] at hnew hclear hbefore
  refine ⟨rfl, ?_, rfl, ?_, ?_, ?_⟩
  all_goals simp only [forecast_path, refreshOutcome_path]
  · exact ⟨new, hnew⟩
  · -- The run alters the file, so that it is missing or has another digest.
    intro halters
    cases hthere : t.exists? a.path with
    | true =>
      rw [forecast_of_read (hbefore hthere), if_neg]
      rintro hdigest
      have hne := halters.resolve_left (by simp [hthere])
      rw [hbefore hthere, hnew, hsame.mpr hdigest] at hne
      exact hne rfl
    | false =>
      refine forecast_of_error (hclear.resolve_left ?_)
      rintro ⟨bytes, hbytes⟩
      rw [Tree.exists?_of_read_ok hbytes] at hthere
      cases hthere
  · -- The run keeps the file, so that it is there and has the same digest.
    intro hkept
    obtain ⟨hthere, heq⟩ := not_or.mp hkept
    have hbefore := hbefore (by simpa using hthere)
    rw [hbefore, hnew, not_not] at heq
    rw [forecast_of_read hbefore, if_pos (hsame.mp (Except.ok.inj heq))]

end Plan

/-- **A dry run foretells the real run.** The working directory and the schema are there, and the
files of the run are at different places. If a run succeeds, then a dry run in the same tree
succeeds and changes nothing. It reports the same packets and, in the same order, the same
artifacts, which are those that are configured, and says of each whether the run alters it. -/
theorem generate_dry {config : Config} {t t' : Tree} {report : RunReport} (hw : t.WellFormed)
    (hcwd : t.lookup t.workingDirectory = some .directory) (hdistinct : config.Distinct t)
    (hschema : t.exists? config.schemaPath = true)
    (h : (generate config false).run t = (.ok report, t')) :
    ∃ dry, (generate config true).run t = (.ok dry, t) ∧ dry.isDry = true ∧
      dry.packets = report.packets ∧ dry.scaffolded = [] ∧ dry.published = [] ∧
      report.artifacts.map (fun o => (o.artifact, o.outcome.path)) = config.configured ∧
      List.Forall₂ (Foretold t t') report.artifacts dry.artifacts := by
  obtain ⟨t₁, t₂, s, made, p, outcomes, published, hparts, rfl⟩ := exists_parts h
  obtain ⟨hload, hplans⟩ := hparts.plans
  have hmem := (forall₂_mem hplans).2
  have hbefore : ∀ file ∈ config.configured, ∀ a, Plans s p.packets t₁ file a →
      Plans s p.packets t file (a.seenFrom t) ∧ t.IsClear file.2 := fun _ hfile _ =>
    hparts.plans_before hw hcwd hdistinct hschema hfile
  -- The schema and the artifacts are planned as in the real run.
  have hload' : (loadValid config).run t = (.ok p.packets, t) := by
    obtain ⟨bytes, hread, hsame⟩ := exists_read_of_loadValid hload
    exact hsame t (hparts.read_before hw hdistinct List.mem_cons_self hschema hread)
  have hplans' : List.Forall₂ (Plans s p.packets t) config.configured
      (p.artifacts.map (·.seenFrom t)) := by
    refine List.forall₂_map_right_iff.mpr ?_
    exact ((List.forall₂_and_left _ _).mpr ⟨fun _ => id, hplans⟩).imp
      fun file a ⟨hfile, hplan⟩ => (hbefore _ hfile _ hplan).1
  have hreport : (reportOf made p outcomes published).artifacts =
      p.artifacts.map fun a => ⟨a.artifact, t₁.refreshOutcome a, a.inserted⟩ := by
    rw [reportOf, (hparts.rewritten hw hdistinct).1, List.zipWith_map_right, List.zipWith_self]
  obtain rfl := config_of_load hparts.load
  refine ⟨_, generate_dry_of_parts hparts.load (plan_run hload' hplans') ?_, rfl, rfl, rfl, rfl,
    ?_, ?_⟩
  · intro a' ha'
    obtain ⟨a, ha, rfl⟩ := List.mem_map.mp ha'
    obtain ⟨file, hfile, hplan⟩ := hmem a ha
    have hclear := (hbefore _ hfile _ hplan).2
    rwa [← hplan.eq.2] at hclear
  · rw [hreport, List.map_map]
    conv_rhs => rw [← List.map_id s.config.configured]
    refine map_eq_of_forall₂ hplans fun file a hplan => Prod.ext hplan.eq.1 ?_
    exact (refreshOutcome_path t₁ a).trans hplan.eq.2
  · simp only [hreport, List.map_map, List.zipWith_map_left, List.zipWith_map_right,
      List.zipWith_self]
    rw [List.forall₂_map_left_iff, List.forall₂_map_right_iff, List.forall₂_same]
    intro a ha
    obtain ⟨file, hfile, hplan⟩ := hmem a ha
    exact hparts.foretold hw hcwd hdistinct hschema hfile ha hplan

/-- A tree with nothing but a schema that has one packet. -/
def Config.shortTree : Tree :=
  ((Program.writeWithParents short.schemaPath
    "Packet:\n- Type: RequestPacket\n  PacketName: Ping\n".toUTF8).run ⟨[], []⟩).2

/-- A tree with nothing but a schema that is accepted is ready. -/
theorem Config.short_ready {bytes : ByteArray} {packets : List Packet}
    (h : short.Accepts bytes packets) :
    short.Ready ((Program.writeWithParents short.schemaPath bytes).run ⟨[], []⟩).2 packets := by
  obtain ⟨hosts, -⟩ := short_hosts
  have hnone : ∀ file ∈ short.configured,
      (⟨[], []⟩ : Tree).lookup ((⟨[], []⟩ : Tree).placeOf file.2) = none := by
    decide +kernel
  exact (edited_of_writeWithParents hosts bytes).ready hosts h
    fun file hfile => Or.inl (hnone file hfile)

theorem Config.shortTree_ready :
    short.Ready shortTree [⟨.request, "Ping", none, none⟩] :=
  short_ready short_accepts

theorem Config.shortTree_distinct : short.Distinct shortTree :=
  ⟨by decide, by decide +kernel⟩

/-- A first run, and a dry run before it. -/
theorem generate_dry_first :
    ∃ (report dry : RunReport) (t' : Tree),
      (generate Config.short false).run Config.shortTree = (.ok report, t') ∧
      (generate Config.short true).run Config.shortTree = (.ok dry, Config.shortTree) ∧
      dry.isDry = true ∧ dry.packets = report.packets ∧ dry.scaffolded = [] ∧
      dry.published = [] ∧
      report.artifacts.map (fun o => (o.artifact, o.outcome.path)) = Config.short.configured ∧
      List.Forall₂ (Foretold Config.shortTree t') report.artifacts dry.artifacts := by
  obtain ⟨report, t', hrun, -⟩ := Config.shortTree_ready.run Config.short_isPlain
  have hcwd : Config.shortTree.lookup Config.shortTree.workingDirectory = some .directory := rfl
  have hschema : Config.shortTree.exists? Config.short.schemaPath = true := by decide
  obtain ⟨dry, hdry⟩ := generate_dry Config.shortTree_ready.hosts.wellFormed hcwd
    Config.shortTree_distinct hschema hrun
  exact ⟨report, dry, t', hrun, hdry⟩

end Packetry
