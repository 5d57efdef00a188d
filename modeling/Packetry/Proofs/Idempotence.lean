import Packetry.Proofs.Refreshed
import Packetry.Proofs.Scaffolded

/-!
# Runs that are repeated

A run in a tree with room for its files succeeds as long as the artifacts are managed, and it
leaves them managed. A run with the same schema afterwards has nothing to do.

The invariant comes in two strengths. Before a run, every artifact is missing or managed
(`Packetry.Config.Ready`). After it, every artifact has the digest of what would be generated
into it, no copies are left, and the published files have the digests of their sources
(`Packetry.Config.Fresh`). A change of the schema leads from the second back to the first.

A file is compared with its new content by digest. What is there is the new content itself, unless
two contents with the same digest have come together (`Packetry.Config.Collides`): then the file
is left alone as well, but the generator goes on saying what it would add.

* `Packetry.Config.Ready.run`: a run succeeds, and everything is fresh.
* `Packetry.Config.Fresh.run`: a run changes nothing when everything is fresh.
* `Packetry.generate_quiet`: in a history of changes and runs, all runs succeed, and one that is
  repeated does nothing.
-/

namespace Packetry

open Disk

variable {config : Config} {packets : List Packet} {t t' t'' : Tree} {p : Path}
  {bytes : ByteArray}

/-! ### The parts of a run -/

/-- The files that are published, with what they are copied from. -/
def Config.publishedFiles (config : Config) : List (Path × Path) :=
  config.publishDirectory?.elim [] config.publications

theorem publishIfWanted_eq (config : Config) :
    publishIfWanted config false = publishAll config.publishedFiles := by
  unfold publishIfWanted Config.publishedFiles
  cases config.publishDirectory? with
  | none => rfl
  | some directory => rfl

/-- What is published are artifacts. -/
theorem Config.mem_publishedFiles {file : Path × Path} (h : file ∈ config.publishedFiles) :
    ∃ a, (a, file.1) ∈ config.configured := by
  unfold publishedFiles at h
  cases hdirectory : config.publishDirectory? with
  | none => simp [hdirectory] at h
  | some directory =>
    rw [hdirectory] at h
    obtain ⟨a, -, ha⟩ := List.mem_filterMap.mp (show file ∈ config.publications directory from h)
    obtain ⟨source, hsource, ha⟩ := Option.bind_eq_some_iff.mp ha
    obtain ⟨name, -, ha⟩ := Option.bind_eq_some_iff.mp ha
    obtain rfl := Option.some.inj ha
    refine ⟨a, List.mem_filterMap.mpr ⟨a, Artifact.mem_all a, ?_⟩⟩
    rw [hsource]
    rfl

/-- A run all parts of which succeed. -/
theorem generate_run_of_parts {s : Scaffolds} {made : List Path} {p : Plan}
    {outcomes published : List Outcome} {t₀ t₁ t₂ t₃ : Tree}
    (hload : (Scaffolds.load config).run t₀ = (.ok s, t₀))
    (hensure : (ensure s).run t₀ = (.ok made, t₁)) (hplan : (plan s).run t₁ = (.ok p, t₁))
    (hwrite : (writePlan false p.artifacts).run t₁ = (.ok outcomes, t₂))
    (hpublish : (publishAll config.publishedFiles).run t₂ = (.ok published, t₃)) :
    (generate config false).run t₀ = (.ok (reportOf made p outcomes published), t₃) := by
  have hproduce : (produce config).run t₀ = (.ok (made, p, outcomes), t₂) := by
    unfold produce prepare
    simp only [Program.run_bind, hload, hensure, hplan, hwrite, Program.run_pure]
  rw [generate_run, hproduce]
  simp only [publishIfWanted_eq, hpublish]
  rfl

/-- A run of a list of plans, one for each artifact. -/
theorem plan_run {s : Scaffolds} {artifacts : List PlannedArtifact}
    (hload : (loadValid s.config).run t = (.ok packets, t))
    (hplans : List.Forall₂ (Plans s packets t) s.config.configured artifacts) :
    (plan s).run t = (.ok ⟨packets, artifacts⟩, t) := by
  unfold plan
  rw [Program.run_bind, hload]
  dsimp only
  rw [Program.run_bind, planAll_run_iff.mpr hplans]
  rfl

/-! ### Schemas -/

/-- The bytes are those of a schema that is accepted: its packets are read and are valid, and
plain code is generated for them. -/
structure Config.Accepts (config : Config) (bytes : ByteArray) (packets : List Packet) :
    Prop where
  /-- The packets are read. -/
  parse : ∃ text, String.fromUTF8? bytes = some text ∧
    Schema.parse text config.schemaKey config.schemaPath = .ok packets
  /-- They are valid. -/
  valid : (validate packets).isValid = true
  /-- They are plain. -/
  plain : ∀ p ∈ packets, p.IsPlain

theorem Config.Accepts.loadValid_run (h : config.Accepts bytes packets)
    (hread : t.read config.schemaPath = .ok bytes) :
    (loadValid config).run t = (.ok packets, t) := by
  obtain ⟨text, htext, hparse⟩ := h.parse
  unfold loadValid Schema.load Program.readText
  simp only [Program.run_bind, Program.run_read, hread, htext, Option.elim_some,
    Program.run_pure, hparse, h.valid, if_true]

/-- A text is accepted if what is read from it is valid and plain. -/
theorem Config.accepts_of_parse {text : String}
    (hparse : (Schema.parse text config.schemaKey config.schemaPath).toOption = some packets)
    (hvalid : (validate packets).isValid = true) (hplain : ∀ p ∈ packets, p.IsPlain) :
    config.Accepts text.toUTF8 packets := by
  refine ⟨⟨text, fromUTF8?_toUTF8 _, ?_⟩, hvalid, hplain⟩
  generalize Schema.parse _ _ _ = answer at hparse
  cases answer with
  | error fault => cases hparse
  | ok packets => exact congrArg Except.ok (Option.some.inj hparse)

/-! ### Files of a run -/

/-- All files that a run works on. -/
def Config.tracked (config : Config) : List Path :=
  config.paths ++ config.publishedFiles.map (·.2)

theorem Config.schemaPath_mem_tracked : config.schemaPath ∈ config.tracked := by
  simp [tracked, paths]

theorem Config.path_mem_paths {file : Artifact × Path} (h : file ∈ config.configured) :
    file.2 ∈ config.paths :=
  List.mem_cons_of_mem _ (List.mem_map_of_mem h)

theorem Config.path_mem_tracked {file : Artifact × Path} (h : file ∈ config.configured) :
    file.2 ∈ config.tracked :=
  List.mem_append_left _ (path_mem_paths h)

theorem Config.target_mem_tracked {file : Path × Path} (h : file ∈ config.publishedFiles) :
    file.2 ∈ config.tracked :=
  List.mem_append_right _ (List.mem_map_of_mem h)

/-- The file of an artifact has a text that is maintained. -/
def Config.Maintains (config : Config) (t : Tree) (file : Artifact × Path) (text : String) :
    Prop :=
  t.lookup (t.placeOf file.2) = some (.file text.toUTF8) ∧ Managed config file.1 text

/-- The plan for an artifact that is there. -/
theorem Config.Maintains.plans {file : Artifact × Path} {text merged : String} {n : Nat}
    (h : config.Maintains t file text) (hosts : t.Hosts config.tracked)
    (hfile : file ∈ config.configured)
    (hmerged : mergedText config packets file.1 text = .ok (merged, n)) :
    Plans ⟨config, []⟩ packets t file ⟨file.1, file.2, true, text, merged, n⟩ := by
  have hread := hosts.read_eq (mem_sidesOf (path_mem_tracked hfile)).1 h.1
  exact ⟨some text, Tree.textAt_eq_some_iff.mpr hread,
    planArtifact_eq_ok_iff.mpr ⟨text, merged, n, rfl, hmerged, rfl⟩⟩

/-! ### Short paths -/

/-- A configuration with short paths. -/
def Config.short : Config :=
  { schema := ⟨"s"⟩, targetRoot := ⟨"t"⟩, publishRoot := some ⟨"p"⟩,
    files := ⟨⟨"a"⟩, ⟨"b"⟩, ⟨"c"⟩, ⟨"d"⟩, ⟨"e"⟩, ⟨"f"⟩, none⟩ }

theorem Config.short_isPlain : Config.short.IsPlain := by
  refine ⟨rfl, by decide, by decide, ?_, ?_, ?_⟩
  · intro a p h
    cases a <;> cases h <;> decide
  · intro a
    cases a <;> decide
  · intro a
    cases a <;> decide

/-- A schema with one packet is accepted. -/
theorem Config.short_accepts :
    Config.short.Accepts "Packet:\n- Type: RequestPacket\n  PacketName: Ping\n".toUTF8
      [⟨.request, "Ping", none, none⟩] := by
  refine accepts_of_parse (by decide +kernel) (by decide) ?_
  simp only [List.mem_singleton, forall_eq]
  exact ⟨by decide, by simp⟩

/-- An empty tree has room for everything, and nothing is there. -/
theorem Config.short_hosts : (⟨[], []⟩ : Tree).Hosts Config.short.tracked ∧
    ∀ file ∈ Config.short.configured, (⟨[], []⟩ : Tree).exists? file.2 = false := by
  decide +kernel

/-! ### The invariant -/

/-- The schema of a tree is accepted. -/
def Config.HasSchema (config : Config) (t : Tree) (packets : List Packet) : Prop :=
  ∃ bytes, t.lookup (t.placeOf config.schemaPath) = some (.file bytes) ∧
    config.Accepts bytes packets

/-- **A tree in which a run succeeds**: every artifact is missing or maintained. -/
structure Config.Ready (config : Config) (t : Tree) (packets : List Packet) : Prop where
  /-- There is room for all files. -/
  hosts : t.Hosts config.tracked
  /-- The schema is accepted. -/
  schema : config.HasSchema t packets
  /-- Every artifact is missing or maintained. -/
  artifacts : ∀ file ∈ config.configured,
    t.lookup (t.placeOf file.2) = none ∨ ∃ text, config.Maintains t file text

/-- What is generated into a text is the text itself, and nothing is added to it, or it is another
text with the same digest. -/
structure Config.Current (config : Config) (packets : List Packet) (a : Artifact)
    (text merged : String) (n : Nat) : Prop where
  /-- It is what is generated. -/
  generated : mergedText config packets a text = .ok (merged, n)
  /-- The digests are the same. -/
  digests : digest text.toUTF8 = digest merged.toUTF8
  /-- Nothing is added to the text itself. -/
  added : text = merged → n = 0

/-- **A tree in which a run does nothing.** -/
structure Config.Fresh (config : Config) (t : Tree) (packets : List Packet) : Prop where
  /-- There is room for all files. -/
  hosts : t.Hosts config.tracked
  /-- The schema is accepted. -/
  schema : config.HasSchema t packets
  /-- Every artifact is maintained and current. -/
  artifacts : ∀ file ∈ config.configured, ∃ (text merged : String) (n : Nat),
    config.Maintains t file text ∧ config.Current packets file.1 text merged n
  /-- There are no copies of artifacts. -/
  copies : ∀ file ∈ config.configured, t.lookup (t.placeOf (stagingPath file.2)) = none
  /-- Everything is published. -/
  published : ∀ file ∈ config.publishedFiles, ∀ bytes,
    t.lookup (t.placeOf file.1) = some (.file bytes) → t.Matches file.2 bytes

theorem Config.Fresh.ready (h : config.Fresh t packets) : config.Ready t packets :=
  ⟨h.hosts, h.schema, fun file hfile => by
    obtain ⟨text, -, -, htext, -⟩ := h.artifacts file hfile
    exact Or.inr ⟨text, htext⟩⟩

/-! ### A run -/

/-- A schema that is left alone is accepted still. -/
theorem Config.HasSchema.congr (h : config.HasSchema t packets)
    (hcwd : t'.workingDirectory = t.workingDirectory)
    (heq : t'.lookup (t.placeOf config.schemaPath) = t.lookup (t.placeOf config.schemaPath)) :
    config.HasSchema t' packets := by
  obtain ⟨bytes, hfile, haccepts⟩ := h
  refine ⟨bytes, ?_, haccepts⟩
  rw [Tree.placeOf_congr hcwd, heq, hfile]

theorem Config.HasSchema.plain (h : config.HasSchema t packets) : ∀ p ∈ packets, p.IsPlain := by
  obtain ⟨_, -, haccepts⟩ := h
  exact haccepts.plain

theorem Config.HasSchema.loadValid_run (h : config.HasSchema t packets)
    (hosts : t.Hosts config.tracked) : (loadValid config).run t = (.ok packets, t) := by
  obtain ⟨bytes, hfile, haccepts⟩ := h
  exact haccepts.loadValid_run (hosts.read_eq (mem_sidesOf schemaPath_mem_tracked).1 hfile)

/-- Making what is missing leaves every artifact maintained. -/
theorem Config.Ready.makes_missing (h : config.Ready t packets) (hconfig : config.IsSteady) :
    ∃ (made : List Path) (t' : Tree), (ensure ⟨config, []⟩).run t = (.ok made, t') ∧
      Tree.Works (sidesOf config.paths) t t' ∧ config.HasSchema t' packets ∧
      ∀ file ∈ config.configured, ∃ text, config.Maintains t' file text := by
  have hpaths : (⟨config, []⟩ : Scaffolds).files.map (·.1) = config.paths := map_files _
  have hsub : config.paths ⊆ config.tracked := List.subset_append_left _ _
  obtain ⟨bytes, hschema, -⟩ := h.schema
  obtain ⟨made, t', hrun, hworks, hmade⟩ := h.hosts.makeMissing_run
    (⟨config, []⟩ : Scaffolds).files
    (fun file hfile => hsub (hpaths ▸ List.mem_map_of_mem hfile))
    (hpaths ▸ h.hosts.nodup.sublist (List.sublist_append_left _ _)) (by
      intro file hfile hnone
      rcases List.mem_cons.mp hfile with rfl | hfile
      · rw [hschema] at hnone
        cases hnone
      · obtain ⟨⟨a, p⟩, -, rfl⟩ := List.mem_map.mp hfile
        obtain ⟨text, htext, -⟩ := scaffold_managed hconfig a
        exact ⟨text, htext⟩)
  rw [hpaths] at hworks
  refine ⟨made, t', hrun, hworks, ?_, fun file hfile => ?_⟩
  · refine h.schema.congr hworks.workingDirectory ?_
    rcases hmade (config.schemaPath, _) List.mem_cons_self with ⟨-, hkept⟩ | ⟨hnone, -⟩
    · exact hkept
    · rw [hschema] at hnone
      cases hnone
  · have hfiles : (file.2, (⟨config, []⟩ : Scaffolds).ofArtifact file.1) ∈
        (⟨config, []⟩ : Scaffolds).files :=
      List.mem_cons_of_mem _ (List.mem_map.mpr ⟨file, hfile, rfl⟩)
    -- An artifact that was there is kept, and was managed before; the others are their scaffolds.
    rcases hmade _ hfiles with ⟨hthere, hkept⟩ | ⟨-, text, htext, hnow⟩
    · obtain ⟨text, hfile, hmanaged⟩ := (h.artifacts file hfile).resolve_left hthere
      exact ⟨text, by rw [hworks.placeOf_eq, hkept, hfile], hmanaged⟩
    · obtain ⟨text', htext', hmanaged⟩ := scaffold_managed hconfig file.1
      obtain rfl : text = text' := Except.ok.inj (htext.symm.trans htext')
      exact ⟨text, by rw [hworks.placeOf_eq, hnow], hmanaged⟩

/-- An artifact is planned. -/
structure Config.Renews (config : Config) (t : Tree) (packets : List Packet)
    (file : Artifact × Path) (a : PlannedArtifact) : Prop where
  /-- It is wanted. -/
  mem : file ∈ config.configured
  /-- It is the artifact. -/
  artifact : a.artifact = file.1
  /-- It is the path. -/
  path : a.path = file.2
  /-- Its text is that of the file. -/
  current : config.Maintains t file a.current
  /-- This is what is generated. -/
  generated : mergedText config packets file.1 a.current = .ok (a.merged, a.inserted)

/-- Artifacts that are maintained can be planned. -/
theorem plan_run_of_maintains (hconfig : config.IsSteady) (hosts : t.Hosts config.tracked)
    (hschema : config.HasSchema t packets)
    (h : ∀ file ∈ config.configured, ∃ text, config.Maintains t file text) :
    ∃ artifacts, (plan ⟨config, []⟩).run t = (.ok ⟨packets, artifacts⟩, t) ∧
      List.Forall₂ (config.Renews t packets) config.configured artifacts := by
  have hone : ∀ file ∈ config.configured, ∃ a, Plans ⟨config, []⟩ packets t file a ∧
      config.Renews t packets file a := by
    intro file hfile
    obtain ⟨text, htext⟩ := h file hfile
    obtain ⟨merged, n, hmerged, -, -⟩ := mergedText_managed hconfig hschema.plain htext.2
    exact ⟨_, htext.plans hosts hfile hmerged, hfile, rfl, rfl, htext, hmerged⟩
  obtain ⟨artifacts, hall⟩ := exists_forall₂ hone
  exact ⟨artifacts, plan_run (hschema.loadValid_run hosts) (hall.imp fun _ _ h => h.1),
    hall.imp fun _ _ h => h.2⟩

theorem map_path_of_renews {artifacts : List PlannedArtifact}
    (h : List.Forall₂ (config.Renews t packets) config.configured artifacts) :
    artifacts.map (·.path) = config.configured.map (·.2) :=
  map_eq_of_forall₂ h fun _ _ h => h.path

/-- Replacing the artifacts leaves all of them maintained and current. -/
theorem writePlan_run_of_renews {artifacts : List PlannedArtifact} (hconfig : config.IsSteady)
    (hosts : t.Hosts config.tracked) (hschema : config.HasSchema t packets)
    (h : List.Forall₂ (config.Renews t packets) config.configured artifacts) :
    ∃ t', (writePlan false artifacts).run t = (.ok (artifacts.map t.refreshOutcome), t') ∧
      Tree.Works (sidesOf (config.configured.map (·.2))) t t' ∧
      ∀ file ∈ config.configured, t'.lookup (t.placeOf (stagingPath file.2)) = none ∧
        ∃ (text merged : String) (n : Nat), config.Maintains t' file text ∧
          config.Current packets file.1 text merged n := by
  have hpaths := map_path_of_renews h
  have hnodup : (config.configured.map (·.2)).Nodup :=
    hosts.nodup.sublist (((List.sublist_cons_self _ _)).trans (List.sublist_append_left _ _))
  obtain ⟨t', hrun, hworks, hrefreshed⟩ := hosts.writePlan_run artifacts (by
    intro a ha
    obtain ⟨file, hfile, hrenews⟩ := (forall₂_mem h).2 a ha
    rw [hrenews.path]
    exact config.path_mem_tracked hfile) (hpaths ▸ hnodup)
  rw [hpaths] at hworks
  refine ⟨t', hrun, hworks, fun file hfile => ?_⟩
  obtain ⟨a, ha, hrenews⟩ := (forall₂_mem h).1 file hfile
  obtain ⟨hcopy, hkept, hwritten⟩ := hrefreshed a ha
  rw [hrenews.path] at hcopy hkept hwritten
  obtain ⟨hfile', hmanaged⟩ := hrenews.current
  obtain ⟨merged, n, hmerged, hmanaged', hagain⟩ :=
    mergedText_managed hconfig hschema.plain hmanaged
  obtain ⟨rfl, rfl⟩ : a.merged = merged ∧ a.inserted = n := by
    have heq := Except.ok.inj (hrenews.generated.symm.trans hmerged)
    exact ⟨congrArg Prod.fst heq, congrArg Prod.snd heq⟩
  refine ⟨hcopy, ?_⟩
  by_cases hmatches : t.Matches file.2 a.merged.toUTF8
  · -- The file is what it was, and nothing is added to it unless its text is another one.
    refine ⟨a.current, a.merged, a.inserted, ⟨?_, hmanaged⟩, hmerged,
      hmatches.digest_eq hfile', fun heq => ?_⟩
    · rw [hworks.placeOf_eq, (hkept hmatches).1, hfile']
    · rw [heq, hagain] at hmerged
      exact (congrArg Prod.snd (Except.ok.inj hmerged)).symm
  · refine ⟨a.merged, a.merged, 0, ⟨?_, hmanaged'⟩, hagain, rfl, fun _ => rfl⟩
    rw [hworks.placeOf_eq, hwritten hmatches]

/-- The files of a run are all different. -/
theorem nodup_tracked (hosts : t.Hosts config.tracked) :
    config.schemaPath ∉ config.configured.map (·.2) ∧
      (config.publishedFiles.map (·.2)).Nodup ∧
      ∀ p ∈ config.paths, p ∉ config.publishedFiles.map (·.2) := by
  obtain ⟨hpaths, hpublished, hdisjoint⟩ := List.nodup_append.mp hosts.nodup
  exact ⟨(List.nodup_cons.mp hpaths).1, hpublished, fun p hp hmem => hdisjoint p hp p hmem rfl⟩

/-- Artifacts that are there are published. -/
theorem publishAll_run_of_there (hosts : t.Hosts config.tracked)
    (hthere : ∀ file ∈ config.configured, t.lookup (t.placeOf file.2) ≠ none) :
    ∃ (published : List Outcome) (t' : Tree),
      (publishAll config.publishedFiles).run t = (.ok published, t') ∧
      Tree.Works (sidesOf (config.publishedFiles.map (·.2))) t t' ∧
      ∀ file ∈ config.publishedFiles, ∀ bytes,
        t.lookup (t.placeOf file.1) = some (.file bytes) → t'.Matches file.2 bytes := by
  obtain ⟨-, hnodup, hapart⟩ := nodup_tracked hosts
  refine hosts.publishAll_run config.publishedFiles (fun file hfile => ?_) hnodup
    (fun file hfile => ?_) (fun file hfile => ?_)
  all_goals obtain ⟨a, ha⟩ := Config.mem_publishedFiles hfile
  · exact ⟨Config.path_mem_tracked ha, Config.target_mem_tracked hfile⟩
  · exact hapart file.1 (Config.path_mem_paths ha)
  · exact hthere (a, file.1) ha

/-- **A run succeeds in a tree that is ready**, and leaves everything fresh. -/
theorem Config.Ready.succeeds (h : config.Ready t packets) (hconfig : config.IsSteady) :
    ∃ (report : RunReport) (t' : Tree), (generate config false).run t = (.ok report, t') ∧
      config.Fresh t' packets := by
  have hpaths : config.paths ⊆ config.tracked := List.subset_append_left _ _
  have hconfigured : config.configured.map (·.2) ⊆ config.paths := List.subset_cons_self _ _
  have hpublished : config.publishedFiles.map (·.2) ⊆ config.tracked :=
    List.subset_append_right _ _
  have hmem := List.Subset.trans hconfigured hpaths
  obtain ⟨hschemaPath, -, hapart⟩ := nodup_tracked h.hosts
  have hself : ∀ p : Path, p ∈ sidesOf [p] ∧ stagingPath p ∈ sidesOf [p] := by simp [sidesOf]
  -- What is missing is made, and everything is planned and replaced.
  obtain ⟨made, t₁, hensure, hworks₁, hschema₁, hmaintained⟩ := h.makes_missing hconfig
  have hosts₁ := h.hosts.of_works hworks₁ (Tree.sidesOf_subset hpaths)
  obtain ⟨artifacts, hplan, hrenews⟩ :=
    plan_run_of_maintains hconfig hosts₁ hschema₁ hmaintained
  obtain ⟨t₂, hwrite, hworks₂, hcurrent⟩ :=
    writePlan_run_of_renews hconfig hosts₁ hschema₁ hrenews
  have hosts₂ := hosts₁.of_works hworks₂ (Tree.sidesOf_subset hmem)
  have hplace₂ := hworks₂.placeOf_eq
  have hschema₂ := hschema₁.congr hworks₂.workingDirectory
    (hworks₂.lookup_eq_of_notMem hosts₁ hmem schemaPath_mem_tracked
      hschemaPath (hself _).1)
  -- Publishing works on other files.
  obtain ⟨published, t₃, hpublish, hworks₃, hmatches⟩ :=
    publishAll_run_of_there hosts₂ fun file hfile => by
      obtain ⟨-, text, -, -, ⟨htext, -⟩, -⟩ := hcurrent file hfile
      simp [htext]
  have hosts₃ := hosts₂.of_works hworks₃ (Tree.sidesOf_subset hpublished)
  have hplace₃ := hworks₃.placeOf_eq
  have hkeep : ∀ p ∈ config.paths, ∀ side ∈ sidesOf [p],
      t₃.lookup (t₂.placeOf side) = t₂.lookup (t₂.placeOf side) := fun p hp side hside =>
    hworks₃.lookup_eq_of_notMem hosts₂ hpublished (hpaths hp) (hapart p hp) hside
  refine ⟨_, t₃, generate_run_of_parts (load_run_of_templates hconfig.templates t) hensure hplan
    hwrite hpublish, hosts₃, ?_, fun file hfile => ?_, fun file hfile => ?_, fun file hfile => ?_⟩
  · exact hschema₂.congr hworks₃.workingDirectory
      (hkeep _ List.mem_cons_self _ (hself _).1)
  · obtain ⟨-, text, merged, n, ⟨htext, hmanaged⟩, hcurrent⟩ := hcurrent file hfile
    refine ⟨text, merged, n, ⟨?_, hmanaged⟩, hcurrent⟩
    rw [hplace₃, hkeep _ (path_mem_paths hfile) _ (hself _).1, htext]
  · rw [hplace₃, hkeep _ (path_mem_paths hfile) _ (hself _).2, hplace₂]
    exact (hcurrent file hfile).1
  · obtain ⟨a, ha⟩ := mem_publishedFiles hfile
    intro bytes hbytes
    refine hmatches file hfile bytes ?_
    rw [← hkeep _ (path_mem_paths ha) _ (hself _).1, ← hplace₃]
    exact hbytes

theorem Config.Ready.run (h : config.Ready t packets) (hconfig : config.IsPlain) :
    ∃ (report : RunReport) (t' : Tree), (generate config false).run t = (.ok report, t') ∧
      config.Fresh t' packets :=
  h.succeeds hconfig.steady

/-! ### A run that is repeated -/

/-- The text of an artifact and what would be generated into it are different and have the same
digest. -/
def Config.Collides (config : Config) (t : Tree) (file : Artifact × Path) : Prop :=
  ∃ (packets : List Packet) (text merged : String) (n : Nat),
    (loadValid config).run t = (.ok packets, t) ∧
      t.lookup (t.placeOf file.2) = some (.file text.toUTF8) ∧
      mergedText config packets file.1 text = .ok (merged, n) ∧
      text ≠ merged ∧ digest text.toUTF8 = digest merged.toUTF8

/-- **A run has done nothing.** -/
structure Config.Idle (config : Config) (t t' : Tree) (report : RunReport) : Prop where
  /-- Nothing was made. -/
  scaffolded : report.scaffolded = []
  /-- Every artifact is reported as unchanged. Nothing was added to it, unless there is a
  collision of digests. -/
  artifacts : List.Forall₂ (fun file o => o.artifact = file.1 ∧ o.outcome = .unchanged file.2 ∧
    (o.inserted = 0 ∨ config.Collides t file)) config.configured report.artifacts
  /-- Every published file is reported as unchanged. -/
  published : report.published = config.publishedFiles.map fun file => .unchanged file.2
  /-- The working directory is the same. -/
  workingDirectory : t'.workingDirectory = t.workingDirectory
  /-- Whatever is in the tree is what it was. -/
  lookup : ∀ q, t'.lookup q = t.lookup q

/-- The plan for an artifact that is fresh is current. -/
theorem Config.Fresh.current {file : Artifact × Path} {a : PlannedArtifact}
    (h : config.Fresh t packets) (hrenews : config.Renews t packets file a) :
    config.Current packets file.1 a.current a.merged a.inserted := by
  obtain ⟨text, merged, n, ⟨htext, -⟩, hcurrent⟩ := h.artifacts file hrenews.mem
  obtain rfl : a.current = text := by
    have hsame := hrenews.current.1.symm.trans htext
    exact String.toByteArray_inj.mp (Disk.Entry.file.inj (Option.some.inj hsame))
  have heq := Except.ok.inj (hrenews.generated.symm.trans hcurrent.generated)
  obtain ⟨rfl, rfl⟩ := Prod.mk.inj heq
  exact hcurrent

/-- Every file that a run needs is there in a fresh tree. -/
theorem Config.Fresh.exists? (h : config.Fresh t packets) (hp : p ∈ config.paths) :
    t.exists? p = true := by
  have htracked : p ∈ config.tracked := List.mem_append_left _ hp
  rw [(h.hosts.isOpen p (mem_sidesOf htracked).1).exists?_iff h.hosts.wellFormed]
  rcases List.mem_cons.mp hp with rfl | hp
  · obtain ⟨bytes, hbytes, -⟩ := h.schema
    simp [hbytes]
  · obtain ⟨file, hfile, rfl⟩ := List.mem_map.mp hp
    obtain ⟨text, -, -, ⟨htext, -⟩, -⟩ := h.artifacts file hfile
    simp [htext]

/-- Nothing has to be made in a fresh tree. -/
theorem Config.Fresh.makes_nothing (h : config.Fresh t packets) :
    (ensure ⟨config, []⟩).run t = (.ok [], t) := by
  have hpaths : (⟨config, []⟩ : Scaffolds).files.map (·.1) = config.paths := map_files _
  exact makeMissing_run_of_exists? _ fun file hfile =>
    h.exists? (hpaths ▸ List.mem_map_of_mem hfile)

/-- Writing the plan of a fresh tree leaves every file as it is. -/
theorem Config.Fresh.writePlan_run {artifacts : List PlannedArtifact}
    (h : config.Fresh t packets)
    (hrenews : List.Forall₂ (config.Renews t packets) config.configured artifacts) :
    ∃ t', (writePlan false artifacts).run t =
        (.ok (artifacts.map fun a => .unchanged a.path), t') ∧ t'.Hosts config.tracked ∧
      t'.workingDirectory = t.workingDirectory ∧ ∀ q, t'.lookup q = t.lookup q := by
  have hmem := (forall₂_mem hrenews).2
  have hnodup : (artifacts.map (·.path)).Nodup := by
    rw [map_path_of_renews hrenews]
    exact h.hosts.nodup.sublist
      ((List.sublist_cons_self _ _).trans (List.sublist_append_left _ _))
  refine h.hosts.writePlan_run_of_matches artifacts (fun a ha => ?_) hnodup (fun a ha => ?_)
    (fun a ha => ?_)
  all_goals obtain ⟨file, hfile, hrenews⟩ := hmem a ha
  · exact hrenews.path ▸ path_mem_tracked hfile
  · rw [Tree.Matches, hrenews.path, hrenews.current.1]
    exact congrArg some (h.current hrenews).digests
  · rw [hrenews.path, h.copies file hfile]

/-- Publishing leaves every file as it is when what is in the tree is what is in a fresh one. -/
theorem Config.Fresh.publishAll_run (h : config.Fresh t packets)
    (hosts' : t'.Hosts config.tracked) (hcwd : t'.workingDirectory = t.workingDirectory)
    (hlookup : ∀ q, t'.lookup q = t.lookup q) :
    (publishAll config.publishedFiles).run t' =
      (.ok (config.publishedFiles.map fun file => .unchanged file.2), t') := by
  refine hosts'.publishAll_run_of_matches _ fun file hfile => ⟨target_mem_tracked hfile, ?_⟩
  obtain ⟨a, ha⟩ := mem_publishedFiles hfile
  obtain ⟨text, -, -, ⟨htext, -⟩, -⟩ := h.artifacts _ ha
  refine ⟨text.toUTF8, hosts'.read_eq (mem_sidesOf (path_mem_tracked ha)).1 ?_,
    (Tree.matches_congr hcwd (hlookup _)).mpr (h.published file hfile _ htext)⟩
  rw [Tree.placeOf_congr hcwd, hlookup, htext]

/-- **A run does nothing in a tree that is fresh.** -/
theorem Config.Fresh.run (h : config.Fresh t packets) (hconfig : config.IsPlain) :
    ∃ (report : RunReport) (t' : Tree), (generate config false).run t = (.ok report, t') ∧
      config.Idle t t' report := by
  obtain ⟨artifacts, hplan, hrenews⟩ := plan_run_of_maintains hconfig.steady h.hosts h.schema
    fun file hfile => (h.artifacts file hfile).imp fun _ htext => by
      obtain ⟨-, -, htext, -⟩ := htext
      exact htext
  obtain ⟨t', hwrite, hosts', hcwd, hlookup⟩ := h.writePlan_run hrenews
  have hpublish := h.publishAll_run hosts' hcwd hlookup
  refine ⟨_, t', generate_run_of_parts (load_run_of_templates hconfig.templates t) h.makes_nothing
    hplan hwrite hpublish, rfl, ?_, rfl, hcwd, hlookup⟩
  rw [reportOf, List.zipWith_map_right, List.zipWith_self, List.forall₂_map_right_iff]
  refine hrenews.imp fun file a hrenews => ⟨hrenews.artifact, by rw [hrenews.path], ?_⟩
  have hcurrent := h.current hrenews
  by_cases heq : a.current = a.merged
  · exact Or.inl (hcurrent.added heq)
  · exact Or.inr ⟨packets, a.current, a.merged, a.inserted, h.schema.loadValid_run h.hosts,
      hrenews.current.1, hcurrent.generated, heq, hcurrent.digests⟩

/-! ### Histories -/

/-- The schema was changed, and nothing else, but that missing directories above it may have been
made. -/
structure Config.Edited (config : Config) (bytes : ByteArray) (t t' : Tree) : Prop where
  /-- Nothing else has changed. -/
  works : Tree.Works [config.schemaPath] t t'
  /-- The schema has the new content. -/
  file : t'.lookup (t.placeOf config.schemaPath) = some (.file bytes)

/-- A schema can be changed by writing it. -/
theorem Config.edited_of_writeWithParents (hosts : t.Hosts config.tracked) (bytes : ByteArray) :
    config.Edited bytes t ((Program.writeWithParents config.schemaPath bytes).run t).2 := by
  obtain ⟨t', hrun, hworks, hfile⟩ :=
    hosts.writeWithParents_run (mem_sidesOf schemaPath_mem_tracked).1 bytes
  rw [hrun]
  exact ⟨hworks, hfile⟩

/-- A change of the schema leaves a tree ready. -/
theorem Config.Edited.ready (h : config.Edited bytes t t') (hosts : t.Hosts config.tracked)
    (haccepts : config.Accepts bytes packets) (hartifacts : ∀ file ∈ config.configured,
      t.lookup (t.placeOf file.2) = none ∨ ∃ text, config.Maintains t file text) :
    config.Ready t' packets := by
  have hplace := h.works.placeOf_eq
  have hsub : [config.schemaPath] ⊆ sidesOf config.tracked :=
    List.cons_subset.mpr ⟨(mem_sidesOf schemaPath_mem_tracked).1, List.nil_subset _⟩
  refine ⟨hosts.of_works h.works hsub, ⟨bytes, by rw [hplace, h.file], haccepts⟩,
    fun file hfile => ?_⟩
  have hkeep : t'.lookup (t.placeOf file.2) = t.lookup (t.placeOf file.2) := by
    refine h.works.lookup_eq hosts hsub (mem_sidesOf (path_mem_tracked hfile)).1 fun hmem => ?_
    refine (nodup_tracked hosts).1 ?_
    rw [← List.mem_singleton.mp hmem]
    exact List.mem_map_of_mem hfile
  rcases hartifacts file hfile with hnone | ⟨text, hfile, hmanaged⟩
  · exact Or.inl (by rw [hplace, hkeep, hnone])
  · exact Or.inr ⟨text, by rw [hplace, hkeep, hfile], hmanaged⟩

/-- The trees in which a run starts in a history of changes and runs, and whether it repeats the
run before. Every change is to a schema that is accepted, and a run follows it. -/
inductive Config.Starts (config : Config) (t₀ : Tree) : Tree → Bool → Prop where
  /-- The first run. -/
  | first {t : Tree} {bytes : ByteArray} {packets : List Packet}
      (hedited : config.Edited bytes t₀ t) (haccepts : config.Accepts bytes packets) :
      config.Starts t₀ t false
  /-- A run after a change. -/
  | changed {t t' : Tree} {repeated : Bool} {bytes : ByteArray} {packets : List Packet}
      (h : config.Starts t₀ t repeated)
      (hedited : config.Edited bytes ((generate config false).run t).2 t')
      (haccepts : config.Accepts bytes packets) : config.Starts t₀ t' false
  /-- A run that is repeated. -/
  | again {t : Tree} {repeated : Bool} (h : config.Starts t₀ t repeated) :
      config.Starts t₀ ((generate config false).run t).2 true

/-- **The invariant of a history**: every run finds a tree that is ready, and one that is repeated
finds a tree that is fresh. -/
theorem Config.Starts.ready {t₀ : Tree} {repeated : Bool} (h : config.Starts t₀ t repeated)
    (hconfig : config.IsPlain) (hosts : t₀.Hosts config.tracked)
    (hnew : ∀ file ∈ config.configured, t₀.exists? file.2 = false) :
    (∃ packets, config.Ready t packets) ∧ (repeated = true → ∃ packets, config.Fresh t packets) := by
  induction h with
  | first hedited haccepts =>
    refine ⟨⟨_, hedited.ready hosts haccepts fun file hfile => Or.inl ?_⟩, by simp⟩
    by_contra hthere
    have hopen := hosts.isOpen _ (mem_sidesOf (path_mem_tracked hfile)).1
    rw [← ne_eq, ← hopen.exists?_iff hosts.wellFormed, hnew file hfile] at hthere
    cases hthere
  | changed _ hedited haccepts ih =>
    obtain ⟨packets, hready⟩ := ih.1
    obtain ⟨report, t', hrun, hfresh⟩ := hready.run hconfig
    rw [hrun] at hedited
    exact ⟨⟨_, hedited.ready hfresh.hosts haccepts hfresh.ready.artifacts⟩, by simp⟩
  | again _ ih =>
    obtain ⟨packets, hready⟩ := ih.1
    obtain ⟨report, t', hrun, hfresh⟩ := hready.run hconfig
    rw [hrun]
    exact ⟨⟨packets, hfresh.ready⟩, fun _ => ⟨packets, hfresh⟩⟩

/-- **All runs of a history succeed**, and a run that is repeated does nothing. -/
theorem generate_quiet {t₀ : Tree} {repeated : Bool} (hconfig : config.IsPlain)
    (hosts : t₀.Hosts config.tracked)
    (hnew : ∀ file ∈ config.configured, t₀.exists? file.2 = false)
    (h : config.Starts t₀ t repeated) :
    ∃ (report : RunReport) (t' : Tree), (generate config false).run t = (.ok report, t') ∧
      (repeated = true → config.Idle t t' report) := by
  obtain ⟨⟨packets, hready⟩, hfresh⟩ := h.ready hconfig hosts hnew
  obtain ⟨report, t', hrun, -⟩ := hready.run hconfig
  refine ⟨report, t', hrun, fun hrepeated => ?_⟩
  obtain ⟨packets', hfresh⟩ := hfresh hrepeated
  obtain ⟨report', t'', hrun', hidle⟩ := hfresh.run hconfig
  rw [hrun] at hrun'
  obtain ⟨hreport, rfl⟩ := Prod.mk.inj hrun'
  rwa [Except.ok.inj hreport]

/-- A request that has neither fields nor a reply. -/
def request (name : String) : Packet :=
  ⟨.request, name, none, none⟩

theorem request_isPlain {name : String} (h : IsName name) : (request name).IsPlain :=
  ⟨h, by simp [request]⟩

/-- A first run and the same one again, with a schema that has one packet. -/
theorem generate_quiet_first :
    let config : Config :=
      { schema := ⟨"s"⟩, targetRoot := ⟨"t"⟩, publishRoot := some ⟨"p"⟩,
        files := ⟨⟨"a"⟩, ⟨"b"⟩, ⟨"c"⟩, ⟨"d"⟩, ⟨"e"⟩, ⟨"f"⟩, none⟩ }
    let bytes := "Packet:\n- Type: RequestPacket\n  PacketName: Ping\n".toUTF8
    let t := ((Program.writeWithParents config.schemaPath bytes).run ⟨[], []⟩).2
    ∃ (report : RunReport) (t' : Tree),
      (generate config false).run ((generate config false).run t).2 = (.ok report, t') ∧
        config.Idle ((generate config false).run t).2 t' report := by
  intro config bytes t
  obtain ⟨hosts, hnew⟩ := Config.short_hosts
  obtain ⟨report, t', hrun, hidle⟩ := generate_quiet Config.short_isPlain hosts hnew
    (.again (.first (Config.edited_of_writeWithParents hosts bytes) Config.short_accepts))
  exact ⟨report, t', hrun, hidle rfl⟩

end Packetry
