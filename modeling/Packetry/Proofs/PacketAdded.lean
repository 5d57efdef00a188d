import Packetry.Proofs.Compared
import Packetry.Proofs.Insertion

/-!
# Two runs, and a packet in between

There is a run in a tree without artifacts. Then a packet is added to the schema, and there is
another run. The first run makes the artifacts from their scaffolds and writes the code of the
packets into them. The second one reads what the first has left, so that each artifact gains what
one more packet adds to its text (`Packetry.Gains`).

That the second run reads what the first has left takes three steps. Replacing the artifacts and
publishing them leaves everything else alone, the schema in particular
(`Packetry.Succeeded.spares_outputs`); so the edited schema is all that is new to the second run.
Every file is there by then, and nothing is made (`Packetry.Succeeded.eq_of_there`). And no copy of
an artifact is left by the first run, so that the second one writes regular files
(`Packetry.Succeeded.copy_left`).

Files are compared by their digests. If a text and what is generated into it have the same digest
and are different, the text is left alone (`Packetry.Config.CollidesOn`). For given packets this can
be excluded, since all texts that the two runs generate can be told from the lines of the scaffolds
(`Packetry.Succeeded.not_collided`).

* `Packetry.Succeeded.grows`: what the second run has made of an artifact.
* `Packetry.generate_inserts`: both runs.
-/

namespace Packetry

open Disk

/-! ### What a run writes -/

/-- The files that a run writes: the artifacts, and what is published. -/
def Config.outputs (config : Config) : List Path :=
  config.configured.map (·.2) ++ config.publishedFiles.map (·.2)

/-- The place of a file that a run writes, of its copy or of its backup. -/
def Config.IsOutput (config : Config) (t : Tree) (q : Place) : Prop :=
  ∃ p ∈ sidesOf config.outputs, q = t.placeOf p

section Outputs

variable {config : Config} {t t₁ t₂ t' : Tree} {s : Scaffolds} {made : List Path} {p : Plan}
  {outcomes published : List Outcome} {file : Artifact × Path} {bytes : ByteArray}
  {packets : List Packet} {artifacts : List PlannedArtifact}

theorem Config.isOutput_of_mem {p : Path} (h : p ∈ config.outputs) :
    config.IsOutput t (t.placeOf p) ∧ config.IsOutput t (t.placeOf (stagingPath p)) ∧
      config.IsOutput t (t.placeOf (backupPath p)) :=
  ⟨⟨p, (mem_sidesOf h).1, rfl⟩, ⟨_, (mem_sidesOf h).2.1, rfl⟩, ⟨_, (mem_sidesOf h).2.2, rfl⟩⟩

theorem Config.path_mem_outputs (h : file ∈ config.configured) : file.2 ∈ config.outputs :=
  List.mem_append_left _ (List.mem_map_of_mem h)

theorem Config.target_mem_outputs {file : Path × Path} (h : file ∈ config.publishedFiles) :
    file.2 ∈ config.outputs :=
  List.mem_append_right _ (List.mem_map_of_mem h)

/-- The schema is at none of these places. -/
theorem Config.Parted.schemaPath_not_isOutput (h : config.Parted t) :
    ¬config.IsOutput t (t.placeOf config.schemaPath) := by
  rintro ⟨p, hp, heq⟩
  have hnodup := (List.nodup_cons.mp h.nodup).1
  refine hnodup (List.mem_cons_of_mem _ (List.mem_cons_of_mem _ ?_))
  rw [heq]
  exact List.mem_map_of_mem hp

/-- Replacing artifacts spares all else. -/
theorem writePlan_spares (hw : t.WellFormed)
    (hnodup : (Transaction.placesOf t (filesOf artifacts)).Nodup)
    (h : (writePlan false artifacts).run t = (.ok outcomes, t')) :
    Tree.Spares (fun q => ∃ p ∈ sidesOf (artifacts.map (·.path)), q = t.placeOf p) t t' := by
  obtain ⟨t₁, hstaged, -, hcommitted⟩ := committed_of_writePlan hw hnodup h
  have hplace := hstaged.spares.placeOf_eq
  have hsides : ∀ file ∈ filesOf artifacts, file.1 ∈ artifacts.map (·.path) := by
    intro file hfile
    obtain ⟨a, ha, rfl⟩ := List.mem_map.mp hfile
    exact List.mem_map_of_mem ha
  refine (hstaged.spares.mono ?_).trans ⟨hcommitted.same.workingDirectory, hcommitted.wellFormed,
    fun q => (hcommitted.same.directory q).mpr, fun q hq => Or.inl (hcommitted.other q ?_)⟩
  · rintro q ⟨file, hfile, rfl⟩
    exact ⟨_, (mem_sidesOf (hsides file hfile)).2.1, rfl⟩
  · intro staged hs htouched
    obtain ⟨file, hfile, rfl⟩ := List.mem_map.mp hs
    obtain ⟨hself, hcopy, hbackup⟩ := mem_sidesOf (hsides file hfile)
    refine hq ?_
    rcases htouched with rfl | ⟨-, rfl | ⟨-, rfl⟩⟩
    · exact ⟨_, hcopy, hplace _⟩
    · exact ⟨_, hself, hplace _⟩
    · exact ⟨_, hbackup, hplace _⟩

/-- Replacing the artifacts and publishing them spares all else. -/
theorem Succeeded.spares_written (h : Succeeded config t t₁ t₂ t' s made p outcomes published)
    (hw : t.WellFormed) (hparted : config.Parted t) :
    Tree.Spares (config.IsOutput t) t₁ t' := by
  obtain ⟨hspares, -⟩ := h.spares hw hparted
  have hpaths : p.artifacts.map (·.path) = config.configured.map (·.2) :=
    map_eq_of_forall₂ h.plans.2 fun _ _ hplan => hplan.eq.2
  have hnodup := hparted.placesOf hpaths
  simp only [Transaction.placesOf, ← hspares.placeOf_eq] at hnodup
  have hwritten := writePlan_spares hspares.wellFormed hnodup h.write
  have hpublished := publishAll_spares config.publishedFiles hwritten.wellFormed
  rw [h.publish] at hpublished
  refine (hwritten.mono ?_).trans (hpublished.mono ?_)
  · rintro q ⟨p, hp, rfl⟩
    rw [hspares.placeOf_eq]
    rw [hpaths] at hp
    exact ⟨p, Tree.sidesOf_subset (List.subset_append_left _ _) hp, rfl⟩
  · rintro q ⟨file, hfile, hq⟩
    obtain ⟨hself, hcopy, -⟩ := Config.isOutput_of_mem (t := t) (Config.target_mem_outputs hfile)
    simp only [hwritten.placeOf_eq, hspares.placeOf_eq] at hq
    rcases hq with rfl | rfl
    · exact hself
    · exact hcopy

/-- **A run leaves all else alone** if the schema was there. -/
theorem Succeeded.spares_outputs (h : Succeeded config t t₁ t₂ t' s made p outcomes published)
    (hw : t.WellFormed) (hparted : config.Parted t)
    (hschema : t.exists? config.schemaPath = true) :
    Tree.Spares (config.IsOutput t) t t₁ ∧ Tree.Spares (config.IsOutput t) t t' := by
  have hbefore : Tree.Spares (config.IsOutput t) t t₁ := by
    refine (h.spares hw hparted).1.mono ?_
    rintro q (⟨p, hp, hmissing, rfl⟩ | ⟨⟨p, hp, rfl⟩, hnone⟩)
    all_goals rcases List.mem_cons.mp hp with rfl | hp
    · rw [hschema] at hmissing
      cases hmissing
    · exact (Config.isOutput_of_mem (List.mem_append_left _ hp)).2.1
    · exact absurd hnone (lookup_of_exists? hw hschema)
    · exact (Config.isOutput_of_mem (List.mem_append_left _ hp)).1
  exact ⟨hbefore, hbefore.trans (h.spares_written hw hparted)⟩

theorem Succeeded.placeOf_eq (h : Succeeded config t t₁ t₂ t' s made p outcomes published)
    (hw : t.WellFormed) (hparted : config.Parted t) (path : Path) :
    t'.placeOf path = t.placeOf path :=
  ((h.spares_written hw hparted).placeOf_eq path).trans ((h.spares hw hparted).1.placeOf_eq path)

/-- The packets of a run are those of the schema. -/
theorem Succeeded.packets_eq (h : Succeeded config t t₁ t₂ t' s made p outcomes published)
    (hw : t.WellFormed) (hparted : config.Parted t)
    (hread : t.read config.schemaPath = .ok bytes) (haccepts : config.Accepts bytes packets) :
    p.packets = packets := by
  have hbefore := (h.spares_outputs hw hparted (Tree.exists?_of_read_ok hread)).1
  have hload := haccepts.loadValid_run
    (hbefore.read_after hw hparted.schemaPath_not_isOutput hread)
  rw [h.plans.1] at hload
  exact Except.ok.inj (Prod.mk.inj hload).1

/-- The schema is left as it was. -/
theorem Succeeded.read_schema (h : Succeeded config t t₁ t₂ t' s made p outcomes published)
    (hw : t.WellFormed) (hparted : config.Parted t)
    (hread : t.read config.schemaPath = .ok bytes) :
    t'.WellFormed ∧ t'.read config.schemaPath = .ok bytes := by
  have hspares := (h.spares_outputs hw hparted (Tree.exists?_of_read_ok hread)).2
  exact ⟨hspares.wellFormed, hspares.read_after hw hparted.schemaPath_not_isOutput hread⟩

end Outputs

/-! ### The text of an artifact -/

/-- What is generated into a text is another text with the same digest. -/
def Config.CollidesOn (config : Config) (packets : List Packet) (a : Artifact) (text : String) :
    Prop :=
  ∃ merged n, mergedText config packets a text = .ok (merged, n) ∧ text ≠ merged ∧
    digest text.toUTF8 = digest merged.toUTF8

section Written

variable {config : Config} {t t₁ t₂ t' : Tree} {s : Scaffolds} {made : List Path} {p : Plan}
  {outcomes published : List Outcome} {file : Artifact × Path} {a : PlannedArtifact}
  {packets : List Packet}

/-- There is one plan for an artifact. -/
theorem Succeeded.mem_artifacts (h : Succeeded config t t₁ t₂ t' s made p outcomes published)
    (hfile : file ∈ config.configured) (hplan : Plans s p.packets t₁ file a) :
    a ∈ p.artifacts := by
  obtain ⟨b, hb, hplan'⟩ := (forall₂_mem h.plans.2).1 file hfile
  rwa [hplan.unique hplan'] at hb

/-- **What a run leaves of an artifact**: what was generated into the text that it has read, unless
there is a collision of digests or the copy was a device. -/
theorem Succeeded.left (h : Succeeded config t t₁ t₂ t' s made p outcomes published)
    (hw : t.WellFormed) (hparted : config.Parted t) (hfile : file ∈ config.configured)
    (hplan : Plans s p.packets t₁ file a) :
    config.CollidesOn p.packets file.1 a.current ∨ t'.read file.2 = .ok a.merged.toUTF8 ∨
      t₁.lookup (t.placeOf (stagingPath file.2)) = some .device ∧ t'.read file.2 = .ok .empty := by
  have hread := h.read_planned hw hparted hfile hplan
  obtain ⟨hkept, hwritten⟩ :=
    h.read_left hw hparted hfile (h.mem_artifacts hfile hplan) hplan hread
  obtain rfl := config_of_load h.load
  by_cases hdigest : digest a.current.toUTF8 = digest a.merged.toUTF8
  · by_cases heq : a.current = a.merged
    · exact Or.inr (Or.inl (heq ▸ hkept hdigest))
    · exact Or.inl ⟨a.merged, a.inserted, hplan.cases.1, heq, hdigest⟩
  · exact Or.inr (hwritten hdigest)

/-- A run leaves no device at the copy of an artifact. -/
theorem Succeeded.copy_left (h : Succeeded config t t₁ t₂ t' s made p outcomes published)
    (hw : t.WellFormed) (hparted : config.Parted t) (hfile : file ∈ config.configured) :
    t'.lookup (t.placeOf (stagingPath file.2)) ≠ some .device := by
  have hspares := (h.spares hw hparted).1
  obtain ⟨a, ha, hplan⟩ := (forall₂_mem h.plans.2).1 file hfile
  obtain ⟨-, hw₂, hcwd, hall⟩ := hparted.rewritten hw h
  have hgone := (hall a ha).gone
  rw [hplan.eq.2, hspares.placeOf_eq] at hgone
  have hpublished := publishAll_spares config.publishedFiles hw₂
  rw [h.publish] at hpublished
  -- Publishing works on other files and beside them, and never at this copy.
  have hnot : ¬IsPublished t₂ config.publishedFiles (t.placeOf (stagingPath file.2)) := by
    rintro ⟨other, hother, hq⟩
    have htracked := Config.target_mem_tracked hother
    have hmem := Config.path_mem_tracked hfile
    simp only [Tree.placeOf_congr hcwd] at hq
    rcases hq with hq | hq
    · exact (Tree.ne_sides_of_nodup hparted.nodup htracked hmem).1 hq.symm
    · obtain ⟨heq, -⟩ := Tree.eq_of_placeOf hparted.nodup hmem htracked (by simp [sidesOf])
        (by simp [sidesOf]) hq
      refine hparted.not_isPublished (Config.path_mem_paths hfile) ⟨other, hother, Or.inl ?_⟩
      rw [heq]
  rcases hpublished.lookup _ hnot with heq | ⟨-, hdir⟩
  · rw [heq, hgone]
    simp
  · rw [hdir]
    simp

end Written

/-! ### The first run -/

section First

variable {config : Config} {t t₁ t₂ t' : Tree} {s : Scaffolds} {made : List Path} {p : Plan}
  {outcomes published : List Outcome} {file : Artifact × Path}

/-- **What the first run leaves of an artifact**: all blocks in the region of its scaffold. -/
theorem Succeeded.first (h : Succeeded config t t₁ t₂ t' s made p outcomes published)
    (hw : t.WellFormed) (hparted : config.Parted t) (hconfig : config.IsSteady)
    (hnames : (p.packets.map (·.name)).Nodup) (hfile : file ∈ config.configured)
    (hmissing : t.exists? file.2 = false) {F : Frame}
    (hscaffold : (⟨config, []⟩ : Scaffolds).ofArtifact file.1 =
      .ok (F.file (config.region file.1) file.1.firstLines)) :
    config.CollidesOn p.packets file.1 (F.file (config.region file.1) file.1.firstLines) ∨
      t'.read file.2 = .ok (F.file (config.region file.1)
        (file.1.firstLines ++ codeOf config.sessionClass p.packets p.packets file.1)).toUTF8 ∨
      t'.read file.2 = .ok .empty := by
  obtain ⟨a, -, hplan⟩ := (forall₂_mem h.plans.2).1 file hfile
  have hread := h.read_planned hw hparted hfile hplan
  have hmerged := hplan.cases.1
  obtain ⟨text, htext, hbytes⟩ := h.scaffold_of_missing hw hparted hfile hmissing hread
  obtain rfl : a.current = text :=
    String.toByteArray_inj.mp (hbytes.resolve_right hplan.current_ne_empty)
  obtain rfl : s = ⟨config, []⟩ := by
    have hload := h.load.symm.trans (load_run_of_templates hconfig.templates t)
    exact Except.ok.inj (Prod.mk.inj hload).1
  have hcurrent : a.current = F.file (config.region file.1) file.1.firstLines :=
    Except.ok.inj (htext.symm.trans hscaffold)
  rcases h.left hw hparted hfile hplan with hcollides | hnow | ⟨-, hempty⟩
  · exact Or.inl (hcurrent ▸ hcollides)
  · refine Or.inr (Or.inl ?_)
    rw [hcurrent, mergedText_first F hconfig hnames file.1.firstLines_isPlainLine
      firstLines_eq_nil] at hmerged
    rwa [← (Prod.mk.inj (Except.ok.inj hmerged)).1] at hnow
  · exact Or.inr (Or.inr hempty)

end First

/-! ### The schema is edited -/

section Edited

variable {config : Config} {t t' u u₁ u₂ u' : Tree} {s : Scaffolds} {made : List Path} {p : Plan}
  {outcomes published : List Outcome} {file : Artifact × Path} {old bytes : ByteArray}

/-- Editing a schema spares all else. -/
theorem Config.Edited.spares (h : config.Edited bytes t u) (hw : t.WellFormed)
    (hread : t.read config.schemaPath = .ok old) :
    Tree.Spares (· = t.placeOf config.schemaPath) t u := by
  have hfile : t.lookup (t.placeOf config.schemaPath) ≠ some .directory :=
    (Tree.bytesOf_ne_none.mp (by rw [(hw.read_ok_iff.mp hread).2]; simp)).2
  refine ⟨h.works.workingDirectory, h.works.wellFormed, fun q hdir => ?_, fun q hq => ?_⟩
  all_goals rcases h.works.lookup q with heq | ⟨-, hnone, hnow⟩ | ⟨⟨path, hpath, rfl⟩, -⟩
  · rw [heq, hdir]
  · exact hnow
  · obtain rfl := List.mem_singleton.mp hpath
    exact absurd hdir hfile
  · exact Or.inl heq
  · exact Or.inr ⟨hnone, hnow⟩
  · obtain rfl := List.mem_singleton.mp hpath
    exact absurd rfl hq

/-- The edited schema is read. -/
theorem Config.Edited.read_schema (h : config.Edited bytes t u) (hw : t.WellFormed)
    (hread : t.read config.schemaPath = .ok old) : u.read config.schemaPath = .ok bytes := by
  have hspares := h.spares hw hread
  rw [hspares.wellFormed.read_ok_iff, hspares.placeOf_eq, h.file]
  exact ⟨hspares.reaches (hw.read_ok_iff.mp hread).1, rfl⟩

/-- No device has come to be anywhere. -/
theorem Config.Edited.ne_device (h : config.Edited bytes t u) {q : Place}
    (hq : t.lookup q ≠ some .device) : u.lookup q ≠ some .device := by
  rcases h.works.lookup q with heq | ⟨-, -, hdir⟩ | ⟨-, hfree⟩
  · rwa [heq]
  · rw [hdir]
    simp
  · exact hfree.ne_device

/-- If all files are there, then none is made. -/
theorem Succeeded.eq_of_there (h : Succeeded config u u₁ u₂ u' s made p outcomes published)
    (hthere : ∀ p ∈ config.paths, u.exists? p = true) : u₁ = u := by
  obtain rfl := config_of_load h.load
  have hensure : (Packetry.ensure s).run u = (.ok [], u) :=
    makeMissing_run_of_exists? _ fun file hfile =>
      hthere _ (map_files s ▸ List.mem_map_of_mem hfile)
  exact (Prod.mk.inj (h.ensure.symm.trans hensure)).2

/-- What a run has left of an artifact is read when the schema has been edited. -/
theorem Config.Edited.exists_read (hedited : config.Edited bytes t' u)
    (h : Succeeded config t t₁ t₂ t' s made p outcomes published) (hw : t.WellFormed)
    (hparted : config.Parted t) (hread : t.read config.schemaPath = .ok old)
    (hfile : file ∈ config.configured) :
    ∃ text, t'.read file.2 = .ok text ∧ u.read file.2 = .ok text := by
  obtain ⟨hw', hschema⟩ := h.read_schema hw hparted hread
  obtain ⟨a, ha, hplan⟩ := (forall₂_mem h.plans.2).1 file hfile
  obtain ⟨-, text, -, htext, -⟩ := h.exists_left hw hparted hfile ha hplan
  refine ⟨text, htext, (hedited.spares hw' hschema).read_after hw' ?_ htext⟩
  rw [h.placeOf_eq hw hparted, h.placeOf_eq hw hparted]
  exact fun heq => hparted.schemaPath_not_isOutput
    (heq ▸ (isOutput_of_mem (path_mem_outputs hfile)).1)

/-- **When the schema has been edited after a run**, all files are there, and they are at different
places still. -/
theorem Config.Edited.ready_again (hedited : config.Edited bytes t' u)
    (h : Succeeded config t t₁ t₂ t' s made p outcomes published) (hw : t.WellFormed)
    (hparted : config.Parted t) (hread : t.read config.schemaPath = .ok old) :
    (∀ p ∈ config.paths, u.exists? p = true) ∧ config.Parted u := by
  obtain ⟨hw', hschema⟩ := h.read_schema hw hparted hread
  have hplace : u.placeOf = t.placeOf := funext fun path =>
    (hedited.works.placeOf_eq path).trans (h.placeOf_eq hw hparted path)
  have hthere : ∀ p ∈ config.paths, u.exists? p = true := by
    intro path hpath
    rcases List.mem_cons.mp hpath with rfl | hpath
    · exact Tree.exists?_of_read_ok (hedited.read_schema hw' hschema)
    · obtain ⟨file, hfile, rfl⟩ := List.mem_map.mp hpath
      obtain ⟨text, -, htext⟩ := hedited.exists_read h hw hparted hread hfile
      exact Tree.exists?_of_read_ok htext
  refine ⟨hthere, fun p hp hmissing => ?_, ?_⟩
  · rw [hthere p hp] at hmissing
    cases hmissing
  · rw [hplace]
    exact hparted.nodup

end Edited

/-! ### The second run -/

/-- What a run has made of an artifact when a packet was added to the schema: its text has gained
the block of the packet, and the run says so. -/
structure Config.Grows (config : Config) (s₁ : List Packet) (p : Packet) (s₂ : List Packet)
    (t t' : Tree) (file : Artifact × Path) (o : ArtifactOutcome) : Prop where
  /-- It is the artifact. -/
  artifact : o.artifact = file.1
  /-- Its text has gained the block. -/
  text : ∃ old new, t.read file.2 = .ok old.toUTF8 ∧ t'.read file.2 = .ok new.toUTF8 ∧
    Gains config s₁ p s₂ file.1 old new o.inserted ∧
    o.outcome = if old = new then .unchanged file.2 else .written file.2

/-- The digests of two texts collide, of which one was generated into the other by a first run, in
which an artifact was made from its scaffold, or by a second run with one more packet. -/
def Config.Collided (config : Config) (s₁ : List Packet) (p : Packet) (s₂ : List Packet) (t : Tree)
    (file : Artifact × Path) : Prop :=
  (∃ text, (⟨config, []⟩ : Scaffolds).ofArtifact file.1 = .ok text ∧
    config.CollidesOn (s₁ ++ s₂) file.1 text) ∨
  ∃ old, t.read file.2 = .ok old.toUTF8 ∧ config.CollidesOn (s₁ ++ p :: s₂) file.1 old

section Second

variable {config : Config} {t t₁ t₂ t' u u₁ u₂ u' : Tree} {s s' : Scaffolds}
  {made made' : List Path} {plan plan' : Plan}
  {outcomes published outcomes' published' : List Outcome} {file : Artifact × Path}
  {s₁ s₂ : List Packet} {p : Packet} {bytes bytes' : ByteArray} {a : PlannedArtifact}

/-- What a run says of an artifact without a collision. -/
theorem Plans.refreshOutcome_eq {packets : List Packet} (h : Plans s packets t file a)
    (hw : t.WellFormed) (hread : t.read file.2 = .ok a.current.toUTF8)
    (hcollides : ¬s.config.CollidesOn packets file.1 a.current) : t.refreshOutcome a =
      if a.current = a.merged then .unchanged file.2 else .written file.2 := by
  have hmatches : t.Matches file.2 a.merged.toUTF8 ↔ a.current = a.merged := by
    rw [Tree.matches_iff hw hread]
    refine ⟨fun hdigest => ?_, fun heq => heq ▸ rfl⟩
    by_contra hdiffers
    exact hcollides ⟨a.merged, a.inserted, h.cases.1, hdiffers, hdigest⟩
  unfold Tree.refreshOutcome
  rw [h.eq.2]
  simp only [hmatches]

/-- **A run adds a packet to an artifact** that has the code of the others. -/
theorem Succeeded.gains (h : Succeeded config t t₁ t₂ t' s made plan outcomes published)
    (hw : t.WellFormed) (hparted : config.Parted t) (hconfig : config.IsSteady)
    (haccepts : config.Accepts bytes (s₁ ++ p :: s₂)) (hpackets : plan.packets = s₁ ++ p :: s₂)
    (hfile : file ∈ config.configured) (hplan : Plans s plan.packets t₁ file a) {F : Frame}
    (hold : a.current = F.file (config.region file.1)
      (file.1.firstLines ++ codeOf config.sessionClass (s₁ ++ s₂) (s₁ ++ s₂) file.1))
    (hdevice : t₁.lookup (t.placeOf (stagingPath file.2)) ≠ some .device)
    (hcollides : ¬config.CollidesOn plan.packets file.1 a.current) :
    t'.read file.2 = .ok a.merged.toUTF8 ∧
      Gains config s₁ p s₂ file.1 a.current a.merged a.inserted ∧
      t₁.refreshOutcome a =
        if a.current = a.merged then .unchanged file.2 else .written file.2 := by
  have hleft := ((h.left hw hparted hfile hplan).resolve_left hcollides).resolve_right
    fun hlost => hdevice hlost.1
  have hread := h.read_planned hw hparted hfile hplan
  have hw₁ := (h.spares hw hparted).1.wellFormed
  obtain ⟨inserted, hnew, hgains⟩ := mergedText_second F hconfig
    (nodup_names_of_isValid haccepts.valid) haccepts.plain hold rfl
  obtain rfl := config_of_load h.load
  have hmerged := hplan.cases.1
  rw [hpackets, hnew] at hmerged
  obtain ⟨hnow, rfl⟩ := Prod.mk.inj (Except.ok.inj hmerged)
  rw [hnow] at hgains
  exact ⟨hleft, hgains, hplan.refreshOutcome_eq hw₁ hread hcollides⟩

/-- **What the second run has made of an artifact.** -/
theorem Succeeded.grows (hfirst : Succeeded config t t₁ t₂ t' s made plan outcomes published)
    (hsecond : Succeeded config u u₁ u₂ u' s' made' plan' outcomes' published')
    (hw : t.WellFormed) (hparted : config.Parted t) (hconfig : config.IsSteady)
    (hread : t.read config.schemaPath = .ok bytes) (haccepts : config.Accepts bytes (s₁ ++ s₂))
    (hedited : config.Edited bytes' t' u) (haccepts' : config.Accepts bytes' (s₁ ++ p :: s₂))
    (hfile : file ∈ config.configured) (hmissing : t.exists? file.2 = false)
    (hplan : Plans s' plan'.packets u₁ file a) :
    config.Collided s₁ p s₂ t' file ∨
      config.Grows s₁ p s₂ t' u' file ⟨a.artifact, u₁.refreshOutcome a, a.inserted⟩ := by
  have hpackets := hfirst.packets_eq hw hparted hread haccepts
  obtain ⟨hw', hschema⟩ := hfirst.read_schema hw hparted hread
  obtain ⟨hthere, hparted'⟩ := hedited.ready_again hfirst hw hparted hread
  have hw₁ := hedited.works.wellFormed
  have hpackets' :=
    hsecond.packets_eq hw₁ hparted' (hedited.read_schema hw' hschema) haccepts'
  obtain rfl := hsecond.eq_of_there hthere
  -- The second run has read what the first has left.
  have hbefore : t'.read file.2 = .ok a.current.toUTF8 := by
    obtain ⟨text, htext, hafter⟩ := hedited.exists_read hfirst hw hparted hread hfile
    rw [hsecond.read_planned hw₁ hparted' hfile hplan] at hafter
    rw [htext, Except.ok.inj hafter]
  have hdevice : u₁.lookup (u₁.placeOf (stagingPath file.2)) ≠ some .device := by
    rw [hedited.works.placeOf_eq, hfirst.placeOf_eq hw hparted]
    exact hedited.ne_device (hfirst.copy_left hw hparted hfile)
  by_cases hcollides : config.CollidesOn plan'.packets file.1 a.current
  · exact Or.inl (Or.inr ⟨a.current, hbefore, hpackets' ▸ hcollides⟩)
  obtain ⟨F, hscaffold, -⟩ := scaffold_frame hconfig.oneLine file.1
  rcases hfirst.first hw hparted hconfig (hpackets ▸ nodup_names_of_isValid haccepts.valid) hfile
    hmissing hscaffold with hstart | htext | hempty
  · exact Or.inl (Or.inl ⟨_, hscaffold, hpackets ▸ hstart⟩)
  · rw [hpackets, hbefore] at htext
    have hold := String.toByteArray_inj.mp (Except.ok.inj htext)
    obtain ⟨hleft, hgains, houtcome⟩ := hsecond.gains hw₁ hparted' hconfig haccepts' hpackets'
      hfile hplan hold hdevice hcollides
    exact Or.inr ⟨hplan.eq.1, a.current, a.merged, hbefore, hleft, hgains, houtcome⟩
  · rw [hempty] at hbefore
    exact absurd (Except.ok.inj hbefore).symm hplan.current_ne_empty

/-- If there is room for all files and there are no artifacts, then both runs succeed. -/
theorem exists_runs (hosts : t.Hosts config.tracked) (hconfig : config.IsSteady)
    (hnew : ∀ file ∈ config.configured, t.lookup (t.placeOf file.2) = none)
    (hread : t.read config.schemaPath = .ok bytes) {packets packets' : List Packet}
    (haccepts : config.Accepts bytes packets)
    (hedited : config.Edited bytes' ((generate config false).run t).2 u)
    (haccepts' : config.Accepts bytes' packets') :
    ∃ (report report' : RunReport) (t' u' : Tree),
      (generate config false).run t = (.ok report, t') ∧
      (generate config false).run u = (.ok report', u') := by
  obtain ⟨old, hold⟩ : ∃ old, t.lookup (t.placeOf config.schemaPath) = some (.file old) :=
    (hosts.free _ (mem_sidesOf Config.schemaPath_mem_tracked).1).eq_file
      (lookup_of_exists? hosts.wellFormed (Tree.exists?_of_read_ok hread))
  have hschema : old = bytes := by
    have hread' := hosts.read_eq (mem_sidesOf Config.schemaPath_mem_tracked).1 hold
    exact Except.ok.inj (hread'.symm.trans hread)
  have hready : config.Ready t packets :=
    ⟨hosts, ⟨old, hold, hschema ▸ haccepts⟩, fun file hfile => Or.inl (hnew file hfile)⟩
  obtain ⟨report, t', hrun, hfresh⟩ := hready.succeeds hconfig
  rw [hrun] at hedited
  obtain ⟨report', u', hrun', -⟩ :=
    (hedited.ready hfresh.hosts haccepts' hfresh.ready.artifacts).succeeds hconfig
  exact ⟨report, report', t', u', hrun, hrun'⟩

/-- **Before the first run** nothing is missing but artifacts, and nothing is at their places. -/
theorem Config.parted_of_new (hnodup : ((sidesOf config.tracked).map t.placeOf).Nodup)
    (hnew : ∀ file ∈ config.configured, t.lookup (t.placeOf file.2) = none)
    (hread : t.read config.schemaPath = .ok bytes) : config.Parted t := by
  refine ⟨fun path hpath hmissing _ => ?_, hnodup⟩
  rcases List.mem_cons.mp hpath with rfl | hpath
  · rw [Tree.exists?_of_read_ok hread] at hmissing
    cases hmissing
  · obtain ⟨file, hfile, rfl⟩ := List.mem_map.mp hpath
    exact hnew file hfile

/-- An artifact at whose place there is nothing is missing. -/
theorem exists?_of_new (hw : t.WellFormed)
    (hnew : ∀ file ∈ config.configured, t.lookup (t.placeOf file.2) = none)
    (hfile : file ∈ config.configured) : t.exists? file.2 = false := by
  rw [← Bool.not_eq_true]
  exact fun hthere => lookup_of_exists? hw hthere (hnew file hfile)

end Second

/-! ### Texts with digests of their own -/

/-- The lines that a file starts from, with code in the region. -/
def Config.linesWith (config : Config) (a : Artifact) (code : List String) : List String :=
  (config.scaffoldLines a).takeWhile (· ≠ (config.region a).endMarker) ++
    (code ++ (config.scaffoldLines a).dropWhile (· ≠ (config.region a).endMarker))

section Digests

variable {config : Config} {t t₁ t₂ t' : Tree} {s : Scaffolds} {made : List Path} {plan : Plan}
  {outcomes published : List Outcome} {file : Artifact × Path} {packets s₁ s₂ : List Packet}
  {p : Packet} {bytes bytes' : ByteArray} {a : Artifact}

theorem not_collidesOn {text merged : String} {n : Nat}
    (h : mergedText config packets a text = .ok (merged, n))
    (hdigest : digest text.toUTF8 ≠ digest merged.toUTF8) :
    ¬config.CollidesOn packets a text := by
  rintro ⟨merged', n', hmerged, -, heq⟩
  rw [h] at hmerged
  rw [← (Prod.mk.inj (Except.ok.inj hmerged)).1] at heq
  exact hdigest heq

/-- **There is no collision** if what a file starts from, the text with the first packets and the
text with one more have digests of their own. -/
theorem Succeeded.not_collided (h : Succeeded config t t₁ t₂ t' s made plan outcomes published)
    (hw : t.WellFormed) (hparted : config.Parted t) (hconfig : config.IsSteady)
    (hread : t.read config.schemaPath = .ok bytes) (haccepts : config.Accepts bytes (s₁ ++ s₂))
    (haccepts' : config.Accepts bytes' (s₁ ++ p :: s₂)) (hfile : file ∈ config.configured)
    (hmissing : t.exists? file.2 = false)
    (hfirst : digitsOf (config.scaffoldLines file.1) ≠ digitsOf (config.linesWith file.1
      (codeOf config.sessionClass (s₁ ++ s₂) (s₁ ++ s₂) file.1)))
    (hsecond : digitsOf (config.linesWith file.1
        (codeOf config.sessionClass (s₁ ++ s₂) (s₁ ++ s₂) file.1)) ≠
      digitsOf (config.linesWith file.1 (codeWith config.sessionClass s₁ p s₂ file.1))) :
    ¬config.Collided s₁ p s₂ t' file := by
  have hnames := nodup_names_of_isValid haccepts.valid
  have hpackets := h.packets_eq hw hparted hread haccepts
  obtain ⟨F, hscaffold, hlines⟩ := scaffold_frame hconfig.oneLine file.1
  have hscaffoldLines : F.file (config.region file.1) file.1.firstLines =
      unlines (config.scaffoldLines file.1) := by
    rw [hlines, F.file_eq_unlines]
  have hlinesWith : ∀ code, F.file (config.region file.1) (file.1.firstLines ++ code) =
      unlines (config.linesWith file.1 code) := by
    intro code
    rw [F.file_eq_unlines, Config.linesWith, hlines,
      F.lines_append (hconfig.isNamed file.1) file.1.firstLines_isPlainLine code]
  have hstart : ¬config.CollidesOn (s₁ ++ s₂) file.1
      (F.file (config.region file.1) file.1.firstLines) := by
    refine not_collidesOn (mergedText_first F hconfig hnames file.1.firstLines_isPlainLine
      firstLines_eq_nil) ?_
    rwa [hscaffoldLines, hlinesWith, ne_eq, digest_unlines_eq_iff]
  have hnext : ¬config.CollidesOn (s₁ ++ p :: s₂) file.1 (F.file (config.region file.1)
      (file.1.firstLines ++ codeOf config.sessionClass (s₁ ++ s₂) (s₁ ++ s₂) file.1)) := by
    obtain ⟨n, hmerged, -⟩ := mergedText_second F hconfig
      (nodup_names_of_isValid haccepts'.valid) haccepts'.plain rfl rfl
    refine not_collidesOn hmerged ?_
    rwa [hlinesWith, hlinesWith, ne_eq, digest_unlines_eq_iff]
  rintro (⟨text, htext, hcollides⟩ | ⟨old, hold, hcollides⟩)
  · rw [hscaffold] at htext
    exact hstart (Except.ok.inj htext ▸ hcollides)
  · rcases h.first hw hparted hconfig (hpackets ▸ hnames) hfile hmissing hscaffold with
      hcollides' | hleft | hempty
    · exact hstart (hpackets ▸ hcollides')
    · rw [hpackets, hold] at hleft
      exact hnext (String.toByteArray_inj.mp (Except.ok.inj hleft) ▸ hcollides)
    -- Nothing can be generated into an empty text.
    · obtain ⟨merged, n, hmerged, -⟩ := hcollides
      rw [hold] at hempty
      rw [String.toByteArray_inj.mp (Except.ok.inj hempty : old.toUTF8 = "".toUTF8),
        mergedText_empty] at hmerged
      cases hmerged

end Digests

/-! ### Both runs -/

/-- **Adding a packet adds exactly its code.** The files of the run, their copies and their backups
are at different places, and there are no artifacts. There is a run with the packets `s₁ ++ s₂`,
then the schema is edited and nothing else, and there is a run with one more packet in between. If
there is room for all files, then both runs succeed. If they succeed, then the second one has made
each artifact gain the block of the packet, unless digests collide, and nothing but the artifacts
and what is published has been touched. -/
theorem generate_inserts {config : Config} {t u : Tree} {s₁ s₂ : List Packet} {p : Packet}
    {bytes bytes' : ByteArray} (hconfig : config.IsSteady) (hw : t.WellFormed)
    (hnodup : ((sidesOf config.tracked).map t.placeOf).Nodup)
    (hnew : ∀ file ∈ config.configured, t.lookup (t.placeOf file.2) = none)
    (hread : t.read config.schemaPath = .ok bytes) (haccepts : config.Accepts bytes (s₁ ++ s₂))
    (hedited : config.Edited bytes' ((generate config false).run t).2 u)
    (haccepts' : config.Accepts bytes' (s₁ ++ p :: s₂)) :
    (t.Hosts config.tracked → ∃ (report report' : RunReport) (t' u' : Tree),
      (generate config false).run t = (.ok report, t') ∧
      (generate config false).run u = (.ok report', u')) ∧
    ∀ (report report' : RunReport) (t' u' : Tree),
      (generate config false).run t = (.ok report, t') →
      (generate config false).run u = (.ok report', u') →
      List.Forall₂ (fun file o => config.Collided s₁ p s₂ t' file ∨
        config.Grows s₁ p s₂ t' u' file o) config.configured report'.artifacts ∧
      Tree.Spares (config.IsOutput u) u u' := by
  refine ⟨fun hosts => exists_runs hosts hconfig hnew hread haccepts hedited haccepts',
    fun report report' t' u' hrun hrun' => ?_⟩
  rw [hrun] at hedited
  have hparted := Config.parted_of_new hnodup hnew hread
  obtain ⟨t₁, t₂, s, made, plan, outcomes, published, hfirst, -⟩ := exists_parts hrun
  obtain ⟨u₁, u₂, s', made', plan', outcomes', published', hsecond, rfl⟩ := exists_parts hrun'
  obtain ⟨hthere, hparted'⟩ := hedited.ready_again hfirst hw hparted hread
  have hw₁ := hedited.works.wellFormed
  refine ⟨?_, (hsecond.spares_outputs hw₁ hparted' (hthere _ List.mem_cons_self)).2⟩
  have houtcomes := (hparted'.rewritten hw₁ hsecond).1
  rw [reportOf, houtcomes, List.zipWith_map_right, List.zipWith_self, List.forall₂_map_right_iff]
  refine ((List.forall₂_and_left _ _).mpr ⟨fun _ => id, hsecond.plans.2⟩).imp fun file a h => ?_
  exact hfirst.grows hsecond hw hparted hconfig hread haccepts hedited haccepts' h.1
    (exists?_of_new hw hnew h.1) h.2

/-- The lines of a request in the artifacts of a session class `Player`. -/
def requestLines (name constant : String) : Artifact → List String
  | .packetId => ["\t, " ++ constant]
  | .protocolHeader =>
    ["class " ++ name ++ " : public IPacket", "\x7b", "public:", "\t" ++ name ++ "() = default;",
      "\tvirtual ~" ++ name ++ "() override = default;", "", "public:",
      "\tvirtual PacketId GetPacketId() const override;", "\x7d;", ""]
  | .protocolSource =>
    ["PacketId " ++ name ++ "::GetPacketId() const", "\x7b",
      "\treturn static_cast<PacketId>(PACKET_ID::" ++ constant ++ ");", "\x7d"]
  | .packetRegister => ["\t\tPacketHandlerUtil::RegisterPacket<" ++ name ++ ">();"]
  | .sessionHeader => ["\tvoid On" ++ name ++ "(const " ++ name ++ "& packet);"]
  | .sessionSource =>
    ["void Player::On" ++ name ++ "(const " ++ name ++ "& packet)", "\x7b", "\x7d", ""]
  | .sessionRegister =>
    ["\tRegisterPacketHandler<Player, " ++ name ++ ">(static_cast<PacketId>(PACKET_ID::" ++
      constant ++ "), &Player::On" ++ name ++ ");"]

/-- A text has got the lines of the request `Pang`, between those of `Ping` and `Tick` or behind
both. -/
def Region.InsertsPang (r : Region) (a : Artifact) (old new : String) : Prop :=
  match a.discipline with
  | .replace => r.Inserts (a.firstLines ++ requestLines "Ping" "PING" a)
      (requestLines "Pang" "PANG" a) (requestLines "Tick" "TICK" a) old new
  | .additive => r.Inserts (requestLines "Ping" "PING" a ++ requestLines "Tick" "TICK" a)
      (requestLines "Pang" "PANG" a) [] old new

theorem Region.InsertsPang.ne {r : Region} {a : Artifact} {old new : String}
    (h : r.InsertsPang a old new) : old ≠ new := by
  have hblock : requestLines "Pang" "PANG" a ≠ [] := by cases a <;> exact List.cons_ne_nil _ _
  unfold InsertsPang at h
  split at h
  · exact h.ne hblock
  · exact h.ne hblock

/-- What an artifact gains by a request between two others, line by line. -/
theorem Gains.insertsPang {a : Artifact} {old new : String} {inserted : Nat}
    (h : Gains Config.short [request "Ping"] (request "Pang") [request "Tick"] a old new
      inserted) : (Config.short.region a).InsertsPang a old new ∧
      inserted = if a.discipline = .additive then 1 else 0 := by
  have hping : codeOf "Player" [request "Ping", request "Tick"] [request "Ping"] a =
      requestLines "Ping" "PING" a := by
    cases a <;> decide
  have hpang : (request "Pang").block "Player"
      (replyTo? [request "Ping", request "Pang", request "Tick"] (request "Pang")) a =
        requestLines "Pang" "PANG" a := by
    cases a <;> decide
  have htick : codeOf "Player" [request "Ping", request "Tick"] [request "Tick"] a =
      requestLines "Tick" "TICK" a := by
    cases a <;> decide
  unfold Region.InsertsPang
  cases ha : a.discipline with
  | replace =>
    obtain ⟨hinserted, hinserts⟩ := h.replace ha
    rw [← hping, ← hpang, ← htick]
    exact ⟨hinserts, hinserted⟩
  | additive =>
    obtain ⟨hinserted, hinserts⟩ := h.additive ha
    rw [← hping, ← hpang, ← htick, codeOf, codeOf, ← List.flatMap_append]
    exact ⟨hinserts, hinserted⟩

theorem Config.Grows.insertsPang {t t' : Tree} {file : Artifact × Path} {o : ArtifactOutcome}
    (h : Config.short.Grows [request "Ping"] (request "Pang") [request "Tick"] t t' file o) :
    o = ⟨file.1, .written file.2, if file.1.discipline = .additive then 1 else 0⟩ ∧
    ∃ old new : String, t.read file.2 = .ok old.toUTF8 ∧ t'.read file.2 = .ok new.toUTF8 ∧
      (Config.short.region file.1).InsertsPang file.1 old new := by
  obtain ⟨old, new, hold, hnew, hgains, houtcome⟩ := h.text
  obtain ⟨hinserts, hinserted⟩ := hgains.insertsPang
  rw [if_neg hinserts.ne] at houtcome
  refine ⟨?_, old, new, hold, hnew, hinserts⟩
  rw [← hinserted, ← houtcome, ← h.artifact]

/-- What the two runs generate has digests of its own. -/
theorem digits_short (a : Artifact) :
    digitsOf (Config.short.scaffoldLines a) ≠ digitsOf (Config.short.linesWith a
      (codeOf "Player" [request "Ping", request "Tick"] [request "Ping", request "Tick"] a)) ∧
    digitsOf (Config.short.linesWith a
      (codeOf "Player" [request "Ping", request "Tick"] [request "Ping", request "Tick"] a)) ≠
      digitsOf (Config.short.linesWith a
        (codeWith "Player" [request "Ping"] (request "Pang") [request "Tick"] a)) := by
  cases a <;> decide +kernel

/-- A packet is added between two others. -/
theorem generate_inserts_between :
    let bytes := ("Packet:\n- Type: RequestPacket\n  PacketName: Ping\n" ++
      "- Type: RequestPacket\n  PacketName: Tick\n").toUTF8
    let bytes' := ("Packet:\n- Type: RequestPacket\n  PacketName: Ping\n" ++
      "- Type: RequestPacket\n  PacketName: Pang\n" ++
      "- Type: RequestPacket\n  PacketName: Tick\n").toUTF8
    let t := ((Program.writeWithParents Config.short.schemaPath bytes).run ⟨[], []⟩).2
    let t' := ((generate Config.short false).run t).2
    let u := ((Program.writeWithParents Config.short.schemaPath bytes').run t').2
    ∃ (report : RunReport) (u' : Tree), (generate Config.short false).run u = (.ok report, u') ∧
      report.artifacts =
        [⟨.packetId, .written ⟨"./t/a"⟩, 0⟩, ⟨.protocolHeader, .written ⟨"./t/b"⟩, 0⟩,
          ⟨.protocolSource, .written ⟨"./t/c"⟩, 0⟩, ⟨.packetRegister, .written ⟨"./t/d"⟩, 0⟩,
          ⟨.sessionHeader, .written ⟨"./t/e"⟩, 1⟩, ⟨.sessionSource, .written ⟨"./t/f"⟩, 1⟩] ∧
      (∀ file ∈ Config.short.configured, ∃ old new : String,
        t'.read file.2 = .ok old.toUTF8 ∧ u'.read file.2 = .ok new.toUTF8 ∧
          (Config.short.region file.1).InsertsPang file.1 old new) ∧
      Tree.Spares (Config.short.IsOutput u) u u' := by
  intro bytes bytes' t t' u
  have hping : (request "Ping").IsPlain := ⟨by decide, by simp [request]⟩
  have hpang : (request "Pang").IsPlain := ⟨by decide, by simp [request]⟩
  have htick : (request "Tick").IsPlain := ⟨by decide, by simp [request]⟩
  have haccepts : Config.short.Accepts bytes ([request "Ping"] ++ [request "Tick"]) :=
    Config.accepts_of_parse (by decide +kernel) (by decide)
      (by simpa using ⟨hping, htick⟩)
  have haccepts' : Config.short.Accepts bytes'
      ([request "Ping"] ++ request "Pang" :: [request "Tick"]) :=
    Config.accepts_of_parse (by decide +kernel) (by decide)
      (by simpa using ⟨hping, hpang, htick⟩)
  obtain ⟨empty, -⟩ := Config.short_hosts
  have hwritten := Config.edited_of_writeWithParents empty bytes
  have hready : Config.short.Ready t ([request "Ping"] ++ [request "Tick"]) :=
    Config.short_ready haccepts
  have hosts := hready.hosts
  have hnew : ∀ file ∈ Config.short.configured, t.lookup (t.placeOf file.2) = none := by
    decide
  have hread : t.read Config.short.schemaPath = .ok bytes :=
    hosts.read_eq (mem_sidesOf Config.schemaPath_mem_tracked).1
      ((congrArg _ (hwritten.works.placeOf_eq _)).trans hwritten.file)
  obtain ⟨first, t'', hfirst, hfresh⟩ := hready.succeeds Config.short_isPlain.steady
  obtain rfl : t' = t'' := congrArg Prod.snd hfirst
  obtain ⟨hsucceed, hall⟩ := generate_inserts Config.short_isPlain.steady
    hosts.wellFormed hosts.nodup_places hnew hread haccepts
    (Config.edited_of_writeWithParents hfresh.hosts bytes') haccepts'
  obtain ⟨-, second, -, u', -, hsecond⟩ := hsucceed hosts
  obtain ⟨hartifacts, hspares⟩ := hall first second t' u' hfirst hsecond
  -- No digests collide.
  obtain ⟨t₁, t₂, s, made, plan, outcomes, published, hparts, -⟩ := exists_parts hfirst
  have hparted := Config.parted_of_new hosts.nodup_places hnew hread
  have hgrows : List.Forall₂ (Config.short.Grows [request "Ping"] (request "Pang")
      [request "Tick"] t' u') Config.short.configured second.artifacts := by
    refine ((List.forall₂_and_left _ _).mpr ⟨fun _ => id, hartifacts⟩).imp fun file o h => ?_
    have hdigests := digits_short file.1
    exact h.2.resolve_left (hparts.not_collided hosts.wellFormed hparted
      Config.short_isPlain.steady hread haccepts haccepts' h.1
      (exists?_of_new hosts.wellFormed hnew h.1) hdigests.1 hdigests.2)
  have hlines := hgrows.imp fun file o h => h.insertsPang
  refine ⟨second, u', hsecond, ?_, ?_, hspares⟩
  · have houtcomes := map_eq_of_forall₂ (g := id) hlines fun file o h => h.1
    rw [List.map_id] at houtcomes
    rw [houtcomes]
    decide
  · intro file hfile
    obtain ⟨o, -, h⟩ := (forall₂_mem hlines).1 file hfile
    exact h.2

end Packetry
