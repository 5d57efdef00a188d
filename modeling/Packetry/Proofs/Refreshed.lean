import Packetry.Proofs.Preparation
import Packetry.Proofs.Publishing
import Packetry.Proofs.Succeeding

/-!
# Files brought up to date

In a tree that hosts them, artifacts are replaced and published without failure. A file whose
digest is that of its new content is left alone (`Packetry.Disk.Tree.Matches`), and if that is
so for all of them, nothing changes at all.

* `Packetry.Disk.Tree.Hosts.writePlan_run`: what becomes of artifacts that are replaced.
* `Packetry.Disk.Tree.Hosts.publishAll_run`: what becomes of files that are published.
-/

namespace Packetry

open Disk

namespace Disk.Tree

variable {t t' : Tree} {a : PlannedArtifact} {p p' : Path} {ps qs : List Path}
  {bytes bytes' : ByteArray}

/-! ### Digests -/

/-- A file has the digest of some bytes. -/
def Matches (t : Tree) (p : Path) (bytes : ByteArray) : Prop :=
  (bytesOf (t.lookup (t.placeOf p))).map digest = some (digest bytes)

instance : Decidable (t.Matches p bytes) :=
  inferInstanceAs (Decidable (_ = _))

theorem matches_of_file (h : t.lookup (t.placeOf p) = some (.file bytes)) : t.Matches p bytes := by
  rw [Matches, h]
  rfl

theorem Matches.ne_none (h : t.Matches p bytes) : t.lookup (t.placeOf p) ≠ none := by
  intro hnone
  rw [Matches, hnone] at h
  cases h

theorem Matches.digest_eq (h : t.Matches p bytes)
    (hfile : t.lookup (t.placeOf p) = some (.file bytes')) : digest bytes' = digest bytes := by
  rw [Matches, hfile] at h
  exact Option.some.inj h

theorem matches_congr (hcwd : t'.workingDirectory = t.workingDirectory)
    (h : t'.lookup (t.placeOf p) = t.lookup (t.placeOf p)) :
    t'.Matches p bytes ↔ t.Matches p bytes := by
  rw [Matches, Matches, placeOf_congr hcwd, h]

/-- A copy is current if its target has the digest of the content. -/
theorem Hosts.isCurrent_iff (h : t.Hosts ps) (file : Path × ByteArray) (hp : file.1 ∈ ps) :
    (Transaction.stagedOf file).isCurrent t = true ↔ t.Matches file.1 file.2 := by
  have hself := (mem_sidesOf hp).1
  rw [Staged.isCurrent_iff]
  constructor
  · rintro ⟨bytes, hread, hdigest⟩
    have hbytes := (h.wellFormed.read_ok_iff.mp hread).2
    rw [Matches, show bytesOf (t.lookup (t.placeOf file.1)) = some bytes from hbytes]
    exact congrArg some hdigest
  · intro hmatches
    obtain ⟨bytes, hfile⟩ := (h.free _ hself).eq_file hmatches.ne_none
    exact ⟨bytes, h.read_eq hself hfile, hmatches.digest_eq hfile⟩

/-! ### Artifacts -/

/-- Staging changes neither targets nor backups. -/
theorem Hosts.lookup_of_staged {files : List (Path × ByteArray)} (h : t.Hosts ps)
    (hworks : Works (Transaction.copiesOf files) t t') (hfiles : ∀ file ∈ files, file.1 ∈ ps)
    (hp : p ∈ ps) : t'.lookup (t.placeOf p) = t.lookup (t.placeOf p) ∧
      t'.lookup (t.placeOf (backupPath p)) = t.lookup (t.placeOf (backupPath p)) := by
  have hsub := Transaction.copiesOf_subset hfiles
  obtain ⟨hself, -, hbackup⟩ := mem_sidesOf hp
  constructor
  · refine hworks.lookup_eq h hsub hself fun hcopy => ?_
    obtain ⟨file, hfile, heq⟩ := List.mem_map.mp hcopy
    exact (h.ne_sides hp (hfiles file hfile)).1 (congrArg t.placeOf heq.symm)
  · refine hworks.lookup_eq h hsub hbackup fun hcopy => ?_
    obtain ⟨file, hfile, heq⟩ := List.mem_map.mp hcopy
    exact t.placeOf_stagingPath_ne_backupPath _ _ (congrArg t.placeOf heq)

/-- Artifacts that are staged are committed. -/
theorem writePlan_run_of_stageEach {artifacts : List PlannedArtifact} {x : Transaction}
    (h : (Transaction.stageEach (.new false) (filesOf artifacts)).run t = (.ok x, t')) :
    (writePlan false artifacts).run t = x.commit.run t' := by
  rw [filesOf, ← Transaction.stageAll_eq] at h
  unfold writePlan
  rw [Program.run_bind, h]

/-- What is said of an artifact that is replaced. -/
def refreshOutcome (t : Tree) (a : PlannedArtifact) : Outcome :=
  if t.Matches a.path a.merged.toUTF8 then .unchanged a.path else .written a.path

/-- What has become of an artifact that was replaced. -/
structure Refreshed (t t' : Tree) (a : PlannedArtifact) : Prop where
  /-- There is no copy. -/
  copy : t'.lookup (t.placeOf (stagingPath a.path)) = none
  /-- A file with the right digest is left alone. -/
  kept : t.Matches a.path a.merged.toUTF8 →
    t'.lookup (t.placeOf a.path) = t.lookup (t.placeOf a.path) ∧
      t'.lookup (t.placeOf (backupPath a.path)) = t.lookup (t.placeOf (backupPath a.path))
  /-- Any other file has the new content. -/
  written : ¬t.Matches a.path a.merged.toUTF8 →
    t'.lookup (t.placeOf a.path) = some (.file a.merged.toUTF8)

/-- **Files of a host are staged and committed.** -/
theorem Hosts.commit_run (h : t.Hosts ps) (files : List (Path × ByteArray))
    (hfiles : ∀ file ∈ files, file.1 ∈ ps) (hnodup : (files.map (·.1)).Nodup) :
    ∃ (x : Transaction) (t₁ t' : Tree),
      (Transaction.stageEach (.new false) files).run t = (.ok x, t₁) ∧
      x.commit.run t₁ = (.ok ((files.map Transaction.stagedOf).map (Transaction.outcomeOf t₁)),
        t') ∧
      Works (Transaction.copiesOf files) t t₁ ∧ t₁.Hosts ps ∧
      Transaction.Committed t₁ (files.map Transaction.stagedOf) t' ∧
      ∀ file ∈ files, t₁.lookup (t.placeOf (stagingPath file.1)) = some (.file file.2) := by
  obtain ⟨t₁, hrun₁, hworks₁, hcopies⟩ :=
    Transaction.stageEach_run files (.new false) h rfl hfiles hnodup
  have hosts := h.of_works hworks₁ (Transaction.copiesOf_subset hfiles)
  rw [Transaction.new, List.nil_append] at hrun₁
  have htargets : ∀ s ∈ files.map Transaction.stagedOf, s.target ∈ ps := by
    intro s hs
    obtain ⟨file, hfile, rfl⟩ := List.mem_map.mp hs
    exact hfiles file hfile
  have hdistinct : ((files.map Transaction.stagedOf).map (·.target)).Nodup := by
    rw [List.map_map]
    exact hnodup
  have hthere : ∀ s ∈ files.map Transaction.stagedOf,
      t₁.lookup (t₁.placeOf s.copy) ≠ none := by
    intro s hs
    obtain ⟨file, hfile, rfl⟩ := List.mem_map.mp hs
    rw [hworks₁.placeOf_eq]
    simp [Staged.copy, Transaction.stagedOf, hcopies file hfile]
  obtain ⟨t', hrun, hcommitted⟩ := Transaction.commit_ok
    (x := ⟨false, files.map Transaction.stagedOf, []⟩) hosts rfl htargets hdistinct hthere
  exact ⟨_, t₁, t', hrun₁, hrun, hworks₁, hosts, hcommitted, hcopies⟩

/-- **Artifacts of a host are replaced**, unless they have the right digests already. -/
theorem Hosts.writePlan_run (h : t.Hosts ps) (artifacts : List PlannedArtifact)
    (hmem : ∀ a ∈ artifacts, a.path ∈ ps) (hnodup : (artifacts.map (·.path)).Nodup) :
    ∃ t', (writePlan false artifacts).run t = (.ok (artifacts.map t.refreshOutcome), t') ∧
      Works (sidesOf (artifacts.map (·.path))) t t' ∧ ∀ a ∈ artifacts, t.Refreshed t' a := by
  have hpaths : (filesOf artifacts).map (·.1) = artifacts.map (·.path) := by
    rw [filesOf, List.map_map]
    rfl
  have hfiles : ∀ file ∈ filesOf artifacts, file.1 ∈ ps := by
    intro file hfile
    obtain ⟨a, ha, rfl⟩ := List.mem_map.mp hfile
    exact hmem a ha
  obtain ⟨x, t₁, t', hstage, hcommit, hworks₁, hosts, hcommitted, hcopies⟩ :=
    h.commit_run (filesOf artifacts) hfiles (hpaths ▸ hnodup)
  have hplace := hworks₁.placeOf_eq
  have hself : ∀ a ∈ artifacts, t₁.lookup (t.placeOf a.path) = t.lookup (t.placeOf a.path) ∧
      t₁.lookup (t.placeOf (backupPath a.path)) = t.lookup (t.placeOf (backupPath a.path)) :=
    fun a ha => h.lookup_of_staged hworks₁ hfiles (hmem a ha)
  have hcurrent : ∀ a ∈ artifacts, (Transaction.stagedOf (a.path, a.merged.toUTF8)).isCurrent t₁ =
      true ↔ t.Matches a.path a.merged.toUTF8 := by
    intro a ha
    rw [hosts.isCurrent_iff (a.path, a.merged.toUTF8) (hmem a ha)]
    exact matches_congr hworks₁.workingDirectory (hself a ha).1
  have htargets : ∀ s ∈ (filesOf artifacts).map Transaction.stagedOf, s.target ∈ ps := by
    intro s hs
    obtain ⟨file, hfile, rfl⟩ := List.mem_map.mp hs
    exact hfiles file hfile
  have hstaged : ∀ a ∈ artifacts, Transaction.stagedOf (a.path, a.merged.toUTF8) ∈
      (filesOf artifacts).map Transaction.stagedOf := fun a ha =>
    List.mem_map_of_mem (mem_filesOf ha)
  have hworks := hcommitted.works hosts htargets
  -- The outcomes, then the places that are worked on, and then what becomes of an artifact.
  refine ⟨t', ?_, ?_, fun a ha => ⟨?_, fun hmatches => ?_, fun hmatches => ?_⟩⟩
  · rw [writePlan_run_of_stageEach hstage, hcommit]
    refine congrArg (fun outcomes => (Except.ok outcomes, t')) ?_
    rw [filesOf, List.map_map, List.map_map]
    refine List.map_congr_left fun a ha => ?_
    simp only [Function.comp, Transaction.outcomeOf, refreshOutcome, hcurrent a ha]
    rfl
  · refine (hworks₁.mono ?_).trans h (sidesOf_subset ?_) (hworks.mono ?_)
    · rw [← hpaths]
      exact Transaction.copiesOf_subset fun file hfile => List.mem_map_of_mem hfile
    · intro p hp
      obtain ⟨a, ha, rfl⟩ := List.mem_map.mp hp
      exact hmem a ha
    · rw [List.map_map, ← hpaths]
      exact List.Subset.refl _
  · have hcopy := hcommitted.copy _ (hstaged a ha)
    rwa [hplace] at hcopy
  · have hkept := hcommitted.kept (Transaction.layout_of_hosts hosts htargets) (hstaged a ha)
      ((hcurrent a ha).mpr hmatches)
    simp only [hplace] at hkept
    exact ⟨hkept.1.trans (hself a ha).1, hkept.2.trans (hself a ha).2⟩
  · have hfalse := Bool.not_eq_true _ ▸ mt (hcurrent a ha).mp hmatches
    have htarget := hcommitted.target _ (hstaged a ha) hfalse
    simp only [hplace, Staged.copy, Transaction.stagedOf] at htarget
    exact htarget.trans (hcopies (a.path, a.merged.toUTF8) (mem_filesOf ha))

/-- Work on files that are there makes no directories. -/
theorem Works.lookup_of_there (h : Works (sidesOf qs) t t') (hosts : t.Hosts ps) (hsub : qs ⊆ ps)
    (hthere : ∀ p ∈ qs, t.lookup (t.placeOf p) ≠ none) (q : Place) :
    t'.lookup q = t.lookup q ∨ ∃ p ∈ sidesOf qs, q = t.placeOf p := by
  rcases h.lookup q with heq | ⟨⟨side, hside, hq⟩, hnone, -⟩ | ⟨hq, -⟩
  · exact Or.inl heq
  · obtain ⟨p, hp, hmem⟩ := List.mem_flatMap.mp hside
    have hopen := hosts.isOpen p (mem_sidesOf (hsub hp)).1
    have htail : (t.placeOf side).tail = (t.placeOf p).tail := by
      simp only [List.mem_cons, List.not_mem_nil, or_false] at hmem
      rcases hmem with rfl | rfl | rfl
      · rfl
      · exact (placeOf_tail_eq hopen).1
      · exact (placeOf_tail_eq hopen).2
    rw [htail] at hq
    have hdirectory := hosts.wellFormed.directory_of_suffix (hthere p hp)
      (hq.trans (List.tail_suffix _)) (fun heq => hthere p hp (heq ▸ hnone))
    rw [hnone] at hdirectory
    cases hdirectory
  · exact Or.inr hq

/-- **Nothing is changed** if all artifacts have the right digests and there are no copies. -/
theorem Hosts.writePlan_run_of_matches (h : t.Hosts ps) (artifacts : List PlannedArtifact)
    (hmem : ∀ a ∈ artifacts, a.path ∈ ps) (hnodup : (artifacts.map (·.path)).Nodup)
    (hmatches : ∀ a ∈ artifacts, t.Matches a.path a.merged.toUTF8)
    (hcopies : ∀ a ∈ artifacts, t.lookup (t.placeOf (stagingPath a.path)) = none) :
    ∃ t', (writePlan false artifacts).run t =
        (.ok (artifacts.map fun a => .unchanged a.path), t') ∧ t'.Hosts ps ∧
      t'.workingDirectory = t.workingDirectory ∧ ∀ q, t'.lookup q = t.lookup q := by
  have hsub : artifacts.map (·.path) ⊆ ps := by
    intro p hp
    obtain ⟨a, ha, rfl⟩ := List.mem_map.mp hp
    exact hmem a ha
  obtain ⟨t', hrun, hworks, hrefreshed⟩ := h.writePlan_run artifacts hmem hnodup
  have houtcomes : artifacts.map t.refreshOutcome = artifacts.map fun a => .unchanged a.path :=
    List.map_congr_left fun a ha => if_pos (hmatches a ha)
  refine ⟨t', houtcomes ▸ hrun, h.of_works hworks (sidesOf_subset hsub),
    hworks.workingDirectory, fun q => ?_⟩
  have hthere : ∀ p ∈ artifacts.map (·.path), t.lookup (t.placeOf p) ≠ none := by
    intro p hp
    obtain ⟨a, ha, rfl⟩ := List.mem_map.mp hp
    exact (hmatches a ha).ne_none
  rcases hworks.lookup_of_there h hsub hthere q with heq | ⟨side, hside, rfl⟩
  · exact heq
  · obtain ⟨p, hp, hside⟩ := List.mem_flatMap.mp hside
    obtain ⟨a, ha, rfl⟩ := List.mem_map.mp hp
    obtain ⟨hcopy, hkept, -⟩ := hrefreshed a ha
    obtain ⟨htarget, hbackup⟩ := hkept (hmatches a ha)
    simp only [List.mem_cons, List.not_mem_nil, or_false] at hside
    rcases hside with rfl | rfl | rfl
    · exact htarget
    · rw [hcopy, hcopies a ha]
    · exact hbackup

/-! ### Published files -/

variable {source target : Path} {files : List (Path × Path)}

/-- The digest of a file that has the digest of some bytes. -/
theorem Hosts.digestOf_of_matches (h : t.Hosts ps) (hp : p ∈ ps) (hmatches : t.Matches p bytes) :
    ((digestOf p).run t).1 = .ok (some (digest bytes)) := by
  rw [h.digestOf_run (mem_sidesOf hp).1]
  exact congrArg Except.ok hmatches

/-- A file of a host is published. -/
theorem Hosts.publishFile_run (h : t.Hosts ps) (hsource : t.read source = .ok bytes)
    (htarget : target ∈ ps) :
    ∃ (outcome : Outcome) (t' : Tree), (publishFile source target).run t = (.ok outcome, t') ∧
      Works (sidesOf [target]) t t' ∧ t'.Matches target bytes := by
  by_cases hmatches : t.Matches target bytes
  · exact ⟨.unchanged target, t,
      publishFile_of_digest hsource (h.digestOf_of_matches htarget hmatches),
      h.wellFormed.works_self _, hmatches⟩
  · obtain ⟨t', hrun, hworks, hfile⟩ := h.replaceFile_run htarget bytes
    refine ⟨.written target, t', ?_, hworks.mono (by simp [sidesOf]), matches_of_file ?_⟩
    · rw [Matches] at hmatches
      rw [publishFile_eq, hsource, h.digestOf_run (mem_sidesOf htarget).1]
      dsimp only
      rw [if_neg hmatches, hrun]
    · rw [hworks.placeOf_eq, hfile]

/-- Nothing is done if all files have the digests of their sources. -/
theorem Hosts.publishAll_run_of_matches (h : t.Hosts ps) (files : List (Path × Path))
    (hfiles : ∀ file ∈ files, file.2 ∈ ps ∧
      ∃ bytes, t.read file.1 = .ok bytes ∧ t.Matches file.2 bytes) :
    (publishAll files).run t = (.ok (files.map fun file => .unchanged file.2), t) := by
  refine publishAll_of_digests files fun file hfile => ?_
  obtain ⟨htarget, bytes, hsource, hmatches⟩ := hfiles file hfile
  exact ⟨bytes, hsource, h.digestOf_of_matches htarget hmatches⟩

/-- **Files of a host are published**, from sources that are no targets themselves. -/
theorem Hosts.publishAll_run (h : t.Hosts ps) (files : List (Path × Path))
    (hmem : ∀ file ∈ files, file.1 ∈ ps ∧ file.2 ∈ ps) (hnodup : (files.map (·.2)).Nodup)
    (hapart : ∀ file ∈ files, file.1 ∉ files.map (·.2))
    (hthere : ∀ file ∈ files, t.lookup (t.placeOf file.1) ≠ none) :
    ∃ (outcomes : List Outcome) (t' : Tree), (publishAll files).run t = (.ok outcomes, t') ∧
      Works (sidesOf (files.map (·.2))) t t' ∧ ∀ file ∈ files, ∀ bytes,
        t.lookup (t.placeOf file.1) = some (.file bytes) → t'.Matches file.2 bytes := by
  induction files generalizing t with
  | nil => exact ⟨[], t, rfl, h.wellFormed.works_self _, by simp⟩
  | cons file files ih =>
    obtain ⟨source, target⟩ := file
    obtain ⟨⟨hsource, htarget⟩, hrest⟩ := List.forall_mem_cons.mp hmem
    obtain ⟨hnot, hdistinct⟩ := List.nodup_cons.mp hnodup
    have htargets : files.map (·.2) ⊆ ps := by
      intro p hp
      obtain ⟨file, hfile, rfl⟩ := List.mem_map.mp hp
      exact (hrest file hfile).2
    obtain ⟨bytes, hbytes⟩ :=
      (h.free _ (mem_sidesOf hsource).1).eq_file (hthere _ List.mem_cons_self)
    obtain ⟨outcome, t₁, hrun₁, hworks₁, hmatches₁⟩ :=
      h.publishFile_run (h.read_eq (mem_sidesOf hsource).1 hbytes) htarget
    have hplace := hworks₁.placeOf_eq
    -- The sources of the other files are what they were.
    have hkeep : ∀ file ∈ files, t₁.lookup (t.placeOf file.1) = t.lookup (t.placeOf file.1) := by
      intro file hfile
      refine hworks₁.lookup_eq_of_ne h htarget (hrest file hfile).1 ?_
        (mem_sidesOf (List.mem_singleton_self _)).1
      rintro rfl
      exact hapart file (List.mem_cons_of_mem _ hfile) List.mem_cons_self
    obtain ⟨outcomes, t', hrun, hworks, hmatches⟩ := ih (h.of_works_one hworks₁ htarget) hrest
      hdistinct
      (fun file hfile hmem => hapart file (List.mem_cons_of_mem _ hfile)
        (List.mem_cons_of_mem _ hmem))
      (fun file hfile => by
        rw [hplace, hkeep file hfile]
        exact hthere file (List.mem_cons_of_mem _ hfile))
    refine ⟨outcome :: outcomes, t', ?_, hworks₁.cons hworks h htarget htargets,
      List.forall_mem_cons.mpr ⟨fun bytes' hbytes' => ?_, fun file hfile bytes' hbytes' => ?_⟩⟩
    · rw [publishAll_cons_eq, hrun₁]
      dsimp only
      rw [hrun]
      rfl
    · obtain rfl : bytes = bytes' := by
        rw [hbytes] at hbytes'
        simpa using hbytes'
      refine (matches_congr hworks.workingDirectory ?_).mpr hmatches₁
      rw [hplace]
      exact hworks₁.lookup_first hworks h htarget htargets hnot
    · refine hmatches file hfile bytes' ?_
      rw [hplace, hkeep file hfile, hbytes']

end Disk.Tree

end Packetry
