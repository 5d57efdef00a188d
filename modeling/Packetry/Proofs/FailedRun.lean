import Packetry.Proofs.Digests
import Packetry.Proofs.Idempotence
import Packetry.Proofs.Insertion
import Packetry.Proofs.Preparation

/-!
# Failed runs

When a run fails before anything is published, the files that were there are kept, with one
exception.

Artifacts may share a file. Then they share its copy as well, which holds what was staged last,
and the commit takes it away with the first of them: it fails at the second one. It has replaced
the file by then, if that was not current, and before it fails it makes a backup once more, unless
the file is current for the second artifact. That backup overwrites the first one, and nothing
is left from which the file could be restored (`Packetry.Overtaken`). With two artifacts this
cannot happen, since what was staged last is current for the second one; it takes three.

* `Packetry.produce_error`: what a run that fails before it publishes leaves behind.
-/

namespace Packetry

open Disk

variable {config : Config} {t t' : Tree} {q : Place}

/-! ### Artifacts that share a file -/

/-- What is at the copy for an artifact when all have been staged: what is staged for it last,
unless a device is there. -/
def stagedEntry (t : Tree) (artifacts : List PlannedArtifact) (a : PlannedArtifact) :
    Option Disk.Entry :=
  (Transaction.lastStaged? t (filesOf artifacts) (t.placeOf (stagingPath a.path))).bind
    (Tree.writtenTo (t.lookup (t.placeOf (stagingPath a.path))))

/-- **A file is overtaken** by a commit that fails at an artifact. -/
structure Overtaken (t : Tree) (artifacts before : List PlannedArtifact) (a : PlannedArtifact)
    (q : Place) (old : ByteArray) : Prop where
  /-- It is the file of the artifact. -/
  target : t.placeOf a.path = q
  /-- It was replaced before, since it was not current. -/
  replaced : ∃ b ∈ before, t.placeOf b.path = q ∧ digest old ≠ digest b.merged.toUTF8
  /-- What it was replaced by is not current for the artifact. -/
  differs : ∃ bytes, Tree.bytesOf (stagedEntry t artifacts a) = some bytes ∧
    digest bytes ≠ digest a.merged.toUTF8

/-- A file that is overtaken is shared by three artifacts, unless a device has swallowed what
was staged: the first one has been committed, the second one fails, and what is staged last is
for another one that comes later. -/
theorem Overtaken.shared {before after : List PlannedArtifact} {a : PlannedArtifact}
    {old : ByteArray} (h : Overtaken t (before ++ a :: after) before a q old)
    (hdevice : t.lookup (t.placeOf (stagingPath a.path)) ≠ some .device) :
    ∃ c ∈ after, t.placeOf (stagingPath c.path) = t.placeOf (stagingPath a.path) := by
  by_contra hnone
  obtain ⟨bytes, hbytes, hne⟩ := h.differs
  refine hne ?_
  have hlater : ((filesOf after).reverse.find? fun file =>
      t.placeOf (stagingPath file.1) = t.placeOf (stagingPath a.path)) = none := by
    simp only [List.find?_eq_none, List.mem_reverse, decide_eq_true_eq]
    intro file hfile heq
    obtain ⟨c, hc, rfl⟩ := List.mem_map.mp hfile
    exact hnone ⟨c, hc, heq⟩
  have hlast : Transaction.lastStaged? t (filesOf (before ++ a :: after))
      (t.placeOf (stagingPath a.path)) = some a.merged.toUTF8 := by
    rw [Transaction.lastStaged?, filesOf, List.map_append, List.map_cons, List.reverse_append,
      List.reverse_cons, List.find?_append, List.find?_append]
    rw [filesOf] at hlater
    rw [hlater]
    simp
  rw [stagedEntry, hlast, Option.bind_some, Tree.writtenTo_of_ne_device hdevice] at hbytes
  rw [← Option.some.inj hbytes]

/-- Staged copies of files that can be read do not interfere. -/
theorem layout_of_reaches {files : List (Path × ByteArray)}
    (htarget : ∀ file ∈ files, t.Reaches file.1)
    (hcopy : ∀ file ∈ files, t.Reaches (stagingPath file.1))
    (hfile : ∀ file ∈ files, t.lookup (t.placeOf (stagingPath file.1)) ≠ some .directory)
    (hcopies : ∀ file ∈ files, ∀ other ∈ files, t.placeOf file.1 ≠ t.placeOf (stagingPath other.1))
    (hbackups : ∀ file ∈ files, ∀ other ∈ files,
      t.placeOf file.1 ≠ t.placeOf (backupPath other.1)) :
    Transaction.Layout t (files.map Transaction.stagedOf) := by
  have hmem : ∀ {P : Staged → Prop}, (∀ file ∈ files, P (Transaction.stagedOf file)) →
      ∀ s ∈ files.map Transaction.stagedOf, P s := by
    intro P hP s hs
    obtain ⟨file, hfile, rfl⟩ := List.mem_map.mp hs
    exact hP file hfile
  have hproper : ∀ file ∈ files, Path.isProperName file.1.lastName := fun file hfile =>
    (htarget file hfile).choose_spec.1.proper
  exact ⟨hmem fun a ha => hmem fun b hb => hcopies a ha b hb,
    hmem fun a ha => hmem fun b hb => hbackups a ha b hb,
    hmem fun a _ => hmem fun b _ => t.placeOf_stagingPath_ne_backupPath a.1 b.1,
    hmem fun a ha => hmem fun b hb =>
      (Tree.placeOf_stagingPath_eq_iff (hproper a ha) (hproper b hb)).1,
    hmem fun a ha => hmem fun b hb =>
      (Tree.placeOf_stagingPath_eq_iff (hproper a ha) (hproper b hb)).2,
    hmem hfile, hmem fun a ha _ => hcopy a ha⟩

/-- What a failed replacement of some artifacts has left at a place. -/
def Left (t t' : Tree) (artifacts before : List PlannedArtifact) (a : PlannedArtifact)
    (q : Place) (old : ByteArray) : Prop :=
  (Overtaken t artifacts before a q old → t'.lookup q = stagedEntry t artifacts a) ∧
    (¬Overtaken t artifacts before a q old → t'.lookup q = some (.file old))

/-- A place is beside one of some artifacts. -/
def IsBeside (t : Tree) (artifacts : List PlannedArtifact) (q : Place) : Prop :=
  ∃ a ∈ artifacts, q = t.placeOf (stagingPath a.path) ∨ q = t.placeOf (backupPath a.path)

/-- What is at a copy once everything has been staged. -/
theorem lookup_stagedEntry {artifacts : List PlannedArtifact} {t₁ : Tree} {a : PlannedArtifact}
    (ha : a ∈ artifacts)
    (hlast : ∀ q bytes, Transaction.lastStaged? t (filesOf artifacts) q = some bytes →
      t₁.lookup q = Tree.writtenTo (t.lookup q) bytes) :
    t₁.lookup (t.placeOf (stagingPath a.path)) = stagedEntry t artifacts a ∧
      ∃ bytes, Tree.bytesOf (stagedEntry t artifacts a) = some bytes := by
  obtain ⟨bytes, hbytes⟩ := Option.ne_none_iff_exists'.mp
    (Transaction.lastStaged?_ne_none (t := t) (mem_filesOf ha))
  have hentry : stagedEntry t artifacts a =
      Tree.writtenTo (t.lookup (t.placeOf (stagingPath a.path))) bytes := by
    rw [stagedEntry, hbytes]
    rfl
  refine ⟨by rw [hlast _ _ hbytes, hentry], Option.ne_none_iff_exists'.mp ?_⟩
  rw [hentry]
  exact Tree.bytesOf_ne_none.mpr ⟨Tree.writtenTo_ne_none, Tree.writtenTo_ne_directory⟩

/-- Whether an artifact is current, by the bytes of its file. -/
theorem isCurrent_iff_digest (hw : t.WellFormed) {a : PlannedArtifact} {old : ByteArray}
    (hreach : t.Reaches a.path) (hold : t.lookup (t.placeOf a.path) = some (.file old)) :
    (Transaction.stagedOf (a.path, a.merged.toUTF8)).isCurrent t = false ↔
      digest old ≠ digest a.merged.toUTF8 := by
  have hread : t.read a.path = .ok old := hw.read_ok_iff.mpr ⟨hreach, by rw [hold]; rfl⟩
  rw [← Bool.not_eq_true, Staged.isCurrent_iff, not_iff_not]
  refine ⟨fun ⟨bytes, hbytes, hdigest⟩ => ?_, fun hdigest => ⟨old, hread, hdigest⟩⟩
  obtain rfl : old = bytes := Except.ok.inj (hread.symm.trans hbytes)
  exact hdigest

/-- When a commit fails at an artifact, its file has been replaced before if it is that of another
artifact before, for which it was not current. -/
theorem overtakes_iff {t₁ : Tree} {before : List PlannedArtifact} {a : PlannedArtifact}
    {old : ByteArray} (hw : t₁.WellFormed) (hplace : ∀ p, t₁.placeOf p = t.placeOf p)
    (hreach : ∀ b ∈ before, t₁.Reaches b.path) (hnow : t₁.lookup q = some (.file old)) :
    Transaction.Overtakes t₁
      (before.map (Transaction.stagedOf ∘ fun a => (a.path, a.merged.toUTF8)))
      (Transaction.stagedOf (a.path, a.merged.toUTF8)) q ↔ t.placeOf a.path = q ∧
      ∃ b ∈ before, t.placeOf b.path = q ∧ digest old ≠ digest b.merged.toUTF8 := by
  have hcurrent : ∀ b ∈ before, t.placeOf b.path = q →
      ((Transaction.stagedOf (b.path, b.merged.toUTF8)).isCurrent t₁ = false ↔
        digest old ≠ digest b.merged.toUTF8) := by
    rintro b hb rfl
    refine isCurrent_iff_digest hw (hreach b hb) ?_
    rw [hplace, hnow]
  constructor
  · rintro ⟨hq, -, u, hu, heq, hfalse⟩
    obtain ⟨b, hb, rfl⟩ := List.mem_map.mp hu
    have heq : t.placeOf b.path = q := (hplace _).symm.trans heq
    exact ⟨(hplace _).symm.trans hq.symm, b, hb, heq, (hcurrent b hb heq).mp hfalse⟩
  · rintro ⟨hq, b, hb, heq, hne⟩
    exact ⟨(hq.symm.trans (hplace _).symm : _), by simp [hnow], _, List.mem_map_of_mem hb,
      (hplace _).trans heq, (hcurrent b hb heq).mpr hne⟩

section Staged

variable {artifacts : List PlannedArtifact} {t₁ : Tree} (hw : t.WellFormed)
  (hread : ∀ a ∈ artifacts, ∃ bytes, t.read a.path = .ok bytes)
  (hspares : Tree.Spares (Transaction.IsCopy t (filesOf artifacts)) t t₁)
  (hreach : ∀ file ∈ filesOf artifacts, t₁.Reaches (stagingPath file.1))
  (hlast : ∀ q bytes, Transaction.lastStaged? t (filesOf artifacts) q = some bytes →
    t₁.lookup q = Tree.writtenTo (t.lookup q) bytes)

include hw hread hspares in
/-- The artifacts can be reached when they have been staged. -/
theorem reaches_of_staged : ∀ a ∈ artifacts, t₁.Reaches a.path := by
  intro a ha
  obtain ⟨bytes, hbytes⟩ := hread a ha
  exact hspares.reaches (hw.read_ok_iff.mp hbytes).1

include hspares in
/-- Staging leaves a file alone that is beside no artifact. -/
theorem lookup_of_staged {old : ByteArray} (hold : t.lookup q = some (.file old))
    (hq : ¬IsBeside t artifacts q) : t₁.lookup q = some (.file old) := by
  rw [hspares.lookup_eq _ (by simp [hold]), hold]
  rintro ⟨file, hfile, heq⟩
  obtain ⟨b, hb, rfl⟩ := List.mem_map.mp hfile
  exact hq ⟨b, hb, Or.inl heq⟩

include hspares in
/-- Staging has moved nothing, so that a place beside no artifact is no side for the commit. -/
theorem not_isSide_of_staged (hq : ¬IsBeside t artifacts q) :
    ¬Transaction.IsSide t₁ ((filesOf artifacts).map Transaction.stagedOf) q := by
  rintro ⟨s, hs, hside⟩
  rw [filesOf, List.map_map] at hs
  obtain ⟨b, hb, rfl⟩ := List.mem_map.mp hs
  refine hq ⟨b, hb, ?_⟩
  rw [← hspares.placeOf_eq, ← hspares.placeOf_eq]
  exact hside

/-- What the commit says of places is what the artifacts say of their texts. -/
theorem overtaken_iff {before : List PlannedArtifact} {a : PlannedArtifact}
    {old bytes : ByteArray} {overtakes lost : Prop}
    (hbytes : Tree.bytesOf (stagedEntry t artifacts a) = some bytes)
    (hovertakes : overtakes ↔ t.placeOf a.path = q ∧
      ∃ b ∈ before, t.placeOf b.path = q ∧ digest old ≠ digest b.merged.toUTF8)
    (hlost : overtakes → (lost ↔ digest bytes ≠ digest a.merged.toUTF8)) :
    Overtaken t artifacts before a q old ↔ overtakes ∧ lost := by
  constructor
  · rintro ⟨htarget, hreplaced, bytes', hbytes', hne⟩
    obtain rfl : bytes = bytes' := Option.some.inj (hbytes.symm.trans hbytes')
    have h := hovertakes.mpr ⟨htarget, hreplaced⟩
    exact ⟨h, (hlost h).mpr hne⟩
  · rintro ⟨h, hl⟩
    obtain ⟨htarget, hreplaced⟩ := hovertakes.mp h
    exact ⟨htarget, hreplaced, bytes, hbytes, (hlost h).mp hl⟩

include hw hread hspares hreach hlast

/-- **A commit of artifacts that fails** does so at one of them, and leaves the files but for
the one that is overtaken. -/
theorem left_of_finished {cause : WriteFailure}
    (h : Transaction.Finished t₁ ((filesOf artifacts).map Transaction.stagedOf)
      (.error cause) t') :
    ∃ before a after e, artifacts = before ++ a :: after ∧ cause = .commit a.path e ∧
      ∀ q old, t.lookup q = some (.file old) → ¬IsBeside t artifacts q →
        Left t t' artifacts before a q old := by
  have hplace := hspares.placeOf_eq
  have htarget := reaches_of_staged hw hread hspares
  have hside := fun q => not_isSide_of_staged (q := q) hspares
  generalize hstaged : (filesOf artifacts).map Transaction.stagedOf = L at h hside
  cases h with
  | @failed _ before' after' s lost e hparts hundone hlost =>
  rw [filesOf, List.map_map] at hstaged
  obtain ⟨before, rest, rfl, rfl, hrest⟩ := List.map_eq_append_iff.mp (hstaged.trans hparts)
  obtain ⟨a, after, rfl, rfl, rfl⟩ := List.map_eq_cons_iff.mp hrest
  refine ⟨before, a, after, e, rfl, rfl, fun q old hold hq => ?_⟩
  have hnow := lookup_of_staged hspares hold hq
  have ha : a ∈ before ++ a :: after := by simp
  obtain ⟨hentry, bytes, hbytes⟩ := lookup_stagedEntry ha hlast
  rw [← hplace] at hentry
  have hovertakes := overtakes_iff (a := a) hspares.wellFormed hplace
    (fun b hb => htarget b (List.mem_append_left _ hb)) hnow
  have hiff := overtaken_iff hbytes hovertakes fun h =>
    hlost q bytes h (htarget a ha) (hreach _ (mem_filesOf ha)).backup (hentry ▸ hbytes)
  refine ⟨fun h => ?_, fun h => ?_⟩
  · obtain ⟨h, hl⟩ := hiff.mp h
    exact (hundone.overtaken q h hl).trans hentry
  · rw [hundone.other q (hside q hq) (fun h' => h (hiff.mpr h')), hnow]

/-- The copies of artifacts that are there do not interfere once everything has been staged, if no
artifact is beside another. -/
theorem layout_of_sides (hsides : ∀ a ∈ artifacts, ¬IsBeside t artifacts (t.placeOf a.path)) :
    Transaction.Layout t₁ ((filesOf artifacts).map Transaction.stagedOf) := by
  have hplace := hspares.placeOf_eq
  have hmem : ∀ file ∈ filesOf artifacts, ∃ a ∈ artifacts, file = (a.path, a.merged.toUTF8) :=
    fun file hfile => (List.mem_map.mp hfile).imp fun a ha => ⟨ha.1, ha.2.symm⟩
  refine layout_of_reaches (fun file hfile => ?_) hreach (fun file hfile => ?_)
    (fun file hfile other hother => ?_) (fun file hfile other hother => ?_)
  · obtain ⟨a, ha, rfl⟩ := hmem file hfile
    exact reaches_of_staged hw hread hspares a ha
  · obtain ⟨a, ha, rfl⟩ := hmem file hfile
    obtain ⟨hentry, bytes, hbytes⟩ := lookup_stagedEntry ha hlast
    rw [hplace, hentry]
    exact (Tree.bytesOf_ne_none.mp (by simp [hbytes])).2
  · obtain ⟨a, ha, rfl⟩ := hmem file hfile
    obtain ⟨b, hb, rfl⟩ := hmem other hother
    rw [hplace, hplace]
    exact fun heq => hsides a ha ⟨b, hb, Or.inl heq⟩
  · obtain ⟨a, ha, rfl⟩ := hmem file hfile
    obtain ⟨b, hb, rfl⟩ := hmem other hother
    rw [hplace, hplace]
    exact fun heq => hsides a ha ⟨b, hb, Or.inr heq⟩

end Staged

/-- **Replacing artifacts that are there**, when it fails: either an artifact could not be staged,
and nothing but copies has been touched, or the commit has failed at one of the artifacts. -/
theorem writePlan_error {artifacts : List PlannedArtifact} {cause : WriteFailure}
    (hw : t.WellFormed) (hread : ∀ a ∈ artifacts, ∃ bytes, t.read a.path = .ok bytes)
    (hsides : ∀ a ∈ artifacts, ¬IsBeside t artifacts (t.placeOf a.path))
    (h : (writePlan false artifacts).run t = (.error cause, t')) :
    (∃ p e, cause = .staging p e) ∧ (∀ q old, t.lookup q = some (.file old) →
      ¬IsBeside t artifacts q → t'.lookup q = some (.file old)) ∨
    ∃ before a after e, artifacts = before ++ a :: after ∧ cause = .commit a.path e ∧
      ∀ q old, t.lookup q = some (.file old) → ¬IsBeside t artifacts q →
        Left t t' artifacts before a q old := by
  rcases Program.run_bind_error h with ⟨failure, t₁, hstage, h₁⟩ | ⟨x, t₁, hstage, hcommit⟩
  all_goals rw [Transaction.stageAll_eq, ← filesOf] at hstage
  · obtain ⟨hfailure, rfl⟩ := Prod.mk.inj h₁
    obtain rfl := Except.error.inj hfailure
    have hspares := Transaction.stageEach_spares (filesOf artifacts) (.new false) t hw rfl
    rw [hstage] at hspares
    obtain ⟨file, -, e, rfl⟩ :=
      Transaction.stageEach_error (filesOf artifacts) (.new false) t hw rfl (by rw [hstage])
    refine Or.inl ⟨⟨_, e, rfl⟩, fun q old hold hq => ?_⟩
    rw [hspares.lookup_eq _ (by simp [hold]), hold]
    rintro (⟨file, hfile, rfl⟩ | ⟨s, hs, -⟩)
    · obtain ⟨a, ha, rfl⟩ := List.mem_map.mp hfile
      exact hq ⟨a, ha, Or.inl rfl⟩
    · cases hs
  · obtain ⟨rfl, hspares, hreach, hlast⟩ :=
      Transaction.stageEach_ok (filesOf artifacts) (.new false) t hw rfl hstage
    have hL := layout_of_sides hw hread hspares hreach hlast hsides
    have hfinished := Transaction.commit_run (x := ⟨false, (filesOf artifacts).map
      Transaction.stagedOf, []⟩) hspares.wellFormed rfl hL
    simp only [Transaction.new, List.nil_append] at hcommit
    rw [hcommit] at hfinished
    exact Or.inr (left_of_finished hw hread hspares hreach hlast hfinished)

/-- **Two artifacts with one file cannot be replaced**: if the first one can be committed, the
commit fails at the second one. -/
theorem writePlan_error_of_shared {a b : PlannedArtifact} {rest : List PlannedArtifact} {t₁ : Tree}
    {x : Transaction} (hw : t.WellFormed)
    (hread : ∀ c ∈ a :: b :: rest, ∃ bytes, t.read c.path = .ok bytes)
    (hsides : ∀ c ∈ a :: b :: rest, ¬IsBeside t (a :: b :: rest) (t.placeOf c.path))
    (hstage : (Transaction.stageEach (.new false) (filesOf (a :: b :: rest))).run t = (.ok x, t₁))
    (hosts : t₁.Hosts [a.path]) (heq : t.placeOf a.path = t.placeOf b.path) :
    ∃ e t', (writePlan false (a :: b :: rest)).run t = (.error (.commit b.path e), t') := by
  obtain ⟨rfl, hspares, hreach, hlast⟩ :=
    Transaction.stageEach_ok (filesOf (a :: b :: rest)) (.new false) t hw rfl hstage
  have hL := layout_of_sides hw hread hspares hreach hlast hsides
  -- What was staged for the first artifact is there.
  obtain ⟨hentry, bytes, hbytes⟩ := lookup_stagedEntry List.mem_cons_self hlast
  have hcopy : t₁.lookup (t₁.placeOf (stagingPath a.path)) ≠ none := by
    rw [hspares.placeOf_eq, hentry]
    exact (Tree.bytesOf_ne_none.mp (by simp [hbytes])).1
  obtain ⟨r, t₂, hone⟩ := Transaction.commitOne_ok
    (s := Transaction.stagedOf (a.path, a.merged.toUTF8)) hosts List.mem_cons_self hcopy
  obtain ⟨e, herror⟩ := Transaction.commitFrom_error_of_shared hspares.wellFormed hL
    (((hspares.placeOf_eq a.path).trans heq).trans (hspares.placeOf_eq b.path).symm)
    (by rw [hone]; rfl)
  refine ⟨e, ((writePlan false (a :: b :: rest)).run t).2, Prod.ext ?_ rfl⟩
  unfold writePlan
  rw [Program.run_bind, Transaction.stageAll_eq, ← filesOf, hstage]
  exact herror

/-- What was there before a run is there when the artifacts are staged. -/
theorem lookup_of_prepare {t₁ : Tree} {old : ByteArray}
    (hspares : Tree.Spares (config.IsMissing t) t t₁) (hold : t.lookup q = some (.file old))
    (hq : ¬config.IsSide t q) : t₁.lookup q = some (.file old) := by
  rw [hspares.lookup_eq _ (by simp [hold]), hold]
  rintro (hcopy | ⟨-, hnone⟩)
  · exact hq hcopy.isSide
  · rw [hold] at hnone
    cases hnone

section Prepared

variable {t₁ : Tree} {p : Plan} {a : PlannedArtifact} (h : Prepared config t₁ p)
  (hplace : ∀ p, t₁.placeOf p = t.placeOf p)

include h

/-- An artifact of the plan is one that is configured. -/
theorem Prepared.exists_configured (ha : a ∈ p.artifacts) :
    ∃ file ∈ config.configured, file.2 = a.path := by
  have hpath : a.path ∈ config.configured.map (·.2) := h.paths ▸ List.mem_map_of_mem ha
  exact List.mem_map.mp hpath

theorem Prepared.path_mem_paths (ha : a ∈ p.artifacts) : a.path ∈ config.paths := by
  obtain ⟨file, hfile, heq⟩ := h.exists_configured ha
  exact heq ▸ List.mem_cons_of_mem _ (List.mem_map_of_mem hfile)

include hplace

/-- What is beside an artifact of the plan is beside a configured one. -/
theorem Prepared.isSide (hq : IsBeside t₁ p.artifacts q) : config.IsSide t q := by
  obtain ⟨a, ha, hq⟩ := hq
  obtain ⟨file, hfile, heq⟩ := h.exists_configured ha
  rw [hplace, hplace] at hq
  exact Or.inl ⟨file, hfile, heq ▸ hq⟩

/-- No artifact is beside another. -/
theorem Prepared.not_isBeside (hapart : config.Apart t) :
    ∀ a ∈ p.artifacts, ¬IsBeside t₁ p.artifacts (t₁.placeOf a.path) := by
  rintro a ha ⟨b, hb, hq⟩
  have hfile := h.path_mem_paths ha
  have hother := h.path_mem_paths hb
  simp only [hplace] at hq
  exact hq.elim (hapart.copy _ hfile _ hother) (hapart.backup _ hfile _ hother)

end Prepared

/-- **If nothing is missing**, the preparation of a run is its plan. -/
theorem prepare_run_of_there {p : Plan} (htemplates : config.templates = none)
    (hthere : ∀ path ∈ config.paths, t.exists? path = true)
    (hplan : (plan ⟨config, []⟩).run t = (.ok p, t)) :
    (prepare config).run t = (.ok ([], p), t) := by
  have hensure : (ensure ⟨config, []⟩).run t = (.ok [], t) :=
    makeMissing_run_of_exists? _ fun file hfile =>
      hthere _ (map_files ⟨config, []⟩ ▸ List.mem_map_of_mem hfile)
  unfold prepare
  simp only [Program.run_bind, load_run_of_templates htemplates, hensure, hplan, Program.run_pure]

/-- **A run that fails before anything is published** leaves the files that were there, unless it
is the commit that has failed: then it leaves all but the one that is overtaken. -/
theorem produce_error {failure : Failure} (hw : t.WellFormed) (hapart : config.Apart t)
    (h : (produce config).run t = (.error failure, t')) :
    (generate config false).run t = (.error failure, t') ∧
    ((((prepare config).run t).1 = .error failure ∨ ∃ p e, failure = .write (.staging p e)) ∧
        (∀ q old, t.lookup q = some (.file old) → ¬config.IsSide t q →
          t'.lookup q = some (.file old)) ∨
      ∃ made p t₁ before a after e, (prepare config).run t = (.ok (made, p), t₁) ∧
        p.artifacts = before ++ a :: after ∧ failure = .write (.commit a.path e) ∧
        ∀ q old, t.lookup q = some (.file old) → ¬config.IsSide t q →
          Left t₁ t' p.artifacts before a q old) := by
  refine ⟨by rw [generate_run, h], ?_⟩
  obtain ⟨hspares, hprepared⟩ := prepare_run hw hapart
  rcases Program.run_bind_error h with ⟨cause, t₁, hprepare, h₁⟩ | ⟨⟨made, p⟩, t₁, hprepare, h₁⟩
  all_goals
    rw [hprepare] at hspares hprepared ⊢
    have hkept : ∀ q old, t.lookup q = some (.file old) → ¬config.IsSide t q →
        t₁.lookup q = some (.file old) := fun _ _ => lookup_of_prepare hspares
  · obtain ⟨hfailure, rfl⟩ := Prod.mk.inj h₁
    obtain rfl := Except.error.inj hfailure
    exact Or.inl ⟨Or.inl rfl, hkept⟩
  · have hplan := hprepared made p rfl
    have hbeside := fun q => hplan.isSide (q := q) hspares.placeOf_eq
    have hsides := hplan.not_isBeside hspares.placeOf_eq hapart
    rcases Program.run_bind_error h₁ with ⟨cause, t₂, hwrite, h₂⟩ | ⟨outcomes, t₂, -, h₂⟩
    · obtain ⟨hfailure, rfl⟩ := Prod.mk.inj h₂
      obtain rfl := Except.error.inj hfailure
      rcases writePlan_error hspares.wellFormed hplan.read hsides hwrite with
        ⟨⟨path, e, rfl⟩, hall⟩ | ⟨before, a, after, e, hparts, rfl, hleft⟩
      · exact Or.inl ⟨Or.inr ⟨path, e, rfl⟩, fun q old hold hq =>
          hall q old (hkept q old hold hq) fun hside => hq (hbeside q hside)⟩
      · exact Or.inr ⟨made, p, t₁, before, a, after, e, rfl, hparts, rfl, fun q old hold hq =>
          hleft q old (hkept q old hold hq) fun hside => hq (hbeside q hside)⟩
    · cases (Prod.mk.inj h₂).1

/-- A configuration whose artifacts share a file. One of them spells its path in another way, so
that a failure tells which one it is. -/
def Config.oneFile : Config :=
  { schema := ⟨"s"⟩, targetRoot := ⟨"t"⟩,
    files := ⟨⟨"a"⟩, ⟨"./a"⟩, ⟨"a"⟩, ⟨"a"⟩, ⟨"a"⟩, ⟨"a"⟩, none⟩,
    regions := ⟨"r", "r", "r", "r", "r", "r", "r"⟩ }

/-- The file, a schema with one packet, and another file. -/
def Config.oneFileTree : Tree :=
  ⟨[(["s"], .file "Packet:\n- Type: RequestPacket\n  PacketName: Ping\n".toUTF8),
    (["t"], .directory),
    (["a", "t"], .file "#pragma region r\n#pragma endregion r\n".toUTF8),
    (["k"], .file "kept".toUTF8)], []⟩

theorem Config.oneFile_isSteady : oneFile.IsSteady := by
  refine ⟨rfl, by decide, by decide, ?_, ?_, ?_⟩
  · intro a _ p h
    cases a <;> cases h <;> decide
  · intro a
    cases a <;> decide
  · intro a
    cases a <;> decide

/-- The text of the file with lines in its region. -/
def oneFileText (interior : List String) : String :=
  unlines ("#pragma region r" :: (interior ++ ["#pragma endregion r"]))

theorem oneFileText_nil : oneFileText [] = "#pragma region r\n#pragma endregion r\n" := by
  decide

/-- What an artifact is to be. -/
def oneFileArtifact (a : Artifact) (p : Path) : PlannedArtifact :=
  ⟨a, p, true, oneFileText [],
    oneFileText (a.firstLines ++ codeOf "Player" [request "Ping"] [request "Ping"] a),
    if a.discipline = .additive then 1 else 0⟩

/-- The artifacts, in order. -/
def oneFileArtifacts : List PlannedArtifact :=
  [oneFileArtifact .packetId ⟨"./t/a"⟩, oneFileArtifact .protocolHeader ⟨"./t/./a"⟩,
    oneFileArtifact .protocolSource ⟨"./t/a"⟩, oneFileArtifact .packetRegister ⟨"./t/a"⟩,
    oneFileArtifact .sessionHeader ⟨"./t/a"⟩, oneFileArtifact .sessionSource ⟨"./t/a"⟩]

theorem mergedText_oneFile (a : Artifact) :
    mergedText Config.oneFile [request "Ping"] a (oneFileText []) =
      .ok (oneFileText (a.firstLines ++ codeOf "Player" [request "Ping"] [request "Ping"] a),
        if a.discipline = .additive then 1 else 0) := by
  have hmarkers : (Config.oneFile.region a).beginMarker = "#pragma region r" ∧
      (Config.oneFile.region a).endMarker = "#pragma endregion r" := by
    cases a <;> decide
  have hfile : ∀ interior, Frame.file ⟨[], [], by simp, by simp⟩ (Config.oneFile.region a)
      interior = oneFileText interior := by
    intro interior
    rw [Frame.file_eq_unlines, Frame.lines, hmarkers.1, hmarkers.2]
    rfl
  have hnames : ([request "Ping"].map (·.name)).Nodup := List.nodup_singleton _
  have hmerged := mergedText_first ⟨[], [], by simp, by simp⟩ (a := a) Config.oneFile_isSteady
    hnames (List.forall_mem_nil _) fun _ => rfl
  rwa [hfile, hfile] at hmerged

/-- The plan of a run. -/
theorem Config.oneFile_plan : (plan ⟨oneFile, []⟩).run oneFileTree =
    (.ok ⟨[request "Ping"], oneFileArtifacts⟩, oneFileTree) := by
  have hplans : ∀ a p, oneFileTree.read p = .ok "#pragma region r\n#pragma endregion r\n".toUTF8 →
      Plans ⟨oneFile, []⟩ [request "Ping"] oneFileTree (a, p) (oneFileArtifact a p) :=
    fun a p hread => ⟨some (oneFileText []),
      Disk.Tree.textAt_eq_some_iff.mpr (oneFileText_nil ▸ hread),
      planArtifact_eq_ok_iff.mpr ⟨_, _, _, rfl, mergedText_oneFile a, rfl⟩⟩
  have haccepts : oneFile.Accepts "Packet:\n- Type: RequestPacket\n  PacketName: Ping\n".toUTF8
      [request "Ping"] :=
    accepts_of_parse (by decide +kernel) (by decide)
      (by simpa using request_isPlain (by decide))
  have hconfigured : oneFile.configured = [(.packetId, ⟨"./t/a"⟩), (.protocolHeader, ⟨"./t/./a"⟩),
      (.protocolSource, ⟨"./t/a"⟩), (.packetRegister, ⟨"./t/a"⟩), (.sessionHeader, ⟨"./t/a"⟩),
      (.sessionSource, ⟨"./t/a"⟩)] := by
    decide
  refine plan_run (haccepts.loadValid_run rfl) ?_
  rw [hconfigured]
  exact .cons (hplans _ _ rfl) (.cons (hplans _ _ rfl) (.cons (hplans _ _ rfl)
    (.cons (hplans _ _ rfl) (.cons (hplans _ _ rfl) (.cons (hplans _ _ rfl) .nil)))))

/-- What was staged last is for the last artifact. -/
theorem stagedEntry_oneFile (a : Artifact) :
    stagedEntry Config.oneFileTree oneFileArtifacts (oneFileArtifact a ⟨"./t/./a"⟩) =
      some (.file ("#pragma region r\nvoid Player::OnPing(const Ping& packet)\n\x7b\n\x7d\n\n" ++
        "#pragma endregion r\n").toUTF8) := by
  have hlast : Transaction.lastStaged? Config.oneFileTree (filesOf oneFileArtifacts)
      (Config.oneFileTree.placeOf (stagingPath ⟨"./t/./a"⟩)) =
        some (oneFileArtifact .sessionSource ⟨"./t/a"⟩).merged.toUTF8 := by
    unfold Transaction.lastStaged?
    rw [filesOf, oneFileArtifacts]
    simp only [List.map_cons, List.map_nil, List.reverse_cons, List.reverse_nil, List.nil_append,
      List.cons_append]
    rw [List.find?_cons_of_pos (by decide)]
    rfl
  have htext : (oneFileArtifact .sessionSource ⟨"./t/a"⟩).merged =
      "#pragma region r\nvoid Player::OnPing(const Ping& packet)\n\x7b\n\x7d\n\n" ++
        "#pragma endregion r\n" := by
    decide
  have hnone : Config.oneFileTree.lookup (Config.oneFileTree.placeOf (stagingPath ⟨"./t/./a"⟩)) =
      none := by
    decide
  rw [stagedEntry, oneFileArtifact, hlast, hnone, htext]
  rfl

/-- The file is overtaken at the second artifact. -/
theorem overtaken_oneFile : Overtaken Config.oneFileTree oneFileArtifacts
    [oneFileArtifact .packetId ⟨"./t/a"⟩] (oneFileArtifact .protocolHeader ⟨"./t/./a"⟩) ["a", "t"]
      "#pragma region r\n#pragma endregion r\n".toUTF8 := by
  rw [← oneFileText_nil]
  have hfirst : digest (oneFileText []).toUTF8 ≠
      digest (oneFileArtifact .packetId ⟨"./t/a"⟩).merged.toUTF8 :=
    mt digest_unlines_eq_iff.mp (by decide +kernel)
  have hsecond : digest (oneFileArtifact .sessionSource ⟨"./t/a"⟩).merged.toUTF8 ≠
      digest (oneFileArtifact .protocolHeader ⟨"./t/./a"⟩).merged.toUTF8 :=
    mt digest_unlines_eq_iff.mp (by decide +kernel)
  exact ⟨by decide, ⟨_, List.mem_singleton_self _, by decide, hfirst⟩,
    ⟨_, rfl, hsecond⟩⟩

/-- There is one artifact that spells its path in this way. -/
theorem eq_of_oneFileArtifacts {before after : List PlannedArtifact} {a : PlannedArtifact}
    (hparts : oneFileArtifacts = before ++ a :: after) (hpath : a.path = ⟨"./t/./a"⟩) :
    before = [oneFileArtifact .packetId ⟨"./t/a"⟩] ∧
      a = oneFileArtifact .protocolHeader ⟨"./t/./a"⟩ := by
  have hother : ∀ b, (oneFileArtifact b ⟨"./t/a"⟩).path ≠ ⟨"./t/./a"⟩ := by
    intro b
    simp [oneFileArtifact]
  rw [oneFileArtifacts] at hparts
  rcases before with _ | ⟨b, _ | ⟨c, before⟩⟩
  all_goals simp only [List.nil_append, List.cons_append, List.cons.injEq] at hparts
  · rw [← hparts.1] at hpath
    exact absurd hpath (hother _)
  · exact ⟨by rw [hparts.1], hparts.2.1.symm⟩
  -- All others spell it as it is.
  · have ha : a ∈ before ++ a :: after := by simp
    rw [← hparts.2.2] at ha
    simp only [List.mem_cons, List.not_mem_nil, or_false] at ha
    rcases ha with ha | ha | ha | ha
    all_goals exact absurd (ha ▸ hpath) (hother _)

theorem Config.oneFile_apart : oneFileTree.WellFormed ∧ oneFile.Apart oneFileTree :=
  ⟨by decide, by decide, by decide, by decide⟩

/-- Nothing is missing, and all artifacts are planned. -/
theorem Config.oneFile_prepare : (prepare oneFile).run oneFileTree =
    (.ok ([], ⟨[request "Ping"], oneFileArtifacts⟩), oneFileTree) :=
  prepare_run_of_there rfl (by decide) oneFile_plan

/-- Everything is staged, and the commit fails at the second artifact. -/
theorem Config.oneFile_produce : ∃ e t', (produce oneFile).run oneFileTree =
    (.error (.write (.commit ⟨"./t/./a"⟩ e)), t') := by
  obtain ⟨hw, hapart⟩ := oneFile_apart
  have hprepared := (prepare_run hw hapart).2
  rw [oneFile_prepare] at hprepared
  replace hprepared := hprepared _ _ rfl
  have hstaged : ((Transaction.stageEach (.new false) (filesOf oneFileArtifacts)).run
      oneFileTree).1.isOk = true := by
    decide
  have hosts : ((Transaction.stageEach (.new false) (filesOf oneFileArtifacts)).run
      oneFileTree).2.Hosts [⟨"./t/a"⟩] := by
    decide +kernel
  obtain ⟨x, t₁, hstage⟩ : ∃ x t₁, (Transaction.stageEach (.new false)
      (filesOf oneFileArtifacts)).run oneFileTree = (.ok x, t₁) := by
    generalize (Transaction.stageEach _ _).run _ = answer at hstaged
    obtain ⟨_ | x, t₁⟩ := answer
    · cases hstaged
    · exact ⟨x, t₁, rfl⟩
  rw [hstage] at hosts
  obtain ⟨e, t', hwrite⟩ := writePlan_error_of_shared hw hprepared.read
    (hprepared.not_isBeside (fun _ => rfl) hapart) hstage hosts (by decide)
  refine ⟨e, t', ?_⟩
  unfold produce
  rw [Program.run_bind, oneFile_prepare]
  dsimp only
  rw [Program.run_bind, show oneFileArtifacts = _ :: _ :: _ from rfl, hwrite]
  rfl

/-- There is nothing beside the file. -/
theorem Config.oneFile_not_isSide {old : ByteArray}
    (hold : oneFileTree.lookup q = some (.file old)) : ¬oneFile.IsSide oneFileTree q := by
  have hnone : ∀ file ∈ oneFile.configured,
      oneFileTree.lookup (oneFileTree.placeOf (stagingPath file.2)) = none ∧
        oneFileTree.lookup (oneFileTree.placeOf (backupPath file.2)) = none := by
    decide
  rintro (⟨file, hfile, rfl | rfl⟩ | ⟨hmissing, -⟩)
  · rw [(hnone file hfile).1] at hold
    cases hold
  · rw [(hnone file hfile).2] at hold
    cases hold
  · exact absurd hmissing (by decide)

/-- **Artifacts share a file, and it is lost.** The commit fails at the second one. The file is left
with what was staged for the last one, and all other files are kept. -/
theorem produce_error_shared :
    Config.oneFileTree.WellFormed ∧ Config.oneFile.Apart Config.oneFileTree ∧ ∃ e t',
      (produce Config.oneFile).run Config.oneFileTree =
        (.error (.write (.commit ⟨"./t/./a"⟩ e)), t') ∧
      (generate Config.oneFile false).run Config.oneFileTree =
        (.error (.write (.commit ⟨"./t/./a"⟩ e)), t') ∧
      Config.oneFileTree.lookup ["a", "t"] =
        some (.file "#pragma region r\n#pragma endregion r\n".toUTF8) ∧
      t'.lookup ["a", "t"] = some (.file
        ("#pragma region r\nvoid Player::OnPing(const Ping& packet)\n\x7b\n\x7d\n\n" ++
          "#pragma endregion r\n").toUTF8) ∧
      ∀ q old, Config.oneFileTree.lookup q = some (.file old) → q ≠ ["a", "t"] →
        t'.lookup q = some (.file old) := by
  obtain ⟨hw, hapart⟩ := Config.oneFile_apart
  obtain ⟨e, t', hproduce⟩ := Config.oneFile_produce
  obtain ⟨hgenerate, hleft⟩ := produce_error hw hapart hproduce
  rcases hleft with ⟨hcause | ⟨p, e', hcause⟩, -⟩ |
    ⟨made, p, t₁, before, a, after, e', hprepare, hparts, hfailure, hleft⟩
  · rw [Config.oneFile_prepare] at hcause
    cases hcause
  · cases hcause
  obtain ⟨hplan, rfl⟩ := Prod.mk.inj (Config.oneFile_prepare.symm.trans hprepare)
  obtain ⟨rfl, rfl⟩ := Prod.mk.inj (Except.ok.inj hplan)
  simp only [Failure.write.injEq, WriteFailure.commit.injEq] at hfailure
  obtain ⟨rfl, rfl⟩ := eq_of_oneFileArtifacts hparts hfailure.1.symm
  refine ⟨hw, hapart, e, t', hproduce, hgenerate, rfl, ?_, fun q old hold hq => ?_⟩
  · rw [(hleft ["a", "t"] _ rfl (Config.oneFile_not_isSide rfl)).1 overtaken_oneFile]
    exact stagedEntry_oneFile _
  · refine (hleft q old hold (Config.oneFile_not_isSide hold)).2 fun h => hq ?_
    exact h.target.symm.trans (by decide)

end Packetry
