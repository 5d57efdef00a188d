import Packetry.Proofs.AllOrNothing
import Packetry.Proofs.Idempotence
import Mathlib.Data.List.Flatten

/-!
# Successful runs

What a run has done when it has succeeded, in a tree that promises nothing: there may be no
room for a file, a device may be at the place of a copy, and a directory may come to be where a
file was to be. That the run has succeeded rules these out, one by one, where it matters.

The files of the run are at different places, and no path steps upwards
(`Packetry.Config.Distinct`). Then each part of the run leaves the files of the others alone,
and what a later part reads can be traced back to the tree that the run started from. A file
that was there is read as it was. A file that was missing has been made from its scaffold, and
its path was open (`Packetry.Disk.Tree.Spares.isOpen_before`), so that nothing else than its
absence was to be found there.

* `Packetry.makeMissing_made`: what has become of a file that was missing.
* `Packetry.writePlan_ok`: what has become of the artifacts.
* `Packetry.exists_parts`: the parts of a run that has succeeded.
-/

namespace Packetry

open Disk

/-! ### Before and after -/

namespace Disk.Tree

variable {t t' : Tree} {p : Path} {bytes : ByteArray} {S : Place → Prop}

/-- What is found is reached, unless it is a directory. -/
theorem WellFormed.reaches_of_exists? (hw : t.WellFormed) (h : t.exists? p = true)
    (hfile : t.lookup (t.placeOf p) ≠ some .directory) : t.Reaches p := by
  unfold exists? at h
  cases hfind : t.find p with
  | error e =>
    rw [hfind] at h
    cases h
  | ok q =>
    obtain rfl := (hw.find_ok hfind).1
    obtain ⟨d, hspot, -, hs⟩ := hw.hasSpot_of_find hfind hfile
    exact ⟨d, hspot, hs⟩

/-- A file that is found now was there before, if its place was spared and its path steps
nowhere upwards. -/
theorem Spares.before (h : Spares S t t') (hw : t.WellFormed) (hup : ".." ∉ p.names)
    (hside : ¬S (t.placeOf p)) (hthere : t'.exists? p = true)
    (hfile : t'.lookup (t.placeOf p) ≠ some .directory) :
    t.Reaches p ∧ t'.lookup (t.placeOf p) = t.lookup (t.placeOf p) := by
  have heq := h.lookup_eq_of_ne hside hfile
  have hne := lookup_of_exists? h.wellFormed hthere
  rw [← h.placeOf_eq] at hfile
  rw [h.placeOf_eq, heq] at hne
  exact ⟨(h.wellFormed.reaches_of_exists? hthere hfile).of_plain hup hw hne, heq⟩

/-- What is read now could be read before. -/
theorem Spares.read_before (h : Spares S t t') (hw : t.WellFormed) (hup : ".." ∉ p.names)
    (hside : ¬S (t.placeOf p)) (hread : t'.read p = .ok bytes) : t.read p = .ok bytes := by
  have hbytes := (h.wellFormed.read_ok_iff.mp hread).2
  rw [h.placeOf_eq] at hbytes
  have hfile := (bytesOf_ne_none.mp (by rw [hbytes]; simp)).2
  obtain ⟨hreach, heq⟩ := h.before hw hup hside (exists?_of_read_ok hread) hfile
  rw [heq] at hbytes
  exact hw.read_ok_iff.mpr ⟨hreach, hbytes⟩

/-- What could be read before can be read now. -/
theorem Spares.read_after (h : Spares S t t') (hw : t.WellFormed) (hside : ¬S (t.placeOf p))
    (hread : t.read p = .ok bytes) : t'.read p = .ok bytes := by
  obtain ⟨hreach, hbytes⟩ := hw.read_ok_iff.mp hread
  have hthere := (bytesOf_ne_none.mp (by rw [hbytes]; simp)).1
  rw [h.wellFormed.read_ok_iff, h.placeOf_eq, h.lookup_eq hside hthere]
  exact ⟨h.reaches hreach, hbytes⟩

/-- A path that reaches its place now was open before, unless a directory has taken the place of
a file since. -/
theorem Spares.isOpen_before (h : Spares S t t') (hreach : t'.Reaches p) (hup : ".." ∉ p.names)
    (hbase : t.lookup (t.base p) = some .directory)
    (hS : ∀ q, S q → t'.lookup q = some .directory →
      t.lookup q = none ∨ t.lookup q = some .directory) : t.IsOpen p := by
  have htail := hreach.tail_eq h.wellFormed
  rw [h.placeOf_eq] at htail
  obtain ⟨d, hspot, hlast⟩ := hreach
  refine ⟨hspot.walkable, hspot.proper, fun s hs => ?_, hbase, fun q hq => ?_⟩
  · have hmem : s ∈ p.names := (List.mem_filter.mp hs).1
    have hne : s ≠ ".." := fun heq => hup (heq ▸ hmem)
    rw [p.names_eq, List.mem_append, List.mem_singleton] at hmem
    rcases hmem with hmem | rfl
    · exact ⟨hne, walk_short hspot.walk s hmem hne⟩
    · exact ⟨hne, hlast⟩
  -- What is above the place is a directory now, so that it was one before or was missing.
  · have hdir : t'.lookup q = some .directory := by
      by_cases heq : q = (t.placeOf p).tail
      · rw [heq, htail]
      · exact h.wellFormed.directory_of_suffix (by simp [htail]) hq heq
    by_cases hside : S q
    · exact hS q hside hdir
    · rcases h.lookup q hside with heq | ⟨hnone, -⟩
      · exact Or.inr (heq ▸ hdir)
      · exact Or.inl hnone

end Disk.Tree

/-! ### What was missing -/

section Made

variable {t t' t₁ t₂ : Tree} {p : Path} {bytes : ByteArray} {S : Place → Prop}
  {files : List (Path × Except ScaffoldFault String)} {file : Path × Except ScaffoldFault String}

/-- Files that may be missing, at different places. The copies of those that are missing are
among the places of `S`, and no file is. -/
structure Scattered (S : Place → Prop) (t : Tree)
    (files : List (Path × Except ScaffoldFault String)) : Prop where
  /-- If the path of a file that is missing steps upwards, then no file is at its place. -/
  detour : ∀ file ∈ files, t.exists? file.1 = false → ".." ∈ file.1.names →
    t.lookup (t.placeOf file.1) = none ∨ t.lookup (t.placeOf file.1) = some .directory
  /-- The places of copies. -/
  copy : ∀ file ∈ files, t.exists? file.1 = false → S (t.placeOf (stagingPath file.1))
  /-- No file is a copy. -/
  side : ∀ file ∈ files, ¬S (t.placeOf file.1)
  /-- The places are different. -/
  nodup : (files.map fun file => t.placeOf file.1).Nodup

theorem Scattered.tail (h : Scattered S t (file :: files)) : Scattered S t files :=
  ⟨fun f hf => h.detour f (List.mem_cons_of_mem _ hf),
    fun f hf => h.copy f (List.mem_cons_of_mem _ hf),
    fun f hf => h.side f (List.mem_cons_of_mem _ hf), (List.nodup_cons.mp h.nodup).2⟩

theorem Scattered.ne (h : Scattered S t (file :: files)) {other : Path × Except ScaffoldFault String}
    (hother : other ∈ files) : t.placeOf file.1 ≠ t.placeOf other.1 := fun heq =>
  (List.nodup_cons.mp h.nodup).1 (List.mem_map.mpr ⟨other, hother, heq.symm⟩)

/-- One file being made does not touch another. -/
theorem Scattered.untouched (h : Scattered S t (file :: files))
    {other : Path × Except ScaffoldFault String} (hother : other ∈ files) :
    ¬(S (t.placeOf other.1) ∨ t.placeOf other.1 = t.placeOf file.1) := by
  rintro (hq | hq)
  · exact h.tail.side other hother hq
  · exact h.ne hother hq.symm

/-- When one file has been made, the others are scattered still. -/
theorem Scattered.after (h : Scattered S t (file :: files)) (hw : t.WellFormed)
    (hS : S (t.placeOf (stagingPath file.1))) (hone : Replaced t t₁ t₂ file.1 bytes) :
    Scattered S t₂ files := by
  have hspares := hone.spares hS
  have hplace := hspares.placeOf_eq
  obtain ⟨hdetour, hcopy, hside, hnodup⟩ := h.tail
  refine ⟨fun f hf hmissing hup => ?_, fun f hf hmissing => ?_, fun f hf => ?_, ?_⟩
  · rw [hplace, or_iff_not_imp_right]
    intro hdir
    rw [hspares.lookup_eq_of_ne (h.untouched hf) hdir]
    exact (hdetour f hf (hone.missing_before hw hS (hside f hf) hmissing) hup).resolve_right
      fun hbefore => hdir (hspares.directory _ hbefore)
  · rw [hplace]
    exact hcopy f hf (hone.missing_before hw hS (hside f hf) hmissing)
  · rw [hplace]
    exact hside f hf
  · simpa only [hplace] using hnodup

/-- When one file has been made, the others are missing still, unless a directory has come to be
in their place. -/
theorem Scattered.missing_after {other : Path × Except ScaffoldFault String}
    (h : Scattered S t (file :: files)) (hw : t.WellFormed)
    (hS : S (t.placeOf (stagingPath file.1))) (hone : Replaced t t₁ t₂ file.1 bytes)
    (hother : other ∈ files) (hmissing : t.exists? other.1 = false)
    (hfile : t₂.lookup (t.placeOf other.1) ≠ some .directory) : t₂.exists? other.1 = false := by
  rw [← Bool.not_eq_true]
  intro hthere
  have hspares := hone.spares hS
  have hnot := h.untouched hother
  have hne := lookup_of_exists? hspares.wellFormed hthere
  rw [hspares.placeOf_eq] at hne
  by_cases hup : ".." ∈ other.1.names
  · have heq := hspares.lookup_eq_of_ne hnot hfile
    rcases h.tail.detour other hother hmissing hup with hnone | hdir
    · exact hne (heq.trans hnone)
    · exact hfile (heq.trans hdir)
  · obtain ⟨hreach, heq⟩ := hspares.before hw hup hnot hthere hfile
    rw [heq, ← hreach.exists?_iff hw, hmissing] at hne
    cases hne

/-- **A file that was missing** has been written from its scaffold, unless a directory has come to
be in its place. It is a device if its copy was one. -/
theorem makeMissing_made (files : List (Path × Except ScaffoldFault String)) {made : List Path}
    (hw : t.WellFormed) (hscattered : Scattered S t files)
    (h : (makeMissing files).run t = (.ok made, t')) :
    ∀ file ∈ files, t.exists? file.1 = false →
      t'.lookup (t.placeOf file.1) ≠ some .directory → ∃ (text : String) (x : Option Disk.Entry),
        file.2 = .ok text ∧ t'.lookup (t.placeOf file.1) = Tree.writtenTo x text.toUTF8 := by
  induction files generalizing t made with
  | nil => simp
  | cons file files ih =>
    obtain ⟨p, scaffold⟩ := file
    intro other hother hmissing hfile
    cases hp : t.exists? p with
    | true =>
      rw [makeMissing_of_exists? hp] at h
      rcases List.mem_cons.mp hother with rfl | hother
      · rw [hp] at hmissing
        cases hmissing
      · exact ih hw hscattered.tail h other hother hmissing hfile
    | false =>
      cases scaffold with
      | error fault =>
        rw [makeMissing_of_fault hp] at h
        cases (Prod.mk.inj h).1
      | ok text =>
        have hS := hscattered.copy (p, .ok text) List.mem_cons_self hp
        obtain ⟨t₁, t₂, rest, hone, hrun⟩ := makeMissing_cons_ok hw hp h
        have hw₂ := hone.becomes.wellFormed
        have hplace := (hone.spares hS).placeOf_eq
        have hrest := hscattered.after hw hS hone
        obtain ⟨others, hmade, -⟩ := makeMissing_run (S := S) files t₂ hw₂
          fun file hfile hmissing =>
            hrest.copy file hfile (hmissing.resolve_right (hrest.side file hfile))
        rw [hrun] at hmade
        rcases List.mem_cons.mp hother with rfl | hother
        -- The others leave the first file alone.
        · refine ⟨text, t₁.lookup (t.placeOf (stagingPath p)), rfl, ?_⟩
          rw [hmade.lookup_first hS hone (hscattered.side _ List.mem_cons_self), hone.lookup]
          intro m hm
          have hne := hscattered.ne (hmade.order.subset (List.mem_map_of_mem hm))
          exact hne
        · have hkey := ih hw₂ hrest hrun other hother
          rw [hplace] at hkey
          refine hkey (hscattered.missing_after hw hS hone hother hmissing ?_) hfile
          exact fun hdir => hfile (hmade.spares.directory _ hdir)

end Made

/-! ### Artifacts that were replaced -/

section Replaced

variable {t t' : Tree} {a : PlannedArtifact} {artifacts : List PlannedArtifact}
  {outcomes : List Outcome}

/-- The tree in which a plan has been staged, at different places, before it is committed. -/
structure StagedFor (t t₁ : Tree) (artifacts : List PlannedArtifact) : Prop where
  /-- Nothing but copies has been touched. -/
  spares : Tree.Spares (Transaction.IsCopy t (filesOf artifacts)) t t₁
  /-- Every copy has the new content. -/
  copy : ∀ a ∈ artifacts, t₁.lookup (t.placeOf (stagingPath a.path)) =
    Tree.writtenTo (t.lookup (t.placeOf (stagingPath a.path))) a.merged.toUTF8
  /-- The copies do not interfere. -/
  layout : Transaction.Layout t₁ ((filesOf artifacts).map Transaction.stagedOf)

/-- **A plan that was written** has been staged and committed. -/
theorem committed_of_writePlan (hw : t.WellFormed)
    (hnodup : (Transaction.placesOf t (filesOf artifacts)).Nodup)
    (h : (writePlan false artifacts).run t = (.ok outcomes, t')) :
    ∃ t₁, StagedFor t t₁ artifacts ∧
      outcomes = ((filesOf artifacts).map Transaction.stagedOf).map (Transaction.outcomeOf t₁) ∧
      Transaction.Committed t₁ ((filesOf artifacts).map Transaction.stagedOf) t' := by
  obtain ⟨x, t₁, hstage, hcommit⟩ := Program.run_bind_ok h fun _ _ => rfl
  rw [Transaction.stageAll_eq] at hstage
  obtain ⟨rfl, hspares, hreach, hlast⟩ :=
    Transaction.stageEach_ok (filesOf artifacts) (.new false) t hw rfl hstage
  have hplace := hspares.placeOf_eq
  have hcopies : ∀ file ∈ filesOf artifacts, t₁.lookup (t.placeOf (stagingPath file.1)) =
      Tree.writtenTo (t.lookup (t.placeOf (stagingPath file.1))) file.2 := fun file hfile =>
    hlast _ _ (Transaction.lastStaged?_of_nodup hnodup hfile)
  have hL : Transaction.Layout t₁ ((filesOf artifacts).map Transaction.stagedOf) := by
    refine Transaction.layout_of_nodup ?_ (fun file hfile => ?_)
      fun file hfile _ => hreach file hfile
    · simpa only [Transaction.placesOf, hplace] using hnodup
    · rw [hplace, hcopies file hfile]
      exact Tree.writtenTo_ne_directory
  simp only [Transaction.new, List.nil_append] at hcommit
  have hfinished := Transaction.commit_run (x := ⟨false, (filesOf artifacts).map
    Transaction.stagedOf, []⟩) hspares.wellFormed rfl hL
  rw [hcommit] at hfinished
  cases hfinished with
  | committed hcommitted =>
    refine ⟨t₁, ⟨hspares, fun a ha => ?_, hL⟩, rfl, hcommitted⟩
    exact hcopies (a.path, a.merged.toUTF8) (mem_filesOf ha)

/-- What has become of an artifact that a run has replaced, wherever it was. -/
structure Disk.Tree.Rewritten (t t' : Tree) (a : PlannedArtifact) : Prop where
  /-- There was no directory at the copy. -/
  copy : t.lookup (t.placeOf (stagingPath a.path)) ≠ some .directory
  /-- A file with the right digest is left alone. -/
  kept : t.Matches a.path a.merged.toUTF8 → t'.read a.path = t.read a.path
  /-- Any other file has the new content, which is lost if its copy was a device. -/
  written : ¬t.Matches a.path a.merged.toUTF8 → t'.read a.path = .ok a.merged.toUTF8 ∨
    t.lookup (t.placeOf (stagingPath a.path)) = some .device ∧ t'.read a.path = .ok .empty
  /-- No copy is left. -/
  gone : t'.lookup (t.placeOf (stagingPath a.path)) = none

/-- A file that is read has the digest of some bytes if what is read has. -/
theorem Disk.Tree.matches_iff {p : Path} {bytes old : ByteArray} (hw : t.WellFormed)
    (hread : t.read p = .ok old) : t.Matches p bytes ↔ digest old = digest bytes := by
  rw [Matches, (hw.read_ok_iff.mp hread).2, Option.map_some, Option.some.injEq]

/-- Staging does not touch the artifacts. -/
theorem StagedFor.read_eq {t₁ : Tree} {old : ByteArray} (h : StagedFor t t₁ artifacts)
    (hw : t.WellFormed) (ha : a ∈ artifacts) (hold : t.read a.path = .ok old) :
    t₁.read a.path = .ok old := by
  refine h.spares.read_after hw ?_ hold
  rintro ⟨file, hfile, heq⟩
  rw [← h.spares.placeOf_eq, ← h.spares.placeOf_eq] at heq
  exact h.layout.copies _ (List.mem_map_of_mem (mem_filesOf ha)) _ (List.mem_map_of_mem hfile) heq

/-- An artifact that was staged is current if it was before. -/
theorem StagedFor.isCurrent_iff {t₁ : Tree} {old : ByteArray} (h : StagedFor t t₁ artifacts)
    (hw : t.WellFormed) (ha : a ∈ artifacts) (hold : t.read a.path = .ok old) :
    (Transaction.stagedOf (a.path, a.merged.toUTF8)).isCurrent t₁ = true ↔
      t.Matches a.path a.merged.toUTF8 := by
  have hold₁ := h.read_eq hw ha hold
  rw [Staged.isCurrent_iff, Tree.matches_iff hw hold]
  constructor
  · rintro ⟨bytes, hbytes, hdigest⟩
    obtain rfl : old = bytes := Except.ok.inj (hold₁.symm.trans hbytes)
    exact hdigest
  · exact fun hdigest => ⟨old, hold₁, hdigest⟩

/-- **What has become of the artifacts** when they were there and have been replaced. -/
theorem writePlan_ok (hw : t.WellFormed)
    (hnodup : (Transaction.placesOf t (filesOf artifacts)).Nodup)
    (hread : ∀ a ∈ artifacts, ∃ bytes, t.read a.path = .ok bytes)
    (h : (writePlan false artifacts).run t = (.ok outcomes, t')) :
    outcomes = artifacts.map t.refreshOutcome ∧ t'.WellFormed ∧
      t'.workingDirectory = t.workingDirectory ∧ ∀ a ∈ artifacts, t.Rewritten t' a := by
  obtain ⟨t₁, hstaged, rfl, hcommitted⟩ := committed_of_writePlan hw hnodup h
  have hw₁ := hstaged.spares.wellFormed
  have hplace := hstaged.spares.placeOf_eq
  have hw' := hcommitted.wellFormed
  have hplace' := hcommitted.same.placeOf_eq
  refine ⟨?_, hw', hcommitted.same.workingDirectory.trans hstaged.spares.workingDirectory,
    fun a ha => ?_⟩
  · rw [filesOf, List.map_map, List.map_map]
    refine List.map_congr_left fun a ha => ?_
    obtain ⟨old, hold⟩ := hread a ha
    simp only [Function.comp, Transaction.outcomeOf, Tree.refreshOutcome,
      hstaged.isCurrent_iff hw ha hold]
    rfl
  · obtain ⟨old, hold⟩ := hread a ha
    have hs := List.mem_map_of_mem (f := Transaction.stagedOf) (mem_filesOf ha)
    have hcurrent := hstaged.isCurrent_iff hw ha hold
    obtain ⟨hreach₁, hbytes₁⟩ := hw₁.read_ok_iff.mp (hstaged.read_eq hw ha hold)
    have hreach' := hcommitted.same.reaches hreach₁
    -- A copy is never staged over a directory. What is current is kept, and the rest is what its
    -- copy was.
    refine ⟨fun hdir => ?_, fun hmatches => ?_, fun hmatches => ?_, ?_⟩
    · have hcopy := hstaged.copy a ha
      rw [hstaged.spares.directory _ hdir] at hcopy
      exact Tree.writtenTo_ne_directory hcopy.symm
    · have hkept := (hcommitted.kept hstaged.layout hs (hcurrent.mpr hmatches)).1
      replace hkept : t'.lookup (t₁.placeOf a.path) = t₁.lookup (t₁.placeOf a.path) := hkept
      rw [hold, hw'.read_ok_iff, hplace', hkept]
      exact ⟨hreach', hbytes₁⟩
    · have htarget := hcommitted.target _ hs (Bool.not_eq_true _ ▸ mt hcurrent.mp hmatches)
      replace htarget : t'.lookup (t₁.placeOf a.path) =
          t₁.lookup (t₁.placeOf (stagingPath a.path)) := htarget
      rw [hplace (stagingPath a.path), hstaged.copy a ha] at htarget
      simp only [hw'.read_ok_iff, hplace', htarget]
      by_cases hdevice : t.lookup (t.placeOf (stagingPath a.path)) = some .device
      · rw [hdevice]
        exact Or.inr ⟨rfl, hreach', rfl⟩
      · rw [Tree.writtenTo_of_ne_device hdevice]
        exact Or.inl ⟨hreach', rfl⟩
    · have hgone := hcommitted.copy _ hs
      replace hgone : t'.lookup (t₁.placeOf (stagingPath a.path)) = none := hgone
      rwa [hplace] at hgone

end Replaced

/-! ### Published files -/

section Published

variable {t : Tree} {files : List (Path × Path)}

/-- The place of a file that is published, or of its copy. -/
def IsPublished (t : Tree) (files : List (Path × Path)) (q : Place) : Prop :=
  ∃ file ∈ files, q = t.placeOf file.2 ∨ q = t.placeOf (stagingPath file.2)

/-- Publishing one file spares all else. -/
theorem publishFile_spares (file : Path × Path) (hw : t.WellFormed) :
    Tree.Spares (IsPublished t [file]) t ((publishFile file.1 file.2).run t).2 := by
  have hone := publishFile_run file hw
  generalize (publishFile file.1 file.2).run t = answer at hone ⊢
  obtain ⟨result, t'⟩ := answer
  cases hone with
  | unchanged => exact hw.spares_self
  | written _ _ hone =>
    refine (hone.spares (S := (· = t.placeOf (stagingPath file.2))) rfl).mono ?_
    rintro q (hq | hq)
    · exact ⟨file, by simp, Or.inr hq⟩
    · exact ⟨file, by simp, Or.inl hq⟩
  | failed _ hspares => exact hspares.mono fun q hq => ⟨file, by simp, Or.inr hq⟩

/-- **Publishing spares all else**, whether it succeeds or fails. -/
theorem publishAll_spares (files : List (Path × Path)) (hw : t.WellFormed) :
    Tree.Spares (IsPublished t files) t ((publishAll files).run t).2 := by
  induction files generalizing t with
  | nil => exact hw.spares_self
  | cons file files ih =>
    have hfirst := publishFile_spares file hw
    rw [publishAll_cons_eq]
    generalize (publishFile file.1 file.2).run t = answer at hfirst ⊢
    replace hfirst : Tree.Spares (IsPublished t (file :: files)) t answer.2 := by
      refine hfirst.mono ?_
      rintro q ⟨f, hf, hq⟩
      obtain rfl := List.mem_singleton.mp hf
      exact ⟨f, List.mem_cons_self, hq⟩
    obtain ⟨_ | outcome, t₁⟩ := answer
    · exact hfirst
    · refine hfirst.trans ((ih hfirst.wellFormed).mono ?_)
      rintro q ⟨f, hf, hq⟩
      simp only [hfirst.placeOf_eq] at hq
      exact ⟨f, List.mem_cons_of_mem _ hf, hq⟩

end Published

/-! ### Files at different places -/

/-- The files that a run works on, their copies and their backups are at different places. -/
structure Config.Distinct (config : Config) (t : Tree) : Prop where
  /-- No path steps upwards. -/
  plain : ∀ p ∈ config.tracked, ".." ∉ p.names
  /-- The places are different. -/
  nodup : ((sidesOf config.tracked).map t.placeOf).Nodup

/-- The same, where a path may step upwards if it makes no detour. -/
structure Config.Parted (config : Config) (t : Tree) : Prop where
  /-- No path makes a detour. -/
  noDetour : config.NoDetour t
  /-- The places are different. -/
  nodup : ((sidesOf config.tracked).map t.placeOf).Nodup

section Parted

variable {config : Config} {t : Tree} {artifacts : List PlannedArtifact}

theorem Config.paths_subset_tracked : config.paths ⊆ config.tracked :=
  List.subset_append_left _ _

theorem Config.Distinct.parted (h : config.Distinct t) : config.Parted t :=
  ⟨fun p hp _ hup => absurd hup (h.plain p (paths_subset_tracked hp)), h.nodup⟩

theorem Config.Parted.nodup_tracked (h : config.Parted t) :
    (config.tracked.map t.placeOf).Nodup :=
  h.nodup.sublist ((sublist_sidesOf _).map _)

/-- No file is the copy of another. -/
theorem Config.Parted.copy (h : config.Parted t) : ∀ p ∈ config.paths, ∀ p' ∈ config.paths,
    t.placeOf p ≠ t.placeOf (stagingPath p') := fun _ hp _ hp' =>
  (Tree.ne_sides_of_nodup h.nodup (paths_subset_tracked hp) (paths_subset_tracked hp')).1

theorem placesOf_eq (t : Tree) (files : List (Path × ByteArray)) :
    Transaction.placesOf t files = (sidesOf (files.map (·.1))).map t.placeOf := by
  simp [Transaction.placesOf, sidesOf, List.map_flatMap, List.flatMap_map]

/-- The places of artifacts are different. -/
theorem Config.Parted.placesOf (h : config.Parted t)
    (hpaths : artifacts.map (·.path) = config.configured.map (·.2)) :
    (Transaction.placesOf t (filesOf artifacts)).Nodup := by
  have hfiles : (filesOf artifacts).map (·.1) = config.configured.map (·.2) := by
    rw [← hpaths, filesOf, List.map_map]
    rfl
  rw [placesOf_eq, hfiles]
  refine h.nodup.sublist (List.Sublist.map _ (List.Sublist.flatMap ?_ _))
  exact (List.sublist_cons_self _ _).trans (List.sublist_append_left _ _)

/-- No file that a run starts from is published, or is the copy of one that is. -/
theorem Config.Parted.not_isPublished (h : config.Parted t) {p : Path}
    (hp : p ∈ config.paths) : ¬IsPublished t config.publishedFiles (t.placeOf p) := by
  have htracked := paths_subset_tracked hp
  rintro ⟨file, hfile, heq | heq⟩
  · have hdisjoint := (List.nodup_append.mp (List.map_append ▸ h.nodup_tracked :
      (config.paths.map t.placeOf ++ (config.publishedFiles.map (·.2)).map t.placeOf).Nodup)).2.2
    refine hdisjoint _ (List.mem_map_of_mem hp) _ ?_ heq
    exact List.mem_map_of_mem (List.mem_map_of_mem hfile)
  · exact (Tree.ne_sides_of_nodup h.nodup htracked (target_mem_tracked hfile)).1 heq

end Parted

/-! ### The parts of a run that has succeeded -/

/-- **A run that has succeeded**, part by part. The missing files are made in `t₁`, and the
artifacts are replaced in `t₂`. -/
structure Succeeded (config : Config) (t t₁ t₂ t' : Tree) (s : Scaffolds) (made : List Path)
    (p : Plan) (outcomes published : List Outcome) : Prop where
  /-- Templates were loaded. -/
  load : (Scaffolds.load config).run t = (.ok s, t)
  /-- What was missing was made. -/
  ensure : (Packetry.ensure s).run t = (.ok made, t₁)
  /-- The artifacts were planned. -/
  plan : (Packetry.plan s).run t₁ = (.ok p, t₁)
  /-- They were replaced. -/
  write : (writePlan false p.artifacts).run t₁ = (.ok outcomes, t₂)
  /-- Some of them were published. -/
  publish : (publishAll config.publishedFiles).run t₂ = (.ok published, t')

section Parts

variable {config : Config} {t t₁ t₂ t' : Tree} {s : Scaffolds} {made : List Path} {p : Plan}
  {outcomes published : List Outcome} {report : RunReport}

/-- **The parts of a run that has succeeded.** -/
theorem exists_parts (h : (generate config false).run t = (.ok report, t')) :
    ∃ (t₁ t₂ : Tree) (s : Scaffolds) (made : List Path) (p : Plan)
      (outcomes published : List Outcome),
      Succeeded config t t₁ t₂ t' s made p outcomes published ∧
        report = reportOf made p outcomes published := by
  obtain ⟨s, t₀, hload, h₁⟩ := Program.run_bind_ok h fun _ _ => rfl
  obtain ⟨made, t₁, hensure, h₂⟩ := Program.run_bind_ok h₁ fun _ _ => rfl
  obtain ⟨p, t₂, hplan, h₃⟩ := Program.run_bind_ok h₂ fun _ _ => rfl
  obtain ⟨outcomes, t₃, hwrite, h₄⟩ := Program.run_bind_ok h₃ fun _ _ => rfl
  obtain ⟨published, t₄, hpublish, h₅⟩ := Program.run_bind_ok h₄ fun _ _ => rfl
  obtain rfl := config_of_load hload
  obtain rfl := (isReading_load s.config).eq_of_run hload
  obtain rfl := (isReading_plan s).eq_of_run hplan
  obtain ⟨hreport, rfl⟩ := Prod.mk.inj h₅
  rw [publishIfWanted_eq] at hpublish
  exact ⟨_, _, s, made, p, outcomes, published, ⟨hload, hensure, hplan, hwrite, hpublish⟩,
    (Except.ok.inj hreport).symm⟩

/-! ### Where the parts have found what they read -/

variable {file : Artifact × Path} {a : PlannedArtifact} {bytes : ByteArray}

/-- Making what was missing has spared all else, and all files are there then. -/
theorem Succeeded.spares (h : Succeeded config t t₁ t₂ t' s made p outcomes published)
    (hw : t.WellFormed) (hparted : config.Parted t) :
    Tree.Spares (config.IsMissing t) t t₁ ∧ ∀ p ∈ config.paths, t₁.exists? p = true := by
  obtain rfl := config_of_load h.load
  obtain ⟨hspares, hthere⟩ := ensure_spares hw hparted.noDetour hparted.copy
  rw [h.ensure] at hspares hthere
  exact ⟨hspares, hthere rfl⟩

/-- The plan, as it was made in the tree with all files. -/
theorem Succeeded.plans (h : Succeeded config t t₁ t₂ t' s made p outcomes published) :
    (loadValid config).run t₁ = (.ok p.packets, t₁) ∧
      List.Forall₂ (Plans s p.packets t₁) config.configured p.artifacts := by
  obtain rfl := config_of_load h.load
  exact (plan_ok h.plan).2

/-- A file that was there before the run has been read as it was. -/
theorem Succeeded.read_before (h : Succeeded config t t₁ t₂ t' s made p outcomes published)
    (hw : t.WellFormed) (hdistinct : config.Distinct t) {path : Path} (hpath : path ∈ config.paths)
    (hthere : t.exists? path = true) (hread : t₁.read path = .ok bytes) :
    t.read path = .ok bytes := by
  have hup := hdistinct.plain path (Config.paths_subset_tracked hpath)
  refine (h.spares hw hdistinct.parted).1.read_before hw hup ?_ hread
  rintro (⟨other, hother, -, heq⟩ | ⟨-, hnone⟩)
  · exact hdistinct.parted.copy path hpath other hother heq
  · exact lookup_of_exists? hw hthere hnone

/-- A file that was missing before the run has been made from its scaffold. -/
theorem Succeeded.scaffold_of_missing (h : Succeeded config t t₁ t₂ t' s made p outcomes published)
    (hw : t.WellFormed) (hparted : config.Parted t) (hfile : file ∈ config.configured)
    (hmissing : t.exists? file.2 = false) (hread : t₁.read file.2 = .ok bytes) :
    ∃ text, s.ofArtifact file.1 = .ok text ∧ (bytes = text.toUTF8 ∨ bytes = .empty) := by
  have hspares := (h.spares hw hparted).1
  obtain rfl := config_of_load h.load
  have hpath : ∀ file ∈ s.files, file.1 ∈ s.config.paths := fun file hfile =>
    map_files s ▸ List.mem_map_of_mem hfile
  -- The files of a run are apart, and none of them is at the place of a copy.
  have hscattered : Scattered (s.config.IsMissingCopy t) t s.files := by
    refine ⟨fun file hfile hmissing hup =>
        Or.inl (hparted.noDetour _ (hpath file hfile) hmissing hup),
      fun file hfile hmissing => ⟨file.1, hpath file hfile, hmissing, rfl⟩,
      fun file hfile => ?_, ?_⟩
    · rintro ⟨other, hother, -, heq⟩
      exact hparted.copy _ (hpath file hfile) other hother heq
    · have hnodup := hparted.nodup_tracked.sublist
        ((List.sublist_append_left s.config.paths _).map t.placeOf)
      rwa [← map_files, List.map_map] at hnodup
  have hbytes := (hspares.wellFormed.read_ok_iff.mp hread).2
  rw [hspares.placeOf_eq] at hbytes
  obtain ⟨text, x, htext, hnow⟩ := makeMissing_made s.files hw hscattered h.ensure
    (file.2, s.ofArtifact file.1) (List.mem_cons_of_mem _ (List.mem_map.mpr ⟨file, hfile, rfl⟩))
    hmissing (Tree.bytesOf_ne_none.mp (by rw [hbytes]; simp)).2
  replace hnow : t₁.lookup (t.placeOf file.2) = Tree.writtenTo x text.toUTF8 := hnow
  rw [hnow] at hbytes
  exact ⟨text, htext, (Tree.bytesOf_writtenTo x _).imp
    (fun heq => Option.some.inj (hbytes.symm.trans heq))
    fun heq => Option.some.inj (hbytes.symm.trans heq)⟩

/-- What has become of the artifacts. -/
theorem Config.Parted.rewritten (hparted : config.Parted t) (hw : t.WellFormed)
    (h : Succeeded config t t₁ t₂ t' s made p outcomes published) :
    outcomes = p.artifacts.map t₁.refreshOutcome ∧ t₂.WellFormed ∧
      t₂.workingDirectory = t.workingDirectory ∧ ∀ a ∈ p.artifacts, t₁.Rewritten t₂ a := by
  obtain ⟨hspares, hthere⟩ := h.spares hw hparted
  have hplans := h.plans.2
  have hnodup := hparted.placesOf (map_eq_of_forall₂ hplans fun _ _ hplan => hplan.eq.2)
  simp only [Transaction.placesOf, ← hspares.placeOf_eq] at hnodup
  obtain ⟨houtcomes, hw₂, hcwd, hall⟩ := writePlan_ok hspares.wellFormed hnodup (fun a ha => by
    obtain ⟨file, hfile, hplan⟩ := (forall₂_mem hplans).2 a ha
    exact ⟨_, hplan.read hspares.wellFormed (hthere _ (Config.path_mem_paths hfile))⟩) h.write
  exact ⟨houtcomes, hw₂, hcwd.trans hspares.workingDirectory, hall⟩

theorem Succeeded.rewritten (h : Succeeded config t t₁ t₂ t' s made p outcomes published)
    (hw : t.WellFormed) (hdistinct : config.Distinct t) :
    outcomes = p.artifacts.map t₁.refreshOutcome ∧ t₂.WellFormed ∧
      t₂.workingDirectory = t.workingDirectory ∧ ∀ a ∈ p.artifacts, t₁.Rewritten t₂ a :=
  hdistinct.parted.rewritten hw h

/-- The path of an artifact that was missing before the run was open. -/
theorem Succeeded.isOpen_of_missing (h : Succeeded config t t₁ t₂ t' s made p outcomes published)
    (hw : t.WellFormed) (hcwd : t.lookup t.workingDirectory = some .directory)
    (hdistinct : config.Distinct t) (hschema : t.exists? config.schemaPath = true)
    (hfile : file ∈ config.configured) (hread : t₁.read file.2 = .ok bytes) :
    t.IsOpen file.2 := by
  have hspares := (h.spares hw hdistinct.parted).1
  have hpath := Config.path_mem_paths hfile
  refine hspares.isOpen_before (hspares.wellFormed.read_ok_iff.mp hread).1
    (hdistinct.plain _ (Config.paths_subset_tracked hpath)) ?_ ?_
  · unfold Tree.base
    split
    · rfl
    · exact hcwd
  -- No copy has become a directory, since artifacts could be staged there.
  · rintro q (⟨other, hother, hmissing, rfl⟩ | ⟨-, hnone⟩) hdir
    · rcases List.mem_cons.mp hother with rfl | hother
      · rw [hschema] at hmissing
        cases hmissing
      · obtain ⟨file', hfile', rfl⟩ := List.mem_map.mp hother
        obtain ⟨a, ha, hplan⟩ := (forall₂_mem h.plans.2).1 file' hfile'
        refine absurd ?_ ((h.rewritten hw hdistinct).2.2.2 a ha).copy
        rw [hplan.eq.2, hspares.placeOf_eq, hdir]
    · exact Or.inl hnone

/-- What publishing leaves of the artifacts. -/
theorem Succeeded.read_after (h : Succeeded config t t₁ t₂ t' s made p outcomes published)
    (hw : t.WellFormed) (hparted : config.Parted t) {path : Path} (hpath : path ∈ config.paths)
    (hread : t₂.read path = .ok bytes) : t'.read path = .ok bytes := by
  obtain ⟨-, hw₂, hcwd, -⟩ := hparted.rewritten hw h
  have hpublished := publishAll_spares config.publishedFiles hw₂
  rw [h.publish] at hpublished
  refine hpublished.read_after hw₂ ?_ hread
  have hnot := hparted.not_isPublished hpath
  simpa only [IsPublished, Tree.placeOf_congr hcwd] using hnot

end Parts

end Packetry
