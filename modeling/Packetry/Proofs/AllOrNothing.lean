import Packetry.Proofs.Commit
import Packetry.Proofs.Staging

/-!
# All or nothing

Some contents are staged, and then the transaction is committed. Between the two, anything may
happen to the disk, except that a copy can only be deleted. The commit then replaces all
targets or none of them (`Packetry.Transaction.commit_all_or_nothing`), provided that the
places of the targets, the copies and the backups are different.

Two things have to be said about copies. A copy is found by its path, and a path such as `d/../y`
leads nowhere once `d` is gone, so that a copy that is there but out of reach is left where it is.
And what is staged is lost if a special file is at the place of the copy. The commit takes it for
the copy, and it becomes the target (both in `Packetry.Transaction.commit_leaves_copy_and_device`).
-/

namespace Packetry.Transaction

open Disk

variable {t₀ t₁ t₂ t₃ : Tree} {x : Transaction} {files : List (Path × ByteArray)}
  {file other : Path × ByteArray}

/-! ### Different places -/

/-- The places of the targets, the copies and the backups of some files. -/
def placesOf (t : Tree) (files : List (Path × ByteArray)) : List Place :=
  files.flatMap fun file =>
    [t.placeOf file.1, t.placeOf (stagingPath file.1), t.placeOf (backupPath file.1)]

theorem mem_placesOf {q : Place} : q ∈ placesOf t₀ files ↔ ∃ file ∈ files,
    q = t₀.placeOf file.1 ∨ q = t₀.placeOf (stagingPath file.1) ∨
      q = t₀.placeOf (backupPath file.1) := by
  simp [placesOf]

/-- If all places are different, then the places of two files have nothing in common. -/
theorem eq_or_disjoint (h : (placesOf t₀ files).Nodup) (hfile : file ∈ files)
    (hother : other ∈ files) :
    file = other ∨ List.Disjoint (placesOf t₀ [file]) (placesOf t₀ [other]) := by
  refine (eq_or_disjoint_of_nodup h hfile hother).imp_right fun hdisjoint => ?_
  simpa only [placesOf, List.flatMap_singleton] using hdisjoint

/-- The places of one file are different. -/
theorem nodup_placesOf (h : (placesOf t₀ files).Nodup) (hfile : file ∈ files) :
    t₀.placeOf file.1 ≠ t₀.placeOf (stagingPath file.1) ∧
      t₀.placeOf file.1 ≠ t₀.placeOf (backupPath file.1) ∧
      t₀.placeOf (stagingPath file.1) ≠ t₀.placeOf (backupPath file.1) := by
  have hone := (List.nodup_flatMap.mp h).1 file hfile
  simp only [List.nodup_cons, List.mem_cons, List.not_mem_nil, or_false, not_or] at hone
  exact ⟨hone.1.1, hone.1.2, hone.2.1⟩

@[simp] theorem target_mem_placesOf : t₀.placeOf file.1 ∈ placesOf t₀ [file] := by
  simp [placesOf]

@[simp] theorem copy_mem_placesOf : t₀.placeOf (stagingPath file.1) ∈ placesOf t₀ [file] := by
  simp [placesOf]

@[simp] theorem backup_mem_placesOf : t₀.placeOf (backupPath file.1) ∈ placesOf t₀ [file] := by
  simp [placesOf]

/-! ### What happens before the commit -/

/-- Between staging and the commit, copies were deleted or left alone. Nothing is said of other
places. -/
structure Disturbed (t₁ t₂ : Tree) (files : List (Path × ByteArray)) : Prop where
  /-- The tree is well formed. -/
  wellFormed : t₂.WellFormed
  /-- The working directory is the same. -/
  workingDirectory : t₂.workingDirectory = t₁.workingDirectory
  /-- A copy is what it was, or is gone. -/
  copy : ∀ file ∈ files, t₂.lookup (t₁.placeOf (stagingPath file.1)) =
    t₁.lookup (t₁.placeOf (stagingPath file.1)) ∨
      t₂.lookup (t₁.placeOf (stagingPath file.1)) = none

/-- Paths that step upwards lead to their copies, if these are there. Other paths do so
anyway. -/
def WithinReach (t₂ : Tree) (files : List (Path × ByteArray)) : Prop :=
  ∀ file ∈ files, ".." ∈ (stagingPath file.1).names →
    t₂.lookup (t₂.placeOf (stagingPath file.1)) ≠ none → t₂.Reaches (stagingPath file.1)

/-! ### What a commit achieves -/

/-- Every target has been replaced, or had the content already. -/
structure AllReplaced (t₀ t₂ t₃ : Tree) (files : List (Path × ByteArray))
    (outcomes : List Outcome) : Prop where
  /-- The outcomes come in the order of staging, and say which targets were current. -/
  outcomes : outcomes = files.map fun file => outcomeOf t₂ (stagedOf file)
  /-- A target has the content that was staged for it. It does not if it was left alone
  because of a collision of digests, or if the content was lost on a device. -/
  content : ∀ file ∈ files, t₃.read file.1 = .ok file.2 ∨
    t₀.lookup (t₀.placeOf (stagingPath file.1)) = some .device ∨
    ∃ bytes, bytes ≠ file.2 ∧ digest bytes = digest file.2 ∧ t₂.read file.1 = .ok bytes ∧
      t₃.read file.1 = .ok bytes
  /-- No copy is left. -/
  copy : ∀ file ∈ files, t₃.lookup (t₀.placeOf (stagingPath file.1)) = none
  /-- No backup is left that the commit has made. -/
  backup : ∀ file ∈ files, t₃.lookup (t₀.placeOf (backupPath file.1)) =
    if (stagedOf file).isCurrent t₂ = false ∧ t₂.lookup (t₀.placeOf file.1) ≠ none then none
    else t₂.lookup (t₀.placeOf (backupPath file.1))

/-- No target has been replaced. -/
structure NoneReplaced (t₀ t₂ t₃ : Tree) (files : List (Path × ByteArray)) : Prop where
  /-- A target is what it was. -/
  target : ∀ file ∈ files, t₃.lookup (t₀.placeOf file.1) = t₂.lookup (t₀.placeOf file.1)
  /-- No copy is left. -/
  copy : ∀ file ∈ files, t₃.lookup (t₀.placeOf (stagingPath file.1)) = none
  /-- What is at the place of a backup was there before. -/
  backup : ∀ file ∈ files, t₃.lookup (t₀.placeOf (backupPath file.1)) = none ∨
    t₃.lookup (t₀.placeOf (backupPath file.1)) = t₂.lookup (t₀.placeOf (backupPath file.1))

/-- What a commit achieves, by its result. -/
def Achieved (t₀ t₂ t₃ : Tree) (files : List (Path × ByteArray)) :
    Except WriteFailure (List Outcome) → Prop
  | .ok outcomes => AllReplaced t₀ t₂ t₃ files outcomes
  | .error _ => NoneReplaced t₀ t₂ t₃ files

/-! ### Main theorem -/

/-- With different places, what is staged last for a file is all that is staged for it. -/
theorem lastStaged?_of_nodup (h : (placesOf t₀ files).Nodup) (hfile : file ∈ files) :
    lastStaged? t₀ files (t₀.placeOf (stagingPath file.1)) = some file.2 := by
  obtain ⟨bytes, hlast⟩ := Option.ne_none_iff_exists'.mp (lastStaged?_ne_none (t := t₀) hfile)
  obtain ⟨other, hfind, rfl⟩ := Option.map_eq_some_iff.mp hlast
  have hother : other ∈ files := List.mem_reverse.mp (List.mem_of_find?_eq_some hfind)
  have hplace : t₀.placeOf (stagingPath other.1) = t₀.placeOf (stagingPath file.1) := by
    simpa using List.find?_some hfind
  rcases eq_or_disjoint h hother hfile with rfl | hdisjoint
  · exact hlast
  · exact absurd copy_mem_placesOf (hdisjoint (hplace ▸ copy_mem_placesOf))

/-- Staged copies do not interfere if the places of each are different, and if those of copies for
different targets have nothing in common. -/
theorem layout_of_disjoint
    (hown : ∀ file ∈ files, t₂.placeOf file.1 ≠ t₂.placeOf (stagingPath file.1) ∧
      t₂.placeOf file.1 ≠ t₂.placeOf (backupPath file.1) ∧
      t₂.placeOf (stagingPath file.1) ≠ t₂.placeOf (backupPath file.1))
    (hother : ∀ a ∈ files, ∀ b ∈ files,
      a.1 = b.1 ∨ List.Disjoint (placesOf t₂ [a]) (placesOf t₂ [b]))
    (hfile : ∀ file ∈ files, t₂.lookup (t₂.placeOf (stagingPath file.1)) ≠ some .directory)
    (hreach : ∀ file ∈ files, t₂.lookup (t₂.placeOf (stagingPath file.1)) ≠ none →
      t₂.Reaches (stagingPath file.1)) : Layout t₂ (files.map stagedOf) := by
  have hmem : ∀ {P : Staged → Prop}, (∀ file ∈ files, P (stagedOf file)) →
      ∀ s ∈ files.map stagedOf, P s := by
    intro P hP s hs
    obtain ⟨file, hfile, rfl⟩ := List.mem_map.mp hs
    exact hP file hfile
  refine ⟨hmem fun a ha => hmem fun b hb => ?_, hmem fun a ha => hmem fun b hb => ?_,
    hmem fun a ha => hmem fun b hb => ?_, hmem fun a ha => hmem fun b hb => ?_,
    hmem fun a ha => hmem fun b hb => ?_, hmem hfile, hmem hreach⟩ <;>
    rcases hother a ha b hb with heq | hdisjoint
  -- No target is a copy.
  · change t₂.placeOf a.1 ≠ t₂.placeOf (stagingPath b.1)
    exact heq ▸ (hown a ha).1
  · exact fun heq => hdisjoint target_mem_placesOf (heq ▸ copy_mem_placesOf)
  -- No target is a backup.
  · change t₂.placeOf a.1 ≠ t₂.placeOf (backupPath b.1)
    exact heq ▸ (hown a ha).2.1
  · exact fun heq => hdisjoint target_mem_placesOf (heq ▸ backup_mem_placesOf)
  -- No copy is a backup.
  · change t₂.placeOf (stagingPath a.1) ≠ t₂.placeOf (backupPath b.1)
    exact heq ▸ (hown a ha).2.2
  · exact fun heq => hdisjoint copy_mem_placesOf (heq ▸ backup_mem_placesOf)
  -- Copies are different if their targets are.
  · change t₂.placeOf (stagingPath a.1) = t₂.placeOf (stagingPath b.1) ↔
      t₂.placeOf a.1 = t₂.placeOf b.1
    simp only [heq]
  · exact Iff.intro (fun heq => absurd (heq ▸ copy_mem_placesOf) (hdisjoint copy_mem_placesOf))
      fun heq => absurd (heq ▸ target_mem_placesOf) (hdisjoint target_mem_placesOf)
  -- Backups are different if their targets are.
  · change t₂.placeOf (backupPath a.1) = t₂.placeOf (backupPath b.1) ↔
      t₂.placeOf a.1 = t₂.placeOf b.1
    simp only [heq]
  · exact Iff.intro
      (fun heq => absurd (heq ▸ backup_mem_placesOf) (hdisjoint backup_mem_placesOf))
      fun heq => absurd (heq ▸ target_mem_placesOf) (hdisjoint target_mem_placesOf)

/-- Staged copies at different places do not interfere. -/
theorem layout_of_nodup (h : (placesOf t₂ files).Nodup)
    (hfile : ∀ file ∈ files, t₂.lookup (t₂.placeOf (stagingPath file.1)) ≠ some .directory)
    (hreach : ∀ file ∈ files, t₂.lookup (t₂.placeOf (stagingPath file.1)) ≠ none →
      t₂.Reaches (stagingPath file.1)) : Layout t₂ (files.map stagedOf) :=
  layout_of_disjoint (fun _ => nodup_placesOf h)
    (fun _ ha _ hb => (eq_or_disjoint h ha hb).imp_left (congrArg Prod.fst)) hfile hreach

/-- What is left of the copies when a commit starts. -/
theorem Disturbed.lookup_copy (h : Disturbed t₁ t₂ files) (hwithin : WithinReach t₂ files)
    (hw : t₀.WellFormed) (hstage : (stageEach (.new false) files).run t₀ = (.ok x, t₁))
    (hnodup : (placesOf t₀ files).Nodup) (hfile : file ∈ files)
    (hthere : t₂.lookup (t₀.placeOf (stagingPath file.1)) ≠ none) :
    t₂.Reaches (stagingPath file.1) ∧ t₂.lookup (t₀.placeOf (stagingPath file.1)) =
      Tree.writtenTo (t₀.lookup (t₀.placeOf (stagingPath file.1))) file.2 := by
  obtain ⟨-, hspares, hreach, hlast⟩ := stageEach_ok files (.new false) t₀ hw rfl hstage
  have hplace := hspares.placeOf_eq
  have hcopy := h.copy file hfile
  have hcwd : t₂.placeOf (stagingPath file.1) = t₀.placeOf (stagingPath file.1) := by
    rw [Tree.placeOf_congr h.workingDirectory, hplace]
  rw [hplace] at hcopy
  refine ⟨?_, ?_⟩
  · by_cases hup : ".." ∈ (stagingPath file.1).names
    · exact hwithin file hfile hup (by rwa [hcwd])
    · exact (hreach file hfile).of_plain hup h.wellFormed (by rwa [hcwd])
  · rw [hcopy.resolve_right hthere, hlast _ _ (lastStaged?_of_nodup hnodup hfile)]

/-- With different places, the targets are different. -/
theorem pairwise_of_nodup (h : (placesOf t₂ files).Nodup) :
    (files.map stagedOf).Pairwise fun s u => t₂.placeOf s.target ≠ t₂.placeOf u.target := by
  rw [List.pairwise_map]
  refine (List.nodup_flatMap.mp h).2.imp fun {a b} hdisjoint heq => ?_
  have hmem : t₂.placeOf a.1 ∈ [t₂.placeOf b.1, t₂.placeOf (stagingPath b.1),
      t₂.placeOf (backupPath b.1)] := by
    rw [show t₂.placeOf a.1 = t₂.placeOf b.1 from heq]
    simp
  exact hdisjoint (by simp) hmem

theorem isSide_map {q : Place} (h : IsSide t₂ (files.map stagedOf) q) : q ∈ placesOf t₂ files := by
  obtain ⟨s, hs, hq⟩ := h
  obtain ⟨file, hfile, rfl⟩ := List.mem_map.mp hs
  exact mem_placesOf.mpr ⟨file, hfile, Or.inr hq⟩

/-- With different places, a copy that is committed touches the places of its own file only. -/
theorem eq_of_isTouched {q : Place} (h : (placesOf t₂ files).Nodup) (hfile : file ∈ files)
    (hother : other ∈ files) (hq : q ∈ placesOf t₂ [file])
    (htouched : IsTouched t₂ (stagedOf other) q) : file = other := by
  rcases eq_or_disjoint h hfile hother with heq | hdisjoint
  · exact heq
  · refine absurd ?_ (hdisjoint hq)
    rcases htouched with rfl | ⟨-, rfl | ⟨-, rfl⟩⟩
    · exact copy_mem_placesOf
    · exact target_mem_placesOf
    · exact backup_mem_placesOf

section Committed

variable (h : Committed t₂ (files.map stagedOf) t₃) (hnodup : (placesOf t₂ files).Nodup)
  (hfile : file ∈ files)

include h hnodup hfile

/-- A place of one file is touched by the commit of that file only. -/
theorem Committed.untouched {q : Place} (hq : q ∈ placesOf t₂ [file])
    (hnot : ¬IsTouched t₂ (stagedOf file) q) : t₃.lookup q = t₂.lookup q := by
  refine h.other q fun s hs htouched => ?_
  obtain ⟨other, hother, rfl⟩ := List.mem_map.mp hs
  exact hnot (eq_of_isTouched hnodup hfile hother hq htouched ▸ htouched)

/-- A target that is current is not replaced, even when its digest alone is the same. -/
theorem Committed.read_of_isCurrent (hw : t₂.WellFormed)
    (hcurrent : (stagedOf file).isCurrent t₂ = true) :
    ∃ bytes, digest bytes = digest file.2 ∧ t₂.read file.1 = .ok bytes ∧
      t₃.read file.1 = .ok bytes := by
  obtain ⟨bytes, hread, hdigest⟩ := Staged.isCurrent_iff.mp hcurrent
  have htarget : t₃.lookup (t₂.placeOf file.1) = t₂.lookup (t₂.placeOf file.1) := by
    refine h.untouched hnodup hfile target_mem_placesOf ?_
    rintro (heq | ⟨hfalse, -⟩)
    · exact (nodup_placesOf hnodup hfile).1 heq
    · rw [hcurrent] at hfalse
      cases hfalse
  obtain ⟨hreach, hbytes⟩ := hw.read_ok_iff.mp hread
  refine ⟨bytes, hdigest, hread, ?_⟩
  rw [h.wellFormed.read_ok_iff, h.same.placeOf_eq, htarget]
  exact ⟨h.same.reaches hreach, hbytes⟩

omit hnodup in
/-- Any other target is what its copy was, and the copy is what was staged. -/
theorem Committed.read_of_replaced (hcurrent : (stagedOf file).isCurrent t₂ = false)
    (hcopy : t₂.lookup (t₂.placeOf (stagingPath file.1)) ≠ none →
      t₂.lookup (t₂.placeOf (stagingPath file.1)) =
        Tree.writtenTo (t₀.lookup (t₂.placeOf (stagingPath file.1))) file.2) :
    t₃.read file.1 = .ok file.2 ∨
      t₀.lookup (t₂.placeOf (stagingPath file.1)) = some .device := by
  have hmem : stagedOf file ∈ files.map stagedOf := List.mem_map_of_mem hfile
  have hswappable := h.swappable (stagedOf file) hmem hcurrent
  have hnow : t₃.lookup (t₂.placeOf file.1) =
      Tree.writtenTo (t₀.lookup (t₂.placeOf (stagingPath file.1))) file.2 :=
    (h.target (stagedOf file) hmem hcurrent).trans (hcopy hswappable.copy)
  refine or_iff_not_imp_right.mpr fun hdevice => ?_
  rw [h.wellFormed.read_ok_iff, h.same.placeOf_eq, hnow, Tree.writtenTo_of_ne_device hdevice]
  exact ⟨h.same.reaches hswappable.target, rfl⟩

/-- A backup is left only if it was there before, and the commit has not made it. -/
theorem Committed.lookup_backup : t₃.lookup (t₂.placeOf (backupPath file.1)) =
    if (stagedOf file).isCurrent t₂ = false ∧ t₂.lookup (t₂.placeOf file.1) ≠ none then none
    else t₂.lookup (t₂.placeOf (backupPath file.1)) := by
  split
  · rename_i hchanged
    exact h.backup (stagedOf file) (List.mem_map_of_mem hfile) hchanged.1 hchanged.2
  · rename_i hkept
    refine h.untouched hnodup hfile backup_mem_placesOf ?_
    rintro (heq | ⟨hcurrent, heq | ⟨hthere, -⟩⟩)
    · exact (nodup_placesOf hnodup hfile).2.2 heq.symm
    · exact (nodup_placesOf hnodup hfile).2.1 heq.symm
    · exact hkept ⟨hcurrent, hthere⟩

end Committed

/-- The achievement of a commit that succeeds. -/
theorem Committed.allReplaced (h : Committed t₂ (files.map stagedOf) t₃) (hw : t₂.WellFormed)
    (hnodup : (placesOf t₂ files).Nodup) (hplace : ∀ p, t₀.placeOf p = t₂.placeOf p)
    (hcopies : ∀ file ∈ files, t₂.lookup (t₂.placeOf (stagingPath file.1)) ≠ none →
      t₂.lookup (t₂.placeOf (stagingPath file.1)) =
        Tree.writtenTo (t₀.lookup (t₂.placeOf (stagingPath file.1))) file.2) :
    AllReplaced t₀ t₂ t₃ files ((files.map stagedOf).map (outcomeOf t₂)) := by
  refine ⟨by rw [List.map_map]; rfl, fun file hfile => ?content, fun file hfile => ?copy,
    fun file hfile => ?backup⟩
  case content =>
    rw [hplace]
    cases hcurrent : (stagedOf file).isCurrent t₂ with
    | true =>
      obtain ⟨bytes, hdigest, hread, hread'⟩ := h.read_of_isCurrent hnodup hfile hw hcurrent
      by_cases heq : bytes = file.2
      · exact Or.inl (heq ▸ hread')
      · exact Or.inr (Or.inr ⟨bytes, heq, hdigest, hread, hread'⟩)
    | false =>
      exact (h.read_of_replaced hfile hcurrent (hcopies file hfile)).imp_right Or.inl
  case copy =>
    rw [hplace]
    exact h.copy (stagedOf file) (List.mem_map_of_mem hfile)
  case backup =>
    rw [hplace, hplace]
    exact h.lookup_backup hnodup hfile

/-- **A commit replaces all targets or none of them**, whatever has happened to the targets
since the contents were staged, and whichever copies have been deleted. All other places are
left alone. -/
theorem commit_all_or_nothing (hw : t₀.WellFormed)
    (hstage : (stageEach (.new false) files).run t₀ = (.ok x, t₁))
    (hnodup : (placesOf t₀ files).Nodup) (hdisturbed : Disturbed t₁ t₂ files)
    (hwithin : WithinReach t₂ files) :
    Achieved t₀ t₂ (x.commit.run t₂).2 files (x.commit.run t₂).1 ∧
      ∀ q, q ∉ placesOf t₀ files → (x.commit.run t₂).2.lookup q = t₂.lookup q := by
  obtain ⟨rfl, hspares, -, -⟩ := stageEach_ok files (.new false) t₀ hw rfl hstage
  have hcopies := fun (file : Path × ByteArray) (hfile : file ∈ files) =>
    hdisturbed.lookup_copy hwithin hw hstage hnodup hfile
  have hplace : ∀ p, t₀.placeOf p = t₂.placeOf p := fun p =>
    (Tree.placeOf_congr (hdisturbed.workingDirectory.trans hspares.workingDirectory) p).symm
  have hplaces : placesOf t₀ files = placesOf t₂ files := by simp only [placesOf, hplace]
  simp only [hplace] at hcopies
  rw [hplaces] at hnodup ⊢
  -- The layout is one of `t₂`, where the commit starts, and not of `t₀`.
  have hL : Layout t₂ (files.map stagedOf) := by
    refine layout_of_nodup hnodup (fun file hfile hdir => ?_)
      (fun file hfile hthere => (hcopies file hfile hthere).1)
    have hnow := (hcopies file hfile (by simp [hdir])).2
    rw [hdir] at hnow
    exact Tree.writtenTo_ne_directory hnow.symm
  have hfinished := commit_run (x := { Transaction.new false with
    staged := (Transaction.new false).staged ++ files.map stagedOf }) hdisturbed.wellFormed rfl hL
  generalize Program.run (Transaction.commit _) t₂ = answer at hfinished ⊢
  obtain ⟨result, t₃⟩ := answer
  cases hfinished with
  | committed h =>
    refine ⟨h.allReplaced hdisturbed.wellFormed hnodup hplace
      fun file hfile hthere => (hcopies file hfile hthere).2, fun q hq => ?_⟩
    refine h.other q fun s hs htouched => hq ?_
    obtain ⟨file, hfile, rfl⟩ := List.mem_map.mp hs
    refine mem_placesOf.mpr ⟨file, hfile, ?_⟩
    rcases htouched with rfl | ⟨-, rfl | ⟨-, rfl⟩⟩
    · exact Or.inr (Or.inl rfl)
    · exact Or.inl rfl
    · exact Or.inr (Or.inr rfl)
  | @failed _ before after s lost cause hparts h hlost =>
    -- The targets are different, so that no backup is lost and everything is restored.
    have hnot : ∀ q, ¬Overtakes t₂ before s q := by
      rintro q ⟨rfl, -, u, hu, heq, -⟩
      have hpairwise := pairwise_of_nodup hnodup
      rw [show files.map stagedOf = before ++ s :: after from hparts] at hpairwise
      exact (List.pairwise_append.mp hpairwise).2.2 u hu s (by simp) heq
    have hkept : ∀ q, ¬IsSide t₂ (files.map stagedOf) q → t₃.lookup q = t₂.lookup q :=
      fun q hq => h.other q hq fun hlost => hnot q hlost.1
    refine ⟨⟨fun file hfile => ?_, fun file hfile => ?_, fun file hfile => ?_⟩, fun q hq =>
      hkept q fun hside => hq (isSide_map hside)⟩
    · rw [hplace]
      exact hkept _ (hL.not_isSide (s := stagedOf file) (List.mem_map_of_mem hfile))
    · rw [hplace]
      exact h.copy (stagedOf file) (List.mem_map_of_mem hfile)
    · rw [hplace]
      exact h.side _ ⟨stagedOf file, List.mem_map_of_mem hfile, Or.inr rfl⟩

/-- Staging one more content, when it is known to succeed. -/
theorem stageEach_cons (hw : t₀.WellFormed) (hdry : x.isDry = false)
    (hok : ((x.stage file.1 file.2).run t₀).1.1.isOk = true)
    (ht : ((x.stage file.1 file.2).run t₀).2 = t₁) :
    (stageEach x (file :: files)).run t₀ =
      (stageEach { x with staged := x.staged ++ [stagedOf file] } files).run t₁ := by
  rw [stageEach, Program.run_bind, ht]
  rcases stage_run hw hdry file with ⟨hrun, -⟩ | ⟨⟨failure, hrun⟩, -⟩
  · rw [hrun]
  · rw [hrun] at hok
    cases hok

/-- Two contents are staged in an empty directory and committed. -/
theorem commit_all_or_nothing_fresh :
    let files : List (Path × ByteArray) := [(⟨"a"⟩, "A".toUTF8), (⟨"d/b"⟩, "B".toUTF8)]
    ∃ x t₁, Tree.WellFormed ⟨[], []⟩ ∧
      (stageEach (.new false) files).run ⟨[], []⟩ = (.ok x, t₁) ∧
      (placesOf ⟨[], []⟩ files).Nodup ∧ Disturbed t₁ t₁ files ∧ WithinReach t₁ files ∧
      Achieved ⟨[], []⟩ t₁ (x.commit.run t₁).2 files (x.commit.run t₁).1 := by
  intro files
  have hw : Tree.WellFormed ⟨[], []⟩ := by decide
  obtain ⟨x, hstage⟩ : ∃ x, (stageEach (.new false) files).run ⟨[], []⟩ = (.ok x,
      ⟨[(["a.pktgen.tmp"], .file "A".toUTF8), (["d"], .directory),
        (["b.pktgen.tmp", "d"], .file "B".toUTF8)], []⟩) := by
    rw [stageEach_cons hw rfl (by decide) (by decide :
        _ = (⟨[(["a.pktgen.tmp"], .file "A".toUTF8)], []⟩ : Tree)),
      stageEach_cons (by decide) rfl (by decide) (by decide :
        _ = (⟨[(["a.pktgen.tmp"], .file "A".toUTF8), (["d"], .directory),
          (["b.pktgen.tmp", "d"], .file "B".toUTF8)], []⟩ : Tree))]
    exact ⟨_, rfl⟩
  have hnodup : (placesOf ⟨[], []⟩ files).Nodup := by decide
  have hwithin : WithinReach ⟨[(["a.pktgen.tmp"], .file "A".toUTF8), (["d"], .directory),
      (["b.pktgen.tmp", "d"], .file "B".toUTF8)], []⟩ files := by
    intro file hfile hup
    simp only [files, List.mem_cons, List.not_mem_nil, or_false] at hfile
    rcases hfile with rfl | rfl
    · exact absurd hup (by decide)
    · exact absurd hup (by decide)
  have hdisturbed : Disturbed _ _ files :=
    ⟨(by decide : Tree.WellFormed ⟨[(["a.pktgen.tmp"], .file "A".toUTF8), (["d"], .directory),
      (["b.pktgen.tmp", "d"], .file "B".toUTF8)], []⟩), rfl, fun _ _ => Or.inl rfl⟩
  exact ⟨x, _, hw, hstage, hnodup, hdisturbed, hwithin,
    (commit_all_or_nothing hw hstage hnodup hdisturbed hwithin).1⟩

/-- **A copy that is out of reach is left behind.** The directory `d` is made for the copy at
`d/../y`. When it is deleted, as the target that it also is, that path leads nowhere, and the
commit fails without removing the copy. **A special file may become a target.** At the place of a
copy it loses what is staged, and a commit that succeeds puts it in the place of the target. -/
theorem commit_leaves_copy_and_device :
    (let files : List (Path × ByteArray) := [(⟨"d/../y"⟩, "Y".toUTF8), (⟨"d"⟩, "D".toUTF8)]
      let t₁ : Tree := ⟨[(["d"], .directory), (["y.pktgen.tmp"], .file "Y".toUTF8),
        (["d.pktgen.tmp"], .file "D".toUTF8)], []⟩
      let t₂ := t₁.erase ["d"]
      ∃ x, Tree.WellFormed ⟨[], []⟩ ∧
        (stageEach (.new false) files).run ⟨[], []⟩ = (.ok x, t₁) ∧
        (placesOf ⟨[], []⟩ files).Nodup ∧ Disturbed t₁ t₂ files ∧
        ¬Achieved ⟨[], []⟩ t₂ (x.commit.run t₂).2 files (x.commit.run t₂).1) ∧
    (let files : List (Path × ByteArray) := [(⟨"a"⟩, "A".toUTF8)]
      let t : Tree := ⟨[(["a"], .file "old".toUTF8), (["a.pktgen.tmp"], .device)], []⟩
      ∃ x, t.WellFormed ∧ (stageEach (.new false) files).run t = (.ok x, t) ∧
        (placesOf t files).Nodup ∧ Disturbed t t files ∧ WithinReach t files ∧
        (x.commit.run t).1.isOk = true ∧
        (x.commit.run t).2.lookup (t.placeOf ⟨"a"⟩) = some .device ∧
        (x.commit.run t).2.read ⟨"a"⟩ = .ok .empty) := by
  constructor
  case left =>
    intro files t₁ t₂
    have hw : Tree.WellFormed ⟨[], []⟩ := by decide
    have hstage : (stageEach (.new false) files).run ⟨[], []⟩ =
        (.ok ⟨false, files.map stagedOf, []⟩, t₁) := by
      rw [stageEach_cons hw rfl (by decide) (by decide :
          _ = (⟨[(["d"], .directory), (["y.pktgen.tmp"], .file "Y".toUTF8)], []⟩ : Tree)),
        stageEach_cons (by decide) rfl (by decide) (by decide : _ = t₁)]
      rfl
    have hlookup : t₂.lookup = Function.update t₁.lookup ["d"] none :=
      Tree.lookup_erase (by simp)
    refine ⟨_, hw, hstage, by decide, ⟨by decide, rfl, fun file _ => ?_⟩, fun h => ?_⟩
    · rw [hlookup, Function.update_apply]
      split
      · exact Or.inr rfl
      · exact Or.inl rfl
    · have hfailed : (commit ⟨false, files.map stagedOf, []⟩ |>.run t₂).1.isOk = false := by
        decide
      have hleft : (commit ⟨false, files.map stagedOf, []⟩ |>.run t₂).2.lookup
          (Tree.placeOf ⟨[], []⟩ (stagingPath ⟨"d/../y"⟩)) ≠ none := by
        decide
      generalize (commit ⟨false, files.map stagedOf, []⟩).run t₂ = answer at h hfailed hleft
      obtain ⟨result, t₃⟩ := answer
      cases result with
      | ok outcomes => cases hfailed
      | error failure =>
        exact hleft (NoneReplaced.copy h (⟨"d/../y"⟩, "Y".toUTF8) List.mem_cons_self)
  case right =>
    intro files t
    have hw : t.WellFormed := by decide
    have hstage : (stageEach (.new false) files).run t =
        (.ok ⟨false, files.map stagedOf, []⟩, t) := by
      rw [stageEach_cons hw rfl (by decide) (by decide : _ = t)]
      rfl
    have hwithin : WithinReach t files := by
      intro file hfile hup
      obtain rfl := List.mem_singleton.mp hfile
      exact absurd hup (by decide)
    exact ⟨_, hw, hstage, by decide, ⟨hw, rfl, fun _ _ => Or.inl rfl⟩, hwithin,
      by decide +kernel, by decide +kernel, by decide +kernel⟩

end Packetry.Transaction
