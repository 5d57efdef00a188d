import Packetry.Proofs.Commit
import Packetry.Proofs.Interruption

/-!
# Crashes during a commit

A commit can be cut short between any two of its operations, each of which is indivisible. What is
found on the disk then is described copy by copy, by what is at the places of the target, the copy
and the backup. A target is *guarded* (`Packetry.Transaction.Guarded`) if it is what it was when the
commit started, or has been moved to its backup, or holds what was at its copy while the backup
keeps what was at the target. No operation before the backups are removed takes a target out of
these three states:

* committing one copy takes its own target through them, whether it succeeds or fails and wherever
  it fails, and does not touch the places of another copy
  (`Packetry.Transaction.commitOne_throughout`);
* undoing a replacement takes a target back, or leaves it if that is not possible
  (`Packetry.Transaction.restore_throughout`);
* giving up a copy touches no target and no backup.

The backups are removed when every copy has been committed, and by then every target has *landed*
(`Packetry.Transaction.Landed`): nothing touches it any more.
-/

namespace Packetry

open Disk

namespace Disk.Tree

variable {t t' t'' : Tree} {p p' : Path} {S S' : Place → Prop}

/-! ### Changes at some places -/

/-- The second tree differs from the first one at some places only, and has the same
directories. -/
structure ChangesOnly (S : Place → Prop) (t t' : Tree) : Prop where
  /-- The tree is well formed. -/
  wellFormed : t'.WellFormed
  /-- The directories are the same. -/
  same : t.SameDirectories t'
  /-- Nothing has changed elsewhere. -/
  other : ∀ q, ¬S q → t'.lookup q = t.lookup q

theorem WellFormed.changesOnly_self (hw : t.WellFormed) : ChangesOnly S t t :=
  ⟨hw, SameDirectories.refl t, fun _ _ => rfl⟩

theorem ChangesOnly.mono (h : ChangesOnly S t t') (hS : ∀ q, S q → S' q) :
    ChangesOnly S' t t' :=
  ⟨h.wellFormed, h.same, fun q hq => h.other q fun hs => hq (hS q hs)⟩

theorem ChangesOnly.trans (h : ChangesOnly S t t') (h' : ChangesOnly S t' t'') :
    ChangesOnly S t t'' :=
  ⟨h'.wellFormed, h.same.trans h'.same, fun q hq => (h'.other q hq).trans (h.other q hq)⟩

theorem ChangesOnly.placeOf_eq (h : ChangesOnly S t t') (p : Path) : t'.placeOf p = t.placeOf p :=
  h.same.placeOf_eq p

/-- Removing a file changes its place, if anything. -/
theorem WellFormed.remove_changesOnly (hw : t.WellFormed) (p : Path) :
    ChangesOnly (· = t.placeOf p) t (t.commit (t.remove p)).2 := by
  cases hremove : t.remove p with
  | error e => exact hw.changesOnly_self
  | ok t' =>
    obtain ⟨-, -, -, hbecomes⟩ := hw.remove_ok hremove
    refine ⟨hbecomes.wellFormed, hbecomes.same, fun q hq => ?_⟩
    rw [commit_ok, hbecomes.lookup, Function.update_of_ne hq]

/-- What is at each place when a file has been renamed. -/
theorem WellFormed.lookup_of_rename (hw : t.WellFormed) (h : t.rename p p' = .ok t')
    (hp : t.lookup (t.placeOf p) ≠ some .directory) (q : Place) :
    t'.lookup q = if q = t.placeOf p' then t.lookup (t.placeOf p)
      else if q = t.placeOf p then none else t.lookup q := by
  obtain ⟨-, -, -, -, hbecomes⟩ := hw.rename_ok h hp
  rw [hbecomes.lookup, movedTo, Function.update_apply, Function.update_apply]

/-- Renaming a file changes the two places. -/
theorem WellFormed.rename_changesOnly (hw : t.WellFormed) (h : t.rename p p' = .ok t')
    (hp : t.lookup (t.placeOf p) ≠ some .directory) :
    ChangesOnly (fun q => q = t.placeOf p ∨ q = t.placeOf p') t t' := by
  obtain ⟨-, -, -, -, hbecomes⟩ := hw.rename_ok h hp
  refine ⟨hbecomes.wellFormed, hbecomes.same, fun q hq => ?_⟩
  obtain ⟨hq, hq'⟩ := not_or.mp hq
  rw [hw.lookup_of_rename h hp, if_neg hq', if_neg hq]

end Disk.Tree

namespace Transaction

variable {t₀ t t' : Tree} {L done rest us : List Staged} {s u : Staged}

/-! ### The places of a staged copy -/

/-- The places of the target, the copy and the backup. -/
def sitesOf (t : Tree) (s : Staged) : List Place :=
  [t.placeOf s.target, t.placeOf s.copy, t.placeOf (backupPath s.target)]

@[simp] theorem target_mem_sitesOf : t.placeOf s.target ∈ sitesOf t s := by
  simp [sitesOf]

@[simp] theorem copy_mem_sitesOf : t.placeOf s.copy ∈ sitesOf t s := by
  simp [sitesOf]

@[simp] theorem backup_mem_sitesOf : t.placeOf (backupPath s.target) ∈ sitesOf t s := by
  simp [sitesOf]

theorem sitesOf_congr (h : t.SameDirectories t') (s : Staged) : sitesOf t' s = sitesOf t s := by
  simp only [sitesOf, h.placeOf_eq]

/-- If all places are different, then the copies are. -/
theorem nodup_of_nodup_sitesOf (h : (L.flatMap (sitesOf t₀)).Nodup) : L.Nodup := by
  refine (List.nodup_flatMap.mp h).2.imp fun {s u} hdisjoint heq => ?_
  exact hdisjoint target_mem_sitesOf (heq ▸ target_mem_sitesOf)

/-- The places of one copy are different. -/
theorem ne_of_nodup_sitesOf (h : (L.flatMap (sitesOf t₀)).Nodup) (hs : s ∈ L) :
    t₀.placeOf s.target ≠ t₀.placeOf s.copy ∧
      t₀.placeOf s.target ≠ t₀.placeOf (backupPath s.target) ∧
      t₀.placeOf s.copy ≠ t₀.placeOf (backupPath s.target) := by
  have hone := (List.nodup_flatMap.mp h).1 s hs
  simp only [sitesOf, List.nodup_cons, List.mem_cons, List.not_mem_nil, or_false, not_or] at hone
  exact ⟨hone.1.1, hone.1.2, hone.2.1⟩

/-! ### The states of a target -/

/-- What was at a target when a commit started is still there, or at the backup; and if it is not
there, then nothing is, or what was at the copy. -/
inductive Guarded (t₀ t : Tree) (s : Staged) : Prop where
  /-- The target is what it was. -/
  | kept (h : t.lookup (t₀.placeOf s.target) = t₀.lookup (t₀.placeOf s.target))
  /-- The target has been moved to its backup. -/
  | moved (hthere : t₀.lookup (t₀.placeOf s.target) ≠ none)
    (h : t.lookup (t₀.placeOf s.target) = none)
    (hbackup : t.lookup (t₀.placeOf (backupPath s.target)) = t₀.lookup (t₀.placeOf s.target))
  /-- The copy has taken the place of the target, and the target is at its backup if it was
  there. -/
  | replaced (hcopy : t₀.lookup (t₀.placeOf s.copy) ≠ none)
    (h : t.lookup (t₀.placeOf s.target) = t₀.lookup (t₀.placeOf s.copy))
    (hbackup : t₀.lookup (t₀.placeOf s.target) ≠ none →
      t.lookup (t₀.placeOf (backupPath s.target)) = t₀.lookup (t₀.placeOf s.target))

/-- Only the target and its backup matter. -/
theorem Guarded.congr (h : Guarded t₀ t s)
    (htarget : t'.lookup (t₀.placeOf s.target) = t.lookup (t₀.placeOf s.target))
    (hbackup : t'.lookup (t₀.placeOf (backupPath s.target)) =
      t.lookup (t₀.placeOf (backupPath s.target))) : Guarded t₀ t' s := by
  cases h with
  | kept h => exact .kept (htarget.trans h)
  | moved hthere h hbackup' => exact .moved hthere (htarget.trans h) (hbackup.trans hbackup')
  | replaced hcopy h hbackup' =>
    exact .replaced hcopy (htarget.trans h) fun hthere => hbackup.trans (hbackup' hthere)

/-- A target that is guarded since a later moment is guarded since an earlier one, if it and its
copy were the same then. -/
theorem Guarded.of_start (h : Guarded t t' s) (hplace : ∀ p, t.placeOf p = t₀.placeOf p)
    (htarget : t.lookup (t₀.placeOf s.target) = t₀.lookup (t₀.placeOf s.target))
    (hcopy : t.lookup (t₀.placeOf s.copy) = t₀.lookup (t₀.placeOf s.copy)) :
    Guarded t₀ t' s := by
  cases h with
  | kept h =>
    rw [hplace, htarget] at h
    exact .kept h
  | moved hthere h hbackup =>
    rw [hplace] at h
    rw [hplace, htarget] at hthere
    rw [hplace, hplace, htarget] at hbackup
    exact .moved hthere h hbackup
  | replaced hcopy' h hbackup =>
    rw [hplace, hplace, hcopy] at h
    rw [hplace, hcopy] at hcopy'
    rw [hplace, hplace, htarget] at hbackup
    exact .replaced hcopy' h hbackup

/-- A copy was committed without an error, and its target has the content for good. -/
structure Landed (t₀ t : Tree) (s : Staged) : Prop where
  /-- The copy was there. -/
  copied : t₀.lookup (t₀.placeOf s.copy) ≠ none
  /-- It is gone. -/
  copy : t.lookup (t₀.placeOf s.copy) = none
  /-- A target that was current is what it was, and another one is what its copy was. -/
  target : t.lookup (t₀.placeOf s.target) =
    if s.isCurrent t₀ then t₀.lookup (t₀.placeOf s.target) else t₀.lookup (t₀.placeOf s.copy)

/-! ### One copy -/

/-- While a copy is committed, nothing changes but at its places, and its target is guarded. -/
structure Midway (t t' : Tree) (s : Staged) : Prop where
  /-- Nothing else has changed. -/
  changes : Tree.ChangesOnly (· ∈ sitesOf t s) t t'
  /-- The target is guarded. -/
  guarded : Guarded t t' s

theorem Midway.start (hw : t.WellFormed) (s : Staged) : Midway t t s :=
  ⟨hw.changesOnly_self, .kept rfl⟩

/-- Giving up the copy. -/
theorem Midway.remove_copy (h : Midway t t' s) (hapart : Apart t s) :
    Midway t (t'.commit (t'.remove s.copy)).2 s := by
  have hremove := h.changes.wellFormed.remove_changesOnly s.copy
  rw [h.changes.placeOf_eq] at hremove
  refine ⟨h.changes.trans (hremove.mono ?_), h.guarded.congr ?_ ?_⟩
  · rintro q rfl
    exact copy_mem_sitesOf
  · exact hremove.other _ hapart.copy
  · exact hremove.other _ (Ne.symm hapart.side)

/-- Moving a target to its backup, and back. -/
theorem Midway.rename_target (hw : t.WellFormed) (hapart : Apart t s)
    (hfile : t.lookup (t.placeOf s.target) ≠ some .directory)
    (h : t.rename s.target (backupPath s.target) = .ok t') :
    Midway t t' s ∧ t'.lookup (t.placeOf s.copy) = t.lookup (t.placeOf s.copy) ∧
      t'.lookup (t.placeOf (backupPath s.target)) = t.lookup (t.placeOf s.target) := by
  obtain ⟨-, -, hthere, -, -⟩ := hw.rename_ok h hfile
  have hnow := hw.lookup_of_rename h hfile
  have hmoved : t'.lookup (t.placeOf (backupPath s.target)) = t.lookup (t.placeOf s.target) := by
    rw [hnow, if_pos rfl]
  refine ⟨⟨(hw.rename_changesOnly h hfile).mono ?_, .moved hthere ?_ hmoved⟩, ?_, hmoved⟩
  · rintro q (rfl | rfl)
    · exact target_mem_sitesOf
    · exact backup_mem_sitesOf
  · rw [hnow, if_neg hapart.backup, if_pos rfl]
  · rw [hnow, if_neg hapart.side, if_neg (Ne.symm hapart.copy)]

/-- Putting a copy into the place of its target, which is at the backup if it was there. -/
theorem Midway.rename_copy {t'' : Tree} (h : Midway t t' s) (hapart : Apart t s)
    (hcopy : t'.lookup (t.placeOf s.copy) = t.lookup (t.placeOf s.copy))
    (hbackup : t'.Reaches s.target → t.lookup (t.placeOf s.target) ≠ none →
      t'.lookup (t.placeOf (backupPath s.target)) = t.lookup (t.placeOf s.target))
    (hrename : t'.rename s.copy s.target = .ok t'') : Midway t t'' s := by
  have hplace := h.changes.placeOf_eq
  have hfile : t'.lookup (t'.placeOf s.copy) ≠ some .directory := by
    rw [hplace, hcopy]
    exact hapart.file
  obtain ⟨-, hreach, hthere, -, -⟩ := h.changes.wellFormed.rename_ok hrename hfile
  have hnow := h.changes.wellFormed.lookup_of_rename hrename hfile
  have hchanges := h.changes.wellFormed.rename_changesOnly hrename hfile
  simp only [hplace] at hthere hnow hchanges
  refine ⟨h.changes.trans (hchanges.mono ?_), .replaced ?_ ?_ fun hne => ?_⟩
  · rintro q (rfl | rfl)
    · exact copy_mem_sitesOf
    · exact target_mem_sitesOf
  · rwa [← hcopy]
  · rw [hnow, if_pos rfl, hcopy]
  · rw [hnow, if_neg (Ne.symm hapart.backup), if_neg (Ne.symm hapart.side), hbackup hreach hne]

/-- Moving a target back from its backup. -/
theorem Midway.rename_back {t'' : Tree} (h : Midway t t' s)
    (hfile : t.lookup (t.placeOf s.target) ≠ some .directory)
    (hbackup : t'.lookup (t.placeOf (backupPath s.target)) = t.lookup (t.placeOf s.target))
    (hrename : t'.rename (backupPath s.target) s.target = .ok t'') : Midway t t'' s := by
  have hplace := h.changes.placeOf_eq
  have hfile' : t'.lookup (t'.placeOf (backupPath s.target)) ≠ some .directory := by
    rwa [hplace, hbackup]
  have hnow := h.changes.wellFormed.lookup_of_rename hrename hfile'
  have hchanges := h.changes.wellFormed.rename_changesOnly hrename hfile'
  simp only [hplace] at hnow hchanges
  refine ⟨h.changes.trans (hchanges.mono ?_), .kept ?_⟩
  · rintro q (rfl | rfl)
    · exact backup_mem_sitesOf
    · exact target_mem_sitesOf
  · rw [hnow, if_pos rfl, hbackup]

/-- What can be found while a copy is given up after a failure. -/
theorem Midway.giveUp_throughout (h : Midway t t' s) (hapart : Apart t s) (e : Disk.Error) :
    Program.Throughout (Midway t · s) (do
      let _ ← Program.remove s.copy
      return .error e : Program (Except Disk.Error Unit)) t' := by
  rw [Program.throughout_bind, Program.throughout_remove, Program.throughout_pure]
  exact ⟨⟨h, h.remove_copy hapart⟩, h.remove_copy hapart⟩

/-- What can be found while a copy takes the place of its target, which is at the backup if it was
there. -/
theorem swap_throughout {hasBackup : Bool} (h : Midway t t' s) (hapart : Apart t s)
    (hcopy : t'.lookup (t.placeOf s.copy) = t.lookup (t.placeOf s.copy))
    (hready : t'.Reaches s.target → t.lookup (t.placeOf s.target) ≠ none →
      t'.lookup (t.placeOf (backupPath s.target)) = t.lookup (t.placeOf s.target))
    (hbackup : hasBackup = true → t.lookup (t.placeOf s.target) ≠ some .directory ∧
      t'.lookup (t.placeOf (backupPath s.target)) = t.lookup (t.placeOf s.target)) :
    (swap s hasBackup).Throughout (Midway t · s) t' := by
  unfold swap
  rw [Program.throughout_bind, Program.throughout_rename, Program.run_rename]
  cases hrename : t'.rename s.copy s.target with
  | ok t'' =>
    have hnow := h.rename_copy hapart hcopy hready hrename
    exact ⟨⟨h, hnow⟩, (Program.throughout_pure _).mpr hnow⟩
  | error e =>
    refine ⟨⟨h, h⟩, ?_⟩
    cases hasBackup with
    | false => exact h.giveUp_throughout hapart e
    | true =>
      -- The target goes back from its backup, as far as that is possible.
      obtain ⟨hfile, hmoved⟩ := hbackup rfl
      have hback : Midway t (t'.commit (t'.rename (backupPath s.target) s.target)).2 s := by
        cases hrename' : t'.rename (backupPath s.target) s.target with
        | error _ => exact h
        | ok t'' => exact h.rename_back hfile hmoved hrename'
      refine (Program.throughout_bind _ _).mpr ⟨?_, hback.giveUp_throughout hapart e⟩
      exact (Program.throughout_rename _ _).mpr ⟨h, hback⟩

theorem isReading_digestOf (p : Path) : (digestOf p).IsReading := by
  refine (Program.isReading_read p).bind fun answer => ?_
  rcases answer with (_ | _ | _ | _ | _ | _ | _ | _ | _ | _ | _ | _) | _ <;>
    exact Program.isReading_pure _

/-- Moving a target to its backup, if it is there. -/
theorem backUp_run (target : Path) (t : Tree) : (backUp target).run t =
    if t.exists? target then
      match t.rename target (backupPath target) with
      | .error e => (.error e, t)
      | .ok t' => (.ok true, t')
    else (.ok false, t) := by
  unfold backUp
  rw [Program.run_bind, Program.run_exists?]
  by_cases hexists : t.exists? target = true
  · rw [if_pos hexists, if_pos hexists]
    cases hrename : t.rename target (backupPath target) <;> simp [hrename]
  · rw [if_neg hexists, if_neg hexists]
    rfl

/-- What can be found while a target is moved to its backup. -/
theorem backUp_throughout (hw : t.WellFormed) (hapart : Apart t s)
    (hfile : t.exists? s.target = true → t.lookup (t.placeOf s.target) ≠ some .directory) :
    (backUp s.target).Throughout (Midway t · s) t := by
  have hstart := Midway.start hw s
  unfold backUp
  rw [Program.throughout_bind, Program.run_exists?]
  refine ⟨(Program.isReading_exists? _).throughout hstart, ?_⟩
  by_cases hexists : t.exists? s.target = true
  · rw [if_pos hexists]
    refine Program.Throughout.bind_pure ?_ fun answer => ?_
    · refine (Program.throughout_rename _ _).mpr ⟨hstart, ?_⟩
      cases hrename : t.rename s.target (backupPath s.target) with
      | error e => exact hstart
      | ok t' => exact (Midway.rename_target hw hapart (hfile hexists) hrename).1
    · cases answer <;> exact ⟨_, rfl⟩
  · rw [if_neg hexists]
    exact (Program.throughout_pure _).mpr hstart

/-- **What can be found while a copy is committed**: nothing but its places has changed, and its
target is guarded. -/
theorem commitOne_throughout (hw : t.WellFormed) (hapart : Apart t s) :
    (commitOne s).Throughout (Midway t · s) t := by
  have hstart := Midway.start hw s
  unfold commitOne
  rw [Program.throughout_bind, digestOf_run]
  refine ⟨(isReading_digestOf _).throughout hstart, ?_⟩
  cases hread : t.read s.target with
  | error e =>
    by_cases he : e = .notFound
    · -- There is no target, and nothing is moved to a backup.
      subst he
      have hexists := hw.exists?_of_read hread
      simp only [reduceCtorEq, if_false]
      rw [Program.throughout_bind, backUp_run, if_neg (by simp [hexists])]
      refine ⟨backUp_throughout hw hapart (by simp [hexists]), ?_⟩
      refine Program.Throughout.bind_pure (swap_throughout hstart hapart rfl ?_ (by simp)) ?_
      · exact fun hreach hthere => absurd (hreach.lookup_of_read hw hread) hthere
      · rintro (_ | _) <;> exact ⟨_, rfl⟩
    · cases e with
      | notFound => exact absurd rfl he
      | _ => exact (Program.throughout_pure _).mpr hstart
  | ok bytes =>
    obtain ⟨-, hbytes⟩ := hw.read_ok_iff.mp hread
    have hfile : t.lookup (t.placeOf s.target) ≠ some .directory :=
      (Tree.bytesOf_ne_none.mp (by simp [hbytes])).2
    simp only [Option.some.injEq]
    split
    · -- The target is current, and its copy is removed.
      refine Program.Throughout.bind_pure ?_ ?_
      · exact (Program.throughout_remove _).mpr ⟨hstart, hstart.remove_copy hapart⟩
      · rintro (_ | _) <;> exact ⟨_, rfl⟩
    · -- The target goes to its backup before its copy takes its place.
      refine (Program.throughout_bind _ _).mpr ⟨backUp_throughout hw hapart fun _ => hfile, ?_⟩
      rw [backUp_run, if_pos (Tree.exists?_of_read_ok hread)]
      cases hrename : t.rename s.target (backupPath s.target) with
      | error e => exact (Program.throughout_pure _).mpr hstart
      | ok t' =>
        obtain ⟨hmoved, hcopy, hbackup⟩ := Midway.rename_target hw hapart hfile hrename
        refine Program.Throughout.bind_pure
          (swap_throughout hmoved hapart hcopy (fun _ _ => hbackup) fun _ => ⟨hfile, hbackup⟩) ?_
        rintro (_ | _) <;> exact ⟨_, rfl⟩

/-! ### All copies -/

/-- Every target is guarded. -/
structure AllGuarded (t₀ : Tree) (L : List Staged) (t : Tree) : Prop where
  /-- The tree is well formed. -/
  wellFormed : t.WellFormed
  /-- The directories are the same. -/
  same : t₀.SameDirectories t
  /-- Every target is guarded. -/
  guarded : ∀ s ∈ L, Guarded t₀ t s

/-- Every target has landed. -/
structure AllLanded (t₀ : Tree) (L : List Staged) (t : Tree) : Prop where
  /-- The tree is well formed. -/
  wellFormed : t.WellFormed
  /-- The directories are the same. -/
  same : t₀.SameDirectories t
  /-- Every target has landed. -/
  landed : ∀ s ∈ L, Landed t₀ t s

/-- A change at the places of one copy leaves the others alone. -/
theorem lookup_eq_of_changes (hnodup : (L.flatMap (sitesOf t₀)).Nodup) (hu : u ∈ L) (hs : s ∈ L)
    (hne : s ≠ u) (h : Tree.ChangesOnly (· ∈ sitesOf t₀ u) t t') {q : Place}
    (hq : q ∈ sitesOf t₀ s) : t'.lookup q = t.lookup q :=
  h.other q fun hmem => ((eq_or_disjoint_of_nodup hnodup hs hu).resolve_left hne) hq hmem

/-- A change at the places of one copy, after which its target is guarded. -/
theorem AllGuarded.of_changes (h : AllGuarded t₀ L t) (hnodup : (L.flatMap (sitesOf t₀)).Nodup)
    (hu : u ∈ L) (hchanges : Tree.ChangesOnly (· ∈ sitesOf t₀ u) t t')
    (hguarded : Guarded t₀ t' u) : AllGuarded t₀ L t' := by
  refine ⟨hchanges.wellFormed, h.same.trans hchanges.same, fun s hs => ?_⟩
  by_cases heq : s = u
  · exact heq ▸ hguarded
  · have hkept := fun {q} => lookup_eq_of_changes (q := q) hnodup hu hs heq hchanges
    exact (h.guarded s hs).congr (hkept target_mem_sitesOf) (hkept backup_mem_sitesOf)

/-- Giving up a copy leaves every target guarded. -/
theorem AllGuarded.remove_copy (h : AllGuarded t₀ L t) (hnodup : (L.flatMap (sitesOf t₀)).Nodup)
    (hu : u ∈ L) : AllGuarded t₀ L (t.commit (t.remove u.copy)).2 := by
  have hremove := h.wellFormed.remove_changesOnly u.copy
  rw [h.same.placeOf_eq] at hremove
  obtain ⟨htarget, -, hside⟩ := ne_of_nodup_sitesOf hnodup hu
  refine h.of_changes hnodup hu (hremove.mono ?_) ((h.guarded u hu).congr ?_ ?_)
  · rintro q rfl
    exact copy_mem_sitesOf
  · exact hremove.other _ htarget
  · exact hremove.other _ (Ne.symm hside)

/-- Removing a backup leaves every target that has landed where it is. -/
theorem AllLanded.remove_backup (h : AllLanded t₀ L t) (hnodup : (L.flatMap (sitesOf t₀)).Nodup)
    (hu : u ∈ L) : AllLanded t₀ L (t.commit (t.remove (backupPath u.target))).2 := by
  have hremove := h.wellFormed.remove_changesOnly (backupPath u.target)
  rw [h.same.placeOf_eq] at hremove
  refine ⟨hremove.wellFormed, h.same.trans hremove.same, fun s hs => ?_⟩
  have hkept : ∀ q ∈ sitesOf t₀ s, q ≠ t₀.placeOf (backupPath s.target) →
      (t.commit (t.remove (backupPath u.target))).2.lookup q = t.lookup q := by
    intro q hq hne
    refine hremove.other q ?_
    rintro rfl
    rcases eq_or_disjoint_of_nodup hnodup hs hu with rfl | hdisjoint
    · exact hne rfl
    · exact hdisjoint hq backup_mem_sitesOf
  obtain ⟨-, htarget, hside⟩ := ne_of_nodup_sitesOf hnodup hs
  refine ⟨(h.landed s hs).copied, ?_, ?_⟩
  · rw [hkept _ copy_mem_sitesOf hside, (h.landed s hs).copy]
  · rw [hkept _ target_mem_sitesOf htarget, (h.landed s hs).target]

/-- What holds now and after every removal holds throughout the removal of some files. -/
theorem removeAll_throughout {P : Tree → Prop} (ps : List Path)
    (hP : ∀ p ∈ ps, ∀ t, P t → P (t.commit (t.remove p)).2) (h : P t) :
    (removeAll ps).Throughout P t := by
  induction ps generalizing t with
  | nil => exact (Program.throughout_pure _).mpr h
  | cons p ps ih =>
    unfold removeAll
    rw [Program.throughout_bind, Program.throughout_remove, Program.run_remove]
    have hnext := hP p (by simp) t h
    exact ⟨⟨h, hnext⟩, ih (fun p' hp' => hP p' (by simp [hp'])) hnext⟩

/-! ### Undoing -/

/-- A target that was there is at its backup. -/
def IsBackedUp (t₀ t : Tree) (s : Staged) : Prop :=
  t₀.lookup (t₀.placeOf s.target) ≠ none →
    t₀.lookup (t₀.placeOf s.target) ≠ some .directory ∧
      t.lookup (t₀.placeOf (backupPath s.target)) = t₀.lookup (t₀.placeOf s.target)

/-- The replacement of a target. -/
def replacementOf (t₀ : Tree) (s : Staged) : Replaced :=
  ⟨s.target, (t₀.lookup (t₀.placeOf s.target)).isSome⟩

/-- Removing a target that was not there, as far as that is possible. -/
theorem AllGuarded.remove_target (h : AllGuarded t₀ L t)
    (hnodup : (L.flatMap (sitesOf t₀)).Nodup) (hu : u ∈ L)
    (hthere : t₀.lookup (t₀.placeOf u.target) = none) :
    AllGuarded t₀ L (t.commit (t.remove u.target)).2 ∧
      Tree.ChangesOnly (· ∈ sitesOf t₀ u) t (t.commit (t.remove u.target)).2 := by
  have hremove := h.wellFormed.remove_changesOnly u.target
  rw [h.same.placeOf_eq] at hremove
  replace hremove := hremove.mono fun q (hq : q = _) => hq ▸ target_mem_sitesOf (s := u)
  refine ⟨?_, hremove⟩
  cases hremove' : t.remove u.target with
  | error e => exact h
  | ok t' =>
    rw [hremove'] at hremove
    refine h.of_changes hnodup hu hremove (.kept ?_)
    obtain ⟨-, -, -, hbecomes⟩ := h.wellFormed.remove_ok hremove'
    rw [Tree.commit_ok, hbecomes.lookup, h.same.placeOf_eq, Function.update_self, hthere]

/-- Moving a target back from its backup, as far as that is possible. -/
theorem AllGuarded.rename_back (h : AllGuarded t₀ L t)
    (hnodup : (L.flatMap (sitesOf t₀)).Nodup) (hu : u ∈ L)
    (hfile : t₀.lookup (t₀.placeOf u.target) ≠ some .directory)
    (hbackup : t.lookup (t₀.placeOf (backupPath u.target)) = t₀.lookup (t₀.placeOf u.target)) :
    AllGuarded t₀ L (t.commit (t.rename (backupPath u.target) u.target)).2 ∧
      Tree.ChangesOnly (· ∈ sitesOf t₀ u) t
        (t.commit (t.rename (backupPath u.target) u.target)).2 := by
  cases hrename : t.rename (backupPath u.target) u.target with
  | error e => exact ⟨h, h.wellFormed.changesOnly_self⟩
  | ok t' =>
    have hfile' : t.lookup (t.placeOf (backupPath u.target)) ≠ some .directory := by
      rwa [h.same.placeOf_eq, hbackup]
    have hnow := h.wellFormed.lookup_of_rename hrename hfile' (t₀.placeOf u.target)
    have hchanges : Tree.ChangesOnly (· ∈ sitesOf t₀ u) t t' := by
      refine (h.wellFormed.rename_changesOnly hrename hfile').mono ?_
      rw [h.same.placeOf_eq, h.same.placeOf_eq]
      rintro q (rfl | rfl)
      · exact backup_mem_sitesOf
      · exact target_mem_sitesOf
    rw [h.same.placeOf_eq, if_pos rfl, h.same.placeOf_eq, hbackup] at hnow
    exact ⟨h.of_changes hnodup hu hchanges (.kept hnow), hchanges⟩

/-- **What can be found while replacements are undone**: every target is guarded, whichever steps
fail. -/
theorem restore_throughout (hnodup : (L.flatMap (sitesOf t₀)).Nodup) (hus : us ⊆ L)
    (hdistinct : us.Nodup) (hbackup : ∀ u ∈ us, IsBackedUp t₀ t u) (h : AllGuarded t₀ L t) :
    (restore (us.map (replacementOf t₀))).Throughout (AllGuarded t₀ L) t := by
  induction us generalizing t with
  | nil => exact (Program.throughout_pure _).mpr h
  | cons u us ih =>
    obtain ⟨hu, hdistinct⟩ := List.nodup_cons.mp hdistinct
    have hmem : u ∈ L := hus (by simp)
    -- The step for `u` leaves the backups of the others where they are.
    have hrest : ∀ t', AllGuarded t₀ L t' ∧ Tree.ChangesOnly (· ∈ sitesOf t₀ u) t t' →
        (restore (us.map (replacementOf t₀))).Throughout (AllGuarded t₀ L) t' := by
      rintro t' ⟨hnext, hchanges⟩
      refine ih (fun s hs => hus (by simp [hs])) hdistinct (fun s hs hthere => ?_) hnext
      have hne : s ≠ u := fun heq => hu (heq ▸ hs)
      have hkept := lookup_eq_of_changes hnodup hmem (hus (by simp [hs])) hne hchanges
        backup_mem_sitesOf
      obtain ⟨hfile, hmoved⟩ := hbackup s (by simp [hs]) hthere
      exact ⟨hfile, hkept.trans hmoved⟩
    rw [List.map_cons, restore]
    by_cases hthere : t₀.lookup (t₀.placeOf u.target) = none
    · have hstep := h.remove_target hnodup hmem hthere
      rw [if_neg (by simp [replacementOf, hthere]), Program.throughout_bind]
      exact ⟨(Program.throughout_remove _).mpr ⟨h, hstep.1⟩, hrest _ hstep⟩
    · obtain ⟨hfile, hmoved⟩ := hbackup u (by simp) hthere
      have hstep := h.rename_back hnodup hmem hfile hmoved
      rw [if_pos (by simpa [replacementOf, Option.isSome_iff_ne_none] using hthere),
        Program.throughout_bind]
      exact ⟨(Program.throughout_rename _ _).mpr ⟨h, hstep.1⟩, hrest _ hstep⟩

/-! ### The whole commit -/

/-- **The invariant of a commit**, between two copies: those that were committed have landed, with
their targets backed up if they were replaced, and the others are still as they were. -/
structure Between (t₀ t : Tree) (done rest : List Staged) : Prop where
  /-- The tree is well formed. -/
  wellFormed : t.WellFormed
  /-- The directories are the same. -/
  same : t₀.SameDirectories t
  /-- The copies that were committed have landed. -/
  landed : ∀ s ∈ done, Landed t₀ t s
  /-- Their targets are backed up if they were replaced. -/
  backup : ∀ s ∈ done, s.isCurrent t₀ = false → IsBackedUp t₀ t s
  /-- The other targets are what they were. -/
  target : ∀ s ∈ rest, t.lookup (t₀.placeOf s.target) = t₀.lookup (t₀.placeOf s.target)
  /-- The other copies are what they were. -/
  copy : ∀ s ∈ rest, t.lookup (t₀.placeOf s.copy) = t₀.lookup (t₀.placeOf s.copy)

theorem Between.start (hw : t₀.WellFormed) (L : List Staged) : Between t₀ t₀ [] L :=
  ⟨hw, .refl t₀, by simp, by simp, fun _ _ => rfl, fun _ _ => rfl⟩

/-- Between two copies, every target is guarded. -/
theorem Between.allGuarded (h : Between t₀ t done rest) : AllGuarded t₀ (done ++ rest) t := by
  refine ⟨h.wellFormed, h.same, fun s hs => ?_⟩
  rcases List.mem_append.mp hs with hs | hs
  · have hlanded := h.landed s hs
    have htarget := hlanded.target
    cases hcurrent : s.isCurrent t₀ with
    | true =>
      rw [hcurrent, if_pos rfl] at htarget
      exact .kept htarget
    | false =>
      rw [hcurrent, if_neg (by simp)] at htarget
      exact .replaced hlanded.copied htarget fun hthere => (h.backup s hs hcurrent hthere).2
  · exact .kept (h.target s hs)

/-- The three places of the next copy are apart. -/
theorem Between.apart (h : Between t₀ t done (s :: rest))
    (hnodup : ((done ++ s :: rest).flatMap (sitesOf t₀)).Nodup)
    (hfile : t₀.lookup (t₀.placeOf s.copy) ≠ some .directory) : Apart t s := by
  obtain ⟨hcopy, hbackup, hside⟩ := ne_of_nodup_sitesOf hnodup (s := s) (by simp)
  refine ⟨?_, ?_, ?_, ?_⟩
  · rwa [h.same.placeOf_eq, h.same.placeOf_eq]
  · rwa [h.same.placeOf_eq, h.same.placeOf_eq]
  · rwa [h.same.placeOf_eq, h.same.placeOf_eq]
  · rwa [h.same.placeOf_eq, h.copy s (by simp)]

/-- While the next copy is committed, every target is guarded. -/
theorem Between.allGuarded_of_midway (h : Between t₀ t done (s :: rest))
    (hnodup : ((done ++ s :: rest).flatMap (sitesOf t₀)).Nodup) (hmidway : Midway t t' s) :
    AllGuarded t₀ (done ++ s :: rest) t' := by
  have hchanges := hmidway.changes
  rw [sitesOf_congr h.same] at hchanges
  refine h.allGuarded.of_changes hnodup (by simp) hchanges ?_
  exact hmidway.guarded.of_start h.same.placeOf_eq (h.target s (by simp)) (h.copy s (by simp))

/-- While a copy is committed, the places of every other copy are left alone. -/
theorem lookup_eq_of_others (hnodup : ((done ++ s :: rest).flatMap (sitesOf t₀)).Nodup)
    (hchanges : Tree.ChangesOnly (· ∈ sitesOf t₀ s) t t') (hu : u ∈ done ++ rest) {q : Place}
    (hq : q ∈ sitesOf t₀ u) : t'.lookup q = t.lookup q := by
  have hdistinct := nodup_of_nodup_sitesOf hnodup
  simp only [List.nodup_append, List.nodup_cons] at hdistinct
  obtain ⟨-, ⟨hs, -⟩, hdone⟩ := hdistinct
  rcases List.mem_append.mp hu with hu | hu
  · exact lookup_eq_of_changes hnodup (by simp) (by simp [hu]) (hdone u hu s (by simp)) hchanges hq
  · have hne : u ≠ s := fun heq => hs (heq ▸ hu)
    exact lookup_eq_of_changes hnodup (by simp) (by simp [hu]) hne hchanges hq

/-- The step of the invariant: one more copy has landed. -/
theorem Between.snoc (h : Between t₀ t done (s :: rest))
    (hnodup : ((done ++ s :: rest).flatMap (sitesOf t₀)).Nodup)
    (hchanges : Tree.ChangesOnly (· ∈ sitesOf t₀ s) t t') (hlanded : Landed t₀ t' s)
    (hbackup : s.isCurrent t₀ = false → IsBackedUp t₀ t' s) :
    Between t₀ t' (done ++ [s]) rest := by
  have hkept := fun u hu q => lookup_eq_of_others hnodup hchanges (u := u) (q := q) hu
  have hkeptDone := fun u (hu : u ∈ done) => hkept u (List.mem_append_left _ hu)
  have hkeptRest := fun u (hu : u ∈ rest) => hkept u (List.mem_append_right _ hu)
  refine ⟨hchanges.wellFormed, h.same.trans hchanges.same, fun u hu => ?_, fun u hu => ?_,
    fun u hu => ?_, fun u hu => ?_⟩
  · rcases List.mem_append.mp hu with hu | hu
    · have hu' := h.landed u hu
      exact ⟨hu'.copied, (hkeptDone u hu _ copy_mem_sitesOf).trans hu'.copy,
        (hkeptDone u hu _ target_mem_sitesOf).trans hu'.target⟩
    · exact List.mem_singleton.mp hu ▸ hlanded
  · rcases List.mem_append.mp hu with hu | hu
    · intro hcurrent hthere
      obtain ⟨hfile, hmoved⟩ := h.backup u hu hcurrent hthere
      exact ⟨hfile, (hkeptDone u hu _ backup_mem_sitesOf).trans hmoved⟩
    · exact List.mem_singleton.mp hu ▸ hbackup
  · exact (hkeptRest u hu _ target_mem_sitesOf).trans (h.target u (by simp [hu]))
  · exact (hkeptRest u hu _ copy_mem_sitesOf).trans (h.copy u (by simp [hu]))

/-- One more copy has been committed whose target was current. -/
theorem Between.step_current (h : Between t₀ t done (s :: rest)) (hw : t₀.WellFormed)
    (hnodup : ((done ++ s :: rest).flatMap (sitesOf t₀)).Nodup)
    (hmidway : Midway t t' s) (hcurrent : s.isCurrent t = true)
    (hthere : t.lookup (t.placeOf s.copy) ≠ none)
    (hbecomes : t.Becomes (Function.update t.lookup (t.placeOf s.copy) none) t') :
    s.isCurrent t₀ = true ∧ Between t₀ t' (done ++ [s]) rest := by
  have hchanges := hmidway.changes
  rw [sitesOf_congr h.same] at hchanges
  rw [h.same.placeOf_eq] at hthere hbecomes
  have hcurrent₀ : s.isCurrent t₀ = true := by
    rwa [← isCurrent_congr hw h.wellFormed h.same (h.target s (by simp))]
  refine ⟨hcurrent₀, h.snoc hnodup hchanges ⟨?_, ?_, ?_⟩ fun hfalse => ?_⟩
  · rwa [← h.copy s (by simp)]
  · rw [hbecomes.lookup, Function.update_self]
  · rw [if_pos hcurrent₀, hbecomes.lookup,
      Function.update_of_ne (ne_of_nodup_sitesOf hnodup (by simp)).1, h.target s (by simp)]
  · rw [hcurrent₀] at hfalse
    cases hfalse

/-- One more copy has taken the place of its target. -/
theorem Between.step_swapped (h : Between t₀ t done (s :: rest)) (hw : t₀.WellFormed)
    (hnodup : ((done ++ s :: rest).flatMap (sitesOf t₀)).Nodup)
    (hmidway : Midway t t' s) (hapart : Apart t s) (hcurrent : s.isCurrent t = false)
    (hfile : t.lookup (t.placeOf s.target) ≠ some .directory)
    (hthere : t.lookup (t.placeOf s.copy) ≠ none) (hbecomes : t.Becomes (swapped t s) t') :
    s.isCurrent t₀ = false ∧ Between t₀ t' (done ++ [s]) rest := by
  have hchanges := hmidway.changes
  rw [sitesOf_congr h.same] at hchanges
  have hnow := fun q => (congrFun hbecomes.lookup q).trans (swapped_apply hapart q)
  have hT := h.target s (by simp)
  have hC := h.copy s (by simp)
  obtain ⟨hcopy, hbackup, hside⟩ := ne_of_nodup_sitesOf hnodup (s := s) (by simp)
  simp only [h.same.placeOf_eq, hT, hC] at hnow hfile hthere
  have hcurrent₀ : s.isCurrent t₀ = false := by
    rwa [← isCurrent_congr hw h.wellFormed h.same hT]
  refine ⟨hcurrent₀, h.snoc hnodup hchanges ⟨hthere, ?_, ?_⟩ fun _ hne => ⟨hfile, ?_⟩⟩
  · rw [hnow, if_neg (Ne.symm hcopy), if_pos rfl]
  · rw [hnow, if_pos rfl, hcurrent₀, if_neg (by simp)]
  · rw [hnow, if_neg (Ne.symm hbackup), if_neg (Ne.symm hside), if_pos ⟨rfl, hne⟩]

/-- What can be found after a crash, by whether the commit would have succeeded. -/
def Survived (t₀ : Tree) (L : List Staged) (ok : Bool) (t : Tree) : Prop :=
  AllGuarded t₀ L t ∨ ok = true ∧ AllLanded t₀ L t

/-- What can be found while a commit is given up after a failure. -/
theorem giveUp_throughout (hnodup : (L.flatMap (sitesOf t₀)).Nodup) (hdone : done ⊆ L)
    (hdistinct : done.Nodup) (hus : us ⊆ L)
    (hbackup : ∀ s ∈ done, s.isCurrent t₀ = false → IsBackedUp t₀ t s) (h : AllGuarded t₀ L t)
    (failure : WriteFailure) :
    Program.Throughout (AllGuarded t₀ L) (do
      restore (replacements t₀ done).reverse
      removeAll (us.map (·.copy))
      return .error failure : Program (Except WriteFailure (List Outcome))) t := by
  have hreverse : (replacements t₀ done).reverse =
      (done.filter (!·.isCurrent t₀)).reverse.map (replacementOf t₀) := by
    rw [replacements, List.map_reverse]
    rfl
  have hrestore : (restore (replacements t₀ done).reverse).Throughout (AllGuarded t₀ L) t := by
    rw [hreverse]
    refine restore_throughout hnodup (fun s hs => ?_) ?_ (fun s hs => ?_) h
    · simp only [List.mem_reverse, List.mem_filter] at hs
      exact hdone hs.1
    · exact List.nodup_reverse.mpr (hdistinct.filter _)
    · simp only [List.mem_reverse, List.mem_filter, Bool.not_eq_true'] at hs
      exact hbackup s hs.1 hs.2
  rw [Program.throughout_bind]
  refine ⟨hrestore, Program.Throughout.bind_pure ?_ fun _ => ⟨_, rfl⟩⟩
  refine removeAll_throughout _ (fun p hp t ht => ?_) hrestore.finish
  obtain ⟨u, hu, rfl⟩ := List.mem_map.mp hp
  exact ht.remove_copy hnodup (hus hu)

/-- What can be found while the backups are removed after a success. -/
theorem cleanUp_throughout (hnodup : (L.flatMap (sitesOf t₀)).Nodup) (h : AllLanded t₀ L t)
    (outcomes : List Outcome) :
    Program.Throughout (AllLanded t₀ L) (do
      removeAll (((replacements t₀ L).reverse.reverse.filter (·.hasBackup)).map fun r =>
        backupPath r.target)
      return .ok outcomes : Program (Except WriteFailure (List Outcome))) t := by
  refine Program.Throughout.bind_pure ?_ fun _ => ⟨_, rfl⟩
  refine removeAll_throughout _ (fun p hp t ht => ?_) h
  simp only [List.reverse_reverse, List.mem_map, List.mem_filter] at hp
  obtain ⟨r, ⟨hr, -⟩, rfl⟩ := hp
  obtain ⟨u, hu, -, rfl⟩ := mem_replacements.mp hr
  exact ht.remove_backup hnodup hu

/-- **What can be found while a commit goes on**, from between two copies. -/
theorem commitFrom_throughout (hw : t₀.WellFormed) (hnodup : (L.flatMap (sitesOf t₀)).Nodup)
    (hfile : ∀ s ∈ L, t₀.lookup (t₀.placeOf s.copy) ≠ some .directory) (rest : List Staged) :
    ∀ (done : List Staged) (t : Tree) (outcomes : List Outcome), L = done ++ rest →
      Between t₀ t done rest →
      (commitFrom (replacements t₀ done).reverse outcomes rest).Throughout
        (Survived t₀ L
          ((commitFrom (replacements t₀ done).reverse outcomes rest).run t).1.isOk) t := by
  -- The induction is on the copies to come; `Between` says what those before them have left.
  induction rest with
  | nil =>
    intro done t outcomes hparts h
    obtain rfl : L = done := by simpa using hparts
    have hlanded : AllLanded t₀ L t := ⟨h.wellFormed, h.same, h.landed⟩
    unfold commitFrom
    exact (cleanUp_throughout hnodup hlanded outcomes).mono fun t' h' =>
      .inr ⟨by simp [Except.isOk, Except.toBool], h'⟩
  | cons s rest ih =>
    intro done t outcomes hparts h
    subst hparts
    have hapart := h.apart hnodup (hfile s (by simp))
    have hone := commitOne_throughout h.wellFormed hapart
    have hmidway := hone.finish
    have hcommitting := commitOne_run h.wellFormed hapart
    unfold commitFrom
    rw [Program.throughout_bind, Program.run_bind]
    refine ⟨hone.mono fun t' ht' => .inl (h.allGuarded_of_midway hnodup ht'), ?_⟩
    generalize (commitOne s).run t = answer at hmidway hcommitting ⊢
    obtain ⟨result, t'⟩ := answer
    cases hcommitting with
    | current hcurrent hthere hbecomes =>
      obtain ⟨hcurrent₀, hnext⟩ := h.step_current hw hnodup hmidway hcurrent hthere hbecomes
      have hkey := ih (done ++ [s]) t' (outcomes ++ [.unchanged s.target]) (by simp) hnext
      simpa [replacements, hcurrent₀] using hkey
    | swapped hcurrent htarget hfile hthere hbackup hbecomes =>
      obtain ⟨hcurrent₀, hnext⟩ :=
        h.step_swapped hw hnodup hmidway hapart hcurrent hfile hthere hbecomes
      have hkey := ih (done ++ [s]) t' (outcomes ++ [.written s.target]) (by simp) hnext
      have hT := h.target s (by simp)
      simpa [replacements, hcurrent₀, h.same.placeOf_eq, hT] using hkey
    | failed e hbecomes hf =>
      -- The copy that failed has not touched the backups of those before it.
      have hchanges := hmidway.changes
      rw [sitesOf_congr h.same] at hchanges
      refine (giveUp_throughout hnodup (List.subset_append_left _ _) ?_
        (List.subset_append_right _ _) (fun u hu hcurrent hthere => ?_)
        (h.allGuarded_of_midway hnodup hmidway) _).mono fun t' => .inl
      · exact (nodup_of_nodup_sitesOf hnodup).sublist (List.sublist_append_left _ _)
      · obtain ⟨hdir, hmoved⟩ := h.backup u hu hcurrent hthere
        refine ⟨hdir, Eq.trans ?_ hmoved⟩
        exact lookup_eq_of_others hnodup hchanges (List.mem_append_left _ hu) backup_mem_sitesOf

/-- **A crash during a commit never leaves a target half written, nor its old content lost.**
Whichever copies were deleted before, after any number of operations every target is what it was,
or what its copy was, or has been moved to its backup; and the old content of every target is still
at the target or at its backup, unless every copy has been committed without an error. -/
theorem commit_interrupted {x : Transaction} (hw : t₀.WellFormed) (hdry : x.isDry = false)
    (hnodup : (x.staged.flatMap (sitesOf t₀)).Nodup)
    (hfile : ∀ s ∈ x.staged, t₀.lookup (t₀.placeOf s.copy) ≠ some .directory) (n : Nat) :
    let t := x.commit.interrupted t₀ n
    t₀.SameDirectories t ∧
      (∀ s ∈ x.staged,
        t.lookup (t₀.placeOf s.target) = t₀.lookup (t₀.placeOf s.target) ∨
        (t₀.lookup (t₀.placeOf s.copy) ≠ none ∧
          t.lookup (t₀.placeOf s.target) = t₀.lookup (t₀.placeOf s.copy)) ∨
        (t₀.lookup (t₀.placeOf s.target) ≠ none ∧ t.lookup (t₀.placeOf s.target) = none ∧
          t.lookup (t₀.placeOf (backupPath s.target)) = t₀.lookup (t₀.placeOf s.target))) ∧
      ((∀ s ∈ x.staged, t₀.lookup (t₀.placeOf s.target) ≠ none →
          t.lookup (t₀.placeOf s.target) = t₀.lookup (t₀.placeOf s.target) ∨
          t.lookup (t₀.placeOf (backupPath s.target)) = t₀.lookup (t₀.placeOf s.target)) ∨
        (x.commit.run t₀).1.isOk = true ∧ ∀ s ∈ x.staged, Landed t₀ t s) := by
  intro t
  have hcommit : x.commit = commitFrom (replacements t₀ []).reverse [] x.staged := by
    simp [commit, hdry, replacements]
  -- The invariant holds after any number of operations, and so it does after `n`.
  have hsurvived : Survived t₀ x.staged (x.commit.run t₀).1.isOk t := by
    have hkey := commitFrom_throughout hw hnodup hfile x.staged [] t₀ [] rfl (.start hw _) n
    rwa [← hcommit] at hkey
  rcases hsurvived with h | ⟨hok, h⟩
  · refine ⟨h.same, fun s hs => ?_, .inl fun s hs hthere => ?_⟩
    · cases h.guarded s hs with
      | kept h => exact .inl h
      | moved hthere h hbackup => exact .inr (.inr ⟨hthere, h, hbackup⟩)
      | replaced hcopy h hbackup => exact .inr (.inl ⟨hcopy, h⟩)
    · cases h.guarded s hs with
      | kept h => exact .inl h
      | moved hthere h hbackup => exact .inr hbackup
      | replaced hcopy h hbackup => exact .inr (hbackup hthere)
  · refine ⟨h.same, fun s hs => ?_, .inr ⟨hok, h.landed⟩⟩
    have hlanded := h.landed s hs
    have htarget := hlanded.target
    split at htarget
    · exact .inl htarget
    · exact .inr (.inl ⟨hlanded.copied, htarget⟩)

/-- Two files are to be replaced, and the copy for the second was deleted. After three operations
the first is nowhere but at its backup. -/
theorem commit_interrupted_after_backup :
    let x : Transaction :=
      ⟨false, [⟨⟨"a"⟩, digest "new".toUTF8⟩, ⟨⟨"d/b"⟩, digest "B".toUTF8⟩], []⟩
    let t₀ : Tree := ⟨[(["a"], .file "old".toUTF8), (["a.pktgen.tmp"], .file "new".toUTF8),
      (["d"], .directory)], []⟩
    let t := x.commit.interrupted t₀ 3
    t₀.WellFormed ∧ (x.staged.flatMap (sitesOf t₀)).Nodup ∧ t₀.SameDirectories t ∧
      t.lookup ["a"] = none ∧ t.lookup ["a.pktgen.bak"] = some (.file "old".toUTF8) := by
  intro x t₀ t
  have hw : t₀.WellFormed := by decide
  have hnodup : (x.staged.flatMap (sitesOf t₀)).Nodup := by decide
  have hfile : ∀ s ∈ x.staged, t₀.lookup (t₀.placeOf s.copy) ≠ some .directory := by
    decide
  have hgone : t.lookup ["a"] = none := by decide +kernel
  obtain ⟨hsame, -, hold⟩ := commit_interrupted hw rfl hnodup hfile 3
  refine ⟨hw, hnodup, hsame, hgone, ?_⟩
  rcases hold with hold | ⟨-, hlanded⟩
  · have htarget : t₀.placeOf ⟨"a"⟩ = ["a"] := by decide
    have hbackup : t₀.placeOf (backupPath ⟨"a"⟩) = ["a.pktgen.bak"] := by decide
    have hthere : t₀.lookup ["a"] = some (.file "old".toUTF8) := by decide
    have h := hold ⟨⟨"a"⟩, digest "new".toUTF8⟩ (by simp [x])
    simp only [htarget, hbackup, hthere] at h
    refine (h (by simp)).resolve_left fun hkept => ?_
    cases hgone.symm.trans hkept
  · have hcopy := (hlanded ⟨⟨"d/b"⟩, digest "B".toUTF8⟩ (by simp [x])).copied
    exact absurd (by decide) hcopy

end Transaction

end Packetry
