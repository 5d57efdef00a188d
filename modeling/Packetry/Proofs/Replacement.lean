import Packetry.Proofs.Operation
import Packetry.Transaction

/-!
# Replacing single files

What becomes of one target when its copy is committed, and what undoing does. Three places
belong to a staged copy: that of its target, its own and that of the backup. What is at the
target moves to the backup, and what is at the copy moves to the target
(`Packetry.Transaction.swapped`); a failure puts the target back
(`Packetry.Transaction.commitOne_run`). Undoing a list of replacements moves every backup
that is still there back to its target (`Packetry.Transaction.restore_run`).
-/

namespace Packetry

open Disk

variable {t t' : Tree} {s : Staged} {p : Path} {q : Place}

/-! ### Digests of files -/

/-- Whether a target has the content of its copy already. -/
def Staged.isCurrent (s : Staged) (t : Tree) : Bool :=
  match t.read s.target with
  | .ok bytes => decide (Packetry.digest bytes = s.digest)
  | .error _ => false

theorem Staged.isCurrent_iff :
    s.isCurrent t = true ↔ ∃ bytes, t.read s.target = .ok bytes ∧
      Packetry.digest bytes = s.digest := by
  unfold isCurrent
  cases t.read s.target with
  | error e => simp
  | ok bytes => simp

theorem digestOf_run (p : Path) (t : Tree) :
    (digestOf p).run t = (match t.read p with
      | .ok bytes => .ok (some (digest bytes))
      | .error .notFound => .ok none
      | .error e => .error e, t) := by
  unfold digestOf
  rw [Program.run_bind, Program.run_read]
  rcases t.read p with (_ | _ | _ | _ | _ | _ | _ | _ | _ | _ | _ | _) | _ <;> rfl

/-! ### Removing many files -/

/-- Removing files leaves nothing at their places, and the rest as it was. -/
theorem removeAll_run (ps : List Path) (hw : t.WellFormed)
    (hreach : ∀ p ∈ ps, t.lookup (t.placeOf p) ≠ none → t.Reaches p)
    (hfile : ∀ p ∈ ps, t.lookup (t.placeOf p) ≠ some .directory) :
    t.Becomes (fun q => if ∃ p ∈ ps, t.placeOf p = q then none else t.lookup q)
      ((removeAll ps).run t).2 := by
  induction ps generalizing t with
  | nil => simpa [removeAll] using hw.becomes_self
  | cons p ps ih =>
    -- A file that is not there cannot be removed, and nothing changes either.
    obtain ⟨t', hbecomes, hrun⟩ : ∃ t', t.Becomes (Function.update t.lookup (t.placeOf p) none) t' ∧
        ((removeAll (p :: ps)).run t).2 = ((removeAll ps).run t').2 := by
      by_cases hthere : t.lookup (t.placeOf p) = none
      · refine ⟨t, hw.becomes_self.congr ?_, ?_⟩
        · rw [← hthere, Function.update_eq_self]
        · cases hremove : t.remove p with
          | error e => simp [removeAll, hremove]
          | ok t' => exact absurd hthere (hw.remove_ok hremove).2.1
      · obtain ⟨t', hremove⟩ :=
          (hreach p (by simp) hthere).remove_eq hw hthere (hfile p (by simp))
        exact ⟨t', (hw.remove_ok hremove).2.2.2, by simp [removeAll, hremove]⟩
    rw [hrun]
    have hplace := hbecomes.same.placeOf_eq
    have hstill : ∀ r, t'.lookup r = if r = t.placeOf p then none else t.lookup r := by
      intro r
      rw [hbecomes.lookup, Function.update_apply]
    refine (hbecomes.trans (ih hbecomes.wellFormed ?_ ?_)).congr ?_
    · intro p' hp' hthere
      rw [hplace, hstill] at hthere
      -- Two paths may lead to one place.
      by_cases heq : t.placeOf p' = t.placeOf p
      · exact absurd (if_pos heq) hthere
      · rw [if_neg heq] at hthere
        exact hbecomes.same.reaches (hreach p' (by simp [hp']) hthere)
    · intro p' hp'
      rw [hplace, hstill]
      split
      · simp
      · exact hfile p' (by simp [hp'])
    · funext r
      simp only [hplace, hstill, List.mem_cons, exists_eq_or_imp]
      by_cases hr : r = t.placeOf p
      · simp [hr]
      · have hr' : ¬t.placeOf p = r := fun h => hr h.symm
        simp [hr, hr']

namespace Transaction

/-! ### One target -/

/-- The three places that belong to a staged copy are different, and no directory is at that
of the copy. -/
structure Apart (t : Tree) (s : Staged) : Prop where
  /-- The target is not the copy. -/
  copy : t.placeOf s.target ≠ t.placeOf s.copy
  /-- The target is not the backup. -/
  backup : t.placeOf s.target ≠ t.placeOf (backupPath s.target)
  /-- The copy is not the backup. -/
  side : t.placeOf s.copy ≠ t.placeOf (backupPath s.target)
  /-- The copy is no directory. -/
  file : t.lookup (t.placeOf s.copy) ≠ some .directory

/-- What is at each place when a copy has taken the place of its target. -/
def swapped (t : Tree) (s : Staged) : Place → Option Disk.Entry :=
  if t.lookup (t.placeOf s.target) = none then
    Tree.movedTo t.lookup (t.placeOf s.copy) (t.placeOf s.target)
  else
    Tree.movedTo (Tree.movedTo t.lookup (t.placeOf s.target) (t.placeOf (backupPath s.target)))
      (t.placeOf s.copy) (t.placeOf s.target)

theorem swapped_apply (h : Apart t s) (q : Place) :
    swapped t s q = if q = t.placeOf s.target then t.lookup (t.placeOf s.copy)
      else if q = t.placeOf s.copy then none
      else if q = t.placeOf (backupPath s.target) ∧ t.lookup (t.placeOf s.target) ≠ none then
        t.lookup (t.placeOf s.target)
      else t.lookup q := by
  have hcopy := h.copy
  have hbackup := h.backup
  have hside := h.side
  unfold swapped Tree.movedTo
  simp only [Function.update_apply]
  grind

/-- What committing one copy can do to a tree. -/
inductive Committing (t : Tree) (s : Staged) :
    Except Disk.Error (Option Replaced) → Tree → Prop where
  /-- The target is current, and the copy is gone. -/
  | current {t' : Tree} (hcurrent : s.isCurrent t = true)
      (hthere : t.lookup (t.placeOf s.copy) ≠ none)
      (h : t.Becomes (Function.update t.lookup (t.placeOf s.copy) none) t') :
      Committing t s (.ok none) t'
  /-- The copy has taken the place of the target. -/
  | swapped {t' : Tree} (hcurrent : s.isCurrent t = false) (htarget : t.Reaches s.target)
      (hfile : t.lookup (t.placeOf s.target) ≠ some .directory)
      (hthere : t.lookup (t.placeOf s.copy) ≠ none)
      (hbackup : t.lookup (t.placeOf s.target) ≠ none → t.Reaches (backupPath s.target) ∧
        t.lookup (t.placeOf (backupPath s.target)) ≠ some .directory)
      (h : t.Becomes (swapped t s) t') :
      Committing t s (.ok (some ⟨s.target, (t.lookup (t.placeOf s.target)).isSome⟩)) t'
  /-- Nothing has changed, but that the copy, and what was at the place of the backup, may be
  gone. -/
  | failed {t' : Tree} {f : Place → Option Disk.Entry} (e : Disk.Error) (h : t.Becomes f t')
      (hf : ∀ q, f q = t.lookup q ∨
        (q = t.placeOf s.copy ∨ q = t.placeOf (backupPath s.target)) ∧ f q = none) :
      Committing t s (.error e) t'

theorem Committing.of_same (e : Disk.Error) (hw : t.WellFormed) : Committing t s (.error e) t :=
  .failed e hw.becomes_self fun _ => Or.inl rfl

/-- Giving up a copy after a failure. -/
theorem Committing.of_remove {f : Place → Option Disk.Entry} (e : Disk.Error)
    (h : t.Becomes f t')
    (hf : ∀ q, f q = t.lookup q ∨
      (q = t.placeOf s.copy ∨ q = t.placeOf (backupPath s.target)) ∧ f q = none) :
    Committing t s (.error e) (t'.commit (t'.remove s.copy)).2 := by
  cases hremove : t'.remove s.copy with
  | error _ => exact .failed e h hf
  | ok t'' =>
    obtain ⟨-, -, -, hbecomes⟩ := h.wellFormed.remove_ok hremove
    refine .failed e (h.trans hbecomes) fun q => ?_
    rw [h.same.placeOf_eq, h.lookup, Function.update_apply]
    split
    · rename_i hq
      exact Or.inr ⟨Or.inl hq, rfl⟩
    · exact hf q

/-- Putting a copy into the place of a target that is not there. -/
theorem swap_run_false (hw : t.WellFormed) (h : Apart t s) (hcurrent : s.isCurrent t = false)
    (hread : t.read s.target = .error .notFound) :
    Committing t s (((swap s false).run t).1.map fun _ => some ⟨s.target, false⟩)
      ((swap s false).run t).2 := by
  unfold swap
  rw [Program.run_bind, Program.run_rename]
  cases hrename : t.rename s.copy s.target with
  | error e => exact Committing.of_remove e hw.becomes_self fun _ => Or.inl rfl
  | ok t' =>
    obtain ⟨-, htarget, hthere, hfile, hbecomes⟩ := hw.rename_ok hrename h.file
    have habsent := htarget.lookup_of_read hw hread
    have hswapped : t.Becomes (Transaction.swapped t s) t' := by
      rwa [Transaction.swapped, if_pos habsent]
    have hkey := Committing.swapped hcurrent htarget hfile hthere
      (fun hne => absurd habsent hne) hswapped
    rw [habsent] at hkey
    exact hkey

/-- What is at each place when a target has been moved to its backup. -/
theorem lookup_of_backUp (hw : t.WellFormed)
    (hfile : t.lookup (t.placeOf s.target) ≠ some .directory)
    (hrename : t.rename s.target (backupPath s.target) = .ok t') (q : Place) :
    t'.lookup q = if q = t.placeOf (backupPath s.target) then t.lookup (t.placeOf s.target)
      else if q = t.placeOf s.target then none else t.lookup q := by
  obtain ⟨-, -, -, -, hbecomes⟩ := hw.rename_ok hrename hfile
  rw [hbecomes.lookup, Tree.movedTo, Function.update_apply, Function.update_apply]

/-- A target that has been moved to its backup can be moved back. All that is lost is what was
at the place of the backup. -/
theorem rename_back (hw : t.WellFormed) (h : Apart t s)
    (hfile : t.lookup (t.placeOf s.target) ≠ some .directory)
    (hrename : t.rename s.target (backupPath s.target) = .ok t') :
    ∃ t'', t'.rename (backupPath s.target) s.target = .ok t'' ∧
      t.Becomes (Function.update t.lookup (t.placeOf (backupPath s.target)) none) t'' := by
  obtain ⟨htarget, hbackup, hthere, -, hbecomes⟩ := hw.rename_ok hrename hfile
  have hw' := hbecomes.wellFormed
  have hplace := hbecomes.same.placeOf_eq
  have hnow := lookup_of_backUp hw hfile hrename
  have hmoved : t'.lookup (t'.placeOf (backupPath s.target)) =
      t.lookup (t.placeOf s.target) := by
    rw [hplace, hnow, if_pos rfl]
  have hgone : t'.lookup (t'.placeOf s.target) = none := by
    rw [hplace, hnow, if_neg h.backup, if_pos rfl]
  obtain ⟨t'', hback⟩ := (hbecomes.same.reaches hbackup).rename_eq
    (hbecomes.same.reaches htarget) hw' (hmoved ▸ hthere) (hmoved ▸ hfile) (by simp [hgone])
  obtain ⟨-, -, -, -, hbecomes'⟩ := hw'.rename_ok hback (hmoved ▸ hfile)
  refine ⟨t'', hback, (hbecomes.trans hbecomes').congr ?_⟩
  funext q
  rw [Tree.movedTo, hplace, hplace, Function.update_apply, Function.update_apply,
    Function.update_apply, hnow, if_pos rfl, hnow]
  by_cases hq : q = t.placeOf s.target
  · rw [if_pos hq, hq, if_neg h.backup]
  · rw [if_neg hq]
    by_cases hq' : q = t.placeOf (backupPath s.target)
    · rw [if_pos hq', if_pos hq']
    · rw [if_neg hq', if_neg hq', if_neg hq', if_neg hq]

/-- Putting a copy into the place of a target that has been moved to its backup. -/
theorem swap_run_true (hw : t.WellFormed) (h : Apart t s) (hcurrent : s.isCurrent t = false)
    (hfile : t.lookup (t.placeOf s.target) ≠ some .directory)
    (hrename : t.rename s.target (backupPath s.target) = .ok t') :
    Committing t s (((swap s true).run t').1.map fun _ => some ⟨s.target, true⟩)
      ((swap s true).run t').2 := by
  obtain ⟨htarget, hbackup, hthere, hbak, hbecomes⟩ := hw.rename_ok hrename hfile
  have hplace := hbecomes.same.placeOf_eq
  have hcopy : t'.lookup (t'.placeOf s.copy) = t.lookup (t.placeOf s.copy) := by
    rw [hplace, lookup_of_backUp hw hfile hrename, if_neg h.side, if_neg (Ne.symm h.copy)]
  unfold swap
  rw [Program.run_bind, Program.run_rename]
  cases hrename' : t'.rename s.copy s.target with
  | error e =>
    -- The target is moved back. What was at the place of the backup before is lost.
    obtain ⟨t'', hback, hbecomes'⟩ := rename_back hw h hfile hrename
    have hkey := Committing.of_remove (s := s) e hbecomes' (fun q => ?_)
    · simpa [hback, Except.map] using hkey
    · by_cases hq : q = t.placeOf (backupPath s.target)
      · exact Or.inr ⟨Or.inr hq, by rw [hq, Function.update_self]⟩
      · exact Or.inl (Function.update_of_ne hq _ _)
  | ok t'' =>
    obtain ⟨-, -, hthere', -, hbecomes'⟩ :=
      hbecomes.wellFormed.rename_ok hrename' (by rw [hcopy]; exact h.file)
    have hswapped : t.Becomes (Transaction.swapped t s) t'' := by
      refine (hbecomes.trans hbecomes').congr ?_
      rw [Transaction.swapped, if_neg hthere, hplace, hplace, hbecomes.lookup]
    have hkey := Committing.swapped hcurrent htarget hfile (hcopy ▸ hthere')
      (fun _ => ⟨hbackup, hbak⟩) hswapped
    rw [Option.isSome_iff_ne_none.mpr hthere] at hkey
    exact hkey

/-- **What committing one copy does** is one of three things. -/
theorem commitOne_run (hw : t.WellFormed) (h : Apart t s) :
    Committing t s ((commitOne s).run t).1 ((commitOne s).run t).2 := by
  unfold commitOne
  rw [Program.run_bind, digestOf_run]
  cases hread : t.read s.target with
  | error e =>
    have hcurrent : s.isCurrent t = false := by simp [Staged.isCurrent, hread]
    -- A target that is missing has no digest, and nothing has to be moved away.
    by_cases he : e = .notFound
    · subst he
      have hrun : (backUp s.target).run t = (.ok false, t) := by
        simp [backUp, hw.exists?_of_read hread]
      have hkey := swap_run_false hw h hcurrent hread
      simp only [reduceCtorEq, if_false, Program.run_bind, hrun]
      cases hswap : ((swap s false).run t).1 with
      | error e => simpa [hswap, Except.map] using hkey
      | ok _ => simpa [hswap, Except.map] using hkey
    · cases e with
      | notFound => exact absurd rfl he
      | _ => exact Committing.of_same _ hw
  | ok bytes =>
    obtain ⟨htarget, hthere⟩ := hw.read_ok_iff.mp hread
    have hfile : t.lookup (t.placeOf s.target) ≠ some .directory :=
      (Tree.bytesOf_ne_none.mp (by simp [hthere])).2
    by_cases hdigest : Packetry.digest bytes = s.digest
    · have hcurrent : s.isCurrent t = true := Staged.isCurrent_iff.mpr ⟨bytes, hread, hdigest⟩
      simp only [hdigest, if_true, Program.run_bind, Program.run_remove]
      cases hremove : t.remove s.copy with
      | error e => exact Committing.of_same e hw
      | ok t' =>
        obtain ⟨-, hcopy, -, hbecomes⟩ := hw.remove_ok hremove
        exact .current hcurrent hcopy hbecomes
    · -- The target is moved to its backup before its copy takes its place.
      have hcurrent : s.isCurrent t = false := by simp [Staged.isCurrent, hread, hdigest]
      simp only [Option.some.injEq, hdigest, if_false, Program.run_bind, backUp,
        Program.run_exists?, Tree.exists?_of_read_ok hread, if_true, Program.run_rename]
      cases hrename : t.rename s.target (backupPath s.target) with
      | error e => exact Committing.of_same e hw
      | ok t' =>
        have hkey := swap_run_true hw h hcurrent hfile hrename
        simp only [Tree.commit_ok, Program.run_pure, Program.run_bind]
        cases hswap : ((swap s true).run t').1 with
        | error e => simpa [hswap, Except.map] using hkey
        | ok _ => simpa [hswap, Except.map] using hkey

/-- A copy that is gone cannot be committed. If its target is not current, what was at the
place of the backup is lost in the attempt. -/
theorem commitOne_run_of_absent {bytes : ByteArray} (hw : t.WellFormed) (h : Apart t s)
    (habsent : t.lookup (t.placeOf s.copy) = none) (hread : t.read s.target = .ok bytes)
    (hreach : t.Reaches (backupPath s.target))
    (hbak : t.lookup (t.placeOf (backupPath s.target)) ≠ some .directory) :
    ((commitOne s).run t).2.lookup =
      if Packetry.digest bytes = s.digest then t.lookup
      else Function.update t.lookup (t.placeOf (backupPath s.target)) none := by
  obtain ⟨htarget, hbytes⟩ := hw.read_ok_iff.mp hread
  obtain ⟨hthere, hfile⟩ := Tree.bytesOf_ne_none.mp (by rw [hbytes]; simp)
  unfold commitOne
  rw [Program.run_bind, digestOf_run, hread]
  by_cases hdigest : Packetry.digest bytes = s.digest
  · simp only [hdigest, if_true, Program.run_bind, Program.run_remove]
    cases hremove : t.remove s.copy with
    | error e => rfl
    | ok t' => exact absurd habsent (hw.remove_ok hremove).2.1
  · obtain ⟨t', hrename⟩ := htarget.rename_eq hreach hw hthere hfile hbak
    obtain ⟨-, -, -, -, hbecomes⟩ := hw.rename_ok hrename hfile
    have hcopy : t'.lookup (t'.placeOf s.copy) = none := by
      rw [hbecomes.same.placeOf_eq, lookup_of_backUp hw hfile hrename, if_neg h.side,
        if_neg (Ne.symm h.copy), habsent]
    -- The target is at its backup by now. There is no copy to take its place, so that it is moved
    -- back.
    obtain ⟨e, hswap⟩ : ∃ e, t'.rename s.copy s.target = .error e := by
      cases hrename' : t'.rename s.copy s.target with
      | error e => exact ⟨e, rfl⟩
      | ok _ =>
        refine absurd hcopy (hbecomes.wellFormed.rename_ok hrename' ?_).2.2.1
        simp [hcopy]
    obtain ⟨t'', hback, hbecomes'⟩ := rename_back hw h hfile hrename
    obtain ⟨e', hremove⟩ : ∃ e', t''.remove s.copy = .error e' := by
      cases hremove : t''.remove s.copy with
      | error e' => exact ⟨e', rfl⟩
      | ok _ =>
        refine absurd ?_ (hbecomes'.wellFormed.remove_ok hremove).2.1
        rw [hbecomes'.same.placeOf_eq, hbecomes'.lookup, Function.update_of_ne h.side, habsent]
    rw [if_neg hdigest, ← hbecomes'.lookup]
    simp [hdigest, backUp, Tree.exists?_of_read_ok hread, hrename, swap, hswap, hback, hremove]

/-! ### Undoing -/

/-- The files of a replacement can be moved. -/
structure Restorable (t : Tree) (r : Replaced) : Prop where
  /-- The target can be reached. -/
  reaches : t.Reaches r.target
  /-- The target is no directory. -/
  file : t.lookup (t.placeOf r.target) ≠ some .directory
  /-- The backup can be reached and is no directory. -/
  backup : r.hasBackup = true → t.Reaches (backupPath r.target) ∧
    t.lookup (t.placeOf (backupPath r.target)) ≠ some .directory

theorem Restorable.of_same {r : Replaced} (h : Restorable t r) (hsame : t.SameDirectories t') :
    Restorable t' r := by
  refine ⟨hsame.reaches h.reaches, ?_, fun hb => ⟨hsame.reaches (h.backup hb).1, ?_⟩⟩
  · rw [hsame.placeOf_eq, ne_eq, hsame.directory]
    exact h.file
  · rw [hsame.placeOf_eq, ne_eq, hsame.directory]
    exact (h.backup hb).2

/-- No two replacements have a place in common. -/
structure Separate (t : Tree) (replaced : List Replaced) : Prop where
  /-- The targets are different. -/
  targets : replaced.Pairwise fun r r' => t.placeOf r.target ≠ t.placeOf r'.target
  /-- No target is a backup. -/
  sides : ∀ r ∈ replaced, ∀ r' ∈ replaced,
    t.placeOf r.target ≠ t.placeOf (backupPath r'.target)
  /-- Backups are different if their targets are. -/
  backups : ∀ r ∈ replaced, ∀ r' ∈ replaced,
    t.placeOf (backupPath r.target) = t.placeOf (backupPath r'.target) →
      t.placeOf r.target = t.placeOf r'.target

theorem Separate.of_same {replaced : List Replaced} (h : Separate t replaced)
    (hsame : t.SameDirectories t') : Separate t' replaced := by
  refine ⟨?_, ?_, ?_⟩
  · simpa only [hsame.placeOf_eq] using h.targets
  · simpa only [hsame.placeOf_eq] using h.sides
  · simpa only [hsame.placeOf_eq] using h.backups

theorem Separate.tail {r : Replaced} {replaced : List Replaced}
    (h : Separate t (r :: replaced)) : Separate t replaced :=
  ⟨(List.pairwise_cons.mp h.targets).2,
    fun x hx y hy => h.sides x (by simp [hx]) y (by simp [hy]),
    fun x hx y hy => h.backups x (by simp [hx]) y (by simp [hy])⟩

/-- What undoing replacements does to a tree. -/
structure Restored (t : Tree) (replaced : List Replaced) (t' : Tree) : Prop where
  /-- The tree is well formed. -/
  wellFormed : t'.WellFormed
  /-- The directories are the same. -/
  same : t.SameDirectories t'
  /-- A target is what its backup was, if there was one, and is gone otherwise. -/
  target : ∀ r ∈ replaced, t'.lookup (t.placeOf r.target) =
    if r.hasBackup then (t.lookup (t.placeOf (backupPath r.target))).or
      (t.lookup (t.placeOf r.target)) else none
  /-- No backup is left. -/
  backup : ∀ r ∈ replaced, r.hasBackup = true →
    t'.lookup (t.placeOf (backupPath r.target)) = none
  /-- Nothing else has changed. -/
  other : ∀ q, (∀ r ∈ replaced, q ≠ t.placeOf r.target ∧
    (r.hasBackup = true → q ≠ t.placeOf (backupPath r.target))) → t'.lookup q = t.lookup q

/-- One replacement has been undone when its target, its backup and all else are as they
should be. -/
theorem restored_singleton {r : Replaced} (hw : t'.WellFormed) (hsame : t.SameDirectories t')
    (htarget : t'.lookup (t.placeOf r.target) =
      if r.hasBackup then (t.lookup (t.placeOf (backupPath r.target))).or
        (t.lookup (t.placeOf r.target)) else none)
    (hbackup : r.hasBackup = true → t'.lookup (t.placeOf (backupPath r.target)) = none)
    (hother : ∀ q, q ≠ t.placeOf r.target →
      (r.hasBackup = true → q ≠ t.placeOf (backupPath r.target)) → t'.lookup q = t.lookup q) :
    Restored t [r] t' := by
  refine ⟨hw, hsame, ?_, ?_, fun q hq => ?_⟩
  · simpa only [List.forall_mem_singleton] using htarget
  · simpa only [List.forall_mem_singleton] using hbackup
  · obtain ⟨htarget, hbackup⟩ := hq r (List.mem_singleton_self r)
    exact hother q htarget hbackup

/-- Undoing one replacement of a file that had a backup: the backup is moved back, if it is
still there. -/
theorem restore_of_backup {r : Replaced} (hw : t.WellFormed) (h : Restorable t r)
    (hb : r.hasBackup = true)
    (hside : t.placeOf r.target ≠ t.placeOf (backupPath r.target)) (replaced : List Replaced) :
    ∃ t', Restored t [r] t' ∧
      ((restore (r :: replaced)).run t).2 = ((restore replaced).run t').2 := by
  obtain ⟨hreach, hbak⟩ := h.backup hb
  by_cases hthere : t.lookup (t.placeOf (backupPath r.target)) = none
  · refine ⟨t, restored_singleton hw (Tree.SameDirectories.refl t) ?_ (fun _ => hthere)
      fun _ _ _ => rfl, ?_⟩
    · rw [if_pos hb, hthere, Option.none_or]
    · cases hrename : t.rename (backupPath r.target) r.target with
      | error e => simp [restore, hb, hrename]
      | ok t' => exact absurd hthere (hw.rename_ok hrename hbak).2.2.1
  · obtain ⟨t', hrename⟩ := hreach.rename_eq h.reaches hw hthere hbak h.file
    obtain ⟨-, -, -, -, hbecomes⟩ := hw.rename_ok hrename hbak
    have hnow : ∀ q, t'.lookup q =
        if q = t.placeOf r.target then t.lookup (t.placeOf (backupPath r.target))
        else if q = t.placeOf (backupPath r.target) then none else t.lookup q := by
      intro q
      rw [hbecomes.lookup, Tree.movedTo, Function.update_apply, Function.update_apply]
    refine ⟨t', restored_singleton hbecomes.wellFormed hbecomes.same ?_ (fun _ => ?_)
      fun q hq₁ hq₂ => ?_, ?_⟩
    · obtain ⟨e, he⟩ := Option.ne_none_iff_exists'.mp hthere
      rw [hnow, if_pos rfl, if_pos hb, he, Option.some_or]
    · rw [hnow, if_neg (Ne.symm hside), if_pos rfl]
    · rw [hnow, if_neg hq₁, if_neg (hq₂ hb)]
    · simp [restore, hb, hrename]

/-- Undoing one replacement of a file that was not there before: the target is removed, if it
is there. -/
theorem restore_of_no_backup {r : Replaced} (hw : t.WellFormed) (h : Restorable t r)
    (hb : r.hasBackup = false) (replaced : List Replaced) :
    ∃ t', Restored t [r] t' ∧
      ((restore (r :: replaced)).run t).2 = ((restore replaced).run t').2 := by
  have hnever : ∀ {q : Prop}, r.hasBackup = true → q := fun hb' => by simp [hb] at hb'
  by_cases hthere : t.lookup (t.placeOf r.target) = none
  · refine ⟨t, restored_singleton hw (Tree.SameDirectories.refl t) ?_ hnever
      fun _ _ _ => rfl, ?_⟩
    · simp [hb, hthere]
    · cases hremove : t.remove r.target with
      | error e => simp [restore, hb, hremove]
      | ok t' => exact absurd hthere (hw.remove_ok hremove).2.1
  · obtain ⟨t', hremove⟩ := h.reaches.remove_eq hw hthere h.file
    obtain ⟨-, -, -, hbecomes⟩ := hw.remove_ok hremove
    refine ⟨t', restored_singleton hbecomes.wellFormed hbecomes.same ?_ hnever
      fun q hq _ => ?_, ?_⟩
    · simp [hb, hbecomes.lookup]
    · rw [hbecomes.lookup, Function.update_of_ne hq]
    · simp [restore, hb, hremove]

/-- Undoing one replacement. -/
theorem restore_one {r : Replaced} (hw : t.WellFormed) (h : Restorable t r)
    (hside : t.placeOf r.target ≠ t.placeOf (backupPath r.target)) (replaced : List Replaced) :
    ∃ t', Restored t [r] t' ∧
      ((restore (r :: replaced)).run t).2 = ((restore replaced).run t').2 := by
  cases hb : r.hasBackup with
  | true => exact restore_of_backup hw h hb hside replaced
  | false => exact restore_of_no_backup hw h hb replaced

/-- Replacements that have no place in common are undone one by one: what one leaves alone,
the other finds as it was. -/
theorem Restored.cons {r : Replaced} {replaced : List Replaced} {t'' : Tree}
    (hsep : Separate t (r :: replaced)) (hone : Restored t [r] t')
    (hrest : Restored t' replaced t'') : Restored t (r :: replaced) t'' := by
  have htargets : ∀ r' ∈ replaced, t.placeOf r.target ≠ t.placeOf r'.target :=
    (List.pairwise_cons.mp hsep.targets).1
  have hbackups : ∀ r' ∈ replaced,
      t.placeOf (backupPath r.target) ≠ t.placeOf (backupPath r'.target) :=
    fun r' hr' heq => htargets r' hr' (hsep.backups r (by simp) r' (by simp [hr']) heq)
  have hsides : ∀ r' ∈ replaced, t.placeOf r.target ≠ t.placeOf (backupPath r'.target) :=
    fun r' hr' => hsep.sides r (by simp) r' (by simp [hr'])
  have hsides' : ∀ r' ∈ replaced, t.placeOf r'.target ≠ t.placeOf (backupPath r.target) :=
    fun r' hr' => hsep.sides r' (by simp [hr']) r (by simp)
  have hfirst : ∀ q, q ≠ t.placeOf r.target → q ≠ t.placeOf (backupPath r.target) →
      t'.lookup q = t.lookup q :=
    fun q hq hq' => hone.other q (by simpa only [List.forall_mem_singleton] using
      ⟨hq, fun _ => hq'⟩)
  obtain ⟨hw, hsame, htarget, hbackup, hother⟩ := hrest
  simp only [hone.same.placeOf_eq] at htarget hbackup hother
  refine ⟨hw, hone.same.trans hsame, ?_, ?_, ?_⟩
  · intro x hx
    rcases List.mem_cons.mp hx with rfl | hmem
    · rw [hother _ fun r' hr' => ⟨htargets r' hr', fun _ => hsides r' hr'⟩,
        hone.target x (by simp)]
    · rw [htarget x hmem,
        hfirst _ (Ne.symm (hsides x hmem)) (Ne.symm (hbackups x hmem)),
        hfirst _ (Ne.symm (htargets x hmem)) (hsides' x hmem)]
  · intro x hx hb
    rcases List.mem_cons.mp hx with rfl | hmem
    · rw [hother _ fun r' hr' => ⟨Ne.symm (hsides' r' hr'), fun _ => hbackups r' hr'⟩,
        hone.backup x (by simp) hb]
    · exact hbackup x hmem hb
  · intro q hq
    rw [hother q fun r' hr' => hq r' (by simp [hr']), hone.other q]
    simpa only [List.forall_mem_singleton] using hq r (by simp)

/-- **Undoing replacements** moves every backup that is still there back to its target, and
removes the targets that had none. -/
theorem restore_run (replaced : List Replaced) (hw : t.WellFormed)
    (h : ∀ r ∈ replaced, Restorable t r) (hsep : Separate t replaced) :
    Restored t replaced ((restore replaced).run t).2 := by
  induction replaced generalizing t with
  | nil => exact ⟨hw, Tree.SameDirectories.refl t, by simp, by simp, fun q _ => rfl⟩
  | cons r replaced ih =>
    obtain ⟨t', hone, hrun⟩ :=
      restore_one hw (h r (by simp)) (hsep.sides r (by simp) r (by simp)) replaced
    rw [hrun]
    refine .cons hsep hone (ih hone.wellFormed ?_ (hsep.of_same hone.same).tail)
    exact fun r' hr' => (h r' (by simp [hr'])).of_same hone.same

end Transaction

end Packetry
