import Packetry.Proofs.Replacement
import Mathlib.Data.List.Nodup
import Mathlib.Data.List.Pairwise

/-!
# Commits

A commit works through the staged copies in order. What it has done to the tree that it
started from is recorded, copy by copy, by the invariant
`Packetry.Transaction.Underway`: a copy that was committed is gone, and if its target was not
current, what was at the copy is now at the target and what was at the target is now at the
backup. Nothing else has changed, so that the targets that are left are still what they were.

When a copy cannot be committed, the replacements are undone in reverse order. Since no two of
the committed copies have a target in common, every target becomes what it was. There is one
exception. The copy that fails may be meant for a target that was replaced before; its own
copy is gone then, and if the new content of the target has another digest than it, the
backup has been overwritten by the time of the failure, and the target keeps its new content
(`Packetry.Transaction.Overtakes`).

* `Packetry.Transaction.commitFrom_run`: how a commit ends.
-/

namespace Packetry.Transaction

open Disk

variable {t₀ t t' : Tree} {L done rest before after : List Staged} {s u : Staged} {q : Place}

/-! ### The places of the staged copies -/

/-- If no place occurs twice, then two elements with a place in common are the same. -/
theorem eq_or_disjoint_of_nodup {α : Type} {places : α → List Place} {xs : List α} {x y : α}
    (h : (xs.flatMap places).Nodup) (hx : x ∈ xs) (hy : y ∈ xs) :
    x = y ∨ List.Disjoint (places x) (places y) := by
  by_cases heq : x = y
  · exact Or.inl heq
  · have hsymm : Std.Symm (Function.onFun List.Disjoint places) :=
      ⟨fun _ _ hdisjoint _ hq hq' => hdisjoint hq' hq⟩
    exact Or.inr ((List.nodup_flatMap.mp h).2.forall hx hy heq)

/-- Staged copies whose places do not interfere. Several copies may have the same target, but
no target is at the place of a copy or of a backup. -/
structure Layout (t₀ : Tree) (L : List Staged) : Prop where
  /-- No target is a copy. -/
  copies : ∀ s ∈ L, ∀ u ∈ L, t₀.placeOf s.target ≠ t₀.placeOf u.copy
  /-- No target is a backup. -/
  backups : ∀ s ∈ L, ∀ u ∈ L, t₀.placeOf s.target ≠ t₀.placeOf (backupPath u.target)
  /-- No copy is a backup. -/
  sides : ∀ s ∈ L, ∀ u ∈ L, t₀.placeOf s.copy ≠ t₀.placeOf (backupPath u.target)
  /-- Copies at the same place are for the same target. -/
  copy_iff : ∀ s ∈ L, ∀ u ∈ L, t₀.placeOf s.copy = t₀.placeOf u.copy ↔
    t₀.placeOf s.target = t₀.placeOf u.target
  /-- Backups at the same place are of the same target. -/
  backup_iff : ∀ s ∈ L, ∀ u ∈ L,
    t₀.placeOf (backupPath s.target) = t₀.placeOf (backupPath u.target) ↔
      t₀.placeOf s.target = t₀.placeOf u.target
  /-- No copy is a directory. -/
  file : ∀ s ∈ L, t₀.lookup (t₀.placeOf s.copy) ≠ some .directory
  /-- Every copy that is there can be reached. -/
  reaches : ∀ s ∈ L, t₀.lookup (t₀.placeOf s.copy) ≠ none → t₀.Reaches s.copy

/-- A place is one of those that belong to a staged copy. -/
def IsSide (t₀ : Tree) (L : List Staged) (q : Place) : Prop :=
  ∃ s ∈ L, q = t₀.placeOf s.copy ∨ q = t₀.placeOf (backupPath s.target)

theorem Layout.not_isSide (h : Layout t₀ L) (hs : s ∈ L) :
    ¬IsSide t₀ L (t₀.placeOf s.target) := by
  rintro ⟨u, hu, hq | hq⟩
  · exact h.copies s hs u hu hq
  · exact h.backups s hs u hu hq

/-- In a tree with the same directories, the places of a copy are apart. -/
theorem Layout.apart (h : Layout t₀ L) (hsame : t₀.SameDirectories t) (hs : s ∈ L) :
    Apart t s := by
  refine ⟨?_, ?_, ?_, ?_⟩
  · simpa only [hsame.placeOf_eq] using h.copies s hs s hs
  · simpa only [hsame.placeOf_eq] using h.backups s hs s hs
  · simpa only [hsame.placeOf_eq] using h.sides s hs s hs
  · rw [hsame.placeOf_eq, ne_eq, hsame.directory]
    exact h.file s hs

/-! ### The invariant -/

/-- The target of a copy is to be replaced, and can be. -/
structure Swappable (t₀ : Tree) (s : Staged) : Prop where
  /-- The target can be reached. -/
  target : t₀.Reaches s.target
  /-- The target is no directory. -/
  file : t₀.lookup (t₀.placeOf s.target) ≠ some .directory
  /-- The copy is there. -/
  copy : t₀.lookup (t₀.placeOf s.copy) ≠ none
  /-- A target that is there can be moved to its backup. -/
  backup : t₀.lookup (t₀.placeOf s.target) ≠ none → t₀.Reaches (backupPath s.target) ∧
    t₀.lookup (t₀.placeOf (backupPath s.target)) ≠ some .directory

/-- What is at the places of a copy that was committed. -/
structure Settled (t₀ t : Tree) (s : Staged) : Prop where
  /-- The copy is gone. -/
  copy : t.lookup (t₀.placeOf s.copy) = none
  /-- It was there. -/
  copied : t₀.lookup (t₀.placeOf s.copy) ≠ none
  /-- A target that was not current could be replaced. -/
  swappable : s.isCurrent t₀ = false → Swappable t₀ s
  /-- What was at the copy is at the target. -/
  target : s.isCurrent t₀ = false →
    t.lookup (t₀.placeOf s.target) = t₀.lookup (t₀.placeOf s.copy)
  /-- What was at the target is at the backup. -/
  backup : s.isCurrent t₀ = false → t₀.lookup (t₀.placeOf s.target) ≠ none →
    t.lookup (t₀.placeOf (backupPath s.target)) = t₀.lookup (t₀.placeOf s.target)

/-- A place is changed when a copy is committed. -/
def IsTouched (t₀ : Tree) (s : Staged) (q : Place) : Prop :=
  q = t₀.placeOf s.copy ∨ s.isCurrent t₀ = false ∧ (q = t₀.placeOf s.target ∨
    t₀.lookup (t₀.placeOf s.target) ≠ none ∧ q = t₀.placeOf (backupPath s.target))

/-- **The invariant of a commit**: what has become of a tree when the first copies have been
committed. -/
structure Underway (t₀ t : Tree) (done : List Staged) : Prop where
  /-- The tree is well formed. -/
  wellFormed : t.WellFormed
  /-- The directories are the same. -/
  same : t₀.SameDirectories t
  /-- The targets are different. -/
  distinct : done.Pairwise fun s u => t₀.placeOf s.target ≠ t₀.placeOf u.target
  /-- Every copy is settled. -/
  settled : ∀ s ∈ done, Settled t₀ t s
  /-- Nothing else has changed. -/
  other : ∀ q, (∀ s ∈ done, ¬IsTouched t₀ s q) → t.lookup q = t₀.lookup q

theorem Underway.start (hw : t₀.WellFormed) : Underway t₀ t₀ [] :=
  ⟨hw, Tree.SameDirectories.refl t₀, List.Pairwise.nil, by simp, fun _ _ => rfl⟩

/-- Whether a target is current depends only on what is at its place. -/
theorem isCurrent_congr (hw : t₀.WellFormed) (hw' : t.WellFormed)
    (hsame : t₀.SameDirectories t)
    (h : t.lookup (t₀.placeOf s.target) = t₀.lookup (t₀.placeOf s.target)) :
    s.isCurrent t = s.isCurrent t₀ := by
  rw [Bool.eq_iff_iff, Staged.isCurrent_iff, Staged.isCurrent_iff]
  refine exists_congr fun bytes => and_congr_left fun _ => ?_
  rw [hw.read_ok_iff, hw'.read_ok_iff, hsame.placeOf_eq, h]
  exact and_congr_left fun _ => ⟨hsame.symm.reaches, hsame.reaches⟩

/-- A settled copy stays settled as long as its places are left alone. -/
theorem Settled.of_agree (h : Settled t₀ t s)
    (hagree : ∀ q, IsTouched t₀ s q → t'.lookup q = t.lookup q) : Settled t₀ t' s := by
  refine ⟨?_, h.copied, h.swappable, fun hs => ?_, fun hs hthere => ?_⟩
  · rw [hagree _ (Or.inl rfl), h.copy]
  · rw [hagree _ (Or.inr ⟨hs, Or.inl rfl⟩), h.target hs]
  · rw [hagree _ (Or.inr ⟨hs, Or.inr ⟨hthere, rfl⟩⟩), h.backup hs hthere]

/-- Copies with different targets touch different places. -/
theorem Layout.not_isTouched (h : Layout t₀ L) (hs : s ∈ L) (hu : u ∈ L)
    (hne : t₀.placeOf s.target ≠ t₀.placeOf u.target) (hq : IsTouched t₀ s q) :
    q ≠ t₀.placeOf u.target ∧ q ≠ t₀.placeOf u.copy ∧
      q ≠ t₀.placeOf (backupPath u.target) := by
  rcases hq with rfl | ⟨-, rfl | ⟨-, rfl⟩⟩
  · exact ⟨Ne.symm (h.copies u hu s hs), fun heq => hne ((h.copy_iff s hs u hu).mp heq),
      h.sides s hs u hu⟩
  · exact ⟨hne, h.copies s hs u hu, h.backups s hs u hu⟩
  · exact ⟨Ne.symm (h.backups u hu s hs), Ne.symm (h.sides u hu s hs),
      fun heq => hne ((h.backup_iff s hs u hu).mp heq)⟩

/-- The places of a copy that is still to come are what they were. -/
theorem Underway.lookup_eq (h : Underway t₀ t done) (hL : Layout t₀ L) (hdone : done ⊆ L)
    (hs : s ∈ L) (hne : ∀ u ∈ done, t₀.placeOf u.target ≠ t₀.placeOf s.target)
    (hq : q = t₀.placeOf s.target ∨ q = t₀.placeOf s.copy ∨
      q = t₀.placeOf (backupPath s.target)) : t.lookup q = t₀.lookup q := by
  refine h.other q fun u hu htouched => ?_
  obtain ⟨h₁, h₂, h₃⟩ := hL.not_isTouched (hdone hu) hs (hne u hu) htouched
  rcases hq with hq | hq | hq
  · exact h₁ hq
  · exact h₂ hq
  · exact h₃ hq

/-- The step of the invariant: committing one more copy settles it, if only its own places
change. -/
theorem Underway.snoc (h : Underway t₀ t done) (hL : Layout t₀ L) (hdone : done ⊆ L)
    (hs : s ∈ L) (hne : ∀ u ∈ done, t₀.placeOf u.target ≠ t₀.placeOf s.target)
    (hw' : t'.WellFormed) (hsame : t.SameDirectories t') (hsettled : Settled t₀ t' s)
    (hother : ∀ q, ¬IsTouched t₀ s q → t'.lookup q = t.lookup q) :
    Underway t₀ t' (done ++ [s]) := by
  refine ⟨hw', h.same.trans hsame, ?_, ?_, ?_⟩
  · refine List.pairwise_append.mpr ⟨h.distinct, List.pairwise_singleton _ _, ?_⟩
    intro u hu x hx
    obtain rfl : x = s := by simpa using hx
    exact hne u hu
  · intro u hu
    rcases List.mem_append.mp hu with hu | hu
    · refine (h.settled u hu).of_agree fun q hq => hother q fun hq' => ?_
      obtain ⟨h₁, h₂, h₃⟩ := hL.not_isTouched (hdone hu) hs (hne u hu) hq
      rcases hq' with hq' | ⟨-, hq' | ⟨-, hq'⟩⟩
      · exact h₂ hq'
      · exact h₁ hq'
      · exact h₃ hq'
    · obtain rfl : u = s := by simpa using hu
      exact hsettled
  · intro q hq
    rw [hother q (hq s (by simp)), h.other q fun u hu => hq u (by simp [hu])]

/-! ### One more copy -/

/-- Committing a copy whose target is current. -/
theorem Underway.step_current (h : Underway t₀ t done) (hw : t₀.WellFormed) (hL : Layout t₀ L)
    (hdone : done ⊆ L) (hs : s ∈ L)
    (hne : ∀ u ∈ done, t₀.placeOf u.target ≠ t₀.placeOf s.target)
    (hcurrent : s.isCurrent t = true) (hthere : t.lookup (t.placeOf s.copy) ≠ none)
    (hbecomes : t.Becomes (Function.update t.lookup (t.placeOf s.copy) none) t') :
    s.isCurrent t₀ = true ∧ Underway t₀ t' (done ++ [s]) := by
  have hplace := h.same.placeOf_eq
  have hcurrent₀ : s.isCurrent t₀ = true := by
    rwa [← isCurrent_congr hw h.wellFormed h.same
      (h.lookup_eq hL hdone hs hne (Or.inl rfl))]
  rw [hplace] at hthere
  rw [hplace] at hbecomes
  refine ⟨hcurrent₀, h.snoc hL hdone hs hne hbecomes.wellFormed hbecomes.same ?_ ?_⟩
  · refine ⟨?_, ?_, ?_, ?_, ?_⟩
    · rw [hbecomes.lookup, Function.update_self]
    · rwa [← h.lookup_eq hL hdone hs hne (Or.inr (Or.inl rfl))]
    all_goals
      intro hcurrent'
      rw [hcurrent₀] at hcurrent'
      exact absurd hcurrent' (by simp)
  · intro q hq
    rw [hbecomes.lookup, Function.update_of_ne]
    rintro rfl
    exact hq (Or.inl rfl)

/-- Committing a copy that takes the place of its target. -/
theorem Underway.step_swapped (h : Underway t₀ t done) (hw : t₀.WellFormed) (hL : Layout t₀ L)
    (hdone : done ⊆ L) (hs : s ∈ L)
    (hne : ∀ u ∈ done, t₀.placeOf u.target ≠ t₀.placeOf s.target)
    (hcurrent : s.isCurrent t = false) (htarget : t.Reaches s.target)
    (hfile : t.lookup (t.placeOf s.target) ≠ some .directory)
    (hthere : t.lookup (t.placeOf s.copy) ≠ none)
    (hbackup : t.lookup (t.placeOf s.target) ≠ none → t.Reaches (backupPath s.target) ∧
      t.lookup (t.placeOf (backupPath s.target)) ≠ some .directory)
    (hbecomes : t.Becomes (swapped t s) t') :
    s.isCurrent t₀ = false ∧ Underway t₀ t' (done ++ [s]) := by
  have hplace := h.same.placeOf_eq
  have hsame := h.same.symm
  have hcurrent₀ : s.isCurrent t₀ = false := by
    rwa [← isCurrent_congr hw h.wellFormed h.same
      (h.lookup_eq hL hdone hs hne (Or.inl rfl))]
  -- The three places of the copy are still what they were when the commit started.
  have hT := h.lookup_eq hL hdone hs hne (Or.inl rfl)
  have hC := h.lookup_eq hL hdone hs hne (Or.inr (Or.inl rfl))
  have hB := h.lookup_eq hL hdone hs hne (Or.inr (Or.inr rfl))
  have hnow : ∀ q, t'.lookup q =
      if q = t₀.placeOf s.target then t₀.lookup (t₀.placeOf s.copy)
      else if q = t₀.placeOf s.copy then none
      else if q = t₀.placeOf (backupPath s.target) ∧ t₀.lookup (t₀.placeOf s.target) ≠ none then
        t₀.lookup (t₀.placeOf s.target)
      else t.lookup q := by
    intro q
    rw [hbecomes.lookup, swapped_apply (hL.apart h.same hs)]
    simp only [hplace, hT, hC]
  simp only [hplace, hT, hC, hB] at hfile hthere hbackup
  have hswappable : Swappable t₀ s :=
    ⟨hsame.reaches htarget, hfile, hthere, fun hne => ⟨hsame.reaches (hbackup hne).1,
      (hbackup hne).2⟩⟩
  refine ⟨hcurrent₀, h.snoc hL hdone hs hne hbecomes.wellFormed hbecomes.same ?_ ?_⟩
  · refine ⟨?_, hthere, fun _ => hswappable, fun _ => ?_, fun _ hne => ?_⟩
    · rw [hnow, if_neg (Ne.symm (hL.copies s hs s hs)), if_pos rfl]
    · rw [hnow, if_pos rfl]
    · rw [hnow, if_neg (Ne.symm (hL.backups s hs s hs)), if_neg (Ne.symm (hL.sides s hs s hs)),
        if_pos ⟨rfl, hne⟩]
  · intro q hq
    rw [hnow, if_neg, if_neg, if_neg]
    · rintro ⟨rfl, hne⟩
      exact hq (Or.inr ⟨hcurrent₀, Or.inr ⟨hne, rfl⟩⟩)
    · rintro rfl
      exact hq (Or.inl rfl)
    · rintro rfl
      exact hq (Or.inr ⟨hcurrent₀, Or.inl rfl⟩)

/-- **One more copy is committed**: it was there, so that its target was not replaced before, and
the invariant goes on. -/
theorem Underway.step (h : Underway t₀ t done) (hw : t₀.WellFormed) (hL : Layout t₀ L)
    (hdone : done ⊆ L) (hs : s ∈ L) {r : Option Replaced}
    (hrun : (commitOne s).run t = (.ok r, t')) :
    (∀ u ∈ done, t₀.placeOf u.target ≠ t₀.placeOf s.target) ∧ Underway t₀ t' (done ++ [s]) ∧
      r = if s.isCurrent t₀ then none
        else some ⟨s.target, (t₀.lookup (t₀.placeOf s.target)).isSome⟩ := by
  have hplace := h.same.placeOf_eq
  -- The copy of a target that was replaced before is gone.
  have hne : t.lookup (t.placeOf s.copy) ≠ none →
      ∀ u ∈ done, t₀.placeOf u.target ≠ t₀.placeOf s.target := by
    intro hthere u hu heq
    rw [hplace, ← (hL.copy_iff u (hdone hu) s hs).mpr heq] at hthere
    exact hthere (h.settled u hu).copy
  have hone := commitOne_run h.wellFormed (hL.apart h.same hs)
  rw [hrun] at hone
  cases hone with
  | current hcurrent hthere hbecomes =>
    obtain ⟨hcurrent₀, hnext⟩ := h.step_current hw hL hdone hs (hne hthere) hcurrent hthere hbecomes
    exact ⟨hne hthere, hnext, by rw [if_pos hcurrent₀]⟩
  | swapped hcurrent htarget hfile hthere hbackup hbecomes =>
    obtain ⟨hcurrent₀, hnext⟩ := h.step_swapped hw hL hdone hs (hne hthere) hcurrent htarget hfile
      hthere hbackup hbecomes
    have hT := h.lookup_eq hL hdone hs (hne hthere) (Or.inl rfl)
    exact ⟨hne hthere, hnext, by rw [if_neg (by simp [hcurrent₀]), hplace, hT]⟩

/-! ### After a failure -/

/-- The replacements of targets that were not current. -/
def replacements (t₀ : Tree) (done : List Staged) : List Replaced :=
  (done.filter (!·.isCurrent t₀)).map fun s =>
    ⟨s.target, (t₀.lookup (t₀.placeOf s.target)).isSome⟩

theorem mem_replacements {r : Replaced} : r ∈ replacements t₀ done ↔
    ∃ s ∈ done, s.isCurrent t₀ = false ∧
      r = ⟨s.target, (t₀.lookup (t₀.placeOf s.target)).isSome⟩ := by
  simp only [replacements, List.mem_map, List.mem_filter, Bool.not_eq_true']
  constructor
  · rintro ⟨s, ⟨hs, hcurrent⟩, rfl⟩
    exact ⟨s, hs, hcurrent, rfl⟩
  · rintro ⟨s, hs, hcurrent, rfl⟩
    exact ⟨s, ⟨hs, hcurrent⟩, rfl⟩

/-- A copy is for a target at a place that has been replaced before, and was there. -/
def Overtakes (t₀ : Tree) (before : List Staged) (s : Staged) (q : Place) : Prop :=
  q = t₀.placeOf s.target ∧ t₀.lookup q ≠ none ∧
    ∃ u ∈ before, t₀.placeOf u.target = q ∧ u.isCurrent t₀ = false

/-- **What is left of a commit** that has failed at a copy, after some were committed. The
proposition says whether a backup was lost in the failure. -/
structure Undone (t₀ : Tree) (L before : List Staged) (s : Staged) (lost : Prop) (t' : Tree) :
    Prop where
  /-- The tree is well formed. -/
  wellFormed : t'.WellFormed
  /-- The directories are the same. -/
  same : t₀.SameDirectories t'
  /-- No copy is left. -/
  copy : ∀ u ∈ L, t'.lookup (t₀.placeOf u.copy) = none
  /-- What is at the places of backups was there before. -/
  side : ∀ q, IsSide t₀ L q → t'.lookup q = none ∨ t'.lookup q = t₀.lookup q
  /-- A target whose backup was lost is what its copy was. -/
  overtaken : ∀ q, Overtakes t₀ before s q → lost →
    t'.lookup q = t₀.lookup (t₀.placeOf s.copy)
  /-- Everything else is what it was. -/
  other : ∀ q, ¬IsSide t₀ L q → ¬(Overtakes t₀ before s q ∧ lost) →
    t'.lookup q = t₀.lookup q

/-- Replacements of different targets are separate. -/
theorem separate_replacements (hL : Layout t₀ L) (hbefore : before ⊆ L)
    (hdistinct : before.Pairwise fun s u => t₀.placeOf s.target ≠ t₀.placeOf u.target) :
    Separate t₀ (replacements t₀ before).reverse := by
  refine ⟨?_, ?_, ?_⟩
  · rw [List.pairwise_reverse, replacements, List.pairwise_map]
    exact (hdistinct.sublist List.filter_sublist).imp fun h => Ne.symm h
  · intro r hr r' hr'
    obtain ⟨s, hs, -, rfl⟩ := mem_replacements.mp (List.mem_reverse.mp hr)
    obtain ⟨u, hu, -, rfl⟩ := mem_replacements.mp (List.mem_reverse.mp hr')
    exact hL.backups s (hbefore hs) u (hbefore hu)
  · intro r hr r' hr'
    obtain ⟨s, hs, -, rfl⟩ := mem_replacements.mp (List.mem_reverse.mp hr)
    obtain ⟨u, hu, -, rfl⟩ := mem_replacements.mp (List.mem_reverse.mp hr')
    exact (hL.backup_iff s (hbefore hs) u (hbefore hu)).mp

/-- What was replaced can be restored. -/
theorem Underway.restorable (h : Underway t₀ t before) {r : Replaced}
    (hr : r ∈ replacements t₀ before) : Restorable t₀ r := by
  obtain ⟨s, hs, hcurrent, rfl⟩ := mem_replacements.mp hr
  have hswappable := (h.settled s hs).swappable hcurrent
  refine ⟨hswappable.target, hswappable.file, fun hb => hswappable.backup ?_⟩
  exact Option.isSome_iff_ne_none.mp hb

/-- What undoing the replacements makes of the entries of a tree. -/
structure RolledBack (t₀ : Tree) (before : List Staged) (f f' : Place → Option Disk.Entry) :
    Prop where
  /-- A target that was there is what its backup is, if there is one. Any other is gone. -/
  target : ∀ u ∈ before, u.isCurrent t₀ = false →
    f' (t₀.placeOf u.target) = if t₀.lookup (t₀.placeOf u.target) ≠ none then
      (f (t₀.placeOf (backupPath u.target))).or (f (t₀.placeOf u.target)) else none
  /-- The backup is gone. -/
  backup : ∀ u ∈ before, u.isCurrent t₀ = false → t₀.lookup (t₀.placeOf u.target) ≠ none →
    f' (t₀.placeOf (backupPath u.target)) = none
  /-- Nothing else has changed. -/
  other : ∀ q, (∀ u ∈ before, u.isCurrent t₀ = false → q ≠ t₀.placeOf u.target ∧
    (t₀.lookup (t₀.placeOf u.target) ≠ none → q ≠ t₀.placeOf (backupPath u.target))) →
    f' q = f q

/-- Undoing the replacements after a failure. -/
theorem Underway.restored (h : Underway t₀ t before) (hL : Layout t₀ L) (hbefore : before ⊆ L)
    (hw' : t'.WellFormed) (hsame : t.SameDirectories t') :
    ∃ t'', ((restore (replacements t₀ before).reverse).run t').2 = t'' ∧ t''.WellFormed ∧
      t'.SameDirectories t'' ∧ RolledBack t₀ before t'.lookup t''.lookup := by
  have hplace := (h.same.trans hsame).placeOf_eq
  have hmem : ∀ u ∈ before, u.isCurrent t₀ = false →
      ⟨u.target, (t₀.lookup (t₀.placeOf u.target)).isSome⟩ ∈
        (replacements t₀ before).reverse :=
    fun u hu hcurrent => List.mem_reverse.mpr (mem_replacements.mpr ⟨u, hu, hcurrent, rfl⟩)
  have hkey : Restored t' (replacements t₀ before).reverse
      ((restore (replacements t₀ before).reverse).run t').2 :=
    restore_run _ hw'
      (fun r hr => (h.restorable (List.mem_reverse.mp hr)).of_same (h.same.trans hsame))
      ((separate_replacements hL hbefore h.distinct).of_same (h.same.trans hsame))
  refine ⟨_, rfl, hkey.wellFormed, hkey.same, ?_, ?_, ?_⟩
  · intro u hu hcurrent
    simpa only [hplace, Option.isSome_iff_ne_none] using hkey.target _ (hmem u hu hcurrent)
  · intro u hu hcurrent hthere
    simpa only [hplace] using
      hkey.backup _ (hmem u hu hcurrent) (Option.isSome_iff_ne_none.mpr hthere)
  · intro q hq
    refine hkey.other q fun r hr => ?_
    obtain ⟨u, hu, hcurrent, rfl⟩ := mem_replacements.mp (List.mem_reverse.mp hr)
    simpa only [hplace, Option.isSome_iff_ne_none] using hq u hu hcurrent

/-- Removing copies, as far as they are still there. -/
theorem Layout.removeAll_run (hL : Layout t₀ L) (hrest : rest ⊆ L) (hw : t.WellFormed)
    (hsame : t₀.SameDirectories t)
    (hcopy : ∀ u ∈ rest, t.lookup (t₀.placeOf u.copy) ≠ none →
      t₀.lookup (t₀.placeOf u.copy) ≠ none) :
    t.Becomes (fun q => if ∃ u ∈ rest, t₀.placeOf u.copy = q then none else t.lookup q)
      ((removeAll (rest.map (·.copy))).run t).2 := by
  refine (Packetry.removeAll_run _ hw ?_ ?_).congr ?_
  · intro p hp hthere
    obtain ⟨u, hu, rfl⟩ := List.mem_map.mp hp
    rw [hsame.placeOf_eq] at hthere
    exact hsame.reaches (hL.reaches u (hrest hu) (hcopy u hu hthere))
  · intro p hp
    obtain ⟨u, hu, rfl⟩ := List.mem_map.mp hp
    rw [hsame.placeOf_eq, ne_eq, hsame.directory]
    exact hL.file u (hrest hu)
  · funext q
    simp only [hsame.placeOf_eq, List.mem_map, exists_exists_and_eq_and]

/-- A copy that is there was there when the commit started. -/
theorem Underway.copy_ne_none (h : Underway t₀ t done) (hL : Layout t₀ L) (hdone : done ⊆ L)
    (hu : u ∈ L) (hthere : t.lookup (t₀.placeOf u.copy) ≠ none) :
    t₀.lookup (t₀.placeOf u.copy) ≠ none := by
  by_cases hne : ∀ x ∈ done, t₀.placeOf x.target ≠ t₀.placeOf u.target
  · rwa [← h.lookup_eq hL hdone hu hne (Or.inr (Or.inl rfl))]
  · simp only [not_forall, not_not] at hne
    obtain ⟨x, hx, heq⟩ := hne
    rw [← (hL.copy_iff x (hdone hx) u hu).mpr heq, (h.settled x hx).copy] at hthere
    exact absurd rfl hthere

section RolledBack

variable {f f' : Place → Option Disk.Entry}

/-- A failure at a copy changes nothing but, perhaps, the places of the copy and its backup. -/
def Spoils (t₀ t : Tree) (s : Staged) (f : Place → Option Disk.Entry) : Prop :=
  ∀ q, f q = t.lookup q ∨
    (q = t₀.placeOf s.copy ∨ q = t₀.placeOf (backupPath s.target)) ∧ f q = none

/-- It changes nothing at the places that are no sides. -/
theorem Spoils.eq_of_not_isSide (h : Spoils t₀ t s f) (hs : s ∈ L) (hq : ¬IsSide t₀ L q) :
    f q = t.lookup q := by
  rcases h q with h | ⟨hside, -⟩
  · exact h
  · exact absurd ⟨s, hs, hside⟩ hq

/-- The places of copies are left alone when replacements are undone. -/
theorem RolledBack.copy (h : RolledBack t₀ before f f') (hL : Layout t₀ L)
    (hbefore : before ⊆ L) (hu : u ∈ L) : f' (t₀.placeOf u.copy) = f (t₀.placeOf u.copy) :=
  h.other _ fun x hx _ => ⟨Ne.symm (hL.copies x (hbefore hx) u hu),
    fun _ => hL.sides u hu x (hbefore hx)⟩

/-- What is at the place of a backup was there before. -/
theorem RolledBack.side (h : RolledBack t₀ before f f') (hunderway : Underway t₀ t before)
    (hL : Layout t₀ L) (hbefore : before ⊆ L) (hspoils : Spoils t₀ t s f) (hu : u ∈ L) :
    f' (t₀.placeOf (backupPath u.target)) = none ∨
      f' (t₀.placeOf (backupPath u.target)) = t₀.lookup (t₀.placeOf (backupPath u.target)) := by
  -- Either a target was restored from this place, or nothing was ever put there.
  by_cases hlost : ∃ x ∈ before, x.isCurrent t₀ = false ∧
      t₀.lookup (t₀.placeOf x.target) ≠ none ∧
      t₀.placeOf (backupPath u.target) = t₀.placeOf (backupPath x.target)
  · obtain ⟨x, hx, hcurrent, hthere, heq⟩ := hlost
    rw [heq]
    exact Or.inl (h.backup x hx hcurrent hthere)
  · have hnot : ∀ x ∈ before, ¬IsTouched t₀ x (t₀.placeOf (backupPath u.target)) := by
      rintro x hx (heq | ⟨hcurrent, heq | ⟨hthere, heq⟩⟩)
      · exact hL.sides x (hbefore hx) u hu heq.symm
      · exact hL.backups x (hbefore hx) u hu heq.symm
      · exact hlost ⟨x, hx, hcurrent, hthere, heq⟩
    rw [h.other _ fun x hx hcurrent => ⟨fun heq => hnot x hx (Or.inr ⟨hcurrent, Or.inl heq⟩),
      fun hthere heq => hnot x hx (Or.inr ⟨hcurrent, Or.inr ⟨hthere, heq⟩⟩)⟩]
    rcases hspoils (t₀.placeOf (backupPath u.target)) with heq | ⟨-, hnone⟩
    · rw [heq, hunderway.other _ hnot]
      exact Or.inr rfl
    · exact Or.inl hnone

/-- A target that the failing copy is for as well is what its copy was, if the backup was lost. -/
theorem RolledBack.overtaken (h : RolledBack t₀ before f f') (hunderway : Underway t₀ t before)
    (hL : Layout t₀ L) (hbefore : before ⊆ L) (hspoils : Spoils t₀ t s f) (hs : s ∈ L)
    (hq : Overtakes t₀ before s q) (hlost : f (t₀.placeOf (backupPath s.target)) = none) :
    f' q = t₀.lookup (t₀.placeOf s.copy) := by
  obtain ⟨rfl, hthere, u, hu, heq, hcurrent⟩ := hq
  have hB := (hL.backup_iff u (hbefore hu) s hs).mpr heq
  have hC := (hL.copy_iff u (hbefore hu) s hs).mpr heq
  rw [← heq] at hthere ⊢
  rw [h.target u hu hcurrent, if_pos hthere, hB, hlost, Option.none_or,
    hspoils.eq_of_not_isSide hs (hL.not_isSide (hbefore hu)),
    (hunderway.settled u hu).target hcurrent, hC]

/-- Every other place that is no side is what it was. -/
theorem RolledBack.kept (h : RolledBack t₀ before f f') (hunderway : Underway t₀ t before)
    (hL : Layout t₀ L) (hbefore : before ⊆ L) (hspoils : Spoils t₀ t s f) (hs : s ∈ L)
    (hq : ¬IsSide t₀ L q)
    (hkept : ¬(Overtakes t₀ before s q ∧ f (t₀.placeOf (backupPath s.target)) = none)) :
    f' q = t₀.lookup q := by
  -- A target that was replaced is restored, and no other place was touched.
  by_cases hreplaced : ∃ u ∈ before, u.isCurrent t₀ = false ∧ q = t₀.placeOf u.target
  · obtain ⟨u, hu, hcurrent, rfl⟩ := hreplaced
    rw [h.target u hu hcurrent]
    by_cases hthere : t₀.lookup (t₀.placeOf u.target) = none
    · simp [hthere]
    · rw [if_pos hthere]
      rcases hspoils (t₀.placeOf (backupPath u.target)) with hB | ⟨heq | heq, hB⟩
      · obtain ⟨e, he⟩ := Option.ne_none_iff_exists'.mp hthere
        rw [hB, (hunderway.settled u hu).backup hcurrent hthere, he]
        rfl
      · exact absurd heq.symm (hL.sides s hs u (hbefore hu))
      · have hT := (hL.backup_iff u (hbefore hu) s hs).mp heq
        exact absurd ⟨⟨hT, hthere, u, hu, rfl, hcurrent⟩, heq ▸ hB⟩ hkept
  · have hnot : ∀ u ∈ before, ¬IsTouched t₀ u q := by
      rintro u hu (heq | ⟨hcurrent, heq | ⟨-, heq⟩⟩)
      · exact hq ⟨u, hbefore hu, Or.inl heq⟩
      · exact hreplaced ⟨u, hu, hcurrent, heq⟩
      · exact hq ⟨u, hbefore hu, Or.inr heq⟩
    rw [h.other q fun u hu hcurrent => ⟨fun heq => hreplaced ⟨u, hu, hcurrent, heq⟩,
      fun _ heq => hq ⟨u, hbefore hu, Or.inr heq⟩⟩, hspoils.eq_of_not_isSide hs hq,
      hunderway.other q hnot]

/-- Undoing the replacements and removing the copies that are left, after a failure. -/
theorem Underway.undone (h : Underway t₀ t before) (hL : Layout t₀ L)
    (hparts : L = before ++ s :: after) (hbecomes : t.Becomes f t') (hf : Spoils t₀ t s f) :
    Undone t₀ L before s (f (t₀.placeOf (backupPath s.target)) = none)
      ((removeAll ((s :: after).map (·.copy))).run
        ((restore (replacements t₀ before).reverse).run t').2).2 := by
  have hbefore : before ⊆ L := by simp [hparts]
  have hafter : s :: after ⊆ L := by simp [hparts]
  have hs : s ∈ L := hafter (by simp)
  obtain ⟨t₂, hrun, hw₂, hsame₂, hback⟩ :=
    h.restored hL hbefore hbecomes.wellFormed hbecomes.same
  rw [hrun]
  rw [hbecomes.lookup] at hback
  -- Undoing the replacements brings no copy back.
  have hcopies : ∀ u ∈ L, t₂.lookup (t₀.placeOf u.copy) ≠ none →
      t.lookup (t₀.placeOf u.copy) ≠ none := by
    intro u hu hthere
    rw [hback.copy hL hbefore hu] at hthere
    rcases hf (t₀.placeOf u.copy) with h' | ⟨-, h'⟩
    · rwa [← h']
    · exact absurd h' hthere
  have hremoved := hL.removeAll_run hafter hw₂ ((h.same.trans hbecomes.same).trans hsame₂)
    fun u hu hthere => h.copy_ne_none hL hbefore (hafter hu) (hcopies u (hafter hu) hthere)
  generalize ((removeAll ((s :: after).map (·.copy))).run t₂).2 = t₃ at hremoved ⊢
  -- Away from the copies, only the undoing of the replacements matters.
  have hnow : ∀ q, (∀ u ∈ L, q ≠ t₀.placeOf u.copy) → t₃.lookup q = t₂.lookup q := by
    intro q hq
    rw [hremoved.lookup]
    refine if_neg ?_
    rintro ⟨u, hu, rfl⟩
    exact hq u (hafter hu) rfl
  have hnow' : ∀ q, ¬IsSide t₀ L q → t₃.lookup q = t₂.lookup q :=
    fun q hq => hnow q fun u hu heq => hq ⟨u, hu, Or.inl heq⟩
  have hcopy : ∀ u ∈ L, t₃.lookup (t₀.placeOf u.copy) = none := by
    intro u hu
    rw [hremoved.lookup]
    dsimp only
    split
    · rfl
    · rename_i hnot
      by_contra hthere
      rw [hparts] at hu
      -- A copy that was committed is gone already. The others are removed now.
      rcases List.mem_append.mp hu with hu | hu
      · exact hcopies u (hbefore hu) hthere (h.settled u hu).copy
      · exact hnot ⟨u, hu, rfl⟩
  refine ⟨hremoved.wellFormed, ((h.same.trans hbecomes.same).trans hsame₂).trans hremoved.same,
    hcopy, ?_, fun q hq hlost => ?_, fun q hq hkept => ?_⟩
  · rintro q ⟨u, hu, rfl | rfl⟩
    · exact Or.inl (hcopy u hu)
    · rw [hnow _ fun x hx => Ne.symm (hL.sides x hx u hu)]
      exact hback.side h hL hbefore hf hu
  · rw [hnow' q (hq.1 ▸ hL.not_isSide hs)]
    exact hback.overtaken h hL hbefore hf hs hq hlost
  · rw [hnow' q hq]
    exact hback.kept h hL hbefore hf hs hq hkept

end RolledBack

/-! ### The whole commit -/

/-- What a commit says of a copy, by the tree that it starts from. -/
def outcomeOf (t₀ : Tree) (s : Staged) : Outcome :=
  if s.isCurrent t₀ then .unchanged s.target else .written s.target

/-- **What a commit leaves behind** when every copy was committed. -/
structure Committed (t₀ : Tree) (L : List Staged) (t' : Tree) : Prop where
  /-- The tree is well formed. -/
  wellFormed : t'.WellFormed
  /-- The directories are the same. -/
  same : t₀.SameDirectories t'
  /-- The targets are different. -/
  distinct : L.Pairwise fun s u => t₀.placeOf s.target ≠ t₀.placeOf u.target
  /-- Every copy was there. -/
  copied : ∀ s ∈ L, t₀.lookup (t₀.placeOf s.copy) ≠ none
  /-- No copy is left. -/
  copy : ∀ s ∈ L, t'.lookup (t₀.placeOf s.copy) = none
  /-- A target that was not current could be replaced. -/
  swappable : ∀ s ∈ L, s.isCurrent t₀ = false → Swappable t₀ s
  /-- It is what its copy was. -/
  target : ∀ s ∈ L, s.isCurrent t₀ = false →
    t'.lookup (t₀.placeOf s.target) = t₀.lookup (t₀.placeOf s.copy)
  /-- No backup is left. -/
  backup : ∀ s ∈ L, s.isCurrent t₀ = false → t₀.lookup (t₀.placeOf s.target) ≠ none →
    t'.lookup (t₀.placeOf (backupPath s.target)) = none
  /-- Nothing else has changed. -/
  other : ∀ q, (∀ s ∈ L, ¬IsTouched t₀ s q) → t'.lookup q = t₀.lookup q

/-- The ways in which a commit ends. -/
inductive Finished (t₀ : Tree) (L : List Staged) :
    Except WriteFailure (List Outcome) → Tree → Prop where
  /-- Every copy was committed. -/
  | committed {t' : Tree} (h : Committed t₀ L t') :
      Finished t₀ L (.ok (L.map (outcomeOf t₀))) t'
  /-- A copy could not be committed. A backup is lost if the copy is for a target that has
  been replaced before, by a content with another digest. -/
  | failed {t' : Tree} {before after : List Staged} {s : Staged} {lost : Prop}
      (cause : Disk.Error) (hparts : L = before ++ s :: after)
      (h : Undone t₀ L before s lost t')
      (hlost : ∀ q bytes, Overtakes t₀ before s q → t₀.Reaches s.target →
        t₀.Reaches (backupPath s.target) →
        Tree.bytesOf (t₀.lookup (t₀.placeOf s.copy)) = some bytes →
        (lost ↔ Packetry.digest bytes ≠ s.digest)) :
      Finished t₀ L (.error (.commit s.target cause)) t'

/-- Removing the backups when every copy has been committed. -/
theorem Underway.committed (h : Underway t₀ t L) (hL : Layout t₀ L) :
    Committed t₀ L ((removeAll (((replacements t₀ L).filter (·.hasBackup)).map fun r =>
      backupPath r.target)).run t).2 := by
  have hplace := h.same.placeOf_eq
  have hmem : ∀ p, p ∈ ((replacements t₀ L).filter (·.hasBackup)).map (fun r =>
      backupPath r.target) ↔ ∃ s ∈ L, s.isCurrent t₀ = false ∧
        t₀.lookup (t₀.placeOf s.target) ≠ none ∧ p = backupPath s.target := by
    intro p
    simp only [List.mem_map, List.mem_filter]
    constructor
    · rintro ⟨r, ⟨hr, hb⟩, rfl⟩
      obtain ⟨s, hs, hcurrent, rfl⟩ := mem_replacements.mp hr
      exact ⟨s, hs, hcurrent, Option.isSome_iff_ne_none.mp hb, rfl⟩
    · rintro ⟨s, hs, hcurrent, hthere, rfl⟩
      exact ⟨_, ⟨mem_replacements.mpr ⟨s, hs, hcurrent, rfl⟩,
        Option.isSome_iff_ne_none.mpr hthere⟩, rfl⟩
  have hremoved := Packetry.removeAll_run (((replacements t₀ L).filter (·.hasBackup)).map fun r =>
    backupPath r.target) h.wellFormed (fun p hp _ => by
      obtain ⟨s, hs, hcurrent, hthere, rfl⟩ := (hmem p).mp hp
      exact h.same.reaches (((h.settled s hs).swappable hcurrent).backup hthere).1)
    (fun p hp => by
      obtain ⟨s, hs, hcurrent, hthere, rfl⟩ := (hmem p).mp hp
      rw [hplace, ne_eq, h.same.directory]
      exact (((h.settled s hs).swappable hcurrent).backup hthere).2)
  generalize ((removeAll (((replacements t₀ L).filter (·.hasBackup)).map fun r =>
    backupPath r.target)).run t).2 = t' at hremoved ⊢
  -- Away from the backups, the tree is what the last copy left of it.
  have hnow : ∀ q, (∀ s ∈ L, s.isCurrent t₀ = false →
      t₀.lookup (t₀.placeOf s.target) ≠ none → q ≠ t₀.placeOf (backupPath s.target)) →
      t'.lookup q = t.lookup q := by
    intro q hq
    rw [hremoved.lookup]
    refine if_neg ?_
    rintro ⟨p, hp, heq⟩
    obtain ⟨s, hs, hcurrent, hthere, rfl⟩ := (hmem p).mp hp
    rw [hplace] at heq
    exact hq s hs hcurrent hthere heq.symm
  refine ⟨hremoved.wellFormed, h.same.trans hremoved.same, h.distinct,
    fun s hs => (h.settled s hs).copied, ?_, fun s hs => (h.settled s hs).swappable, ?_, ?_, ?_⟩
  · intro s hs
    rw [hnow _ fun u hu _ _ => hL.sides s hs u hu, (h.settled s hs).copy]
  · intro s hs hcurrent
    rw [hnow _ fun u hu _ _ => hL.backups s hs u hu, (h.settled s hs).target hcurrent]
  · intro s hs hcurrent hthere
    rw [hremoved.lookup]
    exact if_pos ⟨_, (hmem _).mpr ⟨s, hs, hcurrent, hthere, rfl⟩, hplace _⟩
  · intro q hq
    rw [hnow q fun s hs hcurrent hthere heq => hq s hs (Or.inr ⟨hcurrent, Or.inr ⟨hthere, heq⟩⟩),
      h.other q hq]

/-- Whether the backup is lost when a copy fails that is for a target replaced before. -/
theorem Underway.lost_iff {bytes : ByteArray} (h : Underway t₀ t before) (hL : Layout t₀ L)
    (hbefore : before ⊆ L) (hs : s ∈ L) (hq : Overtakes t₀ before s q)
    (htarget : t₀.Reaches s.target) (hbackup : t₀.Reaches (backupPath s.target))
    (hbytes : Tree.bytesOf (t₀.lookup (t₀.placeOf s.copy)) = some bytes) :
    ((commitOne s).run t).2.lookup (t₀.placeOf (backupPath s.target)) = none ↔
      Packetry.digest bytes ≠ s.digest := by
  obtain ⟨rfl, hthere, u, hu, heq, hcurrent⟩ := hq
  have hplace := h.same.placeOf_eq
  have hC := (hL.copy_iff u (hbefore hu) s hs).mpr heq
  have hB := (hL.backup_iff u (hbefore hu) s hs).mpr heq
  have hsettled := h.settled u hu
  -- The copy went to the target when `u` was committed.
  have habsent : t.lookup (t.placeOf s.copy) = none := by
    rw [hplace, ← hC, hsettled.copy]
  have hread : t.read s.target = .ok bytes := by
    rw [h.wellFormed.read_ok_iff, hplace, ← heq, hsettled.target hcurrent, hC]
    exact ⟨h.same.reaches htarget, hbytes⟩
  have hbak : t.lookup (t.placeOf (backupPath s.target)) ≠ some .directory := by
    rw [hplace, ← hB, ne_eq, h.same.directory]
    exact ((hsettled.swappable hcurrent).backup (heq ▸ hthere)).2
  rw [commitOne_run_of_absent h.wellFormed (hL.apart h.same hs) habsent hread
    (h.same.reaches hbackup) hbak, hplace]
  by_cases hdigest : Packetry.digest bytes = s.digest
  · rw [if_pos hdigest, ← hB, hsettled.backup hcurrent (heq ▸ hthere), heq]
    exact ⟨fun hnone => absurd hnone hthere, fun hne => absurd hdigest hne⟩
  · rw [if_neg hdigest, Function.update_self]
    exact ⟨fun _ => hdigest, fun _ => rfl⟩

/-- **How a commit ends**, from any moment on. -/
theorem commitFrom_run (hw : t₀.WellFormed) (hL : Layout t₀ L) (rest : List Staged) :
    ∀ (done : List Staged) (t : Tree), L = done ++ rest → Underway t₀ t done →
      Finished t₀ L
        ((commitFrom (replacements t₀ done).reverse (done.map (outcomeOf t₀)) rest).run t).1
        ((commitFrom (replacements t₀ done).reverse (done.map (outcomeOf t₀)) rest).run t).2 := by
  induction rest with
  | nil =>
    intro done t hparts h
    obtain rfl : L = done := by simpa using hparts
    have hkey := Finished.committed (h.committed hL)
    simpa [commitFrom] using hkey
  | cons s rest ih =>
    intro done t hparts h
    have hdone : done ⊆ L := by simp [hparts]
    have hs : s ∈ L := by simp [hparts]
    have hplace := h.same.placeOf_eq
    have hlost : ∀ q bytes, Overtakes t₀ done s q → t₀.Reaches s.target →
        t₀.Reaches (backupPath s.target) →
        Tree.bytesOf (t₀.lookup (t₀.placeOf s.copy)) = some bytes →
        (((commitOne s).run t).2.lookup (t₀.placeOf (backupPath s.target)) = none ↔
          Packetry.digest bytes ≠ s.digest) :=
      fun _ _ => h.lost_iff hL hdone hs
    have hone := commitOne_run h.wellFormed (hL.apart h.same hs)
    unfold commitFrom
    rw [Program.run_bind]
    cases hrun : (commitOne s).run t with
    | mk r t' =>
      rw [hrun] at hone hlost
      cases r with
      | ok r =>
        obtain ⟨-, hnext, rfl⟩ := h.step hw hL hdone hs hrun
        have hkey := ih (done ++ [s]) t' (by simp [hparts]) hnext
        cases hcurrent : s.isCurrent t₀ with
        | true => simpa [replacements, outcomeOf, hcurrent] using hkey
        | false => simpa [replacements, outcomeOf, hcurrent] using hkey
      | error e =>
        cases hone with
        | failed _ hbecomes hf =>
          simp only [hplace] at hf
          have hundone := h.undone hL hparts hbecomes hf
          rw [← hbecomes.lookup] at hundone
          have hkey := Finished.failed e hparts hundone hlost
          simpa using hkey

/-- **A commit in which two copies are for one target fails** at the second one, if the first one
can be committed. -/
theorem commitFrom_error_of_shared (hw : t₀.WellFormed) (hL : Layout t₀ (s :: u :: rest))
    (heq : t₀.placeOf s.target = t₀.placeOf u.target)
    (hone : ((commitOne s).run t₀).1.isOk = true) :
    ∃ e, ((commitFrom [] [] (s :: u :: rest)).run t₀).1 = .error (.commit u.target e) := by
  cases hfirst : (commitOne s).run t₀ with
  | mk r t =>
    rw [hfirst] at hone
    cases r with
    | error e => cases hone
    | ok r =>
      obtain ⟨-, h, -⟩ := (Underway.start hw).step hw hL (by simp) List.mem_cons_self hfirst
      -- The second copy cannot be committed, since its target was replaced already.
      have hsecond : ∀ replaced outcomes, ∃ e,
          ((commitFrom replaced outcomes (u :: rest)).run t).1 = .error (.commit u.target e) := by
        intro replaced outcomes
        unfold commitFrom
        rw [Program.run_bind]
        cases hrun : (commitOne u).run t with
        | mk r' t' =>
          cases r' with
          | ok r' =>
            obtain ⟨hne, -⟩ := h.step hw hL (by simp) (by simp) hrun
            exact absurd heq (hne s (by simp))
          | error e => exact ⟨e, by simp only [Program.run_bind, Program.run_pure]⟩
      unfold commitFrom
      rw [Program.run_bind, hfirst]
      cases r with
      | none => exact hsecond _ _
      | some replaced => exact hsecond _ _

/-- How a commit of a transaction ends. -/
theorem commit_run (hw : t₀.WellFormed) {x : Transaction} (hdry : x.isDry = false)
    (hL : Layout t₀ x.staged) :
    Finished t₀ x.staged (x.commit.run t₀).1 (x.commit.run t₀).2 := by
  have hkey := commitFrom_run hw hL x.staged [] t₀ rfl (Underway.start hw)
  simpa [commit, hdry, replacements] using hkey

end Packetry.Transaction
