import Packetry.Generation
import Packetry.Proofs.Parents
import Packetry.Proofs.Replacement

/-!
# Staging

Staging a content writes it to the copy of its target, after the directories above the copy
have been made. Whether it succeeds or fails, everything but the copies is spared
(`Packetry.Transaction.stageEach_spares`). If it succeeds, then every copy can be reached, and
holds the content that was staged for it last (`Packetry.Transaction.stageEach_ok`).
-/

namespace Packetry

open Disk

variable {t t' : Tree}

/-- Removing files spares everything else. -/
theorem removeAll_spares (ps : List Path) (hw : t.WellFormed) :
    Tree.Spares (fun q => ∃ p ∈ ps, q = t.placeOf p) t ((removeAll ps).run t).2 := by
  induction ps generalizing t with
  | nil => exact hw.spares_self
  | cons p ps ih =>
    have hone : Tree.Spares (fun q => q = t.placeOf p) t (t.commit (t.remove p)).2 := by
      cases hremove : t.remove p with
      | error e => exact hw.spares_self
      | ok t' =>
        exact (hw.remove_ok hremove).2.2.2.spares fun q hq => Function.update_of_ne hq _ _
    unfold removeAll
    rw [Program.run_bind, Program.run_remove]
    refine (hone.mono fun q hq => ⟨p, by simp, hq⟩).trans ((ih hone.wellFormed).mono ?_)
    rintro q ⟨p', hp', hq⟩
    exact ⟨p', by simp [hp'], by rw [hq, hone.placeOf_eq]⟩

namespace Transaction

/-- Stage contents for some targets, one after another, as long as that succeeds. -/
def stageEach (x : Transaction) :
    List (Path × ByteArray) → Program (Except WriteFailure Transaction)
  | [] => return .ok x
  | (p, bytes) :: rest => do
    match ← x.stage p bytes with
    | (.error failure, _) => return .error failure
    | (.ok (), x') => stageEach x' rest

/-- What is recorded of a content that was staged for a target. -/
def stagedOf (file : Path × ByteArray) : Staged :=
  ⟨file.1, Packetry.digest file.2⟩

/-- Artifacts are staged like any other files. -/
theorem stageAll_eq (x : Transaction) (artifacts : List PlannedArtifact) :
    stageAll x artifacts = stageEach x (artifacts.map fun a => (a.path, a.merged.toUTF8)) := by
  induction artifacts generalizing x with
  | nil => rfl
  | cons a rest ih =>
    refine congrArg (Program.bind _) (funext fun answer => ?_)
    obtain ⟨failure | _, x'⟩ := answer
    · rfl
    · exact ih x'

variable {x x' : Transaction} {file : Path × ByteArray} {files : List (Path × ByteArray)}
  {q : Place}

/-- The places of the copies for some files. -/
def IsCopy (t : Tree) (files : List (Path × ByteArray)) (q : Place) : Prop :=
  ∃ file ∈ files, q = t.placeOf (stagingPath file.1)

/-- Giving up spares everything but the copies. -/
theorem rollback_spares (x : Transaction) (hw : t.WellFormed) :
    Tree.Spares (fun q => ∃ s ∈ x.staged, q = t.placeOf s.copy) t (x.rollback.run t).2 := by
  unfold rollback
  rw [Program.run_bind, Program.run_pure]
  refine (removeAll_spares _ hw).mono ?_
  rintro q ⟨p, hp, hq⟩
  obtain ⟨s, hs, rfl⟩ := List.mem_map.mp hp
  exact ⟨s, hs, hq⟩

/-- **A content has been staged**: its copy can be reached and has the content. -/
structure Copied (t t' : Tree) (file : Path × ByteArray) : Prop where
  /-- Nothing but the copy has been touched. -/
  spares : Tree.Spares (fun q => q = t.placeOf (stagingPath file.1)) t t'
  /-- The copy can be reached. -/
  reach : t'.Reaches (stagingPath file.1)
  /-- The copy has the content. -/
  lookup : t'.lookup (t.placeOf (stagingPath file.1)) =
    Tree.writtenTo (t.lookup (t.placeOf (stagingPath file.1))) file.2

/-- A place at which a file is found in the end was no directory all along. -/
theorem Copied.lookup_eq (h : Copied t t' file) (hq : t'.lookup q ≠ some .directory) :
    t'.lookup q = if q = t.placeOf (stagingPath file.1) then Tree.writtenTo (t.lookup q) file.2
      else t.lookup q := by
  split
  · rename_i heq
    rw [heq, h.lookup]
  · rename_i hne
    exact h.spares.lookup_eq_of_ne hne hq

/-- Staging one content: what is recorded, and what becomes of the tree. -/
theorem stage_run (hw : t.WellFormed) (hdry : x.isDry = false) (file : Path × ByteArray) :
    (((x.stage file.1 file.2).run t).1 =
        (.ok (), { x with staged := x.staged ++ [stagedOf file] }) ∧
      Copied t ((x.stage file.1 file.2).run t).2 file) ∨
    (∃ e, ((x.stage file.1 file.2).run t).1.1 = .error (.staging (stagingPath file.1) e)) ∧
      Tree.Spares (fun q => q = t.placeOf (stagingPath file.1) ∨
        ∃ s ∈ x.staged, q = t.placeOf s.copy) t ((x.stage file.1 file.2).run t).2 := by
  unfold stage
  simp only [hdry, Bool.false_eq_true, if_false, Program.run_bind]
  have hspares := Program.writeWithParents_spares (stagingPath file.1) file.2 hw
  obtain ⟨t₁, hgrows, hw₁, ⟨hrun, hreach, hdir, hbecomes⟩ | ⟨⟨e, hrun⟩, heq⟩⟩ :=
    Program.writeWithParents_run (stagingPath file.1) file.2 hw
  · refine Or.inl ?_
    have hcopy := congrFun hbecomes.lookup (t.placeOf (stagingPath file.1))
    rw [Function.update_self, hgrows.lookup_eq_of_ne hdir] at hcopy
    simp only [hrun]
    exact ⟨rfl, hspares, hbecomes.same.reaches hreach, hcopy⟩
  · refine Or.inr ?_
    simp only [hrun, Program.run_bind]
    refine ⟨⟨_, rfl⟩, ?_⟩
    generalize ((Program.writeWithParents (stagingPath file.1) file.2).run t).2 = t' at hspares
    have hremove := removeAll_spares [stagingPath file.1] hspares.wellFormed
    have hrollback := rollback_spares x hremove.wellFormed
    refine ((hspares.mono fun q hq => Or.inl hq).trans (hremove.mono ?_)).trans
      (hrollback.mono ?_)
    · rintro q ⟨p, hp, hq⟩
      obtain rfl : p = stagingPath file.1 := by simpa using hp
      exact Or.inl (by rw [hq, hspares.placeOf_eq])
    · rintro q ⟨s, hs, hq⟩
      exact Or.inr ⟨s, hs, by rw [hq, hremove.placeOf_eq, hspares.placeOf_eq]⟩

/-- Staging several contents: the first one fails and with it the whole, or it has been staged
and the others come next. -/
theorem stageEach_cons_run (hw : t.WellFormed) (hdry : x.isDry = false)
    (file : Path × ByteArray) (files : List (Path × ByteArray)) :
    (∃ t₂, Copied t t₂ file ∧ (stageEach x (file :: files)).run t =
      (stageEach { x with staged := x.staged ++ [stagedOf file] } files).run t₂) ∨
    ∃ e t₂, (stageEach x (file :: files)).run t =
        (.error (.staging (stagingPath file.1) e), t₂) ∧
      Tree.Spares (fun q => q = t.placeOf (stagingPath file.1) ∨
        ∃ s ∈ x.staged, q = t.placeOf s.copy) t t₂ := by
  rw [stageEach, Program.run_bind]
  have hstage := stage_run hw hdry file
  generalize (x.stage file.1 file.2).run t = answer at hstage ⊢
  obtain ⟨⟨result, x₂⟩, t₂⟩ := answer
  rcases hstage with ⟨hrun, hcopied⟩ | ⟨⟨e, hrun⟩, hspares⟩
  · obtain ⟨rfl, rfl⟩ := Prod.mk.inj hrun
    exact Or.inl ⟨t₂, hcopied, rfl⟩
  · obtain rfl : result = .error (.staging (stagingPath file.1) e) := hrun
    exact Or.inr ⟨e, t₂, rfl, hspares⟩

/-- **Staging spares everything but the copies**, whether it succeeds or fails. -/
theorem stageEach_spares (files : List (Path × ByteArray)) (x : Transaction) (t : Tree)
    (hw : t.WellFormed) (hdry : x.isDry = false) :
    Tree.Spares (fun q => IsCopy t files q ∨ ∃ s ∈ x.staged, q = t.placeOf s.copy) t
      ((stageEach x files).run t).2 := by
  induction files generalizing x t with
  | nil => exact hw.spares_self
  | cons file files ih =>
    rcases stageEach_cons_run hw hdry file files with
      ⟨t₂, ⟨hspares, -, -⟩, hrun⟩ | ⟨e, t₂, hrun, hspares⟩
    · have hrest := ih { x with staged := x.staged ++ [stagedOf file] } _ hspares.wellFormed hdry
      rw [hrun]
      refine (hspares.mono ?_).trans (hrest.mono ?_)
      · rintro q rfl
        exact Or.inl ⟨file, by simp, rfl⟩
      · rintro q (⟨f, hf, hq⟩ | ⟨s, hs, hq⟩)
        · exact Or.inl ⟨f, by simp [hf], by rw [hq, hspares.placeOf_eq]⟩
        · rcases List.mem_append.mp hs with hs | hs
          · exact Or.inr ⟨s, hs, by rw [hq, hspares.placeOf_eq]⟩
          · obtain rfl : s = stagedOf file := by simpa using hs
            exact Or.inl ⟨file, by simp, by rw [hq, hspares.placeOf_eq]; rfl⟩
    · rw [hrun]
      refine hspares.mono ?_
      rintro q (rfl | hq)
      · exact Or.inl ⟨file, by simp, rfl⟩
      · exact Or.inr hq

/-- Staging fails at a copy. -/
theorem stageEach_error {cause : WriteFailure} (files : List (Path × ByteArray))
    (x : Transaction) (t : Tree) (hw : t.WellFormed) (hdry : x.isDry = false)
    (h : ((stageEach x files).run t).1 = .error cause) :
    ∃ file ∈ files, ∃ e, cause = .staging (stagingPath file.1) e := by
  induction files generalizing x t with
  | nil => cases h
  | cons file files ih =>
    rcases stageEach_cons_run hw hdry file files with
      ⟨t₂, hcopied, hrun⟩ | ⟨e, t₂, hrun, -⟩ <;> rw [hrun] at h
    · obtain ⟨other, hother, e, rfl⟩ := ih _ _ hcopied.spares.wellFormed (by exact hdry) h
      exact ⟨other, by simp [hother], e, rfl⟩
    · exact ⟨file, by simp, e, (Except.error.inj h).symm⟩

/-- The content that is staged last for the copy at a place. -/
def lastStaged? (t : Tree) (files : List (Path × ByteArray)) (q : Place) : Option ByteArray :=
  (files.reverse.find? fun file => t.placeOf (stagingPath file.1) = q).map (·.2)

theorem lastStaged?_cons (t : Tree) (file : Path × ByteArray) (files : List (Path × ByteArray))
    (q : Place) : lastStaged? t (file :: files) q = (lastStaged? t files q).or
      (if t.placeOf (stagingPath file.1) = q then some file.2 else none) := by
  unfold lastStaged?
  rw [List.reverse_cons, List.find?_append]
  cases files.reverse.find? fun file => decide (t.placeOf (stagingPath file.1) = q) with
  | some _ => rfl
  | none =>
    by_cases hq : t.placeOf (stagingPath file.1) = q
    · simp [hq]
    · simp [hq]

/-- The content that is staged last is that of the first file only if no other is staged at its
place. -/
theorem lastStaged?_cons_eq_some {bytes : ByteArray}
    (h : lastStaged? t (file :: files) q = some bytes) :
    lastStaged? t files q = some bytes ∨
      lastStaged? t files q = none ∧ t.placeOf (stagingPath file.1) = q ∧ file.2 = bytes := by
  rw [lastStaged?_cons] at h
  cases hmore : lastStaged? t files q with
  | some later =>
    rw [hmore] at h
    exact Or.inl h
  | none =>
    rw [hmore, Option.none_or] at h
    split at h
    · rename_i heq
      exact Or.inr ⟨rfl, heq, Option.some.inj h⟩
    · cases h

theorem lastStaged?_ne_none (hfile : file ∈ files) :
    lastStaged? t files (t.placeOf (stagingPath file.1)) ≠ none := by
  simp only [lastStaged?, ne_eq, Option.map_eq_none_iff, List.find?_eq_none, List.mem_reverse,
    decide_eq_true_eq]
  exact fun h => h file hfile rfl

/-- A content that is staged after another one is what its copy has in the end: the other
one was written over if it was for the same copy, and is elsewhere if it was not. -/
theorem Copied.written {t₂ : Tree} {bytes : ByteArray} (h : Copied t t₂ file)
    (hrest : Tree.Spares (IsCopy t₂ files) t₂ t')
    (hnow : t'.lookup q = Tree.writtenTo (t₂.lookup q) bytes) :
    t'.lookup q = Tree.writtenTo (t.lookup q) bytes := by
  have hdir : t₂.lookup q ≠ some .directory := by
    intro hd
    rw [hrest.directory q hd] at hnow
    exact Tree.writtenTo_ne_directory hnow.symm
  rw [hnow, h.lookup_eq hdir]
  split
  · rw [Tree.writtenTo_writtenTo]
  · rfl

/-- A content whose copy no later one is staged for stays there. -/
theorem Copied.stays {t₂ : Tree} (h : Copied t t₂ file)
    (hrest : Tree.Spares (IsCopy t₂ files) t₂ t')
    (hmore : lastStaged? t files (t.placeOf (stagingPath file.1)) = none) :
    t'.lookup (t.placeOf (stagingPath file.1)) =
      Tree.writtenTo (t.lookup (t.placeOf (stagingPath file.1))) file.2 := by
  have hnow := h.lookup
  rw [hrest.lookup_eq _ (by rw [hnow]; exact Tree.writtenTo_ne_none), hnow]
  rintro ⟨f, hf, heq⟩
  refine lastStaged?_ne_none (t := t) hf ?_
  rw [← h.spares.placeOf_eq, ← heq, hmore]

/-- **What was staged** is recorded in order, and each copy has the content that was staged
for it last. -/
theorem stageEach_ok (files : List (Path × ByteArray)) (x : Transaction) (t : Tree)
    (hw : t.WellFormed) (hdry : x.isDry = false)
    (h : (stageEach x files).run t = (.ok x', t')) :
    x' = { x with staged := x.staged ++ files.map stagedOf } ∧
      Tree.Spares (IsCopy t files) t t' ∧
      (∀ file ∈ files, t'.Reaches (stagingPath file.1)) ∧
      ∀ q bytes, lastStaged? t files q = some bytes →
        t'.lookup q = Tree.writtenTo (t.lookup q) bytes := by
  induction files generalizing x t with
  | nil =>
    obtain ⟨hx, rfl⟩ := Prod.mk.inj h
    obtain rfl := Except.ok.inj hx
    exact ⟨by simp, hw.spares_self, by simp, by simp [lastStaged?]⟩
  | cons file files ih =>
    rcases stageEach_cons_run hw hdry file files with
      ⟨t₂, hcopied, hrun⟩ | ⟨e, t₂, hrun, -⟩ <;> rw [hrun] at h
    · have hspares := hcopied.spares
      have hplace := hspares.placeOf_eq
      obtain ⟨rfl, hrest, hreaches, hlast⟩ := ih _ _ hspares.wellFormed (by exact hdry) h
      have hcopies : ∀ q, lastStaged? t₂ files q = lastStaged? t files q := by
        intro q
        simp only [lastStaged?, hplace]
      simp only [hcopies] at hlast
      refine ⟨by simp, ?_, ?_, ?_⟩
      · refine (hspares.mono ?_).trans (hrest.mono ?_)
        · rintro q rfl
          exact ⟨file, by simp, rfl⟩
        · rintro q ⟨f, hf, hq⟩
          exact ⟨f, by simp [hf], by rw [hq, hplace]⟩
      · intro f hf
        rcases List.mem_cons.mp hf with rfl | hf
        · exact hrest.reaches hcopied.reach
        · exact hreaches f hf
      · intro q bytes hq
        rcases lastStaged?_cons_eq_some hq with hmore | ⟨hmore, rfl, rfl⟩
        · exact hcopied.written hrest (hlast q bytes hmore)
        · exact hcopied.stays hrest hmore
    · cases (Prod.mk.inj h).1

end Transaction

end Packetry
