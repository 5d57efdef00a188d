import Packetry.Proofs.Missing
import Mathlib.Data.List.Infix
import Mathlib.Data.List.Pairwise

/-!
# Trees with room for files

A tree *hosts* some files (`Packetry.Disk.Tree.Hosts`) if each of them, its copy and its backup
have a place of their own, at which a file is or can be made. No operation of the generator
fails in such a tree, and none takes that away: a program that *works* on some paths
(`Packetry.Disk.Tree.Works`) changes nothing but what is at their places, where it leaves files
or nothing, and makes missing directories above them.
-/

namespace Packetry

open Disk

/-- The paths of some files, of their copies and of their backups. -/
def sidesOf (ps : List Path) : List Path :=
  ps.flatMap fun p => [p, stagingPath p, backupPath p]

section Sides

variable {p : Path} {ps : List Path}

theorem mem_sidesOf (h : p ∈ ps) :
    p ∈ sidesOf ps ∧ stagingPath p ∈ sidesOf ps ∧ backupPath p ∈ sidesOf ps :=
  ⟨List.mem_flatMap.mpr ⟨p, h, by simp⟩, List.mem_flatMap.mpr ⟨p, h, by simp⟩,
    List.mem_flatMap.mpr ⟨p, h, by simp⟩⟩

end Sides

/-- What is at a place is a regular file, if there is anything. -/
def Disk.IsFree (x : Option Disk.Entry) : Prop :=
  ∀ e, x = some e → ∃ bytes, e = .file bytes

section Free

variable {x : Option Disk.Entry}

theorem Disk.isFree_none : IsFree none :=
  fun _ h => nomatch h

theorem Disk.isFree_file (bytes : ByteArray) : IsFree (some (.file bytes)) :=
  fun _ h => ⟨bytes, (Option.some.inj h).symm⟩

theorem Disk.IsFree.ne_directory (h : IsFree x) : x ≠ some .directory := by
  rintro rfl
  obtain ⟨bytes, hbytes⟩ := h _ rfl
  cases hbytes

theorem Disk.IsFree.ne_device (h : IsFree x) : x ≠ some .device := by
  rintro rfl
  obtain ⟨bytes, hbytes⟩ := h _ rfl
  cases hbytes

theorem Disk.IsFree.eq_file (h : IsFree x) (hne : x ≠ none) :
    ∃ bytes, x = some (.file bytes) := by
  obtain ⟨e, rfl⟩ := Option.ne_none_iff_exists'.mp hne
  obtain ⟨bytes, rfl⟩ := h e rfl
  exact ⟨bytes, rfl⟩

instance (x : Option Disk.Entry) : Decidable (IsFree x) :=
  match x with
  | none => isTrue isFree_none
  | some (.file bytes) => isTrue (isFree_file bytes)
  | some .directory => isFalse fun h => h.ne_directory rfl
  | some .device => isFalse fun h => h.ne_device rfl

end Free

namespace Disk.Tree

variable {t t' t'' : Tree} {p p' : Path} {ps ws ws' : List Path} {q : Place} {bytes : ByteArray}

/-! ### Open paths to nothing -/

/-- An open path to nothing leads to nothing, even if directories on the way are missing. -/
theorem IsOpen.find_eq (h : t.IsOpen p) (hnone : t.lookup (t.placeOf p) = none) :
    t.find p = .error .notFound := by
  have hclear : ∀ r, r <:+ t.placeOf p → t.lookup r = none ∨ t.lookup r = some .directory := by
    intro r hr
    obtain ⟨before, -, hplace, -⟩ := h.steps_eq
    rw [hplace, List.suffix_cons_iff, ← hplace] at hr
    rcases hr with rfl | hr
    · exact Or.inl hnone
    · refine h.clear r ?_
      rw [hplace]
      exact hr
  unfold find
  rw [start_eq t h.walkable]
  exact walk_notFound (fun s hs => Path.isPlainStep_of_mem_names h.plain hs) h.base hclear hnone

theorem IsOpen.read_eq_notFound (h : t.IsOpen p) (hnone : t.lookup (t.placeOf p) = none) :
    t.read p = .error .notFound := by
  unfold read
  rw [h.find_eq hnone]
  rfl

theorem IsOpen.exists?_iff (h : t.IsOpen p) (hw : t.WellFormed) :
    t.exists? p = true ↔ t.lookup (t.placeOf p) ≠ none := by
  refine ⟨lookup_of_exists? hw, fun hthere => ?_⟩
  exact ((h.reaches_of_ne hw hthere).exists?_iff hw).mpr hthere

/-! ### Hosts -/

/-- **A tree with room for some files**, their copies and their backups. -/
structure Hosts (t : Tree) (ps : List Path) : Prop where
  /-- The tree is well formed. -/
  wellFormed : t.WellFormed
  /-- Files can be written to all the paths. -/
  isOpen : ∀ p ∈ sidesOf ps, t.IsOpen p
  /-- There is nothing else than files at their places. -/
  free : ∀ p ∈ sidesOf ps, IsFree (t.lookup (t.placeOf p))
  /-- The places are different, and none is above another. -/
  apart : (sidesOf ps).Pairwise fun p p' =>
    ¬t.placeOf p <:+ t.placeOf p' ∧ ¬t.placeOf p' <:+ t.placeOf p

instance (t : Tree) (p : Path) : Decidable (t.IsOpen p) :=
  have : Decidable p.IsWalkable := inferInstanceAs (Decidable (_ ∧ _ ∧ _))
  have : ∀ s, Decidable (Path.IsPlainStep s) := fun _ => inferInstanceAs (Decidable (_ ∧ _))
  decidable_of_iff (p.IsWalkable ∧ Path.isProperName p.lastName = true ∧
    (∀ s ∈ p.steps, Path.IsPlainStep s) ∧ t.lookup (t.base p) = some .directory ∧
    ∀ q ∈ (t.placeOf p).tail.tails, t.lookup q = none ∨ t.lookup q = some .directory)
    ⟨fun ⟨hwalkable, hproper, hplain, hbase, hclear⟩ => ⟨hwalkable, hproper, hplain, hbase,
        fun q hq => hclear q ((List.mem_tails _ _).mpr hq)⟩,
      fun h => ⟨h.walkable, h.proper, h.plain, h.base,
        fun q hq => h.clear q ((List.mem_tails _ _).mp hq)⟩⟩

instance (t : Tree) (ps : List Path) : Decidable (t.Hosts ps) :=
  decidable_of_iff (t.WellFormed ∧ (∀ p ∈ sidesOf ps, t.IsOpen p) ∧
    (∀ p ∈ sidesOf ps, IsFree (t.lookup (t.placeOf p))) ∧
    ((sidesOf ps).map t.placeOf).Pairwise fun q q' => ¬q <:+ q' ∧ ¬q' <:+ q)
    ⟨fun h => ⟨h.1, h.2.1, h.2.2.1, List.pairwise_map.mp h.2.2.2⟩,
      fun h => ⟨h.wellFormed, h.isOpen, h.free, List.pairwise_map.mpr h.apart⟩⟩

/-- The places of different paths are apart. -/
theorem Hosts.eq_of_suffix (h : t.Hosts ps) (hp : p ∈ sidesOf ps) (hp' : p' ∈ sidesOf ps)
    (hsuffix : t.placeOf p <:+ t.placeOf p') : p = p' := by
  by_contra hne
  have hsymm : Std.Symm fun p p' : Path =>
      ¬t.placeOf p <:+ t.placeOf p' ∧ ¬t.placeOf p' <:+ t.placeOf p := ⟨fun _ _ h => h.symm⟩
  exact (h.apart.forall hp hp' hne).1 hsuffix

/-- No place is above another one. -/
theorem Hosts.not_suffix_tail (h : t.Hosts ps) (hp : p ∈ sidesOf ps) (hp' : p' ∈ sidesOf ps) :
    ¬t.placeOf p <:+ (t.placeOf p').tail := by
  intro hsuffix
  obtain rfl := h.eq_of_suffix hp hp' (hsuffix.trans (List.tail_suffix _))
  obtain ⟨before, -, hplace, -⟩ := (h.isOpen p hp).steps_eq
  rw [hplace] at hsuffix
  exact absurd hsuffix.length_le (by simp)

/-- A copy and a backup are beside their file. -/
theorem placeOf_tail_eq (h : t.IsOpen p) :
    (t.placeOf (stagingPath p)).tail = (t.placeOf p).tail ∧
      (t.placeOf (backupPath p)).tail = (t.placeOf p).tail := by
  rw [placeOf_stagingPath, placeOf_backupPath, t.placeOf_eq_cons h.proper]
  exact ⟨rfl, rfl⟩

/-! ### Working on some paths -/

/-- **What a program that works on some paths has done to a tree.** -/
structure Works (ws : List Path) (t t' : Tree) : Prop where
  /-- The working directory is the same. -/
  workingDirectory : t'.workingDirectory = t.workingDirectory
  /-- The tree is well formed. -/
  wellFormed : t'.WellFormed
  /-- Nothing has changed, but that directories were made above the paths and that files were
  put to their places or taken away. -/
  lookup : ∀ q, t'.lookup q = t.lookup q ∨
    ((∃ p ∈ ws, q <:+ (t.placeOf p).tail) ∧ t.lookup q = none ∧ t'.lookup q = some .directory) ∨
    (∃ p ∈ ws, q = t.placeOf p) ∧ IsFree (t'.lookup q)

theorem WellFormed.works_self (hw : t.WellFormed) (ws : List Path) : Works ws t t :=
  ⟨rfl, hw, fun _ => Or.inl rfl⟩

theorem Works.placeOf_eq (h : Works ws t t') (p : Path) : t'.placeOf p = t.placeOf p :=
  placeOf_congr h.workingDirectory p

theorem Works.mono (h : Works ws t t') (hsub : ws ⊆ ws') : Works ws' t t' := by
  refine ⟨h.workingDirectory, h.wellFormed, fun q => ?_⟩
  rcases h.lookup q with heq | ⟨⟨p, hp, hq⟩, hmade⟩ | ⟨⟨p, hp, hq⟩, hfree⟩
  · exact Or.inl heq
  · exact Or.inr (Or.inl ⟨⟨p, hsub hp, hq⟩, hmade⟩)
  · exact Or.inr (Or.inr ⟨⟨p, hsub hp, hq⟩, hfree⟩)

/-- What is at the place of another path has not changed. -/
theorem Works.lookup_eq (h : Works ws t t') (hosts : t.Hosts ps) (hsub : ws ⊆ sidesOf ps)
    (hp : p ∈ sidesOf ps) (hnot : p ∉ ws) : t'.lookup (t.placeOf p) = t.lookup (t.placeOf p) := by
  rcases h.lookup (t.placeOf p) with heq | ⟨⟨p', hp', hq⟩, -⟩ | ⟨⟨p', hp', hq⟩, -⟩
  · exact heq
  · exact absurd hq (hosts.not_suffix_tail hp (hsub hp'))
  · obtain rfl := hosts.eq_of_suffix hp (hsub hp') (hq ▸ List.suffix_refl _)
    exact absurd hp' hnot

/-- What is there at the places of all paths is free. -/
theorem Works.isFree (h : Works ws t t') (hosts : t.Hosts ps) (hsub : ws ⊆ sidesOf ps)
    (hp : p ∈ sidesOf ps) : IsFree (t'.lookup (t.placeOf p)) := by
  rcases h.lookup (t.placeOf p) with heq | ⟨⟨p', hp', hq⟩, -⟩ | ⟨-, hfree⟩
  · rw [heq]
    exact hosts.free p hp
  · exact absurd hq (hosts.not_suffix_tail hp (hsub hp'))
  · exact hfree

/-- Directories stay directories. -/
theorem Works.directory (h : Works ws t t') (hosts : t.Hosts ps) (hsub : ws ⊆ sidesOf ps)
    (hq : t.lookup q = some .directory) : t'.lookup q = some .directory := by
  rcases h.lookup q with heq | ⟨-, -, hdir⟩ | ⟨⟨p, hp, rfl⟩, -⟩
  · rw [heq, hq]
  · exact hdir
  · exact absurd hq (hosts.free p (hsub hp)).ne_directory

/-- **A tree that was worked on has room still.** -/
theorem Hosts.of_works (hosts : t.Hosts ps) (h : Works ws t t') (hsub : ws ⊆ sidesOf ps) :
    t'.Hosts ps := by
  refine ⟨h.wellFormed, fun p hp => ?_, fun p hp => ?_, ?_⟩
  · refine (hosts.isOpen p hp).congr h.workingDirectory (fun q => h.directory hosts hsub) ?_
    intro q hq hnone
    rcases h.lookup q with heq | ⟨-, -, hdir⟩ | ⟨⟨p', hp', rfl⟩, -⟩
    · exact Or.inl (heq.trans hnone)
    · exact Or.inr hdir
    · exact absurd hq (hosts.not_suffix_tail (hsub hp') hp)
  · rw [h.placeOf_eq]
    exact h.isFree hosts hsub hp
  · simpa only [h.placeOf_eq] using hosts.apart

/-- Working twice. -/
theorem Works.trans (h : Works ws t t') (hosts : t.Hosts ps) (hsub : ws ⊆ sidesOf ps)
    (h' : Works ws t' t'') : Works ws t t'' := by
  refine ⟨h'.workingDirectory.trans h.workingDirectory, h'.wellFormed, fun q => ?_⟩
  have hsecond := h'.lookup q
  simp only [h.placeOf_eq] at hsecond
  rcases hsecond with heq | ⟨habove, hnone, hdir⟩ | hfree
  · rw [heq]
    exact h.lookup q
  · rcases h.lookup q with heq | ⟨-, -, hdir'⟩ | ⟨⟨p, hp, rfl⟩, -⟩
    · exact Or.inr (Or.inl ⟨habove, heq ▸ hnone, hdir⟩)
    · rw [hdir'] at hnone
      cases hnone
    · obtain ⟨p', hp', hq⟩ := habove
      exact absurd hq (hosts.not_suffix_tail (hsub hp) (hsub hp'))
  · exact Or.inr (Or.inr hfree)

/-! ### Reading -/

theorem Hosts.read_eq (h : t.Hosts ps) (hp : p ∈ sidesOf ps)
    (hfile : t.lookup (t.placeOf p) = some (.file bytes)) : t.read p = .ok bytes := by
  rw [((h.isOpen p hp).reaches_of_ne h.wellFormed (by simp [hfile])).read_eq h.wellFormed, hfile]

/-- The digest of a file of a host, if it is there. -/
theorem Hosts.digestOf_run (h : t.Hosts ps) (hp : p ∈ sidesOf ps) :
    (digestOf p).run t = (.ok ((bytesOf (t.lookup (t.placeOf p))).map digest), t) := by
  rw [Packetry.digestOf_run]
  by_cases hnone : t.lookup (t.placeOf p) = none
  · rw [(h.isOpen p hp).read_eq_notFound hnone, hnone]
    rfl
  · obtain ⟨bytes, hfile⟩ := (h.free p hp).eq_file hnone
    rw [h.read_eq hp hfile, hfile]
    rfl

/-! ### Writing -/

/-- **A file of a host can be written.** -/
theorem Hosts.writeWithParents_run (h : t.Hosts ps) (hp : p ∈ sidesOf ps) (bytes : ByteArray) :
    ∃ t', (Program.writeWithParents p bytes).run t = (.ok (), t') ∧ Works [p] t t' ∧
      t'.lookup (t.placeOf p) = some (.file bytes) := by
  obtain ⟨t', hrun, hw, hcwd, hlookup⟩ :=
    Program.writeWithParents_eq h.wellFormed (h.isOpen p hp) (h.free p hp).ne_directory bytes
  have hfile : t'.lookup (t.placeOf p) = some (.file bytes) := by
    rw [hlookup, Function.update_self, writtenTo_of_ne_device (h.free p hp).ne_device]
  refine ⟨t', hrun, ⟨hcwd, hw, fun q => ?_⟩, hfile⟩
  by_cases hq : q = t.placeOf p
  · refine Or.inr (Or.inr ⟨⟨p, by simp, hq⟩, ?_⟩)
    rw [hq, hfile]
    exact isFree_file bytes
  · rw [hlookup, Function.update_of_ne hq, withDirectories]
    split
    · rename_i hmade
      exact Or.inr (Or.inl ⟨⟨p, by simp, hmade.1⟩, hmade.2, rfl⟩)
    · exact Or.inl rfl

/-- **A file of a host can be replaced.** -/
theorem Hosts.replaceFile_run (h : t.Hosts ps) (hp : p ∈ ps) (bytes : ByteArray) :
    ∃ t', (replaceFile p bytes).run t = (.ok (), t') ∧ Works [p, stagingPath p] t t' ∧
      t'.lookup (t.placeOf p) = some (.file bytes) := by
  obtain ⟨hself, hcopy, -⟩ := mem_sidesOf hp
  obtain ⟨t₁, hrun, hworks, hfile⟩ := h.writeWithParents_run hcopy bytes
  have hone : [stagingPath p] ⊆ sidesOf ps := List.cons_subset.mpr ⟨hcopy, List.nil_subset _⟩
  have hosts := h.of_works hworks hone
  have hplace := hworks.placeOf_eq
  rw [← hplace] at hfile
  have hreach := (hosts.isOpen _ hcopy).reaches_of_ne hosts.wellFormed (by simp [hfile])
  -- The copy is beside the file, so that the directory is there by now.
  have hreach' : t₁.Reaches p := by
    refine (hosts.isOpen p hself).reaches hosts.wellFormed ?_
    rw [← (placeOf_tail_eq (hosts.isOpen p hself)).1]
    exact hosts.wellFormed.tail (by simp [hfile])
  obtain ⟨t', hrename⟩ := hreach.rename_eq hreach' hosts.wellFormed (by simp [hfile])
    (by simp [hfile]) (hosts.free p hself).ne_directory
  obtain ⟨-, -, -, -, hbecomes⟩ := hosts.wellFormed.rename_ok hrename (by simp [hfile])
  have hnow : ∀ q, t'.lookup q = if q = t.placeOf p then some (.file bytes)
      else if q = t.placeOf (stagingPath p) then none else t₁.lookup q := by
    intro q
    rw [hbecomes.lookup, movedTo, Function.update_apply, Function.update_apply, hfile, hplace,
      hplace]
  refine ⟨t', ?_, ?_, by rw [hnow, if_pos rfl]⟩
  · unfold replaceFile
    rw [Program.run_bind, hrun]
    simp only [Program.run_bind, Program.run_rename, hrename, Tree.commit_ok, Program.run_pure]
  · refine (hworks.mono (by simp)).trans h (List.cons_subset.mpr ⟨hself, hone⟩) ?_
    refine ⟨hbecomes.same.workingDirectory, hbecomes.wellFormed, fun q => ?_⟩
    rw [hnow]
    simp only [hplace]
    split
    · rename_i hq
      exact Or.inr (Or.inr ⟨⟨p, by simp, hq⟩, isFree_file bytes⟩)
    · split
      · rename_i hq
        exact Or.inr (Or.inr ⟨⟨stagingPath p, by simp, hq⟩, isFree_none⟩)
      · exact Or.inl rfl

end Disk.Tree

end Packetry
