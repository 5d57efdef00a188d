import Packetry.Proofs.Above
import Packetry.Proofs.SuccessfulRun

/-!
# Published files

Files are published one after another: a file whose digest is that of its source already is left
alone, and any other is replaced. The files go into one directory, so that none lies above another
(`Packetry.Publishable`), and what becomes of one of them does not depend on the others
(`Packetry.publishAll_mirrored`).

A run of the publisher that fails leaves every file as it was or with the bytes of its source
(`Packetry.publishAll_isOldOrNew`). The sources that are there are not touched. One that is missing,
however, may be found to be a directory afterwards: if its path is that of the directory to be
published to, or lies above it, that directory is made for the files before it.

* `Packetry.publish_mirrors`: what publishing does.
-/

namespace Packetry

open Disk

/-- A library may bring another instance for the same type. -/
local instance decidableEqContent : DecidableEq ByteArray := ByteArray.instDecidableEq

variable {t t₁ t' : Tree} {D : Place} {file other : Path × Path} {files : List (Path × Path)}
  {outcome : Outcome} {outcomes : List Outcome}

/-! ### Files for one directory -/

/-- Files and their copies that are different from each other and from the sources. -/
structure KeptApart (t : Tree) (files : List (Path × Path)) : Prop where
  /-- No path of a source steps upwards. -/
  source_plain : ∀ file ∈ files, ".." ∉ file.1.names
  /-- No other path does. -/
  target_plain : ∀ file ∈ files, ".." ∉ file.2.names
  /-- The files and the copies are at different places. -/
  nodup : (files.flatMap fun file =>
    [t.placeOf file.2, t.placeOf (stagingPath file.2)]).Nodup
  /-- No source is at one of them. -/
  apart : ∀ file ∈ files, ¬IsPublished t files (t.placeOf file.1)

/-- Files that can be published to the directory at a place without getting in each other's
way. -/
structure Publishable (t : Tree) (D : Place) (files : List (Path × Path)) : Prop
    extends KeptApart t files where
  /-- The files are in the directory. -/
  target : ∀ file ∈ files, ∃ name, t.placeOf file.2 = name :: D
  /-- So are their copies. -/
  copy : ∀ file ∈ files, ∃ name, t.placeOf (stagingPath file.2) = name :: D

/-- The place of a file or of its copy. -/
def IsOutput (t : Tree) (file : Path × Path) (q : Place) : Prop :=
  q = t.placeOf file.2 ∨ q = t.placeOf (stagingPath file.2)

theorem Publishable.congr (h : Publishable t D files)
    (hcwd : t'.workingDirectory = t.workingDirectory) : Publishable t' D files := by
  have hplace := Tree.placeOf_congr hcwd
  obtain ⟨⟨hsource, htarget, hnodup, hapart⟩, hin, hcopy⟩ := h
  refine ⟨⟨hsource, htarget, ?_, ?_⟩, ?_, ?_⟩
  · simpa only [hplace] using hnodup
  · simpa only [IsPublished, hplace] using hapart
  · simpa only [hplace] using hin
  · simpa only [hplace] using hcopy

theorem Publishable.tail (h : Publishable t D (file :: files)) : Publishable t D files := by
  refine ⟨⟨fun f hf => h.source_plain f (by simp [hf]),
    fun f hf => h.target_plain f (by simp [hf]), ?_, ?_⟩,
    fun f hf => h.target f (by simp [hf]), fun f hf => h.copy f (by simp [hf])⟩
  · exact (List.nodup_append.mp (List.flatMap_cons ▸ h.nodup)).2.1
  · rintro f hf ⟨g, hg, hq⟩
    exact h.apart f (by simp [hf]) ⟨g, by simp [hg], hq⟩

/-- The places of the first file are not those of the others. -/
theorem Publishable.head_ne (h : Publishable t D (file :: files)) (hother : other ∈ files)
    {q q' : Place} (hq : IsOutput t file q) (hq' : IsOutput t other q') : q ≠ q' := by
  have hdisjoint := (List.nodup_append.mp (List.flatMap_cons ▸ h.nodup)).2.2
  refine hdisjoint q ?_ q' (List.mem_flatMap.mpr ⟨other, hother, ?_⟩)
  · rcases hq with rfl | rfl <;> simp
  · rcases hq' with rfl | rfl <;> simp

/-- Publishing the first file spares the sources of the others. -/
theorem Publishable.source_spared (h : Publishable t D (file :: files)) (hother : other ∈ files) :
    ¬IsPublished t [file] (t.placeOf other.1) := by
  rintro ⟨g, hg, hq⟩
  obtain rfl := List.mem_singleton.mp hg
  exact h.apart other (by simp [hother]) ⟨g, List.mem_cons_self, hq⟩

/-- It spares the others, too. -/
theorem Publishable.target_spared (h : Publishable t D (file :: files)) (hother : other ∈ files) :
    ¬IsPublished t [file] (t.placeOf other.2) := by
  rintro ⟨g, hg, hq⟩
  obtain rfl := List.mem_singleton.mp hg
  exact h.head_ne hother hq (Or.inl rfl) rfl

/-- A file and its copy are at different places. -/
theorem Publishable.ne (h : Publishable t D (file :: files)) :
    t.placeOf file.2 ≠ t.placeOf (stagingPath file.2) := by
  have hone := (List.nodup_append.mp (List.flatMap_cons ▸ h.nodup)).1
  simpa using hone

/-- No file or copy lies above a copy, unless it is the same. -/
theorem Publishable.eq_of_suffix (h : Publishable t D files) (hfile : file ∈ files)
    (hother : other ∈ files) {q : Place} (hq : IsOutput t other q)
    (hsuffix : q <:+ t.placeOf (stagingPath file.2)) : q = t.placeOf (stagingPath file.2) := by
  obtain ⟨name, hcopy⟩ := h.copy file hfile
  obtain ⟨name', hname'⟩ : ∃ name', q = name' :: D := by
    rcases hq with rfl | rfl
    · exact h.target other hother
    · exact h.copy other hother
  rw [hcopy, hname', List.suffix_cons_iff] at hsuffix
  rcases hsuffix with heq | hsuffix
  · rw [hname', heq, hcopy]
  · exact absurd hsuffix.length_le (by simp)

/-! ### One file -/

/-- Publishing a file touches nothing but what is at and above its copy and the file, and the file
only if it succeeds. -/
theorem publishFile_alike (file : Path × Path) (hw : t.WellFormed) (hup : ".." ∉ file.2.names) :
    Tree.AlikeOutside (fun q => q <:+ t.placeOf (stagingPath file.2) ∨
        ((publishFile file.1 file.2).run t).1.isOk = true ∧ q = t.placeOf file.2) t
      ((publishFile file.1 file.2).run t).2 := by
  rw [publishFile_eq]
  cases t.read file.1 with
  | error e => exact .refl _ t
  | ok bytes =>
    cases ((digestOf file.2).run t).1 with
    | error e => exact .refl _ t
    | ok current =>
      have hreplace := replaceFile_alike file.2 bytes hw hup
      dsimp only
      split
      · exact .refl _ t
      · generalize (replaceFile file.2 bytes).run t = answer at hreplace ⊢
        obtain ⟨_ | _, t₁⟩ := answer
        · exact hreplace
        · exact hreplace

/-- The places that publishing files may touch: those of the files, and those at and above their
copies. -/
def MayTouch (t : Tree) (files : List (Path × Path)) (q : Place) : Prop :=
  ∃ file ∈ files, q = t.placeOf file.2 ∨ q <:+ t.placeOf (stagingPath file.2)

theorem publishFile_mayTouch (file : Path × Path) (hw : t.WellFormed)
    (hup : ".." ∉ file.2.names) :
    Tree.AlikeOutside (MayTouch t [file]) t ((publishFile file.1 file.2).run t).2 :=
  (publishFile_alike file hw hup).mono fun _ hq =>
    ⟨file, by simp, hq.elim Or.inr fun hq => Or.inl hq.2⟩

/-- **Publishing touches nothing else**, whether it succeeds or fails. -/
theorem publishAll_alike (files : List (Path × Path)) (hw : t.WellFormed)
    (hup : ∀ file ∈ files, ".." ∉ file.2.names) :
    Tree.AlikeOutside (MayTouch t files) t ((publishAll files).run t).2 := by
  induction files generalizing t with
  | nil => exact .refl _ t
  | cons file files ih =>
    have hspares := publishFile_spares file hw
    have hfirst : Tree.AlikeOutside (MayTouch t (file :: files)) t
        ((publishFile file.1 file.2).run t).2 := by
      refine (publishFile_mayTouch file hw (hup file (by simp))).mono ?_
      rintro q ⟨f, hf, hq⟩
      exact ⟨f, by simp_all, hq⟩
    rw [publishAll_cons_eq]
    generalize (publishFile file.1 file.2).run t = answer at hspares hfirst ⊢
    obtain ⟨_ | outcome, t₁⟩ := answer
    · exact hfirst
    · refine hfirst.trans ((ih hspares.wellFormed fun f hf => hup f (by simp [hf])).mono ?_)
      rintro q ⟨f, hf, hq⟩
      exact ⟨f, by simp [hf], by simpa only [hspares.placeOf_eq] using hq⟩

/-- Publishing files leaves another file of the directory and its copy alone. -/
theorem Publishable.not_mayTouch (h : Publishable t D (file :: files)) {q : Place}
    (hq : IsOutput t file q) : ¬MayTouch t files q := by
  rintro ⟨f, hf, rfl | hsuffix⟩
  · exact h.head_ne hf hq (Or.inl rfl) rfl
  · have heq := h.eq_of_suffix (by simp [hf]) List.mem_cons_self hq hsuffix
    exact h.head_ne hf hq (Or.inr rfl) heq

/-- Publishing the first file leaves the others and their copies alone. -/
theorem Publishable.not_mayTouch_head (h : Publishable t D (file :: files))
    (hother : other ∈ files) {q : Place} (hq : IsOutput t other q) : ¬MayTouch t [file] q := by
  rintro ⟨f, hf, hq'⟩
  obtain rfl := List.mem_singleton.mp hf
  rcases hq' with rfl | hsuffix
  · exact h.head_ne hother (Or.inl rfl) hq rfl
  · have heq := h.eq_of_suffix List.mem_cons_self (by simp [hother]) hq hsuffix
    exact h.head_ne hother (Or.inr rfl) hq heq.symm

/-! ### All files -/

/-- What has become of a file when all have been published. -/
inductive Mirrored (t t' : Tree) (file : Path × Path) : Outcome → Prop where
  /-- It had the digest of its source, and it and its copy have been left alone. -/
  | unchanged {bytes bytes' : ByteArray} (hsource : t.read file.1 = .ok bytes)
    (htarget : t.read file.2 = .ok bytes') (hdigest : digest bytes' = digest bytes)
    (hfile : t'.lookup (t.placeOf file.2) = t.lookup (t.placeOf file.2))
    (hcopy : t'.lookup (t.placeOf (stagingPath file.2)) =
      t.lookup (t.placeOf (stagingPath file.2))) :
    Mirrored t t' file (.unchanged file.2)
  /-- The bytes of its source were written to its copy, which has taken its place. -/
  | written {bytes : ByteArray} (hsource : t.read file.1 = .ok bytes)
    (htarget : ∀ bytes', t.read file.2 = .ok bytes' → digest bytes' ≠ digest bytes)
    (hreach : t'.Reaches file.2)
    (hfile : t'.lookup (t.placeOf file.2) =
      Tree.writtenTo (t.lookup (t.placeOf (stagingPath file.2))) bytes)
    (hcopy : t'.lookup (t.placeOf (stagingPath file.2)) = none) :
    Mirrored t t' file (.written file.2)

/-- What others do later to a tree does not matter, if they spare the file and its copy. -/
theorem Mirrored.later (h : Mirrored t t₁ file outcome)
    (hgrows : ∀ p, t₁.Reaches p → t'.Reaches p)
    (halike : ∀ q, IsOutput t file q → t'.lookup q = t₁.lookup q) :
    Mirrored t t' file outcome := by
  have hfile' := halike _ (Or.inl rfl)
  have hcopy' := halike _ (Or.inr rfl)
  cases h with
  | unchanged hsource htarget hdigest hfile hcopy =>
    exact .unchanged hsource htarget hdigest (hfile'.trans hfile) (hcopy'.trans hcopy)
  | written hsource htarget hreach hfile hcopy =>
    exact .written hsource htarget (hgrows _ hreach) (hfile'.trans hfile) (hcopy'.trans hcopy)

/-- Nor does what others have done before, if they have spared the source too. -/
theorem Mirrored.earlier {S : Place → Prop} (h : Mirrored t₁ t' file outcome)
    (hw : t.WellFormed) (hspares : Tree.Spares S t t₁) (hsource_plain : ".." ∉ file.1.names)
    (hplain : ".." ∉ file.2.names) (hsource_side : ¬S (t.placeOf file.1))
    (hside : ¬S (t.placeOf file.2))
    (halike : ∀ q, IsOutput t file q → t₁.lookup q = t.lookup q) :
    Mirrored t t' file outcome := by
  have hfile' := halike _ (Or.inl rfl)
  have hcopy' := halike _ (Or.inr rfl)
  cases h with
  | unchanged hsource htarget hdigest hfile hcopy =>
    rw [hspares.placeOf_eq] at hfile hcopy
    exact .unchanged (hspares.read_before hw hsource_plain hsource_side hsource)
      (hspares.read_before hw hplain hside htarget) hdigest (hfile.trans hfile')
      (hcopy.trans hcopy')
  | written hsource htarget hreach hfile hcopy =>
    rw [hspares.placeOf_eq] at hfile hcopy
    rw [hspares.placeOf_eq, hcopy'] at hfile
    exact .written (hspares.read_before hw hsource_plain hsource_side hsource)
      (fun bytes' hbytes' => htarget bytes' (hspares.read_after hw hside hbytes')) hreach hfile
      hcopy

/-- Right after it has been published. -/
theorem Publishing.mirrored
    (hne : t.placeOf file.2 ≠ t.placeOf (stagingPath file.2))
    (h : Publishing t file (.ok outcome) t') : Mirrored t t' file outcome := by
  generalize hresult : (Except.ok outcome : Except Failure Outcome) = result at h
  cases h with
  | unchanged hsource htarget hdigest =>
    obtain rfl := Except.ok.inj hresult
    exact .unchanged hsource htarget hdigest rfl rfl
  | written hsource htarget hone =>
    obtain rfl := Except.ok.inj hresult
    refine .written hsource htarget (hone.becomes.same.reaches hone.reaches) ?_ ?_
    · rw [hone.lookup, hone.grows.lookup_eq_of_ne hone.copy]
    · rw [hone.becomes.lookup, Function.update_of_ne hne.symm, Function.update_self]
  | failed => cases hresult

/-- **Files that have been published**, one after another. -/
theorem publishAll_mirrored (hw : t.WellFormed) (hfiles : Publishable t D files)
    (h : (publishAll files).run t = (.ok outcomes, t')) :
    List.Forall₂ (Mirrored t t') files outcomes := by
  induction files generalizing t outcomes with
  | nil =>
    obtain rfl := Except.ok.inj (Prod.mk.inj h).1
    exact .nil
  | cons file files ih =>
    obtain ⟨outcome, t₁, rest, hfirst, hrest, rfl⟩ := publishAll_cons_ok h
    have hone := publishFile_run file hw
    have hspares := publishFile_spares file hw
    have halike := publishFile_mayTouch file hw (hfiles.target_plain file (by simp))
    rw [hfirst] at hone hspares halike
    have hspares' := publishAll_spares files hspares.wellFormed
    have halike' := publishAll_alike files hspares.wellFormed
      fun f hf => hfiles.target_plain f (by simp [hf])
    rw [hrest] at hspares' halike'
    have hplace := hspares.placeOf_eq
    refine .cons ?_ ?_
    -- The files that follow leave the first one alone.
    · refine (hone.mirrored hfiles.ne).later (fun p => hspares'.reaches) fun q hq => ?_
      refine halike' q fun hmem => hfiles.not_mayTouch hq ?_
      simpa only [MayTouch, hplace] using hmem
    -- The first one has left those that follow alone.
    · have hmirrored := ih hspares.wellFormed (hfiles.tail.congr hspares.workingDirectory) hrest
      refine ((List.forall₂_and_left _ _).mpr ⟨fun f hf => hf, hmirrored⟩).imp
        fun f o ⟨hf, hother⟩ => ?_
      exact hother.earlier hw hspares (hfiles.source_plain f (by simp [hf]))
        (hfiles.target_plain f (by simp [hf])) (hfiles.source_spared hf)
        (hfiles.target_spared hf) fun q hq => halike q (hfiles.not_mayTouch_head hf hq)

/-! ### Runs that fail -/

/-- A file is what it was, or the bytes of its source were written to its copy, which has taken
its place. -/
def IsOldOrNew (t t' : Tree) (file : Path × Path) : Prop :=
  t'.lookup (t.placeOf file.2) = t.lookup (t.placeOf file.2) ∨
    ∃ bytes, t.read file.1 = .ok bytes ∧ t'.Reaches file.2 ∧ t'.lookup (t.placeOf file.2) =
      Tree.writtenTo (t.lookup (t.placeOf (stagingPath file.2))) bytes

/-- Publishing one file, whether it succeeds or fails. -/
theorem publishFile_isOldOrNew (hw : t.WellFormed) (hfiles : Publishable t D (file :: files)) :
    IsOldOrNew t ((publishFile file.1 file.2).run t).2 file := by
  have halike := publishFile_alike file hw (hfiles.target_plain file (by simp))
  have hone := publishFile_run file hw
  generalize (publishFile file.1 file.2).run t = answer at halike hone ⊢
  obtain ⟨failure | outcome, t'⟩ := answer
  · refine Or.inl (halike _ ?_)
    rintro (hsuffix | ⟨hok, -⟩)
    · exact hfiles.ne (hfiles.eq_of_suffix (by simp) List.mem_cons_self (Or.inl rfl) hsuffix)
    · cases hok
  · cases hone.mirrored hfiles.ne with
    | unchanged _ _ _ hfile _ => exact Or.inl hfile
    | written hsource _ hreach hfile _ => exact Or.inr ⟨_, hsource, hreach, hfile⟩

/-- What others do later to a tree does not matter, if they spare the file. -/
theorem IsOldOrNew.later (h : IsOldOrNew t t₁ file)
    (hgrows : ∀ p, t₁.Reaches p → t'.Reaches p)
    (hkept : t'.lookup (t.placeOf file.2) = t₁.lookup (t.placeOf file.2)) :
    IsOldOrNew t t' file := by
  refine h.imp hkept.trans ?_
  rintro ⟨bytes, hsource, hreach, hwritten⟩
  exact ⟨bytes, hsource, hgrows _ hreach, hkept.trans hwritten⟩

/-- Nor does what others have done before, if they have spared the source and the copy too. -/
theorem IsOldOrNew.earlier {S : Place → Prop} (h : IsOldOrNew t₁ t' file) (hw : t.WellFormed)
    (hspares : Tree.Spares S t t₁) (hplain : ".." ∉ file.1.names)
    (hside : ¬S (t.placeOf file.1))
    (halike : ∀ q, IsOutput t file q → t₁.lookup q = t.lookup q) : IsOldOrNew t t' file := by
  simp only [IsOldOrNew, hspares.placeOf_eq, halike _ (Or.inl rfl), halike _ (Or.inr rfl)] at h
  refine h.imp_right ?_
  rintro ⟨bytes, hsource, hwritten⟩
  exact ⟨bytes, hspares.read_before hw hplain hside hsource, hwritten⟩

/-- **No file is lost**, and none is left half written, whether publishing succeeds or fails. -/
theorem publishAll_isOldOrNew (hw : t.WellFormed) (hfiles : Publishable t D files) :
    ∀ file ∈ files, IsOldOrNew t ((publishAll files).run t).2 file := by
  induction files generalizing t with
  | nil => simp
  | cons first files ih =>
    have hone := publishFile_isOldOrNew hw hfiles
    have hspares := publishFile_spares first hw
    have halike := publishFile_mayTouch first hw (hfiles.target_plain first (by simp))
    rw [publishAll_cons_eq]
    generalize (publishFile first.1 first.2).run t = answer at hone hspares halike ⊢
    have hothers : ∀ file ∈ files, ∀ q, IsOutput t file q → answer.2.lookup q = t.lookup q :=
      fun file hfile q hq => halike q (hfiles.not_mayTouch_head hfile hq)
    obtain ⟨failure | outcome, t₁⟩ := answer
    · refine List.forall_mem_cons.mpr ⟨hone, fun file hfile => ?_⟩
      exact Or.inl (hothers file hfile _ (Or.inl rfl))
    · have hspares' := publishAll_spares files hspares.wellFormed
      have halike' := publishAll_alike files hspares.wellFormed
        fun f hf => hfiles.target_plain f (by simp [hf])
      have hrest := ih hspares.wellFormed (hfiles.tail.congr hspares.workingDirectory)
      refine List.forall_mem_cons.mpr ⟨hone.later (fun p => hspares'.reaches) ?_,
        fun file hfile => (hrest file hfile).earlier hw hspares
          (hfiles.source_plain file (by simp [hfile])) (hfiles.source_spared hfile)
          (hothers file hfile)⟩
      -- The files that follow leave the first one alone.
      refine halike' (t.placeOf first.2) fun hmem => hfiles.not_mayTouch (Or.inl rfl) ?_
      simpa only [MayTouch, hspares.placeOf_eq] using hmem

/-- Files that have the bytes of their sources are left alone. -/
theorem publishAll_unchanged (files : List (Path × Path))
    (h : ∀ file ∈ files, ∃ bytes, t.read file.1 = .ok bytes ∧ t.read file.2 = .ok bytes) :
    (publishAll files).run t = (.ok (files.map fun file => .unchanged file.2), t) := by
  refine publishAll_of_digests files fun file hfile => ?_
  obtain ⟨bytes, hsource, htarget⟩ := h file hfile
  exact ⟨bytes, hsource, by rw [digestOf_run, htarget]⟩

/-! ### Shared artifacts -/

/-- The paths of the shared artifacts of a configuration, and the names that they end in. -/
structure Config.Shares (config : Config) (shared : List (Path × String)) : Prop where
  /-- All of them have paths. -/
  path : Artifact.published.map config.path? = shared.map fun s => some s.1
  /-- The paths end in names. -/
  name : ∀ s ∈ shared, s.1.fileName? = some s.2

/-- Each is to be published under its name. -/
def filesFor (shared : List (Path × String)) (directory : Path) : List (Path × Path) :=
  shared.map fun s => (s.1, directory.join ⟨s.2⟩)

theorem Config.Shares.publications_eq {config : Config} {shared : List (Path × String)}
    (h : config.Shares shared) (directory : Path) :
    config.publications directory = filesFor shared directory := by
  obtain ⟨hpath, hname⟩ := h
  unfold publications filesFor
  generalize Artifact.published = artifacts at hpath
  induction artifacts generalizing shared with
  | nil =>
    obtain rfl := List.map_eq_nil_iff.mp hpath.symm
    rfl
  | cons a artifacts ih =>
    cases shared with
    | nil => cases hpath
    | cons s shared =>
      obtain ⟨hfirst, hrest⟩ := List.cons.inj hpath
      rw [List.map_cons, ← ih (fun s hs => hname s (List.mem_cons_of_mem _ hs)) hrest]
      simp [hfirst, hname s List.mem_cons_self]

/-- The files of a directory do not get in each other's way. -/
theorem publishable_filesFor {shared : List (Path × String)} {directory : Path}
    (hname : ∀ s ∈ shared, s.1.fileName? = some s.2)
    (h : KeptApart t (filesFor shared directory)) :
    Publishable t (t.placeOf directory) (filesFor shared directory) := by
  refine ⟨h, fun file hfile => ?_, fun file hfile => ?_⟩
  all_goals
    obtain ⟨s, hs, rfl⟩ := List.mem_map.mp hfile
    obtain ⟨hslash, hproper⟩ := Path.isProperName_of_fileName? (hname s hs)
  · exact ⟨_, t.placeOf_join directory hslash hproper⟩
  · exact ⟨_, t.placeOf_stagingPath_join directory hslash⟩

/-- What an attempt to publish files to the directory at a place leaves behind, whether it succeeds
or fails. -/
structure Attempted (t t' : Tree) (D : Place) (files : List (Path × Path)) : Prop where
  /-- A source that is there is left alone. One that is missing may be found to be a directory,
  in which the files are to be or which is above it. -/
  source : ∀ file ∈ files, t'.lookup (t.placeOf file.1) = t.lookup (t.placeOf file.1) ∨
    t.lookup (t.placeOf file.1) = none ∧ t'.lookup (t.placeOf file.1) = some .directory ∧
      t.placeOf file.1 <:+ D
  /-- A file is what it was or has the bytes of its source, unless its copy was a device, which
  has taken its place. -/
  target : ∀ file ∈ files, t'.lookup (t.placeOf file.2) = t.lookup (t.placeOf file.2) ∨
    ∃ bytes, t.read file.1 = .ok bytes ∧ (t'.read file.2 = .ok bytes ∨
      t.lookup (t.placeOf (stagingPath file.2)) = some .device ∧
        t'.lookup (t.placeOf file.2) = some .device)

/-- What publishing files to the directory at a place leaves behind when it succeeds. -/
structure Mirrors (t t' : Tree) (D : Place) (files : List (Path × Path))
    (outcomes : List Outcome) : Prop where
  /-- A file is reported as unchanged if it had the bytes of its source. -/
  outcome : outcomes = files.map fun file =>
    if t.read file.2 = t.read file.1 then .unchanged file.2 else .written file.2
  /-- A file has the bytes of its source, unless its copy was a device, which has taken its
  place. -/
  target : ∀ file ∈ files, ∃ bytes, t.read file.1 = .ok bytes ∧ t'.read file.1 = .ok bytes ∧
    (t'.read file.2 = .ok bytes ∨
      t.lookup (t.placeOf (stagingPath file.2)) = some .device ∧
        t'.lookup (t.placeOf file.2) = some .device)
  /-- No copy is left that was written. -/
  copy : ∀ file ∈ files, t'.lookup (t.placeOf (stagingPath file.2)) =
    if t.read file.2 = t.read file.1 then t.lookup (t.placeOf (stagingPath file.2)) else none
  /-- Nothing else has changed, but that directories were made for the files. -/
  other : ∀ q, ¬IsPublished t files q → t'.lookup q = t.lookup q ∨
    t.lookup q = none ∧ t'.lookup q = some .directory ∧ q <:+ D

/-- What is at other places than those of the files and the copies. -/
theorem publishAll_other (hw : t.WellFormed) (hfiles : Publishable t D files) {q : Place}
    (hq : ¬IsPublished t files q) :
    ((publishAll files).run t).2.lookup q = t.lookup q ∨ t.lookup q = none ∧
      ((publishAll files).run t).2.lookup q = some .directory ∧ q <:+ D := by
  by_cases hmay : MayTouch t files q
  · refine ((publishAll_spares files hw).lookup q hq).imp_right fun ⟨hnone, hmade⟩ =>
      ⟨hnone, hmade, ?_⟩
    obtain ⟨file, hfile, heq | hsuffix⟩ := hmay
    · exact absurd ⟨file, hfile, Or.inl heq⟩ hq
    · obtain ⟨name, hcopy⟩ := hfiles.copy file hfile
      rw [hcopy, List.suffix_cons_iff] at hsuffix
      rcases hsuffix with heq | hsuffix
      · exact absurd ⟨file, hfile, Or.inr (heq.trans hcopy.symm)⟩ hq
      · exact hsuffix
  · exact Or.inl (publishAll_alike files hw hfiles.target_plain q hmay)

/-- What is read from a file into whose place its copy was moved. -/
theorem Disk.Tree.WellFormed.read_of_written {p : Path} {q : Place} {bytes : ByteArray}
    (hw : t'.WellFormed) (hreach : t'.Reaches p)
    (h : t'.lookup (t'.placeOf p) = Tree.writtenTo (t.lookup q) bytes) :
    t'.read p = .ok bytes ∨ t.lookup q = some .device ∧
      t'.lookup (t'.placeOf p) = some .device := by
  by_cases hdevice : t.lookup q = some .device
  · rw [hdevice] at h
    exact Or.inr ⟨hdevice, h⟩
  · rw [Tree.writtenTo_of_ne_device hdevice] at h
    exact Or.inl (hw.read_ok_iff.mpr ⟨hreach, by rw [h]; rfl⟩)

theorem publishAll_attempted (hw : t.WellFormed) (hfiles : Publishable t D files) :
    Attempted t ((publishAll files).run t).2 D files := by
  have hspares := publishAll_spares files hw
  refine ⟨fun file hfile => publishAll_other hw hfiles (hfiles.apart file hfile),
    fun file hfile => (publishAll_isOldOrNew hw hfiles file hfile).imp_right ?_⟩
  rintro ⟨bytes, hsource, hreach, hwritten⟩
  rw [← hspares.placeOf_eq file.2] at hwritten ⊢
  exact ⟨bytes, hsource, hspares.wellFormed.read_of_written hreach hwritten⟩

/-- The bytes of a file and its source are the same if their digests are. -/
def CollisionFree (t : Tree) (file : Path × Path) : Prop :=
  ∀ bytes bytes', t.read file.1 = .ok bytes → t.read file.2 = .ok bytes' →
    digest bytes' = digest bytes → bytes' = bytes

namespace Mirrored

/-- A file that was left alone had the bytes of its source, and no other. -/
theorem outcome_eq (h : Mirrored t t' file outcome) (hfree : CollisionFree t file) : outcome =
    if t.read file.2 = t.read file.1 then .unchanged file.2 else .written file.2 := by
  cases h with
  | @unchanged bytes bytes' hsource htarget hdigest _ _ =>
    obtain rfl := hfree bytes bytes' hsource htarget hdigest
    exact (if_pos (htarget.trans hsource.symm)).symm
  | @written bytes hsource htarget _ _ _ =>
    exact (if_neg fun heq => htarget bytes (heq.trans hsource) rfl).symm

theorem copy_eq (h : Mirrored t t' file outcome) (hfree : CollisionFree t file) :
    t'.lookup (t.placeOf (stagingPath file.2)) = if t.read file.2 = t.read file.1 then
      t.lookup (t.placeOf (stagingPath file.2)) else none := by
  cases h with
  | @unchanged bytes bytes' hsource htarget hdigest _ hcopy =>
    obtain rfl := hfree bytes bytes' hsource htarget hdigest
    exact hcopy.trans (if_pos (htarget.trans hsource.symm)).symm
  | @written bytes hsource htarget _ _ hcopy =>
    exact hcopy.trans (if_neg fun heq => htarget bytes (heq.trans hsource) rfl).symm

/-- What is read from a file that has been published. -/
theorem read {S : Place → Prop} (h : Mirrored t t' file outcome) (hfree : CollisionFree t file)
    (hw : t.WellFormed) (hspares : Tree.Spares S t t') :
    ∃ bytes, t.read file.1 = .ok bytes ∧ (t'.read file.2 = .ok bytes ∨
      t.lookup (t.placeOf (stagingPath file.2)) = some .device ∧
        t'.lookup (t.placeOf file.2) = some .device) := by
  cases h with
  | @unchanged bytes bytes' hsource htarget hdigest hfile _ =>
    obtain rfl := hfree bytes bytes' hsource htarget hdigest
    obtain ⟨hreach, hbytes⟩ := hw.read_ok_iff.mp htarget
    refine ⟨_, hsource, Or.inl ?_⟩
    rw [hspares.wellFormed.read_ok_iff, hspares.placeOf_eq, hfile]
    exact ⟨hspares.reaches hreach, hbytes⟩
  | written hsource _ hreach hfile _ =>
    rw [← hspares.placeOf_eq file.2] at hfile ⊢
    exact ⟨_, hsource, hspares.wellFormed.read_of_written hreach hfile⟩

end Mirrored

theorem publishAll_mirrors (hw : t.WellFormed) (hfiles : Publishable t D files)
    (hfree : ∀ file ∈ files, CollisionFree t file)
    (h : (publishAll files).run t = (.ok outcomes, t')) : Mirrors t t' D files outcomes := by
  have hspares := publishAll_spares files hw
  have hother := fun q (hq : ¬IsPublished t files q) => publishAll_other hw hfiles hq
  rw [h] at hspares hother
  have hall := (List.forall₂_and_left _ _).mpr ⟨hfree, publishAll_mirrored hw hfiles h⟩
  have hread : ∀ file ∈ files, ∃ bytes, t.read file.1 = .ok bytes ∧ t'.read file.1 = .ok bytes ∧
      (t'.read file.2 = .ok bytes ∨ t.lookup (t.placeOf (stagingPath file.2)) = some .device ∧
        t'.lookup (t.placeOf file.2) = some .device) := by
    intro file hfile
    obtain ⟨outcome, -, hfree, hone⟩ := (forall₂_mem hall).1 file hfile
    obtain ⟨bytes, hsource, htarget⟩ := hone.read hfree hw hspares
    exact ⟨bytes, hsource, hspares.read_after hw (hfiles.apart file hfile) hsource, htarget⟩
  refine ⟨?_, hread, fun file hfile => ?_, hother⟩
  · rw [← outcomes.map_id]
    exact map_eq_of_forall₂ hall fun file outcome ⟨hfree, hone⟩ => hone.outcome_eq hfree
  · obtain ⟨outcome, -, hfree, hone⟩ := (forall₂_mem hall).1 file hfile
    exact hone.copy_eq hfree

/-- **Publishing mirrors the shared artifacts**, if the files to be published, their copies and the
sources are different from each other, and no two contents that are compared have the same
digest. If it fails, each file is as it was or like its source. -/
theorem publish_mirrors {config : Config} {shared : List (Path × String)} {directory : Path}
    {result : Except Failure (List Outcome)} (hw : t.WellFormed) (hshared : config.Shares shared)
    (hapart : KeptApart t (filesFor shared directory))
    (hfree : ∀ file ∈ filesFor shared directory, CollisionFree t file)
    (h : (publish config directory).run t = (result, t')) :
    (∀ outcomes, result = .ok outcomes →
      Mirrors t t' (t.placeOf directory) (filesFor shared directory) outcomes ∧
        ((∀ file ∈ filesFor shared directory,
          t.lookup (t.placeOf (stagingPath file.2)) ≠ some .device) →
          (publish config directory).run t' =
            (.ok ((filesFor shared directory).map fun file => .unchanged file.2), t'))) ∧
      ∀ failure, result = .error failure →
        Attempted t t' (t.placeOf directory) (filesFor shared directory) := by
  have hfiles := publishable_filesFor hshared.name hapart
  unfold publish at h ⊢
  rw [hshared.publications_eq] at h ⊢
  constructor
  · rintro outcomes rfl
    have hmirrors := publishAll_mirrors hw hfiles hfree h
    refine ⟨hmirrors, fun hdevice => publishAll_unchanged _ fun file hfile => ?_⟩
    obtain ⟨bytes, -, hsource, htarget | ⟨hcopy, -⟩⟩ := hmirrors.target file hfile
    · exact ⟨bytes, hsource, htarget⟩
    · exact absurd hcopy (hdevice file hfile)
  · rintro failure rfl
    have hattempted := publishAll_attempted hw hfiles
    rwa [h] at hattempted

/-- The shared artifacts of a configuration with short paths. -/
def shortShared : List (Path × String) :=
  [(⟨"./t/a"⟩, "a"), (⟨"./t/b"⟩, "b"), (⟨"./t/c"⟩, "c")]

theorem shares_shortShared : Config.short.Shares shortShared :=
  ⟨by decide, by decide⟩

/-- A tree with the shared artifacts, one of which has been published. -/
def sharedTree : Tree :=
  ⟨[(["t"], .directory), (["p"], .directory), (["a", "t"], .file "ids".toUTF8),
    (["b", "t"], .file "classes".toUTF8), (["c", "t"], .file "functions".toUTF8),
    (["b", "p"], .file "classes".toUTF8)], []⟩

theorem sharedTree_keptApart : KeptApart sharedTree (filesFor shortShared ⟨"p"⟩) := by
  refine ⟨by decide, by decide, by decide, ?_⟩
  unfold IsPublished
  decide

theorem sharedTree_collisionFree :
    ∀ file ∈ filesFor shortShared ⟨"p"⟩, CollisionFree sharedTree file := by
  have hread : ∀ file ∈ filesFor shortShared ⟨"p"⟩,
      sharedTree.read file.2 = sharedTree.read file.1 ∨
        sharedTree.read file.2 = .error .notFound := by
    decide
  intro file hfile bytes bytes' hsource htarget _
  rcases hread file hfile with heq | hmissing
  · exact Except.ok.inj (htarget.symm.trans (heq.trans hsource))
  · cases htarget.symm.trans hmissing

/-- The others are published. -/
theorem publish_mirrors_sharedTree :
    ∃ outcomes t', (publish Config.short ⟨"p"⟩).run sharedTree = (.ok outcomes, t') ∧
      Mirrors sharedTree t' ["p"] (filesFor shortShared ⟨"p"⟩) outcomes ∧
      (publish Config.short ⟨"p"⟩).run t' =
        (.ok ((filesFor shortShared ⟨"p"⟩).map fun file => .unchanged file.2), t') := by
  have hw : sharedTree.WellFormed := by decide
  have hplace : sharedTree.placeOf ⟨"p"⟩ = ["p"] := by decide
  have hdevice : ∀ file ∈ filesFor shortShared ⟨"p"⟩,
      sharedTree.lookup (sharedTree.placeOf (stagingPath file.2)) ≠ some .device := by
    decide
  obtain ⟨outcomes, t', hrun⟩ : ∃ outcomes t',
      (publish Config.short ⟨"p"⟩).run sharedTree = (.ok outcomes, t') := by
    have hok : ((publish Config.short ⟨"p"⟩).run sharedTree).1.isOk = true := by
      decide +kernel
    generalize (publish Config.short ⟨"p"⟩).run sharedTree = answer at hok
    obtain ⟨failure | outcomes, t'⟩ := answer
    · cases hok
    · exact ⟨outcomes, t', rfl⟩
  obtain ⟨hmirrors, hagain⟩ := (publish_mirrors hw shares_shortShared sharedTree_keptApart
    sharedTree_collisionFree hrun).1 outcomes rfl
  rw [hplace] at hmirrors
  exact ⟨outcomes, t', hrun, hmirrors, hagain hdevice⟩

/-- A tree in which one of the shared artifacts is missing. -/
def partTree : Tree :=
  ⟨[(["t"], .directory), (["a", "t"], .file "ids".toUTF8),
    (["b", "t"], .file "classes".toUTF8)], []⟩

/-- A tree with the shared artifacts and a special file at the place of a copy. -/
def deviceTree : Tree :=
  ⟨[(["t"], .directory), (["p"], .directory), (["a", "t"], .file "ids".toUTF8),
    (["b", "t"], .file "classes".toUTF8), (["c", "t"], .file "functions".toUTF8),
    (["a.pktgen.tmp", "p"], .device)], []⟩

/-- Nothing collides with files that are not there. -/
theorem collisionFree_of_notFound (h : ∀ file ∈ files, t.read file.2 = .error .notFound) :
    ∀ file ∈ files, CollisionFree t file := by
  intro file hfile bytes bytes' _ htarget _
  cases htarget.symm.trans (h file hfile)

/-- **A missing source may become a directory** when publishing fails because it is missing, and
**a special file may become a destination** when publishing succeeds. -/
theorem publish_makes_source_and_device :
    Config.short.Shares shortShared ∧
      (partTree.WellFormed ∧ KeptApart partTree (filesFor shortShared ⟨"t/c"⟩) ∧
        (∀ file ∈ filesFor shortShared ⟨"t/c"⟩, CollisionFree partTree file) ∧
        ((publish Config.short ⟨"t/c"⟩).run partTree).1.isOk = false ∧
        ∃ file ∈ filesFor shortShared ⟨"t/c"⟩,
          partTree.lookup (partTree.placeOf file.1) = none ∧
            ((publish Config.short ⟨"t/c"⟩).run partTree).2.lookup (partTree.placeOf file.1) =
              some .directory) ∧
      (deviceTree.WellFormed ∧ KeptApart deviceTree (filesFor shortShared ⟨"p"⟩) ∧
        (∀ file ∈ filesFor shortShared ⟨"p"⟩, CollisionFree deviceTree file) ∧
        ((publish Config.short ⟨"p"⟩).run deviceTree).1.isOk = true ∧
        ∃ file ∈ filesFor shortShared ⟨"p"⟩,
          ((publish Config.short ⟨"p"⟩).run deviceTree).2.lookup (deviceTree.placeOf file.2) =
            some .device) := by
  refine ⟨shares_shortShared, ⟨by decide, ⟨by decide, by decide,
    by decide +kernel, ?_⟩, collisionFree_of_notFound (by decide +kernel), by decide +kernel,
    by decide +kernel⟩, by decide, ⟨by decide +kernel, by decide +kernel, by decide +kernel, ?_⟩,
    collisionFree_of_notFound (by decide +kernel), by decide +kernel, by decide +kernel⟩
  all_goals
    unfold IsPublished
    decide

end Packetry
