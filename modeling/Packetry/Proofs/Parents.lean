import Packetry.Proofs.Operation

/-!
# Missing directories

Before a file is written, the directories above it that are missing are made. Whatever comes of
that, the tree only *grows*: everything that was there is still what it was, and directories
may have been added (`Packetry.Disk.Tree.Grows`).

A path is *open* in a tree (`Packetry.Disk.Tree.IsOpen`) if nothing but directories is above
its place and it steps nowhere upwards. A file can be written to an open path, and then
exactly the missing directories above it have been added
(`Packetry.Disk.Program.writeWithParents_eq`).
-/

namespace Packetry.Disk

namespace Tree

variable {t t' t'' : Tree} {p : Path} {q : Place} {bytes : ByteArray}

/-! ### Growing -/

/-- The second tree has all that the first one has. Where that has nothing, it may have a
directory. -/
structure Grows (t t' : Tree) : Prop where
  /-- The working directory is the same. -/
  workingDirectory : t'.workingDirectory = t.workingDirectory
  /-- What was there has been left alone. -/
  lookup : ∀ q, t'.lookup q = t.lookup q ∨ t.lookup q = none ∧ t'.lookup q = some .directory

theorem Grows.refl (t : Tree) : t.Grows t := ⟨rfl, fun _ => Or.inl rfl⟩

theorem Grows.lookup_eq (h : t.Grows t') (hq : t.lookup q ≠ none) : t'.lookup q = t.lookup q := by
  rcases h.lookup q with h | ⟨h, -⟩
  · exact h
  · exact absurd h hq

/-- What is no directory was there before. -/
theorem Grows.lookup_eq_of_ne (h : t.Grows t') (hq : t'.lookup q ≠ some .directory) :
    t'.lookup q = t.lookup q := by
  rcases h.lookup q with h | ⟨-, h⟩
  · exact h
  · exact absurd h hq

theorem Grows.trans (h : t.Grows t') (h' : t'.Grows t'') : t.Grows t'' := by
  refine ⟨h'.workingDirectory.trans h.workingDirectory, fun q => ?_⟩
  by_cases hq : t.lookup q = none
  · rcases h'.lookup q with h₂ | ⟨-, h₂⟩
    · rcases h.lookup q with h₁ | ⟨-, h₁⟩
      · exact Or.inl (h₂.trans h₁)
      · exact Or.inr ⟨hq, h₂.trans h₁⟩
    · exact Or.inr ⟨hq, h₂⟩
  · have h₁ := h.lookup_eq hq
    exact Or.inl ((h'.lookup_eq (h₁ ▸ hq)).trans h₁)

theorem Grows.directory (h : t.Grows t') (hq : t.lookup q = some .directory) :
    t'.lookup q = some .directory := by
  rw [h.lookup_eq (by simp [hq]), hq]

theorem Grows.placeOf_eq (h : t.Grows t') (p : Path) : t'.placeOf p = t.placeOf p :=
  placeOf_congr h.workingDirectory p

/-! ### Sparing what is elsewhere -/

/-- Outside of some places, the second tree has grown from the first one; directories are
never lost. -/
structure Spares (S : Place → Prop) (t t' : Tree) : Prop where
  /-- The working directory is the same. -/
  workingDirectory : t'.workingDirectory = t.workingDirectory
  /-- The second tree is well formed. -/
  wellFormed : t'.WellFormed
  /-- Directories stay directories. -/
  directory : ∀ q, t.lookup q = some .directory → t'.lookup q = some .directory
  /-- Elsewhere, what was there has been left alone. -/
  lookup : ∀ q, ¬S q → t'.lookup q = t.lookup q ∨
    t.lookup q = none ∧ t'.lookup q = some .directory

section Spares

variable {S S' : Place → Prop} {f : Place → Option Entry}

theorem WellFormed.spares_self (hw : t.WellFormed) : Spares S t t :=
  ⟨rfl, hw, fun _ => id, fun _ _ => Or.inl rfl⟩

theorem Spares.mono (h : Spares S t t') (hS : ∀ q, S q → S' q) : Spares S' t t' :=
  ⟨h.workingDirectory, h.wellFormed, h.directory, fun q hq => h.lookup q fun hs => hq (hS q hs)⟩

theorem Spares.trans (h : Spares S t t') (h' : Spares S t' t'') : Spares S t t'' := by
  refine ⟨h'.workingDirectory.trans h.workingDirectory, h'.wellFormed,
    fun q hq => h'.directory q (h.directory q hq), fun q hq => ?_⟩
  rcases h.lookup q hq with h₁ | ⟨hnone, h₁⟩
  · rw [← h₁]
    exact h'.lookup q hq
  · exact Or.inr ⟨hnone, h'.directory q h₁⟩

theorem Grows.spares (h : t.Grows t') (hw : t'.WellFormed) : Spares S t t' :=
  ⟨h.workingDirectory, hw, fun _ => h.directory, fun q _ => h.lookup q⟩

theorem Becomes.spares (h : t.Becomes f t') (hf : ∀ q, ¬S q → f q = t.lookup q) :
    Spares S t t' :=
  ⟨h.same.workingDirectory, h.wellFormed, fun q => (h.same.directory q).mpr,
    fun q hq => Or.inl (by rw [h.lookup, hf q hq])⟩

theorem Spares.placeOf_eq (h : Spares S t t') (p : Path) : t'.placeOf p = t.placeOf p :=
  placeOf_congr h.workingDirectory p

theorem Spares.reaches (h : Spares S t t') (hp : t.Reaches p) : t'.Reaches p :=
  hp.mono h.directory h.workingDirectory

/-- What is no directory has been left alone, or was put to one of the places. -/
theorem Spares.lookup_eq_of_ne (h : Spares S t t') (hq : ¬S q)
    (hne : t'.lookup q ≠ some .directory) : t'.lookup q = t.lookup q := by
  rcases h.lookup q hq with h | ⟨-, h⟩
  · exact h
  · exact absurd h hne

/-- A file elsewhere is still what it was. -/
theorem Spares.lookup_eq (h : Spares S t t') (hq : ¬S q) (hne : t.lookup q ≠ none) :
    t'.lookup q = t.lookup q := by
  rcases h.lookup q hq with h | ⟨h, -⟩
  · exact h
  · exact absurd h hne

end Spares

/-! ### One directory -/

/-- **A directory that was made** is there now; nothing was there before. -/
theorem WellFormed.makeDirectory_ok (hw : t.WellFormed) (h : t.makeDirectory p = .ok t') :
    t.lookup (t.placeOf p) = none ∧
      t'.lookup = Function.update t.lookup (t.placeOf p) (some .directory) ∧
      t'.workingDirectory = t.workingDirectory ∧ t'.WellFormed := by
  unfold makeDirectory at h
  obtain ⟨s?, hspot, h⟩ := bind_ok h
  cases s? with
  | none => cases h
  | some s =>
    obtain ⟨x, hat, h⟩ := bind_ok h
    obtain ⟨-, rfl⟩ := at?_ok hat
    have hplace := hw.place_eq_placeOf hspot
    obtain ⟨-, -, hdir, -⟩ := spot?_ok hspot
    rw [hplace] at h
    -- A well-formed tree takes the new entry only in a directory.
    have hin : t.lookup (t.placeOf p).tail = some .directory := by
      rw [← hplace]
      exact hdir
    have hne : t.placeOf p ≠ [] := by
      rw [← hplace]
      simp [Spot.place]
    cases hv : t.lookup (t.placeOf p) with
    | some _ =>
      rw [hv] at h
      cases h
    | none =>
      rw [hv] at h
      obtain rfl := Except.ok.inj h
      have hlookup := lookup_insert (t := t) (e := .directory) hne
      refine ⟨rfl, hlookup, rfl, hw.of_directories (fun r hr => ?_) (fun name place hr => ?_)⟩
      · rw [hlookup, Function.update_of_ne, hr]
        rintro rfl
        rw [hr] at hv
        cases hv
      · by_cases heq : name :: place = t.placeOf p
        · rw [← heq] at hin
          exact Or.inr hin
        · rw [hlookup, Function.update_of_ne heq] at hr
          exact Or.inl hr

theorem WellFormed.grows_of_makeDirectory (hw : t.WellFormed)
    (h : t.makeDirectory p = .ok t') : t.Grows t' ∧ t'.WellFormed := by
  obtain ⟨hnone, hlookup, hcwd, hw'⟩ := hw.makeDirectory_ok h
  refine ⟨⟨hcwd, fun q => ?_⟩, hw'⟩
  rw [hlookup, Function.update_apply]
  split
  · rename_i hq
    exact Or.inr ⟨hq ▸ hnone, rfl⟩
  · exact Or.inl rfl

end Tree

namespace Program

variable {t t' : Tree} {p : Path} {q : Place} {bytes : ByteArray}

/-! ### Many directories -/

theorem settle_run (p : Path) (x : Except Error Unit) (t : Tree) :
    (makeDirectories.settle p x).run t =
      (match x with
        | .ok () => .ok ()
        | .error e => if t.isDirectory p then .ok () else .error e, t) := by
  cases x with
  | ok _ => rfl
  | error e =>
    unfold makeDirectories.settle
    rw [run_bind, run_isDirectory, run_pure]

/-- What making directories leaves: nothing is made, or the directory itself, or those above it,
or those above it and then the directory. -/
theorem makeDirectories_cases (bound : Nat) (p : Path) (t : Tree) :
    ((makeDirectories (bound + 1) p).run t).2 = t ∨
      ((makeDirectories (bound + 1) p).run t).2 = (t.commit (t.makeDirectory p)).2 ∨
      ∃ parent t₁, p.parent? = some parent ∧ t₁ = ((makeDirectories bound parent).run t).2 ∧
        (((makeDirectories (bound + 1) p).run t).2 = t₁ ∨
          ((makeDirectories (bound + 1) p).run t).2 = (t₁.commit (t₁.makeDirectory p)).2) := by
  rw [makeDirectories]
  split
  · exact Or.inl rfl
  · rw [run_bind, run_makeDirectory]
    cases h : t.makeDirectory p with
    | ok t' => exact Or.inr (Or.inl rfl)
    | error e =>
      simp only [Tree.commit_error]
      by_cases he : e = .notFound
      · subst he
        cases hparent : p.parent? with
        | none => exact Or.inl rfl
        | some parent =>
          refine Or.inr (Or.inr ⟨parent, _, rfl, rfl, ?_⟩)
          dsimp only
          rw [run_bind]
          cases hmade : ((makeDirectories bound parent).run t).1 with
          | error e => exact Or.inl rfl
          | ok _ =>
            dsimp only
            rw [run_bind, run_makeDirectory, settle_run]
            exact Or.inr rfl
      · cases e with
        | notFound => exact absurd rfl he
        | _ =>
          dsimp only
          rw [settle_run]
          exact Or.inl rfl

/-- Making one directory makes the tree grow, also when it fails. -/
theorem makeDirectory_grows (hw : t.WellFormed) (p : Path) :
    t.Grows (t.commit (t.makeDirectory p)).2 ∧ (t.commit (t.makeDirectory p)).2.WellFormed := by
  cases h : t.makeDirectory p with
  | error e => exact ⟨Tree.Grows.refl t, hw⟩
  | ok t' => exact hw.grows_of_makeDirectory h

/-- Making directories makes the tree grow, also when it fails. -/
theorem makeDirectories_grows (bound : Nat) (p : Path) (hw : t.WellFormed) :
    t.Grows ((makeDirectories bound p).run t).2 ∧
      ((makeDirectories bound p).run t).2.WellFormed := by
  induction bound generalizing p t with
  | zero => exact ⟨Tree.Grows.refl t, hw⟩
  | succ bound ih =>
    rcases makeDirectories_cases bound p t with heq | heq | ⟨parent, t₁, -, rfl, heq | heq⟩
    all_goals rw [heq]
    · exact ⟨Tree.Grows.refl t, hw⟩
    · exact makeDirectory_grows hw p
    · exact ih parent hw
    · obtain ⟨hgrows, hw'⟩ := ih parent hw
      obtain ⟨hgrows', hw''⟩ := makeDirectory_grows hw' p
      exact ⟨hgrows.trans hgrows', hw''⟩

/-- Writing a file after the directories above it have been made: the tree grows, and then the
file is written, if nothing fails. -/
theorem writeWithParents_run (p : Path) (bytes : ByteArray) (hw : t.WellFormed) :
    ∃ t', t.Grows t' ∧ t'.WellFormed ∧
      (((writeWithParents p bytes).run t).1 = .ok () ∧ t'.Reaches p ∧
          t'.lookup (t.placeOf p) ≠ some .directory ∧
          t'.Becomes (Function.update t'.lookup (t.placeOf p)
            (Tree.writtenTo (t'.lookup (t.placeOf p)) bytes))
            ((writeWithParents p bytes).run t).2 ∨
        (∃ e, ((writeWithParents p bytes).run t).1 = .error e) ∧
          ((writeWithParents p bytes).run t).2 = t') := by
  have hwrite : ∀ t' : Tree, t.Grows t' → t'.WellFormed →
      ((t'.commit (t'.write p bytes)).1 = .ok () ∧ t'.Reaches p ∧
          t'.lookup (t.placeOf p) ≠ some .directory ∧
          t'.Becomes (Function.update t'.lookup (t.placeOf p)
            (Tree.writtenTo (t'.lookup (t.placeOf p)) bytes))
            (t'.commit (t'.write p bytes)).2 ∨
        (∃ e, (t'.commit (t'.write p bytes)).1 = .error e) ∧
          (t'.commit (t'.write p bytes)).2 = t') := by
    intro t' hgrows hw'
    cases h : t'.write p bytes with
    | error e => exact Or.inr ⟨⟨e, rfl⟩, rfl⟩
    | ok t'' =>
      obtain ⟨hreach, hdir, hbecomes⟩ := hw'.write_ok h
      rw [hgrows.placeOf_eq] at hdir hbecomes
      exact Or.inl ⟨rfl, hreach, hdir, hbecomes⟩
  unfold writeWithParents
  cases p.parent? with
  | none => exact ⟨t, Tree.Grows.refl t, hw, hwrite t (Tree.Grows.refl t) hw⟩
  | some parent =>
    dsimp only
    rw [run_bind]
    obtain ⟨hgrows, hw'⟩ := makeDirectories_grows (parent.text.length + 1) parent hw
    refine ⟨_, hgrows, hw', ?_⟩
    cases ((makeDirectories (parent.text.length + 1) parent).run t).1 with
    | error e => exact Or.inr ⟨⟨e, rfl⟩, rfl⟩
    | ok _ => exact hwrite _ hgrows hw'

/-- Writing a file spares everything else. -/
theorem writeWithParents_spares (p : Path) (bytes : ByteArray) (hw : t.WellFormed) :
    Tree.Spares (· = t.placeOf p) t ((writeWithParents p bytes).run t).2 := by
  obtain ⟨t', hgrows, hw', ⟨-, -, -, hbecomes⟩ | ⟨-, heq⟩⟩ := writeWithParents_run p bytes hw
  · exact (hgrows.spares hw').trans
      (hbecomes.spares fun q hq => Function.update_of_ne hq _ _)
  · rw [heq]
    exact hgrows.spares hw'

end Program

/-! ### Open paths -/

namespace Tree

variable {t t' : Tree} {p : Path} {q place : Place} {before : List String} {last : String}

/-- What is at each place when all that is missing at and above a place has become a
directory. -/
def withDirectories (t : Tree) (place q : Place) : Option Entry :=
  if q <:+ place ∧ t.lookup q = none then some .directory else t.lookup q

theorem WellFormed.withDirectories_of_ne (hw : t.WellFormed) (h : t.lookup place ≠ none) :
    t.withDirectories place = t.lookup := by
  funext q
  refine if_neg ?_
  rintro ⟨hq, hnone⟩
  by_cases hne : q = place
  · exact h (hne ▸ hnone)
  · rw [hw.directory_of_suffix h hq hne] at hnone
    cases hnone

/-- The path of a directory that is there, or can be made with all that is missing above
it. -/
structure IsOpenDirectory (t : Tree) (p : Path) : Prop where
  /-- The path is empty or can be walked. -/
  walkable : p.text = "" ∨ p.IsWalkable
  /-- The path steps nowhere upwards. -/
  plain : ∀ s ∈ p.steps, Path.IsPlainStep s
  /-- The path ends with its last step. -/
  last : ∀ before name, p.steps = before ++ [name] → p.names.getLast? = some name
  /-- The path starts from a directory. -/
  base : t.lookup (t.base p) = some .directory
  /-- Nothing but directories is at and above the place. -/
  clear : ∀ q, q <:+ t.placeOf p → t.lookup q = none ∨ t.lookup q = some .directory

theorem IsOpenDirectory.congr (h : t.IsOpenDirectory p)
    (hcwd : t'.workingDirectory = t.workingDirectory)
    (hbase : t'.lookup (t.base p) = some .directory)
    (hclear : ∀ q, q <:+ t.placeOf p → t'.lookup q = none ∨ t'.lookup q = some .directory) :
    t'.IsOpenDirectory p := by
  have hb : t'.base p = t.base p := by simp [Tree.base, hcwd]
  exact ⟨h.walkable, h.plain, h.last, by rwa [hb], by rwa [placeOf_congr hcwd]⟩

/-- The last step of an open path, and the place that it is taken from. -/
theorem IsOpenDirectory.placeOf_eq (h : t.IsOpenDirectory p) (hsteps : p.steps = before ++ [last]) :
    p.lastName = last ∧ Path.isProperName last ∧ last.utf8ByteSize ≤ nameLimit ∧
      t.placeOf p = last :: (t.base p).follow before ∧
      (t.base p).follow p.directoryNames = (t.base p).follow before := by
  have hlast : p.lastName = last := by
    have hget := h.last before last hsteps
    rw [List.getLast?_eq_some_getLast p.names_ne_nil] at hget
    exact Option.some.inj hget
  have hmem : last ∈ p.steps := by simp [hsteps]
  obtain ⟨hup, hshort⟩ := h.plain last hmem
  have hproper : Path.isProperName last := by
    have hv := (List.mem_filter.mp hmem).2
    simp only [Bool.not_eq_true'] at hv
    simp [Path.isProperName, hv, hup]
  have hplace : t.placeOf p = last :: (t.base p).follow before := by
    rw [placeOf_eq_steps, hsteps, Place.follow_append]
    exact Path.enter_of_isProperName hproper _
  refine ⟨hlast, hproper, hshort, hplace, ?_⟩
  have hplace' : t.placeOf p = last :: (t.base p).follow p.directoryNames := by
    rw [placeOf, p.names_eq, Place.follow_append, hlast]
    exact Path.enter_of_isProperName hproper _
  rw [hplace] at hplace'
  exact (List.cons.inj hplace').2.symm

theorem IsOpenDirectory.plain_directoryNames (h : t.IsOpenDirectory p) :
    ∀ s ∈ p.directoryNames, Path.IsPlainStep s :=
  fun _ hs => Path.isPlainStep_of_mem_names h.plain (List.dropLast_subset _ hs)

/-- The spot of an open path whose parent is there. -/
theorem IsOpenDirectory.hasSpot (h : t.IsOpenDirectory p) (hw : t.WellFormed) (hne : p.text ≠ "")
    (hsteps : p.steps = before ++ [last])
    (hparent : t.lookup ((t.base p).follow before) = some .directory) :
    t.HasSpot p ((t.base p).follow before) := by
  obtain ⟨hlast, hproper, -, -, hfollow⟩ := h.placeOf_eq hsteps
  refine ⟨h.walkable.resolve_left hne, hlast ▸ hproper, ?_, hparent⟩
  rw [← hfollow] at hparent ⊢
  exact hw.walk_eq (fun hup => (h.plain_directoryNames _ hup).1 rfl)
    (fun s hs => (h.plain_directoryNames s hs).2) hparent

/-- Void segments lead nowhere else. -/
theorem walk_of_isVoidName (hq : t.lookup q = some .directory) (segments : List String)
    (h : ∀ s ∈ segments, Path.isVoidName s = true) : t.walk q segments = .ok q := by
  induction segments with
  | nil => rfl
  | cons segment segments ih =>
    have hvoid := h segment List.mem_cons_self
    have henter : q.enter segment = q := by rw [Place.enter, if_pos hvoid]
    rw [walk_cons, step_eq hq (fun _ => (Path.isPlainStep_of_isVoidName hvoid).2)
      (by simp [henter, hq]), henter]
    exact ih fun s hs => h s (List.mem_cons_of_mem _ hs)

/-- A directory that is there is not made again. -/
theorem IsOpenDirectory.makeDirectory_exists (h : t.IsOpenDirectory p) (hw : t.WellFormed)
    (hne : p.text ≠ "") (hdir : t.lookup (t.placeOf p) = some .directory) :
    t.makeDirectory p = .error .exists ∧ t.isDirectory p = true := by
  have hplain := fun s hs => Path.isPlainStep_of_mem_names h.plain (s := s) hs
  have hfind : t.find p = .ok (t.placeOf p) := by
    unfold find
    rw [start_eq t (h.walkable.resolve_left hne)]
    exact hw.walk_eq (fun hup => (hplain _ hup).1 rfl) (fun s hs => (hplain s hs).2) hdir
  refine ⟨?_, by simp [isDirectory, hfind, isDirectoryAt_iff.mpr hdir]⟩
  rcases List.eq_nil_or_concat p.steps with hnil | ⟨before, last, hsteps⟩
  · -- Only void segments: the path leads to where it starts from.
    have hvoid : ∀ s ∈ p.names, Path.isVoidName s = true := by
      intro s hs
      have := List.filter_eq_nil_iff.mp hnil s hs
      simpa using this
    unfold makeDirectory spot?
    rw [start_eq t (h.walkable.resolve_left hne)]
    simp only [bind, Except.bind]
    cases hdrop : p.names.reverse.dropWhile (· = "") with
    | nil => rfl
    | cons name rest =>
      have hmem : ∀ s ∈ name :: rest, s ∈ p.names := by
        intro s hs
        rw [← hdrop] at hs
        exact List.mem_reverse.mp (List.dropWhile_suffix _ |>.subset hs)
      have hname : name = "." := by
        have hhead := List.head?_dropWhile_not (· = "") p.names.reverse
        rw [hdrop] at hhead
        have hv := hvoid name (hmem name (by simp))
        simp only [Path.isVoidName, Bool.or_eq_true, beq_iff_eq] at hv
        exact hv.resolve_left (by simpa using hhead)
      have hrest := walk_of_isVoidName h.base rest.reverse fun s hs =>
        hvoid s (hmem s (by simp [List.mem_reverse.mp hs]))
      simp [hrest, isDirectoryAt_iff.mpr h.base, hname, pure, Except.pure, throw, throwThe,
        MonadExceptOf.throw]
  · rw [List.concat_eq_append] at hsteps
    obtain ⟨hlast, -, hshort, hplace, -⟩ := h.placeOf_eq hsteps
    have hparent : t.lookup ((t.base p).follow before) = some .directory :=
      hw last _ (by rw [← hplace, hdir]; simp)
    have hspot := h.hasSpot hw hne hsteps hparent
    have hat : t.at? ⟨(t.base p).follow before, p.lastName, false⟩ = .ok (some .directory) := by
      rw [at?_eq (by simpa [hlast] using hshort), Spot.place, hlast, ← hplace, hdir]
    unfold makeDirectory
    rw [hspot.spot?_eq]
    simp only [bind, Except.bind, hat]
    rfl

/-- A directory that is missing can be made if its parent is there. -/
theorem IsOpenDirectory.makeDirectory_ok (h : t.IsOpenDirectory p) (hw : t.WellFormed)
    (hne : p.text ≠ "") (hsteps : p.steps = before ++ [last])
    (hparent : t.lookup ((t.base p).follow before) = some .directory)
    (hnone : t.lookup (t.placeOf p) = none) : ∃ t', t.makeDirectory p = .ok t' := by
  obtain ⟨hlast, -, hshort, hplace, -⟩ := h.placeOf_eq hsteps
  have hat : t.at? ⟨(t.base p).follow before, p.lastName, false⟩ = .ok none := by
    rw [at?_eq (by simpa [hlast] using hshort), Spot.place, hlast, ← hplace, hnone]
  unfold makeDirectory
  rw [(h.hasSpot hw hne hsteps hparent).spot?_eq]
  simp only [bind, Except.bind, hat]
  exact ⟨_, rfl⟩

/-- A directory whose parent is missing cannot be made at once. -/
theorem IsOpenDirectory.makeDirectory_notFound (h : t.IsOpenDirectory p) (hne : p.text ≠ "")
    (hsteps : p.steps = before ++ [last])
    (hparent : t.lookup ((t.base p).follow before) = none) :
    t.makeDirectory p = .error .notFound := by
  obtain ⟨hlast, hproper, -, hplace, hfollow⟩ := h.placeOf_eq hsteps
  have hname : p.lastName ≠ "" := by
    rintro hempty
    rw [← hlast, hempty] at hproper
    simp [Path.isProperName, Path.isVoidName] at hproper
  have hwalk : t.walk (t.base p) p.directoryNames = .error .notFound := by
    refine walk_notFound h.plain_directoryNames h.base (fun r hr => h.clear r ?_) ?_
    · rw [hfollow] at hr
      rw [hplace]
      exact hr.trans (List.suffix_cons _ _)
    · rwa [hfollow]
  have hdrop : p.names.reverse.dropWhile (· = "") = p.lastName :: p.directoryNames.reverse := by
    rw [p.names_eq, List.reverse_append, List.reverse_singleton, List.singleton_append,
      List.dropWhile_cons_of_neg (by simpa using hname)]
  unfold makeDirectory spot?
  rw [start_eq t (h.walkable.resolve_left hne)]
  simp only [bind, Except.bind, hdrop, List.reverse_reverse, hwalk]

/-- The parent of an open path is open. -/
theorem IsOpenDirectory.of_parent? {parent : Path} (h : t.IsOpenDirectory p)
    (hsteps : p.steps = before ++ [last]) (hparent : p.parent? = some parent) :
    t.IsOpenDirectory parent ∧ t.placeOf parent = (t.base p).follow before ∧
      parent.text.length < p.text.length := by
  obtain ⟨q, hq, hqsteps, habs, hprefix, hlength⟩ := Path.parent?_eq_some hsteps
  obtain rfl : parent = q := Option.some.inj (hparent.symm.trans hq)
  have hbase : t.base parent = t.base p := by simp [Tree.base, habs]
  have hplace : t.placeOf parent = (t.base p).follow before := by
    rw [placeOf_eq_steps, hqsteps, hbase]
  have hpne : p.text ≠ "" := by
    rintro hempty
    rw [hempty] at hlength
    exact absurd hlength (Nat.not_lt_zero _)
  refine ⟨⟨?_, fun s hs => h.plain s ?_, fun _ _ hlast => Path.lastName_of_parent? hparent hlast,
    by rw [hbase, h.base], fun r hr => h.clear r ?_⟩, hplace, hlength⟩
  · by_cases hne : parent.text = ""
    · exact Or.inl hne
    · exact Or.inr ((h.walkable.resolve_left hpne).of_isPrefix hprefix hne)
  · rw [hqsteps] at hs
    simp [hsteps, hs]
  · obtain ⟨-, -, -, hpplace, -⟩ := h.placeOf_eq hsteps
    rw [hplace] at hr
    rw [hpplace]
    exact hr.trans (List.suffix_cons _ _)

/-- Directories at and above a place, made in two steps. -/
theorem update_withDirectories {name : String} (hnone : t.lookup (name :: place) = none) :
    Function.update (t.withDirectories place) (name :: place) (some .directory) =
      t.withDirectories (name :: place) := by
  funext q
  rw [Function.update_apply]
  by_cases hq : q = name :: place
  · rw [if_pos hq, withDirectories, if_pos ⟨hq ▸ List.suffix_refl _, hq ▸ hnone⟩]
  · have hiff : q <:+ place ↔ q <:+ name :: place := by
      rw [List.suffix_cons_iff]
      exact ⟨Or.inr, fun h => h.resolve_left hq⟩
    simp only [if_neg hq, withDirectories, hiff]

/-- When the directories above an open path have been made, it is open still, its parent is there,
and it is missing. -/
theorem IsOpenDirectory.of_withDirectories (h : t.IsOpenDirectory p)
    (hcwd : t'.workingDirectory = t.workingDirectory)
    (hlookup : t'.lookup = t.withDirectories ((t.base p).follow before))
    (hsteps : p.steps = before ++ [last])
    (hmissing : t.lookup ((t.base p).follow before) = none) (hnone : t.lookup (t.placeOf p) = none) :
    t'.IsOpenDirectory p ∧ t'.lookup ((t'.base p).follow before) = some .directory ∧
      t'.lookup (t'.placeOf p) = none := by
  obtain ⟨-, -, -, hplace, -⟩ := h.placeOf_eq hsteps
  have hbase : t'.base p = t.base p := by simp [Tree.base, hcwd]
  refine ⟨h.congr hcwd ?_ fun q hq => ?_, ?_, ?_⟩
  · rw [hlookup, withDirectories, if_neg (by simp [h.base]), h.base]
  · rw [hlookup, withDirectories]
    split
    · exact Or.inr rfl
    · exact h.clear q hq
  · rw [hbase, hlookup]
    exact if_pos ⟨List.suffix_refl _, hmissing⟩
  · rw [placeOf_congr hcwd, hlookup, hplace, withDirectories, if_neg]
    · exact hplace ▸ hnone
    · rintro ⟨hsuffix, -⟩
      exact absurd hsuffix.length_le (by simp)

end Tree

namespace Program

variable {t : Tree} {p : Path}

/-- **The directories above an open path** can be made, and then they are there. -/
theorem makeDirectories_eq (bound : Nat) (p : Path) (t : Tree) (hw : t.WellFormed)
    (h : t.IsOpenDirectory p) (hbound : p.text.length < bound) :
    ∃ t', (makeDirectories bound p).run t = (.ok (), t') ∧
      t'.lookup = t.withDirectories (t.placeOf p) ∧ t'.WellFormed ∧
      t'.workingDirectory = t.workingDirectory := by
  induction bound generalizing p t with
  | zero => exact absurd hbound (Nat.not_lt_zero _)
  | succ bound ih =>
    unfold makeDirectories
    by_cases hne : p.text = ""
    · rw [if_pos hne]
      refine ⟨t, rfl, (hw.withDirectories_of_ne ?_).symm, hw, rfl⟩
      obtain rfl : p = ⟨""⟩ := by
        obtain ⟨text⟩ := p
        obtain rfl : text = "" := hne
        rfl
      have hplace : t.placeOf ⟨""⟩ = t.base ⟨""⟩ := rfl
      rw [hplace, h.base]
      simp
    · rw [if_neg hne, run_bind, run_makeDirectory]
      by_cases hdir : t.lookup (t.placeOf p) = some .directory
      · obtain ⟨hmake, hisdir⟩ := h.makeDirectory_exists hw hne hdir
        refine ⟨t, ?_, (hw.withDirectories_of_ne (by simp [hdir])).symm, hw, rfl⟩
        simp [hmake, settle_run, hisdir]
      · have hnone := (h.clear _ (List.suffix_refl _)).resolve_right hdir
        rcases List.eq_nil_or_concat p.steps with hnil | ⟨before, last, hsteps⟩
        · refine absurd h.base ?_
          rw [Tree.placeOf_eq_steps, hnil] at hdir
          exact hdir
        · rw [List.concat_eq_append] at hsteps
          obtain ⟨-, -, -, hplace, -⟩ := h.placeOf_eq hsteps
          by_cases hparent : t.lookup ((t.base p).follow before) = some .directory
          · obtain ⟨t', hmake⟩ := h.makeDirectory_ok hw hne hsteps hparent hnone
            obtain ⟨-, hlookup, hcwd, hw'⟩ := hw.makeDirectory_ok hmake
            refine ⟨t', by simp [hmake], ?_, hw', hcwd⟩
            rw [hlookup, hplace, ← Tree.update_withDirectories (hplace ▸ hnone),
              hw.withDirectories_of_ne (by simp [hparent])]
          · have hmissing := (h.clear ((t.base p).follow before) (by
              rw [hplace]
              exact List.suffix_cons _ _)).resolve_right hparent
            -- The parent has a shorter text, so that the bound is enough for it.
            obtain ⟨parent, hq, -⟩ := Path.parent?_eq_some hsteps
            obtain ⟨hopen, hpplace, hlength⟩ := h.of_parent? hsteps hq
            obtain ⟨t₁, hrun, hlookup₁, hw₁, hcwd₁⟩ := ih parent t hw hopen (by omega)
            rw [hpplace] at hlookup₁
            obtain ⟨hopen₁, hparent₁, hnone₁⟩ := h.of_withDirectories hcwd₁ hlookup₁ hsteps hmissing
              hnone
            obtain ⟨t', hmake⟩ := hopen₁.makeDirectory_ok hw₁ hne hsteps hparent₁ hnone₁
            obtain ⟨-, hlookup, hcwd, hw'⟩ := hw₁.makeDirectory_ok hmake
            refine ⟨t', ?_, ?_, hw', hcwd.trans hcwd₁⟩
            · simp [h.makeDirectory_notFound hne hsteps hmissing, hq, hrun, hmake, settle_run]
            · rw [hlookup, Tree.placeOf_congr hcwd₁, hlookup₁, hplace,
                Tree.update_withDirectories (hplace ▸ hnone)]

end Program

/-! ### Open paths to files -/

namespace Tree

variable {t t' : Tree} {p : Path} {q : Place}

/-- **The path of a file that can be written** once the missing directories above it have been
made. -/
structure IsOpen (t : Tree) (p : Path) : Prop where
  /-- The path can be walked. -/
  walkable : p.IsWalkable
  /-- The path ends in a name. -/
  proper : Path.isProperName p.lastName
  /-- The path steps nowhere upwards. -/
  plain : ∀ s ∈ p.steps, Path.IsPlainStep s
  /-- The path starts from a directory. -/
  base : t.lookup (t.base p) = some .directory
  /-- Nothing but directories is above the place. -/
  clear : ∀ q, q <:+ (t.placeOf p).tail → t.lookup q = none ∨ t.lookup q = some .directory

theorem IsOpen.congr (h : t.IsOpen p) (hcwd : t'.workingDirectory = t.workingDirectory)
    (hdir : ∀ q, t.lookup q = some .directory → t'.lookup q = some .directory)
    (hclear : ∀ q, q <:+ (t.placeOf p).tail → t.lookup q = none →
      t'.lookup q = none ∨ t'.lookup q = some .directory) : t'.IsOpen p := by
  have hb : t'.base p = t.base p := by simp [Tree.base, hcwd]
  refine ⟨h.walkable, h.proper, h.plain, hb ▸ hdir _ h.base, fun q hq => ?_⟩
  rw [placeOf_congr hcwd] at hq
  rcases h.clear q hq with hnone | hd
  · exact hclear q hq hnone
  · exact Or.inr (hdir q hd)

/-- The steps of an open path. -/
theorem IsOpen.steps_eq (h : t.IsOpen p) : ∃ before, p.steps = before ++ [p.lastName] ∧
    t.placeOf p = p.lastName :: (t.base p).follow before ∧
    (t.base p).follow p.directoryNames = (t.base p).follow before := by
  have hv : Path.isVoidName p.lastName = false := by
    have hp := h.proper
    simp only [Path.isProperName, Bool.and_eq_true, Bool.not_eq_true'] at hp
    exact hp.1
  refine ⟨p.directoryNames.filter (!Path.isVoidName ·), ?_, ?_, ?_⟩
  · rw [Path.steps, p.names_eq, List.filter_append]
    simp [hv]
  · rw [Place.follow_filter, placeOf, p.names_eq, Place.follow_append]
    exact Path.enter_of_isProperName h.proper _
  · rw [Place.follow_filter]

theorem IsOpen.lastName_le (h : t.IsOpen p) : p.lastName.utf8ByteSize ≤ nameLimit := by
  obtain ⟨before, hsteps, -, -⟩ := h.steps_eq
  exact (h.plain p.lastName (by simp [hsteps])).2

theorem IsOpen.tail_eq (h : t.IsOpen p) :
    (t.placeOf p).tail = (t.base p).follow p.directoryNames := by
  obtain ⟨before, -, hplace, hfollow⟩ := h.steps_eq
  rw [hplace, hfollow]
  rfl

/-- An open path reaches its place as soon as the directory is there. -/
theorem IsOpen.reaches (h : t.IsOpen p) (hw : t.WellFormed)
    (hdir : t.lookup (t.placeOf p).tail = some .directory) : t.Reaches p := by
  rw [h.tail_eq] at hdir
  have hplain : ∀ s ∈ p.directoryNames, Path.IsPlainStep s :=
    fun _ hs => Path.isPlainStep_of_mem_names h.plain (List.dropLast_subset _ hs)
  exact ⟨_, ⟨h.walkable, h.proper, hw.walk_eq (fun hup => (hplain _ hup).1 rfl)
    (fun s hs => (hplain s hs).2) hdir, hdir⟩, h.lastName_le⟩

/-- What is at an open path can be reached. -/
theorem IsOpen.reaches_of_ne (h : t.IsOpen p) (hw : t.WellFormed)
    (hthere : t.lookup (t.placeOf p) ≠ none) : t.Reaches p :=
  h.reaches hw (hw.tail hthere)

/-- The directory of an open path is open. -/
theorem IsOpen.parent (h : t.IsOpen p) : ∃ parent, p.parent? = some parent ∧
    t.IsOpenDirectory parent ∧ t.placeOf parent = (t.placeOf p).tail := by
  obtain ⟨before, hsteps, hplace, -⟩ := h.steps_eq
  obtain ⟨parent, hparent, hpsteps, habs, hprefix, -⟩ := Path.parent?_eq_some hsteps
  have hbase : t.base parent = t.base p := by simp [Tree.base, habs]
  have hpplace : t.placeOf parent = (t.placeOf p).tail := by
    rw [placeOf_eq_steps, hpsteps, hbase, hplace]
    rfl
  refine ⟨parent, hparent, ⟨?_, fun s hs => h.plain s ?_,
    fun _ _ hlast => Path.lastName_of_parent? hparent hlast, by rw [hbase, h.base],
    fun q hq => h.clear q (hpplace ▸ hq)⟩, hpplace⟩
  · by_cases hne : parent.text = ""
    · exact Or.inl hne
    · exact Or.inr (h.walkable.of_isPrefix hprefix hne)
  · rw [hpsteps] at hs
    simp [hsteps, hs]

end Tree

/-- **A file can be written to an open path.** The missing directories above it have been added
then. -/
theorem Program.writeWithParents_eq {t : Tree} {p : Path} (hw : t.WellFormed) (h : t.IsOpen p)
    (hdir : t.lookup (t.placeOf p) ≠ some .directory) (bytes : ByteArray) :
    ∃ t', (writeWithParents p bytes).run t = (.ok (), t') ∧ t'.WellFormed ∧
      t'.workingDirectory = t.workingDirectory ∧
      t'.lookup = Function.update (t.withDirectories (t.placeOf p).tail) (t.placeOf p)
        (Tree.writtenTo (t.lookup (t.placeOf p)) bytes) := by
  obtain ⟨parent, hparent, hopen, hplace⟩ := h.parent
  obtain ⟨t₁, hrun, hlookup, hw₁, hcwd⟩ :=
    makeDirectories_eq (parent.text.length + 1) parent t hw hopen (Nat.lt_succ_self _)
  rw [hplace] at hlookup
  have hplace₁ := Tree.placeOf_congr hcwd p
  have hne : t.placeOf p ≠ [] := by
    rintro hnil
    rw [hnil] at hdir
    exact hdir rfl
  -- The directories that were made are above the place and not at it.
  have hsame : t₁.lookup (t.placeOf p) = t.lookup (t.placeOf p) := by
    rw [hlookup]
    refine if_neg ?_
    rintro ⟨hsuffix, -⟩
    have hlength := hsuffix.length_le
    rw [List.length_tail] at hlength
    have := List.length_pos_iff.mpr hne
    omega
  have hopen₁ : t₁.IsOpen p := by
    refine h.congr hcwd (fun q hq => ?_) (fun q hq hnone => ?_)
    · rw [hlookup, Tree.withDirectories, if_neg (by simp [hq]), hq]
    · rw [hlookup, Tree.withDirectories, if_pos ⟨hq, hnone⟩]
      exact Or.inr rfl
  have hreach : t₁.Reaches p := by
    refine hopen₁.reaches hw₁ ?_
    rw [hplace₁, hlookup, Tree.withDirectories]
    split
    · rfl
    · rename_i hnot
      rcases h.clear _ (List.suffix_refl _) with hnone | hd
      · exact absurd ⟨List.suffix_refl _, hnone⟩ hnot
      · exact hd
  obtain ⟨t', hwrite⟩ := hreach.write_eq hw₁ (by rw [hplace₁, hsame]; exact hdir) bytes
  obtain ⟨-, -, hbecomes⟩ := hw₁.write_ok hwrite
  refine ⟨t', ?_, hbecomes.wellFormed, hbecomes.same.workingDirectory.trans hcwd, ?_⟩
  · simp [writeWithParents, hparent, hrun, hwrite]
  · rw [hbecomes.lookup, hplace₁, hsame, hlookup]

end Packetry.Disk
