import Packetry.Proofs.Missing

/-!
# What lies above a file

When a file is written, the directories above it that are missing are made first. If its path steps
nowhere upwards, these are the only places, beside those of the file and its copy, at which
anything can change, whether the writing succeeds or fails
(`Packetry.replaceFile_alike`). Nothing at all changes at a place that is neither.

Files that are put into one directory (`Packetry.Disk.Tree.placeOf_join`) therefore never get in
each other's way: none of them lies above another, nor does any of their copies.
-/

namespace Packetry

open Disk

variable {t t' t'' : Tree} {p parent : Path} {S S' : Place → Prop} {q : Place}

namespace Disk.Tree

/-! ### Trees that differ at some places -/

/-- The same is at each place of two trees, outside of some places. -/
def AlikeOutside (S : Place → Prop) (t t' : Tree) : Prop :=
  ∀ q, ¬S q → t'.lookup q = t.lookup q

theorem AlikeOutside.refl (S : Place → Prop) (t : Tree) : AlikeOutside S t t :=
  fun _ _ => rfl

theorem AlikeOutside.trans (h : AlikeOutside S t t') (h' : AlikeOutside S t' t'') :
    AlikeOutside S t t'' :=
  fun q hq => (h' q hq).trans (h q hq)

theorem AlikeOutside.mono (h : AlikeOutside S t t') (hS : ∀ q, S q → S' q) :
    AlikeOutside S' t t' :=
  fun q hq => h q fun hs => hq (hS q hs)

theorem Becomes.alike {f : Place → Option Entry} (h : t.Becomes f t')
    (hf : ∀ q, ¬S q → f q = t.lookup q) : AlikeOutside S t t' :=
  fun q hq => by rw [h.lookup, hf q hq]

end Disk.Tree

/-! ### Parents -/

/-- A path has its parent's steps and one more, unless the parent is empty. -/
theorem Path.steps_of_parent? (h : p.parent? = some parent) :
    parent.text = "" ∨ ∃ last, p.steps = parent.steps ++ [last] ∧
      parent.isAbsolute = p.isAbsolute := by
  rcases List.eq_nil_or_concat p.steps with hnil | ⟨before, last, hsteps⟩
  · -- Only void segments: there is nothing left to drop but the anchor.
    rw [Path.parent?, Path.trimVoids_of_steps hnil] at h
    simp only [List.reverse_nil, Option.ite_none_right_eq_some, Option.some.injEq] at h
    exact Or.inl (congrArg Path.text h.2.symm)
  · rw [List.concat_eq_append] at hsteps
    obtain ⟨q, hq, hqsteps, habs, -⟩ := Path.parent?_eq_some hsteps
    obtain rfl := Option.some.inj (h.symm.trans hq)
    exact Or.inr ⟨last, by rw [hqsteps, hsteps], habs⟩

/-- The parent of a path lies above it. -/
theorem Disk.Tree.placeOf_parent? (t : Tree) (h : p.parent? = some parent)
    (hup : ".." ∉ p.steps) : parent.text = "" ∨
      t.placeOf parent <:+ t.placeOf p ∧ ".." ∉ parent.steps := by
  refine (Path.steps_of_parent? h).imp_right ?_
  rintro ⟨last, hsteps, habs⟩
  rw [hsteps, List.mem_append, not_or] at hup
  refine ⟨?_, hup.1⟩
  rw [t.placeOf_eq_steps, t.placeOf_eq_steps, hsteps, Place.follow_append, base, base, habs]
  exact Place.suffix_follow _ hup.2

namespace Disk.Program

/-! ### Making directories -/

/-- Making one directory changes its place, if anything. -/
theorem makeDirectory_alike (hw : t.WellFormed) (p : Path) :
    Tree.AlikeOutside (· <:+ t.placeOf p) t (t.commit (t.makeDirectory p)).2 := by
  cases h : t.makeDirectory p with
  | error e => exact .refl _ t
  | ok t' =>
    obtain ⟨-, hlookup, -, -⟩ := hw.makeDirectory_ok h
    intro q hq
    rw [Tree.commit_ok, hlookup, Function.update_of_ne]
    rintro rfl
    exact hq (List.suffix_refl _)

/-- The empty path stands for a directory that is there. -/
theorem makeDirectories_of_empty (bound : Nat) (h : p.text = "") (t : Tree) :
    ((makeDirectories bound p).run t).2 = t := by
  cases bound with
  | zero => rfl
  | succ bound =>
    unfold makeDirectories
    rw [if_pos h]
    rfl

/-- **Making directories changes nothing but what is at and above the last one**, whether it
succeeds or fails. -/
theorem makeDirectories_alike (bound : Nat) (p : Path) (hw : t.WellFormed)
    (hup : ".." ∉ p.steps) :
    Tree.AlikeOutside (· <:+ t.placeOf p) t ((makeDirectories bound p).run t).2 := by
  induction bound generalizing p t with
  | zero => exact .refl _ t
  | succ bound ih =>
    have habove : ∀ parent, p.parent? = some parent →
        Tree.AlikeOutside (· <:+ t.placeOf p) t ((makeDirectories bound parent).run t).2 := by
      intro parent hparent
      rcases t.placeOf_parent? hparent hup with hempty | ⟨hsuffix, hup'⟩
      · rw [makeDirectories_of_empty bound hempty]
        exact .refl _ t
      · exact (ih parent hw hup').mono fun q hq => hq.trans hsuffix
    rcases makeDirectories_cases bound p t with heq | heq | ⟨parent, t₁, hparent, rfl, heq | heq⟩
    all_goals rw [heq]
    · exact .refl _ t
    · exact makeDirectory_alike hw p
    · exact habove parent hparent
    · obtain ⟨hgrows, hw'⟩ := makeDirectories_grows bound parent hw
      have hagain := makeDirectory_alike hw' p
      rw [hgrows.placeOf_eq] at hagain
      exact (habove parent hparent).trans hagain

/-- Writing a file changes nothing but what is at and above its place. -/
theorem writeWithParents_alike (p : Path) (bytes : ByteArray) (hw : t.WellFormed)
    (hup : ".." ∉ p.steps) :
    Tree.AlikeOutside (· <:+ t.placeOf p) t ((writeWithParents p bytes).run t).2 := by
  have hwrite : ∀ t' : Tree, t'.WellFormed → t'.placeOf p = t.placeOf p →
      Tree.AlikeOutside (· <:+ t.placeOf p) t' (t'.commit (t'.write p bytes)).2 := by
    intro t' hw' hplace
    cases h : t'.write p bytes with
    | error e => exact .refl _ t'
    | ok t'' =>
      obtain ⟨-, -, hbecomes⟩ := hw'.write_ok h
      refine hbecomes.alike fun q hq => Function.update_of_ne ?_ _ _
      rintro rfl
      exact hq (hplace ▸ List.suffix_refl _)
  unfold writeWithParents
  cases hparent : p.parent? with
  | none => exact hwrite t hw rfl
  | some parent =>
    dsimp only
    rw [run_bind]
    obtain ⟨hgrows, hw'⟩ := makeDirectories_grows (parent.text.length + 1) parent hw
    have habove : Tree.AlikeOutside (· <:+ t.placeOf p) t
        ((makeDirectories (parent.text.length + 1) parent).run t).2 := by
      rcases t.placeOf_parent? hparent hup with hempty | ⟨hsuffix, hup'⟩
      · rw [makeDirectories_of_empty _ hempty]
        exact .refl _ t
      · exact (makeDirectories_alike _ parent hw hup').mono fun q hq => hq.trans hsuffix
    cases ((makeDirectories (parent.text.length + 1) parent).run t).1 with
    | error e => exact habove
    | ok _ => exact habove.trans (hwrite _ hw' (hgrows.placeOf_eq p))

end Disk.Program

/-! ### Replacing files -/

/-- The copy of a file whose path steps nowhere upwards does not step upwards either. -/
theorem plain_stagingPath (hup : ".." ∉ p.names) : ".." ∉ (stagingPath p).steps := by
  obtain ⟨before, last, hnames, hnames'⟩ : ∃ before last, p.names = before ++ [last] ∧
      (p.withEnding ".pktgen.tmp").names = before ++ [last ++ ".pktgen.tmp"] :=
    Path.names_withEnding p (by decide)
  rw [hnames, List.mem_append, not_or] at hup
  intro hmem
  have hmem' : ".." ∈ (stagingPath p).names := (List.mem_filter.mp hmem).1
  rw [stagingPath, hnames', List.mem_append, List.mem_singleton] at hmem'
  rcases hmem' with hmem' | heq
  · exact hup.1 hmem'
  · have hlength := congrArg String.length heq
    rw [String.length_append, show ".pktgen.tmp".length = 11 from rfl,
      show "..".length = 2 from rfl] at hlength
    omega

/-- **Replacing a file changes nothing but its copy, what is above it and the file**, and the file
only if it succeeds. -/
theorem replaceFile_alike (p : Path) (bytes : ByteArray) (hw : t.WellFormed)
    (hup : ".." ∉ p.names) :
    Tree.AlikeOutside (fun q => q <:+ t.placeOf (stagingPath p) ∨
        ((replaceFile p bytes).run t).1.isOk = true ∧ q = t.placeOf p) t
      ((replaceFile p bytes).run t).2 := by
  have hcopy := Program.writeWithParents_alike (stagingPath p) bytes hw (plain_stagingPath hup)
  unfold replaceFile
  rw [Program.run_bind]
  obtain ⟨t₁, hgrows, hw₁, ⟨hrun, -, -, hbecomes⟩ | ⟨⟨e, hrun⟩, -⟩⟩ :=
    Program.writeWithParents_run (stagingPath p) bytes hw
  · rw [hrun]
    generalize ((Program.writeWithParents (stagingPath p) bytes).run t).2 = t₂ at hcopy hbecomes ⊢
    have hplace : ∀ p, t₂.placeOf p = t.placeOf p := fun p =>
      (hbecomes.same.placeOf_eq p).trans (hgrows.placeOf_eq p)
    have hfile : t₂.lookup (t₂.placeOf (stagingPath p)) ≠ some .directory := by
      rw [hplace, hbecomes.lookup, Function.update_self]
      exact Tree.writtenTo_ne_directory
    refine (hcopy.mono fun q => Or.inl).trans ?_
    simp only [Program.run_bind, Program.run_rename]
    cases hrename : t₂.rename (stagingPath p) p with
    | ok t₃ =>
      obtain ⟨-, -, -, -, hmoved⟩ := hbecomes.wellFormed.rename_ok hrename hfile
      refine hmoved.alike fun q hq => ?_
      obtain ⟨hside, hfile⟩ := not_or.mp hq
      rw [Tree.movedTo, hplace, hplace, Function.update_of_ne fun heq => hfile ⟨rfl, heq⟩,
        Function.update_of_ne]
      rintro rfl
      exact hside (List.suffix_refl _)
    | error e =>
      -- Without success the file is not touched, and only the copy may be removed.
      simp only [Tree.commit_error, Program.run_bind, Program.run_remove, Program.run_pure]
      cases hremove : t₂.remove (stagingPath p) with
      | error _ => exact .refl _ t₂
      | ok t₃ =>
        obtain ⟨-, -, -, hremoved⟩ := hbecomes.wellFormed.remove_ok hremove
        refine hremoved.alike fun q hq => Function.update_of_ne ?_ _ _
        rintro rfl
        exact hq (Or.inl (hplace _ ▸ List.suffix_refl _))
  · rw [hrun]
    exact hcopy.mono fun q => Or.inl

/-! ### Files in one directory -/

/-- The name that a path ends in stands for an entry. -/
theorem Path.isProperName_of_fileName? {name : String} (h : p.fileName? = some name) :
    '/' ∉ name.toList ∧ Path.isProperName name := by
  unfold Path.fileName? at h
  rcases Path.trimVoids_eq_nil_or p.parts.segments with hnil | ⟨init, s, hlast, hs⟩
  · rw [hnil] at h
    cases h
  · rw [hlast, List.getLast?_concat] at h
    dsimp only at h
    split at h
    · cases h
    · rename_i hup
      obtain rfl := Option.some.inj h
      obtain ⟨voids, hvoids, -⟩ := Path.trimVoids_append p.parts.segments
      have hmem : s ∈ p.parts.segments := by
        rw [hvoids, hlast]
        simp
      refine ⟨by simpa using p.parts_proper.slash s hmem, ?_⟩
      simp only [Path.isProperName, Path.isVoidName_ofList, hs, Bool.not_false, Bool.true_and,
        bne_iff_ne, ne_eq]
      intro heq
      refine hup (beq_iff_eq.mpr ?_)
      rw [← String.toList_ofList (l := s), heq]
      rfl

/-- The segments of a path that ends in a slash and a name. -/
theorem Path.names_of_slash (p : Path) (front : List Char) (name : String)
    (hslash : '/' ∉ name.toList) (h : p.text.toList = front ++ '/' :: name.toList) :
    p.names = (Path.segmentsOf front).map String.ofList ++ [name] := by
  rw [Path.names, h, Path.segmentsOf, Text.fields_append_cons _ hslash]
  simp [Path.segmentsOf]

/-- The segments of a name in a directory: those before the name lead to the directory. -/
theorem Path.names_join (directory : Path) {name : String} (hslash : '/' ∉ name.toList) :
    ∃ before, (directory.join ⟨name⟩).names = before ++ [name] ∧ ∀ t : Tree,
      (t.base (directory.join ⟨name⟩)).follow before = t.placeOf directory := by
  have hrelative : (Path.mk name).isAbsolute = false := by
    rw [Path.isAbsolute, beq_eq_false_iff_ne]
    exact fun heq => hslash (List.mem_of_mem_head? heq)
  unfold Path.join
  rw [hrelative, Bool.false_or]
  -- The name stands alone, behind a slash that was there or behind a new one.
  by_cases hempty : directory.text = ""
  · obtain rfl : directory = ⟨""⟩ := congrArg Path.mk hempty
    rw [if_pos (by simp)]
    refine ⟨[], by simp [Path.names, Path.segmentsOf, Text.fields_of_not_mem hslash],
      fun t => ?_⟩
    rw [Tree.base, hrelative]
    rfl
  · rw [if_neg (by simpa using hempty)]
    obtain ⟨c, rest, htext⟩ : ∃ c rest, directory.text.toList = c :: rest :=
      List.exists_cons_of_ne_nil fun hnil => hempty (String.toList_eq_nil_iff.mp hnil)
    have habs : ∀ more : String, (Path.mk (directory.text ++ more)).isAbsolute =
        directory.isAbsolute := by
      intro more
      simp [Path.isAbsolute, htext]
    split
    · rename_i hend
      obtain ⟨front, hfront⟩ := List.getLast?_eq_some_iff.mp (beq_iff_eq.mp hend)
      have hself := directory.names_of_slash front "" (by simp) (by simpa using hfront)
      refine ⟨_, Path.names_of_slash ⟨directory.text ++ name⟩ front name hslash (by simp [hfront]),
        fun t => ?_⟩
      rw [Tree.base, habs, Tree.placeOf, hself, Place.follow_append]
      rfl
    · refine ⟨_, Path.names_of_slash ⟨directory.text ++ "/" ++ name⟩ directory.text.toList name
        hslash (by simp), fun t => ?_⟩
      rw [Tree.base, String.append_assoc, habs]
      rfl

/-- A name in a directory is the last name of its path. -/
theorem Path.lastName_join (directory : Path) {name : String} (hslash : '/' ∉ name.toList) :
    (directory.join ⟨name⟩).lastName = name := by
  obtain ⟨before, hnames, -⟩ := Path.names_join directory hslash
  simp [Path.lastName, hnames]

/-- **The place of a name in a directory.** -/
theorem Disk.Tree.placeOf_join (t : Tree) (directory : Path) {name : String}
    (hslash : '/' ∉ name.toList) (hname : Path.isProperName name) :
    t.placeOf (directory.join ⟨name⟩) = name :: t.placeOf directory := by
  obtain ⟨before, hnames, hbefore⟩ := Path.names_join directory hslash
  rw [placeOf, hnames, Place.follow_append, hbefore]
  exact Path.enter_of_isProperName hname _

/-- The place of its copy. -/
theorem Disk.Tree.placeOf_stagingPath_join (t : Tree) (directory : Path) {name : String}
    (hslash : '/' ∉ name.toList) : t.placeOf (stagingPath (directory.join ⟨name⟩)) =
      (name ++ ".pktgen.tmp") :: t.placeOf directory := by
  obtain ⟨before, hnames, hbefore⟩ := Path.names_join directory hslash
  rw [placeOf_stagingPath, Path.lastName_join directory hslash, Path.directoryNames, hnames,
    List.dropLast_concat, hbefore]

end Packetry
