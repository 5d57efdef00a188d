import Packetry.Proofs.Commit
import Packetry.Proofs.Hosted
import Mathlib.Data.List.Nodup

/-!
# Writes that succeed

In a tree that hosts some files, making, replacing and publishing them succeeds, and it is known
what has become of them: a file is replaced unless its digest is that of the new content already.
Whatever else is done, each of these programs works on the paths of its own files only.
-/

namespace Packetry

open Disk

variable {t t' : Tree} {p p' : Path} {ps qs : List Path} {bytes : ByteArray}

/-! ### Different paths -/

theorem Path.withEnding_injective {ending : String} (h : p.withEnding ending = p'.withEnding ending) :
    p = p' := by
  obtain ⟨text⟩ := p
  obtain ⟨text'⟩ := p'
  have htext : text ++ ending = text' ++ ending := congrArg Path.text h
  rw [(String.append_left_inj _).mp htext]

/-- A path is not one that it is the beginning of. -/
theorem Path.ne_withEnding {ending : String} (h : 0 < ending.length) : p ≠ p.withEnding ending := by
  intro heq
  have hlength := congrArg (fun p => p.text.length) heq
  change p.text.length = (p.text ++ ending).length at hlength
  rw [String.length_append] at hlength
  omega

/-- A path beside a file is beside no other one. -/
theorem eq_of_side (h : (sidesOf ps).Nodup) (hp : p ∈ ps) (hp' : p' ∈ ps) {side : Path}
    (hside : side ∈ sidesOf [p]) (hside' : side ∈ sidesOf [p']) : p = p' := by
  by_contra hne
  have hsymm : Std.Symm (Function.onFun List.Disjoint fun p =>
      [p, stagingPath p, backupPath p]) := ⟨fun _ _ h _ hq hq' => h hq' hq⟩
  have hdisjoint := (List.nodup_flatMap.mp h).2.forall hp hp' hne
  rw [sidesOf, List.flatMap_singleton] at hside hside'
  exact hdisjoint hside hside'

theorem sublist_sidesOf (ps : List Path) : ps.Sublist (sidesOf ps) := by
  induction ps with
  | nil => exact List.nil_sublist _
  | cons p ps ih =>
    exact (ih.trans (List.sublist_append_right [stagingPath p, backupPath p] _)).cons_cons p

namespace Disk.Tree

theorem sidesOf_subset (h : qs ⊆ ps) : sidesOf qs ⊆ sidesOf ps := by
  intro p hp
  obtain ⟨q, hq, hp⟩ := List.mem_flatMap.mp hp
  exact List.mem_flatMap.mpr ⟨q, h hq, hp⟩

/-- If all places are different, a place belongs to one file only. -/
theorem eq_of_placeOf (h : ((sidesOf ps).map t.placeOf).Nodup) (hp : p ∈ ps) (hp' : p' ∈ ps)
    {side side' : Path} (hside : side ∈ sidesOf [p]) (hside' : side' ∈ sidesOf [p'])
    (heq : t.placeOf side = t.placeOf side') : p = p' ∧ side = side' := by
  have hsides : ∀ p ∈ ps, sidesOf [p] ⊆ sidesOf ps := fun p hp =>
    sidesOf_subset (List.cons_subset.mpr ⟨hp, List.nil_subset _⟩)
  obtain rfl := List.inj_on_of_nodup_map h (hsides p hp hside) (hsides p' hp' hside') heq
  exact ⟨eq_of_side h.of_map hp hp' hside hside', rfl⟩

/-- If all places are different, no file is a copy or a backup. -/
theorem ne_sides_of_nodup (h : ((sidesOf ps).map t.placeOf).Nodup) (hp : p ∈ ps) (hp' : p' ∈ ps) :
    t.placeOf p ≠ t.placeOf (stagingPath p') ∧ t.placeOf p ≠ t.placeOf (backupPath p') := by
  constructor
  · intro heq
    obtain ⟨rfl, hpath⟩ := eq_of_placeOf h hp hp' (by simp [sidesOf]) (by simp [sidesOf]) heq
    exact Path.ne_withEnding (by decide) hpath
  · intro heq
    obtain ⟨rfl, hpath⟩ := eq_of_placeOf h hp hp' (by simp [sidesOf]) (by simp [sidesOf]) heq
    exact Path.ne_withEnding (by decide) hpath

/-- The places of a host are different. -/
theorem Hosts.nodup_places (h : t.Hosts ps) : ((sidesOf ps).map t.placeOf).Nodup := by
  refine List.pairwise_map.mpr (h.apart.imp ?_)
  intro p p' hapart heq
  exact hapart.1 (heq ▸ List.suffix_refl _)

theorem Hosts.nodup (h : t.Hosts ps) : ps.Nodup :=
  h.nodup_places.of_map.sublist (sublist_sidesOf ps)

/-- A file, its copy and its backup belong to no other file. -/
theorem Hosts.mem_of_side (h : t.Hosts ps) (hp : p ∈ ps) (hsub : qs ⊆ ps) {side : Path}
    (hside : side ∈ sidesOf [p]) (hmem : side ∈ sidesOf qs) : p ∈ qs := by
  obtain ⟨q, hq, hside'⟩ := List.mem_flatMap.mp hmem
  obtain rfl := eq_of_side h.nodup_places.of_map hp (hsub hq) hside
    (by rwa [sidesOf, List.flatMap_singleton])
  exact hq

/-- No file is a copy or a backup. -/
theorem Hosts.ne_sides (h : t.Hosts ps) (hp : p ∈ ps) (hp' : p' ∈ ps) :
    t.placeOf p ≠ t.placeOf (stagingPath p') ∧ t.placeOf p ≠ t.placeOf (backupPath p') :=
  ne_sides_of_nodup h.nodup_places hp hp'

/-- What is at a file, its copy and its backup is left alone by work on other files. -/
theorem Works.lookup_eq_of_notMem (h : Works (sidesOf qs) t t') (hosts : t.Hosts ps)
    (hsub : qs ⊆ ps) (hp : p ∈ ps) (hnot : p ∉ qs) {side : Path} (hside : side ∈ sidesOf [p]) :
    t'.lookup (t.placeOf side) = t.lookup (t.placeOf side) :=
  h.lookup_eq hosts (sidesOf_subset hsub)
    (sidesOf_subset (List.cons_subset.mpr ⟨hp, List.nil_subset _⟩) hside)
    fun hmem => hnot (hosts.mem_of_side hp hsub hside hmem)

/-- Work on one file leaves every other file alone. -/
theorem Works.lookup_eq_of_ne (h : Works (sidesOf [p]) t t') (hosts : t.Hosts ps) (hp : p ∈ ps)
    (hp' : p' ∈ ps) (hne : p' ≠ p) {side : Path} (hside : side ∈ sidesOf [p']) :
    t'.lookup (t.placeOf side) = t.lookup (t.placeOf side) :=
  h.lookup_eq_of_notMem hosts (List.cons_subset.mpr ⟨hp, List.nil_subset _⟩) hp'
    (fun hmem => hne (List.mem_singleton.mp hmem)) hside

/-- A tree has room still when one file was worked on. -/
theorem Hosts.of_works_one (hosts : t.Hosts ps) (h : Works (sidesOf [p]) t t') (hp : p ∈ ps) :
    t'.Hosts ps :=
  hosts.of_works h (sidesOf_subset (List.cons_subset.mpr ⟨hp, List.nil_subset _⟩))

/-- Working on one file and then on others. -/
theorem Works.cons {t₁ : Tree} (h : Works (sidesOf [p]) t t₁) (h' : Works (sidesOf qs) t₁ t')
    (hosts : t.Hosts ps) (hp : p ∈ ps) (hsub : qs ⊆ ps) : Works (sidesOf (p :: qs)) t t' :=
  (h.mono (sidesOf_subset (by simp))).trans hosts
    (sidesOf_subset (List.cons_subset.mpr ⟨hp, hsub⟩))
    (h'.mono (sidesOf_subset (List.subset_cons_self _ _)))

/-- The others leave the first file alone. -/
theorem Works.lookup_first {t₁ : Tree} (h : Works (sidesOf [p]) t t₁)
    (h' : Works (sidesOf qs) t₁ t') (hosts : t.Hosts ps) (hp : p ∈ ps) (hsub : qs ⊆ ps)
    (hnot : p ∉ qs) : t'.lookup (t.placeOf p) = t₁.lookup (t.placeOf p) := by
  have hlast := h'.lookup_eq_of_notMem (hosts.of_works_one h hp) hsub hp hnot
    (mem_sidesOf (List.mem_singleton_self p)).1
  rwa [h.placeOf_eq] at hlast

/-! ### Making what is missing -/

/-- What has become of a file that may have been missing: it is what it was, or it was missing
and is its scaffold. -/
def Completed (t t' : Tree) (file : Path × Except ScaffoldFault String) : Prop :=
  (t.lookup (t.placeOf file.1) ≠ none ∧
      t'.lookup (t.placeOf file.1) = t.lookup (t.placeOf file.1)) ∨
    t.lookup (t.placeOf file.1) = none ∧ ∃ text, file.2 = .ok text ∧
      t'.lookup (t.placeOf file.1) = some (.file text.toUTF8)

/-- One file that may be missing. -/
theorem Hosts.makeMissing_cons {file : Path × Except ScaffoldFault String}
    (files : List (Path × Except ScaffoldFault String)) (h : t.Hosts ps) (hp : file.1 ∈ ps)
    (hscaffold : t.lookup (t.placeOf file.1) = none → ∃ text, file.2 = .ok text) :
    ∃ (made : List Path) (t₁ : Tree), Works (sidesOf [file.1]) t t₁ ∧ t.Completed t₁ file ∧
      ∀ (rest : List Path) (t' : Tree), (makeMissing files).run t₁ = (.ok rest, t') →
        (makeMissing (file :: files)).run t = (.ok (made ++ rest), t') := by
  obtain ⟨p, scaffold⟩ := file
  have hexists := (h.isOpen p (mem_sidesOf hp).1).exists?_iff h.wellFormed
  by_cases hthere : t.lookup (t.placeOf p) = none
  · obtain ⟨text, rfl⟩ := hscaffold hthere
    obtain ⟨t₁, hrun, hworks, hnow⟩ := h.replaceFile_run hp text.toUTF8
    have hmissing : t.exists? p = false := by
      rw [← Bool.not_eq_true, hexists]
      simpa using hthere
    refine ⟨[p], t₁, hworks.mono (by simp [sidesOf]), Or.inr ⟨hthere, text, rfl, hnow⟩, ?_⟩
    intro rest t' hrest
    rw [makeMissing_of_missing hmissing, hrun]
    dsimp only
    rw [hrest]
    rfl
  · refine ⟨[], t, h.wellFormed.works_self _, Or.inl ⟨hthere, rfl⟩, fun rest t' hrest => ?_⟩
    rw [makeMissing_of_exists? (hexists.mpr hthere), hrest, List.nil_append]

/-- **What is missing is made**, if there is a scaffold for it. -/
theorem Hosts.makeMissing_run (files : List (Path × Except ScaffoldFault String))
    (h : t.Hosts ps) (hmem : ∀ file ∈ files, file.1 ∈ ps) (hnodup : (files.map (·.1)).Nodup)
    (hscaffold : ∀ file ∈ files, t.lookup (t.placeOf file.1) = none →
      ∃ text, file.2 = .ok text) :
    ∃ (made : List Path) (t' : Tree), (makeMissing files).run t = (.ok made, t') ∧
      Works (sidesOf (files.map (·.1))) t t' ∧ ∀ file ∈ files, t.Completed t' file := by
  induction files generalizing t with
  | nil => exact ⟨[], t, rfl, h.wellFormed.works_self _, by simp⟩
  | cons file files ih =>
    obtain ⟨hp, hrest⟩ := List.forall_mem_cons.mp hmem
    obtain ⟨hnot, hdistinct⟩ := List.nodup_cons.mp hnodup
    have hsub : files.map (·.1) ⊆ ps := by
      intro q hq
      obtain ⟨file, hfile, rfl⟩ := List.mem_map.mp hq
      exact hrest file hfile
    obtain ⟨made, t₁, hworks, hcompleted, hrun⟩ :=
      h.makeMissing_cons files hp (hscaffold _ List.mem_cons_self)
    have hplace := hworks.placeOf_eq
    -- The other files are as missing as they were, and they leave the first one alone.
    have hkeep : ∀ other ∈ files,
        t₁.lookup (t.placeOf other.1) = t.lookup (t.placeOf other.1) := by
      intro other hother
      refine hworks.lookup_eq_of_ne h hp (hrest other hother) (fun heq => ?_)
        (mem_sidesOf (List.mem_singleton_self _)).1
      exact hnot (List.mem_map.mpr ⟨other, hother, heq⟩)
    obtain ⟨rest, t', hrun', hworks', hothers⟩ :=
      ih (h.of_works_one hworks hp) hrest hdistinct fun other hother => by
        rw [hplace, hkeep other hother]
        exact hscaffold other (List.mem_cons_of_mem _ hother)
    have hlast := hworks.lookup_first hworks' h hp hsub hnot
    refine ⟨made ++ rest, t', hrun rest t' hrun', hworks.cons hworks' h hp hsub,
      List.forall_mem_cons.mpr ⟨by rwa [Completed, hlast], fun other hother => ?_⟩⟩
    have hone := hothers other hother
    rwa [Completed, hplace, hkeep other hother] at hone

end Disk.Tree

namespace Transaction

variable {x : Transaction} {files : List (Path × ByteArray)} {s : Staged} {L : List Staged}

/-! ### Staging -/

/-- The copies for some files. -/
def copiesOf (files : List (Path × ByteArray)) : List Path :=
  files.map fun file => stagingPath file.1

theorem copiesOf_subset (hmem : ∀ file ∈ files, file.1 ∈ ps) : copiesOf files ⊆ sidesOf ps := by
  intro p hp
  obtain ⟨file, hfile, rfl⟩ := List.mem_map.mp hp
  exact (mem_sidesOf (hmem file hfile)).2.1

/-- **Files of a host can be staged.** -/
theorem stageEach_run (files : List (Path × ByteArray)) (x : Transaction) (h : t.Hosts ps)
    (hdry : x.isDry = false) (hmem : ∀ file ∈ files, file.1 ∈ ps)
    (hnodup : (files.map (·.1)).Nodup) :
    ∃ t', (stageEach x files).run t =
        (.ok { x with staged := x.staged ++ files.map stagedOf }, t') ∧
      Tree.Works (copiesOf files) t t' ∧
      ∀ file ∈ files, t'.lookup (t.placeOf (stagingPath file.1)) = some (.file file.2) := by
  induction files generalizing t x with
  | nil =>
    refine ⟨t, ?_, h.wellFormed.works_self _, by simp⟩
    rw [List.map_nil, List.append_nil]
    rfl
  | cons file files ih =>
    have hp : file.1 ∈ ps := hmem _ List.mem_cons_self
    have hcopy := (mem_sidesOf hp).2.1
    obtain ⟨hnot, hdistinct⟩ := List.nodup_cons.mp hnodup
    have hrest : ∀ file ∈ files, file.1 ∈ ps := fun file hfile =>
      hmem file (List.mem_cons_of_mem _ hfile)
    obtain ⟨t₁, hwrite, hworks, hfile⟩ := h.writeWithParents_run hcopy file.2
    have hone : [stagingPath file.1] ⊆ sidesOf ps :=
      List.cons_subset.mpr ⟨hcopy, List.nil_subset _⟩
    have hosts := h.of_works hworks hone
    have hplace := hworks.placeOf_eq
    have hstage : (x.stage file.1 file.2).run t =
        ((.ok (), { x with staged := x.staged ++ [stagedOf file] }), t₁) := by
      unfold stage
      simp only [hdry, Bool.false_eq_true, if_false, Program.run_bind, hwrite, Program.run_pure]
      rfl
    obtain ⟨t', hrun, hworks', hstaged⟩ :=
      ih { x with staged := x.staged ++ [stagedOf file] } hosts hdry hrest hdistinct
    have hall : copiesOf (file :: files) ⊆ sidesOf ps := copiesOf_subset hmem
    refine ⟨t', ?_, ?_, fun other hother => ?_⟩
    · unfold stageEach
      rw [Program.run_bind, hstage]
      simp only [hrun, List.append_assoc, List.map_cons, List.singleton_append]
    · exact (hworks.mono (by simp [copiesOf])).trans h hall
        (hworks'.mono (List.subset_cons_self _ _))
    · rcases List.mem_cons.mp hother with rfl | hother
      · -- No other file is staged at the same copy.
        have hlast := hworks'.lookup_eq hosts (copiesOf_subset hrest) hcopy fun hcopies => by
          obtain ⟨other, hother, heq⟩ := List.mem_map.mp hcopies
          exact hnot (List.mem_map.mpr ⟨other, hother, Path.withEnding_injective heq⟩)
        rw [hplace] at hlast
        rw [hlast, hfile]
      · rw [← hplace]
        exact hstaged other hother

/-! ### Committing -/

/-- The places of a copy of a host are apart. -/
theorem apart_of_hosts (h : t.Hosts ps) (hs : s.target ∈ ps) : Apart t s := by
  obtain ⟨hself, hcopy, -⟩ := mem_sidesOf hs
  exact ⟨t.placeOf_ne_stagingPath (h.isOpen _ hself).proper, (h.ne_sides hs hs).2,
    t.placeOf_stagingPath_ne_backupPath _ _, (h.free _ hcopy).ne_directory⟩

/-- **A copy of a host can be committed.** -/
theorem commitOne_ok (h : t.Hosts ps) (hs : s.target ∈ ps)
    (hcopy : t.lookup (t.placeOf s.copy) ≠ none) :
    ∃ (r : Option Replaced) (t' : Tree), (commitOne s).run t = (.ok r, t') := by
  obtain ⟨hself, hside, hbackup⟩ := mem_sidesOf hs
  have hw := h.wellFormed
  have hapart := apart_of_hosts h hs
  have hopen := h.isOpen _ hself
  have hcopied : t.Reaches s.copy := (h.isOpen _ hside).reaches_of_ne hw hcopy
  -- The directory of the copy is that of the target and of the backup as well.
  have hdir : t.lookup (t.placeOf s.target).tail = some .directory := by
    rw [← (Tree.placeOf_tail_eq hopen).1]
    exact hw.tail hcopy
  have htarget := hopen.reaches hw hdir
  have hbak : t.Reaches (backupPath s.target) := by
    refine (h.isOpen _ hbackup).reaches hw ?_
    rw [(Tree.placeOf_tail_eq hopen).2, hdir]
  have hfree := h.free _ hself
  unfold commitOne
  rw [Program.run_bind, h.digestOf_run hself]
  dsimp only
  split
  · obtain ⟨t', hremove⟩ := hcopied.remove_eq hw hcopy hapart.file
    exact ⟨none, t', by simp [hremove]⟩
  · by_cases hthere : t.lookup (t.placeOf s.target) = none
    · obtain ⟨t', hrename⟩ :=
        hcopied.rename_eq htarget hw hcopy hapart.file hfree.ne_directory
      have hmissing : t.exists? s.target = false := by
        rw [← Bool.not_eq_true, hopen.exists?_iff hw]
        simpa using hthere
      exact ⟨some ⟨s.target, false⟩, t', by simp [backUp, hmissing, swap, hrename]⟩
    · obtain ⟨t₁, hrename⟩ := htarget.rename_eq hbak hw hthere hfree.ne_directory
        (h.free _ hbackup).ne_directory
      obtain ⟨-, -, -, -, hbecomes⟩ := hw.rename_ok hrename hfree.ne_directory
      have hplace := hbecomes.same.placeOf_eq
      have hnow := lookup_of_backUp hw hfree.ne_directory hrename
      have hcopy₁ : t₁.lookup (t₁.placeOf s.copy) = t.lookup (t.placeOf s.copy) := by
        rw [hplace, hnow, if_neg hapart.side, if_neg (Ne.symm hapart.copy)]
      have hgone : t₁.lookup (t₁.placeOf s.target) = none := by
        rw [hplace, hnow, if_neg hapart.backup, if_pos rfl]
      obtain ⟨t', hrename'⟩ := (hbecomes.same.reaches hcopied).rename_eq
        (hbecomes.same.reaches htarget) hbecomes.wellFormed (hcopy₁ ▸ hcopy)
        (hcopy₁ ▸ hapart.file) (by simp [hgone])
      exact ⟨some ⟨s.target, true⟩, t', by
        simp [backUp, (hopen.exists?_iff hw).mpr hthere, hrename, swap, hrename']⟩

/-- Committing a copy of a host changes what is at its places only. -/
theorem commitOne_works (h : t.Hosts ps) (hs : s.target ∈ ps)
    (hcopy : t.lookup (t.placeOf s.copy) ≠ none) :
    ∃ (r : Option Replaced) (t' : Tree), (commitOne s).run t = (.ok r, t') ∧
      Tree.Works (sidesOf [s.target]) t t' := by
  obtain ⟨r, t', hrun⟩ := commitOne_ok h hs hcopy
  obtain ⟨hself, hside, -⟩ := mem_sidesOf hs
  have hapart := apart_of_hosts h hs
  have hone := commitOne_run h.wellFormed hapart
  rw [hrun] at hone
  refine ⟨r, t', hrun, ?_⟩
  cases hone with
  | current _ _ hbecomes =>
    refine ⟨hbecomes.same.workingDirectory, hbecomes.wellFormed, fun q => ?_⟩
    rw [hbecomes.lookup, Function.update_apply]
    split
    · exact Or.inr (Or.inr ⟨⟨s.copy, by simp [sidesOf, Staged.copy], ‹_›⟩, isFree_none⟩)
    · exact Or.inl rfl
  | swapped _ _ _ _ _ hbecomes =>
    refine ⟨hbecomes.same.workingDirectory, hbecomes.wellFormed, fun q => ?_⟩
    rw [hbecomes.lookup, swapped_apply hapart]
    split
    · exact Or.inr (Or.inr ⟨⟨s.target, by simp [sidesOf], ‹_›⟩, h.free _ hside⟩)
    · split
      · exact Or.inr (Or.inr ⟨⟨s.copy, by simp [sidesOf, Staged.copy], ‹_›⟩, isFree_none⟩)
      · split
        · rename_i hq
          exact Or.inr (Or.inr ⟨⟨backupPath s.target, by simp [sidesOf], hq.1⟩, h.free _ hself⟩)
        · exact Or.inl rfl

/-- Copies of a host can be committed one after another. -/
theorem commitFrom_ok (rest : List Staged) (replaced : List Replaced) (outcomes : List Outcome)
    (h : t.Hosts ps) (hrest : ∀ s ∈ rest, s.target ∈ ps)
    (hnodup : (rest.map (·.target)).Nodup)
    (hcopies : ∀ s ∈ rest, t.lookup (t.placeOf s.copy) ≠ none) :
    ∃ (all : List Outcome) (t' : Tree),
      (commitFrom replaced outcomes rest).run t = (.ok all, t') := by
  induction rest generalizing t replaced outcomes with
  | nil => exact ⟨outcomes, _, by unfold commitFrom; rw [Program.run_bind]; rfl⟩
  | cons s rest ih =>
    obtain ⟨hnot, hdistinct⟩ := List.nodup_cons.mp hnodup
    have hs : s.target ∈ ps := hrest s List.mem_cons_self
    have hlater : ∀ u ∈ rest, u.target ∈ ps := fun u hu => hrest u (List.mem_cons_of_mem _ hu)
    obtain ⟨r, t₁, hrun, hworks⟩ := commitOne_works h hs (hcopies s List.mem_cons_self)
    have hosts := h.of_works_one hworks hs
    have hcopies₁ : ∀ u ∈ rest, t₁.lookup (t₁.placeOf u.copy) ≠ none := by
      intro u hu
      have hne : u.target ≠ s.target := fun heq => hnot (List.mem_map.mpr ⟨u, hu, heq⟩)
      rw [hworks.placeOf_eq, hworks.lookup_eq_of_ne h hs (hlater u hu) hne
        (by simp [sidesOf, Staged.copy])]
      exact hcopies u (List.mem_cons_of_mem _ hu)
    unfold commitFrom
    rw [Program.run_bind, hrun]
    cases r with
    | none => exact ih _ _ hosts hlater hdistinct hcopies₁
    | some r => exact ih _ _ hosts hlater hdistinct hcopies₁

/-- Copies of a host do not interfere. -/
theorem layout_of_hosts (h : t.Hosts ps) (hL : ∀ s ∈ L, s.target ∈ ps) : Layout t L := by
  have hproper : ∀ s ∈ L, Path.isProperName s.target.lastName := fun s hs =>
    (h.isOpen _ (mem_sidesOf (hL s hs)).1).proper
  refine ⟨fun s hs u hu => ?_, fun s hs u hu => ?_, fun s _ u _ => ?_, fun s hs u hu => ?_,
    fun s hs u hu => ?_, fun s hs => ?_, fun s hs => ?_⟩
  · exact (h.ne_sides (hL s hs) (hL u hu)).1
  · exact (h.ne_sides (hL s hs) (hL u hu)).2
  · exact t.placeOf_stagingPath_ne_backupPath _ _
  · exact (Tree.placeOf_stagingPath_eq_iff (hproper s hs) (hproper u hu)).1
  · exact (Tree.placeOf_stagingPath_eq_iff (hproper s hs) (hproper u hu)).2
  · exact (h.free _ (mem_sidesOf (hL s hs)).2.1).ne_directory
  · exact (h.isOpen _ (mem_sidesOf (hL s hs)).2.1).reaches_of_ne h.wellFormed

/-- **A transaction of a host succeeds** if its copies are there. -/
theorem commit_ok (h : t.Hosts ps) (hdry : x.isDry = false)
    (htargets : ∀ s ∈ x.staged, s.target ∈ ps) (hnodup : (x.staged.map (·.target)).Nodup)
    (hcopies : ∀ s ∈ x.staged, t.lookup (t.placeOf s.copy) ≠ none) :
    ∃ t', x.commit.run t = (.ok (x.staged.map (outcomeOf t)), t') ∧ Committed t x.staged t' := by
  obtain ⟨outcomes, t', hrun⟩ := commitFrom_ok x.staged [] [] h htargets hnodup hcopies
  have hcommit : x.commit.run t = (.ok outcomes, t') := by
    unfold commit
    rw [if_neg (by simp [hdry]), hrun]
  have hfinished := commit_run h.wellFormed hdry (layout_of_hosts h htargets)
  rw [hcommit] at hfinished ⊢
  cases hfinished with
  | committed hcommitted => exact ⟨t', rfl, hcommitted⟩

/-- A commit works on the targets and the places beside them. -/
theorem Committed.works (h : Committed t L t') (hosts : t.Hosts ps)
    (hL : ∀ s ∈ L, s.target ∈ ps) : Tree.Works (sidesOf (L.map (·.target))) t t' := by
  refine ⟨h.same.workingDirectory, h.wellFormed, fun q => ?_⟩
  by_cases htouched : ∃ s ∈ L, IsTouched t s q
  · obtain ⟨s, hs, htouched⟩ := htouched
    have hmem : s.target ∈ L.map (·.target) := List.mem_map.mpr ⟨s, hs, rfl⟩
    obtain ⟨hself, hcopy, hbackup⟩ := mem_sidesOf hmem
    obtain ⟨-, hside, -⟩ := mem_sidesOf (hL s hs)
    rcases htouched with rfl | ⟨hcurrent, rfl | ⟨hthere, rfl⟩⟩
    · refine Or.inr (Or.inr ⟨⟨_, hcopy, rfl⟩, ?_⟩)
      rw [h.copy s hs]
      exact isFree_none
    · refine Or.inr (Or.inr ⟨⟨_, hself, rfl⟩, ?_⟩)
      rw [h.target s hs hcurrent]
      exact hosts.free _ hside
    · refine Or.inr (Or.inr ⟨⟨_, hbackup, rfl⟩, ?_⟩)
      rw [h.backup s hs hcurrent hthere]
      exact isFree_none
  · exact Or.inl (h.other q fun s hs hq => htouched ⟨s, hs, hq⟩)

/-- A current target and its backup are left alone. -/
theorem Committed.kept (h : Committed t L t') (hL : Layout t L) (hs : s ∈ L)
    (hcurrent : s.isCurrent t = true) :
    t'.lookup (t.placeOf s.target) = t.lookup (t.placeOf s.target) ∧
      t'.lookup (t.placeOf (backupPath s.target)) =
        t.lookup (t.placeOf (backupPath s.target)) := by
  have hsymm : Std.Symm fun s u : Staged => t.placeOf s.target ≠ t.placeOf u.target :=
    ⟨fun _ _ hne => Ne.symm hne⟩
  constructor
  · refine h.other _ fun u hu htouched => ?_
    by_cases heq : u = s
    · subst heq
      rcases htouched with hq | ⟨hcurrent', -⟩
      · exact hL.copies u hu u hu hq
      · simp [hcurrent] at hcurrent'
    · exact (hL.not_isTouched hu hs (h.distinct.forall hu hs heq) htouched).1 rfl
  · refine h.other _ fun u hu htouched => ?_
    by_cases heq : u = s
    · subst heq
      rcases htouched with hq | ⟨hcurrent', -⟩
      · exact hL.sides u hu u hu hq.symm
      · simp [hcurrent] at hcurrent'
    · exact (hL.not_isTouched hu hs (h.distinct.forall hu hs heq) htouched).2.2 rfl

end Transaction

end Packetry
