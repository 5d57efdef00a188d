import Packetry.Proofs.Sides
import Packetry.Proofs.Staging

/-!
# Missing files

Files that are missing are made from their scaffolds: each one is written to its copy first,
and the copy is then renamed. A file that is there is not meant to be touched, and that is
almost so. A path that steps upwards, such as `missing/../file`, leads nowhere as long as
`missing` is not there; but the directories above the copy are made before the copy is
renamed, and then the path leads to whatever is at `file`, which is replaced.

`Packetry.Made` records what has become of a tree when some files of a list have been made.
All else is spared, and a file that was replaced is one of those that a path with a step
upwards leads to.

* `Packetry.ensure_run`: what making the missing files of a configuration does.
-/

namespace Packetry

open Disk

/-! ### Replacing one file -/

section Replace

variable {t t' : Tree} {p : Path} {bytes : ByteArray} {S : Place → Prop}

/-- What has become of a tree when a file was replaced: it has grown at first, and then the
file is there, and its copy is not. -/
structure Replaced (t t₁ t' : Tree) (p : Path) (bytes : ByteArray) : Prop where
  /-- Directories were made. -/
  grows : t.Grows t₁
  /-- The tree is well formed. -/
  wellFormed : t₁.WellFormed
  /-- The file can be reached. -/
  reaches : t₁.Reaches p
  /-- The copy is at another place. -/
  ne : t.placeOf p ≠ t.placeOf (stagingPath p)
  /-- The file is no directory. -/
  file : t₁.lookup (t.placeOf p) ≠ some .directory
  /-- The copy is no directory. -/
  copy : t₁.lookup (t.placeOf (stagingPath p)) ≠ some .directory
  /-- The file was written to the copy, and the copy was moved. -/
  becomes : t₁.Becomes (Function.update
    (Function.update t₁.lookup (t.placeOf (stagingPath p)) none) (t.placeOf p)
    (Tree.writtenTo (t₁.lookup (t.placeOf (stagingPath p))) bytes)) t'

/-- All else is spared. -/
theorem Replaced.spares {t₁ : Tree} (h : Replaced t t₁ t' p bytes)
    (hS : S (t.placeOf (stagingPath p))) :
    Tree.Spares (fun q => S q ∨ q = t.placeOf p) t t' := by
  refine (h.grows.spares h.wellFormed).trans (h.becomes.spares fun q hq => ?_)
  rw [Function.update_of_ne fun heq => hq (Or.inr heq), Function.update_of_ne]
  rintro rfl
  exact hq (Or.inl hS)

/-- What is at the file now. -/
theorem Replaced.lookup {t₁ : Tree} (h : Replaced t t₁ t' p bytes) : t'.lookup (t.placeOf p) =
    Tree.writtenTo (t₁.lookup (t.placeOf (stagingPath p))) bytes := by
  rw [h.becomes.lookup, Function.update_self]

/-- What is there, apart from copies, is not lost. -/
theorem Replaced.lookup_ne_none {t₁ : Tree} {q : Place} (h : Replaced t t₁ t' p bytes)
    (hS : S (t.placeOf (stagingPath p))) (hq : ¬S q) (hthere : t.lookup q ≠ none) :
    t'.lookup q ≠ none := by
  by_cases heq : q = t.placeOf p
  · rw [heq, h.lookup]
    exact Tree.writtenTo_ne_none
  · rw [(h.spares hS).lookup_eq (fun h => h.elim hq heq) hthere]
    exact hthere

/-- The file is there now. -/
theorem Replaced.there {t₁ : Tree} (h : Replaced t t₁ t' p bytes) :
    t'.lookup (t.placeOf p) ≠ none := by
  rw [h.lookup]
  exact Tree.writtenTo_ne_none

/-- If no copy is a device, the file has the content that was written. -/
theorem Replaced.lookup_eq {t₁ : Tree} (h : Replaced t t₁ t' p bytes)
    (hdevice : t.lookup (t.placeOf (stagingPath p)) ≠ some .device) :
    t'.lookup (t.placeOf p) = some (.file bytes) := by
  rw [h.lookup, h.grows.lookup_eq_of_ne h.copy, Tree.writtenTo_of_ne_device hdevice]

/-- No copy becomes a device. -/
theorem Replaced.ne_device {t₁ : Tree} {q : Place} (h : Replaced t t₁ t' p bytes)
    (hS : S (t.placeOf (stagingPath p))) (hdevice : ∀ q, S q → t.lookup q ≠ some .device)
    (hq : S q) : t'.lookup q ≠ some .device := by
  by_cases heq : q = t.placeOf p
  · rw [heq, h.lookup_eq (hdevice _ hS)]
    simp
  · rw [h.becomes.lookup, Function.update_of_ne heq, Function.update_apply]
    split
    · simp
    · rcases h.grows.lookup q with hsame | ⟨-, hmade⟩
      · rw [hsame]
        exact hdevice q hq
      · simp [hmade]

/-- **Replacing a file**, or else nothing but the copy has been touched. -/
theorem replaceFile_run (p : Path) (bytes : ByteArray) (hw : t.WellFormed) :
    (((replaceFile p bytes).run t).1 = .ok () ∧
      ∃ t₁, Replaced t t₁ ((replaceFile p bytes).run t).2 p bytes) ∨
    (∃ failure, ((replaceFile p bytes).run t).1 = .error failure) ∧
      Tree.Spares (· = t.placeOf (stagingPath p)) t ((replaceFile p bytes).run t).2 := by
  unfold replaceFile
  rw [Program.run_bind]
  have hspares := Program.writeWithParents_spares (stagingPath p) bytes hw
  obtain ⟨t₁, hgrows, hw₁, ⟨hrun, hreach, hdir, hbecomes⟩ | ⟨⟨e, hrun⟩, -⟩⟩ :=
    Program.writeWithParents_run (stagingPath p) bytes hw
  · rw [hrun]
    generalize ((Program.writeWithParents (stagingPath p) bytes).run t).2 = t₂ at hspares hbecomes ⊢
    simp only [Program.run_bind, Program.run_rename]
    have hw₂ := hbecomes.wellFormed
    have hplace := hspares.placeOf_eq
    have hcopy : t₂.lookup (t.placeOf (stagingPath p)) =
        Tree.writtenTo (t₁.lookup (t.placeOf (stagingPath p))) bytes := by
      rw [hbecomes.lookup, Function.update_self]
    cases hrename : t₂.rename (stagingPath p) p with
    | error e =>
      -- The copy cannot take the place of the file, and is removed.
      refine Or.inr ⟨⟨_, rfl⟩, hspares.trans ?_⟩
      have hremove := removeAll_spares [stagingPath p] hw₂
      refine Tree.Spares.mono (S := fun q => ∃ p' ∈ [stagingPath p], q = t₂.placeOf p') ?_ ?_
      · simpa [removeAll] using hremove
      · rintro q ⟨p', hp', hq⟩
        obtain rfl : p' = stagingPath p := by simpa using hp'
        rw [hq, hplace]
    | ok t₃ =>
      have hfile : t₂.lookup (t₂.placeOf (stagingPath p)) ≠ some .directory := by
        rw [hplace, hcopy]
        exact Tree.writtenTo_ne_directory
      obtain ⟨hreach', htarget, -, hdir', hbecomes'⟩ := hw₂.rename_ok hrename hfile
      have hne : t.placeOf p ≠ t.placeOf (stagingPath p) := by
        rw [← hplace, ← hplace]
        exact t₂.placeOf_ne_stagingPath htarget.choose_spec.1.proper
      refine Or.inl ⟨rfl, t₁, hgrows, hw₁, hbecomes.same.symm.reaches htarget, hne, ?_, hdir,
        (hbecomes.trans hbecomes').congr ?_⟩
      · rw [hplace, hbecomes.lookup, Function.update_of_ne hne] at hdir'
        exact hdir'
      · rw [Tree.movedTo, hplace, hplace, hcopy, hbecomes.lookup, Function.update_idem]
  · rw [hrun]
    exact Or.inr ⟨⟨_, rfl⟩, hspares⟩

/-- A path that leads nowhere, and the file that is replaced by way of it. -/
example :
    let t : Tree := ⟨[(["f"], .file "old".toUTF8)], []⟩
    t.exists? ⟨"missing/../f"⟩ = false ∧
      ((replaceFile ⟨"missing/../f"⟩ "new".toUTF8).run t).2.lookup ["f"] =
        some (.file "new".toUTF8) := by
  decide

end Replace

/-! ### Making what is missing -/

section Missing

variable {t t' : Tree} {p : Path} {S : Place → Prop}

/-- A path that leads to something still does so, if its place is not empty now. -/
theorem exists?_of_spares (hw : t.WellFormed) (h : Tree.Spares S t t')
    (hp : t.exists? p = true) (hthere : t'.lookup (t.placeOf p) ≠ none) :
    t'.exists? p = true := by
  unfold Tree.exists? at hp
  cases hfind : t.find p with
  | error e =>
    rw [hfind] at hp
    cases hp
  | ok q =>
    have hq := (hw.find_ok hfind).1
    by_cases hdir : t.lookup q = some .directory
    · have hfind' : t'.find p = .ok q := by
        unfold Tree.find at hfind ⊢
        obtain ⟨x, hstart, hwalk⟩ := Tree.bind_ok hfind
        obtain ⟨hwalkable, rfl⟩ := Tree.start_ok hstart
        rw [Tree.start_eq t' hwalkable, show t'.base p = t.base p by
          simp [Tree.base, h.workingDirectory]]
        exact Tree.walk_mono h.directory hwalk hdir
      simp [Tree.exists?, hfind', Except.isOk, Except.toBool]
    · obtain ⟨d, hspot, -, hs⟩ := hw.hasSpot_of_find hfind hdir
      have hreach : t.Reaches p := ⟨d, hspot, hs⟩
      rw [(h.reaches hreach).exists?_iff h.wellFormed, h.placeOf_eq]
      exact hthere

/-- What a path leads to is there. -/
theorem lookup_of_exists? (hw : t.WellFormed) (hp : t.exists? p = true) :
    t.lookup (t.placeOf p) ≠ none := by
  unfold Tree.exists? at hp
  cases hfind : t.find p with
  | error e =>
    rw [hfind] at hp
    cases hp
  | ok q =>
    obtain ⟨rfl, hthere⟩ := hw.find_ok hfind
    exact hthere

/-- What is missing now was missing before, unless it is a copy. -/
theorem Replaced.missing_before {t₁ : Tree} {p' : Path} {bytes : ByteArray}
    (h : Replaced t t₁ t' p bytes) (hw : t.WellFormed) (hS : S (t.placeOf (stagingPath p)))
    (hside : ¬S (t.placeOf p')) (hmissing : t'.exists? p' = false) : t.exists? p' = false := by
  by_contra hexists
  have htrue : t.exists? p' = true := by simpa using hexists
  have hstill := exists?_of_spares hw (h.spares hS) htrue
    (h.lookup_ne_none hS hside (lookup_of_exists? hw htrue))
  rw [hmissing] at hstill
  cases hstill

/-- The file that is made last at a place. -/
def lastMade? (t : Tree) (made : List (Path × String)) (q : Place) : Option String :=
  (made.reverse.find? fun m => t.placeOf m.1 = q).map (·.2)

theorem lastMade?_cons (t : Tree) (m : Path × String) (made : List (Path × String)) (q : Place) :
    lastMade? t (m :: made) q = (lastMade? t made q).or
      (if t.placeOf m.1 = q then some m.2 else none) := by
  unfold lastMade?
  rw [List.reverse_cons, List.find?_append]
  cases made.reverse.find? fun m => decide (t.placeOf m.1 = q) with
  | some _ => rfl
  | none =>
    by_cases hq : t.placeOf m.1 = q
    · simp [hq]
    · simp [hq]

/-- The file that is made last is the first one only if no other is made at its place. -/
theorem lastMade?_cons_eq_some {m : Path × String} {made : List (Path × String)} {q : Place}
    {text : String} (h : lastMade? t (m :: made) q = some text) :
    lastMade? t made q = some text ∨
      lastMade? t made q = none ∧ t.placeOf m.1 = q ∧ m.2 = text := by
  rw [lastMade?_cons] at h
  cases hmore : lastMade? t made q with
  | some later =>
    rw [hmore] at h
    exact Or.inl h
  | none =>
    rw [hmore, Option.none_or] at h
    split at h
    · rename_i heq
      exact Or.inr ⟨rfl, heq, Option.some.inj h⟩
    · cases h

theorem lastMade?_eq_none {made : List (Path × String)} {q : Place}
    (h : lastMade? t made q = none) : ∀ m ∈ made, q ≠ t.placeOf m.1 := by
  simp only [lastMade?, Option.map_eq_none_iff, List.find?_eq_none, List.mem_reverse,
    decide_eq_true_eq] at h
  exact fun m hm heq => h m hm heq.symm

/-- **What has become of a tree** when some files of a list have been made. `S` are the places
of the copies. -/
structure Made (S : Place → Prop) (t t' : Tree)
    (files : List (Path × Except ScaffoldFault String)) (made : List (Path × String)) : Prop where
  /-- The files were made from their scaffolds, in order. -/
  order : List.Sublist (made.map fun m => (m.1, Except.ok m.2)) files
  /-- All else has been spared. -/
  spares : Tree.Spares (fun q => S q ∨ ∃ m ∈ made, q = t.placeOf m.1) t t'
  /-- No path to a file that was made led to anything before. -/
  absent : ∀ m ∈ made, ¬S (t.placeOf m.1) → t.exists? m.1 = false
  /-- If something was at its place all the same, then the path steps upwards. -/
  upwards : ∀ m ∈ made, ¬S (t.placeOf m.1) → t.lookup (t.placeOf m.1) ≠ none →
    ".." ∈ m.1.names
  /-- If two files are made at one place, then the path to the second one steps upwards. -/
  apart : made.Pairwise fun m m' => t.placeOf m.1 = t.placeOf m'.1 → ¬S (t.placeOf m.1) →
    ".." ∈ m'.1.names ∧ m.1 ≠ m'.1
  /-- The path leads to the file now. -/
  reaches : ∀ m ∈ made, t'.Reaches m.1
  /-- The file is there. -/
  there : ∀ m ∈ made, ¬S (t.placeOf m.1) → t'.lookup (t.placeOf m.1) ≠ none
  /-- The file is its scaffold, if no copy is a device. -/
  content : (∀ q, S q → t.lookup q ≠ some .device) → ∀ q text, ¬S q →
    lastMade? t made q = some text → t'.lookup q = some (.file text.toUTF8)

theorem Made.nil (hw : t.WellFormed) (files : List (Path × Except ScaffoldFault String)) :
    Made S t t files [] :=
  ⟨List.nil_sublist _, hw.spares_self, by simp, by simp, List.Pairwise.nil, by simp, by simp,
    by simp [lastMade?]⟩

theorem Made.cons_skip {files : List (Path × Except ScaffoldFault String)}
    {made : List (Path × String)} (h : Made S t t' files made)
    (file : Path × Except ScaffoldFault String) : Made S t t' (file :: files) made :=
  { h with order := h.order.cons file }

/-- What was there is there still. -/
theorem Made.exists_still {files : List (Path × Except ScaffoldFault String)}
    {made : List (Path × String)} (h : Made S t t' files made) (hw : t.WellFormed)
    (hp : t.exists? p = true) (hside : ¬S (t.placeOf p)) : t'.exists? p = true := by
  refine exists?_of_spares hw h.spares hp ?_
  by_cases hagain : ∃ m ∈ made, t.placeOf p = t.placeOf m.1
  · obtain ⟨m, hm, heq⟩ := hagain
    rw [heq] at hside ⊢
    exact h.there m hm hside
  · have hthere := lookup_of_exists? hw hp
    rw [h.spares.lookup_eq (fun hq => hq.elim hside hagain) hthere]
    exact hthere

/-- A file that could not be made may have left a copy. -/
theorem Made.of_failure (hspares : Tree.Spares S t t')
    (files : List (Path × Except ScaffoldFault String)) : Made S t t' files [] :=
  ⟨List.nil_sublist _, hspares.mono fun _ hq => Or.inl hq, by simp, by simp, List.Pairwise.nil,
    by simp, by simp, by simp [lastMade?]⟩

section Cons

variable {t₁ t₂ : Tree} {text : String} {files : List (Path × Except ScaffoldFault String)}
  {made : List (Path × String)} {m : Path × String}

/-- Another file that is made at the same place later has a path that steps upwards. -/
theorem Made.upwards_of_eq (h : Made S t₂ t' files made) (hS : S (t.placeOf (stagingPath p)))
    (hone : Replaced t t₁ t₂ p text.toUTF8) (hm : m ∈ made)
    (heq : t.placeOf p = t.placeOf m.1) (hside : ¬S (t.placeOf p)) :
    ".." ∈ m.1.names ∧ p ≠ m.1 := by
  have hspares := hone.spares hS
  have hplace := hspares.placeOf_eq
  have habsent := h.absent m hm
  have hupwards := h.upwards m hm
  rw [hplace, ← heq] at habsent hupwards
  refine ⟨hupwards hside hone.there, ?_⟩
  rintro rfl
  have hexists := ((hone.becomes.same.reaches hone.reaches).exists?_iff hspares.wellFormed).mpr
    (by rw [hplace]; exact hone.there)
  rw [habsent hside] at hexists
  cases hexists

/-- What the others leave of a file that was made before them, unless one of them is made at the
same place. -/
theorem Made.lookup_first (h : Made S t₂ t' files made) (hS : S (t.placeOf (stagingPath p)))
    (hone : Replaced t t₁ t₂ p text.toUTF8) (hside : ¬S (t.placeOf p))
    (hnot : ∀ m ∈ made, t.placeOf p ≠ t.placeOf m.1) :
    t'.lookup (t.placeOf p) = t₂.lookup (t.placeOf p) := by
  have hspares' := h.spares
  simp only [(hone.spares hS).placeOf_eq] at hspares'
  exact hspares'.lookup_eq
    (fun hq => hq.elim hside fun ⟨m, hm, hqm⟩ => hnot m hm hqm) hone.there

/-- One more file is made before the others. -/
theorem Made.cons (hw : t.WellFormed) (hS : S (t.placeOf (stagingPath p)))
    (hp : t.exists? p = false) (hone : Replaced t t₁ t₂ p text.toUTF8)
    (h : Made S t₂ t' files made) : Made S t t' ((p, .ok text) :: files) ((p, text) :: made) := by
  have hspares := hone.spares hS
  have hplace := hspares.placeOf_eq
  have hlast : ∀ q, lastMade? t₂ made q = lastMade? t made q := by
    intro q
    simp only [lastMade?, hplace]
  have hagain := fun m hm => h.upwards_of_eq (m := m) hS hone hm
  have hfirst := h.lookup_first hS hone
  obtain ⟨horder, hspares', habsent, hupwards, hapart, hreaches, hthere, hcontent⟩ := h
  simp only [hplace, hlast] at hspares' habsent hupwards hapart hthere hcontent
  refine ⟨horder.cons_cons _, ?_, ?_, ?_, List.pairwise_cons.mpr ⟨hagain, hapart⟩, ?_, ?_, ?_⟩
  · refine (hspares.mono ?_).trans (hspares'.mono ?_)
    · rintro q (hq | hq)
      · exact Or.inl hq
      · exact Or.inr ⟨(p, text), by simp, hq⟩
    · rintro q (hq | ⟨m, hm, hq⟩)
      · exact Or.inl hq
      · exact Or.inr ⟨m, by simp [hm], hq⟩
  · intro m hm hside
    rcases List.mem_cons.mp hm with rfl | hm
    · exact hp
    · exact hone.missing_before hw hS hside (habsent m hm hside)
  · intro m hm hside hne'
    rcases List.mem_cons.mp hm with rfl | hm
    · -- A plain path that leads to the file now has led to it before.
      by_contra hup
      have hback := hone.reaches.of_plain hup hw hne'
      rw [(hback.exists?_iff hw).mpr hne'] at hp
      cases hp
    · exact hupwards m hm hside (hone.lookup_ne_none hS hside hne')
  · intro m hm
    rcases List.mem_cons.mp hm with rfl | hm
    · exact hspares'.reaches (hone.becomes.same.reaches hone.reaches)
    · exact hreaches m hm
  · intro m hm hside
    rcases List.mem_cons.mp hm with rfl | hm
    · by_cases hshared : ∃ m ∈ made, t.placeOf p = t.placeOf m.1
      · obtain ⟨m, hm, heq⟩ := hshared
        change ¬S (t.placeOf p) at hside
        change t'.lookup (t.placeOf p) ≠ none
        rw [heq] at hside ⊢
        exact hthere m hm hside
      · have hkept := hfirst hside fun m hm heq => hshared ⟨m, hm, heq⟩
        exact ne_of_eq_of_ne hkept hone.there
    · exact hthere m hm hside
  · -- The file that is made last at a place is one of the others, unless this is the only one.
    intro hdevice q last hside hq
    rcases lastMade?_cons_eq_some hq with hmore | ⟨hmore, rfl, rfl⟩
    · exact hcontent (fun q => hone.ne_device hS hdevice) q last hside hmore
    · rw [hfirst hside (lastMade?_eq_none hmore), hone.lookup_eq (hdevice _ hS)]

end Cons

/-! ### One file after another -/

section Step

variable {t₁ t₂ : Tree} {text : String} {scaffold : Except ScaffoldFault String}
  {files : List (Path × Except ScaffoldFault String)} {made : List (Path × String)}

/-- A file that is there is passed over. -/
theorem makeMissing_of_exists? (hp : t.exists? p = true) :
    (makeMissing ((p, scaffold) :: files)).run t = (makeMissing files).run t := by
  rw [makeMissing.eq_def, Program.run_bind, Program.run_exists?, hp]
  rfl

/-- A file without a scaffold cannot be made. -/
theorem makeMissing_of_fault (hp : t.exists? p = false) (fault : ScaffoldFault) :
    (makeMissing ((p, .error fault) :: files)).run t = (.error (.scaffold fault), t) := by
  rw [makeMissing.eq_def, Program.run_bind, Program.run_exists?, hp]
  rfl

/-- A file that is missing is made before the others, which are not made if it cannot be. -/
theorem makeMissing_of_missing (hp : t.exists? p = false) :
    (makeMissing ((p, .ok text) :: files)).run t =
      match (replaceFile p text.toUTF8).run t with
      | (.error failure, t₂) => (.error (.write failure), t₂)
      | (.ok (), t₂) =>
        (((makeMissing files).run t₂).1.map (p :: ·), ((makeMissing files).run t₂).2) := by
  rw [makeMissing.eq_def, Program.run_bind, Program.run_exists?, hp]
  simp only [Bool.false_eq_true, if_false, Program.run_bind]
  obtain ⟨_ | _, t₂⟩ := (replaceFile p text.toUTF8).run t
  · rfl
  · dsimp only
    rw [Program.run_bind]
    obtain ⟨_ | _, t'⟩ := (makeMissing files).run t₂ <;> rfl

/-- Where all is made, a file that was missing is made before the others. -/
theorem makeMissing_cons_ok {paths : List Path} (hw : t.WellFormed) (hp : t.exists? p = false)
    (h : (makeMissing ((p, .ok text) :: files)).run t = (.ok paths, t')) :
    ∃ t₁ t₂ rest, Replaced t t₁ t₂ p text.toUTF8 ∧
      (makeMissing files).run t₂ = (.ok rest, t') := by
  rw [makeMissing_of_missing hp] at h
  have hreplaced := replaceFile_run p text.toUTF8 hw
  generalize (replaceFile p text.toUTF8).run t = answer at hreplaced h
  obtain ⟨result, t₂⟩ := answer
  dsimp only at hreplaced
  rcases hreplaced with ⟨rfl, t₁, hone⟩ | ⟨⟨failure, rfl⟩, -⟩
  · dsimp only at h
    generalize hrun : (makeMissing files).run t₂ = others at h
    obtain ⟨failure | rest, t₃⟩ := others
    · cases (Prod.mk.inj h).1
    · obtain rfl : t₃ = t' := (Prod.mk.inj h).2
      exact ⟨t₁, t₂, rest, hone, hrun⟩
  · cases (Prod.mk.inj h).1

/-- The copies of what is missing after a file has been made are among those of before. -/
theorem Replaced.copies_after (hone : Replaced t t₁ t₂ p text.toUTF8) (hw : t.WellFormed)
    (hcopy : S (t.placeOf (stagingPath p)))
    (hS : ∀ file ∈ files, t.exists? file.1 = false ∨ S (t.placeOf file.1) →
      S (t.placeOf (stagingPath file.1))) :
    ∀ file ∈ files, t₂.exists? file.1 = false ∨ S (t₂.placeOf file.1) →
      S (t₂.placeOf (stagingPath file.1)) := by
  intro file hfile hmissing
  have hplace := (hone.spares hcopy).placeOf_eq
  rw [hplace] at hmissing ⊢
  refine hS file hfile ?_
  by_cases hside : S (t.placeOf file.1)
  · exact Or.inr hside
  · exact Or.inl (hone.missing_before hw hcopy hside (hmissing.resolve_right hside))

/-- The path to a file that was made leads to something. -/
theorem Made.exists_made (h : Made S t t' files made) {m : Path × String} (hm : m ∈ made)
    (hside : ¬S (t.placeOf m.1)) : t'.exists? m.1 = true := by
  rw [(h.reaches m hm).exists?_iff h.spares.wellFormed, h.spares.placeOf_eq]
  exact h.there m hm hside

end Step

/-- **Making what is missing of a list.** If it succeeds, it answers what it has made, and all
paths lead to something. Only copies of what is missing are touched, or of what is itself a
copy. -/
theorem makeMissing_run (files : List (Path × Except ScaffoldFault String)) (t : Tree)
    (hw : t.WellFormed) (hS : ∀ file ∈ files, t.exists? file.1 = false ∨ S (t.placeOf file.1) →
      S (t.placeOf (stagingPath file.1))) :
    ∃ made, Made S t ((makeMissing files).run t).2 files made ∧
      (((makeMissing files).run t).1 = .ok (made.map (·.1)) ∧
          ((∀ file ∈ files, ¬S (t.placeOf file.1)) →
            ∀ file ∈ files, ((makeMissing files).run t).2.exists? file.1 = true) ∨
        ∃ failure, ((makeMissing files).run t).1 = .error failure) := by
  induction files generalizing t with
  | nil => exact ⟨[], Made.nil hw [], Or.inl ⟨rfl, by simp⟩⟩
  | cons file files ih =>
    obtain ⟨p, scaffold⟩ := file
    have hrest := fun file hfile => hS file (List.mem_cons_of_mem _ hfile)
    cases hp : t.exists? p with
    | true =>
      rw [makeMissing_of_exists? hp]
      obtain ⟨made, hmade, hresult⟩ := ih t hw hrest
      refine ⟨made, hmade.cons_skip _, hresult.imp_left fun ⟨hrun, hexist⟩ => ⟨hrun, ?_⟩⟩
      intro hside
      obtain ⟨hfirst, hside⟩ := List.forall_mem_cons.mp hside
      exact List.forall_mem_cons.mpr ⟨hmade.exists_still hw hp hfirst, hexist hside⟩
    | false =>
      cases scaffold with
      | error fault =>
        rw [makeMissing_of_fault hp]
        exact ⟨[], Made.of_failure hw.spares_self _, Or.inr ⟨_, rfl⟩⟩
      | ok text =>
        -- The file is missing, so that the place of its copy is one that may be touched.
        have hcopy := hS (p, .ok text) List.mem_cons_self (Or.inl hp)
        rw [makeMissing_of_missing hp]
        have hreplaced := replaceFile_run p text.toUTF8 hw
        generalize (replaceFile p text.toUTF8).run t = answer at hreplaced ⊢
        obtain ⟨result, t₂⟩ := answer
        dsimp only at hreplaced
        rcases hreplaced with ⟨rfl, t₁, hone⟩ | ⟨⟨failure, rfl⟩, hspares⟩
        · dsimp only
          have hspares := hone.spares hcopy
          obtain ⟨made, hmade, hresult⟩ :=
            ih t₂ hspares.wellFormed (hone.copies_after hw hcopy hrest)
          have hall := Made.cons hw hcopy hp hone hmade
          refine ⟨(p, text) :: made, hall, hresult.imp ?_ ?_⟩
          · rintro ⟨hrun, hexist⟩
            refine ⟨by rw [hrun]; rfl, fun hside => ?_⟩
            obtain ⟨hfirst, hside⟩ := List.forall_mem_cons.mp hside
            have hthere := hall.exists_made (m := (p, text)) List.mem_cons_self hfirst
            simp only [hspares.placeOf_eq] at hexist
            exact List.forall_mem_cons.mpr ⟨hthere, hexist hside⟩
          · rintro ⟨failure, hrun⟩
            exact ⟨failure, by rw [hrun]; rfl⟩
        · -- The list ends with a failure. The file was not made, but its copy may be left.
          refine ⟨[], Made.of_failure (hspares.mono ?_) _, Or.inr ⟨_, rfl⟩⟩
          rintro q rfl
          exact hcopy

/-- Where nothing is missing, nothing is made. -/
theorem makeMissing_run_of_exists? (files : List (Path × Except ScaffoldFault String))
    (h : ∀ file ∈ files, t.exists? file.1 = true) : (makeMissing files).run t = (.ok [], t) := by
  induction files with
  | nil => rfl
  | cons file files ih =>
    obtain ⟨hfirst, hrest⟩ := List.forall_mem_cons.mp h
    rw [makeMissing_of_exists? hfirst]
    exact ih hrest

/-- With different places, the file that is made last at a place is the only one. -/
theorem lastMade?_of_pairwise {made : List (Path × String)}
    (h : made.Pairwise fun m m' => t.placeOf m.1 ≠ t.placeOf m'.1) {m : Path × String}
    (hm : m ∈ made) : lastMade? t made (t.placeOf m.1) = some m.2 := by
  induction made with
  | nil => cases hm
  | cons m' made ih =>
    obtain ⟨hhead, htail⟩ := List.pairwise_cons.mp h
    rw [lastMade?_cons]
    rcases List.mem_cons.mp hm with rfl | hm
    · cases hmore : lastMade? t made (t.placeOf m.1) with
      | none => simp
      | some later =>
        obtain ⟨x, hfind, -⟩ := Option.map_eq_some_iff.mp hmore
        have hx := List.mem_reverse.mp (List.mem_of_find?_eq_some hfind)
        have heq : t.placeOf x.1 = t.placeOf m.1 := by simpa using List.find?_some hfind
        exact absurd heq.symm (hhead x hx)
    · rw [ih htail hm]
      rfl

end Missing

/-! ### The files of a configuration -/

section Ensure

variable {t : Tree} {s : Scaffolds}

/-- A place is that of the copy for a file that a run starts from. -/
def Scaffolds.IsCopy (s : Scaffolds) (t : Tree) (q : Place) : Prop :=
  ∃ file ∈ s.files, q = t.placeOf (stagingPath file.1)

/-- A path makes a *detour* if it steps upwards and leads nowhere, but leads by its letters to
something that is there, or to where another file is to be. -/
def Scaffolds.Detour (s : Scaffolds) (t : Tree) (p : Path) : Prop :=
  ".." ∈ p.names ∧ t.exists? p = false ∧ (t.lookup (t.placeOf p) ≠ none ∨
    ∃ file ∈ s.files, file.1 ≠ p ∧ t.placeOf file.1 = t.placeOf p)

/-- What it takes for the files of a configuration not to get in each other's way: none of them
is the copy of another, and no copy is a device. -/
structure Scaffolds.Separate (s : Scaffolds) (t : Tree) : Prop where
  /-- No file is a copy. -/
  copy : ∀ file ∈ s.files, ¬s.IsCopy t (t.placeOf file.1)
  /-- No copy is a device. -/
  device : ∀ q, s.IsCopy t q → t.lookup q ≠ some .device

/-- **Making the missing files of a configuration.** Whether it succeeds or fails, some files
were made in order, and all else is spared: a file that was there before, and is no copy, keeps
its bytes unless one of the files was made in its place. That happens only for a path that makes
a detour. If there is none, every file that was made has the text of its scaffold, and no file
that was there has been touched. After a success, nothing is made any more. -/
theorem ensure_run (hw : t.WellFormed) (s : Scaffolds) :
    ∃ made, Made (s.IsCopy t) t ((ensure s).run t).2 s.files made ∧
      (((ensure s).run t).1 = .ok (made.map (·.1)) ∨
        ∃ failure, ((ensure s).run t).1 = .error failure) ∧
      (∀ m ∈ made, ¬s.IsCopy t (t.placeOf m.1) → t.lookup (t.placeOf m.1) ≠ none →
        s.Detour t m.1) ∧
      ((∀ file ∈ s.files, ¬s.Detour t file.1) →
        (∀ q bytes, ¬s.IsCopy t q → t.lookup q = some (.file bytes) →
          ((ensure s).run t).2.lookup q = some (.file bytes)) ∧
        (s.Separate t → ∀ m ∈ made,
          ((ensure s).run t).2.lookup (t.placeOf m.1) = some (.file m.2.toUTF8))) ∧
      (s.Separate t → ((ensure s).run t).1.isOk = true →
        (ensure s).run ((ensure s).run t).2 = (.ok [], ((ensure s).run t).2)) := by
  obtain ⟨made, hmade, hresult⟩ := makeMissing_run (S := s.IsCopy t) s.files t hw
    fun file hfile _ => ⟨file, hfile, rfl⟩
  replace hmade : Made (s.IsCopy t) t ((ensure s).run t).2 s.files made := hmade
  have hdetour : ∀ m ∈ made, ¬s.IsCopy t (t.placeOf m.1) → t.lookup (t.placeOf m.1) ≠ none →
      s.Detour t m.1 := fun m hm hside hthere =>
    ⟨hmade.upwards m hm hside hthere, hmade.absent m hm hside, Or.inl hthere⟩
  have hmem : ∀ m ∈ made, ∃ file ∈ s.files, file.1 = m.1 := fun m hm =>
    ⟨_, hmade.order.subset (List.mem_map_of_mem hm), rfl⟩
  refine ⟨made, hmade, hresult.imp And.left id, hdetour, fun hnone => ⟨?_, ?_⟩, ?_⟩
  · intro q bytes hside hfile
    rw [hmade.spares.lookup_eq _ (by simp [hfile]), hfile]
    rintro (hcopy | ⟨m, hm, rfl⟩)
    · exact hside hcopy
    · obtain ⟨file, hfile', heq⟩ := hmem m hm
      exact hnone file hfile' (heq ▸ hdetour m hm hside (by simp [hfile]))
  · intro hsep m hm
    have hside : ∀ m ∈ made, ¬s.IsCopy t (t.placeOf m.1) := by
      intro m hm
      obtain ⟨file, hfile, heq⟩ := hmem m hm
      exact heq ▸ hsep.copy file hfile
    -- Two files that are made at one place would be a detour of the later one.
    have hdistinct : made.Pairwise fun m m' => t.placeOf m.1 ≠ t.placeOf m'.1 := by
      refine hmade.apart.imp_of_mem fun {a b} ha hb hab heq => ?_
      obtain ⟨hup, hne⟩ := hab heq (hside a ha)
      obtain ⟨file, hfile, hfile'⟩ := hmem a ha
      obtain ⟨other, hother, hother'⟩ := hmem b hb
      refine hnone other hother ?_
      rw [hother']
      exact ⟨hup, hmade.absent b hb (hside b hb), Or.inr ⟨file, hfile, hfile' ▸ hne,
        by rw [hfile', heq]⟩⟩
    exact hmade.content hsep.device _ _ (hside m hm) (lastMade?_of_pairwise hdistinct hm)
  · intro hsep hok
    rcases hresult with ⟨-, hexist⟩ | ⟨failure, hfailure⟩
    · exact makeMissing_run_of_exists? s.files (hexist hsep.copy)
    · rw [show ((ensure s).run t).1 = .error failure from hfailure] at hok
      cases hok

/-- The path of the enumeration makes a detour to a file that is there. -/
theorem ensure_run_detour :
    let t : Tree := ⟨[(["f"], .file "old".toUTF8)], []⟩
    let files : Files := { packetId := ⟨"missing/../f"⟩ }
    let s : Scaffolds := ⟨{ baseDirectory := ⟨""⟩, targetRoot := ⟨""⟩, files := files }, []⟩
    t.WellFormed ∧ s.Detour t ⟨"missing/../f"⟩ ∧
      ∃ made, Made (s.IsCopy t) t ((ensure s).run t).2 s.files made ∧
        (((ensure s).run t).1 = .ok (made.map (·.1)) ∨
          ∃ failure, ((ensure s).run t).1 = .error failure) := by
  intro t files s
  have hw : t.WellFormed := by decide
  obtain ⟨made, hmade, hresult, -⟩ := ensure_run hw s
  refine ⟨hw, ⟨by decide, by decide, Or.inl ?_⟩, made, hmade, hresult⟩
  decide

end Ensure

end Packetry
