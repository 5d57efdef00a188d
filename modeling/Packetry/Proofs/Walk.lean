import Packetry.Disk
import Packetry.Proofs.Segments
import Packetry.Proofs.Tree

/-!
# Where paths lead

A walk along a path looks at one directory after the other. By its letters alone a path leads
to `Packetry.Disk.Tree.placeOf`, whatever is in the tree; a walk that succeeds ends there. What
the tree decides is whether the walk succeeds, and for that only its directories count: a walk
to a directory succeeds in every tree that has at least the same directories
(`Packetry.Disk.Tree.walk_mono`).

Files are named by paths that end in a name, which must not be void or `..`. For these,
`Packetry.Disk.Tree.HasSpot` says that the walk up to the last name succeeds. The operations
on files are described by it alone.
-/

namespace Packetry

open Disk

namespace Disk

/-! ### Places by letters -/

/-- Where a segment leads from a place, by its letters. -/
def Place.enter (place : Place) (segment : String) : Place :=
  if Path.isVoidName segment then place
  else if segment = ".." then place.tail
  else segment :: place

/-- Where segments lead from a place, by their letters. -/
def Place.follow (place : Place) (segments : List String) : Place :=
  segments.foldl Place.enter place

/-- Void segments lead nowhere else. -/
theorem Place.follow_filter (place : Place) (segments : List String) :
    place.follow (segments.filter (!Path.isVoidName ·)) = place.follow segments := by
  induction segments generalizing place with
  | nil => rfl
  | cons segment segments ih =>
    by_cases hv : Path.isVoidName segment = true
    · rw [List.filter_cons_of_neg (by simp [hv]), ih]
      simp [follow, enter, hv]
    · rw [List.filter_cons_of_pos (by simpa using hv)]
      exact ih _

/-- Without a step upwards, segments lead to something at or below the place. -/
theorem Place.suffix_follow (place : Place) {segments : List String} (h : ".." ∉ segments) :
    place <:+ place.follow segments := by
  induction segments generalizing place with
  | nil => exact List.suffix_refl _
  | cons segment segments ih =>
    obtain ⟨hs, h⟩ := not_or.mp (List.mem_cons.not.mp h)
    refine List.IsSuffix.trans ?_ (ih (place.enter segment) h)
    unfold enter
    split
    · exact List.suffix_refl _
    · rw [if_neg (Ne.symm hs)]
      exact List.suffix_cons _ _

@[simp] theorem Place.follow_append (place : Place) (a b : List String) :
    place.follow (a ++ b) = (place.follow a).follow b :=
  List.foldl_append

end Disk

namespace Path

/-! ### Paths that name files -/

/-- Whether a segment is the name of an entry. -/
def isProperName (name : String) : Bool :=
  !isVoidName name && name != ".."

theorem enter_of_isProperName {name : String} (h : isProperName name) (place : Place) :
    place.enter name = name :: place := by
  simp only [isProperName, Bool.and_eq_true, Bool.not_eq_true', bne_iff_ne] at h
  rw [Place.enter, if_neg (by simp [h.1]), if_neg h.2]

/-- The last segment as it is written. -/
def lastName (p : Path) : String :=
  p.names.getLast p.names_ne_nil

/-- The other segments. -/
def directoryNames (p : Path) : List String :=
  p.names.dropLast

theorem names_eq (p : Path) : p.names = p.directoryNames ++ [p.lastName] :=
  (List.dropLast_concat_getLast p.names_ne_nil).symm

/-- Whether a path can be walked at all. -/
def IsWalkable (p : Path) : Prop :=
  '\x00' ∉ p.text.toList ∧ p.text ≠ "" ∧ p.text.utf8ByteSize ≤ Tree.pathLimit

section Endings

variable {p : Path} {ending : String}

theorem lastName_withEnding (p : Path) (h : '/' ∉ ending.toList) :
    (p.withEnding ending).lastName = p.lastName ++ ending ∧
      (p.withEnding ending).directoryNames = p.directoryNames := by
  obtain ⟨before, last, h₁, h₂⟩ := names_withEnding p h
  simp [lastName, directoryNames, h₁, h₂]

/-- A path that is the beginning of one that can be walked can be walked, unless it is
empty. -/
theorem IsWalkable.of_isPrefix {q : Path} (h : p.IsWalkable)
    (hq : q.text.toList <+: p.text.toList) (hne : q.text ≠ "") : q.IsWalkable := by
  obtain ⟨rest, hrest⟩ := hq
  have htext : p.text = q.text ++ String.ofList rest := by
    rw [← String.toList_inj, String.toList_append, String.toList_ofList, hrest]
  obtain ⟨hzero, -, hlength⟩ := h
  rw [htext, String.toList_append, List.mem_append, not_or] at hzero
  rw [htext, String.utf8ByteSize_append] at hlength
  exact ⟨hzero.1, hne, by omega⟩

end Endings

/-- A step of a path that is no step upwards, and that is not too long. -/
def IsPlainStep (name : String) : Prop :=
  name ≠ ".." ∧ name.utf8ByteSize ≤ Tree.nameLimit

theorem isPlainStep_of_isVoidName {name : String} (h : isVoidName name = true) :
    IsPlainStep name := by
  have h : name = "" ∨ name = "." := by simpa [isVoidName] using h
  rcases h with rfl | rfl
  · exact ⟨by decide, by decide⟩
  · exact ⟨by decide, by decide⟩

/-- A path whose steps are plain has only plain segments. -/
theorem isPlainStep_of_mem_names {p : Path} (h : ∀ s ∈ p.steps, IsPlainStep s) {s : String}
    (hs : s ∈ p.names) : IsPlainStep s := by
  by_cases hv : isVoidName s = true
  · exact isPlainStep_of_isVoidName hv
  · exact h s (List.mem_filter.mpr ⟨hs, by simpa using hv⟩)

end Path

namespace Disk.Tree

variable {t t' : Tree} {p : Path} {place q : Place}

/-! ### Walks -/

/-- The place that a path starts from. -/
def base (t : Tree) (p : Path) : Place :=
  if p.isAbsolute then [] else t.workingDirectory

/-- The place that a path leads to by its letters. -/
def placeOf (t : Tree) (p : Path) : Place :=
  (t.base p).follow p.names

theorem placeOf_eq_steps (t : Tree) (p : Path) : t.placeOf p = (t.base p).follow p.steps :=
  (Place.follow_filter _ _).symm

theorem placeOf_congr (h : t'.workingDirectory = t.workingDirectory) (p : Path) :
    t'.placeOf p = t.placeOf p := by
  simp [placeOf, base, h]

/-- The place of a path that ends in a name. -/
theorem placeOf_eq_cons (t : Tree) (h : Path.isProperName p.lastName) :
    t.placeOf p = p.lastName :: (t.base p).follow p.directoryNames := by
  rw [placeOf, p.names_eq, Place.follow_append]
  exact Path.enter_of_isProperName h _

theorem start_eq (t : Tree) (h : p.IsWalkable) : t.start p = .ok (t.base p, p.names) := by
  obtain ⟨hzero, hne, hlength⟩ := h
  unfold start
  rw [if_neg (by simpa using hzero), if_neg hne, if_neg (Nat.not_lt.mpr hlength)]
  rfl

theorem start_ok {x : Place × List String} (h : t.start p = .ok x) :
    p.IsWalkable ∧ x = (t.base p, p.names) := by
  unfold start at h
  split at h
  · cases h
  · rename_i hzero
    split at h
    · cases h
    · rename_i hne
      split at h
      · cases h
      · rename_i hlength
        have hx : x = (t.base p, p.names) := (Except.ok.inj h).symm
        exact ⟨⟨by simpa using hzero, hne, Nat.not_lt.mp hlength⟩, hx⟩

/-- What a step needs: it starts in a directory, and what it enters is there. -/
theorem step_ok {segment : String} (h : t.step place segment = .ok q) :
    t.lookup place = some .directory ∧ q = place.enter segment ∧
      (Path.isProperName segment → t.lookup q ≠ none ∧ segment.utf8ByteSize ≤ nameLimit) := by
  unfold step at h
  split at h
  · cases h
  · rename_i hdir
    have hdir : t.lookup place = some .directory := isDirectoryAt_iff.mp (by simpa using hdir)
    refine ⟨hdir, ?_⟩
    split at h
    · rename_i hvoid
      have hvoid : Path.isVoidName segment = true := by simpa [Path.isVoidName] using hvoid
      obtain rfl : place = q := Except.ok.inj h
      exact ⟨by simp [Place.enter, hvoid], fun hp => by simp [Path.isProperName, hvoid] at hp⟩
    · rename_i hvoid
      have hvoid : Path.isVoidName segment = false := by simpa [Path.isVoidName] using hvoid
      split at h
      · rename_i hup
        obtain rfl : place.tail = q := Except.ok.inj h
        refine ⟨by simp [Place.enter, hup, Path.isVoidName], fun hp => ?_⟩
        simp [Path.isProperName, hup] at hp
      · rename_i hup
        split at h
        · cases h
        · rename_i hshort
          split at h
          · cases h
          · rename_i hthere
            obtain rfl : segment :: place = q := Except.ok.inj h
            refine ⟨by simp [Place.enter, hvoid, hup], fun _ => ⟨?_, Nat.not_lt.mp hshort⟩⟩
            simpa using hthere

/-- A step to something that is there. -/
theorem step_eq {segment : String} (hdir : t.lookup place = some .directory)
    (hs : segment ≠ ".." → segment.utf8ByteSize ≤ nameLimit)
    (hthere : t.lookup (place.enter segment) ≠ none) :
    t.step place segment = .ok (place.enter segment) := by
  unfold step
  rw [if_neg (by simp [isDirectoryAt_iff.mpr hdir])]
  by_cases hvoid : Path.isVoidName segment = true
  · have hvoid' : segment = "" ∨ segment = "." := by simpa [Path.isVoidName] using hvoid
    rw [if_pos hvoid', Place.enter, if_pos hvoid]
  · have hvoid' : ¬(segment = "" ∨ segment = ".") := by simpa [Path.isVoidName] using hvoid
    rw [Place.enter, if_neg hvoid] at hthere ⊢
    rw [if_neg hvoid']
    by_cases hup : segment = ".."
    · rw [if_pos hup, if_pos hup]
    · rw [if_neg hup] at hthere ⊢
      rw [if_neg hup, if_neg (Nat.not_lt.mpr (hs hup)), if_neg (by simpa using hthere)]

/-- A step to something that is missing. -/
theorem step_notFound {segment : String} (hdir : t.lookup place = some .directory)
    (hup : segment ≠ "..") (hs : segment.utf8ByteSize ≤ nameLimit)
    (hnone : t.lookup (place.enter segment) = none) : t.step place segment = .error .notFound := by
  have hproper : Path.isVoidName segment = false := by
    by_contra hv
    rw [Place.enter, if_pos (by simpa using hv), hdir] at hnone
    cases hnone
  have hv : ¬(segment = "" ∨ segment = ".") := by
    simpa [Path.isVoidName] using hproper
  rw [Place.enter, if_neg (by simp [hproper]), if_neg hup] at hnone
  unfold step
  rw [if_neg (by simp [isDirectoryAt_iff.mpr hdir]), if_neg hv, if_neg hup,
    if_neg (Nat.not_lt.mpr hs), if_pos (by simp [hnone])]

theorem walk_cons {segment : String} {segments : List String} :
    t.walk place (segment :: segments) =
      (t.step place segment).bind fun next => t.walk next segments := rfl

theorem walk_append (place : Place) (a b : List String) :
    t.walk place (a ++ b) = (t.walk place a).bind fun next => t.walk next b := by
  induction a generalizing place with
  | nil => rfl
  | cons segment a ih =>
    rw [List.cons_append, walk_cons, walk_cons]
    cases t.step place segment with
    | error e => rfl
    | ok next => exact ih next

/-- A bound computation that succeeds, taken apart. -/
theorem bind_ok {ε α β : Type} {x : Except ε α} {f : α → Except ε β} {b : β}
    (h : x.bind f = .ok b) : ∃ a, x = .ok a ∧ f a = .ok b := by
  cases x with
  | error e => cases h
  | ok a => exact ⟨a, rfl, h⟩

/-- **A walk that succeeds** ends where the letters lead, and something is there. -/
theorem WellFormed.walk_ok (hw : t.WellFormed) {segments : List String}
    (hplace : t.lookup place ≠ none) (h : t.walk place segments = .ok q) :
    q = place.follow segments ∧ t.lookup q ≠ none := by
  induction segments generalizing place with
  | nil =>
    obtain rfl : place = q := Except.ok.inj h
    exact ⟨rfl, hplace⟩
  | cons segment segments ih =>
    obtain ⟨next, hstep, hwalk⟩ := bind_ok (walk_cons ▸ h)
    obtain ⟨hdir, rfl, hthere⟩ := step_ok hstep
    refine ih ?_ hwalk
    by_cases hp : Path.isProperName segment = true
    · exact (hthere hp).1
    · unfold Place.enter
      split
      · exact hplace
      · rename_i hvoid
        have hup : segment = ".." := by
          by_contra hup
          exact hp (by simp [Path.isProperName, hvoid, hup])
        rw [if_pos hup, hw.tail hplace]
        simp

/-- A walk to a directory starts in a directory. -/
theorem directory_of_walk {segments : List String} (h : t.walk place segments = .ok q)
    (hq : t.lookup q = some .directory) : t.lookup place = some .directory := by
  cases segments with
  | nil => rw [Except.ok.inj h, hq]
  | cons segment segments =>
    obtain ⟨_, hstep, -⟩ := bind_ok (walk_cons ▸ h)
    exact (step_ok hstep).1

/-- **A walk to a directory succeeds in every tree with at least the same directories.** -/
theorem walk_mono (hdir : ∀ r, t.lookup r = some .directory → t'.lookup r = some .directory)
    {segments : List String} (h : t.walk place segments = .ok q)
    (hq : t.lookup q = some .directory) : t'.walk place segments = .ok q := by
  induction segments generalizing place with
  | nil => exact h
  | cons segment segments ih =>
    obtain ⟨next, hstep, hwalk⟩ := bind_ok (walk_cons ▸ h)
    obtain ⟨hplace, rfl, hproper⟩ := step_ok hstep
    have hnext : t.lookup (place.enter segment) = some .directory := directory_of_walk hwalk hq
    have hstep' : t'.step place segment = .ok (place.enter segment) := by
      refine step_eq (hdir _ hplace) (fun hup => ?_) (by simp [hdir _ hnext])
      by_cases hvoid : Path.isVoidName segment = true
      · have hvoid : segment = "" ∨ segment = "." := by simpa [Path.isVoidName] using hvoid
        rcases hvoid with rfl | rfl <;> decide
      · exact (hproper (by simp [Path.isProperName, hvoid, hup])).2
    rw [walk_cons, hstep']
    exact ih hwalk

/-- A walk that steps nowhere upwards reaches every directory that the letters lead to. -/
theorem WellFormed.walk_eq (hw : t.WellFormed) {segments : List String} (hup : ".." ∉ segments)
    (hshort : ∀ s ∈ segments, s.utf8ByteSize ≤ nameLimit)
    (hq : t.lookup (place.follow segments) = some .directory) :
    t.walk place segments = .ok (place.follow segments) := by
  induction segments generalizing place with
  | nil => rfl
  | cons segment segments ih =>
    obtain ⟨hs, hup⟩ := not_or.mp (List.mem_cons.not.mp hup)
    have hbelow : place.enter segment <:+ place.follow (segment :: segments) :=
      Place.suffix_follow (place.enter segment) hup
    have habove : ∀ r, r <:+ place.follow (segment :: segments) → t.lookup r = some .directory := by
      intro r hr
      by_cases hne : r = place.follow (segment :: segments)
      · rw [hne, hq]
      · exact hw.directory_of_suffix (by simp [hq]) hr hne
    have hplace : t.lookup place = some .directory := by
      refine habove place (List.IsSuffix.trans ?_ hbelow)
      exact (Place.suffix_follow place (by simpa using hs) : place <:+ place.follow [segment])
    rw [walk_cons, step_eq hplace (fun _ => hshort segment (by simp)) (by simp [habove _ hbelow])]
    exact ih hup (fun s hs => hshort s (by simp [hs])) hq

/-- No name of a walk that succeeds is too long. -/
theorem walk_short {segments : List String} (h : t.walk place segments = .ok q) :
    ∀ s ∈ segments, s ≠ ".." → s.utf8ByteSize ≤ nameLimit := by
  induction segments generalizing place with
  | nil => simp
  | cons segment segments ih =>
    obtain ⟨next, hstep, hwalk⟩ := bind_ok (walk_cons ▸ h)
    intro s hs hup
    rcases List.mem_cons.mp hs with rfl | hs
    · by_cases hv : Path.isVoidName s = true
      · exact (Path.isPlainStep_of_isVoidName hv).2
      · exact ((step_ok hstep).2.2 (by simp [Path.isProperName, hv, hup])).2
    · exact ih hwalk s hs hup

/-- A walk to a directory has succeeded before, or has failed at a directory that was missing, if
every directory was one before or was missing. -/
theorem WellFormed.walk_before (hw : t.WellFormed)
    (hdir : ∀ r, t'.lookup r = some .directory → t.lookup r = none ∨ t.lookup r = some .directory)
    {segments : List String} (hplace : t.lookup place = some .directory)
    (h : t'.walk place segments = .ok q) (hq : t'.lookup q = some .directory) :
    t.walk place segments = .ok q ∨ t.walk place segments = .error .notFound := by
  induction segments generalizing place with
  | nil => exact Or.inl h
  | cons segment segments ih =>
    obtain ⟨next, hstep, hwalk⟩ := bind_ok (walk_cons ▸ h)
    obtain ⟨-, rfl, -⟩ := step_ok hstep
    have hshort : segment ≠ ".." → segment.utf8ByteSize ≤ nameLimit :=
      walk_short h segment List.mem_cons_self
    rw [walk_cons]
    rcases hdir _ (directory_of_walk hwalk hq) with hnone | hnext
    · -- No step upwards leads from a directory to nothing.
      have hup : segment ≠ ".." := by
        rintro rfl
        rw [show place.enter ".." = place.tail from rfl, hw.tail (by simp [hplace])] at hnone
        cases hnone
      rw [step_notFound hplace hup (hshort hup) hnone]
      exact Or.inr rfl
    · rw [step_eq hplace hshort (by simp [hnext])]
      exact ih hnext hwalk

/-- A walk through directories, of which some are missing, fails at the first one that is
missing. -/
theorem walk_notFound {segments : List String} (hplain : ∀ s ∈ segments, Path.IsPlainStep s)
    (hplace : t.lookup place = some .directory)
    (hclear : ∀ r, r <:+ place.follow segments → t.lookup r = none ∨ t.lookup r = some .directory)
    (hq : t.lookup (place.follow segments) = none) :
    t.walk place segments = .error .notFound := by
  induction segments generalizing place with
  | nil =>
    rw [show place.follow [] = place from rfl, hplace] at hq
    cases hq
  | cons segment segments ih =>
    have hrest : ".." ∉ segments := fun hmem => (hplain ".." (by simp [hmem])).1 rfl
    have hbelow : place.enter segment <:+ place.follow (segment :: segments) :=
      Place.suffix_follow (place.enter segment) hrest
    rw [walk_cons]
    by_cases hnext : t.lookup (place.enter segment) = none
    · obtain ⟨hup, hshort⟩ := hplain segment (by simp)
      rw [step_notFound hplace hup hshort hnext]
      rfl
    · have hdir : t.lookup (place.enter segment) = some .directory :=
        (hclear _ hbelow).resolve_left hnext
      rw [step_eq hplace (fun _ => (hplain segment (by simp)).2) (by simp [hdir])]
      exact ih (fun s hs => hplain s (by simp [hs])) hdir hclear hq

/-! ### Paths to files -/

/-- The path ends in the name of an entry, or of what could be one, in a directory that can
be reached. -/
structure HasSpot (t : Tree) (p : Path) (directory : Place) : Prop where
  /-- The path can be walked. -/
  walkable : p.IsWalkable
  /-- The path ends in a name. -/
  proper : Path.isProperName p.lastName
  /-- The walk to the directory succeeds. -/
  walk : t.walk (t.base p) p.directoryNames = .ok directory
  /-- The directory is one. -/
  directory : t.lookup directory = some .directory

variable {d : Place}

/-- The place of the file. -/
theorem HasSpot.placeOf_eq (h : t.HasSpot p d) (hw : t.WellFormed) :
    t.placeOf p = p.lastName :: d := by
  have hbase : t.lookup (t.base p) ≠ none := by simp [directory_of_walk h.walk h.directory]
  rw [placeOf, p.names_eq, Place.follow_append, ← (hw.walk_ok hbase h.walk).1]
  exact Path.enter_of_isProperName h.proper d

/-- What a path reaches, it reaches in every tree with at least the same directories. -/
theorem HasSpot.mono (h : t.HasSpot p d)
    (hdir : ∀ r, t.lookup r = some .directory → t'.lookup r = some .directory)
    (hcwd : t'.workingDirectory = t.workingDirectory) : t'.HasSpot p d := by
  refine ⟨h.walkable, h.proper, ?_, hdir d h.directory⟩
  have hbase : t'.base p = t.base p := by simp [base, hcwd]
  rw [hbase]
  exact walk_mono hdir h.walk h.directory

theorem HasSpot.spot?_eq (h : t.HasSpot p d) :
    t.spot? p = .ok (some ⟨d, p.lastName, false⟩) := by
  have hp := h.proper
  simp only [Path.isProperName, Path.isVoidName, Bool.and_eq_true, Bool.not_eq_true',
    Bool.or_eq_false_iff, beq_eq_false_iff_ne, bne_iff_ne] at hp
  obtain ⟨⟨hne, hdot⟩, hup⟩ := hp
  unfold spot?
  rw [start_eq t h.walkable, p.names_eq]
  have hrev : (p.directoryNames ++ [p.lastName]).reverse.dropWhile (· = "") =
      p.lastName :: p.directoryNames.reverse := by
    rw [List.reverse_append, List.reverse_singleton, List.singleton_append,
      List.dropWhile_cons_of_neg (by simpa using hne)]
  simp only [bind, Except.bind, hrev, List.reverse_reverse, h.walk]
  simp [isDirectoryAt_iff.mpr h.directory, hdot, hup, pure, Except.pure, hne]

/-- A spot is a name in a directory that can be reached; only empty segments follow the
name. -/
theorem spot?_ok {s : Spot} (h : t.spot? p = .ok (some s)) :
    p.IsWalkable ∧ Path.isProperName s.name ∧ t.lookup s.directory = some .directory ∧
      ∃ before voids, p.names = before ++ s.name :: voids ∧ (∀ v ∈ voids, v = "") ∧
        t.walk (t.base p) before = .ok s.directory ∧ (s.slash = false → voids = []) := by
  unfold spot? at h
  obtain ⟨⟨place, segments⟩, hstart, h⟩ := bind_ok h
  obtain ⟨hwalkable, hx⟩ := start_ok hstart
  obtain ⟨rfl, rfl⟩ : place = t.base p ∧ segments = p.names := by simpa using hx
  dsimp only at h
  split at h
  · cases h
  · rename_i last before hdrop
    obtain ⟨directory, hwalk, h⟩ := bind_ok h
    split at h
    · cases h
    · rename_i hdir
      split at h
      · cases h
      · rename_i hdots
        obtain rfl := Option.some.inj (Except.ok.inj h)
        -- The empty segments at the end were dropped, so that the last one left is not empty.
        have hne : last ≠ "" := by
          have := List.head?_dropWhile_not (· = "") p.names.reverse
          rw [hdrop] at this
          simpa using this
        have hnames : p.names =
            before.reverse ++ last :: (p.names.reverse.takeWhile (· = "")).reverse := by
          have := congrArg List.reverse
            (List.takeWhile_append_dropWhile (p := fun x => decide (x = "")) (l := p.names.reverse))
          rw [hdrop, List.reverse_append, List.reverse_cons, List.reverse_reverse] at this
          simpa using this.symm
        refine ⟨hwalkable, ?_, isDirectoryAt_iff.mp (by simpa using hdir), before.reverse,
          (p.names.reverse.takeWhile (· = "")).reverse, hnames, ?_, hwalk, ?_⟩
        · simpa [Path.isProperName, Path.isVoidName, hne] using hdots
        · intro v hv
          simpa using List.mem_takeWhile_imp (List.mem_reverse.mp hv)
        · intro hslash
          rw [List.reverse_eq_nil_iff, List.takeWhile_eq_nil_iff]
          intro hlen hempty
          have hlast : p.names.getLast? = some "" := by
            rw [List.getLast?_eq_head?_reverse, List.head?_eq_getElem?,
              List.getElem?_eq_getElem hlen]
            simpa using hempty
          simp [hlast] at hslash

/-- The place of a spot is where the letters lead. -/
theorem WellFormed.place_eq_placeOf (hw : t.WellFormed) {s : Spot}
    (h : t.spot? p = .ok (some s)) : s.place = t.placeOf p := by
  obtain ⟨-, hproper, hdir, before, voids, hnames, hvoids, hwalk, -⟩ := spot?_ok h
  have hbase : t.lookup (t.base p) ≠ none := by simp [directory_of_walk hwalk hdir]
  have hv : ∀ place : Place, place.follow voids = place := by
    intro place
    rw [← Place.follow_filter, List.filter_eq_nil_iff.mpr]
    · rfl
    · intro v hv
      simp [hvoids v hv, Path.isVoidName]
  rw [placeOf, hnames, Place.follow_append, ← (hw.walk_ok hbase hwalk).1]
  show s.name :: s.directory = Place.follow (s.directory.enter s.name) voids
  rw [hv, Path.enter_of_isProperName hproper]

/-- Nothing but a path that ends in a name has a spot that no slash follows. -/
theorem hasSpot_of_spot? {s : Spot} (h : t.spot? p = .ok (some s)) (hs : s.slash = false) :
    t.HasSpot p s.directory ∧ s.name = p.lastName := by
  obtain ⟨hwalkable, hproper, hdir, before, voids, hnames, -, hwalk, hslash⟩ := spot?_ok h
  obtain rfl := hslash hs
  have hlast : p.lastName = s.name ∧ p.directoryNames = before := by
    simp [Path.lastName, Path.directoryNames, hnames]
  exact ⟨⟨hwalkable, hlast.1 ▸ hproper, hlast.2 ▸ hwalk, hdir⟩, hlast.1.symm⟩

/-- The letters of a path to something that is no directory end in a name. -/
theorem WellFormed.hasSpot_of_find (hw : t.WellFormed) (h : t.find p = .ok q)
    (hq : t.lookup q ≠ some .directory) :
    ∃ d, t.HasSpot p d ∧ q = p.lastName :: d ∧ p.lastName.utf8ByteSize ≤ nameLimit := by
  unfold find at h
  obtain ⟨x, hstart, h⟩ := bind_ok h
  obtain ⟨hwalkable, rfl⟩ := start_ok hstart
  dsimp only at h
  rw [p.names_eq, walk_append] at h
  obtain ⟨d, hwalk, h⟩ := bind_ok h
  obtain ⟨r, hstep, hr⟩ := bind_ok (walk_cons ▸ h)
  obtain rfl : r = q := Except.ok.inj hr
  obtain ⟨hd, rfl, hthere⟩ := step_ok hstep
  have hproper : Path.isProperName p.lastName := by
    by_contra hp
    refine hq ?_
    unfold Place.enter
    split
    · exact hd
    · rename_i hvoid
      have hup : p.lastName = ".." := by
        by_contra hup
        exact hp (by simp [Path.isProperName, hvoid, hup])
      rw [if_pos hup, hw.tail (by simp [hd])]
  exact ⟨d, ⟨hwalkable, hproper, hwalk, hd⟩, Path.enter_of_isProperName hproper d,
    (hthere hproper).2⟩

/-- What is found is where the letters lead. -/
theorem WellFormed.find_ok (hw : t.WellFormed) (h : t.find p = .ok q) :
    q = t.placeOf p ∧ t.lookup q ≠ none := by
  unfold find at h
  obtain ⟨x, hstart, h⟩ := bind_ok h
  obtain ⟨-, rfl⟩ := start_ok hstart
  dsimp only at h
  obtain ⟨name, names, hnames⟩ := List.exists_cons_of_ne_nil p.names_ne_nil
  refine hw.walk_ok ?_ h
  rw [hnames] at h
  obtain ⟨_, hstep, -⟩ := bind_ok (walk_cons ▸ h)
  simp [(step_ok hstep).1]

/-- Finding a file, by what is at its place. -/
theorem HasSpot.find_eq (h : t.HasSpot p d) :
    t.find p = if nameLimit < p.lastName.utf8ByteSize then .error .nameTooLong
      else if t.lookup (p.lastName :: d) = none then .error .notFound
      else .ok (p.lastName :: d) := by
  have hp := h.proper
  simp only [Path.isProperName, Path.isVoidName, Bool.and_eq_true, Bool.not_eq_true',
    Bool.or_eq_false_iff, beq_eq_false_iff_ne, bne_iff_ne] at hp
  obtain ⟨⟨hne, hdot⟩, hup⟩ := hp
  have hstep : t.step d p.lastName =
      if nameLimit < p.lastName.utf8ByteSize then .error .nameTooLong
      else if t.lookup (p.lastName :: d) = none then .error .notFound
      else .ok (p.lastName :: d) := by
    unfold step
    rw [if_neg (by simp [isDirectoryAt_iff.mpr h.directory]), if_neg (by simp [hne, hdot]),
      if_neg hup]
    simp only [Option.isNone_iff_eq_none]
  unfold find
  rw [start_eq t h.walkable, p.names_eq]
  simp only [bind, Except.bind, walk_append, h.walk, walk_cons, hstep]
  split_ifs <;> rfl

/-- **The path leads to a place that a file can have**: its directory can be reached, and its
name is not too long. -/
def Reaches (t : Tree) (p : Path) : Prop :=
  ∃ d, t.HasSpot p d ∧ p.lastName.utf8ByteSize ≤ nameLimit

theorem Reaches.mono (h : t.Reaches p)
    (hdir : ∀ r, t.lookup r = some .directory → t'.lookup r = some .directory)
    (hcwd : t'.workingDirectory = t.workingDirectory) : t'.Reaches p := by
  obtain ⟨d, hspot, hs⟩ := h
  exact ⟨d, hspot.mono hdir hcwd, hs⟩

/-- A path that steps nowhere upwards reaches what is at its place, if it has ever reached
anything. -/
theorem Reaches.of_plain (h : t.Reaches p) (hup : ".." ∉ p.names) (hw' : t'.WellFormed)
    (hthere : t'.lookup (t'.placeOf p) ≠ none) : t'.Reaches p := by
  obtain ⟨d, hspot, hs⟩ := h
  have hplace := t'.placeOf_eq_cons hspot.proper
  have hdir : t'.lookup ((t'.base p).follow p.directoryNames) = some .directory := by
    rw [hplace] at hthere
    exact hw' _ _ hthere
  have hsub : ".." ∉ p.directoryNames := fun hmem => hup (List.dropLast_subset _ hmem)
  refine ⟨_, ⟨hspot.walkable, hspot.proper, hw'.walk_eq hsub (fun s hmem => ?_) hdir, hdir⟩, hs⟩
  exact walk_short hspot.walk s hmem fun heq => hsub (heq ▸ hmem)

/-- A spot without a slash is that of a path that reaches it. -/
theorem WellFormed.reaches_of_spot? (hw : t.WellFormed) {s : Spot} (h : t.spot? p = .ok (some s))
    (hslash : s.slash = false) (hs : s.name.utf8ByteSize ≤ nameLimit) :
    t.Reaches p ∧ s.place = t.placeOf p := by
  obtain ⟨hspot, hname⟩ := hasSpot_of_spot? h hslash
  exact ⟨⟨s.directory, hspot, hname ▸ hs⟩, hw.place_eq_placeOf h⟩

end Disk.Tree

end Packetry
