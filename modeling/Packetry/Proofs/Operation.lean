import Packetry.Proofs.Walk

/-!
# What operations do

Each operation on the disk, seen through `Packetry.Disk.Tree.lookup`. An operation that changes
files changes them at the places that its paths lead to, and leaves all directories what they
are (`Packetry.Disk.Tree.SameDirectories`); so every path leads to the same place before and
after it. Only making a directory changes the directories, and it only adds one.

For each operation there are two statements: one takes a success apart, and one tells when
there is a success. What a tree has become is said by `Packetry.Disk.Tree.Becomes`.
-/

namespace Packetry.Disk

namespace Tree

variable {t t' t'' : Tree} {p p' : Path} {q : Place} {f g : Place → Option Entry}
  {bytes : ByteArray}

/-! ### The same directories -/

/-- Two trees with the same directories, one of which is the working directory of both. -/
structure SameDirectories (t t' : Tree) : Prop where
  /-- The working directory is the same. -/
  workingDirectory : t'.workingDirectory = t.workingDirectory
  /-- What is a directory in one of them is a directory in the other. -/
  directory : ∀ r, t'.lookup r = some .directory ↔ t.lookup r = some .directory

theorem SameDirectories.refl (t : Tree) : t.SameDirectories t :=
  ⟨rfl, fun _ => Iff.rfl⟩

theorem SameDirectories.symm (h : t.SameDirectories t') : t'.SameDirectories t :=
  ⟨h.workingDirectory.symm, fun r => (h.directory r).symm⟩

theorem SameDirectories.trans (h : t.SameDirectories t') (h' : t'.SameDirectories t'') :
    t.SameDirectories t'' :=
  ⟨h'.workingDirectory.trans h.workingDirectory,
    fun r => (h'.directory r).trans (h.directory r)⟩

theorem SameDirectories.reaches (h : t.SameDirectories t') (hp : t.Reaches p) : t'.Reaches p :=
  hp.mono (fun r => (h.directory r).mpr) h.workingDirectory

theorem SameDirectories.placeOf_eq (h : t.SameDirectories t') (p : Path) :
    t'.placeOf p = t.placeOf p :=
  placeOf_congr h.workingDirectory p

/-- The second tree has the directories of the first one, and at every place what the function
says. -/
structure Becomes (t : Tree) (f : Place → Option Entry) (t' : Tree) : Prop where
  /-- What is at each place. -/
  lookup : t'.lookup = f
  /-- The tree is well formed. -/
  wellFormed : t'.WellFormed
  /-- The directories are the same. -/
  same : t.SameDirectories t'

theorem WellFormed.becomes_self (hw : t.WellFormed) : t.Becomes t.lookup t :=
  ⟨rfl, hw, SameDirectories.refl t⟩

theorem Becomes.trans (h : t.Becomes f t') (h' : t'.Becomes g t'') : t.Becomes g t'' :=
  ⟨h'.lookup, h'.wellFormed, h.same.trans h'.same⟩

theorem Becomes.congr (h : t.Becomes f t') (hfg : f = g) : t.Becomes g t' := hfg ▸ h

/-- Changing one place between two things that are no directories, in a directory. -/
theorem WellFormed.becomes_update {v : Option Entry} (hw : t.WellFormed)
    (h : t'.lookup = Function.update t.lookup q v)
    (hcwd : t'.workingDirectory = t.workingDirectory) (hq : t.lookup q ≠ some .directory)
    (hv : v ≠ some .directory) (hin : t.lookup q.tail = some .directory) :
    t.Becomes (Function.update t.lookup q v) t' := by
  refine ⟨h, hw.of_directories (fun r hr => ?_) (fun name place hne => ?_), hcwd, fun r => ?_⟩
  · rw [h, Function.update_of_ne, hr]
    rintro rfl
    exact hq hr
  · by_cases hr : name :: place = q
    · rw [← hr] at hin
      exact Or.inr hin
    · rw [h, Function.update_of_ne hr] at hne
      exact Or.inl hne
  · rw [h, Function.update_apply]
    split
    · rename_i hr
      rw [hr]
      exact ⟨fun hd => absurd hd hv, fun hd => absurd hd hq⟩
    · exact Iff.rfl

/-! ### Where files are -/

/-- The directory of a place that a path reaches. -/
theorem Reaches.tail_eq (h : t.Reaches p) (hw : t.WellFormed) :
    t.lookup (t.placeOf p).tail = some .directory := by
  obtain ⟨d, hspot, -⟩ := h
  rw [hspot.placeOf_eq hw]
  exact hspot.directory

theorem Reaches.placeOf_ne_nil (h : t.Reaches p) (hw : t.WellFormed) : t.placeOf p ≠ [] := by
  obtain ⟨d, hspot, -⟩ := h
  rw [hspot.placeOf_eq hw]
  simp

/-! ### Reading -/

theorem Reaches.read_eq (h : t.Reaches p) (hw : t.WellFormed) :
    t.read p = match t.lookup (t.placeOf p) with
      | some (.file bytes) => .ok bytes
      | some .directory => .error .isDirectory
      | some .device => .ok .empty
      | none => .error .notFound := by
  obtain ⟨d, hspot, hs⟩ := h
  unfold read
  rw [hspot.find_eq, if_neg (Nat.not_lt.mpr hs), hspot.placeOf_eq hw]
  by_cases hl : t.lookup (p.lastName :: d) = none
  · rw [if_pos hl, hl]
    rfl
  · rw [if_neg hl]
    rcases hv : t.lookup (p.lastName :: d) with _ | (_ | _ | _) <;>
      simp [bind, Except.bind, hv, throw, throwThe, MonadExceptOf.throw, pure, Except.pure]

/-- Nothing is where a file is looked for and not found. -/
theorem Reaches.lookup_of_read (h : t.Reaches p) (hw : t.WellFormed)
    (hread : t.read p = .error .notFound) : t.lookup (t.placeOf p) = none := by
  rw [h.read_eq hw] at hread
  generalize t.lookup (t.placeOf p) = x at hread ⊢
  rcases x with _ | (_ | _ | _)
  · rfl
  all_goals cases hread

/-- The bytes that are read from what is at a place. A device reads as empty. -/
def bytesOf : Option Entry → Option ByteArray
  | some (.file bytes) => some bytes
  | some .device => some .empty
  | _ => none

theorem bytesOf_ne_none {x : Option Entry} :
    bytesOf x ≠ none ↔ x ≠ none ∧ x ≠ some .directory := by
  rcases x with _ | (_ | _ | _) <;> simp [bytesOf]

/-- **What can be read** is what is at a place that is reached. -/
theorem WellFormed.read_ok_iff (hw : t.WellFormed) :
    t.read p = .ok bytes ↔ t.Reaches p ∧ bytesOf (t.lookup (t.placeOf p)) = some bytes := by
  constructor
  · intro h
    obtain ⟨q, hfind, hread⟩ := bind_ok h
    have hq : t.lookup q ≠ some .directory := by
      intro hq
      rw [hq] at hread
      cases hread
    obtain ⟨d, hspot, rfl, hs⟩ := hw.hasSpot_of_find hfind hq
    refine ⟨⟨d, hspot, hs⟩, ?_⟩
    rw [hspot.placeOf_eq hw]
    generalize t.lookup (p.lastName :: d) = x at hread ⊢
    rcases x with _ | (_ | b | _)
    · cases hread
    · cases hread
    · rw [bytesOf, Except.ok.inj hread]
    · rw [bytesOf, Except.ok.inj hread]
  · rintro ⟨h, hbytes⟩
    rw [h.read_eq hw]
    generalize t.lookup (t.placeOf p) = x at hbytes ⊢
    rcases x with _ | (_ | b | _)
    · cases hbytes
    · cases hbytes
    · rw [Option.some.inj hbytes]
    · rw [Option.some.inj hbytes]

/-- A path whose file is not there when it is read leads to nothing. -/
theorem WellFormed.exists?_of_read (hw : t.WellFormed) (h : t.read p = .error .notFound) :
    t.exists? p = false := by
  unfold exists?
  cases hfind : t.find p with
  | error e => rfl
  | ok q =>
    have hthere := (hw.find_ok hfind).2
    unfold read at h
    rw [hfind] at h
    change (match t.lookup q with
      | some (.file bytes) => pure bytes
      | some .directory => throw .isDirectory
      | some .device => pure .empty
      | none => throw .notFound : Except Error ByteArray) = .error .notFound at h
    rcases hv : t.lookup q with _ | (_ | b | _)
    · exact absurd hv hthere
    all_goals
      rw [hv] at h
      cases h

/-- A path that can be read leads to something. -/
theorem exists?_of_read_ok (h : t.read p = .ok bytes) : t.exists? p = true := by
  obtain ⟨q, hfind, -⟩ := bind_ok h
  simp [exists?, hfind, Except.isOk, Except.toBool]

/-- Whether something is at a path. -/
theorem Reaches.exists?_iff (h : t.Reaches p) (hw : t.WellFormed) :
    t.exists? p = true ↔ t.lookup (t.placeOf p) ≠ none := by
  obtain ⟨d, hspot, hs⟩ := h
  unfold exists?
  rw [hspot.find_eq, if_neg (Nat.not_lt.mpr hs), hspot.placeOf_eq hw]
  by_cases hl : t.lookup (p.lastName :: d) = none
  · simp [hl, Except.isOk, Except.toBool]
  · simp [hl, Except.isOk, Except.toBool]

/-! ### Writing -/

theorem at?_eq {s : Spot} (h : s.name.utf8ByteSize ≤ nameLimit) :
    t.at? s = .ok (t.lookup s.place) := by
  unfold at?
  rw [if_neg (Nat.not_lt.mpr h)]

theorem at?_ok {s : Spot} {x : Option Entry} (h : t.at? s = .ok x) :
    s.name.utf8ByteSize ≤ nameLimit ∧ x = t.lookup s.place := by
  unfold at? at h
  split at h
  · cases h
  · rename_i hs
    exact ⟨Nat.not_lt.mp hs, (Except.ok.inj h).symm⟩

/-- What a file becomes when it is written: a device stays one. -/
def writtenTo (x : Option Entry) (bytes : ByteArray) : Option Entry :=
  match x with
  | some .device => some .device
  | _ => some (.file bytes)

theorem writtenTo_ne_directory {x : Option Entry} : writtenTo x bytes ≠ some .directory := by
  rcases x with _ | (_ | _ | _) <;> simp [writtenTo]

theorem writtenTo_ne_none {x : Option Entry} : writtenTo x bytes ≠ none := by
  rcases x with _ | (_ | _ | _) <;> simp [writtenTo]

/-- What was written is read again, or nothing is if a device is there. -/
theorem bytesOf_writtenTo (x : Option Entry) (bytes : ByteArray) :
    bytesOf (writtenTo x bytes) = some bytes ∨ bytesOf (writtenTo x bytes) = some .empty := by
  rcases x with _ | (_ | _ | _)
  all_goals simp [bytesOf, writtenTo]

/-- Writing twice is writing once. -/
theorem writtenTo_writtenTo (x : Option Entry) (a b : ByteArray) :
    writtenTo (writtenTo x a) b = writtenTo x b := by
  rcases x with _ | (_ | _ | _) <;> rfl

/-- Only a device does not keep what is written to it. -/
theorem writtenTo_of_ne_device {x : Option Entry} (h : x ≠ some .device) (bytes : ByteArray) :
    writtenTo x bytes = some (.file bytes) := by
  rcases x with _ | (_ | _ | _)
  · rfl
  · rfl
  · rfl
  · exact absurd rfl h

/-- **A file that was written** is there, and nothing else has changed. Only a device keeps
nothing of what is written to it. -/
theorem WellFormed.write_ok (hw : t.WellFormed) (h : t.write p bytes = .ok t') :
    t.Reaches p ∧ t.lookup (t.placeOf p) ≠ some .directory ∧
      t.Becomes (Function.update t.lookup (t.placeOf p)
        (writtenTo (t.lookup (t.placeOf p)) bytes)) t' := by
  unfold write at h
  obtain ⟨s?, hspot, h⟩ := bind_ok h
  cases s? with
  | none => cases h
  | some s =>
    dsimp only at h
    split at h
    · cases h
    · rename_i hslash
      obtain ⟨x, hat, h⟩ := bind_ok h
      obtain ⟨hs, rfl⟩ := at?_ok hat
      obtain ⟨hreach, hplace⟩ := hw.reaches_of_spot? hspot (by simpa using hslash) hs
      rw [hplace] at h
      have hfile : t.lookup (t.placeOf p) ≠ some .directory →
          t.Becomes (Function.update t.lookup (t.placeOf p) (some (.file bytes)))
            (t.insert (t.placeOf p) (.file bytes)) := fun hdir =>
        hw.becomes_update (lookup_insert (hreach.placeOf_ne_nil hw)) rfl hdir (by simp)
          (hreach.tail_eq hw)
      rcases hv : t.lookup (t.placeOf p) with _ | (_ | b | _) <;> rw [hv] at h
      · obtain rfl := Except.ok.inj h
        exact ⟨hreach, by simp, hfile (by simp [hv])⟩
      · cases h
      · obtain rfl := Except.ok.inj h
        exact ⟨hreach, by simp, hfile (by simp [hv])⟩
      · obtain rfl : t = t' := Except.ok.inj h
        refine ⟨hreach, by simp, hw.becomes_self.congr ?_⟩
        rw [writtenTo, ← hv, Function.update_eq_self]

/-- Writing to a place that a file can have succeeds, unless a directory is there. -/
theorem Reaches.write_eq (h : t.Reaches p) (hw : t.WellFormed)
    (hdir : t.lookup (t.placeOf p) ≠ some .directory) (bytes : ByteArray) :
    ∃ t', t.write p bytes = .ok t' := by
  obtain ⟨d, hspot, hs⟩ := h
  rw [hspot.placeOf_eq hw] at hdir
  unfold write
  rw [hspot.spot?_eq]
  simp only [bind, Except.bind, at?_eq (s := ⟨d, p.lastName, false⟩) hs, Spot.place]
  rcases hv : t.lookup (p.lastName :: d) with _ | (_ | b | _)
  · exact ⟨_, rfl⟩
  · exact absurd hv hdir
  · exact ⟨_, rfl⟩
  · exact ⟨_, rfl⟩

/-! ### Removing -/

/-- **A file that was removed** was there, and nothing else has changed. -/
theorem WellFormed.remove_ok (hw : t.WellFormed) (h : t.remove p = .ok t') :
    t.Reaches p ∧ t.lookup (t.placeOf p) ≠ none ∧ t.lookup (t.placeOf p) ≠ some .directory ∧
      t.Becomes (Function.update t.lookup (t.placeOf p) none) t' := by
  unfold remove at h
  obtain ⟨s?, hspot, h⟩ := bind_ok h
  cases s? with
  | none => cases h
  | some s =>
    obtain ⟨x, hat, h⟩ := bind_ok h
    obtain ⟨hs, rfl⟩ := at?_ok hat
    have hplace := hw.place_eq_placeOf hspot
    rw [hplace] at h
    have hfile : t.lookup (t.placeOf p) ≠ some .directory →
        (if s.slash then throw .notDirectory else return t.erase (t.placeOf p) :
          Except Error Tree) = .ok t' →
        t.Reaches p ∧ t.Becomes (Function.update t.lookup (t.placeOf p) none) t' := by
      intro hdir h
      split at h
      · cases h
      · rename_i hslash
        obtain rfl := Except.ok.inj h
        obtain ⟨hreach, -⟩ := hw.reaches_of_spot? hspot (by simpa using hslash) hs
        exact ⟨hreach, hw.becomes_update (lookup_erase (hreach.placeOf_ne_nil hw)) rfl hdir
          (by simp) (hreach.tail_eq hw)⟩
    rcases hv : t.lookup (t.placeOf p) with _ | (_ | b | _) <;> rw [hv] at h
    · cases h
    · cases h
    · obtain ⟨hreach, hbecomes⟩ := hfile (by simp [hv]) h
      exact ⟨hreach, by simp, by simp, hbecomes⟩
    · obtain ⟨hreach, hbecomes⟩ := hfile (by simp [hv]) h
      exact ⟨hreach, by simp, by simp, hbecomes⟩

/-- What is there and is no directory can be removed. -/
theorem Reaches.remove_eq (h : t.Reaches p) (hw : t.WellFormed)
    (hthere : t.lookup (t.placeOf p) ≠ none)
    (hdir : t.lookup (t.placeOf p) ≠ some .directory) : ∃ t', t.remove p = .ok t' := by
  obtain ⟨d, hspot, hs⟩ := h
  rw [hspot.placeOf_eq hw] at hthere hdir
  unfold remove
  rw [hspot.spot?_eq]
  simp only [bind, Except.bind, at?_eq (s := ⟨d, p.lastName, false⟩) hs, Spot.place]
  rcases hv : t.lookup (p.lastName :: d) with _ | (_ | b | _)
  · exact absurd hv hthere
  · exact absurd hv hdir
  · exact ⟨_, rfl⟩
  · exact ⟨_, rfl⟩

/-! ### Renaming -/

/-- What is at each place when what was at one place is moved to another. -/
def movedTo (f : Place → Option Entry) (source target : Place) : Place → Option Entry :=
  Function.update (Function.update f source none) target (f source)

theorem movedTo_self (f : Place → Option Entry) (q : Place) : movedTo f q q = f := by
  rw [movedTo, Function.update_idem, Function.update_eq_self]

/-- Moving what is no directory to where no directory is. -/
theorem WellFormed.becomes_move {s d : Place} (hw : t.WellFormed) (hsd : s ≠ d)
    (hs : t.lookup s ≠ some .directory) (hd : t.lookup d ≠ some .directory)
    (hin : t.lookup d.tail = some .directory) :
    t.Becomes (movedTo t.lookup s d) (t.move s d) := by
  have hs' : s ≠ [] := by
    rintro rfl
    exact hs rfl
  have hd' : d ≠ [] := by
    rintro rfl
    exact hd rfl
  have hlookup : (t.move s d).lookup = movedTo t.lookup s d :=
    lookup_move hs' hd' hsd (hw.childless hs)
  have happly : ∀ r, movedTo t.lookup s d r =
      if r = d then t.lookup s else if r = s then none else t.lookup r := by
    intro r
    rw [movedTo, Function.update_apply, Function.update_apply]
  refine ⟨hlookup, hw.of_directories (fun r hr => ?_) (fun name place hne => ?_), rfl,
    fun r => ?_⟩
  · rw [hlookup, happly, if_neg, if_neg, hr]
    · rintro rfl
      exact hs hr
    · rintro rfl
      exact hd hr
  · rw [hlookup, happly] at hne
    by_cases hr : name :: place = d
    · rw [← hr] at hin
      exact Or.inr hin
    · rw [if_neg hr] at hne
      by_cases hr' : name :: place = s
      · rw [if_pos hr'] at hne
        exact absurd rfl hne
      · rw [if_neg hr'] at hne
        exact Or.inl hne
  · rw [hlookup, happly]
    by_cases hr : r = d
    · rw [if_pos hr, hr]
      exact ⟨fun h => absurd h hs, fun h => absurd h hd⟩
    · rw [if_neg hr]
      by_cases hr' : r = s
      · rw [if_pos hr', hr']
        exact ⟨fun h => absurd h (by simp), fun h => absurd h hs⟩
      · rw [if_neg hr']

/-- What is there and is no directory is a file or a device. -/
theorem isDirectory_of_lookup {q : Place} {entry : Entry} (h : t.lookup q = some entry)
    (hdir : t.lookup q ≠ some .directory) : entry.isDirectory = false := by
  cases entry with
  | directory => exact absurd h hdir
  | file _ => rfl
  | device => rfl

/-- A renaming that succeeds has found something at the old name. What is no directory is
moved to where no directory is, and stays if both names stand for one place. -/
theorem rename_cases (h : t.rename p p' = .ok t') :
    ∃ old new entry replaced, t.spot? p = .ok (some old) ∧ t.spot? p' = .ok (some new) ∧
      t.at? old = .ok (some entry) ∧ t.at? new = .ok replaced ∧
      (entry.isDirectory = false → old.slash = false ∧ new.slash = false ∧
        (old.place = new.place ∧ t' = t ∨
          old.place ≠ new.place ∧ replaced ≠ some .directory ∧
            t' = t.move old.place new.place)) := by
  unfold rename at h
  obtain ⟨old?, hold, h⟩ := bind_ok h
  obtain ⟨new?, hnew, h⟩ := bind_ok h
  cases old? with
  | none => cases h
  | some old =>
    cases new? with
    | none => cases h
    | some new =>
      obtain ⟨found?, hentry, h⟩ := bind_ok h
      cases found? with
      | none => cases h
      | some entry =>
        obtain ⟨replaced, hreplaced, h⟩ := bind_ok h
        -- Only what is no directory is followed from here on.
        refine ⟨old, new, entry, replaced, hold, hnew, hentry, hreplaced, fun hfile => ?_⟩
        simp only [hfile, Bool.not_false, Bool.true_and, Bool.or_eq_true] at h
        split at h
        · cases h
        · rename_i hslash
          obtain ⟨hslash, hslash'⟩ := not_or.mp hslash
          refine ⟨by simpa using hslash, by simpa using hslash', ?_⟩
          split at h
          · cases h
          · split at h
            · cases h
            · split at h
              · rename_i heq
                exact Or.inl ⟨heq, (Except.ok.inj h).symm⟩
              · rename_i hne
                refine Or.inr ⟨hne, ?_⟩
                rcases replaced with _ | (_ | b | _)
                · exact ⟨by simp, (Except.ok.inj h).symm⟩
                · cases h
                · exact ⟨by simp, (Except.ok.inj h).symm⟩
                · exact ⟨by simp, (Except.ok.inj h).symm⟩

/-- **A file that was renamed** was there, and is now at the place of its new name. -/
theorem WellFormed.rename_ok (hw : t.WellFormed) (h : t.rename p p' = .ok t')
    (hp : t.lookup (t.placeOf p) ≠ some .directory) :
    t.Reaches p ∧ t.Reaches p' ∧ t.lookup (t.placeOf p) ≠ none ∧
      t.lookup (t.placeOf p') ≠ some .directory ∧
      t.Becomes (movedTo t.lookup (t.placeOf p) (t.placeOf p')) t' := by
  obtain ⟨old, new, entry, replaced, hold, hnew, hentry, hreplaced, hcases⟩ := rename_cases h
  obtain ⟨hs, hv⟩ := at?_ok hentry
  obtain ⟨hs', rfl⟩ := at?_ok hreplaced
  rw [hw.place_eq_placeOf hold] at hv hcases
  rw [hw.place_eq_placeOf hnew] at hcases
  obtain ⟨hslash, hslash', hcases⟩ := hcases (isDirectory_of_lookup hv.symm hp)
  obtain ⟨hreach, -⟩ := hw.reaches_of_spot? hold hslash hs
  obtain ⟨hreach', -⟩ := hw.reaches_of_spot? hnew hslash' hs'
  refine ⟨hreach, hreach', by simp [← hv], ?_⟩
  rcases hcases with ⟨heq, rfl⟩ | ⟨hne, hdir, rfl⟩
  · rw [← heq, movedTo_self]
    exact ⟨hp, hw.becomes_self⟩
  · exact ⟨hdir, hw.becomes_move hne hp hdir (hreach'.tail_eq hw)⟩

/-- A file that is there can be renamed, unless a directory has the new name. -/
theorem Reaches.rename_eq (h : t.Reaches p) (h' : t.Reaches p') (hw : t.WellFormed)
    (hthere : t.lookup (t.placeOf p) ≠ none)
    (hp : t.lookup (t.placeOf p) ≠ some .directory)
    (hp' : t.lookup (t.placeOf p') ≠ some .directory) : ∃ t', t.rename p p' = .ok t' := by
  obtain ⟨d, hspot, hs⟩ := h
  obtain ⟨d', hspot', hs'⟩ := h'
  rw [hspot.placeOf_eq hw] at hthere hp
  rw [hspot'.placeOf_eq hw] at hp'
  -- Nothing can lie below either place, so that neither is above the other's directory.
  have habove : ¬(p.lastName :: d <:+ d') := fun hsuffix => by
    by_cases hne : p.lastName :: d = d'
    · exact hp (hne ▸ hspot'.directory)
    · exact hp (hw.directory_of_suffix (by simp [hspot'.directory]) hsuffix hne)
  have habove' : ¬(p'.lastName :: d' <:+ d) := fun hsuffix => by
    by_cases hne : p'.lastName :: d' = d
    · exact hp' (hne ▸ hspot.directory)
    · exact hp' (hw.directory_of_suffix (by simp [hspot.directory]) hsuffix hne)
  obtain ⟨entry, hv⟩ := Option.ne_none_iff_exists'.mp hthere
  have hfile := isDirectory_of_lookup hv hp
  unfold rename
  rw [hspot.spot?_eq, hspot'.spot?_eq]
  simp only [bind, Except.bind, at?_eq (s := ⟨d, p.lastName, false⟩) hs,
    at?_eq (s := ⟨d', p'.lastName, false⟩) hs', Spot.place, hv, hfile]
  simp only [Bool.not_false, Bool.or_self, Bool.and_false, Bool.false_eq_true, if_false, habove,
    habove']
  by_cases heq : p.lastName :: d = p'.lastName :: d'
  · rw [if_pos heq]
    exact ⟨_, rfl⟩
  · rw [if_neg heq]
    rcases hv' : t.lookup (p'.lastName :: d') with _ | (_ | b | _)
    · exact ⟨_, rfl⟩
    · exact absurd hv' hp'
    · exact ⟨_, rfl⟩
    · exact ⟨_, rfl⟩

end Tree

/-! ### Running single operations -/

namespace Program

variable (p p' : Path) (t : Tree)

@[simp] theorem run_read : (read p).run t = (t.read p, t) := rfl

@[simp] theorem run_exists? : (exists? p).run t = (t.exists? p, t) := rfl

@[simp] theorem run_isDirectory : (isDirectory p).run t = (t.isDirectory p, t) := rfl

@[simp] theorem run_makeDirectory :
    (makeDirectory p).run t = t.commit (t.makeDirectory p) := rfl

@[simp] theorem run_write (bytes : ByteArray) :
    (write p bytes).run t = t.commit (t.write p bytes) := rfl

@[simp] theorem run_rename : (rename p p').run t = t.commit (t.rename p p') := rfl

@[simp] theorem run_remove : (remove p).run t = t.commit (t.remove p) := rfl

end Program

@[simp] theorem Tree.commit_ok (t t' : Tree) : t.commit (.ok t') = (.ok (), t') := rfl

@[simp] theorem Tree.commit_error (t : Tree) (e : Error) :
    t.commit (.error e) = (.error e, t) := rfl

end Packetry.Disk
