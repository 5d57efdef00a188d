import Packetry.Proofs.Missing
import Packetry.Proofs.Reading

/-!
# One file after another

Files are published in the order of a list, and as soon as one of them fails, no other is published
(`Packetry.publishAll_cons_eq`). One file is left alone if it has the digest of its source already,
and is replaced otherwise (`Packetry.publishFile_eq`).

* `Packetry.publishFile_run`: what publishing one file can do to a tree.
-/

namespace Packetry

open Disk

variable {t t' : Tree} {file : Path × Path}

/-! ### What publishing does -/

/-- Publishing one file reads the source and the digest of the file, and replaces the file if the
digests are different. -/
theorem publishFile_eq (source target : Path) (t : Tree) :
    (publishFile source target).run t =
      match t.read source, ((digestOf target).run t).1 with
      | .error e, _ => (.error (.write (.access source e)), t)
      | .ok _, .error e => (.error (.write (.access target e)), t)
      | .ok bytes, .ok current =>
        if current = some (digest bytes) then (.ok (.unchanged target), t)
        else
          match (replaceFile target bytes).run t with
          | (.error failure, t') => (.error (.write failure), t')
          | (.ok (), t') => (.ok (.written target), t') := by
  have hsame : ((digestOf target).run t).2 = t := by rw [digestOf_run]
  unfold publishFile
  rw [Program.run_bind, Program.run_read]
  cases t.read source with
  | error e => rfl
  | ok bytes =>
    dsimp only
    rw [Program.run_bind, hsame]
    cases ((digestOf target).run t).1 with
    | error e => rfl
    | ok current =>
      dsimp only
      split
      · rfl
      · rw [Program.run_bind]
        obtain ⟨_ | _, t'⟩ := (replaceFile target bytes).run t <;> rfl

/-- The first file is published before the others, which are not published if it cannot be. -/
theorem publishAll_cons_eq (file : Path × Path) (files : List (Path × Path)) (t : Tree) :
    (publishAll (file :: files)).run t =
      match (publishFile file.1 file.2).run t with
      | (.error failure, t₁) => (.error failure, t₁)
      | (.ok outcome, t₁) =>
        (((publishAll files).run t₁).1.map (outcome :: ·), ((publishAll files).run t₁).2) := by
  rw [publishAll, Program.run_bind]
  obtain ⟨_ | outcome, t₁⟩ := (publishFile file.1 file.2).run t
  · rfl
  · dsimp only
    rw [Program.run_bind]
    obtain ⟨_ | outcomes, t₂⟩ := (publishAll files).run t₁ <;> rfl

/-- Where all files are published, the first one is, and then the others are. -/
theorem publishAll_cons_ok {files : List (Path × Path)} {outcomes : List Outcome}
    (h : (publishAll (file :: files)).run t = (.ok outcomes, t')) :
    ∃ outcome t₁ rest, (publishFile file.1 file.2).run t = (.ok outcome, t₁) ∧
      (publishAll files).run t₁ = (.ok rest, t') ∧ outcomes = outcome :: rest := by
  obtain ⟨outcome, t₁, hfirst, h₁⟩ := Program.run_bind_ok h fun _ _ => rfl
  obtain ⟨rest, t₂, hrest, h₂⟩ := Program.run_bind_ok h₁ fun _ _ => rfl
  obtain rfl : t₂ = t' := (Prod.mk.inj h₂).2
  exact ⟨outcome, t₁, rest, hfirst, hrest, (Except.ok.inj (Prod.mk.inj h₂).1).symm⟩

/-- A file that has the digest of its source already is left alone. -/
theorem publishFile_of_digest {source target : Path} {bytes : ByteArray}
    (hsource : t.read source = .ok bytes)
    (hdigest : ((digestOf target).run t).1 = .ok (some (digest bytes))) :
    (publishFile source target).run t = (.ok (.unchanged target), t) := by
  rw [publishFile_eq, hsource, hdigest]
  exact if_pos rfl

/-- Files that have the digests of their sources already are left alone. -/
theorem publishAll_of_digests (files : List (Path × Path))
    (h : ∀ file ∈ files, ∃ bytes, t.read file.1 = .ok bytes ∧
      ((digestOf file.2).run t).1 = .ok (some (digest bytes))) :
    (publishAll files).run t = (.ok (files.map fun file => .unchanged file.2), t) := by
  induction files with
  | nil => rfl
  | cons file files ih =>
    obtain ⟨⟨bytes, hsource, hdigest⟩, hrest⟩ := List.forall_mem_cons.mp h
    rw [publishAll_cons_eq, publishFile_of_digest hsource hdigest]
    dsimp only
    rw [ih hrest]
    rfl

/-! ### What publishing one file can do -/

/-- What publishing one file can do to a tree. -/
inductive Publishing (t : Tree) (file : Path × Path) : Except Failure Outcome → Tree → Prop where
  /-- The file has the digest of its source, and nothing has changed. -/
  | unchanged {bytes bytes' : ByteArray} (hsource : t.read file.1 = .ok bytes)
    (htarget : t.read file.2 = .ok bytes') (hdigest : digest bytes' = digest bytes) :
    Publishing t file (.ok (.unchanged file.2)) t
  /-- The file was replaced. -/
  | written {bytes : ByteArray} {t₁ t' : Tree} (hsource : t.read file.1 = .ok bytes)
    (htarget : ∀ bytes', t.read file.2 = .ok bytes' → digest bytes' ≠ digest bytes)
    (h : Replaced t t₁ t' file.2 bytes) : Publishing t file (.ok (.written file.2)) t'
  /-- Nothing but the copy has been touched. -/
  | failed {t' : Tree} (failure : Failure)
    (h : Tree.Spares (· = t.placeOf (stagingPath file.2)) t t') :
    Publishing t file (.error failure) t'

/-- A digest that is found is that of bytes that are read. -/
theorem digestOf_ok {p : Path} {current : Option String} {d : String}
    (h : ((digestOf p).run t).1 = .ok current) :
    current = some d ↔ ∃ bytes, t.read p = .ok bytes ∧ digest bytes = d := by
  rw [digestOf_run] at h
  cases hread : t.read p with
  | ok bytes =>
    rw [hread] at h
    obtain rfl := Except.ok.inj h
    simp
  | error e =>
    rw [hread] at h
    cases e with
    | notFound =>
      obtain rfl := Except.ok.inj h
      simp
    | _ => cases h

/-- **Publishing one file** leaves it alone or replaces it, or else touches nothing but its copy. -/
theorem publishFile_run (file : Path × Path) (hw : t.WellFormed) :
    Publishing t file ((publishFile file.1 file.2).run t).1
      ((publishFile file.1 file.2).run t).2 := by
  rw [publishFile_eq]
  cases hsource : t.read file.1 with
  | error e => exact .failed _ hw.spares_self
  | ok bytes =>
    cases hcurrent : ((digestOf file.2).run t).1 with
    | error e => exact .failed _ hw.spares_self
    | ok current =>
      dsimp only
      by_cases hdigest : current = some (digest bytes)
      · obtain ⟨bytes', htarget, heq⟩ := (digestOf_ok hcurrent).mp hdigest
        rw [if_pos hdigest]
        exact .unchanged hsource htarget heq
      -- A file that does not have the digest of its source is replaced.
      · have htarget : ∀ bytes', t.read file.2 = .ok bytes' → digest bytes' ≠ digest bytes :=
          fun bytes' hread heq => hdigest ((digestOf_ok hcurrent).mpr ⟨bytes', hread, heq⟩)
        rw [if_neg hdigest]
        have hreplaced := replaceFile_run file.2 bytes hw
        generalize (replaceFile file.2 bytes).run t = answer at hreplaced ⊢
        obtain ⟨result, t'⟩ := answer
        dsimp only at hreplaced
        rcases hreplaced with ⟨rfl, t₁, hone⟩ | ⟨⟨failure, rfl⟩, hspares⟩
        · exact .written hsource htarget hone
        · exact .failed _ hspares

end Packetry
