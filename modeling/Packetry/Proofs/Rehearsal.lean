import Packetry.Proofs.Abandoned
import Packetry.Proofs.DryRun
import Mathlib.Data.List.Dedup

/-!
# Rehearsals

The same calls are made on a dry transaction and on a real one, and then both are committed. The
real one keeps a list of copies, and looks at the targets when it is committed; the dry one keeps a
list of what it has found, and looks at the targets at once. The answer of the dry one is what the
tree says of everything that was ever staged (`Packetry.Transaction.commitAfter_dry`), whereas the
real one answers for what was staged since it was given up for the last time
(`Packetry.Transaction.keptOf`). A dry transaction that is given up forgets nothing.

So the dry one says in advance what the real one does if nothing was staged before some content was
given up (`Packetry.Transaction.commitAfter_inAdvance`), and what it says in the end is right in any
case. There is one more condition, for paths that step upwards. A path such as `d/../y` leads
nowhere while `d` is missing; the real transaction makes `d` for its copy, and may then find that
the file has the content already (`Packetry.Disk.Tree.Veils`).
-/

namespace Packetry

open Disk

/-- What a dry transaction says of a file of which a real one says this. -/
def Outcome.inAdvance : Outcome → Outcome
  | written p => wouldWrite p
  | unchanged p => unchanged p
  | wouldWrite p => wouldWrite p

namespace Disk.Tree

variable {t t' : Tree} {p : Path} {q place : Place} {file : Path × ByteArray}

/-- What a dry transaction says of a content that is staged. -/
def foresee (t : Tree) (file : Path × ByteArray) : Except WriteFailure Outcome :=
  match t.read file.1 with
  | .ok old => .ok (if digest old = digest file.2 then .unchanged file.1 else .wouldWrite file.1)
  | .error .notFound => .ok (.wouldWrite file.1)
  | .error e => .error (.access file.1 e)

theorem foresee_of_read {old : ByteArray} (h : t.read file.1 = .ok old) : t.foresee file =
    .ok (if digest old = digest file.2 then .unchanged file.1 else .wouldWrite file.1) := by
  rw [foresee, h]

theorem foresee_of_notFound (h : t.read file.1 = .error .notFound) :
    t.foresee file = .ok (.wouldWrite file.1) := by
  rw [foresee, h]

/-- Something is said of no file but one that is there or is missing. -/
theorem isClear_of_foresee {outcome : Outcome} (h : t.foresee file = .ok outcome) :
    t.IsClear file.1 := by
  unfold foresee at h
  split at h
  · rename_i hread
    exact Or.inl ⟨_, hread⟩
  · rename_i hread
    exact Or.inr hread
  · cases h

/-- **A tree veils a file** that has the content which is staged for it: the path of the file leads
nowhere, since it goes through a directory that is missing. -/
def Veils (t : Tree) (file : Path × ByteArray) : Prop :=
  t.read file.1 = .error .notFound ∧ t.Matches file.1 file.2

/-- A file that can be reached now was there before, or was missing, if every directory was one
before or was missing. -/
theorem Reaches.isClear (h : t'.Reaches p) (hw : t.WellFormed)
    (hdir : ∀ r, t'.lookup r = some .directory → t.lookup r = none ∨ t.lookup r = some .directory)
    (hcwd : t'.workingDirectory = t.workingDirectory)
    (hbase : t.lookup (t.base p) = some .directory)
    (hfile : t.lookup (t.placeOf p) ≠ some .directory) : t.IsClear p := by
  obtain ⟨d, hspot, hs⟩ := h
  have hwalk := hspot.walk
  rw [show t'.base p = t.base p by simp [base, hcwd]] at hwalk
  rcases hw.walk_before hdir hbase hwalk hspot.directory with hwalk | hwalk
  · have hthere := (hw.walk_ok (by simp [hbase]) hwalk).2
    have hreach : t.Reaches p :=
      ⟨d, ⟨hspot.walkable, hspot.proper, hwalk, (hdir d hspot.directory).resolve_left hthere⟩, hs⟩
    unfold IsClear
    rw [hreach.read_eq hw]
    generalize t.lookup (t.placeOf p) = x at hfile ⊢
    rcases x with _ | (_ | bytes | _)
    · exact Or.inr rfl
    · exact absurd rfl hfile
    · exact Or.inl ⟨bytes, rfl⟩
    · exact Or.inl ⟨.empty, rfl⟩
  · refine Or.inr ?_
    unfold read find
    rw [start_eq t hspot.walkable, p.names_eq]
    simp only [bind, Except.bind, walk_append, hwalk]

end Disk.Tree

namespace Transaction

variable {t t' t₁ : Tree} {x x' : Transaction} {calls : List Call} {outcomes found : List Outcome}
  {kept : List (Path × ByteArray)} {file : Path × ByteArray}

/-! ### What is staged and what is kept -/

/-- The contents that a call stages. -/
def Call.stages : Call → List (Path × ByteArray)
  | stage target content => [(target, content)]
  | rollback => []

/-- The contents that are staged after a call. -/
def Call.keep (kept : List (Path × ByteArray)) : Call → List (Path × ByteArray)
  | stage target content => kept ++ [(target, content)]
  | rollback => []

/-- The contents that some calls stage. -/
def stagedBy (calls : List Call) : List (Path × ByteArray) :=
  calls.flatMap Call.stages

/-- The contents that are staged when the calls have been made: those that were staged after
everything was given up for the last time. -/
def keptOf (calls : List Call) : List (Path × ByteArray) :=
  calls.foldl Call.keep []

theorem foldl_keep_suffix (kept : List (Path × ByteArray)) (calls : List Call) :
    calls.foldl Call.keep kept <:+ kept ++ stagedBy calls := by
  induction calls generalizing kept with
  | nil => simp [stagedBy]
  | cons call calls ih =>
    cases call with
    | stage target content =>
      simpa [stagedBy, Call.stages, Call.keep] using ih (kept ++ [(target, content)])
    | rollback =>
      refine List.IsSuffix.trans ?_ (List.suffix_append kept (stagedBy calls))
      simpa [Call.keep] using ih []

/-- What is kept was staged last. -/
theorem keptOf_suffix (calls : List Call) : keptOf calls <:+ stagedBy calls := by
  simpa [keptOf] using foldl_keep_suffix [] calls

/-- The targets that calls name are those for which they stage contents. -/
theorem named_eq (calls : List Call) :
    calls.flatMap Call.named = (stagedBy calls).map (·.1) := by
  rw [stagedBy, List.map_flatMap]
  congr 1
  funext call
  cases call with
  | stage target content => rfl
  | rollback => rfl

theorem mem_named (hfile : file ∈ keptOf calls) : file.1 ∈ calls.flatMap Call.named := by
  rw [named_eq]
  exact List.mem_map_of_mem ((keptOf_suffix calls).subset hfile)

/-! ### Calls and a commit -/

/-- One call after another, as long as they succeed. -/
def callEach (x : Transaction) : List Call → Program (Except WriteFailure Transaction)
  | [] => return .ok x
  | call :: rest => do
    match ← call.perform x with
    | (.error failure, _) => return .error failure
    | (.ok (), x') => callEach x' rest

/-- A commit after some calls, if all of them succeed. -/
def commitAfter (isDry : Bool) (calls : List Call) :
    Program (Except WriteFailure (List Outcome)) := do
  match ← callEach (.new isDry) calls with
  | .error failure => return .error failure
  | .ok x => x.commit

/-! ### The dry transaction -/

theorem compare_run_foresee (t : Tree) (file : Path × ByteArray) :
    (compare file.1 (Packetry.digest file.2)).run t = (t.foresee file, t) := by
  unfold compare Tree.foresee
  rw [Program.run_bind, digestOf_run]
  cases t.read file.1 with
  | ok old => simp
  | error e => cases e <;> rfl

/-- A dry transaction is given up without any effect. -/
theorem rollback_dry (planned : List Outcome) (t : Tree) :
    (rollback ⟨true, [], planned⟩).run t = (⟨true, [], planned⟩, t) := rfl

theorem callEach_dry (calls : List Call) (planned : List Outcome) (t : Tree) :
    (callEach ⟨true, [], planned⟩ calls).run t =
      (((stagedBy calls).mapM t.foresee).map fun found => ⟨true, [], planned ++ found⟩, t) := by
  -- What was said before the calls stays in front, whatever it is.
  induction calls generalizing planned with
  | nil =>
    rw [callEach, Program.run_pure, stagedBy, List.flatMap_nil, List.mapM_nil]
    simp [Except.map, pure, Except.pure]
  | cons call calls ih =>
    unfold callEach
    rw [Program.run_bind]
    cases call with
    | rollback =>
      simp only [Call.perform, Program.run_bind, rollback_dry, Program.run_pure]
      exact ih planned
    | stage target content =>
      have hcompare := compare_run_foresee t (target, content)
      simp only [Call.perform, stage, if_true, Program.run_bind]
      rw [hcompare, stagedBy, List.flatMap_cons, Call.stages, List.singleton_append, List.mapM_cons]
      cases t.foresee (target, content) with
      | error failure => rfl
      | ok outcome =>
        have hrest := ih (planned ++ [outcome])
        simp only [Program.run_pure, hrest, stagedBy]
        cases (calls.flatMap Call.stages).mapM t.foresee with
        | error failure => rfl
        | ok found => simp [bind, Except.bind, Except.map, pure, Except.pure]

/-- **What a dry transaction says** is what the tree says of everything that was staged. -/
theorem commitAfter_dry (calls : List Call) (t : Tree) :
    (commitAfter true calls).run t = ((stagedBy calls).mapM t.foresee, t) := by
  unfold commitAfter
  rw [Program.run_bind, new, callEach_dry]
  cases (stagedBy calls).mapM t.foresee with
  | error failure => rfl
  | ok found => rfl

/-! ### The real transaction -/

/-- Staging that succeeds adds to the list. -/
theorem stage_ok (hdry : x.isDry = false)
    (h : (x.stage file.1 file.2).run t = ((.ok (), x'), t')) :
    x' = { x with staged := x.staged ++ [stagedOf file] } := by
  obtain ⟨isDry, list, planned⟩ := x
  obtain rfl : isDry = false := hdry
  unfold stage at h
  simp only [Bool.false_eq_true, if_false, Program.run_bind] at h
  cases hwrite : ((Program.writeWithParents (stagingPath file.1) file.2).run t).1 with
  | error e =>
    simp only [hwrite, Program.run_bind, Program.run_pure] at h
    cases (Prod.mk.inj (Prod.mk.inj h).1).1
  | ok _ =>
    simp only [hwrite, Program.run_pure] at h
    exact (Prod.mk.inj (Prod.mk.inj h).1).2.symm

/-- A call that succeeds. -/
theorem Call.perform_ok {call : Call} (hdry : x.isDry = false)
    (hkept : x.staged = kept.map stagedOf) (h : (call.perform x).run t = ((.ok (), x'), t')) :
    x'.isDry = false ∧ x'.staged = (call.keep kept).map stagedOf := by
  cases call with
  | stage target content =>
    have hstage : (x.stage (target, content).1 (target, content).2).run t = ((.ok (), x'), t') := h
    obtain rfl := stage_ok hdry hstage
    exact ⟨hdry, by rw [hkept, Call.keep, List.map_append]; rfl⟩
  | rollback =>
    simp only [perform, Transaction.rollback, Program.run_bind, Program.run_pure] at h
    obtain rfl := (Prod.mk.inj (Prod.mk.inj h).1).2
    exact ⟨hdry, rfl⟩

/-- Calls all of which succeed are made as if nobody looked at their answers. -/
theorem callEach_ok (hdry : x.isDry = false) (hkept : x.staged = kept.map stagedOf)
    (h : (callEach x calls).run t = (.ok x', t')) :
    (∃ staged, (callAll x calls).run t = ((staged, x'), t')) ∧
      x'.staged = (calls.foldl Call.keep kept).map stagedOf := by
  induction calls generalizing x t kept with
  | nil =>
    obtain ⟨hx, rfl⟩ := Prod.mk.inj h
    obtain rfl := Except.ok.inj hx
    exact ⟨⟨[], rfl⟩, hkept⟩
  | cons call calls ih =>
    unfold callEach at h
    rw [Program.run_bind] at h
    rcases hcall : (call.perform x).run t with ⟨⟨failure | _, x₁⟩, t₁⟩
    · rw [hcall] at h
      cases (Prod.mk.inj h).1
    · rw [hcall] at h
      obtain ⟨hdry₁, hkept₁⟩ := Call.perform_ok hdry hkept hcall
      obtain ⟨⟨staged, hrest⟩, hlist⟩ := ih hdry₁ hkept₁ h
      refine ⟨⟨call.copied (.ok ()) ++ staged, ?_⟩, hlist⟩
      unfold callAll
      rw [Program.run_bind, hcall, Program.run_bind, hrest]
      rfl

/-- **A real transaction before its commit.** -/
structure Prepared (t t₁ : Tree) (calls : List Call) (x : Transaction) : Prop where
  /-- Its copies are on the disk. -/
  holds : ∃ staged, Holds t₁ staged x
  /-- Nothing else has been touched. -/
  keeps : KeepsToCopies (calls.flatMap Call.named) t t₁
  /-- Its list is what was kept. -/
  staged : x.staged = (keptOf calls).map stagedOf

theorem prepared_of_callEach (hw : t.WellFormed)
    (h : (callEach (.new false) calls).run t = (.ok x, t₁)) : Prepared t t₁ calls x := by
  have hempty : (new false).staged = [].map stagedOf := rfl
  obtain ⟨⟨staged, hcalls⟩, hlist⟩ := callEach_ok rfl hempty h
  refine ⟨⟨[] ++ staged, ?_⟩, ?_, hlist⟩
  · have hnew : Holds t [] (.new false) :=
      holds_new hw fun _ htarget => absurd htarget List.not_mem_nil
    have hafter := hnew.callAll calls
    rwa [hcalls] at hafter
  · have hmeets := callAll_meets (stagesFor_new (calls.flatMap Call.named)) (List.Subset.refl _)
    have hafter := ((KeepsToCopies.refl _ hw).throughout hmeets).finish
    rwa [hcalls] at hafter

/-- The targets of some calls and their sides have different places. -/
def ApartFor (t : Tree) (calls : List Call) : Prop :=
  ((sidesOf (calls.flatMap Call.named).dedup).map t.placeOf).Nodup

/-- Each file that is kept has a copy, which is a file and can be reached. -/
theorem Prepared.copy (h : Prepared t t₁ calls x) (hfile : file ∈ keptOf calls) :
    t₁.Reaches (stagingPath file.1) ∧
      t₁.lookup (t₁.placeOf (stagingPath file.1)) ≠ some .directory := by
  obtain ⟨staged, hholds⟩ := h.holds
  have hmem : stagedOf file ∈ x.staged := by
    rw [h.staged]
    exact List.mem_map_of_mem hfile
  exact ⟨hholds.reach (stagedOf file) hmem, hholds.file (stagedOf file) hmem⟩

/-- The copies do not interfere. Targets can be the same, places of different ones are different. -/
theorem Prepared.layout (h : Prepared t t₁ calls x) (hapart : ApartFor t calls) :
    Layout t₁ x.staged := by
  have hplaces :
      (placesOf t₁ ((calls.flatMap Call.named).dedup.map fun p => (p, .empty))).Nodup := by
    rw [placesOf_eq, List.map_map, funext h.keeps.spares.placeOf_eq]
    simpa [ApartFor, Function.comp_def] using hapart
  have hmem : ∀ file ∈ keptOf calls, ((file.1, .empty) : Path × ByteArray) ∈
      (calls.flatMap Call.named).dedup.map fun p => (p, .empty) := fun file hfile =>
    List.mem_map_of_mem (List.mem_dedup.mpr (mem_named hfile))
  rw [h.staged]
  refine layout_of_disjoint (fun file hfile => ?_) (fun a ha b hb => ?_)
    (fun file hfile => (h.copy hfile).2) (fun file hfile _ => (h.copy hfile).1)
  · have hown := nodup_placesOf hplaces (hmem file hfile)
    exact hown
  · have hpaths := eq_or_disjoint hplaces (hmem a ha) (hmem b hb)
    exact hpaths.imp_left fun heq => (Prod.mk.inj heq).1

/-- **A file that a commit has dealt with**, in the tree in which the commit was made. -/
structure Answered (t t₁ : Tree) (file : Path × ByteArray) : Prop where
  /-- It can be reached. -/
  reach : t₁.Reaches file.1
  /-- It has not changed. -/
  lookup : t₁.lookup (t.placeOf file.1) = t.lookup (t.placeOf file.1)
  /-- It is no directory. -/
  file : t.lookup (t.placeOf file.1) ≠ some .directory

/-- **The answers of a commit** are those for what was kept. -/
theorem Prepared.commit_ok (h : Prepared t t₁ calls x) (hapart : ApartFor t calls)
    (hcommit : x.commit.run t₁ = (.ok outcomes, t')) :
    outcomes = (keptOf calls).map (fun file => outcomeOf t₁ (stagedOf file)) ∧
      ∀ file ∈ keptOf calls, Answered t t₁ file := by
  obtain ⟨staged, hholds⟩ := h.holds
  have hplace := h.keeps.spares.placeOf_eq
  have hfinished := commit_run hholds.wellFormed hholds.isDry (h.layout hapart)
  rw [hcommit, h.staged] at hfinished
  cases hfinished with
  | committed hcommitted =>
    refine ⟨by rw [List.map_map]; rfl, fun file hfile => ?_⟩
    -- No target is a copy, so that staging has not touched it.
    have hcopies : ¬IsCopyFor t (calls.flatMap Call.named) (t.placeOf file.1) := by
      rintro ⟨target, htarget, heq⟩
      exact (Tree.ne_sides_of_nodup hapart (List.mem_dedup.mpr (mem_named hfile))
        (List.mem_dedup.mpr htarget)).1 heq
    have hreached : t₁.Reaches file.1 ∧ t₁.lookup (t.placeOf file.1) ≠ some .directory := by
      rw [← hplace]
      cases hcurrent : (stagedOf file).isCurrent t₁ with
      | true =>
        obtain ⟨bytes, hread, -⟩ := Staged.isCurrent_iff.mp hcurrent
        obtain ⟨hreach, hbytes⟩ : t₁.Reaches file.1 ∧
            Tree.bytesOf (t₁.lookup (t₁.placeOf file.1)) = some bytes :=
          hholds.wellFormed.read_ok_iff.mp hread
        exact ⟨hreach, (Tree.bytesOf_ne_none.mp (by rw [hbytes]; simp)).2⟩
      | false =>
        have hswappable := hcommitted.swappable _ (List.mem_map_of_mem hfile) hcurrent
        exact ⟨hswappable.target, hswappable.file⟩
    have hsame := h.keeps.spares.lookup_eq_of_ne hcopies hreached.2
    exact ⟨hreached.1, hsame, hsame ▸ hreached.2⟩

/-! ### One file -/

/-- A copy is current if its target, which can be reached, has the digest of the content. -/
theorem isCurrent_iff_matches (hw : t.WellFormed) (h : t.Reaches file.1) :
    (stagedOf file).isCurrent t = true ↔ t.Matches file.1 file.2 := by
  rw [Staged.isCurrent_iff, Tree.Matches, Option.map_eq_some_iff]
  refine exists_congr fun bytes => and_congr_left fun _ => ?_
  rw [hw.read_ok_iff]
  exact and_iff_right h

theorem outcomeOf_inAdvance (hw : t₁.WellFormed) (h : Answered t t₁ file)
    (hcwd : t₁.workingDirectory = t.workingDirectory) :
    (outcomeOf t₁ (stagedOf file)).inAdvance =
      if t.Matches file.1 file.2 then .unchanged file.1 else .wouldWrite file.1 := by
  have hmatches := isCurrent_iff_matches hw h.reach
  rw [Tree.matches_congr hcwd h.lookup] at hmatches
  unfold outcomeOf
  by_cases hm : t.Matches file.1 file.2
  · rw [if_pos (hmatches.mpr hm), if_pos hm]
    rfl
  · rw [if_neg (mt hmatches.mp hm), if_neg hm]
    rfl

/-- **What is said of a clear file** is what its commit answers, unless the file is veiled. -/
theorem Prepared.foresee_iff (h : Prepared t t₁ calls x) (hw : t.WellFormed)
    (hanswered : Answered t t₁ file) (hclear : t.IsClear file.1) :
    t.foresee file = .ok (outcomeOf t₁ (stagedOf file)).inAdvance ↔ ¬t.Veils file := by
  rw [outcomeOf_inAdvance h.keeps.spares.wellFormed hanswered h.keeps.spares.workingDirectory]
  rcases hclear with ⟨old, hread⟩ | hread
  · simp only [Tree.foresee_of_read hread, Tree.matches_iff hw hread, Tree.Veils, hread,
      reduceCtorEq, false_and, not_false_eq_true]
  -- The file cannot be read, and only what is at its place tells what the commit will find.
  · rw [Tree.foresee_of_notFound hread, Tree.Veils, and_iff_right hread]
    by_cases hmatches : t.Matches file.1 file.2
    · simp [hmatches]
    · simp [hmatches]

/-! ### All files -/

/-- **If nothing was given up, all files are clear**: copies that are files now hide no directory
of the tree. -/
theorem Prepared.isClear (h : Prepared t t₁ calls x) (hw : t.WellFormed)
    (hcwd : t.lookup t.workingDirectory = some .directory) (hkept : keptOf calls = stagedBy calls)
    (hanswered : Answered t t₁ file) : t.IsClear file.1 := by
  refine hanswered.reach.isClear hw (fun q hq => ?_) h.keeps.spares.workingDirectory ?_
    hanswered.file
  · by_cases hcopy : IsCopyFor t (calls.flatMap Call.named) q
    · obtain ⟨target, htarget, rfl⟩ := hcopy
      rw [named_eq, ← hkept] at htarget
      obtain ⟨other, hother, rfl⟩ := List.mem_map.mp htarget
      rw [← h.keeps.spares.placeOf_eq] at hq
      exact absurd hq (h.copy hother).2
    · rcases h.keeps.spares.lookup q hcopy with heq | ⟨hnone, -⟩
      · exact Or.inr (heq ▸ hq)
      · exact Or.inl hnone
  · unfold Tree.base
    split
    · rfl
    · exact hcwd

/-- **A dry transaction says in advance what a real one does**, if and only if what was staged is
what was kept, and no file is veiled. It leaves the tree as it is in any case. If it succeeds, and
no file that was kept is veiled, then what it says in the end is what the real one does. -/
theorem commitAfter_inAdvance (hw : t.WellFormed)
    (hcwd : t.lookup t.workingDirectory = some .directory) (hapart : ApartFor t calls)
    (h : (commitAfter false calls).run t = (.ok outcomes, t')) :
    ((commitAfter true calls).run t = (.ok (outcomes.map Outcome.inAdvance), t) ↔
      keptOf calls = stagedBy calls ∧ ∀ file ∈ keptOf calls, ¬t.Veils file) ∧
    ((commitAfter true calls).run t).2 = t ∧
    ∀ found, ((commitAfter true calls).run t).1 = .ok found →
      (∀ file ∈ keptOf calls, ¬t.Veils file) → outcomes.map Outcome.inAdvance <:+ found := by
  obtain ⟨x, t₁, hcalls, hcommit⟩ := Program.run_bind_ok h fun _ _ => rfl
  have hprepared := prepared_of_callEach hw hcalls
  obtain ⟨rfl, hanswered⟩ := hprepared.commit_ok hapart hcommit
  rw [commitAfter_dry, List.map_map, Prod.mk.injEq, and_iff_left rfl]
  refine ⟨⟨fun hdry => ?_, fun ⟨hkept, hveils⟩ => ?_⟩, rfl, fun found hdry hveils => ?_⟩
  -- As many contents were kept as the dry transaction has seen, so that it has seen no other.
  · have hsaid := mapM_eq_ok_iff.mp hdry
    have hkept : keptOf calls = stagedBy calls := by
      refine (keptOf_suffix calls).eq_of_length ?_
      rw [hsaid.length_eq, List.length_map]
    rw [← hkept, List.forall₂_map_right_iff, List.forall₂_same] at hsaid
    refine ⟨hkept, fun file hfile => ?_⟩
    have hclear := Tree.isClear_of_foresee (hsaid file hfile)
    exact (hprepared.foresee_iff hw (hanswered file hfile) hclear).mp (hsaid file hfile)
  · rw [← hkept, mapM_eq_ok_iff, List.forall₂_map_right_iff, List.forall₂_same]
    intro file hfile
    have hclear := hprepared.isClear hw hcwd hkept (hanswered file hfile)
    exact (hprepared.foresee_iff hw (hanswered file hfile) hclear).mpr (hveils file hfile)
  -- What was said in the end was said of what was kept.
  · obtain ⟨before, hparts⟩ := keptOf_suffix calls
    have hsaid := List.forall₂_drop before.length (mapM_eq_ok_iff.mp hdry)
    rw [← hparts, List.drop_left] at hsaid
    have hlast : found.drop before.length =
        (keptOf calls).map fun file => (outcomeOf t₁ (stagedOf file)).inAdvance := by
      rw [← List.map_id (found.drop before.length)]
      refine map_eq_of_forall₂ ((List.forall₂_and_left _ _).mpr ⟨fun _ => id, hsaid⟩) ?_
      rintro file outcome ⟨hfile, hfile'⟩
      have hclear := Tree.isClear_of_foresee hfile'
      have hright :=
        (hprepared.foresee_iff hw (hanswered file hfile) hclear).mpr (hveils file hfile)
      exact Except.ok.inj (hfile'.symm.trans hright)
    exact hlast ▸ List.drop_suffix before.length found

/-- A content is staged and given up, and then two others are. The dry transaction says that the
first one would be written as well. -/
theorem commitAfter_inAdvance_rollback :
    let t : Tree := ⟨[(["b"], .file "B".toUTF8)], []⟩
    let t' : Tree := ⟨[(["b"], .file "B".toUTF8), (["d"], .directory),
      (["c", "d"], .file "C".toUTF8)], []⟩
    let calls : List Call :=
      [.stage ⟨"a"⟩ "A".toUTF8, .rollback, .stage ⟨"b"⟩ "B".toUTF8, .stage ⟨"d/c"⟩ "C".toUTF8]
    let outcomes : List Outcome := [.unchanged ⟨"b"⟩, .written ⟨"d/c"⟩]
    let found : List Outcome := [.wouldWrite ⟨"a"⟩, .unchanged ⟨"b"⟩, .wouldWrite ⟨"d/c"⟩]
    t.WellFormed ∧ t.lookup t.workingDirectory = some .directory ∧ ApartFor t calls ∧
      (commitAfter false calls).run t = (.ok outcomes, t') ∧
      ((commitAfter true calls).run t).1 = .ok found ∧ ((commitAfter true calls).run t).2 = t ∧
      (commitAfter true calls).run t ≠ (.ok (outcomes.map Outcome.inAdvance), t) ∧
      outcomes.map Outcome.inAdvance <:+ found := by
  intro t t' calls outcomes found
  have hw : t.WellFormed := by decide
  have hcwd : t.lookup t.workingDirectory = some .directory := rfl
  have hapart : ApartFor t calls := by
    unfold ApartFor
    decide
  have hreal : (commitAfter false calls).run t = (.ok outcomes, t') := by decide +kernel
  have hfound : ((commitAfter true calls).run t).1 = .ok found := by decide +kernel
  obtain ⟨hiff, hsame, hsuffix⟩ := commitAfter_inAdvance hw hcwd hapart hreal
  refine ⟨hw, hcwd, hapart, hreal, hfound, hsame, fun heq => ?_, hsuffix found hfound ?_⟩
  · have hkept : keptOf calls = stagedBy calls := (hiff.mp heq).1
    exact absurd (congrArg List.length hkept) (by decide)
  · have hclear : ∀ file ∈ keptOf calls,
        (t.read file.1).isOk = true ∨ ¬t.Matches file.1 file.2 := by
      decide
    rintro file hfile ⟨hread, hmatches⟩
    rcases hclear file hfile with hok | hnot
    · rw [hread] at hok
      cases hok
    · exact hnot hmatches

/-- The path `d/../b` leads nowhere while `d` is missing, although the file has the content. -/
example :
    let t : Tree := ⟨[(["b"], .file "B".toUTF8)], []⟩
    let calls : List Call := [.stage ⟨"d/../b"⟩ "B".toUTF8]
    ((commitAfter false calls).run t).1 = .ok [.unchanged ⟨"d/../b"⟩] ∧
      ((commitAfter true calls).run t).1 = .ok [.wouldWrite ⟨"d/../b"⟩] := by
  decide +kernel

end Transaction

end Packetry
