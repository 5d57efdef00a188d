import Packetry.Proofs.Above
import Packetry.Proofs.Interruption
import Packetry.Proofs.Staging
import Mathlib.Logic.Relation

/-!
# Transactions that are given up

Whoever works with a transaction stages contents, some of which may fail, and gives up what was
staged, in any order and any number of times. In the end the transaction is dropped, which gives up
what is left.

Whatever the calls are, they ask for no operation but on copies and on the directories above them
(`Packetry.Transaction.callAll_meets`). So at every moment, also between two operations of one call,
nothing else has been touched (`Packetry.KeepsToCopies`).

What the transaction has in its list, on the other hand, is what is on the disk
(`Packetry.Transaction.Holds`): each copy of the list can be reached and removed, and every other
copy that was ever staged is gone. So nothing is left of them when the list is empty. A target can
be in the list more than once, and a directory can be where a copy was, since it may be needed for a
later one.
-/

namespace Packetry

open Disk

variable {t t' t'' : Tree} {targets : List Path} {target p : Path}

/-- No file is at the place of a path. -/
def Disk.Tree.IsVacant (t : Tree) (p : Path) : Prop :=
  t.lookup (t.placeOf p) = none ∨ t.lookup (t.placeOf p) = some .directory

instance (t : Tree) (p : Path) : Decidable (t.IsVacant p) :=
  inferInstanceAs (Decidable (_ ∨ _))

/-! ### What a transaction may touch -/

/-- The path of a directory above a path: its parent, or the parent of one above it. -/
def Path.IsAbove (q p : Path) : Prop :=
  Relation.TransGen (fun p q => p.parent? = some q) p q

/-- The place of the copy for one of the targets. -/
def IsCopyFor (t : Tree) (targets : List Path) (q : Place) : Prop :=
  ∃ target ∈ targets, q = t.placeOf (stagingPath target)

/-- The place of a directory above the copy for one of the targets. -/
def IsAboveCopy (t : Tree) (targets : List Path) (q : Place) : Prop :=
  ∃ target ∈ targets, ∃ p : Path, p.IsAbove (stagingPath target) ∧ q = t.placeOf p

/-- **Nothing but the copies for some targets has been touched.** -/
structure KeepsToCopies (targets : List Path) (t t' : Tree) : Prop where
  /-- No directory is gone. Elsewhere all is what it was, unless a directory was added. -/
  spares : Tree.Spares (IsCopyFor t targets) t t'
  /-- Nothing was added but above the copies. -/
  alike : Tree.AlikeOutside (fun q => IsCopyFor t targets q ∨ IsAboveCopy t targets q) t t'

theorem KeepsToCopies.refl (targets : List Path) (hw : t.WellFormed) : KeepsToCopies targets t t :=
  ⟨hw.spares_self, .refl _ t⟩

theorem KeepsToCopies.mono {targets' : List Path} (h : KeepsToCopies targets t t')
    (hsub : targets ⊆ targets') : KeepsToCopies targets' t t' := by
  refine ⟨h.spares.mono ?_, h.alike.mono ?_⟩
  · rintro q ⟨target, htarget, hq⟩
    exact ⟨target, hsub htarget, hq⟩
  · rintro q (⟨target, htarget, hq⟩ | ⟨target, htarget, hq⟩)
    · exact Or.inl ⟨target, hsub htarget, hq⟩
    · exact Or.inr ⟨target, hsub htarget, hq⟩

/-- A change at the place of a copy. -/
theorem KeepsToCopies.update {x : Option Disk.Entry} (h : KeepsToCopies targets t t')
    (htarget : target ∈ targets)
    (hbecomes : t'.Becomes (Function.update t'.lookup (t'.placeOf (stagingPath target)) x) t'') :
    KeepsToCopies targets t t'' := by
  have hcopy : IsCopyFor t targets (t'.placeOf (stagingPath target)) :=
    ⟨target, htarget, h.spares.placeOf_eq _⟩
  refine ⟨h.spares.trans (hbecomes.spares fun q hq => ?_),
    h.alike.trans (hbecomes.alike fun q hq => ?_)⟩
  · refine Function.update_of_ne ?_ _ _
    rintro rfl
    exact hq hcopy
  · refine Function.update_of_ne ?_ _ _
    rintro rfl
    exact hq (Or.inl hcopy)

/-- The operations that touch nothing but the copies for some targets and what is above them. -/
inductive Disk.Operation.OnCopies (targets : List Path) : Operation → Prop
  /-- Nothing is touched. -/
  | reading {operation : Operation} (h : operation.IsReading) : OnCopies targets operation
  /-- A directory above a copy is made. -/
  | makeDirectory {target p : Path} (htarget : target ∈ targets)
    (h : p.IsAbove (stagingPath target)) : OnCopies targets (.makeDirectory p)
  /-- A copy is written. -/
  | write {target : Path} (htarget : target ∈ targets) (bytes : ByteArray) :
    OnCopies targets (.write (stagingPath target) bytes)
  /-- A copy is removed. -/
  | remove {target : Path} (htarget : target ∈ targets) :
    OnCopies targets (.remove (stagingPath target))

/-- **One operation** on the copies touches nothing else. -/
theorem KeepsToCopies.perform {operation : Operation} (hop : operation.OnCopies targets)
    (h : KeepsToCopies targets t t') : KeepsToCopies targets t (t'.perform operation).2 := by
  have hw := h.spares.wellFormed
  cases hop with
  | reading hread =>
    rw [hread.perform_snd]
    exact h
  | @makeDirectory target p htarget habove =>
    change KeepsToCopies targets t (t'.commit (t'.makeDirectory p)).2
    cases hmake : t'.makeDirectory p with
    | error e => exact h
    | ok t'' =>
      obtain ⟨hgrows, hw'⟩ := hw.grows_of_makeDirectory hmake
      obtain ⟨-, hlookup, -, -⟩ := hw.makeDirectory_ok hmake
      refine ⟨h.spares.trans (hgrows.spares hw'), h.alike.trans fun q hq => ?_⟩
      rw [Tree.commit_ok, hlookup, Function.update_of_ne]
      rintro rfl
      exact hq (Or.inr ⟨target, htarget, p, habove, h.spares.placeOf_eq p⟩)
  | @write target htarget bytes =>
    change KeepsToCopies targets t (t'.commit (t'.write (stagingPath target) bytes)).2
    cases hwrite : t'.write (stagingPath target) bytes with
    | error e => exact h
    | ok t'' =>
      obtain ⟨-, -, hbecomes⟩ := hw.write_ok hwrite
      exact h.update htarget hbecomes
  | @remove target htarget =>
    change KeepsToCopies targets t (t'.commit (t'.remove (stagingPath target))).2
    cases hremove : t'.remove (stagingPath target) with
    | error e => exact h
    | ok t'' =>
      obtain ⟨-, -, -, hbecomes⟩ := hw.remove_ok hremove
      exact h.update htarget hbecomes

/-- **A program that keeps to operations on the copies** touches nothing else, at any moment. -/
theorem KeepsToCopies.throughout {α : Type} {wanted : α → Prop} {program : Program α}
    (h : KeepsToCopies targets t t') (hmeets : program.Meets (·.OnCopies targets) wanted) :
    program.Throughout (KeepsToCopies targets t) t' :=
  hmeets.throughout (fun _ hop _ => KeepsToCopies.perform hop) h

/-! ### What is asked for -/

namespace Disk.Program

theorem settle_meets (p : Path) (x : Except Error Unit) :
    (makeDirectories.settle p x).Meets (·.OnCopies targets) fun _ => True := by
  cases x with
  | ok _ => trivial
  | error e => exact (meets_ask (.reading trivial)).bind fun _ _ => trivial

/-- Directories are made above a path. -/
theorem makeDirectories_meets (bound : Nat) (p : Path) (htarget : target ∈ targets)
    (h : p.IsAbove (stagingPath target)) :
    (makeDirectories bound p).Meets (·.OnCopies targets) fun _ => True := by
  induction bound generalizing p with
  | zero => trivial
  | succ bound ih =>
    unfold makeDirectories
    split
    · trivial
    · have hmake : (makeDirectory p).Meets (·.OnCopies targets) fun _ => True :=
        meets_ask (.makeDirectory htarget h)
      refine hmake.bind fun answer _ => ?_
      cases answer with
      | ok _ => trivial
      | error e =>
        by_cases he : e = .notFound
        · subst he
          cases hparent : p.parent? with
          | none => trivial
          | some parent =>
            refine (ih parent (h.tail hparent)).bind fun answer _ => ?_
            cases answer with
            | error e => trivial
            | ok _ => exact hmake.bind fun answer _ => settle_meets p answer
        · cases e with
          | notFound => exact absurd rfl he
          | _ => exact settle_meets p _

/-- A copy is written. -/
theorem writeWithParents_meets (htarget : target ∈ targets) (bytes : ByteArray) :
    (writeWithParents (stagingPath target) bytes).Meets (·.OnCopies targets) fun _ => True := by
  have hwrite : (write (stagingPath target) bytes).Meets (·.OnCopies targets) fun _ => True :=
    meets_ask (.write htarget bytes)
  unfold writeWithParents
  cases hparent : (stagingPath target).parent? with
  | none => exact hwrite
  | some parent =>
    refine (makeDirectories_meets _ parent htarget (.single hparent)).bind fun answer _ => ?_
    cases answer with
    | error e => trivial
    | ok _ => exact hwrite

end Disk.Program

/-- Copies are removed. -/
theorem removeAll_meets (ps : List Path)
    (h : ∀ p ∈ ps, ∃ target ∈ targets, p = stagingPath target) :
    (removeAll ps).Meets (·.OnCopies targets) fun _ => True := by
  induction ps with
  | nil => trivial
  | cons p ps ih =>
    obtain ⟨target, htarget, rfl⟩ := h p (by simp)
    exact (Program.meets_ask (.remove htarget)).bind fun _ _ =>
      ih fun p' hp' => h p' (by simp [hp'])

namespace Transaction

variable {x : Transaction} {staged : List Path}

/-! ### Calls -/

/-- A call on a transaction that is still open. -/
inductive Call where
  /-- Stage a content for a target. -/
  | stage (target : Path) (content : ByteArray)
  /-- Give up what was staged. -/
  | rollback

/-- The targets that a call names. -/
def Call.named : Call → List Path
  | stage target _ => [target]
  | rollback => []

/-- The targets for which a call has staged a copy, if this was its answer. -/
def Call.copied : Call → Except WriteFailure Unit → List Path
  | stage target _, .ok () => [target]
  | _, _ => []

/-- A call gives up what was staged, if this is its answer. -/
def Call.GivesUp (call : Call) (answer : Except WriteFailure Unit) : Prop :=
  call = rollback ∨ answer.isOk = false

/-- The answer to a call, and the transaction after it. -/
def Call.perform (x : Transaction) :
    Call → Program (Except WriteFailure Unit × Transaction)
  | stage target content => x.stage target content
  | rollback => do return (.ok (), ← x.rollback)

/-- One call after another, whatever the answers are: the targets for which a copy was staged, and
the transaction in the end. -/
def callAll (x : Transaction) : List Call → Program (List Path × Transaction)
  | [] => return ([], x)
  | call :: rest => do
    let (answer, x') ← call.perform x
    let (staged, x'') ← callAll x' rest
    return (call.copied answer ++ staged, x'')

/-- The end of a transaction that is not committed. -/
def drop (x : Transaction) : Program Unit := do
  let _ ← x.rollback

/-! ### Nothing else is touched -/

/-- The transaction has staged for none but these targets. -/
def StagesFor (targets : List Path) (x : Transaction) : Prop :=
  x.isDry = false ∧ ∀ s ∈ x.staged, s.target ∈ targets

theorem stagesFor_new (targets : List Path) : (Transaction.new false).StagesFor targets :=
  ⟨rfl, fun _ hs => absurd hs List.not_mem_nil⟩

theorem StagesFor.mono {targets' : List Path} (h : x.StagesFor targets)
    (hsub : targets ⊆ targets') : x.StagesFor targets' :=
  ⟨h.1, fun s hs => hsub (h.2 s hs)⟩

theorem rollback_meets (h : x.StagesFor targets) :
    x.rollback.Meets (·.OnCopies targets) (StagesFor targets) := by
  refine (removeAll_meets _ fun p hp => ?_).bind fun _ _ => ?_
  · obtain ⟨s, hs, rfl⟩ := List.mem_map.mp hp
    exact ⟨s.target, h.2 s hs, rfl⟩
  · exact ⟨h.1, fun _ hs => absurd hs List.not_mem_nil⟩

theorem drop_meets (h : x.StagesFor targets) :
    x.drop.Meets (·.OnCopies targets) fun _ => True :=
  (rollback_meets h).bind fun _ _ => trivial

theorem stage_meets (h : x.StagesFor targets) (htarget : target ∈ targets) (content : ByteArray) :
    (x.stage target content).Meets (·.OnCopies targets) fun result =>
      result.2.StagesFor targets := by
  unfold stage
  simp only [h.1, Bool.false_eq_true, if_false]
  refine (Program.writeWithParents_meets htarget content).bind fun answer _ => ?_
  cases answer with
  | error e =>
    exact (Program.meets_ask (.remove htarget)).bind fun _ _ =>
      (rollback_meets h).bind fun _ hx' => hx'
  | ok _ =>
    refine ⟨rfl, fun s hs => ?_⟩
    rcases List.mem_append.mp hs with hs | hs
    · exact h.2 s hs
    · obtain rfl := List.mem_singleton.mp hs
      exact htarget

theorem Call.perform_meets {call : Call} (h : x.StagesFor targets)
    (hcall : call.named ⊆ targets) :
    (call.perform x).Meets (·.OnCopies targets) fun result => result.2.StagesFor targets := by
  cases call with
  | stage target content => exact stage_meets h (hcall (by simp [Call.named])) content
  | rollback => exact (rollback_meets h).bind fun _ hx' => hx'

/-- **Whatever the calls are**, they ask for operations on the copies for their targets alone. -/
theorem callAll_meets {calls : List Call} (h : x.StagesFor targets)
    (hcalls : calls.flatMap Call.named ⊆ targets) :
    (callAll x calls).Meets (·.OnCopies targets) fun result => result.2.StagesFor targets := by
  induction calls generalizing x with
  | nil => exact h
  | cons call calls ih =>
    rw [List.flatMap_cons, List.append_subset] at hcalls
    refine (Call.perform_meets h hcalls.1).bind fun result hresult => ?_
    exact (ih hresult hcalls.2).bind fun _ hresult' => hresult'

/-! ### The list and the disk -/

/-- What is at the place of the copy for a target is in the list, or is no file. -/
def IsListed (t : Tree) (x : Transaction) (target : Path) : Prop :=
  (∃ s ∈ x.staged, t.placeOf s.copy = t.placeOf (stagingPath target)) ∨
    t.IsVacant (stagingPath target)

/-- The copies in the list of a transaction can be removed, as far as they are there. Of the copies
for some targets, no other one is there. -/
structure Owns (t : Tree) (staged : List Path) (x : Transaction) : Prop where
  /-- The tree is well formed. -/
  wellFormed : t.WellFormed
  /-- Each copy in the list can be reached. -/
  reach : ∀ s ∈ x.staged, t.Reaches s.copy
  /-- None is a directory. -/
  file : ∀ s ∈ x.staged, t.lookup (t.placeOf s.copy) ≠ some .directory
  /-- No copy is outside the list. -/
  listed : ∀ target ∈ staged, IsListed t x target

/-- **A transaction between two calls**: the copies in its list are on the disk. -/
structure Holds (t : Tree) (staged : List Path) (x : Transaction) : Prop
    extends Owns t staged x where
  /-- The transaction is not a dry one. -/
  isDry : x.isDry = false
  /-- It has found nothing by comparing. -/
  planned : x.planned = []
  /-- Each copy in the list is there. -/
  there : ∀ s ∈ x.staged, t.lookup (t.placeOf s.copy) ≠ none

theorem holds_new (hw : t.WellFormed) (h : ∀ target ∈ staged, t.IsVacant (stagingPath target)) :
    Holds t staged (.new false) where
  wellFormed := hw
  reach _ hs := absurd hs List.not_mem_nil
  file _ hs := absurd hs List.not_mem_nil
  listed target htarget := Or.inr (h target htarget)
  isDry := rfl
  planned := rfl
  there _ hs := absurd hs List.not_mem_nil

/-- **Giving up** leaves none of the copies. -/
theorem Owns.holds_rollback (h : Owns t staged x) :
    Holds (x.rollback.run t).2 staged (.new false) := by
  have hreach : ∀ p ∈ x.staged.map (·.copy), t.lookup (t.placeOf p) ≠ none → t.Reaches p := by
    intro p hp _
    obtain ⟨s, hs, rfl⟩ := List.mem_map.mp hp
    exact h.reach s hs
  have hfile : ∀ p ∈ x.staged.map (·.copy), t.lookup (t.placeOf p) ≠ some .directory := by
    intro p hp
    obtain ⟨s, hs, rfl⟩ := List.mem_map.mp hp
    exact h.file s hs
  have hremoved := removeAll_run _ h.wellFormed hreach hfile
  unfold rollback
  rw [Program.run_bind, Program.run_pure]
  refine holds_new hremoved.wellFormed fun target htarget => ?_
  rw [Tree.IsVacant, hremoved.same.placeOf_eq, hremoved.lookup]
  beta_reduce
  split
  · exact Or.inl rfl
  · rename_i hnot
    refine (h.listed target htarget).resolve_left ?_
    rintro ⟨s, hs, hplace⟩
    exact hnot ⟨s.copy, List.mem_map_of_mem hs, hplace⟩

/-- The transaction after giving up is a new one. -/
theorem Holds.rollback_eq (h : Holds t staged x) (t' : Tree) :
    (x.rollback.run t').1 = .new false := by
  obtain ⟨isDry, list, planned⟩ := x
  obtain rfl : isDry = false := h.isDry
  obtain rfl : planned = [] := h.planned
  unfold rollback
  rw [Program.run_bind]
  rfl

/-- One more removal does no harm. -/
theorem Owns.remove (h : Owns t staged x) (p : Path) :
    Owns (t.commit (t.remove p)).2 staged x := by
  cases hremove : t.remove p with
  | error e => exact h
  | ok t' =>
    obtain ⟨-, -, -, hbecomes⟩ := h.wellFormed.remove_ok hremove
    have hplace := hbecomes.same.placeOf_eq
    -- Whatever was at a place is there still, or nothing is.
    have hlookup : ∀ q, t'.lookup q = none ∨ t'.lookup q = t.lookup q := by
      intro q
      rw [hbecomes.lookup, Function.update_apply]
      split
      · exact Or.inl rfl
      · exact Or.inr rfl
    refine ⟨hbecomes.wellFormed, fun s hs => hbecomes.same.reaches (h.reach s hs),
      fun s hs => ?_, fun target htarget => ?_⟩
    · rw [Tree.commit_ok, hplace]
      rcases hlookup (t.placeOf s.copy) with hnone | heq
      · simp [hnone]
      · exact heq ▸ h.file s hs
    · rw [Tree.commit_ok, IsListed, Tree.IsVacant, hplace]
      refine (h.listed target htarget).imp ?_ fun hvacant => ?_
      · rintro ⟨s, hs, heq⟩
        exact ⟨s, hs, (hplace _).trans heq⟩
      · rcases hlookup (t.placeOf (stagingPath target)) with hnone | heq
        · exact Or.inl hnone
        · exact heq ▸ hvacant

/-- What is no file is none while everything is spared there. -/
theorem isVacant_of_spares {S : Place → Prop} (h : Tree.Spares S t t') (hp : ¬S (t.placeOf p))
    (hvacant : t.IsVacant p) : t'.IsVacant p := by
  rw [Tree.IsVacant, h.placeOf_eq]
  rcases h.lookup _ hp with heq | ⟨-, hdirectory⟩
  · exact heq ▸ hvacant
  · exact Or.inr hdirectory

/-- Directories that are added leave the copies alone. -/
theorem Holds.grows (h : Holds t staged x) (hgrows : t.Grows t') (hw : t'.WellFormed) :
    Owns t' staged x := by
  have hspares : Tree.Spares (fun _ => False) t t' := hgrows.spares hw
  have hplace := hgrows.placeOf_eq
  refine ⟨hw, fun s hs => hspares.reaches (h.reach s hs), fun s hs => ?_, fun target htarget => ?_⟩
  · rw [hplace, hgrows.lookup_eq (h.there s hs)]
    exact h.file s hs
  · refine (h.listed target htarget).imp ?_ (isVacant_of_spares hspares id)
    rintro ⟨s, hs, heq⟩
    exact ⟨s, hs, by rw [hplace, hplace, heq]⟩

/-- **Staging that fails** leaves a new transaction and none of the copies. -/
theorem Holds.stage_error (h : Holds t staged x) (content : ByteArray)
    (herror : ((x.stage target content).run t).1.1.isOk = false) :
    ((x.stage target content).run t).1.2 = .new false ∧
      Holds ((x.stage target content).run t).2 staged (.new false) := by
  unfold stage at herror ⊢
  simp only [h.isDry, Bool.false_eq_true, if_false, Program.run_bind] at herror ⊢
  obtain ⟨t', hgrows, hw, ⟨hrun, -⟩ | ⟨⟨e, hrun⟩, heq⟩⟩ :=
    Program.writeWithParents_run (stagingPath target) content h.wellFormed
  · rw [hrun] at herror
    cases herror
  · -- Directories may have been made, then the copy that failed is removed, then all the others.
    simp only [hrun, heq, Program.run_bind, Program.run_remove, Program.run_pure]
    exact ⟨h.rollback_eq _, ((h.grows hgrows hw).remove _).holds_rollback⟩

/-- After staging, a file is where the copy is, and still where one was. -/
theorem Copied.file {file : Path × ByteArray} {q : Place} (h : Copied t t' file)
    (hq : q = t.placeOf (stagingPath file.1) ∨
      t.lookup q ≠ none ∧ t.lookup q ≠ some .directory) :
    t'.lookup q ≠ none ∧ t'.lookup q ≠ some .directory := by
  by_cases heq : q = t.placeOf (stagingPath file.1)
  · rw [heq, h.lookup]
    exact ⟨Tree.writtenTo_ne_none, Tree.writtenTo_ne_directory⟩
  · obtain ⟨hthere, hdirectory⟩ := hq.resolve_left heq
    rw [h.spares.lookup_eq heq hthere]
    exact ⟨hthere, hdirectory⟩

/-- **Staging that succeeds** adds one copy, which may be at the place of another one. -/
theorem Holds.copied (h : Holds t staged x) {file : Path × ByteArray} (hfile : Copied t t' file) :
    Holds t' (staged ++ [file.1]) { x with staged := x.staged ++ [stagedOf file] } := by
  have hplace := hfile.spares.placeOf_eq
  have hcopies : ∀ s ∈ x.staged ++ [stagedOf file], t'.Reaches s.copy ∧
      t'.lookup (t'.placeOf s.copy) ≠ none ∧ t'.lookup (t'.placeOf s.copy) ≠ some .directory := by
    intro s hs
    rw [hplace]
    rcases List.mem_append.mp hs with hs | hs
    · exact ⟨hfile.spares.reaches (h.reach s hs), hfile.file (Or.inr ⟨h.there s hs, h.file s hs⟩)⟩
    · obtain rfl := List.mem_singleton.mp hs
      exact ⟨hfile.reach, hfile.file (Or.inl rfl)⟩
  refine ⟨⟨hfile.spares.wellFormed, fun s hs => (hcopies s hs).1, fun s hs => (hcopies s hs).2.2,
    fun target htarget => ?_⟩, h.isDry, h.planned, fun s hs => (hcopies s hs).2.1⟩
  -- Whoever has the place of the new copy finds it in the list, also if the target is another one.
  by_cases heq : t.placeOf (stagingPath target) = t.placeOf (stagingPath file.1)
  · refine Or.inl ⟨stagedOf file, by simp, ?_⟩
    rw [hplace, hplace, heq]
    rfl
  · have hold : target ∈ staged := by
      refine (List.mem_append.mp htarget).resolve_right fun hmem => heq ?_
      rw [List.mem_singleton.mp hmem]
    refine (h.listed target hold).imp ?_ (isVacant_of_spares hfile.spares heq)
    rintro ⟨s, hs, hs'⟩
    exact ⟨s, List.mem_append_left _ hs, by rw [hplace, hplace, hs']⟩

/-- A new transaction has no copy on the disk. -/
theorem Holds.isVacant (h : Holds t staged (.new false)) (htarget : target ∈ staged) :
    t.IsVacant (stagingPath target) := by
  refine (h.listed target htarget).resolve_left ?_
  rintro ⟨s, hs, -⟩
  cases hs

/-- **One call** keeps the list and the disk together. If it gives up, a new transaction is left. -/
theorem Holds.perform (h : Holds t staged x) (call : Call) :
    Holds ((call.perform x).run t).2 (staged ++ call.copied ((call.perform x).run t).1.1)
        ((call.perform x).run t).1.2 ∧
      (call.GivesUp ((call.perform x).run t).1.1 → ((call.perform x).run t).1.2 = .new false ∧
        Holds ((call.perform x).run t).2 staged (.new false)) := by
  cases call with
  | rollback =>
    have hholds := h.holds_rollback
    simp only [Call.perform, Program.run_bind, Program.run_pure, h.rollback_eq, Call.copied,
      List.append_nil]
    exact ⟨hholds, fun _ => ⟨trivial, hholds⟩⟩
  | stage target content =>
    change Holds ((x.stage target content).run t).2
        (staged ++ (Call.stage target content).copied ((x.stage target content).run t).1.1)
        ((x.stage target content).run t).1.2 ∧
      ((Call.stage target content).GivesUp ((x.stage target content).run t).1.1 →
        ((x.stage target content).run t).1.2 = .new false ∧
          Holds ((x.stage target content).run t).2 staged (.new false))
    -- Staging lists its target, or gives up and leaves no copy at all.
    rcases stage_run h.wellFormed h.isDry (target, content) with ⟨hrun, hcopied⟩ | ⟨⟨e, herror⟩, -⟩
    · rw [hrun]
      refine ⟨h.copied hcopied, fun hgives => ?_⟩
      rcases hgives with hcall | hanswer
      · cases hcall
      · cases hanswer
    · have hfails := h.stage_error content (by rw [herror]; rfl)
      refine ⟨?_, fun _ => hfails⟩
      rw [herror, hfails.1, Call.copied, List.append_nil]
      · exact hfails.2
      · simp

/-- **Many calls** keep the list and the disk together. -/
theorem Holds.callAll (h : Holds t staged x) (calls : List Call) :
    Holds ((callAll x calls).run t).2 (staged ++ ((callAll x calls).run t).1.1)
      ((callAll x calls).run t).1.2 := by
  induction calls generalizing t staged x with
  | nil => simpa [Transaction.callAll] using h
  | cons call calls ih =>
    have hrest := ih (h.perform call).1
    rw [List.append_assoc] at hrest
    unfold Transaction.callAll
    simp only [Program.run_bind, Program.run_pure]
    exact hrest

/-- **Whatever the calls are, staging touches nothing but copies and cleans up.** Throughout one
more call after any others, and throughout the end of the transaction, nothing has been touched but
the copies for the targets of these calls, and directories above them have been added. A call that
gives up leaves a new transaction and none of the copies that were staged, and nor does the end
leave one of them. -/
theorem keepsToCopies_callAll (hw : t.WellFormed) {calls : List Call}
    (hcalls : (callAll (.new false) calls).run t = ((staged, x), t')) :
    (∀ call : Call,
      (call.perform x).Throughout (KeepsToCopies ((calls ++ [call]).flatMap Call.named) t) t' ∧
      ∀ answer x' t'', (call.perform x).run t' = ((answer, x'), t'') → call.GivesUp answer →
        x' = .new false ∧ ∀ target ∈ staged, t''.IsVacant (stagingPath target)) ∧
    x.drop.Throughout (KeepsToCopies (calls.flatMap Call.named) t) t' ∧
    ∀ target ∈ staged, (x.drop.run t').2.IsVacant (stagingPath target) := by
  -- Two invariants go through the calls: the copies that are listed are on the disk, and nothing
  -- but copies is asked for.
  have hholds : Holds t' staged x := by
    have hnew : Holds t [] (.new false) :=
      holds_new hw fun _ htarget => absurd htarget List.not_mem_nil
    have hafter := hnew.callAll calls
    rwa [hcalls] at hafter
  have hmeets := callAll_meets (stagesFor_new (calls.flatMap Call.named)) (List.Subset.refl _)
  have hkeeps : KeepsToCopies (calls.flatMap Call.named) t t' := by
    have hafter := ((KeepsToCopies.refl _ hw).throughout hmeets).finish
    rwa [hcalls] at hafter
  have hstaged : x.StagesFor (calls.flatMap Call.named) := by
    have hafter := hmeets.run_fst t
    rwa [hcalls] at hafter
  refine ⟨fun call => ⟨?_, fun answer x' t'' hcall hgives => ?_⟩, ?_, fun target htarget => ?_⟩
  · have hsub : calls.flatMap Call.named ⊆ (calls ++ [call]).flatMap Call.named := by
      rw [List.flatMap_append]
      exact List.subset_append_left _ _
    have hnamed : call.named ⊆ (calls ++ [call]).flatMap Call.named := by
      rw [List.flatMap_append, List.flatMap_singleton]
      exact List.subset_append_right _ _
    exact (hkeeps.mono hsub).throughout (Call.perform_meets (hstaged.mono hsub) hnamed)
  · have hafter := (hholds.perform call).2
    rw [hcall] at hafter
    obtain ⟨heq, hvacant⟩ := hafter hgives
    exact ⟨heq, fun target htarget => hvacant.isVacant htarget⟩
  · exact hkeeps.throughout (drop_meets hstaged)
  · unfold drop
    rw [Program.run_bind, Program.run_pure]
    exact hholds.holds_rollback.isVacant htarget

/-- One target is staged twice, and then another one below its copy, which is a file. -/
theorem keepsToCopies_callAll_below :
    let t : Tree := ⟨[(["w"], .directory)], ["w"]⟩
    let t' : Tree := ⟨[(["w"], .directory), (["d", "w"], .directory),
      (["b.pktgen.tmp", "d", "w"], .file "2".toUTF8)], ["w"]⟩
    let t'' : Tree := ⟨[(["w"], .directory), (["d", "w"], .directory)], ["w"]⟩
    let calls : List Call := [.stage ⟨"d/b"⟩ "1".toUTF8, .stage ⟨"./d/b"⟩ "2".toUTF8]
    let below : Call := .stage ⟨"d/b.pktgen.tmp/c"⟩ "3".toUTF8
    let x : Transaction :=
      ⟨false, [⟨⟨"d/b"⟩, digest "1".toUTF8⟩, ⟨⟨"./d/b"⟩, digest "2".toUTF8⟩], []⟩
    let failure : WriteFailure := .staging ⟨"d/b.pktgen.tmp/c.pktgen.tmp"⟩ .exists
    t.WellFormed ∧
      (callAll (.new false) calls).run t = (([⟨"d/b"⟩, ⟨"./d/b"⟩], x), t') ∧
      (below.perform x).run t' = ((.error failure, .new false), t'') ∧
      (below.perform x).Throughout
        (KeepsToCopies [⟨"d/b"⟩, ⟨"./d/b"⟩, ⟨"d/b.pktgen.tmp/c"⟩] t) t' ∧
      t''.IsVacant (stagingPath ⟨"d/b"⟩) ∧ (x.drop.run t').2.IsVacant (stagingPath ⟨"./d/b"⟩) := by
  intro t t' t'' calls below x failure
  have hw : t.WellFormed := by decide
  have hcalls : (callAll (.new false) calls).run t = (([⟨"d/b"⟩, ⟨"./d/b"⟩], x), t') := by
    decide +kernel
  have hbelow : (below.perform x).run t' = ((.error failure, .new false), t'') := by
    decide
  obtain ⟨hcall, -, hdrop⟩ := keepsToCopies_callAll hw hcalls
  obtain ⟨hkeeps, hgone⟩ := hcall below
  obtain ⟨-, hvacant⟩ := hgone _ _ _ hbelow (Or.inr rfl)
  exact ⟨hw, hcalls, hbelow, hkeeps, hvacant _ (by simp), hdrop _ (by simp)⟩

end Transaction

end Packetry
