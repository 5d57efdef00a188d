import Packetry.Proofs.Reading

/-!
# Programs that are cut short

A program works on the disk by one indivisible operation after another, and it can end between
any two of them: the machine is switched off, or the process is killed. What it leaves behind then
is the tree after the operations that were performed
(`Packetry.Disk.Program.interrupted`).

A property of trees holds *throughout* a program if it holds of everything that the program can
leave behind in this way (`Packetry.Disk.Program.Throughout`), its end included. Such properties
are shown along the program, without a word about numbers of operations: they hold throughout two
programs in sequence if they hold throughout each of them
(`Packetry.Disk.Program.throughout_bind`), and throughout an operation if they hold before and
after it. If a program asks for none but certain operations, whatever the answers are
(`Packetry.Disk.Program.Meets`), then what each of them preserves holds throughout the program
(`Packetry.Disk.Program.Meets.throughout`).
-/

namespace Packetry.Disk.Program

variable {α β : Type} {P Q : Tree → Prop} {t : Tree}

/-! ### The first operations -/

/-- The tree after the first operations of a program, as many as the number says. -/
def interrupted : Program α → Tree → Nat → Tree
  | done _, t, _ => t
  | ask _ _, t, 0 => t
  | ask operation next, t, n + 1 =>
    (next (t.perform operation).1).interrupted (t.perform operation).2 n

@[simp] theorem interrupted_zero (p : Program α) (t : Tree) : p.interrupted t 0 = t := by
  cases p with
  | done value => rfl
  | ask operation next => rfl

/-- With operations enough, the program is run to its end. -/
theorem exists_interrupted_eq_run (p : Program α) (t : Tree) :
    ∃ n, p.interrupted t n = (p.run t).2 := by
  induction p generalizing t with
  | done value => exact ⟨0, rfl⟩
  | ask operation next ih =>
    obtain ⟨n, hn⟩ := ih (t.perform operation).1 (t.perform operation).2
    exact ⟨n + 1, hn⟩

/-! ### At every moment -/

/-- A property holds of every tree that a program leaves behind when it is cut short. -/
def Throughout (P : Tree → Prop) (p : Program α) (t : Tree) : Prop :=
  ∀ n, P (p.interrupted t n)

theorem Throughout.mono {p : Program α} (h : p.Throughout P t) (hPQ : ∀ t', P t' → Q t') :
    p.Throughout Q t :=
  fun n => hPQ _ (h n)

/-- It holds before the first operation. -/
theorem Throughout.start {p : Program α} (h : p.Throughout P t) : P t := by
  have hzero := h 0
  rwa [interrupted_zero] at hzero

/-- It holds when the program has ended. -/
theorem Throughout.finish {p : Program α} (h : p.Throughout P t) : P (p.run t).2 := by
  obtain ⟨n, hn⟩ := p.exists_interrupted_eq_run t
  exact hn ▸ h n

@[simp] theorem throughout_pure (value : α) :
    (pure value : Program α).Throughout P t ↔ P t :=
  ⟨fun h => h 0, fun h _ => h⟩

/-- A property holds throughout a program that asks for an operation if it holds now and
throughout what follows the answer. -/
theorem throughout_ask (operation : Operation) (next : operation.Answer → Program α) :
    (ask operation next).Throughout P t ↔
      P t ∧ (next (t.perform operation).1).Throughout P (t.perform operation).2 := by
  constructor
  · exact fun h => ⟨h 0, fun n => h (n + 1)⟩
  · rintro ⟨hnow, hnext⟩ (_ | n)
    · exact hnow
    · exact hnext n

/-- **A property holds throughout two programs in sequence** if it holds throughout the first, and
throughout the second from where the first has ended. -/
theorem throughout_bind (p : Program α) (f : α → Program β) :
    (p >>= f).Throughout P t ↔
      p.Throughout P t ∧ (f (p.run t).1).Throughout P (p.run t).2 := by
  induction p generalizing t with
  | done value =>
    refine ⟨fun h => ⟨(throughout_pure value).mpr h.start, h⟩, fun h => h.2⟩
  | ask operation next ih =>
    have hbind : (ask operation next >>= f).Throughout P t ↔
        P t ∧ (next (t.perform operation).1 >>= f).Throughout P (t.perform operation).2 :=
      throughout_ask operation fun answer => next answer >>= f
    rw [hbind, ih, throughout_ask, and_assoc]
    rfl

/-- What is done with the result of a program does not matter, if it is no operation. -/
theorem Throughout.bind_pure {p : Program α} {f : α → Program β} (h : p.Throughout P t)
    (hf : ∀ value, ∃ value', f value = pure value') : (p >>= f).Throughout P t := by
  obtain ⟨value', hvalue⟩ := hf (p.run t).1
  refine (throughout_bind p f).mpr ⟨h, ?_⟩
  rw [hvalue]
  exact (throughout_pure value').mpr h.finish

/-- Nothing happens throughout a program that only reads. -/
theorem IsReading.throughout {p : Program α} (h : p.IsReading) (ht : P t) :
    p.Throughout P t := by
  induction p generalizing t with
  | done value => exact (throughout_pure value).mpr ht
  | ask operation next ih =>
    refine (throughout_ask operation next).mpr ⟨ht, ih _ (h.2 _) ?_⟩
    rwa [h.1.perform_snd]

/-! ### What is asked for -/

section Asking

variable {allowed : Operation → Prop} {wanted : α → Prop} {needed : β → Prop}

/-- A program asks for none but allowed operations and has a wanted result, whatever the answers
are. -/
def Meets (allowed : Operation → Prop) (wanted : α → Prop) : Program α → Prop
  | done value => wanted value
  | ask operation next => allowed operation ∧ ∀ answer, (next answer).Meets allowed wanted

/-- A single operation. -/
theorem meets_ask {operation : Operation} (h : allowed operation) :
    (ask operation done).Meets allowed fun _ => True :=
  ⟨h, fun _ => trivial⟩

/-- **Programs in sequence**: the second one may count on what the first one has for a result. -/
theorem Meets.bind {p : Program α} {f : α → Program β} (h : p.Meets allowed wanted)
    (hf : ∀ value, wanted value → (f value).Meets allowed needed) :
    (p >>= f).Meets allowed needed := by
  induction p with
  | done value => exact hf value h
  | ask operation next ih => exact ⟨h.1, fun answer => ih answer (h.2 answer)⟩

/-- The result of a run is a wanted one. -/
theorem Meets.run_fst {p : Program α} (h : p.Meets allowed wanted) (t : Tree) :
    wanted (p.run t).1 := by
  induction p generalizing t with
  | done value => exact h
  | ask operation next ih => exact ih _ (h.2 _) _

/-- **What every allowed operation preserves holds throughout.** -/
theorem Meets.throughout {p : Program α} (h : p.Meets allowed wanted)
    (hP : ∀ operation, allowed operation → ∀ t, P t → P (t.perform operation).2) (ht : P t) :
    p.Throughout P t := by
  induction p generalizing t with
  | done value => exact (throughout_pure value).mpr ht
  | ask operation next ih =>
    exact (throughout_ask operation next).mpr ⟨ht, ih _ (h.2 _) (hP operation h.1 t ht)⟩

end Asking

/-! ### Single operations -/

theorem throughout_rename (p p' : Path) :
    (rename p p').Throughout P t ↔ P t ∧ P (t.commit (t.rename p p')).2 :=
  (throughout_ask _ _).trans (and_congr_right fun _ => throughout_pure _)

theorem throughout_remove (p : Path) :
    (remove p).Throughout P t ↔ P t ∧ P (t.commit (t.remove p)).2 :=
  (throughout_ask _ _).trans (and_congr_right fun _ => throughout_pure _)

end Packetry.Disk.Program
