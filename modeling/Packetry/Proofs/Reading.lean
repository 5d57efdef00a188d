import Packetry.Generation
import Packetry.Proofs.Operation
import Mathlib.Data.List.Forall2

/-!
# Reading

Templates are loaded, a schema is read and a plan is made without a change of the disk: these
programs ask for nothing but operations that read, whatever the answers are
(`Packetry.Disk.Program.IsReading`). What a plan for some artifacts is, given what is on the
disk, is said by `Packetry.planAll_run_iff`.
-/

namespace Packetry

open Disk

namespace Disk

/-- The operations that change nothing. -/
def Operation.IsReading : Operation → Prop
  | .read _ => True
  | .exists? _ => True
  | .isDirectory _ => True
  | .isFile _ => True
  | .list _ => True
  | .workingDirectory => True
  | .makeDirectory _ => False
  | .write _ _ => False
  | .rename _ _ => False
  | .remove _ => False

theorem Operation.IsReading.perform_snd {operation : Operation} (h : operation.IsReading)
    (t : Tree) : (t.perform operation).2 = t := by
  cases operation with
  | read p => rfl
  | exists? p => rfl
  | isDirectory p => rfl
  | isFile p => rfl
  | list p => rfl
  | workingDirectory => rfl
  | makeDirectory p => exact h.elim
  | write p bytes => exact h.elim
  | rename source target => exact h.elim
  | remove p => exact h.elim

namespace Program

variable {α β : Type}

/-- A program that asks for nothing but operations that read. -/
def IsReading : Program α → Prop
  | done _ => True
  | ask operation next => operation.IsReading ∧ ∀ answer, (next answer).IsReading

/-- **A program that only reads changes nothing.** -/
theorem IsReading.run_snd {p : Program α} (h : p.IsReading) (t : Tree) : (p.run t).2 = t := by
  induction p generalizing t with
  | done value => rfl
  | ask operation next ih =>
    obtain ⟨hop, hnext⟩ := h
    exact (ih _ (hnext _) _).trans (hop.perform_snd t)

theorem isReading_pure (value : α) : (pure value : Program α).IsReading :=
  trivial

theorem IsReading.bind {p : Program α} {f : α → Program β} (h : p.IsReading)
    (hf : ∀ value, (f value).IsReading) : (p >>= f).IsReading := by
  induction p with
  | done value => exact hf value
  | ask operation next ih => exact ⟨h.1, fun answer => ih answer (h.2 answer)⟩

/-- **A program that goes on only after a success**, taken apart when it succeeds in the end. -/
theorem run_bind_ok {ε ε' : Type} {x : Program (Except ε α)}
    {f : Except ε α → Program (Except ε' β)} {b : β} {t t' : Tree}
    (h : (x >>= f).run t = (.ok b, t'))
    (hf : ∀ e t, ((f (.error e)).run t).1.isOk = false) :
    ∃ a t₁, x.run t = (.ok a, t₁) ∧ (f (.ok a)).run t₁ = (.ok b, t') := by
  rw [run_bind] at h
  generalize x.run t = answer at h ⊢
  obtain ⟨e | a, t₁⟩ := answer
  · have hfails := hf e t₁
    rw [h] at hfails
    cases hfails
  · exact ⟨a, t₁, rfl, h⟩

/-- **A program that goes on only after a success**, taken apart when it fails in the end. -/
theorem run_bind_error {ε ε' : Type} {x : Program (Except ε α)}
    {f : Except ε α → Program (Except ε' β)} {cause : ε'} {t t' : Tree}
    (h : (x >>= f).run t = (.error cause, t')) :
    (∃ e t₁, x.run t = (.error e, t₁) ∧ (f (.error e)).run t₁ = (.error cause, t')) ∨
      ∃ a t₁, x.run t = (.ok a, t₁) ∧ (f (.ok a)).run t₁ = (.error cause, t') := by
  rw [run_bind] at h
  generalize x.run t = answer at h ⊢
  obtain ⟨e | a, t₁⟩ := answer
  · exact Or.inl ⟨e, t₁, rfl, h⟩
  · exact Or.inr ⟨a, t₁, rfl, h⟩

/-- The tree after a program that only reads. -/
theorem IsReading.eq_of_run {p : Program α} (h : p.IsReading) {value : α} {t t' : Tree}
    (hrun : p.run t = (value, t')) : t' = t := by
  rw [← h.run_snd t, hrun]

variable (p : Path)

theorem isReading_read : (read p).IsReading :=
  ⟨trivial, fun _ => trivial⟩

theorem isReading_exists? : (exists? p).IsReading :=
  ⟨trivial, fun _ => trivial⟩

theorem isReading_isFile : (isFile p).IsReading :=
  ⟨trivial, fun _ => trivial⟩

theorem isReading_list : (list p).IsReading :=
  ⟨trivial, fun _ => trivial⟩

theorem isReading_readText : (readText p).IsReading := by
  refine (isReading_read p).bind fun answer => ?_
  cases answer with
  | ok bytes => exact isReading_pure _
  | error e => exact isReading_pure _

end Program

end Disk

open Program

/-! ### Scaffolds -/

theorem isReading_templateTexts (directory : Path) (names : List String) :
    (templateTexts directory names).IsReading := by
  induction names with
  | nil => exact isReading_pure _
  | cons name names ih =>
    unfold templateTexts
    refine (isReading_isFile _).bind fun isFile => ?_
    split
    · refine (isReading_readText _).bind fun answer => ?_
      cases answer with
      | error cause => exact isReading_pure _
      | ok text =>
        refine ih.bind fun answer => ?_
        cases answer with
        | error fault => exact isReading_pure _
        | ok texts => exact isReading_pure _
    · exact ih

theorem isReading_userTemplateTexts (config : Config) : (userTemplateTexts config).IsReading := by
  unfold userTemplateTexts
  split
  · exact isReading_pure _
  · rename_i directory hdirectory
    refine (isReading_exists? directory).bind fun answer => ?_
    cases answer with
    | false => exact isReading_pure _
    | true =>
      refine (isReading_list directory).bind fun answer => ?_
      cases answer with
      | error cause => exact isReading_pure _
      | ok names => exact isReading_templateTexts directory names

/-- Loading templates reads. -/
theorem isReading_load (config : Config) : (Scaffolds.load config).IsReading := by
  refine (isReading_userTemplateTexts config).bind fun answer => ?_
  cases answer with
  | error fault => exact isReading_pure _
  | ok texts => exact isReading_pure _

/-- What scaffolds are made from keeps the configuration. -/
theorem config_of_ofTexts {config : Config} {texts : List (String × String)} {s : Scaffolds}
    (h : Scaffolds.ofTexts config texts = .ok s) : s.config = config := by
  unfold Scaffolds.ofTexts at h
  dsimp only at h
  generalize (registered texts).mapM (fun x : String × String =>
    (Template.ofText? x.2).map (x.1, ·)) = read at h
  cases read with
  | none => cases h
  | some templates => exact congrArg Scaffolds.config (Except.ok.inj h).symm

/-- What was loaded is for the configuration. -/
theorem config_of_load {config : Config} {t t' : Tree} {s : Scaffolds}
    (h : (Scaffolds.load config).run t = (.ok s, t')) : s.config = config := by
  unfold Scaffolds.load at h
  rw [run_bind] at h
  generalize (userTemplateTexts config).run t = x at h
  obtain ⟨_ | texts, t₁⟩ := x
  · cases (Prod.mk.inj h).1
  · exact config_of_ofTexts (Prod.mk.inj h).1

/-! ### Plans -/

theorem isReading_loadValid (config : Config) : (loadValid config).IsReading := by
  refine IsReading.bind ?_ fun answer => ?_
  · refine (isReading_readText _).bind fun answer => ?_
    cases answer with
    | error cause => exact isReading_pure _
    | ok text => exact isReading_pure _
  · cases answer with
    | error fault => exact isReading_pure _
    | ok packets => exact isReading_pure _

/-- Packets are those of the schema that has been read, and of that alone. -/
theorem exists_read_of_loadValid {config : Config} {packets : List Packet} {t t' : Tree}
    (h : (loadValid config).run t = (.ok packets, t')) :
    ∃ bytes, t.read config.schemaPath = .ok bytes ∧ ∀ t₀ : Tree,
      t₀.read config.schemaPath = .ok bytes → (loadValid config).run t₀ = (.ok packets, t₀) := by
  obtain ⟨_, t₁, hparse, h₁⟩ := run_bind_ok h fun _ _ => rfl
  obtain ⟨_, t₂, htext, h₂⟩ := run_bind_ok hparse fun _ _ => rfl
  obtain ⟨bytes, t₃, hread, h₃⟩ := run_bind_ok htext fun _ _ => rfl
  refine ⟨bytes, (Prod.mk.inj hread).1, fun t₀ hread₀ => ?_⟩
  refine Prod.ext ?_ ((isReading_loadValid config).run_snd t₀)
  unfold loadValid Schema.load readText
  simp only [run_bind, run_read, hread₀]
  simp only [run_pure] at h₁ h₂ h₃ ⊢
  rw [(Prod.mk.inj h₃).1]
  dsimp only [run_pure]
  rw [(Prod.mk.inj h₂).1]
  exact (Prod.mk.inj h₁).1

theorem isReading_currentText (p : Path) : (currentText p).IsReading := by
  refine (isReading_read p).bind fun answer => ?_
  split
  · split
    · exact isReading_pure _
    · exact isReading_pure _
  · exact isReading_pure _
  · exact isReading_pure _

theorem isReading_planAll (s : Scaffolds) (packets : List Packet)
    (files : List (Artifact × Path)) : (planAll s packets files).IsReading := by
  induction files with
  | nil => exact isReading_pure _
  | cons file files ih =>
    obtain ⟨a, p⟩ := file
    refine (isReading_currentText p).bind fun answer => ?_
    cases answer with
    | error failure => exact isReading_pure _
    | ok text =>
      dsimp only
      split
      · exact isReading_pure _
      · refine ih.bind fun answer => ?_
        cases answer with
        | error failure => exact isReading_pure _
        | ok others => exact isReading_pure _

/-- Making a plan reads. -/
theorem isReading_plan (s : Scaffolds) : (plan s).IsReading := by
  refine (isReading_loadValid _).bind fun answer => ?_
  cases answer with
  | error failure => exact isReading_pure _
  | ok packets =>
    refine (isReading_planAll _ _ _).bind fun answer => ?_
    cases answer with
    | error failure => exact isReading_pure _
    | ok artifacts => exact isReading_pure _

/-! ### Lists that belong together -/

section Together

variable {α β : Type} {R : α → β → Prop} {xs : List α} {ys : List β}

/-- A list of what there is for each thing of a list. -/
theorem exists_forall₂ (h : ∀ x ∈ xs, ∃ y, R x y) : ∃ ys, List.Forall₂ R xs ys := by
  induction xs with
  | nil => exact ⟨[], List.Forall₂.nil⟩
  | cons x xs ih =>
    obtain ⟨y, hy⟩ := h x List.mem_cons_self
    obtain ⟨ys, hys⟩ := ih fun x hx => h x (List.mem_cons_of_mem _ hx)
    exact ⟨y :: ys, List.Forall₂.cons hy hys⟩

/-- In lists that belong together, each thing has one that it belongs to. -/
theorem forall₂_mem (h : List.Forall₂ R xs ys) :
    (∀ x ∈ xs, ∃ y ∈ ys, R x y) ∧ ∀ y ∈ ys, ∃ x ∈ xs, R x y := by
  induction h with
  | nil => simp
  | cons hhead _ ih =>
    obtain ⟨hleft, hright⟩ := ih
    constructor
    · intro x hx
      rcases List.mem_cons.mp hx with rfl | hx
      · exact ⟨_, List.mem_cons_self, hhead⟩
      · obtain ⟨y, hy, hxy⟩ := hleft x hx
        exact ⟨y, List.mem_cons_of_mem _ hy, hxy⟩
    · intro y hy
      rcases List.mem_cons.mp hy with rfl | hy
      · exact ⟨_, List.mem_cons_self, hhead⟩
      · obtain ⟨x, hx, hxy⟩ := hright y hy
        exact ⟨x, List.mem_cons_of_mem _ hx, hxy⟩

/-- What is the same in things that belong together. -/
theorem map_eq_of_forall₂ {γ : Type} {f : α → γ} {g : β → γ} (h : List.Forall₂ R xs ys)
    (heq : ∀ x y, R x y → g y = f x) : ys.map g = xs.map f := by
  rw [eq_comm, ← List.forall₂_eq_eq_eq, List.forall₂_map_left_iff, List.forall₂_map_right_iff]
  exact h.imp fun x y hxy => (heq x y hxy).symm

/-- What is computed for each thing of a list, if that succeeds for all of them. -/
theorem mapM_eq_ok_iff {ε : Type} {f : α → Except ε β} :
    xs.mapM f = .ok ys ↔ List.Forall₂ (fun x y => f x = .ok y) xs ys := by
  induction xs generalizing ys with
  | nil =>
    rw [List.mapM_nil, List.forall₂_nil_left_iff]
    exact ⟨fun h => (Except.ok.inj h).symm, fun h => h ▸ rfl⟩
  | cons x xs ih =>
    rw [List.mapM_cons, List.forall₂_cons_left_iff]
    constructor
    · intro h
      obtain ⟨y, hhead, h⟩ := Tree.bind_ok h
      obtain ⟨rest, hrest, h⟩ := Tree.bind_ok h
      exact ⟨y, rest, hhead, ih.mp hrest, (Except.ok.inj h).symm⟩
    · rintro ⟨y, rest, hhead, hrest, rfl⟩
      rw [hhead, ih.mpr hrest]
      rfl

end Together

/-! ### Texts -/

/-- A text that was written can be read. -/
theorem fromUTF8?_toUTF8 (text : String) : String.fromUTF8? text.toUTF8 = some text := by
  have hvalid : text.toUTF8.IsValidUTF8 := text.isValidUTF8
  rw [String.fromUTF8?, dif_pos hvalid]
  rfl

/-- Bytes are those of their text. -/
theorem textOf_eq_ok_iff {bytes : ByteArray} {text : String} :
    textOf bytes = .ok text ↔ bytes = text.toUTF8 := by
  constructor
  · intro h
    unfold textOf at h
    split at h
    · rename_i read hread
      cases h
      unfold String.fromUTF8? at hread
      split at hread
      · cases hread
        rfl
      · cases hread
    · cases h
  · rintro rfl
    rw [textOf, fromUTF8?_toUTF8]

/-! ### What is planned -/

section Planned

variable {s : Scaffolds} {packets : List Packet} {t t' : Tree} {p : Path}
  {files : List (Artifact × Path)} {file : Artifact × Path} {planned : PlannedArtifact}
  {artifacts : List PlannedArtifact}

/-- The text of a file of a tree, if it is there. -/
def Disk.Tree.textAt (t : Tree) (p : Path) : Except Failure (Option String) :=
  match t.read p with
  | .ok bytes => ((textOf bytes).mapError (.notText p)).map some
  | .error .notFound => .ok none
  | .error e => .error (.write (.access p e))

theorem currentText_run (p : Path) (t : Tree) : (currentText p).run t = (t.textAt p, t) := by
  unfold currentText Tree.textAt
  rw [run_bind, run_read]
  dsimp only
  cases t.read p with
  | ok bytes =>
    dsimp only
    cases textOf bytes with
    | ok text => rfl
    | error offset => rfl
  | error e => cases e <;> rfl

/-- The text of a file that is there. -/
theorem Disk.Tree.textAt_of_read {bytes : ByteArray} (h : t.read p = .ok bytes) :
    t.textAt p = ((textOf bytes).mapError (.notText p)).map some := by
  unfold Tree.textAt
  rw [h]

/-- A text is that of a file. -/
theorem Disk.Tree.textAt_eq_some_iff {text : String} :
    t.textAt p = .ok (some text) ↔ t.read p = .ok text.toUTF8 := by
  constructor
  · intro h
    cases hread : t.read p with
    | ok bytes =>
      rw [textAt_of_read hread] at h
      cases htext : textOf bytes with
      | ok text' =>
        rw [htext] at h
        rw [textOf_eq_ok_iff.mp htext, Option.some.inj (Except.ok.inj h)]
      | error offset =>
        rw [htext] at h
        cases h
    | error e =>
      unfold Tree.textAt at h
      rw [hread] at h
      cases e <;> cases h
  · intro h
    rw [textAt_of_read h, textOf_eq_ok_iff.mpr rfl]
    rfl

/-- Without a text, there is no file. -/
theorem Disk.Tree.textAt_eq_none (h : t.textAt p = .ok none) : t.read p = .error .notFound := by
  cases hread : t.read p with
  | ok bytes =>
    rw [textAt_of_read hread] at h
    cases htext : textOf bytes with
    | ok text' =>
      rw [htext] at h
      cases h
    | error offset =>
      rw [htext] at h
      cases h
  | error e =>
    unfold Tree.textAt at h
    rw [hread] at h
    cases e <;> first | rfl | cases h

/-- What an artifact is to be, by what is on the disk. -/
def Plans (s : Scaffolds) (packets : List Packet) (t : Tree) (file : Artifact × Path)
    (planned : PlannedArtifact) : Prop :=
  ∃ text, t.textAt file.2 = .ok text ∧ planArtifact s packets file.1 file.2 text = .ok planned

/-- What an artifact is to be by what is on the disk, or what is in the way of it. -/
def Disk.Tree.planOf (t : Tree) (s : Scaffolds) (packets : List Packet)
    (file : Artifact × Path) : Except Failure PlannedArtifact :=
  (t.textAt file.2).bind (planArtifact s packets file.1 file.2)

theorem planOf_eq_ok_iff : t.planOf s packets file = .ok planned ↔
    Plans s packets t file planned := by
  unfold Tree.planOf Plans
  cases t.textAt file.2 with
  | error failure => simp [Except.bind]
  | ok text => simp [Except.bind]

/-- **Artifacts are planned one after the other**, up to the first that cannot be. Nothing but
the disk as it is decides on each of them. -/
theorem planAll_run (files : List (Artifact × Path)) (t : Tree) :
    (planAll s packets files).run t = (files.mapM (t.planOf s packets), t) := by
  induction files with
  | nil => rfl
  | cons file files ih =>
    obtain ⟨a, p⟩ := file
    rw [planAll, run_bind, currentText_run, List.mapM_cons, Tree.planOf]
    cases t.textAt p with
    | error failure => rfl
    | ok text =>
      simp only [Except.bind]
      cases planArtifact s packets a p text with
      | error failure => rfl
      | ok planned =>
        dsimp only
        rw [run_bind, ih]
        cases files.mapM (t.planOf s packets) with
        | error failure => rfl
        | ok others => rfl

/-- **What is planned for some artifacts**, if there is a plan. -/
theorem planAll_run_iff : (planAll s packets files).run t = (.ok artifacts, t) ↔
    List.Forall₂ (Plans s packets t) files artifacts := by
  rw [planAll_run, Prod.mk.injEq, and_iff_left rfl, mapM_eq_ok_iff]
  simp only [planOf_eq_ok_iff]

/-- What an artifact is to be, by the text that it starts from. -/
theorem planArtifact_eq_ok_iff {a : Artifact} {text : Option String} :
    planArtifact s packets a p text = .ok planned ↔ ∃ (current next : String) (n : Nat),
      text.elim ((s.ofArtifact a).mapError Failure.scaffold) .ok = .ok current ∧
      mergedText s.config packets a current = .ok (next, n) ∧
      planned = ⟨a, p, text.isSome, current, next, n⟩ := by
  unfold planArtifact
  constructor
  · intro h
    obtain ⟨current, hcurrent, h⟩ := Tree.bind_ok h
    obtain ⟨⟨next, n⟩, hnext, h⟩ := Tree.bind_ok h
    refine ⟨current, next, n, hcurrent, ?_, (Except.ok.inj h).symm⟩
    cases hmerged : mergedText s.config packets a current with
    | error fault =>
      rw [hmerged] at hnext
      cases hnext
    | ok x =>
      rw [hmerged] at hnext
      rw [Except.ok.inj hnext]
  · rintro ⟨current, next, n, hcurrent, hnext, rfl⟩
    rw [hcurrent]
    change Except.bind ((mergedText s.config packets a current).mapError _) _ = _
    rw [hnext]
    rfl

/-- A plan for an artifact is for its path. -/
theorem Plans.eq (h : Plans s packets t file planned) :
    planned.artifact = file.1 ∧ planned.path = file.2 := by
  obtain ⟨text, -, hplan⟩ := h
  obtain ⟨current, next, n, -, -, rfl⟩ := planArtifact_eq_ok_iff.mp hplan
  exact ⟨rfl, rfl⟩

/-- What a plan for an artifact says of the disk, and of the text that is to be there. -/
theorem Plans.cases (h : Plans s packets t file planned) :
    mergedText s.config packets file.1 planned.current = .ok (planned.merged, planned.inserted) ∧
      (planned.existed = true ∧ t.read planned.path = .ok planned.current.toUTF8 ∨
        planned.existed = false ∧ t.read planned.path = .error .notFound) := by
  obtain ⟨text, htext, hplan⟩ := h
  obtain ⟨current, next, n, hcurrent, hnext, rfl⟩ := planArtifact_eq_ok_iff.mp hplan
  refine ⟨hnext, ?_⟩
  cases text with
  | none => exact .inr ⟨rfl, Tree.textAt_eq_none htext⟩
  | some text =>
    obtain rfl := Except.ok.inj hcurrent
    exact .inl ⟨rfl, Tree.textAt_eq_some_iff.mp htext⟩

/-- A plan for an artifact that is there has read it. -/
theorem Plans.read (h : Plans s packets t file planned) (hw : t.WellFormed)
    (hthere : t.exists? file.2 = true) : t.read planned.path = .ok planned.current.toUTF8 := by
  rcases h.cases.2 with ⟨-, hread⟩ | ⟨-, hmissing⟩
  · exact hread
  · rw [h.eq.2] at hmissing
    rw [hw.exists?_of_read hmissing] at hthere
    cases hthere

/-- There is one plan for an artifact only. -/
theorem Plans.unique {other : PlannedArtifact} (h : Plans s packets t file planned)
    (h' : Plans s packets t file other) : other = planned := by
  obtain ⟨text, htext, hplan⟩ := h
  obtain ⟨text', htext', hplan'⟩ := h'
  obtain rfl : text = text' := Except.ok.inj (htext.symm.trans htext')
  exact Except.ok.inj (hplan'.symm.trans hplan)

/-- A plan is for packets that are valid, and has one part for each artifact. -/
theorem plan_ok {plan : Plan} (h : (Packetry.plan s).run t = (.ok plan, t')) :
    t' = t ∧ (loadValid s.config).run t = (.ok plan.packets, t) ∧
      List.Forall₂ (Plans s plan.packets t) s.config.configured plan.artifacts := by
  obtain ⟨packets, t₁, hload, h₁⟩ := run_bind_ok h fun _ _ => rfl
  obtain ⟨artifacts, t₂, hplans, h₂⟩ := run_bind_ok h₁ fun _ _ => rfl
  obtain rfl := (isReading_loadValid s.config).eq_of_run hload
  obtain rfl := (isReading_planAll s packets s.config.configured).eq_of_run hplans
  obtain ⟨hplan, rfl⟩ := Prod.mk.inj h₂
  obtain rfl := Except.ok.inj hplan
  exact ⟨rfl, hload, planAll_run_iff.mp hplans⟩

end Planned

end Packetry
