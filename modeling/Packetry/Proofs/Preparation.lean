import Packetry.Proofs.Missing
import Packetry.Proofs.Reading

/-!
# The parts of a run

A run makes what is missing and a plan, replaces the artifacts all together, and publishes some of
them. It is made of its preparation, which ends with the plan, what it produces from there, and what
it publishes (`Packetry.generate_run`).

The preparation writes to places where nothing was, and beside them, and spares everything else
(`Packetry.prepare_run`). When it has succeeded, all files are there and the artifacts can be read
(`Packetry.Prepared`).
-/

namespace Packetry

open Disk

/-! ### The parts of a run -/

/-- The first part of a run: what was made, and the plan. -/
def prepare (config : Config) : Program (Except Failure (List Path × Plan)) := do
  match ← Scaffolds.load config with
  | .error fault => return .error (.scaffold fault)
  | .ok s =>
    match ← ensure s with
    | .error failure => return .error failure
    | .ok made =>
      match ← plan s with
      | .error failure => return .error failure
      | .ok p => return .ok (made, p)

/-- A run up to where something is published. -/
def produce (config : Config) : Program (Except Failure (List Path × Plan × List Outcome)) := do
  match ← prepare config with
  | .error failure => return .error failure
  | .ok (made, p) =>
    match ← writePlan false p.artifacts with
    | .error failure => return .error (.write failure)
    | .ok outcomes => return .ok (made, p, outcomes)

/-- The report of a run. -/
def reportOf (made : List Path) (p : Plan) (outcomes published : List Outcome) : RunReport :=
  ⟨false, p.packets.length, made,
    p.artifacts.zipWith (fun a o => ⟨a.artifact, o, a.inserted⟩) outcomes, published⟩

/-- **The parts of a run**: it produces the artifacts, and then it publishes. -/
theorem generate_run (config : Config) (t : Tree) : (generate config false).run t =
    match (produce config).run t with
    | (.error failure, t') => (.error failure, t')
    | (.ok (made, p, outcomes), t') =>
      (((publishIfWanted config false).run t').1.map (reportOf made p outcomes),
        ((publishIfWanted config false).run t').2) := by
  unfold generate produce prepare
  simp only [Program.run_bind]
  have hconfig : ∀ s t', (Scaffolds.load config).run t = (.ok s, t') → s.config = config :=
    fun _ _ => config_of_load
  generalize (Scaffolds.load config).run t = answer at hconfig ⊢
  obtain ⟨_ | s, t₁⟩ := answer
  · rfl
  · obtain rfl := hconfig s t₁ rfl
    simp only [Program.run_bind, Bool.false_eq_true, if_false]
    generalize (ensure s).run t₁ = answer
    obtain ⟨_ | made, t₂⟩ := answer
    · rfl
    · simp only [Program.run_bind, generateWith]
      generalize (plan s).run t₂ = answer
      obtain ⟨_ | p, t₃⟩ := answer
      · rfl
      · simp only [Program.run_bind, Program.run_pure]
        generalize (writePlan false p.artifacts).run t₃ = answer
        obtain ⟨_ | outcomes, t₄⟩ := answer
        · rfl
        · simp only [Program.run_bind, Program.run_pure]
          generalize (publishIfWanted s.config false).run t₄ = answer
          obtain ⟨_ | published, t₅⟩ := answer
          · rfl
          · rfl

/-! ### The files of a run -/

variable {config : Config} {t t' : Tree} {q : Place}

/-- The files that a run works on before it publishes: the schema and the artifacts. -/
def Config.paths (config : Config) : List Path :=
  config.schemaPath :: config.configured.map (·.2)

theorem map_files (s : Scaffolds) : s.files.map (·.1) = s.config.paths := by
  simp [Scaffolds.files, Config.paths, Function.comp_def]

/-- The files of a run do not get in each other's way, except that several of them may be
one. -/
structure Config.Apart (config : Config) (t : Tree) : Prop where
  /-- No path steps upwards. -/
  plain : ∀ p ∈ config.paths, ".." ∉ p.names
  /-- No file is the copy of another. -/
  copy : ∀ p ∈ config.paths, ∀ p' ∈ config.paths, t.placeOf p ≠ t.placeOf (stagingPath p')
  /-- No file is the backup of another. -/
  backup : ∀ p ∈ config.paths, ∀ p' ∈ config.paths, t.placeOf p ≠ t.placeOf (backupPath p')

/-- No file that is missing has a path that steps upwards and leads by its letters to something that
is there. -/
def Config.NoDetour (config : Config) (t : Tree) : Prop :=
  ∀ p ∈ config.paths, t.exists? p = false → ".." ∈ p.names → t.lookup (t.placeOf p) = none

theorem Config.Apart.noDetour (h : config.Apart t) : config.NoDetour t :=
  fun p hp _ hup => absurd hup (h.plain p hp)

/-- The place of the copy for a file that is missing. -/
def Config.IsMissingCopy (config : Config) (t : Tree) (q : Place) : Prop :=
  ∃ p ∈ config.paths, t.exists? p = false ∧ q = t.placeOf (stagingPath p)

/-- The places beside the artifacts, and the copy for the schema if that is missing. -/
def Config.IsSide (config : Config) (t : Tree) (q : Place) : Prop :=
  (∃ file ∈ config.configured,
      q = t.placeOf (stagingPath file.2) ∨ q = t.placeOf (backupPath file.2)) ∨
    t.exists? config.schemaPath = false ∧ q = t.placeOf (stagingPath config.schemaPath)

theorem Config.IsMissingCopy.isSide (h : config.IsMissingCopy t q) : config.IsSide t q := by
  obtain ⟨p, hp, hmissing, rfl⟩ := h
  rcases List.mem_cons.mp hp with rfl | hp
  · exact Or.inr ⟨hmissing, rfl⟩
  · obtain ⟨file, hfile, rfl⟩ := List.mem_map.mp hp
    exact Or.inl ⟨file, hfile, Or.inl rfl⟩

/-- Where a run may leave something before artifacts are staged: the copies of what is missing,
and what is missing itself. -/
def Config.IsMissing (config : Config) (t : Tree) (q : Place) : Prop :=
  config.IsMissingCopy t q ∨ (∃ p ∈ config.paths, q = t.placeOf p) ∧ t.lookup q = none

/-- Making what is missing spares everything else. -/
theorem ensure_spares {s : Scaffolds} (hw : t.WellFormed) (hdetour : s.config.NoDetour t)
    (hcopies : ∀ p ∈ s.config.paths, ∀ p' ∈ s.config.paths,
      t.placeOf p ≠ t.placeOf (stagingPath p')) :
    Tree.Spares (s.config.IsMissing t) t ((ensure s).run t).2 ∧
      (((ensure s).run t).1.isOk = true →
        ∀ p ∈ s.config.paths, ((ensure s).run t).2.exists? p = true) := by
  have hmem : ∀ file ∈ s.files, file.1 ∈ s.config.paths := fun file hfile =>
    map_files s ▸ List.mem_map_of_mem hfile
  have hside : ∀ p ∈ s.config.paths, ¬s.config.IsMissingCopy t (t.placeOf p) := by
    rintro p hp ⟨p', hp', -, heq⟩
    exact hcopies p hp p' hp' heq
  obtain ⟨made, hmade, hresult⟩ := makeMissing_run (S := s.config.IsMissingCopy t) s.files t hw
    fun file hfile hmissing => hmissing.elim (fun hnot => ⟨file.1, hmem file hfile, hnot, rfl⟩)
      fun hcopy => absurd hcopy (hside _ (hmem file hfile))
  replace hmade : Made _ t ((ensure s).run t).2 s.files made := hmade
  refine ⟨hmade.spares.mono ?_, fun hok => ?_⟩
  · rintro q (hcopy | ⟨m, hm, rfl⟩)
    · exact Or.inl hcopy
    · have hp : m.1 ∈ s.config.paths :=
        hmem _ (hmade.order.subset (List.mem_map_of_mem hm))
      refine Or.inr ⟨⟨m.1, hp, rfl⟩, ?_⟩
      by_contra hthere
      exact hthere (hdetour m.1 hp (hmade.absent m hm (hside m.1 hp))
        (hmade.upwards m hm (hside m.1 hp) hthere))
  · rcases hresult with ⟨-, hexist⟩ | ⟨failure, hfailure⟩
    · intro p hp
      rw [← map_files] at hp
      obtain ⟨file, hfile, rfl⟩ := List.mem_map.mp hp
      exact hexist (fun file hfile => hside _ (hmem file hfile)) file hfile
    · rw [show ((ensure s).run t).1 = .error failure from hfailure] at hok
      cases hok

/-- What a plan has found: all files are there, and the artifacts can be read. -/
structure Prepared (config : Config) (t : Tree) (p : Plan) : Prop where
  /-- All files are there. -/
  there : ∀ p ∈ config.paths, t.exists? p = true
  /-- The plan is for the artifacts that are wanted. -/
  paths : p.artifacts.map (·.path) = config.configured.map (·.2)
  /-- The artifacts can be read. -/
  read : ∀ a ∈ p.artifacts, ∃ bytes, t.read a.path = .ok bytes

/-- **The first part of a run** spares what is there. -/
theorem prepare_run (hw : t.WellFormed) (h : config.Apart t) :
    Tree.Spares (config.IsMissing t) t ((prepare config).run t).2 ∧
      ∀ made p, ((prepare config).run t).1 = .ok (made, p) →
        Prepared config ((prepare config).run t).2 p := by
  unfold prepare
  rw [Program.run_bind]
  have hconfig : ∀ s t', (Scaffolds.load config).run t = (.ok s, t') → s.config = config :=
    fun _ _ => config_of_load
  -- Making what is missing is the only part that writes: before and after it, files are read.
  have hload := (isReading_load config).run_snd t
  generalize (Scaffolds.load config).run t = answer at hconfig hload ⊢
  obtain ⟨_ | s, t₁⟩ := answer
  · obtain rfl : t₁ = t := hload
    exact ⟨hw.spares_self, fun made p hok => nomatch hok⟩
  · obtain rfl : t₁ = t := hload
    obtain rfl := hconfig s t₁ rfl
    dsimp only
    rw [Program.run_bind]
    obtain ⟨hspares, hthere⟩ := ensure_spares hw h.noDetour h.copy
    generalize (ensure s).run t₁ = answer at hspares hthere ⊢
    obtain ⟨_ | made, t₂⟩ := answer
    · exact ⟨hspares, fun made p hok => nomatch hok⟩
    · dsimp only at hspares hthere ⊢
      rw [Program.run_bind]
      have hplan := (isReading_plan s).run_snd t₂
      have hok : ∀ p t', (plan s).run t₂ = (.ok p, t') → _ := fun _ _ => plan_ok
      generalize (plan s).run t₂ = answer at hplan hok ⊢
      obtain ⟨_ | p, t₃⟩ := answer
      · obtain rfl : t₃ = t₂ := hplan
        exact ⟨hspares, fun made p hok => nomatch hok⟩
      · obtain ⟨rfl, -, hplans⟩ := hok p t₃ rfl
        refine ⟨hspares, fun made' p' heq => ?_⟩
        obtain ⟨rfl, rfl⟩ := Prod.mk.inj (Except.ok.inj heq)
        refine ⟨hthere rfl, ?_, fun a ha => ?_⟩
        · exact map_eq_of_forall₂ hplans fun _ _ hplan => hplan.eq.2
        · obtain ⟨file, hfile, hplan⟩ := (forall₂_mem hplans).2 a ha
          refine ⟨_, hplan.read hspares.wellFormed (hthere rfl file.2 ?_)⟩
          exact List.mem_cons_of_mem _ (List.mem_map_of_mem hfile)

/-! ### What is to be staged -/

/-- What is to be staged for some artifacts. -/
def filesOf (artifacts : List PlannedArtifact) : List (Path × ByteArray) :=
  artifacts.map fun a => (a.path, a.merged.toUTF8)

theorem mem_filesOf {artifacts : List PlannedArtifact} {a : PlannedArtifact}
    (ha : a ∈ artifacts) : (a.path, a.merged.toUTF8) ∈ filesOf artifacts :=
  List.mem_map_of_mem ha

end Packetry
