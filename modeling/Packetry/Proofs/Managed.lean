import Packetry.Plan
import Packetry.Proofs.Additions
import Mathlib.Data.List.DropRight

/-!
# Files that stay maintained

A file is *managed* (`Packetry.Managed`) if it is a frame around an interior that the generator
can maintain: all lines are plain, and where the generator only ever adds, the interior is made of
handlers. Generating into such a file leaves it managed, and generating the same once more changes
nothing and adds nothing (`Packetry.mergedText_managed`): an interior that is replaced is the same
the second time, and of one that is added to, every handler is found by then, whenever it was
written.
-/

namespace Packetry

open Text

variable {config : Config} {packets : List Packet} {a : Artifact} {r : Region} {form : HandlerForm}

/-- An interior that can be maintained. -/
structure IsInterior (form : HandlerForm) (d : Artifact.Discipline) (interior : List String) :
    Prop where
  /-- Its lines are no sentinels. -/
  plain : ∀ s ∈ interior, IsPlainLine s
  /-- If it is added to, it is made of handlers. -/
  handlers : d = .additive → ∃ blocks : List (String × List String),
    interior = blocks.flatMap (·.2) ∧ ∀ block ∈ blocks, IsHandler form block.1 block.2

/-- A text that the generator maintains. -/
def Managed (config : Config) (a : Artifact) (text : String) : Prop :=
  ∃ (F : Frame) (interior : List String), text = F.file (config.region a) interior ∧
    IsInterior (handlerForm config.sessionClass a) a.discipline interior

/-! ### What a configuration must be like -/

/-- A configuration with which files stay maintained. -/
structure Config.IsPlain (config : Config) : Prop where
  /-- The templates are the standard ones. -/
  templates : config.templates = none
  /-- The session class is made of word characters. -/
  sessionClass : IsName config.sessionClass
  /-- The namespace is a single line. -/
  registerNamespace : IsSingle config.registerNamespace
  /-- The paths of the artifacts are single lines. -/
  files : ∀ a p, config.files.get? a = some p → IsSingle p.text
  /-- The names of the regions are single lines. -/
  regions : ∀ a, IsSingle (config.regions.get a)
  /-- The names of the regions are not blank. -/
  named : ∀ a, trim (config.regions.get a).toList ≠ []

/-- The artifacts whose file names are written into other artifacts. -/
def includedArtifacts : List Artifact :=
  [.packetId, .protocolHeader, .sessionHeader]

/-- The same, where a path has to be a single line only if the name of its file is written into
another one. -/
structure Config.IsSteady (config : Config) : Prop where
  /-- The templates are the standard ones. -/
  templates : config.templates = none
  /-- The session class is made of word characters. -/
  sessionClass : IsName config.sessionClass
  /-- The namespace is a single line. -/
  registerNamespace : IsSingle config.registerNamespace
  /-- The paths whose names are written are single lines. -/
  included : ∀ a ∈ includedArtifacts, ∀ p, config.files.get? a = some p → IsSingle p.text
  /-- The names of the regions are single lines. -/
  regions : ∀ a, IsSingle (config.regions.get a)
  /-- The names of the regions are not blank. -/
  named : ∀ a, trim (config.regions.get a).toList ≠ []

theorem Config.IsPlain.steady (h : config.IsPlain) : config.IsSteady :=
  ⟨h.templates, h.sessionClass, h.registerNamespace, fun a _ => h.files a, h.regions, h.named⟩

theorem trim_subset (text : List Char) : trim text ⊆ text :=
  List.Subset.trans (Region.trim_isPrefix text).subset (List.dropWhile_suffix isBlank).subset

/-- A trimmed text is trimmed. -/
theorem trim_trim (text : List Char) : trim (trim text) = trim text := by
  have hfront : (trim text).dropWhile isBlank = trim text := by
    cases htrim : trim text with
    | nil => rfl
    | cons c rest =>
      have hhead := head?_trim text
      have hblank := List.head?_dropWhile_not isBlank text
      rw [← hhead, htrim] at hblank
      have hc : isBlank c = false := by simpa using hblank
      rw [List.dropWhile_cons_of_neg (by simp [hc])]
  have hback : trimEnd (trim text) = trim text := by
    unfold trim trimEnd
    rw [List.reverse_reverse, List.dropWhile_idempotent]
  rw [trim, hfront, hback]

theorem Config.isNamed (hsingle : IsSingle (config.regions.get a))
    (hnamed : trim (config.regions.get a).toList ≠ []) : (config.region a).IsNamed := by
  have hname : (config.region a).name.toList = trim (config.regions.get a).toList :=
    String.toList_ofList
  refine ⟨?_, ?_, ?_, ?_⟩
  · rw [hname]
    exact hnamed
  · rw [hname]
    exact trim_trim _
  · rw [hname]
    exact fun hmem => hsingle.feed (trim_subset _ hmem)
  · rw [hname]
    exact fun hmem => hsingle.carriage (trim_subset _ hmem)

theorem Config.IsSteady.isNamed (h : config.IsSteady) (a : Artifact) :
    (config.region a).IsNamed :=
  Config.isNamed (h.regions a) (h.named a)

/-! ### Generating into a frame -/

/-- What is missing is added to handlers. -/
theorem Frame.merge_of_missing (F : Frame) (hr : r.IsNamed)
    {old new added : List (String × List String)}
    (hold : ∀ block ∈ old, IsHandler form block.1 block.2)
    (hadded : Document.missing (old.map (·.1)) (new.map entryOf) = added.map entryOf) :
    Document.merge ⟨F.text r (old.flatMap (·.2)), false⟩ r (new.map entryOf) form =
      .ok (⟨F.text r ((old ++ added).flatMap (·.2)), false⟩, added.map entryOf) := by
  have hplain : ∀ s ∈ old.flatMap (·.2), IsPlainLine s := by
    intro s hs
    obtain ⟨block, hblock, hs⟩ := List.mem_flatMap.mp hs
    exact (hold block hblock).isPlainLine s hs
  have hl := Region.locate_eq_ok_iff.mp (F.locate_eq hr hplain)
  have hnames : form.names (F.location r (old.flatMap (·.2))).interior = old.map (·.1) :=
    names_of_handlers hold
  have hinterior : (F.location r (old.flatMap (·.2))).interior ++ handlerText added =
      (((old ++ added).flatMap (·.2)).map lineOf).flatten := by
    rw [List.flatMap_append, List.map_append, List.flatten_append]
    rfl
  have hmerge := Document.merge_eq (d := ⟨F.text r (old.flatMap (·.2)), false⟩) hl
    (new.map entryOf) form
  rwa [hnames, hadded, textOf_entryOf, hinterior, F.around_eq] at hmerge

/-- Handlers are added to handlers. -/
theorem Frame.merge_eq (F : Frame) (hr : r.IsNamed) {old : List (String × List String)}
    (hold : ∀ block ∈ old, IsHandler form block.1 block.2) (new : List (String × List String)) :
    ∃ added : List (String × List String), added.Sublist new ∧
      added.map entryOf = Document.missing (old.map (·.1)) (new.map entryOf) ∧
      Document.merge ⟨F.text r (old.flatMap (·.2)), false⟩ r (new.map entryOf) form =
        .ok (⟨F.text r ((old ++ added).flatMap (·.2)), false⟩, added.map entryOf) := by
  obtain ⟨added, hsub, hadded⟩ :=
    List.sublist_map_iff.mp (Document.missing_sublist (old.map (·.1)) (new.map entryOf))
  exact ⟨added, hsub, hadded.symm, F.merge_of_missing hr hold hadded⟩

/-- Whether a content replaces is known from the artifact. -/
theorem discipline_of_contentOf (C : String) (packets : List Packet) (a : Artifact) :
    a.discipline = match contentOf C packets a with
      | .replace _ => .replace
      | .additive _ => .additive := by
  cases a <;> rfl

/-- A document gets new entries by a merge. -/
theorem Document.update_of_merge {d d' : Document} {entries added : List Entry}
    (h : d.merge r entries form = .ok (d', added)) :
    d.update r form (.additive entries) = .ok (d', added.length) := by
  rw [Document.update, h]
  rfl

/-- Generating into a frame keeps the frame, and the second time it changes nothing. -/
theorem Frame.update_eq (F : Frame) (hr : r.IsNamed) {content : Content} {interior : List String}
    {d : Artifact.Discipline}
    (hd : d = match content with
      | .replace _ => .replace
      | .additive _ => .additive)
    (hcontent : content.IsPlain form) (h : IsInterior form d interior) :
    ∃ (new : List String) (n : Nat), IsInterior form d new ∧
      Document.update ⟨F.text r interior, false⟩ r form content =
        .ok (⟨F.text r new, false⟩, n) ∧
      Document.update ⟨F.text r new, false⟩ r form content = .ok (⟨F.text r new, false⟩, 0) := by
  cases hcontent with
  | @replace ss hss =>
    have hreplaced : ∀ old, (∀ s ∈ old, IsPlainLine s) →
        Document.update ⟨F.text r old, false⟩ r form (.replace (unlines ss)) =
          .ok (⟨F.text r ss, false⟩, 0) := by
      intro old hold
      rw [Document.update, toList_unlines, F.replace_eq hr hold]
      rfl
    refine ⟨ss, 0, ⟨hss, ?_⟩, hreplaced interior h.plain, hreplaced ss hss⟩
    intro hadditive
    rw [hd] at hadditive
    cases hadditive
  | @additive new hnew =>
    obtain ⟨old, rfl, hold⟩ := h.handlers hd
    obtain ⟨added, hsub, hadded, hmerge⟩ := F.merge_eq hr hold new
    have hall : ∀ block ∈ old ++ added, IsHandler form block.1 block.2 := fun block hblock =>
      (List.mem_append.mp hblock).elim (hold block) fun hblock =>
        hnew block (hsub.subset hblock)
    -- What was missing the first time stands in the region the second time.
    have hnothing : Document.missing ((old ++ added).map (·.1)) (new.map entryOf) = [] := by
      rw [List.map_append, ← keys_entryOf added, hadded, Document.missing_append_missing]
    obtain ⟨none', -, hnone, hagain⟩ := F.merge_eq hr hall new
    rw [hnothing, List.map_eq_nil_iff] at hnone
    subst hnone
    rw [List.append_nil, List.map_nil] at hagain
    refine ⟨(old ++ added).flatMap (·.2), added.length, ⟨?_, fun _ => ⟨_, rfl, hall⟩⟩, ?_, ?_⟩
    · intro s hs
      obtain ⟨block, hblock, hs⟩ := List.mem_flatMap.mp hs
      exact (hall block hblock).isPlainLine s hs
    · rw [Document.update_of_merge hmerge, List.length_map]
    · exact Document.update_of_merge hagain

/-- **Managed files stay managed**, and generating the same once more changes nothing. -/
theorem mergedText_managed {text : String} (hconfig : config.IsSteady)
    (hpackets : ∀ p ∈ packets, p.IsPlain) (h : Managed config a text) :
    ∃ (merged : String) (n : Nat), mergedText config packets a text = .ok (merged, n) ∧
      Managed config a merged ∧ mergedText config packets a merged = .ok (merged, 0) := by
  obtain ⟨F, interior, rfl, hinterior⟩ := h
  have hr := hconfig.isNamed a
  obtain ⟨new, n, hnew, hfirst, hsecond⟩ := F.update_eq hr
    (discipline_of_contentOf config.sessionClass packets a)
    (contentOf_isPlain hconfig.sessionClass hpackets a) hinterior
  refine ⟨F.file (config.region a) new, n, ?_, ⟨F, new, rfl, hnew⟩, ?_⟩
  · unfold mergedText
    rw [F.parse_file hr hinterior.plain, hfirst]
    rfl
  · unfold mergedText
    rw [F.parse_file hr hnew.plain, hsecond]
    rfl

end Packetry
