import Packetry.Scaffold
import Packetry.Proofs.Blocks
import Packetry.Proofs.Managed
import Packetry.Proofs.Reading

/-!
# Files that are made are managed

What a file that is missing starts from is managed already (`Packetry.scaffold_managed`). The
standard templates are gone through line by line by a check (`Packetry.Template.opensRegion`) that
knows nothing of the configuration: the lines around the two sentinels have to be plain whatever
their holes are filled with, as long as that is a single line. That the check is sound is shown
for all templates, so that of the standard ones only the check is left to be computed.

A hole is behind something on its line that begins no sentinel, but for the session class, which
comes first on the line that deletes its constructor. Such a line may begin with the very characters
of a sentinel. But the session class has no white space, so that the bracket behind it is part of
the first word, and the first word of a sentinel has no bracket (`Packetry.isPlainLine_of_bracket`).
-/

namespace Packetry

open Text

/-- The lines of a frame around an interior. -/
def Frame.lines (F : Frame) (r : Region) (interior : List String) : List String :=
  F.before ++ r.beginMarker :: (interior ++ r.endMarker :: F.after)

theorem Frame.file_eq_unlines (F : Frame) (r : Region) (interior : List String) :
    F.file r interior = unlines (F.lines r interior) := by
  rw [← String.ofList_toList (s := unlines _), toList_unlines]
  rfl

/-- What is added to an interior stands above the end sentinel, which is the first of its kind. -/
theorem Frame.lines_append (F : Frame) {r : Region} (hr : r.IsNamed) {interior : List String}
    (h : ∀ s ∈ interior, IsPlainLine s) (more : List String) :
    F.lines r (interior ++ more) = (F.lines r interior).takeWhile (· ≠ r.endMarker) ++
      (more ++ (F.lines r interior).dropWhile (· ≠ r.endMarker)) := by
  have hplain : ¬IsPlainLine r.endMarker := fun hplain => by
    have hother := (Region.isOther_of_isPlainLine (r := r) hplain).2
    rw [Region.isMarkerLine_endMarker hr] at hother
    cases hother
  have hbegin : r.beginMarker ≠ r.endMarker := fun heq => by
    have hother := Region.isMarkerLine_end_of_begin (Region.isMarkerLine_beginMarker hr)
    rw [heq, Region.isMarkerLine_endMarker hr] at hother
    cases hother
  have hfront : ∀ s ∈ F.before ++ r.beginMarker :: interior, decide (s ≠ r.endMarker) = true := by
    intro s hs
    refine decide_eq_true ?_
    rcases List.mem_append.mp hs with hs | hs
    · exact fun heq => hplain (heq ▸ F.plain_before s hs)
    rcases List.mem_cons.mp hs with rfl | hs
    · exact hbegin
    · exact fun heq => hplain (heq ▸ h s hs)
  have hsplit : F.lines r interior =
      (F.before ++ r.beginMarker :: interior) ++ r.endMarker :: F.after := by
    simp only [lines, List.append_assoc, List.cons_append]
  rw [hsplit, List.takeWhile_append_of_pos hfront, List.dropWhile_append_of_pos hfront,
    List.takeWhile_cons_of_neg (by simp), List.dropWhile_cons_of_neg (by simp)]
  simp only [lines, List.append_assoc, List.cons_append, List.append_nil]

/-! ### First words -/

/-- What a text begins with, up to the first white space. -/
def firstWord (text : List Char) : List Char :=
  text.takeWhile (!isBlank ·)

theorem firstWord_append_of_unspaced {s t : List Char} (h : ∀ c ∈ s, isBlank c = false) :
    firstWord (s ++ t) = s ++ firstWord t :=
  List.takeWhile_append_of_pos fun c hc => by simp [h c hc]

/-- What is put behind a text takes nothing from its first word. -/
theorem firstWord_subset_append (s t : List Char) : firstWord s ⊆ firstWord (s ++ t) := by
  unfold firstWord
  rw [List.takeWhile_append]
  split
  · rename_i hall
    rw [(List.takeWhile_prefix _).eq_of_length hall]
    exact List.subset_append_left s _
  · exact List.Subset.refl _

/-- A text with a first word does not begin with white space. -/
theorem dropWhile_of_firstWord {text : List Char} (h : firstWord text ≠ []) :
    text.dropWhile isBlank = text := by
  cases text with
  | nil => rfl
  | cons c rest =>
    cases hc : isBlank c with
    | false => exact List.dropWhile_cons_of_neg (by simp [hc])
    | true => simp [firstWord, hc] at h

/-- A sentinel begins with a word that has no bracket in it. -/
theorem bracket_notMem_firstWord {marker text : List Char}
    (hmarker : marker = opener ∨ marker = closer) (h : marker <+: text) :
    '(' ∉ firstWord text := by
  obtain ⟨rest, rfl⟩ := h
  unfold firstWord
  rw [List.takeWhile_append, if_neg (by rcases hmarker with rfl | rfl <;> decide)]
  rcases hmarker with rfl | rfl <;> decide

/-- **A line that begins with the session class is plain** if there is a bracket in what is behind
it up to the first white space. -/
theorem isPlainLine_of_bracket {C t : String} (hC : IsUnspaced C) (ht : IsSingle t)
    (hbracket : '(' ∈ firstWord t.toList) : IsPlainLine ("\t" ++ (C ++ t)) := by
  have hbody : lineOf ("\t" ++ (C ++ t)) = '\t' :: (C.toList ++ (t.toList ++ ['\n'])) := by
    simp [lineOf]
  have hword : '(' ∈ firstWord (C.toList ++ (t.toList ++ ['\n'])) := by
    rw [firstWord_append_of_unspaced hC]
    exact List.mem_append_right _ (firstWord_subset_append _ _ hbracket)
  have hdrop : (lineOf ("\t" ++ (C ++ t))).dropWhile isBlank =
      C.toList ++ (t.toList ++ ['\n']) := by
    rw [hbody, List.dropWhile_cons_of_pos (by decide),
      dropWhile_of_firstWord (List.ne_nil_of_mem hword)]
  refine ⟨IsSingle.append (by decide) (hC.isSingle.append ht), fun h => ?_, fun h => ?_⟩
  · exact bracket_notMem_firstWord (.inl rfl) h (hdrop ▸ hword)
  · exact bracket_notMem_firstWord (.inr rfl) h (hdrop ▸ hword)

namespace Template

variable {scope : Scope} {s t : String}

/-! ### Rendering piece by piece -/

/-- A template that names no values, and its rendering. -/
inductive Renders (scope : Scope) : List Block → String → Prop where
  /-- Nothing is rendered as nothing. -/
  | nil : Renders scope [] ""
  /-- One piece is rendered after the other. -/
  | cons {piece : Block} {pieces : List Block} {s t : String}
    (hpiece : piece.render? scope = some (s, scope)) (h : Renders scope pieces t) :
    Renders scope (piece :: pieces) (s ++ t)

theorem Renders.renderFrom?_eq {pieces : List Block} (h : Renders scope pieces s) :
    renderFrom? scope pieces = some (s, scope) := by
  induction h with
  | nil => rw [renderFrom?]
  | cons hpiece h ih =>
    rw [renderFrom?, hpiece]
    simp only [bind, Option.bind, ih, pure]

theorem Renders.append {front back : List Block} (hfront : Renders scope front s)
    (hback : Renders scope back t) : Renders scope (front ++ back) (s ++ t) := by
  induction hfront with
  | nil => rwa [List.nil_append, String.empty_append]
  | cons hpiece h ih =>
    rw [List.cons_append, String.append_assoc]
    exact .cons hpiece ih

theorem renders_text (scope : Scope) (s : String) : Renders scope [.text s] s := by
  have hpiece : (Block.text s).render? scope = some (s, scope) := by rw [Block.render?]
  have h := Renders.cons hpiece .nil
  rwa [String.append_empty] at h

theorem renders_lookup {path : List String} {v : Value} (h : scope.find? path = some v) :
    Renders scope [.print (.lookup path)] v.print := by
  have hpiece : (Block.print (.lookup path)).render? scope = some (v.print, scope) := by
    rw [Block.render?, Expression.eval?, h]
    rfl
  have hrenders := Renders.cons hpiece .nil
  rwa [String.append_empty] at hrenders

/-- Lines are rendered one by one. -/
theorem renders_ofLines {lines : List (List Block)} {ss : List String}
    (h : List.Forall₂ (Renders scope) lines ss) : Renders scope (ofLines lines) (unlines ss) := by
  induction h with
  | nil => exact .nil
  | @cons line s lines ss hline h ih =>
    rw [unlines_cons]
    exact (hline.append (renders_text scope "\n")).append ih

/-- The lines that some lines of a template are rendered as. -/
theorem filterMap_of_renders {lines : List (List Block)} {ss : List String}
    (h : List.Forall₂ (Renders scope) lines ss) :
    lines.filterMap (fun line => (renderFrom? scope line).map Prod.fst) = ss := by
  induction h with
  | nil => rfl
  | cons hline h ih => rw [List.filterMap_cons, hline.renderFrom?_eq, Option.map_some, ih]

/-! ### Holes -/

/-- The values that are known to be single lines. -/
def singleNames : List String :=
  ["session_class", "register_namespace", "packet_id_header", "protocol_header", "session_header"]

/-- A scope that fills holes with single lines, among them the session class. -/
structure Scope.IsPlain (scope : Scope) (C : String) : Prop where
  /-- The holes. -/
  single : ∀ name ∈ singleNames, ∃ v, scope.find? [name] = some v ∧ IsSingle v.print
  /-- The session class. -/
  sessionClass : scope.find? ["session_class"] = some (.text C)
  /-- There is no white space in it. -/
  unspaced : IsUnspaced C

/-- Whether a piece is a single line whatever fills the holes. -/
def isSinglePiece : Block → Bool
  | .text s => decide (IsSingle s)
  | .print (.lookup [name]) => decide (name ∈ singleNames)
  | _ => false

theorem renders_of_isSinglePiece {C : String} (hscope : scope.IsPlain C) {pieces : List Block}
    (h : pieces.all isSinglePiece = true) : ∃ s, Renders scope pieces s ∧ IsSingle s := by
  induction pieces with
  | nil => exact ⟨"", .nil, by decide⟩
  | cons piece pieces ih =>
    rw [List.all_cons, Bool.and_eq_true] at h
    obtain ⟨t, ht, hsingle⟩ := ih h.2
    have hpiece : ∃ s, piece.render? scope = some (s, scope) ∧ IsSingle s := by
      have hone := h.1
      unfold isSinglePiece at hone
      split at hone
      · rename_i s
        exact ⟨s, by rw [Block.render?], of_decide_eq_true hone⟩
      · rename_i name
        obtain ⟨v, hv, hprint⟩ := hscope.single name (of_decide_eq_true hone)
        refine ⟨v.print, ?_, hprint⟩
        rw [Block.render?, Expression.eval?, hv]
        rfl
      · cases hone
    obtain ⟨s, hs, hs'⟩ := hpiece
    exact ⟨s ++ t, .cons hs ht, hs'.append hsingle⟩

/-! ### Lines -/

/-- Whether a line is plain whatever fills its holes. Where the session class comes first, there has
to be a bracket right behind it. -/
def isPlainLine : List Block → Bool
  | [] => true
  | [.text s] => decide (IsPlainLine s)
  | .text "\t" :: .print (.lookup ["session_class"]) :: .text s :: rest =>
    decide ('(' ∈ firstWord s.toList) && decide (IsSingle s) && rest.all isSinglePiece
  | .text s :: rest => decide (Opens s) && decide (IsSingle s) && rest.all isSinglePiece
  | _ => false

theorem renders_of_isPlainLine {C : String} (hscope : scope.IsPlain C) {line : List Block}
    (h : isPlainLine line = true) : ∃ s, Renders scope line s ∧ IsPlainLine s := by
  unfold isPlainLine at h
  split at h
  · exact ⟨"", .nil, by decide⟩
  · rename_i s
    exact ⟨s, renders_text scope s, of_decide_eq_true h⟩
  · rename_i s rest
    simp only [Bool.and_eq_true, decide_eq_true_eq] at h
    obtain ⟨t, ht, hsingle⟩ := renders_of_isSinglePiece hscope h.2
    refine ⟨"\t" ++ (C ++ (s ++ t)), .cons (by rw [Block.render?])
      (.cons ?_ (.cons (by rw [Block.render?]) ht)), ?_⟩
    · rw [Block.render?, Expression.eval?, hscope.sessionClass]
      rfl
    · refine isPlainLine_of_bracket hscope.unspaced (h.1.2.append hsingle) ?_
      rw [String.toList_append]
      exact firstWord_subset_append _ _ h.1.1
  · rename_i s rest _ _
    simp only [Bool.and_eq_true, decide_eq_true_eq] at h
    obtain ⟨t, ht, hsingle⟩ := renders_of_isSinglePiece hscope h.2
    exact ⟨s ++ t, .cons (by rw [Block.render?]) ht,
      (h.1.1.append t).isPlainLine (h.1.2.append hsingle)⟩
  · cases h

theorem renders_lines {C : String} (hscope : scope.IsPlain C) {lines : List (List Block)}
    (h : lines.all isPlainLine = true) :
    ∃ ss, List.Forall₂ (Renders scope) lines ss ∧ ∀ s ∈ ss, IsPlainLine s := by
  induction lines with
  | nil => exact ⟨[], .nil, by simp⟩
  | cons line lines ih =>
    rw [List.all_cons, Bool.and_eq_true] at h
    obtain ⟨s, hs, hplain⟩ := renders_of_isPlainLine hscope h.1
    obtain ⟨ss, hss, hplains⟩ := ih h.2
    refine ⟨s :: ss, .cons hs hss, fun u hu => ?_⟩
    rcases List.mem_cons.mp hu with rfl | hu
    · exact hplain
    · exact hplains u hu

/-! ### The check -/

/-- Whether lines behind the begin sentinel have certain texts first, then close the region, and go
on with plain lines. -/
def closesRegion : List String → List (List Block) → Bool
  | s :: first, [.text t] :: rest => decide (s = t) && closesRegion first rest
  | [], [.print (.lookup ["region", "end"])] :: rest => rest.all isPlainLine
  | _, _ => false

/-- Whether lines have one region among plain lines, and certain texts in it. -/
def opensRegion (first : List String) : List (List Block) → Bool
  | [.print (.lookup ["region", "begin"])] :: rest => closesRegion first rest
  | line :: rest => isPlainLine line && opensRegion first rest
  | [] => false

section Check

variable {C : String} {r : Region} {first : List String} {lines : List (List Block)}

theorem renders_of_closesRegion (hscope : scope.IsPlain C)
    (hend : scope.find? ["region", "end"] = some (.text r.endMarker))
    (h : closesRegion first lines = true) :
    ∃ after, List.Forall₂ (Renders scope) lines (first ++ r.endMarker :: after) ∧
      ∀ s ∈ after, IsPlainLine s := by
  fun_induction closesRegion first lines with
  | case1 s first t rest ih =>
    rw [Bool.and_eq_true, decide_eq_true_eq] at h
    obtain ⟨after, hlines, hafter⟩ := ih h.2
    exact ⟨after, .cons (h.1 ▸ renders_text scope s) hlines, hafter⟩
  | case2 rest =>
    obtain ⟨after, hlines, hafter⟩ := renders_lines hscope h
    exact ⟨after, .cons (renders_lookup hend) hlines, hafter⟩
  | case3 => cases h

/-- **The check is sound**: lines that it lets through are rendered as those of a frame. -/
theorem renders_of_opensRegion (hscope : scope.IsPlain C)
    (hbegin : scope.find? ["region", "begin"] = some (.text r.beginMarker))
    (hend : scope.find? ["region", "end"] = some (.text r.endMarker))
    (h : opensRegion first lines = true) :
    ∃ F : Frame, List.Forall₂ (Renders scope) lines (F.lines r first) := by
  fun_induction opensRegion first lines with
  | case1 rest =>
    obtain ⟨after, hlines, hafter⟩ := renders_of_closesRegion hscope hend h
    exact ⟨⟨[], after, by simp, hafter⟩, .cons (renders_lookup hbegin) hlines⟩
  | case2 line rest _ ih =>
    rw [Bool.and_eq_true] at h
    obtain ⟨s, hs, hplain⟩ := renders_of_isPlainLine hscope h.1
    obtain ⟨F, hlines⟩ := ih h.2
    exact ⟨⟨s :: F.before, F.after, List.forall_mem_cons.mpr ⟨hplain, F.plain_before⟩,
      F.plain_after⟩, .cons hs hlines⟩
  | case3 => cases h

end Check

/-- The lines of a template. -/
def linesOf : Template → List (List Block)
  | [] => []
  | .text "\n" :: rest => [] :: linesOf rest
  | piece :: rest =>
    match linesOf rest with
    | [] => [[piece]]
    | line :: lines => (piece :: line) :: lines

/-- The standard templates pass the check, with the first lines of their artifacts. -/
theorem opensRegion_standard (a : Artifact) : standard a = ofLines (linesOf (standard a)) ∧
    opensRegion a.firstLines (linesOf (standard a)) = true := by
  cases a <;> exact ⟨rfl, by decide +kernel⟩

end Template

/-! ### Names of files -/

theorem mem_of_mem_fields {c d : Char} {text field : List Char} (h : field ∈ fields c text)
    (hd : d ∈ field) : d ∈ text := by
  induction text generalizing field with
  | nil =>
    rw [fields, List.mem_singleton] at h
    rwa [h] at hd
  | cons e text ih =>
    rw [fields] at h
    split at h
    · rcases List.mem_cons.mp h with rfl | h
      · cases hd
      · exact List.mem_cons_of_mem _ (ih h hd)
    · split at h
      · rename_i hnone
        exact absurd hnone (fields_ne_nil c text)
      · rename_i first more hfields
        rcases List.mem_cons.mp h with rfl | h
        · rcases List.mem_cons.mp hd with rfl | hd
          · exact List.mem_cons_self
          · exact List.mem_cons_of_mem _ (ih (by simp [hfields]) hd)
        · exact List.mem_cons_of_mem _ (ih (by simp [hfields, h]) hd)

theorem Path.mem_of_mem_segments {p : Path} {segment : List Char} {d : Char}
    (h : segment ∈ p.parts.segments) (hd : d ∈ segment) : d ∈ p.text.toList := by
  unfold parts at h
  generalize p.text.toList = text at h ⊢
  have hmem : ∀ rest, segment ∈ segmentsOf rest → d ∈ rest :=
    fun rest h => mem_of_mem_fields h hd
  unfold partsOf at h
  split at h
  · exact List.mem_cons_of_mem _ (hmem _ h)
  · exact List.mem_cons_of_mem _ (hmem _ h)
  · cases h
  · exact hmem _ h

/-- The name of a file is a single line if the path is one. -/
theorem headerName_single {p : Path} (h : IsSingle p.text) : IsSingle (headerName p) := by
  unfold headerName
  cases hname : p.fileName? with
  | none => exact h
  | some name =>
    have hsub : ∀ c ∈ name.toList, c ∈ p.text.toList := by
      unfold Path.fileName? at hname
      split at hname
      · rename_i segment hsegment
        split at hname
        · cases hname
        · obtain rfl := Option.some.inj hname
          intro c hc
          rw [String.toList_ofList] at hc
          have hmem := List.mem_of_getLast? hsegment
          rw [Path.trimVoids, List.mem_reverse] at hmem
          have hmem := (List.dropWhile_suffix Path.isVoid).subset hmem
          exact Path.mem_of_mem_segments (List.mem_reverse.mp hmem) hc
      · cases hname
    exact ⟨fun hmem => h.feed (hsub _ hmem), fun hmem => h.carriage (hsub _ hmem)⟩

/-! ### Scaffolds -/

variable {config : Config}

/-- What the holes of a template stand for. -/
def Config.scope (config : Config) (r : Region) : Template.Scope :=
  ⟨config.values ++ [("region", r.value)], []⟩

/-- A configuration whose texts keep to their lines in a scaffold. -/
structure Config.IsOneLine (config : Config) : Prop where
  /-- There is no white space in the session class. -/
  sessionClass : IsUnspaced config.sessionClass
  /-- The namespace is a single line. -/
  registerNamespace : IsSingle config.registerNamespace
  /-- The names under which files are included are single lines. -/
  included : ∀ a ∈ includedArtifacts, ∀ p, config.files.get? a = some p → IsSingle (headerName p)
  /-- The names of the regions are single lines. -/
  regions : ∀ a, IsSingle (config.regions.get a)
  /-- The names of the regions are not blank. -/
  named : ∀ a, trim (config.regions.get a).toList ≠ []

theorem Config.IsSteady.oneLine (h : config.IsSteady) : config.IsOneLine :=
  ⟨h.sessionClass.isUnspaced, h.registerNamespace,
    fun a ha p hp => headerName_single (h.included a ha p hp), h.regions, h.named⟩

theorem Config.IsOneLine.isNamed (h : config.IsOneLine) (a : Artifact) :
    (config.region a).IsNamed :=
  Config.isNamed (h.regions a) (h.named a)

theorem Config.IsOneLine.scope (h : config.IsOneLine) (r : Region) :
    (config.scope r).IsPlain config.sessionClass := by
  refine ⟨fun name hname => ?_, rfl, h.sessionClass⟩
  simp only [Template.singleNames, List.mem_cons, List.not_mem_nil, or_false] at hname
  rcases hname with rfl | rfl | rfl | rfl | rfl
  · exact ⟨_, rfl, h.sessionClass.isSingle⟩
  · exact ⟨_, rfl, h.registerNamespace⟩
  · exact ⟨_, rfl, h.included .packetId (by decide) _ rfl⟩
  · exact ⟨_, rfl, h.included .protocolHeader (by decide) _ rfl⟩
  · exact ⟨_, rfl, h.included .sessionHeader (by decide) _ rfl⟩

/-- Without templates of the user, scaffolds are loaded whatever is on the disk. -/
theorem load_run_of_templates (h : config.templates = none) (t : Disk.Tree) :
    (Scaffolds.load config).run t = (.ok ⟨config, []⟩, t) := by
  unfold Scaffolds.load userTemplateTexts Config.templateDirectory?
  rw [h]
  rfl

/-- The lines that a file starts from. -/
def Config.scaffoldLines (config : Config) (a : Artifact) : List String :=
  (Template.linesOf (Template.standard a)).filterMap fun line =>
    (Template.renderFrom? (config.scope (config.region a)) line).map Prod.fst

/-- **What a file starts from**: one region among plain lines. -/
theorem scaffold_frame (h : config.IsOneLine) (a : Artifact) : ∃ F : Frame,
    (⟨config, []⟩ : Scaffolds).ofArtifact a = .ok (F.file (config.region a) a.firstLines) ∧
      config.scaffoldLines a = F.lines (config.region a) a.firstLines := by
  obtain ⟨hlines, hcheck⟩ := Template.opensRegion_standard a
  obtain ⟨F, hrenders⟩ :=
    Template.renders_of_opensRegion (h.scope (config.region a)) rfl rfl hcheck
  refine ⟨F, ?_, Template.filterMap_of_renders hrenders⟩
  have hrender : (Template.standard a).render?
      (config.values ++ [("region", (config.region a).value)]) =
        some (F.file (config.region a) a.firstLines) := by
    rw [hlines, F.file_eq_unlines]
    exact congrArg (Option.map Prod.fst) (Template.renders_ofLines hrenders).renderFrom?_eq
  have htemplate : (⟨config, []⟩ : Scaffolds).template a.template (Template.standard a) =
    Template.standard a := rfl
  unfold Scaffolds.ofArtifact Scaffolds.fill
  rw [htemplate, hrender]

/-- **What a file starts from is managed.** -/
theorem scaffold_managed (h : config.IsSteady) (a : Artifact) :
    ∃ text, (⟨config, []⟩ : Scaffolds).ofArtifact a = .ok text ∧ Managed config a text := by
  obtain ⟨F, htext, -⟩ := scaffold_frame h.oneLine a
  exact ⟨_, htext, F, a.firstLines, rfl, a.firstLines_isPlainLine, fun hd =>
    ⟨[], firstLines_eq_nil hd, by simp⟩⟩

end Packetry
