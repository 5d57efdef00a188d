import Packetry.Path
import Mathlib.Data.List.TakeWhile

/-!
# Segments of paths

How the text of a path is made of its segments. `Packetry.Path.names` are the segments as they
are written; those that stand for nothing are left out of `Packetry.Path.steps`, and it is the
steps that say where a path leads.

The two operations on paths that matter here are seen through this view:

* an ending changes the last segment and nothing else
  (`Packetry.Path.names_withEnding`);
* the parent of a path has all its steps but the last one
  (`Packetry.Path.parent?_eq_some`), and its text is a shorter beginning of the path's text.
-/

namespace Packetry.Text

variable {c : Char} {s u : List Char}

/-! ### Cutting at a character -/

theorem fields_ne_nil (c : Char) (s : List Char) : fields c s ≠ [] := by
  fun_cases fields c s <;> simp

/-- Text without the separator goes into the last part. -/
theorem fields_append (s : List Char) (hu : c ∉ u) :
    ∃ before last, fields c s = before ++ [last] ∧ fields c (s ++ u) = before ++ [last ++ u] := by
  induction s with
  | nil =>
    refine ⟨[], [], rfl, ?_⟩
    induction u with
    | nil => rfl
    | cons d u ih =>
      obtain ⟨hd, hu⟩ := not_or.mp (List.mem_cons.not.mp hu)
      have ih := ih hu
      simp only [List.nil_append] at ih ⊢
      rw [fields, if_neg (Ne.symm hd), ih]
  | cons d s ih =>
    obtain ⟨before, last, h, h'⟩ := ih
    by_cases hd : d = c
    · refine ⟨[] :: before, last, ?_, ?_⟩
      · rw [fields, if_pos hd, h]
        rfl
      · rw [List.cons_append, fields, if_pos hd, h']
        rfl
    · cases before with
      | nil =>
        refine ⟨[], d :: last, ?_, ?_⟩
        · rw [fields, if_neg hd, h]
          rfl
        · rw [List.cons_append, fields, if_neg hd, h']
          rfl
      | cons b before =>
        refine ⟨(d :: b) :: before, last, ?_, ?_⟩
        · rw [fields, if_neg hd, h]
          rfl
        · rw [List.cons_append, fields, if_neg hd, h']
          rfl

/-- A text without the separator is its only part. -/
theorem fields_of_not_mem (hs : c ∉ s) : fields c s = [s] := by
  obtain ⟨before, last, h, h'⟩ := fields_append (c := c) [] hs
  cases before with
  | nil =>
    obtain rfl : last = [] := by simpa [fields] using h.symm
    simpa using h'
  | cons b before => simp [fields] at h

/-- The separator is in no part. -/
theorem not_mem_of_mem_fields {x : List Char} (hx : x ∈ fields c s) : c ∉ x := by
  fun_induction fields c s generalizing x with
  | case1 => simp_all
  | case2 rest ih =>
    rcases List.mem_cons.mp hx with rfl | hx
    · simp
    · exact ih hx
  | case3 d rest hd h ih => exact absurd h (fields_ne_nil c rest)
  | case4 d rest hd field more h ih =>
    rw [h] at ih
    rcases List.mem_cons.mp hx with rfl | hx
    · have hf := ih (x := field) (by simp)
      simp [Ne.symm hd, hf]
    · exact ih (by simp [hx])

/-- Parts behind a first one. -/
theorem fields_cons_append (hs : c ∉ s) (u : List Char) :
    fields c (s ++ c :: u) = s :: fields c u := by
  induction s with
  | nil => rw [List.nil_append, fields, if_pos rfl]
  | cons d s ih =>
    obtain ⟨hd, hs⟩ := not_or.mp (List.mem_cons.not.mp hs)
    rw [List.cons_append, fields, if_neg (Ne.symm hd), ih hs]

/-- What follows the last separator is the last part. -/
theorem fields_append_cons {c : Char} (s : List Char) {u : List Char} (hu : c ∉ u) :
    fields c (s ++ c :: u) = fields c s ++ [u] := by
  induction s with
  | nil =>
    simp [fields, fields_of_not_mem hu]
  | cons d s ih =>
    rw [List.cons_append, fields, fields, ih]
    split
    · rfl
    · cases hs : fields c s with
      | nil => exact absurd hs (fields_ne_nil c s)
      | cons field more => rfl

end Packetry.Text

namespace Packetry.Path

open Text

/-! ### Joining segments -/

theorem joinSegments_cons_cons (s a : List Char) (segments : List (List Char)) :
    joinSegments (s :: a :: segments) = s ++ '/' :: joinSegments (a :: segments) := by
  simp [joinSegments, List.intercalate_cons_cons]

@[simp] theorem joinSegments_singleton (s : List Char) : joinSegments [s] = s := by
  simp [joinSegments]

@[simp] theorem joinSegments_nil : joinSegments [] = [] := rfl

/-- The last segment stands behind a slash, unless it is the only one. -/
theorem joinSegments_concat {init : List (List Char)} (hinit : init ≠ []) (s : List Char) :
    joinSegments (init ++ [s]) = joinSegments init ++ '/' :: s := by
  induction init with
  | nil => exact absurd rfl hinit
  | cons a init ih =>
    cases init with
    | nil => simp [joinSegments_cons_cons]
    | cons b init =>
      rw [List.cons_append, List.cons_append, joinSegments_cons_cons, ← List.cons_append,
        ih (by simp), joinSegments_cons_cons, List.append_assoc, List.cons_append]

/-- A text is put together from its segments. -/
@[simp] theorem joinSegments_segmentsOf (text : List Char) :
    joinSegments (segmentsOf text) = text := by
  unfold segmentsOf
  fun_induction fields '/' text with
  | case1 => rfl
  | case2 rest ih =>
    obtain ⟨a, more, h⟩ := List.exists_cons_of_ne_nil (fields_ne_nil '/' rest)
    rw [h] at ih ⊢
    rw [joinSegments_cons_cons, ih, List.nil_append]
  | case3 c rest hc h ih => exact absurd h (fields_ne_nil _ rest)
  | case4 c rest hc field more h ih =>
    rw [h] at ih
    cases more with
    | nil =>
      rw [joinSegments_singleton] at ih ⊢
      rw [ih]
    | cons a more =>
      rw [joinSegments_cons_cons] at ih ⊢
      rw [List.cons_append, ih]

/-- Segments are found again in the text that they are joined to. -/
theorem segmentsOf_joinSegments {segments : List (List Char)} (hne : segments ≠ [])
    (h : ∀ s ∈ segments, '/' ∉ s) : segmentsOf (joinSegments segments) = segments := by
  unfold segmentsOf
  induction segments with
  | nil => exact absurd rfl hne
  | cons s segments ih =>
    have hs : '/' ∉ s := h s (by simp)
    cases segments with
    | nil => rw [joinSegments_singleton, fields_of_not_mem hs]
    | cons a segments =>
      rw [joinSegments_cons_cons, fields_cons_append hs,
        ih (by simp) fun x hx => h x (by simp [hx])]

/-- The first of some segments make a beginning of the text. -/
theorem joinSegments_mono {a b : List (List Char)} (h : a <+: b) :
    joinSegments a <+: joinSegments b := by
  obtain ⟨rest, rfl⟩ := h
  induction a with
  | nil => exact List.nil_prefix
  | cons s a ih =>
    cases a with
    | nil =>
      cases rest with
      | nil => simp
      | cons r rest =>
        rw [List.singleton_append, joinSegments_cons_cons, joinSegments_singleton]
        exact List.prefix_append _ _
    | cons x a =>
      rw [List.cons_append, List.cons_append] at *
      rw [joinSegments_cons_cons, joinSegments_cons_cons]
      exact (List.prefix_append_right_inj _).mpr ((List.prefix_cons_inj _).mpr ih)

/-- Of the segments of a text, those that come first and of which the next one is not empty
make a shorter text. -/
theorem length_joinSegments_lt {a rest : List (List Char)} {s : List Char} (hs : s ≠ []) :
    (joinSegments a).length < (joinSegments (a ++ s :: rest)).length := by
  have hpos : 0 < s.length := List.length_pos_iff.mpr hs
  induction a with
  | nil =>
    have h : s <+: joinSegments (s :: rest) := by
      simpa using joinSegments_mono (a := [s]) (b := s :: rest) ⟨rest, rfl⟩
    simpa using Nat.lt_of_lt_of_le hpos h.length_le
  | cons x a ih =>
    cases a with
    | nil =>
      rw [List.singleton_append, joinSegments_cons_cons, joinSegments_singleton]
      simp
    | cons y a =>
      rw [List.cons_append, List.cons_append] at *
      rw [joinSegments_cons_cons, joinSegments_cons_cons]
      simpa using ih

/-! ### Names and steps -/

/-- The segments of a path as they are written. -/
def names (p : Path) : List String :=
  (segmentsOf p.text.toList).map String.ofList

/-- Whether a written segment stands for nothing. -/
def isVoidName (name : String) : Bool :=
  name == "" || name == "."

/-- The segments of a path that stand for something. -/
def steps (p : Path) : List String :=
  p.names.filter (!isVoidName ·)

theorem isVoidName_ofList (s : List Char) : isVoidName (String.ofList s) = isVoid s := by
  have h : ∀ text : String, (String.ofList s == text) = (s == text.toList) := by
    intro text
    rw [Bool.eq_iff_iff, beq_iff_eq, beq_iff_eq]
    constructor
    · rintro rfl
      simp
    · rintro rfl
      simp
  simp [isVoidName, isVoid, h]

theorem steps_eq (p : Path) :
    p.steps = ((segmentsOf p.text.toList).filter (!isVoid ·)).map String.ofList := by
  simp only [steps, names, List.filter_map]
  congr 2
  funext s
  simp [isVoidName_ofList]

theorem names_ne_nil (p : Path) : p.names ≠ [] := by
  simp [names, segmentsOf, fields_ne_nil]

/-! ### Endings -/

section Endings

variable {p : Path} {ending : String}

/-- **An ending changes the last segment** and nothing else. -/
theorem names_withEnding (p : Path) (h : '/' ∉ ending.toList) :
    ∃ before last, p.names = before ++ [last] ∧
      (p.withEnding ending).names = before ++ [last ++ ending] := by
  obtain ⟨before, last, h₁, h₂⟩ := fields_append (c := '/') p.text.toList h
  refine ⟨before.map String.ofList, String.ofList last, ?_, ?_⟩
  · simp [names, segmentsOf, h₁]
  · simp only [names, segmentsOf, withEnding, String.toList_append, h₂]
    simp

/-- An ending does not move the start of a path. -/
theorem isAbsolute_withEnding (p : Path) (h : ending.toList.head? ≠ some '/') :
    (p.withEnding ending).isAbsolute = p.isAbsolute := by
  unfold isAbsolute withEnding
  rw [String.toList_append]
  cases hp : p.text.toList with
  | nil =>
    rw [List.nil_append, Bool.eq_iff_iff, beq_iff_eq, beq_iff_eq]
    simp [h]
  | cons c s => simp

end Endings

/-! ### Anchors

A path is put together from its anchor and its segments again, and so is its parent, whose
segments are the first ones of the path. What has to be seen is that an anchor and the first
segments that stood behind it never read as another anchor. -/

/-- The segments are such as stand behind the anchor in a path. -/
structure Parts.Proper (x : Parts) : Prop where
  /-- No slash is left in a segment. -/
  slash : ∀ s ∈ x.segments, '/' ∉ s
  /-- A slash stands behind a dot, and nothing that starts with a slash lacks an anchor. -/
  shape : x.anchor = ['/'] ∨
    (x.anchor = ['.'] ∧ (x.segments = [] ∨ ∃ rest, x.segments = [] :: rest)) ∨
    (x.anchor = [] ∧ (x.segments.head? = some [] → x.segments = [[]]))

theorem Parts.Proper.of_prefix {x : Parts} (h : x.Proper) {a : List (List Char)}
    (ha : a <+: x.segments) : Parts.Proper ⟨x.anchor, a⟩ := by
  refine ⟨fun s hs => h.slash s (ha.subset hs), ?_⟩
  obtain ⟨rest, hrest⟩ := ha
  rcases h.shape with h | ⟨h, h' | ⟨more, h'⟩⟩ | ⟨h, h'⟩
  · exact Or.inl h
  · rw [h'] at hrest
    exact Or.inr (Or.inl ⟨h, Or.inl (List.append_eq_nil_iff.mp hrest).1⟩)
  · refine Or.inr (Or.inl ⟨h, ?_⟩)
    rw [h'] at hrest
    cases a with
    | nil => exact Or.inl rfl
    | cons s a =>
      obtain ⟨rfl, -⟩ : s = [] ∧ a ++ rest = more := by simpa using hrest
      exact Or.inr ⟨a, rfl⟩
  · refine Or.inr (Or.inr ⟨h, fun hhead => ?_⟩)
    cases a with
    | nil => simp at hhead
    | cons s a =>
      obtain rfl : s = [] := by simpa using hhead
      have hall := h' (by rw [← hrest]; rfl)
      rw [← hrest] at hall
      obtain ⟨rfl, -⟩ : a = [] ∧ rest = [] := by simpa using hall
      rfl

/-- What a text is cut into is proper, and makes up the text. -/
theorem partsOf_proper (text : List Char) :
    (partsOf text).Proper ∧ text = (partsOf text).anchor ++ joinSegments (partsOf text).segments := by
  have hslash : ∀ text : List Char, ∀ s ∈ segmentsOf text, '/' ∉ s :=
    fun text s hs => not_mem_of_mem_fields hs
  fun_cases partsOf text with
  | case1 rest => exact ⟨⟨hslash rest, Or.inl rfl⟩, by simp⟩
  | case2 rest =>
    have hseg : segmentsOf ('/' :: rest) = [] :: segmentsOf rest := by
      simp [segmentsOf, fields]
    exact ⟨⟨hslash _, Or.inr (Or.inl ⟨rfl, Or.inr ⟨_, hseg⟩⟩)⟩, by simp⟩
  | case3 => exact ⟨⟨by simp, Or.inr (Or.inl ⟨rfl, Or.inl rfl⟩)⟩, by simp⟩
  | case4 _ h =>
    refine ⟨⟨hslash _, Or.inr (Or.inr ⟨rfl, fun hhead => ?_⟩)⟩, by simp⟩
    cases text with
    | nil => rfl
    | cons c rest =>
      have hc : c ≠ '/' := fun hc => h rest (by rw [hc])
      simp only [segmentsOf, fields, if_neg hc] at hhead
      split at hhead <;> simp at hhead

theorem parts_proper (p : Path) : p.parts.Proper := (partsOf_proper _).1

theorem text_eq_parts (p : Path) :
    p.text.toList = p.parts.anchor ++ joinSegments p.parts.segments := (partsOf_proper _).2

/-- Steps of a path that is put together. -/
theorem steps_ofParts (x : Parts) (h : x.Proper) :
    (ofParts x.anchor x.segments).steps =
      (x.segments.filter (!isVoid ·)).map String.ofList := by
  obtain ⟨anchor, segments⟩ := x
  rw [steps_eq]
  congr 1
  simp only [ofParts, String.toList_ofList]
  have hplain : (segmentsOf (joinSegments segments)).filter (!isVoid ·) =
      segments.filter (!isVoid ·) := by
    by_cases hne : segments = []
    · subst hne
      rfl
    · rw [segmentsOf_joinSegments hne h.slash]
  rcases h.shape with ha | ⟨ha, hs | ⟨rest, hs⟩⟩ | ⟨ha, -⟩
  · obtain rfl : anchor = ['/'] := ha
    rw [← hplain]
    simp [segmentsOf, fields, isVoid]
  · obtain rfl : anchor = ['.'] := ha
    obtain rfl : segments = [] := hs
    rfl
  · obtain rfl : anchor = ['.'] := ha
    obtain rfl : segments = [] :: rest := hs
    rw [← hplain]
    cases rest with
    | nil => rfl
    | cons a rest =>
      rw [joinSegments_cons_cons, List.nil_append, List.singleton_append]
      simp [segmentsOf, fields, isVoid]
  · obtain rfl : anchor = [] := ha
    exact hplain

/-- Where a path that is put together starts. -/
theorem isAbsolute_ofParts (x : Parts) (h : x.Proper) :
    (ofParts x.anchor x.segments).isAbsolute = decide (x.anchor = ['/']) := by
  obtain ⟨anchor, segments⟩ := x
  simp only [isAbsolute, ofParts, String.toList_ofList]
  rcases h.shape with ha | ⟨ha, -⟩ | ⟨ha, hs⟩
  · obtain rfl : anchor = ['/'] := ha
    simp
  · obtain rfl : anchor = ['.'] := ha
    simp
  · obtain rfl : anchor = [] := ha
    cases segments with
    | nil => rfl
    | cons s segments =>
      cases s with
      | nil =>
        obtain rfl : segments = [] := by simpa using hs rfl
        rfl
      | cons c s =>
        have hc : c ≠ '/' := by
          have := h.slash (c :: s) (by simp)
          simp only [List.mem_cons, not_or] at this
          exact fun hc => this.1 hc.symm
        cases segments with
        | nil => simpa using hc
        | cons a segments =>
          rw [List.nil_append, joinSegments_cons_cons]
          simpa using hc

theorem ofParts_parts (p : Path) : ofParts p.parts.anchor p.parts.segments = p := by
  obtain ⟨text⟩ := p
  have h := text_eq_parts ⟨text⟩
  simp only [ofParts, ← h, String.ofList_toList]

/-! ### Parents -/

/-- Segments are those up to the last one that stands for something, and void ones. -/
theorem trimVoids_append (segments : List (List Char)) :
    ∃ voids, segments = trimVoids segments ++ voids ∧ ∀ s ∈ voids, isVoid s := by
  refine ⟨(segments.reverse.takeWhile isVoid).reverse, ?_, ?_⟩
  · rw [trimVoids, ← List.reverse_append, List.takeWhile_append_dropWhile, List.reverse_reverse]
  · intro s hs
    exact List.mem_takeWhile_imp (List.mem_reverse.mp hs)

theorem filter_trimVoids (segments : List (List Char)) :
    (trimVoids segments).filter (!isVoid ·) = segments.filter (!isVoid ·) := by
  obtain ⟨voids, h, hv⟩ := trimVoids_append segments
  have hnil : voids.filter (!isVoid ·) = [] := by
    rw [List.filter_eq_nil_iff]
    intro s hs
    simp [hv s hs]
  have hfilter := congrArg (List.filter (!isVoid ·)) h
  rw [List.filter_append, hnil, List.append_nil] at hfilter
  exact hfilter.symm

/-- The segments up to the last one that stands for something come first. -/
theorem trimVoids_isPrefix (segments : List (List Char)) : trimVoids segments <+: segments := by
  obtain ⟨voids, h, -⟩ := trimVoids_append segments
  exact ⟨voids, h.symm⟩

/-- The segments up to the last one that stands for something end with that one. -/
theorem trimVoids_eq_nil_or (segments : List (List Char)) :
    trimVoids segments = [] ∨ ∃ init s, trimVoids segments = init ++ [s] ∧ isVoid s = false := by
  unfold trimVoids
  cases hd : segments.reverse.dropWhile isVoid with
  | nil => exact Or.inl rfl
  | cons s init =>
    have hs := List.head?_dropWhile_not isVoid segments.reverse
    rw [hd] at hs
    exact Or.inr ⟨init.reverse, s, List.reverse_cons, by simpa using hs⟩

/-- Segments of which the last one stands for something end with a step. -/
theorem filter_concat {s : List Char} (hs : isVoid s = false) (init : List (List Char)) :
    ((init ++ [s]).filter (!isVoid ·)).map String.ofList =
      (init.filter (!isVoid ·)).map String.ofList ++ [String.ofList s] := by
  simp [hs]

/-- A path without any step has void segments only. -/
theorem trimVoids_of_steps {p : Path} (h : p.steps = []) : trimVoids p.parts.segments = [] := by
  have hsteps := steps_ofParts _ p.parts_proper
  rw [ofParts_parts, h, ← filter_trimVoids] at hsteps
  rcases trimVoids_eq_nil_or p.parts.segments with hnil | ⟨init, s, hlast, hs⟩
  · exact hnil
  · rw [hlast, filter_concat hs] at hsteps
    simp at hsteps

section Parent

variable {p : Path} {init : List (List Char)} {s : List Char}

/-- The parent is put together from the segments before the last one that stands for
something. -/
theorem parent?_of_trimVoids (h : trimVoids p.parts.segments = init ++ [s]) :
    p.parent? = some (ofParts p.parts.anchor (trimVoids init)) := by
  simp only [parent?, h, List.reverse_append, List.reverse_singleton, List.singleton_append,
    List.reverse_reverse]

/-- What the parent is put together from are the first segments of the path. -/
theorem prefix_of_trimVoids (h : trimVoids p.parts.segments = init ++ [s]) :
    trimVoids init <+: p.parts.segments := by
  have hinit : init <+: trimVoids p.parts.segments := ⟨[s], h.symm⟩
  exact (trimVoids_isPrefix init).trans (hinit.trans (trimVoids_isPrefix _))

/-- The segments of the parent make a shorter text than those of the path. -/
theorem length_parent_lt (h : trimVoids p.parts.segments = init ++ [s]) (hs : s ≠ []) :
    (joinSegments (trimVoids init)).length < (joinSegments p.parts.segments).length := by
  obtain ⟨voids, hvoids, -⟩ := trimVoids_append p.parts.segments
  have hall : p.parts.segments = init ++ s :: voids := by
    rw [hvoids, h, List.append_assoc, List.singleton_append]
  calc (joinSegments (trimVoids init)).length
      ≤ (joinSegments init).length := (joinSegments_mono (trimVoids_isPrefix init)).length_le
    _ < (joinSegments (init ++ s :: voids)).length := length_joinSegments_lt hs
    _ = (joinSegments p.parts.segments).length := by rw [hall]

end Parent

/-- **The parent of a path** has all its steps but the last one. It starts where the path
starts, and its text is a shorter beginning of the path's text. -/
theorem parent?_eq_some {p : Path} {before : List String} {last : String}
    (h : p.steps = before ++ [last]) :
    ∃ q, p.parent? = some q ∧ q.steps = before ∧ q.isAbsolute = p.isAbsolute ∧
      q.text.toList <+: p.text.toList ∧ q.text.length < p.text.length := by
  have hsteps := steps_ofParts _ p.parts_proper
  rw [ofParts_parts, h, ← filter_trimVoids] at hsteps
  rcases trimVoids_eq_nil_or p.parts.segments with hnil | ⟨init, s, htrim, hs⟩
  · rw [hnil] at hsteps
    simp at hsteps
  · rw [htrim, filter_concat hs] at hsteps
    have hprefix := prefix_of_trimVoids htrim
    have hproper := p.parts_proper.of_prefix hprefix
    refine ⟨_, parent?_of_trimVoids htrim, ?_, ?_, ?_, ?_⟩
    · rw [steps_ofParts _ hproper, filter_trimVoids]
      exact (List.append_inj' hsteps rfl).1.symm
    · have habs := isAbsolute_ofParts _ p.parts_proper
      rw [ofParts_parts] at habs
      rw [isAbsolute_ofParts _ hproper, habs]
    · simp only [p.text_eq_parts, ofParts, String.toList_ofList]
      exact (List.prefix_append_right_inj _).mpr (joinSegments_mono hprefix)
    · have hne : s ≠ [] := by
        rintro rfl
        simp [isVoid] at hs
      rw [← String.length_toList, ← String.length_toList, p.text_eq_parts]
      simpa only [ofParts, String.toList_ofList, List.length_append, Nat.add_lt_add_iff_left]
        using length_parent_lt htrim hne

/-- The last segment of a path that is put together from segments, the last of which stands
for something. -/
theorem names_getLast?_ofParts {x : Parts} (h : x.Proper) {init : List (List Char)}
    {s : List Char} (hx : x.segments = init ++ [s]) (hs : isVoid s = false) :
    (ofParts x.anchor x.segments).names.getLast? = some (String.ofList s) := by
  obtain ⟨anchor, segments⟩ := x
  obtain rfl : segments = init ++ [s] := hx
  have hslash : '/' ∉ s := h.slash s (by simp)
  -- Behind a slash, the last segment is the whole of the last part.
  have hbehind : ∀ u : List Char, (segmentsOf (u ++ '/' :: s)).getLast? = some s := by
    intro u
    rw [segmentsOf, fields_append_cons u hslash, List.getLast?_concat]
  have hlast : (segmentsOf (anchor ++ joinSegments (init ++ [s]))).getLast? = some s := by
    by_cases hinit : init = []
    · subst hinit
      rw [List.nil_append, joinSegments_singleton]
      rcases h.shape with ha | ⟨-, hnil | ⟨rest, hrest⟩⟩ | ⟨ha, -⟩
      · obtain rfl : anchor = ['/'] := ha
        exact hbehind []
      · simp at hnil
      · obtain ⟨rfl, -⟩ : s = [] ∧ [] = rest := by simpa using hrest
        simp [isVoid] at hs
      · obtain rfl : anchor = [] := ha
        simp [segmentsOf, fields_of_not_mem hslash]
    · rw [joinSegments_concat hinit, ← List.append_assoc]
      exact hbehind _
  simp [names, ofParts, List.getLast?_map, hlast]

/-- A parent ends with its last step. -/
theorem lastName_of_parent? {p q : Path} {before : List String} {last : String}
    (hq : p.parent? = some q) (h : q.steps = before ++ [last]) :
    q.names.getLast? = some last := by
  rcases trimVoids_eq_nil_or p.parts.segments with hnil | ⟨init, s, htrim, -⟩
  · simp only [parent?, hnil, List.reverse_nil, Option.ite_none_right_eq_some,
      Option.some.injEq] at hq
    rw [← hq.2] at h
    exact absurd h (by simp [steps, names, segmentsOf, fields, isVoidName])
  · rw [parent?_of_trimVoids htrim] at hq
    obtain rfl := Option.some.inj hq
    have hproper := p.parts_proper.of_prefix (prefix_of_trimVoids htrim)
    have hsteps := steps_ofParts _ hproper
    rw [h] at hsteps
    rcases trimVoids_eq_nil_or init with hnil | ⟨init', s', hinit, hs'⟩
    · rw [hnil] at hsteps
      simp at hsteps
    · rw [hinit, filter_concat hs'] at hsteps
      obtain ⟨-, hlast⟩ := List.append_inj' hsteps rfl
      obtain rfl : last = String.ofList s' := by simpa using hlast
      exact names_getLast?_ofParts hproper hinit hs'

end Packetry.Path
