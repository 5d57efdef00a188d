import Packetry.Proofs.Sentinels

/-!
# Where a region is found

A *frame* is what is around the interior of a region: plain lines before the begin sentinel, and
plain lines after the end sentinel (`Packetry.Frame`). Around an interior of plain lines it makes
a text in which the region is found between the two sentinels (`Packetry.Frame.locate_eq`), so
that a new interior of plain lines leaves the frame as it is.
-/

namespace Packetry

open Text

/-! ### Sentinels -/

namespace Region

variable {r : Region} {s : String}

/-- A region whose sentinels can be told from other lines: its name is a single line, is not
empty, and has no white space around it. -/
structure IsNamed (r : Region) : Prop where
  /-- It has a name. -/
  nonempty : r.name.toList ≠ []
  /-- The name is trimmed. -/
  trimmed : trim r.name.toList = r.name.toList
  /-- The name is one line. -/
  single : IsSingle r.name

/-- A trimmed text does not end with white space. -/
theorem isBlank_getLast {text : List Char} (h : trim text = text) (hne : text ≠ []) :
    isBlank (text.getLast hne) = false := by
  have hrev : text.reverse = (text.dropWhile isBlank).reverse.dropWhile isBlank := by
    conv_lhs => rw [← h, trim, trimEnd, List.reverse_reverse]
  have hhead := List.head?_dropWhile_not isBlank (text.dropWhile isBlank).reverse
  rw [← hrev, List.head?_reverse, List.getLast?_eq_some_getLast hne] at hhead
  simpa using hhead

/-- The end of a line is trimmed away. -/
theorem trim_lineOf {first : Char} {rest : List Char} {s : String} (hs : s.toList = first :: rest)
    (hfirst : isBlank first = false) (hlast : isBlank (s.toList.getLast (by simp [hs])) = false) :
    trim (lineOf s) = s.toList := by
  have hdrop : (lineOf s).dropWhile isBlank = lineOf s := by
    rw [lineOf, hs, List.cons_append, List.dropWhile_cons_of_neg (by simp [hfirst])]
  have hhead : s.toList.reverse.dropWhile isBlank = s.toList.reverse := by
    have hparts := List.dropLast_concat_getLast (l := s.toList) (by simp [hs])
    rw [← hparts, List.reverse_append, List.reverse_singleton, List.singleton_append,
      List.dropWhile_cons_of_neg (by simpa using hlast)]
  rw [trim, hdrop, trimEnd, lineOf, List.reverse_append, List.reverse_singleton,
    List.singleton_append, List.dropWhile_cons_of_pos (by decide), hhead, List.reverse_reverse]

theorem trim_beginMarker (h : r.IsNamed) : trim (lineOf r.beginMarker) = r.beginMarker.toList := by
  refine trim_lineOf (r.beginMarker_toList.trans (by rw [opener_eq]; rfl)) (by decide) ?_
  simp only [beginMarker_toList, List.getLast_append_of_ne_nil _ h.nonempty]
  exact isBlank_getLast h.trimmed h.nonempty

theorem trim_endMarker (h : r.IsNamed) : trim (lineOf r.endMarker) = r.endMarker.toList := by
  refine trim_lineOf (r.endMarker_toList.trans (by rw [closer_eq]; rfl)) (by decide) ?_
  simp only [endMarker_toList, List.getLast_append_of_ne_nil _ h.nonempty]
  exact isBlank_getLast h.trimmed h.nonempty

/-- What is left of a text when it is trimmed is a beginning of what follows its blanks. -/
theorem trim_isPrefix (text : List Char) : trim text <+: text.dropWhile isBlank := by
  obtain ⟨front, hfront⟩ := List.dropWhile_suffix isBlank (l := (text.dropWhile isBlank).reverse)
  refine ⟨front.reverse, ?_⟩
  rw [trim, trimEnd, ← List.reverse_append, hfront, List.reverse_reverse]

/-- A plain line is no sentinel. -/
theorem isOther_of_isPlainLine (h : IsPlainLine s) : r.IsOther (lineOf s) := by
  simp only [IsOther, isMarkerLine, beq_eq_false_iff_ne, ne_eq]
  refine ⟨fun heq => h.noBegin ?_, fun heq => h.noEnd ?_⟩
  · refine List.IsPrefix.trans ?_ (trim_isPrefix _)
    rw [heq, beginMarker_toList]
    exact List.prefix_append _ _
  · refine List.IsPrefix.trans ?_ (trim_isPrefix _)
    rw [heq, endMarker_toList]
    exact List.prefix_append _ _

/-- Plain lines are no sentinels. -/
theorem isOther_of_plain {ss : List String} (h : ∀ s ∈ ss, IsPlainLine s) :
    ∀ line ∈ ss.map lineOf, r.IsOther line := by
  intro line hline
  obtain ⟨s, hs, rfl⟩ := List.mem_map.mp hline
  exact isOther_of_isPlainLine (h s hs)

theorem isMarkerLine_beginMarker (h : r.IsNamed) :
    isMarkerLine r.beginMarker (lineOf r.beginMarker) = true := by
  rw [isMarkerLine, trim_beginMarker h, beq_self_eq_true]

theorem isMarkerLine_endMarker (h : r.IsNamed) :
    isMarkerLine r.endMarker (lineOf r.endMarker) = true := by
  rw [isMarkerLine, trim_endMarker h, beq_self_eq_true]

end Region

theorem Region.IsNamed.single_markers {r : Region} (h : r.IsNamed) :
    IsSingle r.beginMarker ∧ IsSingle r.endMarker :=
  ⟨IsSingle.append (by decide) h.single, IsSingle.append (by decide) h.single⟩

/-! ### Frames -/

/-- The lines around a region and its sentinels. -/
structure Frame where
  /-- The lines before the begin sentinel. -/
  before : List String
  /-- The lines after the end sentinel. -/
  after : List String
  /-- What comes before is plain. -/
  plain_before : ∀ s ∈ before, IsPlainLine s
  /-- What comes after is plain. -/
  plain_after : ∀ s ∈ after, IsPlainLine s

namespace Frame

variable {r : Region} {interior : List String}

/-- The text of a frame around an interior. -/
def text (F : Frame) (r : Region) (interior : List String) : List Char :=
  ((F.before ++ r.beginMarker :: (interior ++ r.endMarker :: F.after)).map lineOf).flatten

/-- Where the interior is. -/
def location (F : Frame) (r : Region) (interior : List String) : Region.Location where
  before := ((F.before ++ [r.beginMarker]).map lineOf).flatten
  interior := (interior.map lineOf).flatten
  after := ((r.endMarker :: F.after).map lineOf).flatten

/-- The text with a new interior is that of the same frame. -/
theorem around_eq (F : Frame) (r : Region) (interior new : List String) :
    (F.location r interior).around (new.map lineOf).flatten = F.text r new := by
  simp [Region.Location.around, location, text]

theorem single (F : Frame) (hr : r.IsNamed) (h : ∀ s ∈ interior, IsPlainLine s) :
    ∀ s ∈ F.before ++ r.beginMarker :: (interior ++ r.endMarker :: F.after), IsSingle s := by
  intro s hs
  simp only [List.mem_append, List.mem_cons] at hs
  rcases hs with hs | rfl | hs | rfl | hs
  · exact (F.plain_before s hs).single
  · exact hr.single_markers.1
  · exact (h s hs).single
  · exact hr.single_markers.2
  · exact (F.plain_after s hs).single

theorem carriage_notMem (F : Frame) (hr : r.IsNamed) (h : ∀ s ∈ interior, IsPlainLine s) :
    '\r' ∉ F.text r interior := by
  intro hmem
  obtain ⟨line, hline, hc⟩ := List.mem_flatten.mp hmem
  obtain ⟨s, hs, rfl⟩ := List.mem_map.mp hline
  rcases List.mem_append.mp hc with hc | hc
  · exact (F.single hr h s hs).carriage hc
  · exact absurd hc (by decide)

/-- There are no pairs of carriage return and line feed. -/
theorem hasPair_eq (F : Frame) (hr : r.IsNamed) (h : ∀ s ∈ interior, IsPlainLine s) :
    hasPair (F.text r interior) = false := by
  have hno := F.carriage_notMem hr h
  generalize F.text r interior = text at hno
  fun_induction hasPair text with
  | case1 => simp at hno
  | case2 c rest hc ih => exact ih fun hmem => hno (by simp [hmem])
  | case3 => rfl

/-- **The region of a frame** is found between the sentinels. -/
theorem locate_eq (F : Frame) (hr : r.IsNamed) (h : ∀ s ∈ interior, IsPlainLine s) :
    r.locate (F.text r interior) = .ok (F.location r interior) := by
  rw [Region.locate_eq_ok_iff]
  refine ⟨⟨F.before.map lineOf, lineOf r.beginMarker, interior.map lineOf, lineOf r.endMarker,
    F.after.map lineOf⟩, ?_, ?_, ?_⟩
  · exact ⟨Region.isMarkerLine_beginMarker hr, Region.isMarkerLine_endMarker hr,
      Region.isOther_of_plain F.plain_before, Region.isOther_of_plain h,
      Region.isOther_of_plain F.plain_after⟩
  · have hall := lines_append (fun s hs => (F.single hr h s hs).feed) []
    rw [List.append_nil] at hall
    rw [text, hall]
    simp [lines, Region.Cut.lines]
  · simp [Region.Cut.location, location]

end Frame

/-! ### Documents in a frame -/

section Documents

variable {r : Region} {interior : List String}

/-- The file of a frame around an interior. -/
def Frame.file (F : Frame) (r : Region) (interior : List String) : String :=
  String.ofList (F.text r interior)

theorem Frame.parse_file (F : Frame) (hr : r.IsNamed) (h : ∀ s ∈ interior, IsPlainLine s) :
    Document.parse (F.file r interior) = ⟨F.text r interior, false⟩ := by
  have hpair := F.hasPair_eq hr h
  rw [Document.parse, file, String.toList_ofList, toLineFeeds_of_hasPair_eq_false hpair, hpair]

/-- Replacing an interior. -/
theorem Frame.replace_eq (F : Frame) (hr : r.IsNamed) (h : ∀ s ∈ interior, IsPlainLine s)
    (new : List String) : Document.replace ⟨F.text r interior, false⟩ r (new.map lineOf).flatten =
      .ok ⟨F.text r new, false⟩ := by
  unfold Document.replace Document.locate
  rw [F.locate_eq hr h]
  simp only [bind, Except.bind, pure, Except.pure, F.around_eq]

end Documents

end Packetry
