import Packetry.Proofs.Additions
import Mathlib.Data.List.TakeWhile

/-!
# What is around a region stays as it is

A document is worked on with single line feeds, whatever its file has, and the file is written
from all of the document again. Even so nothing but the interior of the region changes, down to
the last carriage return, if the file does not mix the two ends of lines
(`Packetry.Document.update_surroundings`).

Two things make it so. Putting carriage returns before line feeds undoes taking them away, unless
a line feed had none (`Packetry.Text.toPairs_toLineFeeds`); and as it works line by line and no
sentinel is a matter of the white space around it, it leaves the cut of a region where it is
(`Packetry.Region.Splits.toPairs`). Carriage returns that belong to no pair play no part in
either, so that a file may hold them anywhere.
-/

namespace Packetry

/-! ### The two ends of lines -/

namespace Text

/-- A text in which a carriage return stands before every line feed. -/
def EndsInPairs (text : List Char) : Prop :=
  ∀ front back, text = front ++ '\n' :: back → front.getLast? = some '\r'

/-- A text that does not mix the two ends of lines: it has no pair, or nothing but pairs. -/
def IsUniform (text : List Char) : Prop :=
  hasPair text = false ∨ EndsInPairs text

/-- A text with the ends of lines that a file has. -/
def endsOf (file text : List Char) : List Char :=
  if hasPair file then toPairs text else text

/-- Where only pairs end lines, the carriage returns that were taken away are put back. -/
theorem toPairs_toLineFeeds {text : List Char} (h : EndsInPairs text) :
    toPairs (toLineFeeds text) = text := by
  fun_induction toLineFeeds text with
  | case1 rest ih =>
    rw [toPairs, if_pos rfl, ih]
    rintro front back rfl
    have hlast := h ('\r' :: '\n' :: front) back rfl
    cases front with
    | nil => exact absurd hlast (by decide)
    | cons d front => simpa using hlast
  | case2 c rest hc ih =>
    have hfeed : c ≠ '\n' := by
      rintro rfl
      exact absurd (h [] rest rfl) (by decide)
    rw [toPairs, if_neg hfeed, ih]
    rintro front back rfl
    have hlast := h (c :: front) back rfl
    cases front with
    | nil =>
      -- The line feed would make a pair with `c`, and pairs are the other case.
      obtain rfl : c = '\r' := by simpa using hlast
      exact absurd rfl (hc back rfl)
    | cons d front => simpa using hlast
  | case3 => rfl

theorem head?_toPairs (text : List Char) : (toPairs text).head? ≠ some '\n' := by
  cases text with
  | nil => simp [toPairs]
  | cons c text =>
    rw [toPairs]
    split
    · simp
    · simpa using ‹¬c = '\n'›

/-- The carriage returns that were put are taken away, and no others. -/
theorem toLineFeeds_toPairs (text : List Char) : toLineFeeds (toPairs text) = text := by
  induction text with
  | nil => rfl
  | cons c text ih =>
    rw [toPairs]
    split
    · rename_i hc
      rw [toLineFeeds, ih, hc]
    · rw [toLineFeeds, ih]
      rintro rest - hrest
      exact head?_toPairs text (by rw [hrest]; rfl)

/-- Behind the carriage returns that were put, there are only pairs. -/
theorem endsInPairs_toPairs (text : List Char) : EndsInPairs (toPairs text) := by
  induction text with
  | nil => simp [EndsInPairs, toPairs]
  | cons c text ih =>
    intro front back h
    rw [toPairs] at h
    split at h
    · rcases front with _ | ⟨d, _ | ⟨e, front⟩⟩
      · simp at h
      · simpa using (List.cons.inj h).1.symm
      · simp only [List.cons_append, List.cons.injEq] at h
        simp [List.getLast?_cons, ih front back h.2.2]
    · rcases front with _ | ⟨d, front⟩
      · exact absurd (List.cons.inj h).1 ‹_›
      · simp [List.getLast?_cons, ih front back (List.cons.inj h).2]

theorem endsInPairs_iff {text : List Char} :
    EndsInPairs text ↔ toPairs (toLineFeeds text) = text := by
  refine ⟨toPairs_toLineFeeds, fun h => ?_⟩
  rw [← h]
  exact endsInPairs_toPairs _

instance (text : List Char) : Decidable (EndsInPairs text) :=
  decidable_of_iff _ endsInPairs_iff.symm

instance (text : List Char) : Decidable (IsUniform text) :=
  inferInstanceAs (Decidable (_ ∨ _))

/-- Where a pair stands. -/
theorem hasPair_iff {text : List Char} : hasPair text = true ↔ ['\r', '\n'] <:+: text := by
  fun_induction hasPair text with
  | case1 rest => exact ⟨fun _ => ⟨[], rest, rfl⟩, fun _ => rfl⟩
  | case2 c rest hc ih =>
    rw [ih, List.infix_cons_iff]
    refine ⟨.inr, fun h => h.resolve_left ?_⟩
    rintro ⟨back, hback⟩
    obtain ⟨rfl, rfl⟩ := List.cons.inj hback
    exact hc back rfl rfl
  | case3 => simp

theorem toPairs_flatten (all : List (List Char)) :
    toPairs all.flatten = (all.map toPairs).flatten := by
  induction all with
  | nil => rfl
  | cons line all ih => rw [List.flatten_cons, toPairs_append, ih, List.map_cons, List.flatten_cons]

/-- Carriage returns are put line by line. -/
theorem lines_toPairs (text : List Char) : lines (toPairs text) = (lines text).map toPairs := by
  fun_induction lines text with
  | case1 => rfl
  | case2 rest ih => simp [toPairs, lines, ih]
  | case3 c rest hc hnone ih =>
    rw [hnone, List.map_nil] at ih
    simp [toPairs, hc, lines, ih]
  | case4 c rest hc line more hsome ih =>
    rw [hsome, List.map_cons] at ih
    simp [toPairs, hc, lines, ih]

/-! ### White space at the end -/

theorem trimEnd_append_blanks {text blanks : List Char} (h : ∀ c ∈ blanks, isBlank c = true) :
    trimEnd (text ++ blanks) = trimEnd text := by
  rw [trimEnd, List.reverse_append, List.dropWhile_append_of_pos (by simpa using h), trimEnd]

/-- White space at the end is trimmed away. -/
theorem trim_append_blanks {text blanks : List Char} (h : blanks.all isBlank = true) :
    trim (text ++ blanks) = trim text := by
  have h : ∀ c ∈ blanks, isBlank c = true := List.all_eq_true.mp h
  rw [trim, List.dropWhile_append]
  split
  · rename_i hblank
    have hall : blanks.dropWhile isBlank = [] := List.dropWhile_eq_nil_iff.mpr h
    rw [hall, trim, List.isEmpty_iff.mp hblank]
  · rw [trimEnd_append_blanks h, trim]

theorem toPairs_of_not_mem {text : List Char} (h : '\n' ∉ text) : toPairs text = text := by
  induction text with
  | nil => rfl
  | cons c text ih =>
    obtain ⟨hc, htext⟩ := not_or.mp (List.mem_cons.not.mp h)
    rw [toPairs, if_neg (Ne.symm hc), ih htext]

/-- A line is a text without a line feed, or one with a line feed at its end only. -/
theorem line_cases {text line : List Char} (h : line ∈ lines text) :
    '\n' ∉ line ∨ ∃ body, line = body ++ ['\n'] ∧ '\n' ∉ body := by
  fun_induction lines text generalizing line with
  | case1 => cases h
  | case2 rest ih =>
    rcases List.mem_cons.mp h with rfl | h
    · exact .inr ⟨[], rfl, List.not_mem_nil⟩
    · exact ih h
  | case3 c rest hc hnone ih =>
    rw [List.mem_singleton] at h
    subst h
    exact .inl (by simpa using Ne.symm hc)
  | case4 c rest hc first more hsome ih =>
    rw [hsome] at ih
    rcases List.mem_cons.mp h with h | h
    · subst h
      rcases ih List.mem_cons_self with hno | ⟨body, rfl, hbody⟩
      · exact .inl (by simp [Ne.symm hc, hno])
      · exact .inr ⟨c :: body, rfl, by simp [Ne.symm hc, hbody]⟩
    · exact ih (List.mem_cons_of_mem _ h)

/-- A carriage return at the end of a line is trimmed away. -/
theorem trim_toPairs {text line : List Char} (h : line ∈ lines text) :
    trim (toPairs line) = trim line := by
  rcases line_cases h with hno | ⟨body, rfl, hbody⟩
  · rw [toPairs_of_not_mem hno]
  · have hends : toPairs ['\n'] = ['\r', '\n'] := rfl
    rw [toPairs_append, toPairs_of_not_mem hbody, hends, trim_append_blanks (by decide),
      trim_append_blanks (by decide)]

end Text

open Text

/-! ### Cuts of the file -/

namespace Region

variable {r : Region} {text : List Char} {l : Location}

/-- The parts of a text with pairs at the ends of lines. -/
def Location.toPairs (l : Location) : Location :=
  ⟨Text.toPairs l.before, Text.toPairs l.interior, Text.toPairs l.after⟩

theorem Location.toPairs_around (l : Location) (interior : List Char) :
    Text.toPairs (l.around interior) = l.toPairs.around (Text.toPairs interior) := by
  simp [Location.around, Location.toPairs]

/-- **A region is cut in the same places** when its lines end with pairs. -/
theorem Splits.toPairs (h : r.Splits text l) : r.Splits (Text.toPairs text) l.toPairs := by
  obtain ⟨c, hc, hlines, rfl⟩ := h
  -- A carriage return before the end of a line is white space, which a marker is read without.
  have hmarker : ∀ marker, ∀ line ∈ c.lines,
      isMarkerLine marker (Text.toPairs line) = isMarkerLine marker line := by
    intro marker line hline
    rw [← hlines] at hline
    rw [isMarkerLine, trim_toPairs hline, isMarkerLine]
  have hother : ∀ part : List (List Char), part ⊆ c.lines → (∀ line ∈ part, r.IsOther line) →
      ∀ line ∈ part.map Text.toPairs, r.IsOther line := by
    intro part hpart hothers paired hpaired
    obtain ⟨line, hline, rfl⟩ := List.mem_map.mp hpaired
    rw [IsOther, hmarker _ line (hpart hline), hmarker _ line (hpart hline)]
    exact hothers line hline
  refine ⟨⟨c.front.map Text.toPairs, Text.toPairs c.opening, c.middle.map Text.toPairs,
    Text.toPairs c.closing, c.back.map Text.toPairs⟩, ⟨?_, ?_, ?_, ?_, ?_⟩, ?_, ?_⟩
  · rw [hmarker _ _ (by simp [Cut.lines])]
    exact hc.opens
  · rw [hmarker _ _ (by simp [Cut.lines])]
    exact hc.closes
  · exact hother c.front (by intro line hline; simp [Cut.lines, hline]) hc.front
  · exact hother c.middle (by intro line hline; simp [Cut.lines, hline]) hc.middle
  · exact hother c.back (by intro line hline; simp [Cut.lines, hline]) hc.back
  · rw [lines_toPairs, hlines]
    simp [Cut.lines]
  · simp [Cut.location, Location.toPairs, toPairs_flatten]

end Region

/-! ### Documents -/

namespace Document

variable {d : Document} {file : String} {r : Region} {l : Region.Location} {form : HandlerForm}
  {content : Content}

/-- The first entry of every key for which a text has no handler. -/
def wanted (form : HandlerForm) (text : List Char) (entries : List Entry) : List Entry :=
  (entries.filter fun entry => entry.key ∉ form.names text).eraseDupsBy (·.key == ·.key)

/-- An update finds the region. -/
theorem splits_of_update {updated : Document × Nat}
    (h : d.update r form content = .ok updated) : ∃ l, r.Splits d.text l := by
  cases hl : d.locate r with
  | error fault => cases content <;> simp [update, replace, merge, hl, bind, Except.bind] at h
  | ok l => exact ⟨l, Region.locate_eq_ok_iff.mp hl⟩

theorem update_replace (h : r.Splits d.text l) (form : HandlerForm) (text : String) :
    d.update r form (.replace text) = .ok ({ d with text := l.around text.toList }, 0) := by
  have hl : d.locate r = .ok l := Region.locate_eq_ok_iff.mpr h
  rw [update, replace, hl]
  rfl

theorem update_additive (h : r.Splits d.text l) (form : HandlerForm) (entries : List Entry) :
    d.update r form (.additive entries) =
      .ok ({ d with text := l.around (l.interior ++ textOf (wanted form l.interior entries)) },
        (wanted form l.interior entries).length) := by
  have hl : d.locate r = .ok l := Region.locate_eq_ok_iff.mpr h
  rw [update, merge, hl, wanted, ← missing_eq]
  rfl

/-- The cut of a document is one of its file, and what is put into the interior of the one gets
into that of the other with the ends of lines of the file. -/
theorem exists_splits_file (hfile : IsUniform file.toList)
    (h : r.Splits (parse file).text l) :
    ∃ l', r.Splits file.toList l' ∧ l'.interior = endsOf file.toList l.interior ∧
      toLineFeeds l'.interior = l.interior ∧
      ∀ new, endsOf file.toList (l.around new) = l'.around (endsOf file.toList new) := by
  have htext : (parse file).text = toLineFeeds file.toList := rfl
  rw [htext] at h
  by_cases hpair : hasPair file.toList = true
  · have hends : EndsInPairs file.toList := hfile.resolve_left (by simp [hpair])
    have hcut := h.toPairs
    rw [toPairs_toLineFeeds hends] at hcut
    have hall : ∀ text, endsOf file.toList text = toPairs text := fun text => if_pos hpair
    refine ⟨l.toPairs, hcut, (hall _).symm, toLineFeeds_toPairs _, fun new => ?_⟩
    rw [hall, hall, l.toPairs_around]
  · have hno : hasPair file.toList = false := by simpa using hpair
    rw [toLineFeeds_of_hasPair_eq_false hno] at h
    have hall : ∀ text, endsOf file.toList text = text := fun text => if_neg hpair
    refine ⟨l, h, (hall _).symm, ?_, fun new => by rw [hall, hall]⟩
    refine toLineFeeds_of_hasPair_eq_false ?_
    rw [Bool.eq_false_iff]
    intro hinterior
    refine hpair (hasPair_iff.mpr ((hasPair_iff.mp hinterior).trans ?_))
    rw [h.text_eq]
    exact ⟨l.before, l.after, rfl⟩

/-- **Text around a region is kept, character by character**, whatever is generated for the
region. The file is split in one way only, and only the interior is another one afterwards. One
that is replaced is the new text; to one that is maintained by adding are added, in order, the
first entries of the keys that are not found in it. Either way, what is put has the ends of lines
of the file. -/
theorem update_surroundings {C : String} {a : Artifact} {updated : Document} {n : Nat}
    (hfile : IsUniform file.toList)
    (h : (parse file).update r (handlerForm C a) content = .ok (updated, n)) :
    ∃ l, r.Splits file.toList l ∧ (∀ l', r.Splits file.toList l' → l' = l) ∧
      ∃ new, updated.render.toList = l.around new ∧
        match content with
        | .replace text => new = endsOf file.toList text.toList ∧ n = 0
        | .additive entries =>
          new = l.interior ++ endsOf file.toList
            (textOf (wanted (handlerForm C a) (toLineFeeds l.interior) entries)) ∧
          n = (wanted (handlerForm C a) (toLineFeeds l.interior) entries).length := by
  obtain ⟨inner, hinner⟩ := splits_of_update h
  -- The document is the file with line feeds only, and both are cut in the same places.
  obtain ⟨l, hl, hinterior, hfeeds, haround⟩ := exists_splits_file hfile hinner
  have hrender : ∀ text, (render { parse file with text := text }).toList =
      endsOf file.toList text := fun text => String.toList_ofList
  refine ⟨l, hl, fun l' hl' => hl.unique hl', ?_⟩
  cases content with
  | replace text =>
    rw [update_replace hinner] at h
    obtain ⟨rfl, rfl⟩ := Prod.mk.inj (Except.ok.inj h)
    exact ⟨endsOf file.toList text.toList, by rw [hrender, haround], rfl, rfl⟩
  | additive entries =>
    rw [update_additive hinner] at h
    obtain ⟨rfl, rfl⟩ := Prod.mk.inj (Except.ok.inj h)
    rw [hfeeds]
    refine ⟨_, ?_, rfl, rfl⟩
    have happend : ∀ a b, endsOf file.toList (a ++ b) =
        endsOf file.toList a ++ endsOf file.toList b := by
      intro a b
      unfold endsOf
      split
      · exact toPairs_append a b
      · rfl
    rw [hrender, haround, happend, hinterior]

/-- A file with pairs and with a carriage return that belongs to none, in which one handler is
there and another one is not. -/
theorem update_surroundings_pairs :
    let file := "\r\r\n#pragma region h\r\n\tvoid OnA();\r\n#pragma endregion h"
    let entries := [⟨"A", "\tvoid OnA();\n"⟩, ⟨"B", "\tvoid OnB();\n"⟩]
    let updated : Document :=
      ⟨"\r\n#pragma region h\n\tvoid OnA();\n\tvoid OnB();\n#pragma endregion h".toList, true⟩
    IsUniform file.toList ∧
      (parse file).update ⟨"h"⟩ (handlerForm "S" .sessionHeader) (.additive entries) =
        .ok (updated, 1) ∧
      ∃ l, Region.Splits ⟨"h"⟩ file.toList l ∧
        (∀ l', Region.Splits ⟨"h"⟩ file.toList l' → l' = l) ∧
        ∃ new, updated.render.toList = l.around new ∧
          new = l.interior ++ endsOf file.toList
            (textOf (wanted (handlerForm "S" .sessionHeader) (toLineFeeds l.interior) entries)) ∧
          1 = (wanted (handlerForm "S" .sessionHeader) (toLineFeeds l.interior) entries).length := by
  intro file entries updated
  have hfile : IsUniform file.toList := by decide
  have h : (parse file).update ⟨"h"⟩ (handlerForm "S" .sessionHeader) (.additive entries) =
      .ok (updated, 1) := by
    decide +kernel
  exact ⟨hfile, h, update_surroundings hfile h⟩

end Document

end Packetry
