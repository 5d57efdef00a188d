import Packetry.Proofs.Interior
import Packetry.Proofs.Surroundings

/-!
# What is written is read again

A document keeps one bit about the ends of the lines of its file, and its text has single line
feeds. A file comes back from its document unless it mixes the two ends of lines. The other way
round a document does not come back from its file if the bit says something that the text does not
bear out: it asks for pairs although there is no line feed, or it asks for none although the text
has a pair. A document that does neither is *settled* (`Packetry.Document.IsSettled`), and these
are exactly the ones that are read again as they were written
(`Packetry.Document.parse_render_iff`).

A document that was read is settled, and an edit whose texts have no carriage returns leaves it so
(`Packetry.Document.IsSettled.edit`): what is put is a run of text between two places where a line
starts, so that it can neither complete a pair nor be completed to one, and the line of the begin
sentinel keeps its line feed.
-/

namespace Packetry

/-! ### Pairs -/

namespace Text

variable {a b text : List Char} {c : Char}

theorem hasPair_cons (h : c = '\r' → text.head? ≠ some '\n') :
    hasPair (c :: text) = hasPair text := by
  rw [hasPair]
  rintro rest rfl rfl
  exact h rfl rfl

/-- A text without carriage returns completes no pair. -/
theorem hasPair_append_of_not_mem (h : '\r' ∉ a) (b : List Char) :
    hasPair (a ++ b) = hasPair b := by
  induction a with
  | nil => rfl
  | cons c a ih =>
    obtain ⟨hc, ha⟩ := not_or.mp (List.mem_cons.not.mp h)
    rw [List.cons_append, hasPair_cons fun heq => absurd heq.symm hc, ih ha]

/-- No pair lies across the start of a line. -/
theorem hasPair_append (h : startsLine a.getLast? = true) (b : List Char) :
    hasPair (a ++ b) = (hasPair a || hasPair b) := by
  fun_induction hasPair a with
  | case1 rest => rfl
  | case2 c rest hc ih =>
    cases rest with
    | nil =>
      obtain rfl : c = '\n' := by simpa [startsLine] using h
      rw [List.singleton_append, hasPair_cons fun heq => absurd heq (by decide)]
      rfl
    | cons d rest =>
      rw [List.cons_append, hasPair_cons, ih (by simpa using h)]
      rintro rfl hd
      obtain rfl : d = '\n' := by simpa using hd
      exact hc rest rfl rfl
  | case3 => rfl

/-- Text behind which a line starts ends with a line feed. -/
theorem mem_of_startsLine (h : startsLine text.getLast? = true) (hne : text ≠ []) :
    '\n' ∈ text := by
  have hlast : text.getLast hne = '\n' := by
    simpa [startsLine, List.getLast?_eq_some_getLast hne] using h
  exact hlast ▸ List.getLast_mem hne

/-- Wherever there is a line feed, putting carriage returns makes a pair. -/
theorem hasPair_toPairs (text : List Char) : hasPair (toPairs text) = decide ('\n' ∈ text) := by
  induction text with
  | nil => rfl
  | cons c text ih =>
    rw [toPairs]
    split
    · rename_i hc
      subst hc
      simp [hasPair]
    · rename_i hc
      rw [hasPair_cons fun _ => head?_toPairs text, ih]
      simp [Ne.symm hc]

/-- The line feed of a pair stays. -/
theorem mem_toLineFeeds_of_hasPair (h : hasPair text = true) : '\n' ∈ toLineFeeds text := by
  fun_induction hasPair text with
  | case1 rest => simp [toLineFeeds]
  | case2 c rest hc ih =>
    rw [toLineFeeds]
    · exact List.mem_cons_of_mem _ (ih h)
    · exact hc
  | case3 => cases h

end Text

open Text

namespace Document

variable {d : Document} {r : Region} {l : Region.Location}

/-! ### Settled documents -/

/-- A document in which the ends of the lines of the file agree with the text. -/
structure IsSettled (d : Document) : Prop where
  /-- If there are pairs in the file, there is a line to end. -/
  feed : d.pairs = true → '\n' ∈ d.text
  /-- If there are none, there is no pair in the text. -/
  noPair : d.pairs = false → hasPair d.text = false

/-- **The documents that are read again as they were written** are the settled ones. -/
theorem parse_render_iff (d : Document) : parse d.render = d ↔ d.IsSettled := by
  obtain ⟨text, pairs⟩ := d
  cases pairs with
  | true =>
    have hparse : parse (render ⟨text, true⟩) = ⟨text, decide ('\n' ∈ text)⟩ := by
      rw [parse, render, if_pos rfl, String.toList_ofList, toLineFeeds_toPairs, hasPair_toPairs]
    rw [hparse, Document.mk.injEq, decide_eq_true_eq]
    exact ⟨fun h => ⟨fun _ => h.2, fun heq => absurd heq (by simp)⟩, fun h => ⟨rfl, h.feed rfl⟩⟩
  | false =>
    have hparse : parse (render ⟨text, false⟩) = ⟨toLineFeeds text, hasPair text⟩ := by
      rw [parse, render, if_neg (by simp), String.toList_ofList]
    rw [hparse, Document.mk.injEq]
    exact ⟨fun h => ⟨fun heq => absurd heq (by simp), fun _ => h.2⟩,
      fun h => ⟨toLineFeeds_of_hasPair_eq_false (h.noPair rfl), h.noPair rfl⟩⟩

theorem isSettled_parse (file : String) : (parse file).IsSettled := by
  refine ⟨mem_toLineFeeds_of_hasPair, fun h => ?_⟩
  have hpair : hasPair file.toList = false := h
  rw [parse, toLineFeeds_of_hasPair_eq_false hpair, hpair]

/-! ### Edits -/

/-- No text that is put has a carriage return. -/
def Edit.IsReturnFree : Edit → Prop
  | replace _ text => '\r' ∉ text
  | merge _ entries _ => ∀ entry ∈ entries, '\r' ∉ entry.text.toList

instance (e : Edit) : Decidable e.IsReturnFree :=
  match e with
  | .replace _ text => inferInstanceAs (Decidable ('\r' ∉ text))
  | .merge _ entries _ =>
    inferInstanceAs (Decidable (∀ entry ∈ entries, '\r' ∉ entry.text.toList))

/-- What an edit puts into a region, next to what was there, makes no pair with what follows. -/
theorem Edit.IsReturnFree.hasPair_interior {e : Edit} (h : e.IsReturnFree) {old after : List Char}
    (hold : startsLine old.getLast? = true) (hpair : hasPair old = false) :
    hasPair (e.interior old ++ after) = hasPair after := by
  cases e with
  | replace r text => exact hasPair_append_of_not_mem h after
  | merge r entries form =>
    have hadded : '\r' ∉ textOf (missing (form.names old) entries) := by
      intro hmem
      obtain ⟨text, htext, hc⟩ := List.mem_flatten.mp hmem
      obtain ⟨entry, hentry, rfl⟩ := List.mem_map.mp htext
      exact h entry ((missing_sublist _ _).subset hentry) hc
    rw [interior, List.append_assoc, hasPair_append hold, hpair, Bool.false_or,
      hasPair_append_of_not_mem hadded]

/-- **An edit without carriage returns leaves a document settled**, whether it succeeds or fails. -/
theorem IsSettled.edit (h : d.IsSettled) {e : Edit} (he : e.IsReturnFree) :
    (d.edit e).IsSettled := by
  cases hlocate : d.locate e.region with
  | error fault =>
    rw [edit_of_error hlocate]
    exact h
  | ok l =>
    have hl : e.region.Splits d.text l := Region.locate_eq_ok_iff.mp hlocate
    rw [edit_of_splits hl]
    obtain ⟨htext, front, opening, closing, back, hparts⟩ := Region.splits_iff.mp hl
    refine ⟨fun _ => ?_, fun hpairs => ?_⟩
    · -- The line of the begin sentinel ends with a line feed, since the next one starts behind it.
      have hne : l.before ≠ [] := by
        intro hnil
        have hlines := hparts.before
        rw [hnil, lines] at hlines
        exact absurd hlines.symm (by simp)
      have hfeed := mem_of_startsLine hparts.whole_before hne
      simp [Region.Location.around, hfeed]
    · have hnone := h.noPair hpairs
      rw [htext, Region.Location.around, List.append_assoc, hasPair_append hparts.whole_before,
        hasPair_append hparts.whole_interior, Bool.or_eq_false_iff, Bool.or_eq_false_iff] at hnone
      obtain ⟨hbefore, hinterior, hafter⟩ := hnone
      change hasPair (l.before ++ e.interior l.interior ++ l.after) = false
      rw [List.append_assoc, hasPair_append hparts.whole_before, hbefore, Bool.false_or,
        he.hasPair_interior hparts.whole_interior hinterior, hafter]

theorem IsSettled.editAll (h : d.IsSettled) {edits : List Edit}
    (hedits : ∀ e ∈ edits, e.IsReturnFree) : (d.editAll edits).IsSettled := by
  unfold Document.editAll
  induction edits generalizing d with
  | nil => exact h
  | cons e edits ih =>
    exact ih (h.edit (hedits e (by simp))) fun e' he' => hedits e' (by simp [he'])

/-! ### Files and documents -/

/-- A file comes back from its document if it does not mix the two ends of lines. -/
theorem render_parse_iff (file : String) :
    (parse file).render = file ↔ IsUniform file.toList := by
  have hrender : (parse file).render.toList =
      if hasPair file.toList then toPairs (toLineFeeds file.toList) else toLineFeeds file.toList :=
    String.toList_ofList
  rw [← String.toList_inj, hrender]
  by_cases hpair : hasPair file.toList = true
  · rw [if_pos hpair, IsUniform, hpair, endsInPairs_iff]
    exact ⟨.inr, fun h => h.resolve_left (by simp)⟩
  · have hnone : hasPair file.toList = false := by simpa using hpair
    rw [if_neg hpair]
    exact ⟨fun _ => .inl hnone, fun _ => toLineFeeds_of_hasPair_eq_false hnone⟩

/-- **Ends of lines come back.** A file is written again as it was read if and only if it has no
pair, or nothing but pairs. A document is read again as it is written, after any edits without
carriage returns, of which some may have failed. -/
theorem round_trip :
    (∀ file, (parse file).render = file ↔ IsUniform file.toList) ∧
    ∀ file edits, (∀ e ∈ edits, Edit.IsReturnFree e) →
      parse ((parse file).editAll edits).render = (parse file).editAll edits := by
  refine ⟨render_parse_iff, fun file edits hedits => ?_⟩
  rw [parse_render_iff]
  exact (isSettled_parse file).editAll hedits

/-- A file with a stray carriage return before a pair does not come back. Its document does, after
a replacement, a merge and a replacement that fails. -/
theorem round_trip_stray :
    let file := "// \r\r\n#pragma region a\r\n#pragma endregion a\n"
    let edits : List Edit := [
      .replace ⟨"a"⟩ "void Handle_Old();\n".toList,
      .merge ⟨"a"⟩ [⟨"New", "void Handle_New();\n"⟩] (handlerForm "S" .sessionHeader),
      .replace ⟨"b"⟩ "\n".toList]
    ((parse file).render ≠ file ∧ ¬ IsUniform file.toList) ∧
    (∀ e ∈ edits, e.IsReturnFree) ∧ (parse file).editAll edits ≠ parse file ∧
    parse ((parse file).editAll edits).render = (parse file).editAll edits := by
  intro file edits
  have hmixed : ¬ IsUniform file.toList := by decide
  have hfree : ∀ e ∈ edits, e.IsReturnFree := by decide
  have hchanged : (parse file).editAll edits ≠ parse file := by decide
  exact ⟨⟨(round_trip.1 file).not.mpr hmixed, hmixed⟩, hfree, hchanged,
    round_trip.2 file edits hfree⟩

end Document

end Packetry
