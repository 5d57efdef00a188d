import Packetry.Proofs.Generated
import Packetry.Proofs.Located
import Mathlib.Data.List.Basic

/-!
# What is added to a region

A region that is maintained by adding gets the entries whose keys are missing
(`Packetry.Document.missing`): of each key that is not present the first entry, and nothing else.
If the entries are handlers, adding them to a region, whatever stands there, gives a text in which
the region is found again, with them behind what stood there
(`Packetry.Document.merge_handlers`).
-/

namespace Packetry

open Text

/-! ### Entries that are missing -/

namespace Document

variable {present : List String} {entries : List Entry}

/-- Entries are added from the list. -/
theorem missing_sublist (present : List String) (entries : List Entry) :
    (missing present entries).Sublist entries := by
  induction entries generalizing present with
  | nil => exact .slnil
  | cons entry rest ih =>
    rw [missing]
    split
    · exact (ih present).cons entry
    · exact (ih _).cons_cons entry

/-- The keys that are added are those that are not present. -/
theorem key_mem_missing_iff {key : String} : key ∈ (missing present entries).map (·.key) ↔
    key ∈ entries.map (·.key) ∧ key ∉ present := by
  induction entries generalizing present with
  | nil => simp [missing]
  | cons entry rest ih =>
    rw [missing]
    split
    · rename_i hentry
      rw [ih, List.map_cons, List.mem_cons]
      refine ⟨fun h => ⟨.inr h.1, h.2⟩, fun h => ⟨h.1.resolve_left ?_, h.2⟩⟩
      rintro rfl
      exact h.2 hentry
    · rename_i hentry
      rw [List.map_cons, List.mem_cons, ih, List.map_cons, List.mem_cons, List.mem_cons, not_or]
      constructor
      · rintro (rfl | ⟨hrest, -, hkey⟩)
        · exact ⟨.inl rfl, hentry⟩
        · exact ⟨.inr hrest, hkey⟩
      · rintro ⟨hkey | hrest, hpresent⟩
        · exact .inl hkey
        · by_cases hkey : key = entry.key
          · exact .inl hkey
          · exact .inr ⟨hrest, hkey, hpresent⟩

/-- No key is added twice. -/
theorem nodup_keys_missing (present : List String) (entries : List Entry) :
    ((missing present entries).map (·.key)).Nodup := by
  induction entries generalizing present with
  | nil => exact List.nodup_nil
  | cons entry rest ih =>
    rw [missing]
    split
    · exact ih present
    · rw [List.map_cons, List.nodup_cons]
      refine ⟨fun hmem => ?_, ih _⟩
      exact (key_mem_missing_iff.mp hmem).2 List.mem_cons_self

/-- Where every key is present, nothing is missing. -/
theorem missing_eq_nil (h : ∀ entry ∈ entries, entry.key ∈ present) :
    missing present entries = [] := by
  induction entries with
  | nil => rfl
  | cons entry rest ih =>
    rw [missing, if_pos (h entry (by simp))]
    exact ih fun entry hentry => h entry (by simp [hentry])

/-- What was missing and has been added is not missing any more. -/
theorem missing_append_missing (present : List String) (entries : List Entry) :
    missing (present ++ (missing present entries).map (·.key)) entries = [] := by
  refine missing_eq_nil fun entry hentry => List.mem_append.mpr ?_
  by_cases hpresent : entry.key ∈ present
  · exact .inl hpresent
  · exact .inr (key_mem_missing_iff.mpr ⟨List.mem_map_of_mem hentry, hpresent⟩)

/-- If no two entries have a key in common, all of those are missing whose key is not present. -/
theorem missing_of_nodup (h : (entries.map (·.key)).Nodup) :
    missing present entries = entries.filter fun entry => entry.key ∉ present := by
  induction entries generalizing present with
  | nil => rfl
  | cons entry rest ih =>
    obtain ⟨hentry, hrest⟩ := List.nodup_cons.mp h
    rw [missing, List.filter_cons, ih hrest, ih hrest]
    by_cases hpresent : entry.key ∈ present
    · rw [if_pos hpresent, if_neg (by simpa using hpresent)]
    · rw [if_neg hpresent, if_pos (by simpa using hpresent)]
      refine congrArg (entry :: ·) (List.filter_congr fun other hother => ?_)
      have hne : other.key ≠ entry.key := fun heq =>
        hentry (List.mem_map.mpr ⟨other, hother, heq⟩)
      simp [hne]

/-- Of what was missing, that is still missing whose key is still not present. -/
theorem missing_of_subset {present' : List String} (h : present ⊆ present') :
    missing present' entries =
      (missing present entries).filter fun entry => entry.key ∉ present' := by
  induction entries generalizing present present' with
  | nil => rfl
  | cons entry rest ih =>
    rw [missing, missing]
    by_cases hentry : entry.key ∈ present
    · rw [if_pos (h hentry), if_pos hentry, ih h]
    by_cases hentry' : entry.key ∈ present'
    · rw [if_pos hentry', if_neg hentry, List.filter_cons_of_neg (by simpa using hentry')]
      exact ih (List.cons_subset.mpr ⟨hentry', h⟩)
    · rw [if_neg hentry', if_neg hentry, List.filter_cons_of_pos (by simpa using hentry'),
        ih (List.cons_subset_cons entry.key h)]
      refine congrArg (entry :: ·) (List.filter_congr fun other hother => ?_)
      -- What is still missing behind `entry` has another key.
      have hother := (key_mem_missing_iff.mp (List.mem_map_of_mem hother)).2
      have hne : other.key ≠ entry.key := fun heq => hother (heq ▸ List.mem_cons_self)
      simp [hne]

/-- What is missing among entries, without the list of what was met: of those whose key is not
present, the first of every key. -/
theorem missing_eq (present : List String) (entries : List Entry) : missing present entries =
    (entries.filter fun entry => entry.key ∉ present).eraseDupsBy (·.key == ·.key) := by
  induction entries generalizing present with
  | nil => rfl
  | cons entry rest ih =>
    rw [missing]
    split
    · rename_i hpresent
      rw [ih, List.filter_cons_of_neg (by simpa using hpresent)]
    · rename_i hpresent
      rw [ih, List.filter_cons_of_pos (by simpa using hpresent), List.eraseDupsBy_cons,
        List.filter_filter]
      congr 3
      funext other
      simp [not_or]

end Document

/-! ### Merging handlers -/

/-- The text of handlers. -/
def handlerText (blocks : List (String × List String)) : List Char :=
  ((blocks.flatMap (·.2)).map lineOf).flatten

theorem textOf_entryOf (blocks : List (String × List String)) :
    Document.textOf (blocks.map entryOf) = handlerText blocks := by
  induction blocks with
  | nil => rfl
  | cons block blocks ih =>
    unfold Document.textOf handlerText at ih ⊢
    rw [List.map_cons, List.map_cons, List.flatten_cons, ih, List.flatMap_cons, List.map_append,
      List.flatten_append]
    exact congrArg (· ++ _) (toList_unlines block.2)

/-- Handlers are whole lines, and none of them is a sentinel. -/
theorem handlerText_isOther {r : Region} {form : HandlerForm} {blocks : List (String × List String)}
    (h : ∀ block ∈ blocks, IsHandler form block.1 block.2) :
    ∀ line ∈ lines (handlerText blocks), r.IsOther line := by
  have hplain : ∀ s ∈ blocks.flatMap (·.2), IsPlainLine s := by
    intro s hs
    obtain ⟨block, hblock, hs⟩ := List.mem_flatMap.mp hs
    exact (h block hblock).isPlainLine s hs
  have hlines := lines_append (fun s hs => (hplain s hs).single.feed) []
  rw [List.append_nil, lines, List.append_nil] at hlines
  rw [handlerText, hlines]
  exact Region.isOther_of_plain hplain

/-- A merge, in a document whose region was found. -/
theorem Document.merge_eq {d : Document} {r : Region} {l : Region.Location}
    (hl : r.Splits d.text l) (entries : List Entry) (form : HandlerForm) :
    d.merge r entries form =
      .ok ({ d with text := l.around (l.interior ++ textOf (missing (form.names l.interior)
        entries)) }, missing (form.names l.interior) entries) := by
  have hlocate : d.locate r = .ok l := Region.locate_eq_ok_iff.mpr hl
  rw [merge, hlocate]
  rfl

/-- Where nothing is missing, a merge leaves the document as it is. -/
theorem Document.merge_of_missing_eq_nil {d : Document} {r : Region} {l : Region.Location}
    {form : HandlerForm} {entries : List Entry} (hl : r.Splits d.text l)
    (h : missing (form.names l.interior) entries = []) :
    d.merge r entries form = .ok (d, []) := by
  have htext : l.around (l.interior ++ textOf []) = d.text := by
    rw [hl.text_eq]
    simp [textOf, Region.Location.around]
  rw [merge_eq hl, h, htext]

/-- **Handlers are added to a region**, whatever stands in it, and the region is found again around
the longer interior. -/
theorem Document.merge_handlers {d : Document} {r : Region} {l : Region.Location}
    {form : HandlerForm} {blocks : List (String × List String)} (hl : r.Splits d.text l)
    (h : ∀ block ∈ blocks, IsHandler form block.1 block.2) :
    ∃ added : List (String × List String), added.Sublist blocks ∧
      added.map entryOf = missing (form.names l.interior) (blocks.map entryOf) ∧
      d.merge r (blocks.map entryOf) form =
        .ok ({ d with text := l.around (l.interior ++ handlerText added) }, added.map entryOf) ∧
      r.Splits (l.around (l.interior ++ handlerText added))
        { l with interior := l.interior ++ handlerText added } := by
  obtain ⟨added, hsub, hadded⟩ :=
    List.sublist_map_iff.mp (missing_sublist (form.names l.interior) (blocks.map entryOf))
  refine ⟨added, hsub, hadded.symm, ?_, ?_⟩
  · rw [merge_eq hl, ← textOf_entryOf, ← hadded]
  · obtain ⟨hwhole, hothers⟩ := hl.interior
    refine hl.around (startsLine_append hwhole (startsLine_lines _)) fun line hline => ?_
    rw [lines_append_of_startsLine hwhole] at hline
    rcases List.mem_append.mp hline with hline | hline
    · exact hothers line hline
    · exact handlerText_isOther (fun block hblock => h block (hsub.subset hblock)) line hline

end Packetry
