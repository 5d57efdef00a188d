import Packetry.Proofs.Editing
import Packetry.Proofs.Positions

/-!
# Interiors as views

The interior of a region is a view of the document, and `Packetry.Document.replace` is the update
of that view. The two obey the laws that one expects of such a pair
(`Packetry.Document.replace_laws`): putting back what was read changes nothing, what was put is read
again, only the last of two updates counts, and updates of two regions that follow one another can
be done in either order.

Each law needs the region to be found again in the new text, and by its own sentinels. So what is
put has to be made of whole lines that are no sentinels (`Packetry.Region.Admits`). Whether a
region is cut out of a text can be read off its three parts one by one
(`Packetry.Region.splits_iff`), which is why a change in front of a region, or behind it, leaves
the cut where it is (`Packetry.Region.Splits.change_before`, `Packetry.Region.Splits.change_after`).
-/

namespace Packetry

open Text

namespace Region

variable {r r₁ r₂ : Region} {text new : List Char} {l l₁ l₂ : Location}

/-! ### Interiors -/

/-- A text that can be the interior of a region. -/
structure Admits (r : Region) (text : List Char) : Prop where
  /-- It is empty or ends with a line feed. -/
  whole : startsLine text.getLast? = true
  /-- None of its lines is a sentinel of the region. -/
  other : ∀ line ∈ lines text, r.IsOther line

instance (r : Region) (text : List Char) : Decidable (r.Admits text) :=
  decidable_of_iff (startsLine text.getLast? = true ∧
    ∀ line ∈ lines text, isMarkerLine r.beginMarker line = false ∧
      isMarkerLine r.endMarker line = false)
    ⟨fun h => ⟨h.1, h.2⟩, fun h => ⟨h.whole, h.other⟩⟩

/-- An interior of whole lines is cut at its own lines. -/
theorem lines_around {a b : List Char} (ha : startsLine a.getLast? = true)
    (hb : startsLine b.getLast? = true) (c : List Char) :
    lines (a ++ b ++ c) = lines a ++ (lines b ++ lines c) := by
  rw [List.append_assoc, lines_append_of_startsLine ha, lines_append_of_startsLine hb]

/-- The parts that a region is cut into, each by its own lines: the first one ends with the begin
sentinel, the last one starts with the end sentinel, and there are no others. -/
structure Parts (r : Region) (l : Location) (front : List (List Char)) (opening closing : List Char)
    (back : List (List Char)) : Prop where
  /-- The lines before the interior. -/
  before : lines l.before = front ++ [opening]
  /-- The lines after the interior. -/
  after : lines l.after = closing :: back
  /-- A line starts behind the part before the interior. -/
  whole_before : startsLine l.before.getLast? = true
  /-- A line starts behind the interior. -/
  whole_interior : startsLine l.interior.getLast? = true
  /-- The sentinels are where they should be. -/
  isAt : Cut.IsAt ⟨front, opening, lines l.interior, closing, back⟩ r

/-- **A region is cut out of a text** exactly if the parts make up the text and each of them is what
it should be by itself. -/
theorem splits_iff : r.Splits text l ↔
    text = l.around l.interior ∧
      ∃ front opening closing back, r.Parts l front opening closing back := by
  constructor
  · intro h
    have htext := h.text_eq
    obtain ⟨c, hc, hlines, rfl⟩ := h
    have hcut : lines text = (c.front ++ [c.opening]) ++ (c.middle ++ c.closing :: c.back) := by
      rw [hlines, Cut.lines, List.append_assoc, List.singleton_append]
    obtain ⟨hfront, hbefore, hrest⟩ := lines_eq_append hcut (by simp)
    obtain ⟨hmiddle, hinterior, hafter⟩ := lines_eq_append hrest (by simp)
    refine ⟨htext, c.front, c.opening, c.closing, c.back, hbefore, hafter, hfront, hmiddle, ?_⟩
    rw [show lines c.location.interior = c.middle from hinterior]
    exact hc
  · rintro ⟨htext, front, opening, closing, back, h⟩
    refine ⟨_, h.isAt, ?_, ?_⟩
    · rw [htext, Location.around, lines_around h.whole_before h.whole_interior, h.before, h.after,
        Cut.lines, List.append_assoc, List.singleton_append]
    · rw [Cut.location, flatten_lines, ← h.before, ← h.after, flatten_lines, flatten_lines]

/-- A region admits the interior that it has. -/
theorem Splits.admits (h : r.Splits text l) : r.Admits l.interior :=
  ⟨h.interior.1, h.interior.2⟩

/-- A new interior that the region admits is cut out between the same sentinels. -/
theorem Splits.put (h : r.Splits text l) (hnew : r.Admits new) :
    r.Splits (l.around new) { l with interior := new } :=
  h.around hnew.whole hnew.other

/-! ### Changes outside of a region -/

/-- Whole lines before a region may change, as long as none of them is a sentinel of it. -/
theorem Splits.change_before {a old b : List Char} (h : r.Splits text l)
    (hbefore : l.before = a ++ old ++ b) (hb : b ≠ []) (ha : startsLine a.getLast? = true)
    (hold : startsLine old.getLast? = true) (hnew : r.Admits new) :
    r.Splits (a ++ new ++ b ++ l.interior ++ l.after) { l with before := a ++ new ++ b } := by
  obtain ⟨-, front, opening, closing, back, hl⟩ := splits_iff.mp h
  have hlines := hl.before
  rw [hbefore, lines_around ha hold] at hlines
  -- The begin sentinel is the last line of what does not change.
  obtain ⟨front', last, hlast⟩ : ∃ front' last, lines b = front' ++ [last] := by
    rcases List.eq_nil_or_concat (lines b) with hnil | ⟨front', last, hlast⟩
    · exact absurd (by rw [← flatten_lines b, hnil, List.flatten_nil]) hb
    · exact ⟨front', last, by rw [hlast, List.concat_eq_append]⟩
  rw [hlast, ← List.append_assoc, ← List.append_assoc] at hlines
  obtain ⟨rfl, hopening⟩ := List.append_inj' hlines rfl
  obtain rfl := List.singleton_inj.mp hopening
  have hwhole := hl.whole_before
  rw [hbefore, List.getLast?_append_of_ne_nil _ hb] at hwhole
  have hfront := hl.isAt.front
  simp only [List.mem_append] at hfront
  refine splits_iff.mpr ⟨rfl, lines a ++ lines new ++ front', last, closing, back, ?_, hl.after, ?_,
    hl.whole_interior, hl.isAt.opens, hl.isAt.closes, ?_, hl.isAt.middle, hl.isAt.back⟩
  · rw [lines_around ha hnew.whole, hlast]
    simp
  · rw [List.getLast?_append_of_ne_nil _ hb]
    exact hwhole
  · intro line hline
    rcases List.mem_append.mp hline with hline | hline
    · rcases List.mem_append.mp hline with hline | hline
      · exact hfront line (.inl (.inl hline))
      · exact hnew.other line hline
    · exact hfront line (.inr hline)

/-- Whole lines after a region may change, as long as none of them is a sentinel of it. -/
theorem Splits.change_after {a old b : List Char} (h : r.Splits text l)
    (hafter : l.after = a ++ old ++ b) (hne : a ≠ []) (ha : startsLine a.getLast? = true)
    (hold : startsLine old.getLast? = true) (hnew : r.Admits new) :
    r.Splits (l.before ++ l.interior ++ (a ++ new ++ b)) { l with after := a ++ new ++ b } := by
  obtain ⟨-, front, opening, closing, back, hl⟩ := splits_iff.mp h
  have hlines := hl.after
  rw [hafter, lines_around ha hold] at hlines
  -- The end sentinel is the first line of what does not change.
  obtain ⟨first, back', hfirst⟩ : ∃ first back', lines a = first :: back' := by
    refine List.exists_cons_of_ne_nil fun hnil => hne ?_
    rw [← flatten_lines a, hnil, List.flatten_nil]
  rw [hfirst, List.cons_append] at hlines
  obtain ⟨rfl, rfl⟩ := List.cons.inj hlines
  have hback := hl.isAt.back
  simp only [List.mem_append] at hback
  refine splits_iff.mpr ⟨rfl, front, opening, first, back' ++ (lines new ++ lines b), hl.before, ?_,
    hl.whole_before, hl.whole_interior, hl.isAt.opens, hl.isAt.closes, hl.isAt.front,
    hl.isAt.middle, ?_⟩
  · rw [lines_around ha hnew.whole, hfirst, List.cons_append]
  · intro line hline
    rcases List.mem_append.mp hline with hline | hline
    · exact hback line (.inl hline)
    · rcases List.mem_append.mp hline with hline | hline
      · exact hnew.other line hline
      · exact hback line (.inr (.inr hline))

/-! ### Two regions -/

/-- The sentinels of one region all stand before those of another one: its end sentinel comes before
the other's begin sentinel. No region that is found does so to itself. -/
def Precedes (r₁ r₂ : Region) (text : List Char) : Prop :=
  ∀ last ∈ r₁.endPositions text, ∀ first ∈ r₂.beginPositions text, last < first

instance (r₁ r₂ : Region) (text : List Char) : Decidable (r₁.Precedes r₂ text) :=
  inferInstanceAs (Decidable (∀ last ∈ r₁.endPositions text, ∀ first ∈ r₂.beginPositions text,
    last < first))

/-- A region is cut out between the lines of its sentinels. -/
theorem Splits.exists_positions (h : r.Splits text l) :
    ∃ first last, r.beginPositions text = [first] ∧ r.endPositions text = [last] ∧
      first < last ∧ l.IsBetween text first last := by
  have hl := locate_eq_ok_iff.mpr h
  rcases r.exists_blames_or_positions text with ⟨fault, hfault⟩ | ⟨first, last, hbegin, hend, hlt⟩
  · exact nomatch hfault.locate_eq.symm.trans hl
  · obtain ⟨l', hl', hbetween⟩ := locate_of_positions hbegin hend hlt
    obtain rfl := Except.ok.inj (hl'.symm.trans hl)
    exact ⟨first, last, hbegin, hend, hlt, hbetween⟩

/-- What lies between two regions: some lines, of which the first is the end sentinel of the one and
the last is the begin sentinel of the other. -/
theorem Splits.exists_between (h₁ : r₁.Splits text l₁) (h₂ : r₂.Splits text l₂)
    (h : r₁.Precedes r₂ text) : ∃ between, between ≠ [] ∧ startsLine between.getLast? = true ∧
      l₂.before = l₁.before ++ l₁.interior ++ between ∧
      l₁.after = between ++ l₂.interior ++ l₂.after := by
  obtain ⟨first₁, last₁, -, hend, hlt, hl₁⟩ := h₁.exists_positions
  obtain ⟨first₂, last₂, hbegin, -, -, hl₂⟩ := h₂.exists_positions
  have horder : last₁ < first₂ := h last₁ (by simp [hend]) first₂ (by simp [hbegin])
  have hfront : lines (l₁.before ++ l₁.interior) = (lines text).take (last₁ - 1) := by
    rw [lines_append_of_startsLine hl₁.startsLine_start, hl₁.before, hl₁.interior]
    have htake := List.take_append_drop first₁ ((lines text).take (last₁ - 1))
    rwa [List.take_take, Nat.min_eq_left (by omega)] at htake
  obtain ⟨between, hbetween⟩ : l₁.before ++ l₁.interior <+: l₂.before := by
    rw [← flatten_lines (l₁.before ++ l₁.interior), hfront, ← flatten_lines l₂.before, hl₂.before]
    obtain ⟨more, hmore⟩ :=
      List.take_prefix_take_left (l := lines text) (by omega : last₁ - 1 ≤ first₂)
    exact ⟨more.flatten, by rw [← hmore, List.flatten_append]⟩
  -- Otherwise the second region would begin before the first one has ended.
  have hne : between ≠ [] := by
    rintro rfl
    have hlength := congrArg (List.length ∘ lines) hbetween
    have hmem : first₂ ∈ r₂.beginPositions text := by simp [hbegin]
    have hle : first₂ ≤ (lines text).length := Nat.le_of_lt_succ (lt_of_mem_positionsFrom hmem)
    simp only [Function.comp_apply, List.append_nil, hfront, hl₂.before,
      List.length_take] at hlength
    omega
  refine ⟨between, hne, ?_, hbetween.symm, ?_⟩
  · have hwhole := hl₂.startsLine_start
    rwa [← hbetween, List.getLast?_append_of_ne_nil _ hne] at hwhole
  · have htext := hl₁.text_eq.trans hl₂.text_eq.symm
    rw [← hbetween] at htext
    simpa using htext

end Region

/-! ### The laws -/

namespace Document

variable {d : Document} {r r₁ r₂ : Region} {l l₁ l₂ : Region.Location} {t t₁ t₂ : List Char}

theorem interior_eq (h : r.Splits d.text l) : d.interior r = .ok l.interior := by
  have hlocate : d.locate r = .ok l := Region.locate_eq_ok_iff.mpr h
  rw [interior, hlocate]
  rfl

/-- A region whose interior is read is found. -/
theorem exists_locate_of_interior {i : List Char} (h : d.interior r = .ok i) :
    ∃ l, d.locate r = .ok l ∧ l.interior = i := by
  unfold interior at h
  cases hlocate : d.locate r with
  | error fault =>
    rw [hlocate] at h
    cases h
  | ok l =>
    rw [hlocate] at h
    exact ⟨l, rfl, Except.ok.inj h⟩

/-- Putting back the interior that was read changes nothing. -/
theorem replace_interior (h : r.Splits d.text l) : d.replace r l.interior = .ok d := by
  have htext : l.around l.interior = d.text := h.text_eq.symm
  rw [replace_eq h, htext]

/-- Of two texts that are put for the interior, one after the other, only the last one counts. -/
theorem replace_replace (h : r.Splits d.text l) (ht : r.Admits t) (u : List Char) :
    replace { d with text := l.around t } r u = d.replace r u := by
  rw [replace_eq (d := { d with text := l.around t }) (h.put ht), replace_eq h]
  rfl

/-- The interiors of two regions can be replaced in either order. -/
structure InEitherOrder (d : Document) (r₁ r₂ : Region) (t₁ t₂ : List Char) (d₁ d₂ d' : Document) :
    Prop where
  /-- The first one is replaced. -/
  first : d.replace r₁ t₁ = .ok d₁
  /-- The second one is replaced. -/
  second : d.replace r₂ t₂ = .ok d₂
  /-- The second interior is not changed by the first replacement. -/
  interior_second : d₁.interior r₂ = d.interior r₂
  /-- The first interior is not changed by the second replacement. -/
  interior_first : d₂.interior r₁ = d.interior r₁
  /-- Both are replaced, the first one first. -/
  second_after : d₁.replace r₂ t₂ = .ok d'
  /-- Both are replaced, the second one first. -/
  first_after : d₂.replace r₁ t₁ = .ok d'

theorem InEitherOrder.symm {d₁ d₂ d' : Document} (h : InEitherOrder d r₁ r₂ t₁ t₂ d₁ d₂ d') :
    InEitherOrder d r₂ r₁ t₂ t₁ d₂ d₁ d' :=
  ⟨h.second, h.first, h.interior_first, h.interior_second, h.first_after, h.second_after⟩

/-- Two regions that follow one another do not get in each other's way. -/
theorem exists_inEitherOrder (h₁ : r₁.Splits d.text l₁) (h₂ : r₂.Splits d.text l₂)
    (h : r₁.Precedes r₂ d.text) (ht₁ : r₂.Admits t₁) (ht₂ : r₁.Admits t₂) :
    ∃ d₁ d₂ d', InEitherOrder d r₁ r₂ t₁ t₂ d₁ d₂ d' := by
  obtain ⟨between, hne, hwhole, hbefore, hafter⟩ := h₁.exists_between h₂ h
  obtain ⟨-, front, opening, closing, back, hl₁⟩ := Region.splits_iff.mp h₁
  -- The second region behind a new first interior, and the first one before a new second one.
  have hsecond := h₂.change_before hbefore hne hl₁.whole_before hl₁.whole_interior ht₁
  have hfirst := h₁.change_after hafter hne hwhole h₂.admits.whole ht₂
  have htext₁ : l₁.before ++ t₁ ++ between ++ l₂.interior ++ l₂.after = l₁.around t₁ := by
    rw [Region.Location.around, hafter]
    simp
  have htext₂ : l₁.before ++ l₁.interior ++ (between ++ t₂ ++ l₂.after) = l₂.around t₂ := by
    rw [Region.Location.around, hbefore]
    simp
  rw [htext₁] at hsecond
  rw [htext₂] at hfirst
  refine ⟨_, _, _, replace_eq h₁ t₁, replace_eq h₂ t₂, ?_, ?_, replace_eq hsecond t₂, ?_⟩
  · rw [interior_eq (d := { d with text := l₁.around t₁ }) hsecond, interior_eq h₂]
  · rw [interior_eq (d := { d with text := l₂.around t₂ }) hfirst, interior_eq h₁]
  · rw [replace_eq (d := { d with text := l₂.around t₂ }) hfirst]
    simp [Region.Location.around]

/-- **An interior and its replacement are a view and its update.** Putting back what was read
changes nothing. A text of whole lines without a sentinel is read again after it was put, the
region starts where it did, and what was put before it leaves no trace. Replacements in two regions
that follow one another leave each other's interior alone, and can be made in either order. A
replacement that fails leaves the document as it was. -/
theorem replace_laws (d : Document) :
    (∀ r i, d.interior r = .ok i → d.replace r i = .ok d) ∧
    (∀ r l t, d.locate r = .ok l → r.Admits t →
      ∃ d', d.replace r t = .ok d' ∧ (∃ l', d'.locate r = .ok l' ∧ l'.start = l.start) ∧
        d'.interior r = .ok t ∧ ∀ u, d'.replace r u = d.replace r u) ∧
    (∀ r₁ r₂ l₁ l₂ t₁ t₂, d.locate r₁ = .ok l₁ → d.locate r₂ = .ok l₂ →
      r₁.Precedes r₂ d.text ∨ r₂.Precedes r₁ d.text →
      r₂.Admits t₁ → r₁.Admits t₂ →
      ∃ d₁ d₂ d', InEitherOrder d r₁ r₂ t₁ t₂ d₁ d₂ d') ∧
    (∀ r t fault, d.replace r t = .error fault →
      (replaceInPlace r t).run d = (.error fault, d)) := by
  refine ⟨?_, ?_, ?_, ?_⟩
  · intro r i hi
    obtain ⟨l, hlocate, rfl⟩ := exists_locate_of_interior hi
    exact replace_interior (Region.locate_eq_ok_iff.mp hlocate)
  · intro r l t hlocate ht
    have hl : r.Splits d.text l := Region.locate_eq_ok_iff.mp hlocate
    have hput := hl.put ht
    refine ⟨_, replace_eq hl t, ⟨_, Region.locate_eq_ok_iff.mpr hput, rfl⟩, ?_, ?_⟩
    · exact interior_eq (d := { d with text := l.around t }) hput
    · exact replace_replace hl ht
  · intro r₁ r₂ l₁ l₂ t₁ t₂ hlocate₁ hlocate₂ horder ht₁ ht₂
    have hl₁ : r₁.Splits d.text l₁ := Region.locate_eq_ok_iff.mp hlocate₁
    have hl₂ : r₂.Splits d.text l₂ := Region.locate_eq_ok_iff.mp hlocate₂
    rcases horder with h | h
    · exact exists_inEitherOrder hl₁ hl₂ h ht₁ ht₂
    · obtain ⟨d₂, d₁, d', horders⟩ := exists_inEitherOrder hl₂ hl₁ h ht₂ ht₁
      exact ⟨d₁, d₂, d', horders.symm⟩
  · intro r t fault h
    rw [replaceInPlace_run, h]

/-- A document with two regions, the second one behind the first one, and without a third. -/
theorem replace_laws_neighbours :
    let d := parse ("#pragma region a\n1\n#pragma endregion a\n--\n#pragma region b\n" ++
      "2\n#pragma endregion b\n")
    let a : Region := ⟨"a"⟩
    let b : Region := ⟨"b"⟩
    let t := "#pragma region c\n".toList
    (d.interior a = .ok "1\n".toList ∧ d.replace a "1\n".toList = .ok d) ∧
    (a.Admits t ∧ ∃ d', d.replace a t = .ok d' ∧ d'.interior a = .ok t ∧
      ∀ u, d'.replace a u = d.replace a u) ∧
    (a.Precedes b d.text ∧ b.Admits t ∧ a.Admits [] ∧
      ∃ d₁ d₂ d', InEitherOrder d a b t [] d₁ d₂ d') ∧
    ((replaceInPlace ⟨"c"⟩ t).run d = (.error (.missingBegin "#pragma region c"), d)) := by
  intro d a b t
  obtain ⟨hback, hput, horder, hfails⟩ := replace_laws d
  have hinterior : d.interior a = .ok "1\n".toList := by decide
  have hinterior' : d.interior b = .ok "2\n".toList := by decide
  obtain ⟨la, hla, -⟩ := exists_locate_of_interior hinterior
  obtain ⟨lb, hlb, -⟩ := exists_locate_of_interior hinterior'
  have ht : a.Admits t := by decide
  have ht' : b.Admits t := by decide
  have hnil : a.Admits [] := by decide
  have hprecedes : a.Precedes b d.text := by decide
  have hmissing : d.replace ⟨"c"⟩ t = .error (.missingBegin "#pragma region c") := by
    decide
  obtain ⟨d', hd', -, hread, hlast⟩ := hput a la t hla ht
  exact ⟨⟨hinterior, hback a _ hinterior⟩, ⟨ht, d', hd', hread, hlast⟩,
    ⟨hprecedes, ht', hnil, horder a b la lb t [] hla hlb (.inl hprecedes) ht' hnil⟩,
    hfails ⟨"c"⟩ t _ hmissing⟩

end Document

end Packetry
