import Packetry.Packet.Validation
import Packetry.Proofs.Additions

/-!
# Entries that are found again

What is added to the handlers of a session is looked for under the name of its packet when the
generator runs the next time. A name that is read off a text is a run of word characters, whatever
the text is (`Packetry.HandlerForm.isName_of_mem_names`), while validation takes any text for the
name of a packet. So an entry is found in its own text exactly if the name of its packet is made of
word characters. If that is so for all packets, a second run adds nothing to what the first one
wrote; for a single other one it adds something each time
(`Packetry.found_again_iff`).
-/

namespace Packetry

open Text

variable {form : HandlerForm} {before : Option Char} {name text rest C : List Char}

/-! ### Names that a scan reads -/

/-- A run of word characters that is not empty. -/
def IsRun (name : List Char) : Prop :=
  name ≠ [] ∧ ∀ c ∈ name, isWord c = true

theorem isRun_of_name? (h : name? text = some (name, rest)) : IsRun name := by
  unfold name? at h
  split at h
  · cases h
  · rename_i hne
    cases h
    exact ⟨hne, fun c hc => List.mem_takeWhile_imp hc⟩

theorem isRun_of_handlerName? (h : handlerName? text = some (name, rest)) : IsRun name := by
  obtain ⟨behindOn, -, h⟩ := Option.bind_eq_some_iff.mp h
  obtain ⟨⟨read, behindName⟩, hread, h⟩ := Option.bind_eq_some_iff.mp h
  obtain ⟨behindParen, -, h⟩ := Option.bind_eq_some_iff.mp h
  cases h
  exact isRun_of_name? hread

theorem isRun_of_declaration? (h : declaration? text = some (name, rest)) : IsRun name := by
  obtain ⟨behindVoid, -, h⟩ := Option.bind_eq_some_iff.mp h
  obtain ⟨behindSome, -, h⟩ := Option.bind_eq_some_iff.mp h
  obtain ⟨⟨read, behindName⟩, hread, h⟩ := Option.bind_eq_some_iff.mp h
  obtain ⟨behindParen, -, h⟩ := Option.bind_eq_some_iff.mp h
  obtain ⟨behindSemicolon, -, h⟩ := Option.bind_eq_some_iff.mp h
  cases h
  exact isRun_of_handlerName? hread

theorem isRun_of_member? (h : member? C text = some (name, rest)) : IsRun name := by
  induction text with
  | nil => cases h
  | cons c text ih =>
    rw [member?] at h
    rcases (Option.orElse_eq_some ..).mp h with hhere | ⟨-, hthere⟩
    · obtain ⟨behindClass, -, hread⟩ := Option.bind_eq_some_iff.mp hhere
      exact isRun_of_handlerName? hread
    · split at hthere
      · exact ih hthere
      · cases hthere

theorem isRun_of_definition? (h : definition? C text = some (name, rest)) : IsRun name := by
  obtain ⟨behindVoid, -, h⟩ := Option.bind_eq_some_iff.mp h
  split at h
  · split at h
    · exact isRun_of_member? h
    · cases h
  · cases h

theorem HandlerForm.isRun_of_here? (h : form.here? before text = some (name, rest)) :
    IsRun name := by
  cases form with
  | declaration =>
    rw [here?, Option.ite_none_right_eq_some] at h
    exact isRun_of_declaration? h.2
  | definition sessionClass =>
    rw [here?, Option.ite_none_right_eq_some] at h
    exact isRun_of_definition? h.2

theorem HandlerForm.isRun_of_mem_namesFrom {skip : Nat}
    (h : name ∈ form.namesFrom before skip text) : IsRun name := by
  fun_induction form.namesFrom before skip text with
  | case1 => cases h
  | case2 before skip c text ih => exact ih h
  | case3 before c text found rest hhere ih =>
    rcases List.mem_cons.mp h with rfl | h
    · exact isRun_of_here? hhere
    · exact ih h
  | case4 before c text hnone ih => exact ih h

/-- **What is read off a text is a name**, whatever the text is. -/
theorem HandlerForm.isName_of_mem_names {name : String} (h : name ∈ form.names text) :
    IsName name := by
  obtain ⟨run, hrun, rfl⟩ := List.mem_map.mp h
  obtain ⟨hne, hword⟩ := isRun_of_mem_namesFrom hrun
  exact ⟨by rwa [String.toList_ofList], by rwa [String.toList_ofList]⟩

/-! ### Merging twice -/

/-- Where a merge goes well, the region was found, and what was added is what its interior
lacked. -/
theorem Document.merge_ok {d d' : Document} {r : Region} {entries added : List Entry}
    (h : d.merge r entries form = .ok (d', added)) : ∃ l, d.locate r = .ok l ∧
      added = missing (form.names l.interior) entries := by
  cases hl : d.locate r with
  | error fault =>
    rw [merge, hl] at h
    cases h
  | ok l =>
    rw [merge_eq (Region.locate_eq_ok_iff.mp hl)] at h
    cases h
    exact ⟨l, rfl, rfl⟩

/-- Handlers that were merged into an empty region are all found there. -/
theorem Document.merge_handlers_again {d d' : Document} {r : Region} {l : Region.Location}
    {blocks : List (String × List String)} {added : List Entry} (hl : r.Splits d.text l)
    (hempty : l.interior = []) (h : ∀ block ∈ blocks, IsHandler form block.1 block.2)
    (hmerge : d.merge r (blocks.map entryOf) form = .ok (d', added)) :
    d'.merge r (blocks.map entryOf) form = .ok (d', []) := by
  obtain ⟨new, hsub, hnew, hmerge', hsplits⟩ := merge_handlers hl h
  obtain ⟨rfl, -⟩ := Prod.mk.inj (Except.ok.inj (hmerge.symm.trans hmerge'))
  have hnone : form.names l.interior = [] := by
    rw [hempty]
    rfl
  have hfound : form.names (handlerText new) = new.map (·.1) :=
    names_of_handlers fun block hblock => h block (hsub.subset hblock)
  refine merge_of_missing_eq_nil hsplits ?_
  rw [hempty, List.nil_append, hfound, ← keys_entryOf, hnew, hnone]
  exact missing_append_missing [] _

/-! ### Entries that are generated -/

section Entries

variable {C : String} {packets : List Packet} {a : Artifact} {entries : List Entry}

/-- An entry under a name is a handler of that name. -/
theorem exists_block_of_isName (hC : IsUnspaced C) (h : contentOf C packets a = .additive entries)
    {e : Entry} (he : e ∈ entries) (hname : IsName e.key) :
    ∃ block, entryOf block = e ∧ IsHandler (handlerForm C a) block.1 block.2 := by
  cases a <;> cases h <;> obtain ⟨p, -, rfl⟩ := List.mem_map.mp he
  case sessionHeader => exact ⟨(p.name, [p.declarationLine]), rfl, .declaration hname⟩
  case sessionSource =>
    exact ⟨(p.name, p.stubLines C (replyTo? packets p)), rfl, isHandler_stub hC hname packets⟩

/-- The entry of a handler is read under its name, and nothing else is. -/
theorem IsHandler.names_eq {block : String × List String}
    (h : IsHandler form block.1 block.2) : form.names (entryOf block).text.toList = [block.1] := by
  have hnames : form.names (([block].flatMap (·.2)).map lineOf).flatten = [block].map (·.1) :=
    names_of_handlers (by simpa using h)
  rwa [List.flatMap_singleton, ← toList_unlines] at hnames

/-- Entries under names are handlers of these names. -/
theorem exists_blocks_of_isName (hC : IsUnspaced C) (h : contentOf C packets a = .additive entries)
    (hnames : ∀ e ∈ entries, IsName e.key) :
    ∃ blocks : List (String × List String), entries = blocks.map entryOf ∧
      ∀ block ∈ blocks, IsHandler (handlerForm C a) block.1 block.2 := by
  cases a <;> cases h <;> replace hnames := List.forall_mem_map.mp hnames
  case sessionHeader => exact exists_blocks_of_declarationEntries hnames
  case sessionSource => exact exists_blocks_of_stubEntries hC hnames

/-- **Which entries are found again**, for a session class without white space. An entry is found
in its own text exactly if the name of its packet is made of word characters. Merging the entries
into an empty region goes well, and merging them once more adds nothing and changes nothing exactly
if this is so for all of them. -/
theorem found_again_iff (hC : IsUnspaced C) (h : contentOf C packets a = .additive entries) :
    (∀ e ∈ entries, e.key ∈ (handlerForm C a).names e.text.toList ↔ IsName e.key) ∧
      ∀ (d : Document) (r : Region) (l : Region.Location), d.locate r = .ok l → l.interior = [] →
        ∃ d' added, d.merge r entries (handlerForm C a) = .ok (d', added) ∧
          (d'.merge r entries (handlerForm C a) = .ok (d', []) ↔ ∀ e ∈ entries, IsName e.key) := by
  refine ⟨fun e he => ⟨HandlerForm.isName_of_mem_names, fun hname => ?_⟩,
    fun d r l hl hempty => ?_⟩
  · obtain ⟨block, rfl, hblock⟩ := exists_block_of_isName hC h he hname
    rw [hblock.names_eq]
    exact List.mem_singleton_self _
  have hsplits := Region.locate_eq_ok_iff.mp hl
  have hmerge := Document.merge_eq hsplits entries (handlerForm C a)
  refine ⟨_, _, hmerge, fun hagain e he => ?_, fun hnames => ?_⟩
  · -- Nothing is missing the second time, so that every key was read off the text.
    obtain ⟨l', -, hnothing⟩ := Document.merge_ok hagain
    suffices hfound : e.key ∈ (handlerForm C a).names l'.interior from
      HandlerForm.isName_of_mem_names hfound
    by_contra hno
    have hkey := Document.key_mem_missing_iff.mpr ⟨List.mem_map_of_mem he, hno⟩
    rw [← hnothing] at hkey
    cases hkey
  · obtain ⟨blocks, rfl, hblocks⟩ := exists_blocks_of_isName hC h hnames
    exact Document.merge_handlers_again hsplits hempty hblocks hmerge

/-- A packet whose name has a hyphen: its declaration is added once more each time. -/
theorem found_again_iff_hyphen :
    let packets : List Packet := [⟨.request, "Foo-Bar", none, none⟩]
    let entry : Entry := ⟨"Foo-Bar", "\tvoid OnFoo-Bar(const Foo-Bar& packet);\n"⟩
    let d : Document := ⟨"#pragma region h\n#pragma endregion h".toList, false⟩
    (validate packets).isValid = true ∧ IsUnspaced "S" ∧
      contentOf "S" packets .sessionHeader = .additive [entry] ∧
      entry.key ∉ HandlerForm.declaration.names entry.text.toList ∧
      ∃ d', d.merge ⟨"h"⟩ [entry] .declaration = .ok (d', [entry]) ∧
        d'.merge ⟨"h"⟩ [entry] .declaration ≠ .ok (d', []) := by
  intro packets entry d
  have hC : IsUnspaced "S" := IsName.isUnspaced (by decide)
  have hcontent : contentOf "S" packets .sessionHeader = .additive [entry] := by decide
  have hno : ¬IsName entry.key := by decide
  have hl : d.locate ⟨"h"⟩ = .ok
      ⟨"#pragma region h\n".toList, [], "#pragma endregion h".toList⟩ := by
    decide
  obtain ⟨hfound, hmerge⟩ := found_again_iff hC hcontent
  obtain ⟨d', added, hfirst, hagain⟩ := hmerge d ⟨"h"⟩ _ hl rfl
  have hadded : (d.merge ⟨"h"⟩ [entry] .declaration).map (·.2) = .ok [entry] := by decide
  have hfirst : d.merge ⟨"h"⟩ [entry] .declaration = .ok (d', added) := hfirst
  rw [hfirst] at hadded
  obtain rfl : added = [entry] := Except.ok.inj hadded
  refine ⟨by decide, hC, hcontent, fun hmem => ?_, d', hfirst, fun hquiet => ?_⟩
  · exact hno ((hfound entry (List.mem_singleton_self _)).mp hmem)
  · exact hno (hagain.mp hquiet entry (List.mem_singleton_self _))

end Entries

end Packetry
