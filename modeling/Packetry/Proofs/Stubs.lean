import Packetry.Proofs.Seams

/-!
# Definitions over a history of schemas

The definitions of the handlers of several schemas are merged into a region one after the other,
and the interior of the region may have held anything when that began. It only ever grows; after
each merge it has a definition for every packet of that schema; and no definition is written twice,
however often its packet turns up (`Packetry.Document.mergeEach_stubs`).

What carries the induction is that the names that are found in the interior after a merge are those
that were found before it and those that were added (`Packetry.names_append_definitions`): what is
added later is missing from both.
-/

namespace Packetry

open Text

namespace Document

variable {d : Document} {r : Region} {l : Region.Location} {C : String} {packets : List Packet}

/-- The document after each of several merges of definitions, one behind the other, and what was
added each time. -/
def mergeEach (r : Region) (C : String) (d : Document) :
    List (List Packet) → Except Region.Fault (List (Document × List Entry))
  | [] => .ok []
  | packets :: history => do
    let step ← d.merge r (stubEntries C packets) (.definition C)
    return step :: (← mergeEach r C step.1 history)

/-- What a merge of definitions does to the interior of a region, and to the names in it. -/
theorem merge_stubs (hl : r.Splits d.text l) (hC : IsUnspaced C)
    (hnames : ∀ p ∈ packets, IsName p.name) : ∃ d' added more,
      d.merge r (stubEntries C packets) (.definition C) = .ok (d', added) ∧
      r.Splits d'.text { l with interior := l.interior ++ more } ∧
      (HandlerForm.definition C).names (l.interior ++ more) =
        (HandlerForm.definition C).names l.interior ++ added.map (·.key) ∧
      (added.map (·.key)).Nodup ∧
      ∀ name, name ∈ added.map (·.key) ↔ (∃ p ∈ dispatched packets, p.name = name) ∧
        name ∉ (HandlerForm.definition C).names l.interior := by
  obtain ⟨blocks, hblocks, hhandlers⟩ := exists_blocks_of_stubEntries hC
    fun p hp => hnames p (List.mem_filter.mp hp).1
  obtain ⟨added, hsub, hadded, hmerge, hsplits⟩ := merge_handlers hl hhandlers
  have hstubs : (stubEntries C packets).map (·.key) = (dispatched packets).map (·.name) := by
    rw [stubEntries, List.map_map]
    rfl
  rw [hblocks]
  refine ⟨_, added.map entryOf, handlerText added, hmerge, hsplits, ?_, ?_, fun name => ?_⟩
  · rw [keys_entryOf]
    exact names_append_definitions hC hl.interior.1 fun block hblock =>
      hhandlers block (hsub.subset hblock)
  · rw [hadded]
    exact nodup_keys_missing _ _
  · rw [hadded, key_mem_missing_iff, ← hblocks, hstubs, List.mem_map]

/-- **No definition is lost, and none is written twice**, over a history of schemas. Every merge
goes well, and each interior is a beginning of the next one. After each merge, a definition is
found for every packet of the schema that is dispatched. A name is added once over the whole
history if some schema has it and it was not found to begin with, and otherwise never. -/
theorem mergeEach_stubs {history : List (List Packet)} (hl : d.locate r = .ok l)
    (hC : IsUnspaced C) (hnames : ∀ packets ∈ history, ∀ p ∈ packets, IsName p.name) :
    ∃ (steps : List (Document × List Entry)) (interiors : List (List Char)),
      d.mergeEach r C history = .ok steps ∧
      steps.map (·.1.interior r) = interiors.map .ok ∧
      List.IsChain (· <+: ·) (l.interior :: interiors) ∧
      List.Forall₂ (fun packets interior => ∀ p ∈ dispatched packets,
        p.name ∈ (HandlerForm.definition C).names interior) history interiors ∧
      ∀ name, (steps.flatMap fun step => step.2.map (·.key)).count name =
        if (∃ packets ∈ history, ∃ p ∈ dispatched packets, p.name = name) ∧
          name ∉ (HandlerForm.definition C).names l.interior then 1 else 0 := by
  induction history generalizing d l with
  | nil => exact ⟨[], [], rfl, rfl, .singleton _, .nil, by simp⟩
  | cons packets history ih =>
    obtain ⟨d', added, more, hmerge, hsplits, hfound, hnodup, hmem⟩ :=
      merge_stubs (Region.locate_eq_ok_iff.mp hl) hC (hnames packets List.mem_cons_self)
    have hl' := Region.locate_eq_ok_iff.mpr hsplits
    obtain ⟨steps, interiors, hsteps, hinteriors, hchain, hall, hcount⟩ :=
      ih hl' fun packets hpackets => hnames packets (List.mem_cons_of_mem _ hpackets)
    have hinterior : d'.interior r = .ok (l.interior ++ more) := by
      rw [interior, locate, hl']
      rfl
    refine ⟨(d', added) :: steps, (l.interior ++ more) :: interiors, ?_, ?_, ?_, ?_, ?_⟩
    · simp only [mergeEach, hmerge, hsteps, bind, Except.bind, pure, Except.pure]
    · rw [List.map_cons, List.map_cons, hinteriors, hinterior]
    · exact hchain.cons_cons (List.prefix_append _ _)
    · refine .cons (fun p hp => ?_) hall
      rw [hfound, List.mem_append]
      by_cases hold : p.name ∈ (HandlerForm.definition C).names l.interior
      · exact .inl hold
      · exact .inr ((hmem p.name).mpr ⟨⟨p, hp, rfl⟩, hold⟩)
    · intro name
      -- A name is added now or later, and not both: later it is found.
      have hnow : (added.map (·.key)).count name =
          if (∃ p ∈ dispatched packets, p.name = name) ∧
            name ∉ (HandlerForm.definition C).names l.interior then 1 else 0 := by
        rw [hnodup.count]
        exact if_congr (hmem name) rfl rfl
      rw [List.flatMap_cons, List.count_append, hnow, hcount]
      simp only [hfound, List.mem_append, hmem, List.exists_mem_cons_iff]
      by_cases hthis : ∃ p ∈ dispatched packets, p.name = name <;>
        by_cases hlater : ∃ packets ∈ history, ∃ p ∈ dispatched packets, p.name = name <;>
          by_cases hold : name ∈ (HandlerForm.definition C).names l.interior <;>
            simp only [hthis, hlater, hold] <;> simp

/-- Two schemas, and an interior in which a definition was begun that one of them is about to
add. -/
theorem mergeEach_stubs_begun :
    let d : Document :=
      ⟨"#pragma region h\nvoid S::OnOld(\nvoid S::OnB\n#pragma endregion h".toList, false⟩
    let l : Region.Location := ⟨"#pragma region h\n".toList,
      "void S::OnOld(\nvoid S::OnB\n".toList, "#pragma endregion h".toList⟩
    let history : List (List Packet) :=
      [[⟨.request, "A", none, none⟩], [⟨.request, "B", none, none⟩, ⟨.request, "A", none, none⟩]]
    d.locate ⟨"h"⟩ = .ok l ∧ IsUnspaced "S" ∧
      (∀ packets ∈ history, ∀ p ∈ packets, IsName p.name) ∧
      ∃ (steps : List (Document × List Entry)) (interiors : List (List Char)),
        d.mergeEach ⟨"h"⟩ "S" history = .ok steps ∧
        steps.map (·.1.interior ⟨"h"⟩) = interiors.map .ok ∧
        List.IsChain (· <+: ·) (l.interior :: interiors) ∧
        List.Forall₂ (fun packets interior => ∀ p ∈ dispatched packets,
          p.name ∈ (HandlerForm.definition "S").names interior) history interiors ∧
        ∀ name, (steps.flatMap fun step => step.2.map (·.key)).count name =
          if (∃ packets ∈ history, ∃ p ∈ dispatched packets, p.name = name) ∧
            name ∉ (HandlerForm.definition "S").names l.interior then 1 else 0 := by
  intro d l history
  have hl : d.locate ⟨"h"⟩ = .ok l := by decide
  have hC : IsUnspaced "S" := by
    intro c hc
    obtain rfl : c = 'S' := by simpa using hc
    decide
  have hnames : ∀ packets ∈ history, ∀ p ∈ packets, IsName p.name := by
    have hA : IsName "A" := by decide
    have hB : IsName "B" := by decide
    simp [history, hA, hB]
  exact ⟨hl, hC, hnames, mergeEach_stubs hl hC hnames⟩

end Document

end Packetry
