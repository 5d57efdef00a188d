import Packetry.Proofs.Scaffolded
import Packetry.Proofs.Surroundings

/-!
# Scaffolds are spliced

A file that is missing starts from its scaffold, and what is generated goes straight into the region
of it. The templates write the two sentinels from the values of a scope, while the region is looked
for by its name, and the texts of a configuration are on the lines around it. That none of this gets
in the way is `Packetry.scaffold_spliced`: the region is found in every scaffold, with nothing in it
but the enumerator that stands for no packet, and whatever is generated goes in there and changes
nothing else.

Little is asked of a configuration for that (`Packetry.Config.IsOneLine`). Its texts have to be
single lines, the session class must have no white space and the names of the regions must not be
blank.
-/

namespace Packetry

open Text

variable {config : Config}

/-- What is put into an empty interior, and how many entries that are. -/
def Content.atFirst : Content → List Char × Nat
  | .replace text => (text.toList, 0)
  | .additive entries =>
    let first := entries.eraseDupsBy (·.key == ·.key)
    (Document.textOf first, first.length)

theorem Document.wanted_nil (form : HandlerForm) (entries : List Entry) :
    wanted form [] entries = entries.eraseDupsBy (·.key == ·.key) := by
  have hnames : form.names [] = [] := by cases form <;> rfl
  rw [wanted, hnames, List.filter_eq_self.mpr (by simp)]

/-- Entries are added to a region that starts empty. -/
theorem firstLines_of_additive {C : String} {packets : List Packet} {a : Artifact}
    {entries : List Entry} (h : contentOf C packets a = .additive entries) :
    a.firstLines = [] := by
  cases a with
  | packetId => cases h
  | _ => rfl

/-- A content goes into a region that holds the first lines of its artifact. -/
theorem Document.update_first {text : List Char} {r : Region} {l : Region.Location} {a : Artifact}
    (h : r.Splits text l) (hfirst : a.firstLines = [] → l.interior = []) (C : String)
    (packets : List Packet) (form : HandlerForm) :
    Document.update ⟨text, false⟩ r form (contentOf C packets a) =
      .ok (⟨l.around (contentOf C packets a).atFirst.1, false⟩,
        (contentOf C packets a).atFirst.2) := by
  cases hcontent : contentOf C packets a with
  | replace code => exact update_replace h form code
  | additive entries =>
    rw [update_additive h, hfirst (firstLines_of_additive hcontent), wanted_nil]
    rfl

/-- **Scaffolds are spliced.** With the standard templates, every artifact has a scaffold. It has no
carriage return, and the region is found in it. The interior is empty, but for the enumerator that
stands for no packet. Whatever the packets are, and whatever the session class is called in what is
generated for them, the generated text gets in there and what is around it stays: a text that
replaces the interior is the new one, and of entries the first of each key are put. -/
theorem scaffold_spliced (h : config.IsOneLine) (a : Artifact) :
    ∃ (text : String) (l : Region.Location),
      (⟨config, []⟩ : Scaffolds).ofArtifact a = .ok text ∧
      '\r' ∉ text.toList ∧
      text.toList = l.before ++ l.interior ++ l.after ∧
      (Document.parse text).locate (config.region a) = .ok l ∧
      l.interior = (if a = .packetId then "\tINVALID_PACKET_ID = 0\n" else "").toList ∧
      ∀ (C : String) (packets : List Packet), ∃ d,
        (Document.parse text).update (config.region a) (handlerForm C a) (contentOf C packets a) =
          .ok (d, (contentOf C packets a).atFirst.2) ∧
        d.render.toList = l.before ++ (contentOf C packets a).atFirst.1 ++ l.after := by
  obtain ⟨F, hscaffold, -⟩ := scaffold_frame h a
  have hr := h.isNamed a
  have hplain := a.firstLines_isPlainLine
  have hparse := F.parse_file hr hplain
  have hlocate := F.locate_eq hr hplain
  have hsplits := Region.locate_eq_ok_iff.mp hlocate
  refine ⟨F.file (config.region a) a.firstLines, F.location (config.region a) a.firstLines,
    hscaffold, ?_, ?_, ?_, ?_, fun C packets => ?_⟩
  · rw [Frame.file, String.toList_ofList]
    exact F.carriage_notMem hr hplain
  · rw [Frame.file, String.toList_ofList]
    exact hsplits.text_eq
  · rw [hparse]
    exact hlocate
  · show (a.firstLines.map lineOf).flatten = _
    cases a <;> decide
  · have hfirst : a.firstLines = [] →
        (F.location (config.region a) a.firstLines).interior = [] := by
      intro hnil
      rw [Frame.location, hnil]
      rfl
    rw [hparse]
    exact ⟨_, Document.update_first hsplits hfirst C packets _, String.toList_ofList⟩

/-- A session class that is called like the beginning of a sentinel, which comes first on a line of
the scaffold, and a region whose name has white space around it. -/
theorem scaffold_spliced_pragma :
    let config : Config :=
      { sessionClass := "#pragma", registerNamespace := "#pragma endregion h",
        regions := { sessionHeader := " h " } }
    let packets : List Packet := [⟨.request, "Ping", none, none⟩]
    config.IsOneLine ∧ ∃ (text : String) (l : Region.Location),
      (⟨config, []⟩ : Scaffolds).ofArtifact .sessionHeader = .ok text ∧
      (Document.parse text).locate ⟨"h"⟩ = .ok l ∧ l.interior = [] ∧
      ∃ d, (Document.parse text).update ⟨"h"⟩ (handlerForm "#pragma" .sessionHeader)
          (contentOf "#pragma" packets .sessionHeader) = .ok (d, 1) ∧
        d.render.toList = l.before ++ "\tvoid OnPing(const Ping& packet);\n".toList ++ l.after := by
  intro config packets
  have hconfig : config.IsOneLine := by
    have hclass : config.sessionClass.toList.any isBlank = false := by decide
    refine ⟨fun c hc => by simpa using List.any_eq_false.mp hclass c hc, by decide,
      ?_, ?_, ?_⟩
    · intro a ha p hp
      simp only [includedArtifacts, List.mem_cons, List.not_mem_nil, or_false] at ha
      rcases ha with rfl | rfl | rfl <;> cases hp <;> decide
    · intro a
      cases a <;> decide
    · intro a
      cases a <;> decide
  obtain ⟨text, l, htext, -, -, hlocate, hinterior, hupdate⟩ :=
    scaffold_spliced hconfig .sessionHeader
  obtain ⟨d, hd, hrender⟩ := hupdate "#pragma" packets
  have hregion : config.region .sessionHeader = ⟨"h"⟩ := by decide
  have hfirst : (contentOf "#pragma" packets .sessionHeader).atFirst =
      ("\tvoid OnPing(const Ping& packet);\n".toList, 1) := by decide
  rw [hregion] at hlocate hd
  rw [hfirst] at hd hrender
  exact ⟨hconfig, text, l, htext, hlocate, hinterior, d, hd, hrender⟩

end Packetry
