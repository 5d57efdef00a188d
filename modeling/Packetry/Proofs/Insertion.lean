import Packetry.Proofs.Blocks
import Packetry.Proofs.Scaffolded
import Packetry.Proofs.Validated

/-!
# Adding a packet

What a packet that is added to a schema adds to the text of an artifact. Its block is inserted into
the interior of the region, in one piece, and nothing else changes (`Packetry.Gains`). Where the
interior is replaced, the block stands between those of the packets before it and behind it. Where
the generator only ever adds, it stands behind all others, before the end sentinel, since every
handler that was written before is found there and left alone.

The handlers that are left alone are those of the packets without the new one. Had the new packet
been there, one of them might have been written otherwise, with a reply that it did not have; so the
block of the new packet is the only one in which replies are looked up among all packets.
-/

namespace Packetry

open Text

variable {config : Config} {C : String} {packets s₁ s₂ : List Packet} {p : Packet} {a : Artifact}

/-! ### Code is plain -/

theorem codeOf_isPlainLine (hC : IsName C) (h : ∀ p ∈ packets, p.IsPlain) (all : List Packet)
    (a : Artifact) : ∀ s ∈ a.firstLines ++ codeOf C all packets a, IsPlainLine s := by
  intro s hs
  rcases List.mem_append.mp hs with hs | hs
  · exact a.firstLines_isPlainLine s hs
  · obtain ⟨p, hp, hs⟩ := List.mem_flatMap.mp hs
    exact Packet.block_isPlainLine hC (h p hp) all a s hs

/-! ### Texts that gain a block -/

/-- A text has got a block of lines in the interior of a region, below some of the lines there and
above the others. Nothing else has changed. -/
def Region.Inserts (r : Region) (above block below : List String) (old new : String) : Prop :=
  ∃ F : Frame, old = F.file r (above ++ below) ∧ new = F.file r (above ++ (block ++ below))

/-- A text gets longer by what is inserted into it. -/
theorem Region.Inserts.ne {r : Region} {above block below : List String} {old new : String}
    (h : r.Inserts above block below old new) (hblock : block ≠ []) : old ≠ new := by
  obtain ⟨F, rfl, rfl⟩ := h
  intro heq
  have hlength := congrArg (fun s : String => s.toList.length) heq
  obtain ⟨s, rest, rfl⟩ := List.exists_cons_of_ne_nil hblock
  simp only [Frame.file, Frame.text, String.toList_ofList, List.map_append, List.map_cons,
    List.flatten_append, List.flatten_cons, List.length_append, lineOf, List.length_singleton,
    List.cons_append] at hlength
  omega

/-- **What an artifact gains** when a packet is added among others: the block of the packet, and
nothing else. The code of the others is that from before, in which replies were looked up without
the new packet. -/
structure Gains (config : Config) (s₁ : List Packet) (p : Packet) (s₂ : List Packet) (a : Artifact)
    (old new : String) (inserted : Nat) : Prop where
  /-- In an interior that is replaced, the block is between those of the packets before and
  behind. -/
  replace : a.discipline = .replace → inserted = 0 ∧ (config.region a).Inserts
    (a.firstLines ++ codeOf config.sessionClass (s₁ ++ s₂) s₁ a)
    (p.block config.sessionClass (replyTo? (s₁ ++ p :: s₂) p) a)
    (codeOf config.sessionClass (s₁ ++ s₂) s₂ a) old new
  /-- In an interior that is added to, the block is behind all others. It is one entry, or nothing
  if the packet is a reply. -/
  additive : a.discipline = .additive → inserted = (if p.kind = .reply then 0 else 1) ∧
    (config.region a).Inserts (codeOf config.sessionClass (s₁ ++ s₂) (s₁ ++ s₂) a)
      (p.block config.sessionClass (replyTo? (s₁ ++ p :: s₂) p) a) [] old new

/-! ### Generating twice -/

section Generate

variable {interior : List String} (F : Frame)

/-- Generating into a region that is replaced. -/
theorem mergedText_replace (hconfig : config.IsSteady) (hnames : (packets.map (·.name)).Nodup)
    (ha : a.discipline = .replace) (h : ∀ s ∈ interior, IsPlainLine s) (all : List Packet) :
    mergedText config packets a (F.file (config.region a) interior) =
      .ok (F.file (config.region a)
        (a.firstLines ++ codeOf config.sessionClass all packets a), 0) := by
  have hr := hconfig.isNamed a
  unfold mergedText
  rw [F.parse_file hr h, contentOf_replace hnames ha all, Document.update, toList_unlines,
    F.replace_eq hr h]
  rfl

/-- Generating into a region that is added to. -/
theorem mergedText_additive (hconfig : config.IsSteady) (ha : a.discipline = .additive)
    {old added : List (String × List String)}
    (hold : ∀ block ∈ old, IsHandler (handlerForm config.sessionClass a) block.1 block.2)
    (hadded : Document.missing (old.map (·.1))
      ((handlersOf config.sessionClass packets (dispatched packets) a).map entryOf) =
        added.map entryOf) :
    mergedText config packets a (F.file (config.region a) (old.flatMap (·.2))) =
      .ok (F.file (config.region a) ((old ++ added).flatMap (·.2)), added.length) := by
  have hr := hconfig.isNamed a
  have hplain : ∀ s ∈ old.flatMap (·.2), IsPlainLine s := by
    intro s hs
    obtain ⟨block, hblock, hs⟩ := List.mem_flatMap.mp hs
    exact (hold block hblock).isPlainLine s hs
  unfold mergedText
  rw [F.parse_file hr hplain, contentOf_additive ha,
    Document.update_of_merge (F.merge_of_missing hr hold hadded), List.length_map]
  rfl

theorem nodup_names_dispatched (h : (packets.map (·.name)).Nodup) :
    ((dispatched packets).map (·.name)).Nodup :=
  h.sublist (List.filter_sublist.map _)

/-- What is missing of the handlers of packets with different names. -/
theorem missing_handlersOf (h : (packets.map (·.name)).Nodup) (C : String) (all : List Packet)
    (a : Artifact) (present : List String) :
    Document.missing present ((handlersOf C all packets a).map entryOf) =
      (handlersOf C all (packets.filter fun p => p.name ∉ present) a).map entryOf := by
  have hkeys : ((handlersOf C all packets a).map entryOf).map (·.key) = packets.map (·.name) := by
    rw [keys_entryOf, handlersOf, List.map_map]
    rfl
  rw [Document.missing_of_nodup (hkeys ▸ h), handlersOf, handlersOf, List.filter_map,
    List.filter_map]
  rfl

/-- **The first text** of a region: all blocks. Where the generator only adds, the interior has to
be empty before. -/
theorem mergedText_first (hconfig : config.IsSteady) (hnames : (packets.map (·.name)).Nodup)
    (hplain : ∀ s ∈ interior, IsPlainLine s) (hempty : a.discipline = .additive → interior = []) :
    mergedText config packets a (F.file (config.region a) interior) =
      .ok (F.file (config.region a)
          (a.firstLines ++ codeOf config.sessionClass packets packets a),
        if a.discipline = .additive then (dispatched packets).length else 0) := by
  cases ha : a.discipline with
  | replace => exact mergedText_replace F hconfig hnames ha hplain packets
  | additive =>
    have hmissing := missing_handlersOf (nodup_names_dispatched hnames) config.sessionClass
      packets a []
    rw [List.filter_eq_self.mpr (by simp)] at hmissing
    have hmerged := mergedText_additive F hconfig ha (List.forall_mem_nil _) hmissing
    rw [List.nil_append, flatMap_handlersOf ha, handlersOf, List.length_map] at hmerged
    rw [hempty ha, firstLines_eq_nil ha, List.nil_append]
    exact hmerged

/-- Of the handlers of packets, those of a new packet are missing where those of the others are
present. -/
theorem missing_of_new (h : ((s₁ ++ p :: s₂).map (·.name)).Nodup) (C : String)
    (all : List Packet) (a : Artifact) :
    Document.missing ((handlersOf C (s₁ ++ s₂) (dispatched (s₁ ++ s₂)) a).map (·.1))
      ((handlersOf C all (dispatched (s₁ ++ p :: s₂)) a).map entryOf) =
        (handlersOf C all (dispatched [p]) a).map entryOf := by
  have hpresent : (handlersOf C (s₁ ++ s₂) (dispatched (s₁ ++ s₂)) a).map (·.1) =
      (dispatched (s₁ ++ s₂)).map (·.name) := by
    rw [handlersOf, List.map_map]
    rfl
  rw [hpresent, missing_handlersOf (nodup_names_dispatched h)]
  congr 2
  have hsplit : dispatched (s₁ ++ p :: s₂) =
      dispatched s₁ ++ (dispatched [p] ++ dispatched s₂) := by
    rw [← List.singleton_append, dispatched, List.filter_append, List.filter_append]
    rfl
  have hmem : ∀ q, q ∈ dispatched s₁ ∨ q ∈ dispatched s₂ →
      q.name ∈ (dispatched (s₁ ++ s₂)).map (·.name) := by
    intro q hq
    refine List.mem_map_of_mem ?_
    rw [dispatched, List.filter_append]
    exact List.mem_append.mpr hq
  -- No other packet has the name of the new one.
  have hnew : p.name ∉ (dispatched (s₁ ++ s₂)).map (·.name) := by
    intro hp
    obtain ⟨q, hq, heq⟩ := List.mem_map.mp hp
    have hq := (List.mem_filter.mp hq).1
    rw [List.map_append, List.map_cons, List.nodup_middle, ← List.map_append] at h
    exact (List.nodup_cons.mp h).1 (List.mem_map.mpr ⟨q, hq, heq⟩)
  have hbefore := List.filter_eq_nil_iff.mpr fun q hq =>
    not_imp_not.mpr of_decide_eq_true (not_not.mpr (hmem q (Or.inl hq)))
  have hbehind := List.filter_eq_nil_iff.mpr fun q hq =>
    not_imp_not.mpr of_decide_eq_true (not_not.mpr (hmem q (Or.inr hq)))
  have hone : (dispatched [p]).filter (fun q => q.name ∉ (dispatched (s₁ ++ s₂)).map (·.name)) =
      dispatched [p] := by
    refine List.filter_eq_self.mpr fun q hq => ?_
    obtain rfl := List.mem_singleton.mp (List.mem_filter.mp hq).1
    exact decide_eq_true hnew
  rw [hsplit, List.filter_append, List.filter_append, hbefore, hone, hbehind, List.nil_append,
    List.append_nil]

/-- The code of a region when a packet has been added to others. -/
def codeWith (C : String) (s₁ : List Packet) (p : Packet) (s₂ : List Packet) (a : Artifact) :
    List String :=
  let block := p.block C (replyTo? (s₁ ++ p :: s₂) p) a
  match a.discipline with
  | .replace => codeOf C (s₁ ++ s₂) s₁ a ++ (block ++ codeOf C (s₁ ++ s₂) s₂ a)
  | .additive => codeOf C (s₁ ++ s₂) (s₁ ++ s₂) a ++ block

section Second

variable (hconfig : config.IsSteady) (hnames : ((s₁ ++ p :: s₂).map (·.name)).Nodup)
  (hpackets : ∀ q ∈ s₁ ++ p :: s₂, q.IsPlain) {old new : String}
  (hold : old = F.file (config.region a)
    (a.firstLines ++ codeOf config.sessionClass (s₁ ++ s₂) (s₁ ++ s₂) a))
  (hnew : new = F.file (config.region a)
    (a.firstLines ++ codeWith config.sessionClass s₁ p s₂ a))

include hconfig hnames hpackets hold hnew

/-- What a region that is replaced gains. -/
theorem exists_gains_of_replace (ha : a.discipline = .replace) :
    ∃ inserted, mergedText config (s₁ ++ p :: s₂) a old = .ok (new, inserted) ∧
      Gains config s₁ p s₂ a old new inserted := by
  have hblock : p.block config.sessionClass (replyTo? (s₁ ++ s₂) p) a =
      p.block config.sessionClass (replyTo? (s₁ ++ p :: s₂) p) a := by
    rw [p.block_eq_of_replace ha, ← p.block_eq_of_replace ha]
  have hcode : codeOf config.sessionClass (s₁ ++ s₂) (s₁ ++ p :: s₂) a =
      codeWith config.sessionClass s₁ p s₂ a := by
    rw [codeWith, ha, codeOf, codeOf, codeOf, List.flatMap_append, List.flatMap_cons, hblock]
  have hothers : ∀ q ∈ s₁ ++ s₂, q.IsPlain := fun q hq => hpackets q
    (List.mem_append.mpr ((List.mem_append.mp hq).imp_right (List.mem_cons_of_mem p)))
  have hmerged := mergedText_replace F hconfig hnames ha
    (codeOf_isPlainLine hconfig.sessionClass hothers (s₁ ++ s₂) a) (s₁ ++ s₂)
  rw [← hold, hcode, ← hnew] at hmerged
  refine ⟨0, hmerged, fun _ => ⟨rfl, F, ?_, ?_⟩, fun h => ?_⟩
  · rw [hold, List.append_assoc, codeOf, codeOf, codeOf, List.flatMap_append]
  · rw [hnew, List.append_assoc, codeWith, ha]
  · rw [ha] at h
    cases h

/-- What a region that is added to gains. -/
theorem exists_gains_of_additive (ha : a.discipline = .additive) :
    ∃ inserted, mergedText config (s₁ ++ p :: s₂) a old = .ok (new, inserted) ∧
      Gains config s₁ p s₂ a old new inserted := by
  rw [firstLines_eq_nil ha, List.nil_append] at hold hnew
  have hothers : ∀ q ∈ dispatched (s₁ ++ s₂), IsName q.name := fun q hq => (hpackets q
    (List.mem_append.mpr ((List.mem_append.mp (mem_dispatched.mp hq).1).imp_right
      (List.mem_cons_of_mem p)))).name
  have hhandlers :=
    isHandler_of_mem_handlersOf hconfig.sessionClass.isUnspaced ha hothers (s₁ ++ s₂)
  have hmerged := mergedText_additive F hconfig ha hhandlers
    (missing_of_new hnames config.sessionClass (s₁ ++ p :: s₂) a)
  have hblock : codeOf config.sessionClass (s₁ ++ p :: s₂) [p] a =
      p.block config.sessionClass (replyTo? (s₁ ++ p :: s₂) p) a := List.flatMap_singleton ..
  have hcode : codeWith config.sessionClass s₁ p s₂ a =
      codeOf config.sessionClass (s₁ ++ s₂) (s₁ ++ s₂) a ++
        p.block config.sessionClass (replyTo? (s₁ ++ p :: s₂) p) a := by
    rw [codeWith, ha]
  have hone : (dispatched [p]).length = if p.kind = .reply then 0 else 1 := by
    rw [dispatched, ← List.countP_eq_length_filter, List.countP_singleton]
    simp [isDispatched_iff]
  rw [List.flatMap_append, flatMap_handlersOf ha, flatMap_handlersOf ha, hblock, ← hcode, ← hold,
    ← hnew, handlersOf, List.length_map, hone] at hmerged
  refine ⟨_, hmerged, fun h => ?_, fun _ => ⟨rfl, F, ?_, ?_⟩⟩
  · rw [ha] at h
    cases h
  · rw [hold, List.append_nil]
  · rw [hnew, hcode, List.append_nil]

/-- **The second text** of a region: what the first one gains by one more packet. -/
theorem mergedText_second : ∃ inserted,
    mergedText config (s₁ ++ p :: s₂) a old = .ok (new, inserted) ∧
      Gains config s₁ p s₂ a old new inserted := by
  cases ha : a.discipline with
  | replace => exact exists_gains_of_replace F hconfig hnames hpackets hold hnew ha
  | additive => exact exists_gains_of_additive F hconfig hnames hpackets hold hnew ha

end Second

end Generate

end Packetry
