import Packetry.Proofs.Agreement
import Mathlib.Data.List.Perm.Basic

/-!
# The order of the packets

A schema may be written in any order. What a packet contributes to a region is a block of lines, and
the content of a region is made of the blocks of the packets in their order
(`Packetry.Artifact.assemble`). That the blocks themselves do not depend on the order is due to the
names of the packets being different, in two places: no function of one packet keeps a function of
another from being written, and the packet that is meant by the name of a reply is the same in every
order (`Packetry.replyTo?_eq_some_iff`), be it before or behind the packet that it answers.

* `Packetry.orderOnly_of_perm`: valid packets in another order.
-/

namespace Packetry

variable {C : String} {packets packets' : List Packet} {p : Packet} {reply : String}

/-! ### Replies -/

/-- **The reply to a packet** is any packet of that kind with the conventional name. -/
theorem replyTo?_eq_some_iff (hnodup : (packets.map (·.name)).Nodup) :
    replyTo? packets p = some reply ↔
      replyName? p.name = some reply ∧ ∃ q ∈ packets, q.kind = .reply ∧ q.name = reply := by
  rw [replyTo?_eq_some]
  refine and_congr_right fun _ => exists_congr fun q => ?_
  have hfound : find? packets reply = some q ↔ q ∈ packets ∧ q.name = reply :=
    find?_eq_some_iff_of_nodup hnodup
  rw [hfound, and_assoc, and_comm (a := q.name = reply)]

/-- It is the same in every order. -/
theorem replyTo?_perm (hnodup : (packets.map (·.name)).Nodup) (hperm : packets.Perm packets')
    (p : Packet) : replyTo? packets' p = replyTo? packets p := by
  refine Option.ext fun reply => ?_
  rw [replyTo?_eq_some_iff hnodup,
    replyTo?_eq_some_iff ((hperm.map (·.name)).nodup_iff.mp hnodup)]
  simp only [hperm.mem_iff]

theorem unlines_replyLines (reply : String) : unlines (replyLines reply) =
    "\t" ++ reply ++ " reply;\n\tSendPacket(reply);\n" := by
  have hend : " reply;\n\tSendPacket(reply);\n" = " reply;" ++ "\n" ++ "\tSendPacket(reply);\n" :=
    rfl
  rw [replyLines, unlines_cons, hend]
  simp only [toString, String.append_assoc]
  rfl

/-- The definition of a handler tells which reply is sent. -/
theorem unlines_stubLines_inj {reply? reply?' : Option String} :
    unlines (p.stubLines C reply?) = unlines (p.stubLines C reply?') ↔ reply? = reply?' := by
  refine ⟨fun h => ?_, fun h => by rw [h]⟩
  have hsame : unlines ((reply?.map replyLines).getD []) =
      unlines ((reply?'.map replyLines).getD []) := by
    rw [p.stubLines_eq, p.stubLines_eq] at h
    simpa only [unlines_cons (stubLine C p.name), unlines_append, String.append_right_inj,
      String.append_left_inj] using h
  -- The lines of a reply begin with a tabulator, so that they differ from no lines at all.
  have hsome : ∀ r, first? (unlines (replyLines r)) = some '\t' := by
    intro r
    rw [unlines_replyLines]
    exact first?_append (first?_append rfl r) _
  cases reply? with
  | none =>
    cases reply?' with
    | none => rfl
    | some r' =>
      have hfirst := hsome r'
      rw [Option.map_some, Option.getD_some] at hsame
      rw [← hsame] at hfirst
      cases hfirst
  | some r =>
    cases reply?' with
    | none =>
      have hfirst := hsome r
      rw [Option.map_some, Option.getD_some] at hsame
      rw [hsame] at hfirst
      cases hfirst
    | some r' =>
      rw [Option.map_some, Option.map_some, Option.getD_some, Option.getD_some,
        unlines_replyLines, unlines_replyLines] at hsame
      exact congrArg some (eq_of_between hsame)

/-! ### Contents made of blocks -/

/-- The content of a region that is made of blocks, each with the name of its packet. What replaces
the interior are the blocks, behind the first lines of the region. What is added to it are entries,
one for each block that has any lines. -/
def Artifact.assemble (a : Artifact) (blocks : List (String × List String)) : Content :=
  match a.discipline with
  | .replace => .replace (unlines (a.firstLines ++ blocks.flatMap (·.2)))
  | .additive => .additive ((blocks.filter (·.2 ≠ [])).map entryOf)

/-- What is generated for packets with different names is made of their blocks. -/
theorem contentOf_eq_assemble (hnodup : (packets.map (·.name)).Nodup) (a : Artifact) :
    contentOf C packets a = a.assemble (handlersOf C packets packets a) := by
  unfold Artifact.assemble
  split
  case h_1 hd =>
    rw [contentOf_replace hnodup hd packets, codeOf, handlersOf, List.flatMap_map]
  case h_2 hd =>
    have hkept : ∀ p : Packet, (p.block C (replyTo? packets p) a ≠ []) ↔ p.isDispatched = true := by
      intro p
      rw [isDispatched_iff]
      cases a with
      | sessionHeader => simp [Packet.block]
      | sessionSource => simp [Packet.block, Packet.stubLines]
      | _ => cases hd
    rw [contentOf_additive hd, handlersOf, handlersOf, List.filter_map, dispatched]
    simp only [Function.comp_def, hkept, Bool.decide_eq_true]

/-! ### Another order -/

/-- What becomes of the contents when packets are put in another order. -/
structure OrderOnly (packets packets' : List Packet) : Prop where
  /-- The contents are made of one block for each packet, in order. -/
  contents : ∀ C a, contentOf C packets a = a.assemble (handlersOf C packets packets a)
  /-- Afterwards they are made of the blocks that there were before, in the new order. -/
  contents' : ∀ C a, contentOf C packets' a = a.assemble (handlersOf C packets packets' a)
  /-- Those are the blocks in the new order, too. -/
  blocks : ∀ C a, ∀ p ∈ packets,
    p.block C (replyTo? packets' p) a = p.block C (replyTo? packets p) a
  /-- The handler of a packet sends the conventional reply if that is a packet, wherever it is. -/
  replies : ∀ C, ∀ p ∈ packets', p.kind ≠ .reply → ∀ reply,
    entryOf (p.name, p.stubLines C (some reply)) ∈ stubEntries C packets' ↔
      replyName? p.name = some reply ∧ ∃ q ∈ packets, q.kind = .reply ∧ q.name = reply

/-- The entry of a packet that is dispatched says which reply there is. -/
theorem mem_stubEntries_iff (hnodup : (packets.map (·.name)).Nodup) (hp : p ∈ packets)
    (hkind : p.kind ≠ .reply) :
    entryOf (p.name, p.stubLines C (some reply)) ∈ stubEntries C packets ↔
      replyTo? packets p = some reply := by
  rw [stubEntries, List.mem_map]
  constructor
  · rintro ⟨q, hq, hentry⟩
    rw [entryOf, Entry.mk.injEq] at hentry
    obtain rfl := List.inj_on_of_nodup_map hnodup (mem_dispatched.mp hq).1 hp hentry.1
    exact unlines_stubLines_inj.mp hentry.2
  · intro hreply
    exact ⟨p, mem_dispatched.mpr ⟨hp, hkind⟩, by rw [hreply, entryOf]⟩

/-- **Valid packets in another order** make the same blocks in another order. -/
theorem orderOnly_of_perm (hvalid : (validate packets).isValid = true)
    (hperm : packets.Perm packets') : OrderOnly packets packets' := by
  have hnodup := nodup_names_of_isValid hvalid
  have hnodup' := (hperm.map (·.name)).nodup_iff.mp hnodup
  have hreply := replyTo?_perm hnodup hperm
  constructor
  case contents => exact fun C a => contentOf_eq_assemble hnodup a
  case contents' =>
    intro C a
    rw [contentOf_eq_assemble hnodup' a]
    simp only [handlersOf, hreply]
  case blocks =>
    intro C a p _
    rw [hreply]
  case replies =>
    intro C p hp hkind reply
    rw [mem_stubEntries_iff hnodup' hp hkind, hreply, replyTo?_eq_some_iff hnodup]

/-- The packets of `Packetry.pingPong` the other way round: the reply comes before the packet that
it answers, and is sent by the handler of that packet. -/
theorem orderOnly_of_perm_pingPong : (validate pingPong).isValid = true ∧
    pingPong.Perm pingPong.reverse ∧ OrderOnly pingPong pingPong.reverse ∧
    pingPong.reverse.map (·.name) = ["PACKET_ID", "Pong", "Ping"] ∧
    entryOf ("Ping", ["void Player::OnPing(const Ping& packet)", "\x7b", "\tPong reply;",
      "\tSendPacket(reply);", "\x7d", ""]) ∈ stubEntries "Player" pingPong.reverse := by
  have hvalid : (validate pingPong).isValid = true := by decide
  have hperm : pingPong.Perm pingPong.reverse := pingPong.reverse_perm.symm
  have horder := orderOnly_of_perm hvalid hperm
  have hreply : replyName? "Ping" = some "Pong" := by decide
  refine ⟨hvalid, hperm, horder, rfl, ?_⟩
  exact (horder.replies "Player" ⟨.request, "Ping", none, none⟩ (by simp [pingPong]) (by decide)
    "Pong").mpr ⟨hreply, _, List.mem_cons_of_mem _ List.mem_cons_self, rfl, rfl⟩

end Packetry
