import Packetry.Proofs.Qualified

/-!
# The artifacts agree

The seven regions are generated one by one, from all packets or from some of them. That they fit
together (`Packetry.Agree`) is a matter of counting lines: for a packet of a valid schema there is
one class, one function that tells its enumerator and, if it is dispatched, one line for it in each
of the regions for dispatch.

Such a line tells the name of its packet, since no name has the character that the generator puts
behind it. So a line is there as often as the name is among those of the packets
(`Packetry.countP_dispatched`), and that is once. What is known of the names of packets carries
over to the other regions: a reply that a handler sends is the name of a packet, and so there is a
class.

* `Packetry.contents_agree`: the regions agree for every valid schema.
-/

namespace Packetry

variable {C : String} {all packets : List Packet} {p : Packet} {lines marks : List String}
  {M N a b s rest rest' : String} {form : String → String}

/-! ### Lines tell names -/

/-- Two texts are the same if a character that is in neither follows them. -/
theorem eq_of_separator {d : Char} (hM : d ∉ M.toList) (hN : d ∉ N.toList)
    (hrest : rest.toList.head? = some d) (hrest' : rest'.toList.head? = some d)
    (h : M ++ rest = N ++ rest') : M = N := by
  obtain ⟨x, hx⟩ := List.head?_eq_some_iff.mp hrest
  obtain ⟨y, hy⟩ := List.head?_eq_some_iff.mp hrest'
  have hlists := congrArg String.toList h
  rw [String.toList_append, String.toList_append, hx, hy] at hlists
  refine String.toList_inj.mp ?_
  rcases List.append_eq_append_iff.mp hlists with ⟨more, heq, htail⟩ | ⟨more, heq, htail⟩
  all_goals rcases more with _ | ⟨c, more⟩
  · simpa using heq.symm
  · rw [List.cons_append, List.cons.injEq] at htail
    exact absurd (by simp [heq, htail.1]) hN
  · simpa using heq
  · rw [List.cons_append, List.cons.injEq] at htail
    exact absurd (by simp [heq, htail.1]) hM

/-- A text that stands between two fixed ones. -/
theorem eq_of_between (h : a ++ M ++ b = a ++ N ++ b) : M = N :=
  (String.append_right_inj a).mp ((String.append_left_inj b).mp h)

theorem headingLine_injective : Function.Injective headingLine :=
  fun _ _ => eq_of_between

theorem identifierLine_injective : Function.Injective identifierLine :=
  fun _ _ => eq_of_between

/-! ### Counting -/

/-- The name of a packet is among those of the packets that are dispatched, unless it is a reply. -/
theorem count_dispatched (hnodup : (packets.map (·.name)).Nodup) (hp : p ∈ packets) :
    ((dispatched packets).map (·.name)).count p.name = if p.kind = .reply then 0 else 1 := by
  have hsub : ((dispatched packets).map (·.name)).Sublist (packets.map (·.name)) :=
    List.filter_sublist.map _
  by_cases hkind : p.kind = .reply
  · rw [if_pos hkind, List.count_eq_zero]
    intro hmem
    obtain ⟨q, hq, heq⟩ := List.mem_map.mp hmem
    obtain ⟨hq, hdispatched⟩ := mem_dispatched.mp hq
    obtain rfl := List.inj_on_of_nodup_map hnodup hq hp heq
    exact hdispatched hkind
  · rw [if_neg hkind]
    refine List.count_eq_one_of_mem (hnodup.sublist hsub) (List.mem_map_of_mem ?_)
    exact mem_dispatched.mpr ⟨hp, hkind⟩

/-- A line that is picked is there as often as among the lines that are picked. -/
theorem count_of_filter {P : String → Bool} (h : lines.filter P = marks) (hs : P s = true) :
    lines.count s = marks.count s := by
  rw [← h, List.count_filter hs]

/-- Some lines are among others, each of them once, and in the same order. -/
def OnceInOrder (marks lines : List String) : Prop :=
  lines.filter (· ∈ marks) = marks ∧ ∀ mark ∈ marks, lines.count mark = 1

theorem onceInOrder_of_filter {P : String → Bool} (h : lines.filter P = marks)
    (hnodup : marks.Nodup) : OnceInOrder marks lines := by
  have hmem : ∀ s ∈ lines, decide (s ∈ marks) = P s := by
    intro s hs
    rw [← h, Bool.eq_iff_iff, decide_eq_true_eq, List.mem_filter]
    exact and_iff_right hs
  refine ⟨(List.filter_congr hmem).trans h, fun mark hmark => ?_⟩
  have hpicked : P mark = true := (List.mem_filter.mp (h ▸ hmark)).2
  rw [count_of_filter h hpicked]
  exact List.count_eq_one_of_mem hnodup hmark

/-- Lines that tell different names are different. -/
theorem nodup_map_form (hnodup : (packets.map (·.name)).Nodup)
    (hform : Function.Injective form) : (packets.map (form ·.name)).Nodup := by
  have hnames := hnodup.map hform
  rwa [List.map_map] at hnames

/-! ### The block of a class -/

/-- The lines of a class: those behind its heading, up to the end. -/
def classBlock (name : String) (lines : List String) : List String :=
  (lines.dropWhile (· ≠ headingLine name)).tail.takeWhile (· ≠ endLine)

/-- The class of a packet is found behind those of the packets before it. -/
theorem classBlock_codeOf (hnodup : (packets.map (·.name)).Nodup) (hp : p ∈ packets) :
    classBlock p.name (codeOf C all packets .protocolHeader) = p.innerLines := by
  obtain ⟨s₁, s₂, rfl⟩ := List.append_of_mem hp
  -- No class before this one has its heading, and none of its lines is an end.
  have hbefore : ∀ s ∈ codeOf C all s₁ .protocolHeader, decide (s ≠ headingLine p.name) = true := by
    intro s hs
    rw [decide_eq_true_eq]
    rintro rfl
    have hmem : headingLine p.name ∈ s₁.map (headingLine ·.name) := by
      rw [← headings_eq]
      exact List.mem_filter.mpr ⟨hs, decide_eq_true (first?_headingLine _)⟩
    obtain ⟨q, hq, heq⟩ := List.mem_map.mp hmem
    rw [List.map_append, List.map_cons] at hnodup
    exact (List.nodup_append.mp hnodup).2.2 q.name (List.mem_map_of_mem hq) p.name
      List.mem_cons_self (headingLine_injective heq)
  have hinner : ∀ s ∈ p.innerLines, decide (s ≠ endLine) = true := by
    intro s hs
    rw [decide_eq_true_eq]
    rintro rfl
    exact absurd (p.first?_innerLines _ hs) (by decide)
  have hcode : codeOf C all (s₁ ++ p :: s₂) .protocolHeader = codeOf C all s₁ .protocolHeader ++
      headingLine p.name :: (p.innerLines ++ endLine :: "" :: codeOf C all s₂ .protocolHeader) := by
    rw [codeOf, List.flatMap_append, List.flatMap_cons, Packet.block, p.classLines_eq]
    simp [codeOf]
  rw [classBlock, hcode, List.dropWhile_append_of_pos hbefore,
    List.dropWhile_cons_of_neg (by simp), List.tail_cons, List.takeWhile_append_of_pos hinner,
    List.takeWhile_cons_of_neg (by simp), List.append_nil]

/-- The declaration of a function that carries the members over a buffer. -/
def bufferDeclaration (method : String) : String :=
  s!"\tvirtual void {method}(NetBuffer& buffer) override;"

/-- The functions that carry the members over a buffer. -/
def bufferMethods : List String :=
  ["BufferToPacket", "PacketToBuffer"]

/-- They are declared in a class if there are members, if only an empty list of them. -/
theorem bufferDeclaration_mem_iff {method : String} (hmethod : method ∈ bufferMethods) :
    bufferDeclaration method ∈ p.innerLines ↔ p.fields.isSome = true := by
  cases hfields : p.fields with
  | some fields =>
    have hmembers : bufferDeclaration method ∈ Packet.memberLines [] := by
      revert method
      decide
    refine iff_of_true (List.mem_append_right _ ?_) rfl
    rw [hfields]
    exact List.mem_append_left _ hmembers
  | none =>
    -- What is left are the lines that every class has, and two of them hold the name.
    refine iff_of_false (fun hmem => ?_) Bool.false_ne_true
    have hends : ∀ method ∈ bufferMethods,
        (∀ ending ∈ ["() = default;", "() override = default;"],
          ¬ending.toList <:+ (bufferDeclaration method).toList) ∧
        bufferDeclaration method ∉ ["\x7b", "public:", "",
          "\tvirtual PacketId GetPacketId() const override;"] := by
      decide
    obtain ⟨hdefault, hfixed⟩ := hends method hmethod
    have hdefaults : ∀ ending ∈ ["() = default;", "() override = default;"], ∀ front : String,
        bufferDeclaration method ≠ front ++ ending := by
      intro ending hending front heq
      have hsuffix := hdefault ending hending
      rw [heq, String.toList_append] at hsuffix
      exact hsuffix (List.suffix_append _ _)
    simp only [Packet.innerLines, hfields, Option.map_none, Option.getD_none, List.append_nil,
      List.mem_cons, List.not_mem_nil, or_false] at hmem
    rcases hmem with heq | heq | heq | heq | heq | heq | heq
    · exact hfixed (by simp [heq])
    · exact hfixed (by simp [heq])
    · exact hdefaults "() = default;" (by simp) _ heq
    · exact hdefaults "() override = default;" (by simp) _ heq
    · exact hfixed (by simp [heq])
    · exact hfixed (by simp [heq])
    · exact hfixed (by simp [heq])

/-! ### Functions -/

/-- The form of a signature of a function that carries the members over a buffer. -/
theorem bufferLine_eq (name method : String) :
    bufferLine name method = "void " ++ name ++ ("::" ++ method ++ "(NetBuffer& buffer)") := by
  simp only [bufferLine, toString, String.append_assoc]

theorem bufferForm_mem {method : String} (hmethod : method ∈ bufferMethods) :
    ("void ", "::" ++ method ++ "(NetBuffer& buffer)") ∈ Packet.signatureForms := by
  revert method
  decide

/-- A packet has these functions if it has members, if only an empty list of them. -/
theorem bufferLine_mem_methods {method : String} (hmethod : method ∈ bufferMethods) :
    bufferLine p.name method ∈ p.methods.map (·.signature) ↔ p.fields.isSome = true := by
  rw [Packet.methods, List.map_cons, List.mem_cons]
  have hother : bufferLine p.name method ≠ p.identifierMethod.signature := by
    intro heq
    have hfirst : first? p.identifierMethod.signature = some 'P' :=
      first?_append (first?_append rfl p.name) _
    have hbuffer : first? (bufferLine p.name method) = some 'v' := by
      rw [bufferLine_eq]
      exact first?_append (first?_append rfl p.name) _
    rw [← heq, hbuffer] at hfirst
    exact absurd hfirst (by decide)
  rw [or_iff_right hother]
  by_cases h : p.hasFields = true
  · refine iff_of_true ?_ h
    rw [if_pos h]
    simp only [bufferMethods, List.mem_cons, List.not_mem_nil, or_false] at hmethod
    rcases hmethod with rfl | rfl
    · exact List.mem_cons_self
    · exact List.mem_cons_of_mem _ List.mem_cons_self
  · refine iff_of_false ?_ h
    rw [if_neg h]
    exact List.not_mem_nil

/-- No packet of another name has them. -/
theorem bufferLine_mem_signatures_iff {method : String} (hmethod : method ∈ bufferMethods) :
    bufferLine N method ∈ (packets.flatMap (·.methods)).map (·.signature) ↔
      ∃ p ∈ packets, p.name = N ∧ p.fields.isSome = true := by
  rw [List.map_flatMap, List.mem_flatMap]
  constructor
  · rintro ⟨p, hp, hmem⟩
    obtain ⟨form, hform, heq⟩ := List.mem_map.mp (p.signatures_sublist.subset hmem)
    rw [bufferLine_eq] at heq
    obtain rfl := (Packet.signatureForms_inj hform (bufferForm_mem hmethod) heq).2
    exact ⟨p, hp, rfl, (bufferLine_mem_methods hmethod).mp hmem⟩
  · rintro ⟨p, hp, rfl, hfields⟩
    exact ⟨p, hp, (bufferLine_mem_methods hmethod).mpr hfields⟩

theorem bufferLine_mem_iff {method : String} (hnodup : (packets.map (·.name)).Nodup)
    (hp : p ∈ packets) (hmethod : method ∈ bufferMethods) :
    bufferLine p.name method ∈ (packets.flatMap (·.methods)).map (·.signature) ↔
      p.fields.isSome = true := by
  rw [bufferLine_mem_signatures_iff hmethod]
  constructor
  · rintro ⟨q, hq, hname, hfields⟩
    obtain rfl := List.inj_on_of_nodup_map hnodup hq hp hname
    exact hfields
  · exact fun hfields => ⟨p, hp, rfl, hfields⟩

/-- They are defined once, if there are members. -/
theorem count_bufferLine {method : String} (hnodup : (packets.map (·.name)).Nodup)
    (hp : p ∈ packets) (hmethod : method ∈ bufferMethods) :
    (codeOf C all packets .protocolSource).count (bufferLine p.name method) =
      if p.fields.isSome then 1 else 0 := by
  have hfirst : first? (bufferLine p.name method) ∈ [some 'P', some 'v'] := by
    rw [bufferLine_eq, first?_append (first?_append rfl p.name) _]
    decide
  rw [count_of_filter signatures_eq (decide_eq_true hfirst), (nodup_signatures hnodup).count]
  exact if_congr (bufferLine_mem_iff hnodup hp hmethod) rfl rfl

/-! ### Handlers -/

/-- The registration of a packet for dispatch. -/
def registrationForm (name : String) : String :=
  s!"\t\tPacketHandlerUtil::RegisterPacket<{name}>();"

/-- The declaration of a handler. -/
def declarationForm (name : String) : String :=
  s!"\tvoid On{name}(const {name}& packet);"

/-- The beginning of the binding of a packet to its handler. -/
def bindingStart (C name : String) : String :=
  s!"\tRegisterPacketHandler<{C}, {name}>("

theorem registrationForm_injective : Function.Injective registrationForm :=
  fun _ _ => eq_of_between

/-- A name that stands before a parenthesis. -/
theorem eq_of_parenthesis (hM : IsName M) (hN : IsName N)
    (h : a ++ M ++ "(const " ++ M ++ b = a ++ N ++ "(const " ++ N ++ b) : M = N := by
  simp only [String.append_assoc] at h
  have hM' : '(' ∉ M.toList := hM.not_mem (by decide)
  have hN' : '(' ∉ N.toList := hN.not_mem (by decide)
  refine eq_of_separator hM' hN' ?_ ?_ ((String.append_right_inj a).mp h)
  all_goals
    rw [String.toList_append]
    rfl

theorem declarationForm_inj (hM : IsName M) (hN : IsName N)
    (h : declarationForm M = declarationForm N) : M = N :=
  eq_of_parenthesis hM hN h

theorem stubLine_inj (hM : IsName M) (hN : IsName N) (h : stubLine C M = stubLine C N) : M = N :=
  eq_of_parenthesis hM hN h

theorem bindingLine_eq (C : String) (q : Packet) : q.bindingLine C =
    bindingStart C q.name ++ (q.constant ++ (", " ++ s!"&{C}::On{q.name});")) := by
  have hline : q.bindingLine C =
      bindingStart C q.name ++ q.constant ++ ", " ++ s!"&{C}::On{q.name});" := rfl
  rw [hline, String.append_assoc, String.append_assoc]

/-- A binding tells the name of its packet at once. -/
theorem bindingStart_prefix_iff {q : Packet} (hp : IsName p.name) (hq : IsName q.name) :
    (bindingStart C p.name).toList <+: (q.bindingLine C).toList ↔ q.name = p.name := by
  rw [bindingLine_eq, String.toList_append]
  constructor
  · rintro ⟨more, hmore⟩
    have hstart : ∀ name, bindingStart C name = "\tRegisterPacketHandler<" ++ C ++ ", " ++ name ++
        ">(" := fun _ => rfl
    rw [← String.toList_ofList (l := more), ← String.toList_append, ← String.toList_append] at hmore
    have htexts := String.toList_inj.mp hmore
    simp only [hstart, String.append_assoc, String.append_right_inj] at htexts
    -- The name is over at the first `>`.
    have hq' : '>' ∉ q.name.toList := hq.not_mem (by decide)
    have hp' : '>' ∉ p.name.toList := hp.not_mem (by decide)
    refine (eq_of_separator hp' hq' ?_ ?_ htexts).symm
    all_goals
      rw [String.toList_append]
      rfl
  · intro heq
    rw [heq]
    exact List.prefix_append _ _

/-- Of the lines for the packets that are dispatched, one has a property if the property tells the
name of a packet. -/
theorem countP_dispatched {line : Packet → String} {P : String → Bool}
    (hnodup : (packets.map (·.name)).Nodup) (hp : p ∈ packets)
    (hP : ∀ q ∈ packets, P (line q) = true ↔ q.name = p.name) :
    ((dispatched packets).map line).countP P = if p.kind = .reply then 0 else 1 := by
  rw [← count_dispatched hnodup hp, List.countP_map, List.count, List.countP_map]
  refine List.countP_congr fun q hq => ?_
  simp only [Function.comp_apply, beq_iff_eq]
  exact hP q (mem_dispatched.mp hq).1

/-- A line for each packet that is dispatched is there once, if it tells the name of its packet. -/
theorem count_form_dispatched (hnodup : (packets.map (·.name)).Nodup) (hp : p ∈ packets)
    (hform : ∀ q ∈ packets, form q.name = form p.name → q.name = p.name) :
    ((dispatched packets).map (form ·.name)).count (form p.name) =
      if p.kind = .reply then 0 else 1 := by
  refine countP_dispatched hnodup hp fun q hq => ?_
  rw [beq_iff_eq]
  exact ⟨hform q hq, congrArg form⟩

theorem codeOf_sessionRegister :
    codeOf C all packets .sessionRegister = (dispatched packets).map (·.bindingLine C) :=
  (map_dispatched _).symm

section Dispatch

variable (hnodup : (packets.map (·.name)).Nodup) (hname : ∀ q ∈ packets, IsName q.name)
  (hp : p ∈ packets)

include hnodup hp

theorem count_registrationForm :
    (codeOf C all packets .packetRegister).count (registrationForm p.name) =
      if p.kind = .reply then 0 else 1 := by
  have hcode : codeOf C all packets .packetRegister =
      (dispatched packets).map (registrationForm ·.name) :=
    (map_dispatched _).symm
  rw [hcode]
  exact count_form_dispatched hnodup hp fun q _ heq => registrationForm_injective heq

include hname

theorem count_declarationForm :
    (codeOf C all packets .sessionHeader).count (declarationForm p.name) =
      if p.kind = .reply then 0 else 1 := by
  have hcode : codeOf C all packets .sessionHeader =
      (dispatched packets).map (declarationForm ·.name) :=
    (map_dispatched _).symm
  rw [hcode]
  exact count_form_dispatched hnodup hp fun q hq heq =>
    declarationForm_inj (hname q hq) (hname p hp) heq

theorem count_stubLine :
    (codeOf C all packets .sessionSource).count (stubLine C p.name) =
      if p.kind = .reply then 0 else 1 := by
  rw [count_of_filter stubs_eq (decide_eq_true (first?_stubLine C p.name))]
  exact count_form_dispatched hnodup hp fun q hq heq =>
    stubLine_inj (hname q hq) (hname p hp) heq

theorem countP_bindingStart :
    (codeOf C all packets .sessionRegister).countP
        (fun line => (bindingStart C p.name).toList <+: line.toList) =
      if p.kind = .reply then 0 else 1 := by
  rw [codeOf_sessionRegister]
  refine countP_dispatched hnodup hp fun q hq => ?_
  rw [decide_eq_true_eq]
  exact bindingStart_prefix_iff (hname p hp) (hname q hq)

theorem count_bindingLine :
    (codeOf C all packets .sessionRegister).count (p.bindingLine C) =
      if p.kind = .reply then 0 else 1 := by
  rw [codeOf_sessionRegister]
  refine countP_dispatched hnodup hp fun q hq => ?_
  rw [beq_iff_eq]
  constructor
  · intro heq
    refine (bindingStart_prefix_iff (C := C) (hname p hp) (hname q hq)).mp ?_
    rw [heq]
    exact (bindingStart_prefix_iff (hname p hp) (hname p hp)).mpr rfl
  · intro heq
    rw [List.inj_on_of_nodup_map hnodup hq hp heq]

end Dispatch

/-! ### Replies -/

/-- What is said to answer a packet is the name of a packet. -/
theorem exists_of_replyTo? {reply : String} (h : replyTo? packets p = some reply) :
    ∃ q ∈ packets, q.name = reply := by
  obtain ⟨-, q, hq, -⟩ := replyTo?_eq_some.mp h
  exact ⟨q, List.mem_of_find?_eq_some hq, by simpa using List.find?_some hq⟩

/-- **A class that a handler constructs** is that of a packet. -/
theorem exists_of_construction {reply : String}
    (h : s!"\t{reply} reply;" ∈ codeOf C packets packets .sessionSource) :
    ∃ q ∈ packets, q.name = reply := by
  rw [codeOf_sessionSource] at h
  obtain ⟨p, -, h⟩ := List.mem_flatMap.mp h
  -- A line of a handler that is indented belongs to its reply.
  have hfirst : first? s!"\t{reply} reply;" = some '\t' := first?_append (first?_append rfl _) _
  simp only [Packet.stubLines, List.mem_append, List.mem_cons, List.not_mem_nil, or_false] at h
  rcases h with ((h | h) | h) | h | h
  · rw [h] at hfirst
    exact absurd (hfirst.symm.trans (first?_stubLine C p.name)) (by decide)
  · rw [h] at hfirst
    exact absurd hfirst (by decide)
  · cases hreply : replyTo? packets p with
    | none =>
      rw [hreply] at h
      cases h
    | some other =>
      rw [hreply, Option.map_some, Option.getD_some, List.mem_cons, List.mem_singleton] at h
      rcases h with h | h
      · have hsame : reply = other := eq_of_between h
        rw [hsame]
        exact exists_of_replyTo? hreply
      · have hsuffix : " reply;".toList <:+ "\tSendPacket(reply);".toList := by
          rw [← h, String.toList_append]
          exact List.suffix_append _ _
        exact absurd hsuffix (by decide)
  · rw [h] at hfirst
    exact absurd hfirst (by decide)
  · rw [h] at hfirst
    exact absurd hfirst (by decide)

/-! ### Agreement -/

/-- What the regions have in common, as they are generated for a session class and some packets. -/
structure Agree (C : String) (packets : List Packet) : Prop where
  /-- The header has one class for each packet, in order. -/
  classes : OnceInOrder (packets.map (headingLine ·.name))
    (contentOf C packets .protocolHeader).lines
  /-- The source has one function that tells the enumerator for each packet, in order. -/
  identifiers : OnceInOrder (packets.map (identifierLine ·.name))
    (contentOf C packets .protocolSource).lines
  /-- It has the functions that carry the members over a buffer once for each packet that declares
  members, if only an empty list of them, and for these packets they are declared in the class. -/
  buffers : ∀ p ∈ packets, ∀ method ∈ bufferMethods,
    (contentOf C packets .protocolSource).lines.count (bufferLine p.name method) =
      (if p.fields.isSome then 1 else 0) ∧
    (bufferDeclaration method ∈ classBlock p.name (contentOf C packets .protocolHeader).lines ↔
      p.fields.isSome = true)
  /-- Constants are qualified enumerators, and enumerators are written in the enumeration. -/
  constants : ∀ a ∈ [Artifact.protocolSource, .sessionRegister],
    ∀ line ∈ (contentOf C packets a).lines, ∀ before after,
      line = before ++ "PACKET_ID::" ++ after →
        Qualified C packets (contentOf C packets .packetId).lines before after
  /-- A packet that is no reply is registered once, and its handler is declared, defined and bound
  once; no other line binds the packet. None of this is done for a reply. -/
  dispatch : ∀ p ∈ packets,
    (contentOf C packets .packetRegister).lines.count (registrationForm p.name) =
      (if p.kind = .reply then 0 else 1) ∧
    (contentOf C packets .sessionHeader).lines.count (declarationForm p.name) =
      (if p.kind = .reply then 0 else 1) ∧
    (contentOf C packets .sessionSource).lines.count (stubLine C p.name) =
      (if p.kind = .reply then 0 else 1) ∧
    (contentOf C packets .sessionRegister).lines.count (p.bindingLine C) =
      (if p.kind = .reply then 0 else 1) ∧
    (contentOf C packets .sessionRegister).lines.countP
        (fun line => (bindingStart C p.name).toList <+: line.toList) =
      if p.kind = .reply then 0 else 1
  /-- A class that a handler constructs is in the header. -/
  replies : ∀ reply, s!"\t{reply} reply;" ∈ (contentOf C packets .sessionSource).lines →
    headingLine reply ∈ (contentOf C packets .protocolHeader).lines

/-- **The artifacts agree** with each other, for valid packets and a session class with names. -/
theorem contents_agree (hvalid : (validate packets).isValid = true)
    (h : WellNamed C packets) : Agree C packets := by
  have hnodup := nodup_names_of_isValid hvalid
  have hlines := h.lines_eq hnodup
  -- The constants of the enumeration are known by the lines of their enumerators.
  have hids : ∀ p ∈ packets, p.enumeratorLine ∈ (contentOf C packets .packetId).lines := by
    intro p hp
    rw [hlines]
    exact List.mem_append_right _ (List.mem_flatMap.mpr ⟨p, hp, List.mem_singleton_self _⟩)
  constructor
  case classes =>
    rw [hlines]
    exact onceInOrder_of_filter headings_eq (nodup_map_form hnodup headingLine_injective)
  case identifiers =>
    rw [hlines]
    exact onceInOrder_of_filter identifiers_eq (nodup_map_form hnodup identifierLine_injective)
  case buffers =>
    intro p hp method hmethod
    rw [hlines, hlines]
    refine ⟨count_bufferLine hnodup hp hmethod, ?_⟩
    -- Another class may have the same function, so that only the class of the packet counts.
    have hblock : classBlock p.name (Artifact.protocolHeader.firstLines ++
        codeOf C packets packets .protocolHeader) = p.innerLines := classBlock_codeOf hnodup hp
    rw [hblock]
    exact bufferDeclaration_mem_iff hmethod
  case constants =>
    intro a ha line hline before after heq
    simp only [List.mem_cons, List.not_mem_nil, or_false] at ha
    rw [hlines] at hline
    rcases ha with rfl | rfl
    · obtain ⟨p, hp, hline⟩ := List.mem_flatMap.mp hline
      obtain ⟨m, hm, hline⟩ := List.mem_flatMap.mp hline
      exact qualified_methods hp (h.packet p hp) (h.field p hp) (hids p hp) hm hline heq
    · obtain ⟨p, hp, hline⟩ := List.mem_flatMap.mp hline
      obtain ⟨-, hline⟩ := List.mem_ite_nil_left.mp hline
      obtain rfl := List.mem_singleton.mp hline
      exact qualified_binding h.session (h.packet p hp) (hids p hp) heq
  case dispatch =>
    intro p hp
    rw [hlines, hlines, hlines, hlines]
    exact ⟨count_registrationForm hnodup hp, count_declarationForm hnodup h.packet hp,
      count_stubLine hnodup h.packet hp, count_bindingLine hnodup h.packet hp,
      countP_bindingStart hnodup h.packet hp⟩
  case replies =>
    intro reply hreply
    rw [hlines] at hreply ⊢
    obtain ⟨q, hq, rfl⟩ := exists_of_construction hreply
    exact List.mem_flatMap.mpr ⟨q, hq, List.mem_cons_self⟩

/-- A packet, its reply and one that declares no member at all. -/
def pingPong : List Packet :=
  [⟨.request, "Ping", none, none⟩, ⟨.reply, "Pong", none, some [⟨"std::vector<int>", "order"⟩]⟩,
    ⟨.unique, "PACKET_ID", none, some []⟩]

/-- These agree, though the name of one class is that of the enumeration. -/
theorem contents_agree_pingPong : (validate pingPong).isValid = true ∧
    WellNamed "Player" pingPong ∧ Agree "Player" pingPong := by
  have hvalid : (validate pingPong).isValid = true := by decide
  have hnamed : WellNamed "Player" pingPong :=
    ⟨by decide, by decide, by decide, by decide⟩
  exact ⟨hvalid, hnamed, contents_agree hvalid hnamed⟩

end Packetry
