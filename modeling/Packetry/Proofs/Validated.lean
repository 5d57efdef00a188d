import Packetry.Packet.Validation
import Mathlib.Data.List.Forall2
import Mathlib.Data.List.Nodup

/-!
# Valid packets

The scan (`Packetry.violationsFrom`) goes over the packets once, with a slot for the first unique
packet and a table of the names that it has met. What it reports about a packet is a matter of the
packet and of those before it, and can be said without a scan (`Packetry.brokenAt`): a second unique
packet is reported with the first one, and a name with the first position at which it stands.

The two are compared along the list. What the scan remembers is at every packet what a search among
the packets before it finds (`Packetry.Seen.Recalls`), and this is all that it asks for. So a list
is valid if and only if it keeps the four rules (`Packetry.KeepsRules`), none of which is about an
order.
-/

namespace Packetry

variable {packets earlier : List Packet} {seen : Seen}

/-! ### What is broken -/

/-- What is wrong with the kind of a packet that has others before it. -/
def brokenByKind (earlier : List Packet) (p : Packet) : List Violation :=
  match p.kind with
  | .unique =>
    (earlier.find? (·.kind = .unique)).toList.map fun first => .duplicateUnique first.name p.name
  | .unknown text => [.invalidKind p.name text]
  | _ => []

/-- What is wrong with the name of a packet that has others before it. -/
def brokenByName (earlier : List Packet) (p : Packet) : List Violation :=
  (earlier.findIdx? (·.name = p.name)).toList.map fun first =>
    .duplicatePacketName p.name first earlier.length

/-- What is wrong with the fields of a packet: each one that has its name from an earlier one. -/
def brokenByFields (p : Packet) : List Violation :=
  (p.fieldNames.zipIdx.filter fun field => field.1 ∈ p.fieldNames.take field.2).map fun field =>
    .duplicateFieldName p.name field.1

/-- What is wrong with the packet at a position. -/
def brokenAt (packets : List Packet) (position : Nat) (p : Packet) : List Violation :=
  brokenByKind (packets.take position) p ++ brokenByName (packets.take position) p ++
    brokenByFields p

/-- The rules for a list of packets. -/
structure KeepsRules (packets : List Packet) : Prop where
  /-- At most one packet is unique. -/
  unique : packets.countP (·.kind = .unique) ≤ 1
  /-- Every kind is known. -/
  known : ∀ p ∈ packets, ∀ text, p.kind ≠ .unknown text
  /-- No two packets share a name. -/
  names : (packets.map (·.name)).Nodup
  /-- No packet declares a field twice. -/
  fields : ∀ p ∈ packets, p.fieldNames.Nodup

/-! ### What the scan remembers -/

/-- What is remembered is what a search among the earlier packets finds. -/
structure Seen.Recalls (seen : Seen) (earlier : List Packet) : Prop where
  /-- The slot has the name of the first unique packet. -/
  firstUnique : seen.firstUnique = (earlier.find? (·.kind = .unique)).map (·.name)
  /-- The table has the first position of each name. -/
  names : ∀ name, seen.names.lookup name = earlier.findIdx? (·.name = name)

theorem Seen.recalls_empty : Seen.empty.Recalls [] :=
  ⟨rfl, fun _ => rfl⟩

/-- A name keeps its first position. -/
theorem Seen.lookup_names_add (seen : Seen) (position : Nat) (p : Packet) (name : String) :
    (seen.add position p).names.lookup name =
      (seen.names.lookup name).or (if p.name = name then some position else none) := by
  unfold add
  dsimp only
  split
  · rename_i hmet
    by_cases hname : p.name = name
    · subst hname
      obtain ⟨first, hfirst⟩ := Option.isSome_iff_exists.mp hmet
      rw [hfirst, Option.some_or]
    · rw [if_neg hname, Option.or_none]
  · rename_i hnew
    rw [List.lookup_cons]
    by_cases hname : p.name = name
    · subst hname
      have hnone : seen.names.lookup p.name = none := Option.not_isSome_iff_eq_none.mp hnew
      simp [hnone]
    · rw [beq_false_of_ne (Ne.symm hname), if_neg hname, Option.or_none]

/-- **One more packet is remembered**, if it is at the position behind the earlier ones. -/
theorem Seen.Recalls.add (h : seen.Recalls earlier) (p : Packet) :
    (seen.add earlier.length p).Recalls (earlier ++ [p]) where
  firstUnique := by
    have hadd : (seen.add earlier.length p).firstUnique =
        seen.firstUnique.or (if p.kind = .unique then some p.name else none) := by
      simp [Seen.add]
    rw [hadd, h.firstUnique, List.find?_append]
    by_cases hkind : p.kind = .unique <;> cases earlier.find? (·.kind = .unique) <;> simp [hkind]
  names name := by
    rw [lookup_names_add, h.names, List.findIdx?_append]
    by_cases hname : p.name = name <;> simp [List.findIdx?_cons, hname]

/-! ### What the scan reports -/

theorem kindViolations_eq (h : seen.Recalls earlier) (p : Packet) :
    kindViolations seen p = brokenByKind earlier p := by
  unfold kindViolations brokenByKind
  rw [h.firstUnique]
  cases p.kind with
  | unique => cases earlier.find? (·.kind = .unique) <;> rfl
  | request | reply | unknown text => simp

theorem nameViolations_eq (h : seen.Recalls earlier) (p : Packet) :
    nameViolations seen earlier.length p = brokenByName earlier p := by
  unfold nameViolations brokenByName
  rw [h.names]
  cases earlier.findIdx? (·.name = p.name) <;> rfl

/-- The names that are found to be repeated are those that stand before in the list. A name that was
met again is not remembered twice, so that the two earlier lists have the same members only. -/
theorem repeatedNames_eq {met before names : List String} (h : ∀ name, name ∈ met ↔ name ∈ before) :
    repeatedNames met names =
      ((names.zipIdx before.length).filter fun field =>
        field.1 ∈ (before ++ names).take field.2).map Prod.fst := by
  induction names generalizing met before with
  | nil => rfl
  | cons name names ih =>
    have hrest : before ++ name :: names = before ++ [name] ++ names := by simp
    have hlength : before.length + 1 = (before ++ [name]).length := by simp
    rw [repeatedNames, List.zipIdx_cons, List.filter_cons, List.take_left]
    by_cases hmet : name ∈ before
    · have hnext : ∀ other, other ∈ met ↔ other ∈ before ++ [name] := by
        intro other
        rw [h, List.mem_append, List.mem_singleton]
        exact ⟨Or.inl, fun hor => hor.elim id fun heq => heq ▸ hmet⟩
      rw [if_pos ((h name).mpr hmet), if_pos (by simpa using hmet), List.map_cons, hrest, hlength,
        ← ih hnext]
    · have hnext : ∀ other, other ∈ name :: met ↔ other ∈ before ++ [name] := by
        intro other
        rw [List.mem_cons, h, List.mem_append, List.mem_singleton, or_comm]
      rw [if_neg ((h name).not.mpr hmet), if_neg (by simpa using hmet), hrest, hlength, ← ih hnext]

theorem fieldViolations_eq (p : Packet) : fieldViolations p = brokenByFields p := by
  have hnone : ∀ name : String, name ∈ [] ↔ name ∈ ([] : List String) := fun _ => Iff.rfl
  rw [fieldViolations, repeatedNames_eq hnone, List.map_map]
  rfl

/-- **The scan reports what is broken**, packet by packet. -/
theorem violationsFrom_eq (h : seen.Recalls earlier) (rest : List Packet) :
    violationsFrom seen earlier.length rest =
      (rest.zipIdx earlier.length).flatMap fun x => brokenAt (earlier ++ rest) x.2 x.1 := by
  induction rest generalizing seen earlier with
  | nil => rfl
  | cons p rest ih =>
    -- The packet is one of the earlier ones for those behind it.
    have hrest := ih (h.add p)
    rw [List.length_append, List.length_singleton, List.append_assoc,
      List.singleton_append] at hrest
    rw [violationsFrom, hrest, List.zipIdx_cons, List.flatMap_cons, brokenAt, List.take_left,
      kindViolations_eq h, nameViolations_eq h, fieldViolations_eq]

theorem violations_eq (packets : List Packet) :
    violations packets = packets.zipIdx.flatMap fun x => brokenAt packets x.2 x.1 :=
  violationsFrom_eq Seen.recalls_empty packets

/-! ### The rules -/

/-- Every element is related to those before it. -/
theorem pairwise_iff_take {α : Type} {R : α → α → Prop} {l : List α} :
    l.Pairwise R ↔ ∀ x ∈ l.zipIdx, ∀ y ∈ l.take x.2, R y x.1 := by
  rw [List.pairwise_iff_getElem]
  constructor
  · intro h x hx y hy
    obtain ⟨hj, hget⟩ := List.getElem?_eq_some_iff.mp (List.mem_zipIdx_iff_getElem?.mp hx)
    obtain ⟨i, hi, rfl⟩ := List.mem_take_iff_getElem.mp hy
    exact hget ▸ h i x.2 (by omega) hj (by omega)
  · intro h i j hi hj hij
    refine h (l[j], j) (List.mem_zipIdx_iff_getElem?.mpr (List.getElem?_eq_getElem hj)) l[i] ?_
    exact List.mem_take_iff_getElem.mpr ⟨i, by omega, rfl⟩

/-- Every element has its place in the list. -/
theorem forall_zipIdx_iff {α : Type} {P : α → Prop} {l : List α} :
    (∀ x ∈ l.zipIdx, P x.1) ↔ ∀ a ∈ l, P a := by
  rw [← List.forall_mem_map, List.zipIdx_map_fst]

/-- At most one element has a property if no two elements have it. -/
theorem countP_le_one_iff {α : Type} {p : α → Bool} {l : List α} :
    l.countP p ≤ 1 ↔ l.Pairwise fun a b => p b = true → p a = false := by
  induction l with
  | nil => simp
  | cons a l ih =>
    rw [List.countP_cons, List.pairwise_cons, ← ih]
    cases ha : p a with
    | false => simp
    | true =>
      have hzero : l.countP p + 1 ≤ 1 ↔ ∀ b ∈ l, ¬ p b = true := by
        rw [← List.countP_eq_zero]
        omega
      rw [if_pos rfl, hzero]
      refine ⟨fun h => ⟨fun b hb hp => absurd hp (h b hb), ?_⟩, fun h b hb hp => ?_⟩
      · rw [List.countP_eq_zero.mpr h]
        exact Nat.zero_le 1
      · exact absurd (h.1 b hb hp) (by decide)

theorem brokenByKind_eq_nil_iff {p : Packet} : brokenByKind earlier p = [] ↔
    (∀ q ∈ earlier, p.kind = .unique → q.kind ≠ .unique) ∧ ∀ text, p.kind ≠ .unknown text := by
  unfold brokenByKind
  cases p.kind <;> simp [Option.toList_eq_nil_iff]

theorem brokenByName_eq_nil_iff {p : Packet} : brokenByName earlier p = [] ↔
    ∀ q ∈ earlier, q.name ≠ p.name := by
  simp [brokenByName]

theorem brokenByFields_eq_nil_iff {p : Packet} : brokenByFields p = [] ↔ p.fieldNames.Nodup := by
  rw [brokenByFields, List.map_eq_nil_iff, List.filter_eq_nil_iff, List.Nodup, pairwise_iff_take]
  refine forall₂_congr fun field _ => ?_
  simp only [decide_eq_true_eq]
  exact ⟨fun h name hname heq => h (heq ▸ hname), fun h hmem => h field.1 hmem rfl⟩

/-- The rules are kept if no packet breaks one with those before it. -/
theorem keepsRules_iff_brokenAt :
    KeepsRules packets ↔ ∀ x ∈ packets.zipIdx, brokenAt packets x.2 x.1 = [] := by
  have hunique : packets.countP (·.kind = .unique) ≤ 1 ↔ ∀ x ∈ packets.zipIdx,
      ∀ q ∈ packets.take x.2, x.1.kind = .unique → q.kind ≠ .unique := by
    rw [countP_le_one_iff, pairwise_iff_take]
    simp only [decide_eq_true_eq, decide_eq_false_iff_not, ne_eq]
  have hnames : (packets.map (·.name)).Nodup ↔ ∀ x ∈ packets.zipIdx,
      ∀ q ∈ packets.take x.2, q.name ≠ x.1.name := by
    rw [List.Nodup, List.pairwise_map, pairwise_iff_take]
  have hknown : (∀ p ∈ packets, ∀ text, p.kind ≠ .unknown text) ↔
      ∀ x ∈ packets.zipIdx, ∀ text, x.1.kind ≠ .unknown text := forall_zipIdx_iff.symm
  have hfields : (∀ p ∈ packets, p.fieldNames.Nodup) ↔
      ∀ x ∈ packets.zipIdx, x.1.fieldNames.Nodup := forall_zipIdx_iff.symm
  simp only [brokenAt, List.append_eq_nil_iff, brokenByKind_eq_nil_iff, brokenByName_eq_nil_iff,
    brokenByFields_eq_nil_iff]
  constructor
  · intro h x hx
    exact ⟨⟨⟨hunique.mp h.unique x hx, hknown.mp h.known x hx⟩, hnames.mp h.names x hx⟩,
      hfields.mp h.fields x hx⟩
  · intro h
    exact ⟨hunique.mpr fun x hx => (h x hx).1.1.1, hknown.mpr fun x hx => (h x hx).1.1.2,
      hnames.mpr fun x hx => (h x hx).1.2, hfields.mpr fun x hx => (h x hx).2⟩

/-- **A list of packets is valid if and only if it keeps the rules.** -/
theorem isValid_iff : (validate packets).isValid = true ↔ KeepsRules packets := by
  rw [Report.isValid, validate, List.isEmpty_iff, violations_eq, List.flatMap_eq_nil_iff,
    keepsRules_iff_brokenAt]

/-- No two valid packets share a name. -/
theorem nodup_names_of_isValid (h : (validate packets).isValid = true) :
    (packets.map (·.name)).Nodup :=
  (isValid_iff.mp h).names

/-! ### Other orders -/

/-- The same packet, but for the order of its fields. -/
structure Packet.Reordered (p q : Packet) : Prop where
  kind : q.kind = p.kind
  name : q.name = p.name
  description : q.description = p.description
  fields : Option.Rel List.Perm p.fields q.fields

theorem Packet.Reordered.fieldNames {p q : Packet} (h : p.Reordered q) :
    p.fieldNames.Perm q.fieldNames := by
  unfold Packet.fieldNames
  have hfields := h.fields
  generalize p.fields = fields at hfields ⊢
  generalize q.fields = fields' at hfields ⊢
  cases hfields with
  | some hperm => exact hperm.map _
  | none => exact .refl _

/-- All that the rules ask of a packet: its kind, its name, and whether its fields differ. -/
def Packet.ruled (p : Packet) : Kind × String × Bool :=
  (p.kind, p.name, decide p.fieldNames.Nodup)

theorem Packet.Reordered.ruled {p q : Packet} (h : p.Reordered q) : q.ruled = p.ruled := by
  rw [Packet.ruled, Packet.ruled, h.kind, h.name, decide_eq_decide.mpr h.fieldNames.nodup_iff]

/-- **The rules ask for no order.** -/
theorem KeepsRules.of_perm {packets' : List Packet} (h : KeepsRules packets)
    (hperm : (packets.map Packet.ruled).Perm (packets'.map Packet.ruled)) :
    KeepsRules packets' where
  unique := by
    have hcount := hperm.countP_eq fun x => decide (x.1 = .unique)
    rw [List.countP_map, List.countP_map] at hcount
    exact hcount ▸ h.unique
  known p hp := by
    obtain ⟨q, hq, hruled⟩ := List.mem_map.mp (hperm.mem_iff.mpr (List.mem_map_of_mem hp))
    have hkind : q.kind = p.kind := congrArg Prod.fst hruled
    exact hkind ▸ h.known q hq
  names := by
    have hnames := (hperm.map fun x => x.2.1).nodup_iff
    rw [List.map_map, List.map_map] at hnames
    exact hnames.mp h.names
  fields p hp := by
    obtain ⟨q, hq, hruled⟩ := List.mem_map.mp (hperm.mem_iff.mpr (List.mem_map_of_mem hp))
    have hfields : decide q.fieldNames.Nodup = decide p.fieldNames.Nodup :=
      congrArg (·.2.2) hruled
    exact (decide_eq_decide.mp hfields).mp (h.fields q hq)

theorem map_ruled_of_reordered {packets' : List Packet}
    (h : List.Forall₂ Packet.Reordered packets packets') :
    packets'.map Packet.ruled = packets.map Packet.ruled := by
  induction h with
  | nil => rfl
  | cons hp _ ih => rw [List.map_cons, List.map_cons, hp.ruled, ih]

/-- **The report on a list of packets is exact.** Packet by packet, it has a second unique packet
with the first one, a kind that is not known, a name that was used before with the first position
at which it was, and every field that was declared before. So a list is valid if and only if it
keeps the four rules, in whatever order its packets and their fields are. -/
theorem validate_exact (packets : List Packet) :
    (validate packets).violations =
      (packets.zipIdx.flatMap fun x => brokenAt packets x.2 x.1) ∧
    ((validate packets).isValid = true ↔ KeepsRules packets) ∧
    ∀ packets' packets'', packets.Perm packets' →
      List.Forall₂ Packet.Reordered packets' packets'' →
      (validate packets'').isValid = (validate packets).isValid := by
  refine ⟨violations_eq packets, isValid_iff, fun packets' packets'' hperm hfields => ?_⟩
  have hruled : (packets.map Packet.ruled).Perm (packets''.map Packet.ruled) :=
    map_ruled_of_reordered hfields ▸ hperm.map _
  rw [Bool.eq_iff_iff, isValid_iff, isValid_iff]
  exact ⟨fun h => h.of_perm hruled.symm, fun h => h.of_perm hruled⟩

/-- Names, unique packets and fields that occur three times, and a valid list in another order. -/
theorem validate_exact_repeats :
    let a : Packet := ⟨.unique, "A", none, some [⟨"int", "x"⟩, ⟨"int", "y"⟩]⟩
    let b : Packet := ⟨.unknown "?", "B", none, some [⟨"int", "x"⟩, ⟨"char", "x"⟩, ⟨"bool", "x"⟩]⟩
    let c : Packet := ⟨.reply, "C", some "c", none⟩
    let packets := [a, b, a, c, a]
    let reported : List Violation := [.invalidKind "B" "?", .duplicateFieldName "B" "x",
      .duplicateFieldName "B" "x", .duplicateUnique "A" "A", .duplicatePacketName "A" 0 2,
      .duplicateUnique "A" "A", .duplicatePacketName "A" 0 4]
    let a' : Packet := ⟨.unique, "A", none, some [⟨"int", "y"⟩, ⟨"int", "x"⟩]⟩
    ((validate packets).violations = reported ∧
      (packets.zipIdx.flatMap fun x => brokenAt packets x.2 x.1) = reported) ∧
    KeepsRules [a, c] ∧ (validate [c, a']).isValid = true := by
  intro a b c packets reported a'
  have hreported : (validate packets).violations = reported := by decide
  have hvalid : (validate [a, c]).isValid = true := by decide
  have hperm : [a, c].Perm [c, a] := .swap c a []
  have hfields : List.Forall₂ Packet.Reordered [c, a] [c, a'] :=
    .cons ⟨rfl, rfl, rfl, .none⟩ (.cons ⟨rfl, rfl, rfl, .some (.swap _ _ [])⟩ .nil)
  obtain ⟨-, hiff, horder⟩ := validate_exact [a, c]
  exact ⟨⟨hreported, (validate_exact packets).1.symm.trans hreported⟩, hiff.mp hvalid,
    (horder [c, a] [c, a'] hperm hfields).trans hvalid⟩

end Packetry
