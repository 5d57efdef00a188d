import Packetry.Digest
import Packetry.Code.Block

/-!
# Digests in numbers

The digest is defined by words of 32 bits. Words are numbers, and so the same can be computed with
numbers (`Packetry.digest_eq`). This is how it is shown that two given texts have different digests,
since numbers are what can be computed with in a proof.

The two ways differ in the schedule of a block. Words are added to the end of an array there, and
are read from its end by their positions. Here they are added to the front of a list, so that the
words that are read are always at the same positions.

The operations on numbers are written as functions of `Nat`, not by operators. These functions are
built into the kernel, which would have to unfold the instances behind the operators. For the same
reason the words that are read are reached by `List.tail`, without a recursion on their positions.
-/

namespace Packetry

namespace Digest

/-! ### Rounds -/

/-- For the other functions on numbers that are used here, `simp` knows the operators. -/
theorem mod_eq (x n : Nat) : x.mod n = x % n :=
  rfl

/-- Rotation to the right of a word, as a number. -/
def rotated (x n : Nat) : Nat :=
  (x.shiftRight n).lor ((x.shiftLeft (Nat.sub 32 n)).mod UInt32.size)

theorem toNat_rotate (x n : UInt32) (hpos : 0 < n.toNat) (hlt : n.toNat < 32) :
    (rotate x n).toNat = rotated x.toNat n.toNat := by
  have hsub : (32 - n).toNat = 32 - n.toNat :=
    UInt32.toNat_sub_of_le _ _ (UInt32.le_iff_toNat_le.mpr (Nat.le_of_lt hlt))
  have hmod : (32 - n.toNat) % 32 = 32 - n.toNat := Nat.mod_eq_of_lt (by omega)
  rw [rotate, UInt32.toNat_or, UInt32.toNat_shiftRight, UInt32.toNat_shiftLeft, hsub,
    Nat.mod_eq_of_lt hlt, hmod, rotated]
  rfl

/-- A state whose words are numbers. -/
structure Numbers where
  /-- First word. -/
  a : Nat
  /-- Second word. -/
  b : Nat
  /-- Third word. -/
  c : Nat
  /-- Fourth word. -/
  d : Nat
  /-- Fifth word. -/
  e : Nat
  /-- Sixth word. -/
  f : Nat
  /-- Seventh word. -/
  g : Nat
  /-- Eighth word. -/
  h : Nat

/-- The words of a state as numbers. -/
def State.numbers (s : State) : Numbers :=
  ⟨s.a.toNat, s.b.toNat, s.c.toNat, s.d.toNat, s.e.toNat, s.f.toNat, s.g.toNat, s.h.toNat⟩

namespace Numbers

/-- One round. -/
def round (s : Numbers) (kw : Nat × Nat) : Numbers :=
  let s₁ := ((rotated s.e 6).xor (rotated s.e 11)).xor (rotated s.e 25)
  let ch := (s.e.land s.f).xor ((Nat.sub (UInt32.size.sub 1) s.e).land s.g)
  let t₁ := (((s.h.add s₁).add ch).add kw.1).add kw.2
  let s₀ := ((rotated s.a 2).xor (rotated s.a 13)).xor (rotated s.a 22)
  let maj := ((s.a.land s.b).xor (s.a.land s.c)).xor (s.b.land s.c)
  ⟨(t₁.add (s₀.add maj)).mod UInt32.size, s.a, s.b, s.c, (s.d.add t₁).mod UInt32.size, s.e, s.f,
    s.g⟩

/-- The sum of two states, word by word. -/
def add (s t : Numbers) : Numbers :=
  ⟨(s.a.add t.a).mod UInt32.size, (s.b.add t.b).mod UInt32.size, (s.c.add t.c).mod UInt32.size,
    (s.d.add t.d).mod UInt32.size, (s.e.add t.e).mod UInt32.size, (s.f.add t.f).mod UInt32.size,
    (s.g.add t.g).mod UInt32.size, (s.h.add t.h).mod UInt32.size⟩

end Numbers

theorem State.numbers_round (s : State) (kw : UInt32 × UInt32) :
    (s.round kw).numbers = s.numbers.round (kw.1.toNat, kw.2.toNat) := by
  have h₁ := toNat_rotate s.e 6 (by decide) (by decide)
  have h₂ := toNat_rotate s.e 11 (by decide) (by decide)
  have h₃ := toNat_rotate s.e 25 (by decide) (by decide)
  have h₄ := toNat_rotate s.a 2 (by decide) (by decide)
  have h₅ := toNat_rotate s.a 13 (by decide) (by decide)
  have h₆ := toNat_rotate s.a 22 (by decide) (by decide)
  simp only [State.round, State.numbers, Numbers.round, UInt32.toNat_add, UInt32.toNat_xor,
    UInt32.toNat_and, UInt32.toNat_not, h₁, h₂, h₃, h₄, h₅, h₆]
  simp [mod_eq]

theorem State.numbers_add (s t : State) : (s.add t).numbers = s.numbers.add t.numbers := by
  simp only [State.add, numbers, Numbers.add, UInt32.toNat_add]
  rfl

theorem State.numbers_foldl_round (kws : List (UInt32 × UInt32)) (s : State) :
    (kws.foldl round s).numbers =
      (kws.map fun kw => (kw.1.toNat, kw.2.toNat)).foldl Numbers.round s.numbers := by
  induction kws generalizing s with
  | nil => rfl
  | cons kw kws ih => rw [List.foldl_cons, ih, numbers_round, List.map_cons, List.foldl_cons]

/-! ### The schedule -/

/-- A word of the schedule, from the words that are 2, 7, 15 and 16 places before it. -/
def wordAfter (w₂ w₇ w₁₅ w₁₆ : Nat) : Nat :=
  let s₀ := ((rotated w₁₅ 7).xor (rotated w₁₅ 18)).xor (w₁₅.shiftRight 3)
  let s₁ := ((rotated w₂ 17).xor (rotated w₂ 19)).xor (w₂.shiftRight 10)
  (((w₁₆.add s₀).add w₇).add s₁).mod UInt32.size

/-- The next word of the schedule, from the words before it. The last one comes first. -/
def nextNumber (w : List Nat) : Nat :=
  let w₂ := w.tail
  let w₇ := w₂.tail.tail.tail.tail.tail
  let w₁₅ := w₇.tail.tail.tail.tail.tail.tail.tail.tail
  wordAfter (w₂.headD 0) (w₇.headD 0) (w₁₅.headD 0) (w₁₅.tail.headD 0)

theorem nextNumber_eq (w : List Nat) :
    nextNumber w = wordAfter (w.getD 1 0) (w.getD 6 0) (w.getD 14 0) (w.getD 15 0) := by
  simp only [nextNumber, ← List.drop_one, List.drop_drop, List.headD_eq_head?_getD, List.head?_drop,
    List.getD_eq_getElem?_getD]

/-- As many further words. -/
def expand : Nat → List Nat → List Nat
  | 0, w => w
  | n + 1, w => expand n (nextNumber w :: w)

/-- The words of an array as numbers, the last one first. -/
def latest (w : Array UInt32) : List Nat :=
  (w.toList.map (·.toNat)).reverse

theorem getD_latest {w : Array UInt32} {n : Nat} (h : n < w.size) :
    (latest w).getD n 0 = (w.getD (w.size - (n + 1)) 0).toNat := by
  have hlast : w.size - 1 - n = w.size - (n + 1) := by omega
  have hin : w.size - (n + 1) < w.size := by omega
  rw [latest, List.getD_eq_getElem?_getD, List.getElem?_reverse (by simpa using h), List.length_map,
    Array.length_toList, hlast, List.getElem?_map, Array.getElem?_toList,
    Array.getD_eq_getD_getElem?, Array.getElem?_eq_getElem hin]
  rfl

theorem toNat_nextWord {w : Array UInt32} (h : 16 ≤ w.size) :
    (nextWord w).toNat = nextNumber (latest w) := by
  have h₁ := fun x => toNat_rotate x 7 (by decide) (by decide)
  have h₂ := fun x => toNat_rotate x 18 (by decide) (by decide)
  have h₃ := fun x => toNat_rotate x 17 (by decide) (by decide)
  have h₄ := fun x => toNat_rotate x 19 (by decide) (by decide)
  rw [nextNumber_eq, getD_latest (by omega), getD_latest (by omega), getD_latest (by omega),
    getD_latest (by omega)]
  simp only [nextWord, UInt32.toNat_add, UInt32.toNat_xor, UInt32.toNat_shiftRight, h₁, h₂, h₃, h₄]
  simp [wordAfter, mod_eq]

theorem latest_push (w : Array UInt32) (x : UInt32) : latest (w.push x) = x.toNat :: latest w := by
  simp [latest]

theorem latest_schedule (n : Nat) {w : Array UInt32} (h : 16 ≤ w.size) :
    latest (schedule n w) = expand n (latest w) := by
  induction n generalizing w with
  | zero => rfl
  | succ n ih =>
    rw [schedule, ih (by rw [Array.size_push]; omega), latest_push, toNat_nextWord h, expand]

/-! ### Blocks -/

/-- The state after a block. -/
def Numbers.absorb (s : Numbers) (block : List Nat) : Numbers :=
  s.add (((roundConstants.map (·.toNat)).zip (expand 48 block.reverse).reverse).foldl round s)

theorem State.numbers_absorb (s : State) {block : List UInt32} (h : block.length = 16) :
    (s.absorb block).numbers = s.numbers.absorb (block.map (·.toNat)) := by
  have hschedule := latest_schedule 48 (w := block.toArray) (by simp [h])
  have hwords : (schedule 48 block.toArray).toList.map (·.toNat) =
      (expand 48 (block.map (·.toNat)).reverse).reverse := by
    rw [← List.reverse_eq_iff]
    exact hschedule
  rw [absorb, numbers_add, numbers_foldl_round, Numbers.absorb, ← hwords, List.zip_map]
  rfl

theorem length_of_mem_blocks {ws block : List UInt32} (h : block ∈ blocks ws) :
    block.length = 16 := by
  fun_induction blocks ws with
  | case1 => cases h
  | case2 ws word rest hdrop _ ih =>
    rcases List.mem_cons.mp h with rfl | h
    · have hlength := congrArg List.length hdrop
      rw [List.length_drop, List.length_cons] at hlength
      rw [List.length_take]
      omega
    · exact ih h

theorem State.numbers_foldl_absorb (bs : List (List UInt32)) (h : ∀ b ∈ bs, b.length = 16)
    (s : State) : (bs.foldl absorb s).numbers =
      (bs.map fun b => b.map (·.toNat)).foldl Numbers.absorb s.numbers := by
  induction bs generalizing s with
  | nil => rfl
  | cons b bs ih =>
    rw [List.foldl_cons, ih (fun b hb => h b (List.mem_cons_of_mem _ hb)),
      numbers_absorb s (h b List.mem_cons_self), List.map_cons, List.foldl_cons]

/-- The state after a message. -/
def Numbers.ofMessage (message : List UInt8) : Numbers :=
  ((blocks (words (padded message))).map fun b => b.map (·.toNat)).foldl absorb
    State.initial.numbers

theorem State.numbers_ofMessage (message : List UInt8) :
    (ofMessage message).numbers = Numbers.ofMessage message :=
  numbers_foldl_absorb _ (fun _ => length_of_mem_blocks) _

/-- The bytes of a state. -/
def Numbers.bytes (s : Numbers) : List UInt8 :=
  [s.a, s.b, s.c, s.d, s.e, s.f, s.g, s.h].flatMap (bigEndian 4)

/-- The digits of the digest of a message. -/
def Numbers.digits (message : List UInt8) : List Char :=
  (ofMessage message).bytes.flatMap hexByte

end Digest

open Digest

/-- The bytes of a text. -/
def bytesOf (text : String) : List UInt8 :=
  text.toUTF8.data.toList

theorem bytesOf_append (s t : String) : bytesOf (s ++ t) = bytesOf s ++ bytesOf t := by
  rw [bytesOf, String.toUTF8, String.toByteArray_append, ByteArray.data_append, Array.toList_append]
  rfl

theorem bytesOf_unlines (lines : List String) :
    bytesOf (unlines lines) = lines.flatMap fun s => bytesOf s ++ [10] := by
  have hfeed : bytesOf "\n" = [10] := by decide
  induction lines with
  | nil => rfl
  | cons s lines ih =>
    rw [unlines_cons, bytesOf_append, bytesOf_append, hfeed, ih, List.flatMap_cons]

theorem toList_loop_eq (bytes : ByteArray) (i : Nat) (read : List UInt8) :
    ByteArray.toList.loop bytes i read = read.reverse ++ bytes.data.toList.drop i := by
  fun_induction ByteArray.toList.loop bytes i read with
  | case1 i read h ih =>
    have hlength : i < bytes.data.toList.length := by simpa using h
    rw [ih, List.drop_eq_getElem_cons hlength]
    simp [ByteArray.get!, h]
  | case2 i read h =>
    rw [List.drop_eq_nil_of_le (by simpa using Nat.le_of_not_lt h), List.append_nil]

/-- **A digest can be computed with numbers.** -/
theorem digest_eq (text : String) :
    digest text.toUTF8 = String.ofList (Numbers.digits (bytesOf text)) := by
  have hbytes : text.toUTF8.toList = bytesOf text := by
    rw [ByteArray.toList, toList_loop_eq, bytesOf, List.reverse_nil, List.nil_append,
      List.drop_zero]
  rw [digest, Numbers.digits, ← hbytes, ← State.numbers_ofMessage]
  simp [State.bytes, State.numbers, Numbers.bytes, List.flatMap_cons]

theorem digest_eq_iff {s t : String} : digest s.toUTF8 = digest t.toUTF8 ↔
    Numbers.digits (bytesOf s) = Numbers.digits (bytesOf t) := by
  rw [digest_eq, digest_eq, String.ofList_inj]

/-- The digits of the digest of lines. -/
def digitsOf (lines : List String) : List Char :=
  Numbers.digits (lines.flatMap fun s => bytesOf s ++ [10])

theorem digest_unlines_eq_iff {lines lines' : List String} :
    digest (unlines lines).toUTF8 = digest (unlines lines').toUTF8 ↔
      digitsOf lines = digitsOf lines' := by
  rw [digest_eq_iff, bytesOf_unlines, bytesOf_unlines, digitsOf, digitsOf]

end Packetry
