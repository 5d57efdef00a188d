/-!
# Digests

The SHA-256 digest of a sequence of bytes (FIPS 180-4), written in lower case hexadecimal.
The message is padded to blocks of sixteen words, each block is expanded to sixty-four
words, and every word is one round on the eight words of the state.
-/

namespace Packetry.Digest

/-! ### Constants -/

/-- The round constants: the first 32 bits of the fractional parts of the cube roots of
the first sixty-four primes. -/
def roundConstants : List UInt32 := [
  0x428a2f98, 0x71374491, 0xb5c0fbcf, 0xe9b5dba5, 0x3956c25b, 0x59f111f1, 0x923f82a4,
  0xab1c5ed5, 0xd807aa98, 0x12835b01, 0x243185be, 0x550c7dc3, 0x72be5d74, 0x80deb1fe,
  0x9bdc06a7, 0xc19bf174, 0xe49b69c1, 0xefbe4786, 0x0fc19dc6, 0x240ca1cc, 0x2de92c6f,
  0x4a7484aa, 0x5cb0a9dc, 0x76f988da, 0x983e5152, 0xa831c66d, 0xb00327c8, 0xbf597fc7,
  0xc6e00bf3, 0xd5a79147, 0x06ca6351, 0x14292967, 0x27b70a85, 0x2e1b2138, 0x4d2c6dfc,
  0x53380d13, 0x650a7354, 0x766a0abb, 0x81c2c92e, 0x92722c85, 0xa2bfe8a1, 0xa81a664b,
  0xc24b8b70, 0xc76c51a3, 0xd192e819, 0xd6990624, 0xf40e3585, 0x106aa070, 0x19a4c116,
  0x1e376c08, 0x2748774c, 0x34b0bcb5, 0x391c0cb3, 0x4ed8aa4a, 0x5b9cca4f, 0x682e6ff3,
  0x748f82ee, 0x78a5636f, 0x84c87814, 0x8cc70208, 0x90befffa, 0xa4506ceb, 0xbef9a3f7,
  0xc67178f2]

/-- The eight words of the state. -/
structure State where
  /-- First word. -/
  a : UInt32
  /-- Second word. -/
  b : UInt32
  /-- Third word. -/
  c : UInt32
  /-- Fourth word. -/
  d : UInt32
  /-- Fifth word. -/
  e : UInt32
  /-- Sixth word. -/
  f : UInt32
  /-- Seventh word. -/
  g : UInt32
  /-- Eighth word. -/
  h : UInt32

/-- The state before the first block: the first 32 bits of the fractional parts of the
square roots of the first eight primes. -/
def State.initial : State :=
  ⟨0x6a09e667, 0xbb67ae85, 0x3c6ef372, 0xa54ff53a, 0x510e527f, 0x9b05688c, 0x1f83d9ab,
    0x5be0cd19⟩

/-! ### Padding and blocks -/

/-- The big-endian bytes of a number, in the given width. -/
def bigEndian : Nat → Nat → List UInt8
  | 0, _ => []
  | width + 1, n => UInt8.ofNat (n >>> (8 * width)) :: bigEndian width n

/-- The message, a one bit, as many zeros as bring the length to eight bytes below a block
boundary, and the length in bits. -/
def padded (message : List UInt8) : List UInt8 :=
  let n := message.length
  message ++ 0x80 :: List.replicate ((119 - n % 64) % 64) 0 ++ bigEndian 8 (8 * n)

/-- The words of a sequence of bytes, four bytes to a word, the first byte highest. -/
def words : List UInt8 → List UInt32
  | b₀ :: b₁ :: b₂ :: b₃ :: rest =>
    (b₀.toUInt32 <<< 24 ||| b₁.toUInt32 <<< 16 ||| b₂.toUInt32 <<< 8 ||| b₃.toUInt32) ::
      words rest
  | _ => []

/-- The words cut into blocks of sixteen; fewer than that at the end are no block. -/
def blocks (ws : List UInt32) : List (List UInt32) :=
  match h : ws.drop 15 with
  | [] => []
  | _ :: rest =>
    have : rest.length < ws.length := by
      have := congrArg List.length h
      simp only [List.length_drop, List.length_cons] at this
      omega
    ws.take 16 :: blocks rest
termination_by ws.length

/-! ### Rounds -/

/-- Rotation to the right. -/
def rotate (x : UInt32) (n : UInt32) : UInt32 :=
  x >>> n ||| x <<< (32 - n)

/-- The next word of the schedule, from the sixteen words before it. -/
def nextWord (w : Array UInt32) : UInt32 :=
  let n := w.size
  let w₂ := w.getD (n - 2) 0
  let w₁₅ := w.getD (n - 15) 0
  let s₀ := rotate w₁₅ 7 ^^^ rotate w₁₅ 18 ^^^ w₁₅ >>> 3
  let s₁ := rotate w₂ 17 ^^^ rotate w₂ 19 ^^^ w₂ >>> 10
  w.getD (n - 16) 0 + s₀ + w.getD (n - 7) 0 + s₁

/-- A block and as many further words of its schedule. -/
def schedule : Nat → Array UInt32 → Array UInt32
  | 0, w => w
  | n + 1, w => schedule n (w.push (nextWord w))

/-- One round with a round constant and a word of the schedule. -/
def State.round (s : State) (kw : UInt32 × UInt32) : State :=
  let s₁ := rotate s.e 6 ^^^ rotate s.e 11 ^^^ rotate s.e 25
  let ch := (s.e &&& s.f) ^^^ (~~~s.e &&& s.g)
  let t₁ := s.h + s₁ + ch + kw.1 + kw.2
  let s₀ := rotate s.a 2 ^^^ rotate s.a 13 ^^^ rotate s.a 22
  let maj := (s.a &&& s.b) ^^^ (s.a &&& s.c) ^^^ (s.b &&& s.c)
  ⟨t₁ + (s₀ + maj), s.a, s.b, s.c, s.d + t₁, s.e, s.f, s.g⟩

/-- The word-wise sum of two states. -/
def State.add (s t : State) : State :=
  ⟨s.a + t.a, s.b + t.b, s.c + t.c, s.d + t.d, s.e + t.e, s.f + t.f, s.g + t.g, s.h + t.h⟩

/-- The state after a block. -/
def State.absorb (s : State) (block : List UInt32) : State :=
  let w := (schedule 48 block.toArray).toList
  s.add ((roundConstants.zip w).foldl State.round s)

/-- The state after a message. -/
def State.ofMessage (message : List UInt8) : State :=
  (blocks (words (padded message))).foldl State.absorb .initial

/-! ### Hexadecimal text -/

/-- A hexadecimal digit in lower case. -/
def hexDigit (n : Nat) : Char :=
  if n < 10 then Char.ofNat ('0'.toNat + n) else Char.ofNat ('a'.toNat + (n - 10))

/-- The two hexadecimal digits of a byte. -/
def hexByte (b : UInt8) : List Char :=
  [hexDigit (b.toNat / 16), hexDigit (b.toNat % 16)]

/-- The bytes of a state. -/
def State.bytes (s : State) : List UInt8 :=
  [s.a, s.b, s.c, s.d, s.e, s.f, s.g, s.h].flatMap fun w => bigEndian 4 w.toNat

end Packetry.Digest

namespace Packetry

/-- The SHA-256 digest of a sequence of bytes, in lower case hexadecimal. -/
def digest (bytes : ByteArray) : String :=
  String.ofList ((Digest.State.ofMessage bytes.toList).bytes.flatMap Digest.hexByte)

end Packetry
