/-!
# Bytes that are text

How far a sequence of bytes is text in UTF-8. A character is one to four bytes. The first
byte tells how many there are and what the second one may be, so that no character is
written longer than it has to be and no surrogate is written at all; the other bytes only
have to be continuations.
-/

namespace Packetry.Text

/-- Whether a byte continues a character. -/
def isContinuation (b : UInt8) : Bool :=
  0x80 ≤ b && b ≤ 0xBF

/-- What the first byte of a character tells about the others. -/
structure Lead where
  /-- The least second byte. -/
  low : UInt8
  /-- The greatest second byte. -/
  high : UInt8
  /-- How many bytes there are behind the second one. -/
  more : Nat

/-- What a byte tells if it starts a character of more than one byte. -/
def lead? (b : UInt8) : Option Lead :=
  if 0xC2 ≤ b && b ≤ 0xDF then some ⟨0x80, 0xBF, 0⟩
  else if b == 0xE0 then some ⟨0xA0, 0xBF, 1⟩
  else if b == 0xED then some ⟨0x80, 0x9F, 1⟩
  else if 0xE1 ≤ b && b ≤ 0xEF then some ⟨0x80, 0xBF, 1⟩
  else if b == 0xF0 then some ⟨0x90, 0xBF, 2⟩
  else if 0xF1 ≤ b && b ≤ 0xF3 then some ⟨0x80, 0xBF, 2⟩
  else if b == 0xF4 then some ⟨0x80, 0x8F, 2⟩
  else none

/-- Whether bytes start with some number of continuations. -/
def continues : Nat → List UInt8 → Bool
  | 0, _ => true
  | _ + 1, [] => false
  | n + 1, b :: rest => isContinuation b && continues n rest

/-- The number of bytes behind the first one of the character that bytes start with. -/
def tailLength? : List UInt8 → Option Nat
  | [] => none
  | b :: rest =>
    if b < 0x80 then some 0
    else
      match lead? b, rest with
      | some l, second :: rest =>
        if l.low ≤ second && second ≤ l.high && continues l.more rest then some (l.more + 1)
        else none
      | _, _ => none

/-- The number of bytes before the first one that is not part of a character, when the first
bytes, to a number, belong to a character that was met before. -/
def textLengthFrom : Nat → List UInt8 → Nat
  | _, [] => 0
  | tail + 1, _ :: rest => 1 + textLengthFrom tail rest
  | 0, b :: rest =>
    match tailLength? (b :: rest) with
    | some tail => 1 + textLengthFrom tail rest
    | none => 0

/-- The number of bytes before the first one that is not part of a character. -/
def textLength (bytes : List UInt8) : Nat :=
  textLengthFrom 0 bytes

end Packetry.Text
