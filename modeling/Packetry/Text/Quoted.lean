import Packetry.Text.Hidden

/-!
# Quoted texts

A text is shown in a message between double quotes. The quote and the backslash have a
backslash before them, some controls have a letter of their own, and every other character
that does not show is named by its code point.
-/

namespace Packetry.Text

/-- A character as it stands between the quotes. -/
def quotedChar (c : Char) : List Char :=
  match c with
  | '\x00' => ['\x5c', '0']
  | '\t' => ['\x5c', 't']
  | '\n' => ['\x5c', 'n']
  | '\r' => ['\x5c', 'r']
  | '\x22' => ['\x5c', '\x22']
  | '\x5c' => ['\x5c', '\x5c']
  | _ =>
    if isHidden c then ['\x5c', 'u', '\x7b'] ++ Nat.toDigits 16 c.toNat ++ ['\x7d'] else [c]

/-- A text between quotes. -/
def quoted (s : String) : String :=
  String.ofList (['\x22'] ++ s.toList.flatMap quotedChar ++ ['\x22'])

end Packetry.Text
