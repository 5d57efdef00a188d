/-!
# White space

The characters with the Unicode property *White_Space*: the five ASCII controls from the
tabulator to the carriage return, the space, and nineteen others. `Packetry.Text.trim` takes
them off both ends of a text.
-/

namespace Packetry.Text

/-- Whether the character is white space. -/
def isBlank (c : Char) : Bool :=
  let n := c.toNat
  (9 ≤ n && n ≤ 13) || n == 0x20 || n == 0x85 || n == 0xA0 || n == 0x1680 ||
    (0x2000 ≤ n && n ≤ 0x200A) || n == 0x2028 || n == 0x2029 || n == 0x202F ||
    n == 0x205F || n == 0x3000

/-- The text without the white space at its end. -/
def trimEnd (s : List Char) : List Char :=
  (s.reverse.dropWhile isBlank).reverse

/-- The text without the white space at its two ends. -/
def trim (s : List Char) : List Char :=
  trimEnd (s.dropWhile isBlank)

end Packetry.Text
