import Packetry.Packet
import Packetry.Text.LetterCase

/-!
# Enumerators of packets

Every packet has an enumerator: its name in upper case, with the words set apart by
underscores. A word begins at an upper case letter that either opens a capitalised word,
that is, stands before a lower case letter, or follows a lower case letter or a digit. No
separator is put after an underscore that is already there. So `TestPacketReq` becomes
`TEST_PACKET_REQ`, `HTTPServer` becomes `HTTP_SERVER` and `Packet2` becomes `PACKET2`.
-/

namespace Packetry

open Text

/-- Whether a word begins at `c`, between the character before it and the text after it. -/
def beginsWord (before : Char) (c : Char) (after : List Char) : Bool :=
  isUpper c && before != '_' &&
    (after.head?.any isLower || isLower before || before.isDigit)

/-- The upper case form of a text that stands after a character. -/
def upperSnakeAfter (before : Char) : List Char → List Char
  | [] => []
  | c :: rest =>
    (if beginsWord before c rest then ['_'] else []) ++ upperForm c ++ upperSnakeAfter c rest

/-- A text in upper case, its words set apart by underscores. -/
def upperSnake : List Char → List Char
  | [] => []
  | c :: rest => upperForm c ++ upperSnakeAfter c rest

/-- The enumerator of a packet of that name. -/
def enumeratorOf (name : String) : String :=
  String.ofList (upperSnake name.toList)

/-- The enumerator of a packet. -/
def Packet.enumerator (p : Packet) : String :=
  enumeratorOf p.name

end Packetry
