/-!
# Lines

A text is cut into lines behind each line feed, so that a line keeps its end and the lines
put together are the text again (`Packetry.Text.flatten_lines`). Inside this library a line
ends with a single line feed; `Packetry.Text.toLineFeeds` and `Packetry.Text.toPairs` change
from and to the other convention, in which a line ends with a carriage return and a line
feed.
-/

namespace Packetry.Text

/-- The lines of a text, each with the line feed that ends it. The last line may lack one,
but no line is empty. -/
def lines : List Char → List (List Char)
  | [] => []
  | c :: rest =>
    if c = '\n' then ['\n'] :: lines rest
    else
      match lines rest with
      | [] => [[c]]
      | line :: more => (c :: line) :: more

/-- The lines of a text make up the text. -/
@[simp] theorem flatten_lines (s : List Char) : (lines s).flatten = s := by
  fun_induction lines s with
  | case1 => rfl
  | case2 rest ih => simp [ih]
  | case3 c rest _ h ih => simp_all
  | case4 c rest _ line more h ih => simp_all

/-- The parts of a text between the places where a character stands; there is one more of them
than there are such places. -/
def fields (separator : Char) : List Char → List (List Char)
  | [] => [[]]
  | c :: rest =>
    if c = separator then [] :: fields separator rest
    else
      match fields separator rest with
      | [] => [[c]]
      | field :: more => (c :: field) :: more

/-- The number of bytes of a text in UTF-8. -/
def byteCount : List Char → Nat
  | [] => 0
  | c :: rest => c.utf8Size + byteCount rest

/-- Bytes are counted part by part. -/
@[simp] theorem byteCount_append (s t : List Char) :
    byteCount (s ++ t) = byteCount s + byteCount t := by
  induction s with
  | nil => simp [byteCount]
  | cons c rest ih => simp [byteCount, ih, Nat.add_assoc]

/-! ### The two ends of lines -/

/-- Whether a carriage return stands before a line feed somewhere. -/
def hasPair : List Char → Bool
  | '\r' :: '\n' :: _ => true
  | _ :: rest => hasPair rest
  | [] => false

/-- The text with a line feed for every pair of carriage return and line feed. -/
def toLineFeeds : List Char → List Char
  | '\r' :: '\n' :: rest => '\n' :: toLineFeeds rest
  | c :: rest => c :: toLineFeeds rest
  | [] => []

/-- The text with a carriage return put before every line feed. -/
def toPairs : List Char → List Char
  | [] => []
  | c :: rest => if c = '\n' then '\r' :: '\n' :: toPairs rest else c :: toPairs rest

/-- A text without pairs has none to change. -/
theorem toLineFeeds_of_hasPair_eq_false {s : List Char} (h : hasPair s = false) :
    toLineFeeds s = s := by
  fun_induction hasPair s with
  | case1 => simp at h
  | case2 c rest hc ih =>
    rw [toLineFeeds]
    · rw [ih h]
    · exact hc
  | case3 => rfl

/-- Carriage returns are put part by part. -/
@[simp] theorem toPairs_append (s t : List Char) : toPairs (s ++ t) = toPairs s ++ toPairs t := by
  induction s with
  | nil => rfl
  | cons c s ih => by_cases h : c = '\n' <;> simp [toPairs, h, ih]

end Packetry.Text
