/-!
# JSON

Values in JSON and how they are printed: every entry on a line of its own, two spaces further
to the right than what it is an entry of.
-/

namespace Packetry

/-- A value in JSON. -/
inductive Json where
  /-- A truth value. -/
  | truth (b : Bool)
  /-- A natural number. -/
  | number (n : Nat)
  /-- A text. -/
  | text (s : String)
  /-- A list. -/
  | list (items : List Json)
  /-- A record; its entries stay in order. -/
  | record (entries : List (String × Json))

namespace Json

/-- A hexadecimal number with two digits at least. -/
def twoDigits (n : Nat) : List Char :=
  (if n < 16 then ['0'] else []) ++ Nat.toDigits 16 n

/-- A character as it stands between quotes. -/
def quotedChar (c : Char) : List Char :=
  match c with
  | '\x22' => ['\x5c', '\x22']
  | '\x5c' => ['\x5c', '\x5c']
  | '\x08' => ['\x5c', 'b']
  | '\t' => ['\x5c', 't']
  | '\n' => ['\x5c', 'n']
  | '\x0c' => ['\x5c', 'f']
  | '\r' => ['\x5c', 'r']
  | _ => if c.toNat < 0x20 then ['\x5c', 'u', '0', '0'] ++ twoDigits c.toNat else [c]

/-- A text between quotes. -/
def quoted (s : String) : String :=
  String.ofList (['\x22'] ++ s.toList.flatMap quotedChar ++ ['\x22'])

/-- The space before what stands at a depth. -/
def indentation (depth : Nat) : String :=
  String.ofList (List.replicate (2 * depth) ' ')

/-- What ends an entry, which is the last one or not. -/
def entryEnd {α : Type} (rest : List α) : String :=
  if rest.isEmpty then "\n" else ",\n"

mutual

/-- A value at a depth. -/
def printAt (depth : Nat) : Json → String
  | truth b => if b then "true" else "false"
  | number n => toString n
  | text s => quoted s
  | list [] => "[]"
  | list items => "[\n" ++ printItems (depth + 1) items ++ indentation depth ++ "]"
  | record [] => "\x7b\x7d"
  | record entries =>
    "\x7b\n" ++ printEntries (depth + 1) entries ++ indentation depth ++ "\x7d"

/-- The items of a list at a depth. -/
def printItems (depth : Nat) : List Json → String
  | [] => ""
  | v :: rest => indentation depth ++ printAt depth v ++ entryEnd rest ++ printItems depth rest

/-- The entries of a record at a depth. -/
def printEntries (depth : Nat) : List (String × Json) → String
  | [] => ""
  | (key, v) :: rest =>
    indentation depth ++ quoted key ++ ": " ++ printAt depth v ++ entryEnd rest ++
      printEntries depth rest

end

/-- The text of a value. -/
def print (v : Json) : String :=
  v.printAt 0

end Json

end Packetry
