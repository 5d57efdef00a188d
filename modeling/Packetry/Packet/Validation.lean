import Packetry.Packet

/-!
# Validation

A list of packets is valid if at most one packet is unique, every kind is known, no two
packets share a name, and no packet declares a field twice. `Packetry.violations` walks
the list once and reports everything that breaks one of the four rules, in the order of
the packets; within a packet the kind comes first, then the name, then the fields.
-/

namespace Packetry

/-- One broken rule. Positions count from zero. -/
inductive Violation where
  /-- A second packet is unique. -/
  | duplicateUnique (first second : String)
  /-- The kind of a packet is not one of the three. -/
  | invalidKind (packet kind : String)
  /-- The name of a packet was used at an earlier position. -/
  | duplicatePacketName (name : String) (firstPosition position : Nat)
  /-- The name of a field was used before in the same packet. -/
  | duplicateFieldName (packet field : String)
  deriving DecidableEq, Repr

/-- The diagnostic of a violation; it counts positions from one. -/
def Violation.message : Violation → String
  | .duplicateUnique first second => s!"duplicated Unique type {first} and {second}"
  | .invalidKind packet kind =>
    s!"invalid packet type: PacketName {packet} / Type: {kind}"
  | .duplicatePacketName name firstPosition position =>
    s!"duplicate packet name: {name} (entries #{firstPosition + 1} and #{position + 1})"
  | .duplicateFieldName packet field => s!"{packet} : field {field} is duplicated"

/-- Everything that is wrong with a list of packets. -/
structure Report where
  /-- The broken rules, in the order in which the scan meets them. -/
  violations : List Violation
  deriving DecidableEq, Repr

/-- Whether nothing is wrong. -/
def Report.isValid (r : Report) : Bool :=
  r.violations.isEmpty

/-- One line for every violation. -/
def Report.diagnostics (r : Report) : List String :=
  r.violations.map (·.message)

/-- The number of violations, and each of them on a line of its own. -/
def Report.message (r : Report) : String :=
  s!"{r.violations.length} schema violation(s)" ++
    String.join (r.violations.map fun v => s!"\n  - {v.message}")

/-! ### The scan -/

/-- What the scan remembers of the packets behind it. -/
structure Seen where
  /-- The name of the first unique packet. -/
  firstUnique : Option String
  /-- The names, each with the position of the first packet that has it. -/
  names : List (String × Nat)

/-- Nothing is behind the start. -/
def Seen.empty : Seen := ⟨none, []⟩

/-- What the kind of a packet breaks. -/
def kindViolations (seen : Seen) (p : Packet) : List Violation :=
  match p.kind, seen.firstUnique with
  | .unique, some first => [.duplicateUnique first p.name]
  | .unknown text, _ => [.invalidKind p.name text]
  | _, _ => []

/-- What the name of a packet breaks. -/
def nameViolations (seen : Seen) (position : Nat) (p : Packet) : List Violation :=
  match seen.names.lookup p.name with
  | some first => [.duplicatePacketName p.name first position]
  | none => []

/-- The names of a list that occur before in it or in an earlier list. -/
def repeatedNames (earlier : List String) : List String → List String
  | [] => []
  | name :: rest =>
    if name ∈ earlier then name :: repeatedNames earlier rest
    else repeatedNames (name :: earlier) rest

/-- What the fields of a packet break. -/
def fieldViolations (p : Packet) : List Violation :=
  (repeatedNames [] p.fieldNames).map (.duplicateFieldName p.name ·)

/-- What the scan remembers after one more packet. -/
def Seen.add (seen : Seen) (position : Nat) (p : Packet) : Seen where
  firstUnique := seen.firstUnique <|> if p.kind = .unique then some p.name else none
  names := if (seen.names.lookup p.name).isSome then seen.names
    else (p.name, position) :: seen.names

/-- The violations of the packets from a position on. -/
def violationsFrom (seen : Seen) (position : Nat) : List Packet → List Violation
  | [] => []
  | p :: rest =>
    kindViolations seen p ++ nameViolations seen position p ++ fieldViolations p ++
      violationsFrom (seen.add position p) (position + 1) rest

/-- Every violation of a list of packets. -/
def violations (packets : List Packet) : List Violation :=
  violationsFrom .empty 0 packets

/-- The report on a list of packets. -/
def validate (packets : List Packet) : Report :=
  ⟨violations packets⟩

end Packetry
