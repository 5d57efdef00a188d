import Packetry.Yaml.Node
import Packetry.Yaml.Plain

/-!
# Values

The third layer of YAML: a document denotes a value. Aliases are replaced by what they stand
for, plain scalars by what they mean, and the keys of every mapping have to differ. A node
with a tag of the document's own is a tagged value; the tags of the language itself select a
meaning.

Collections may be nested in each other to a depth of `Packetry.Yaml.depthLimit`, aliases
included, and as an alias may stand for something that holds aliases, the number of aliases
that are followed is limited as well.
-/

namespace Packetry.Yaml

/-- Why a text does not denote a value. -/
inductive Fault where
  /-- The text breaks a rule of the language. -/
  | malformed
  /-- Another document follows the first one. -/
  | manyDocuments
  /-- Too many aliases were followed. -/
  | repetition
  deriving DecidableEq, Repr

/-- A value. -/
inductive Value where
  /-- Null. -/
  | null
  /-- A truth value. -/
  | truth (b : Bool)
  /-- An integer. -/
  | integer (n : Int)
  /-- A number of double precision. -/
  | double (d : Double)
  /-- A text. -/
  | text (s : String)
  /-- A sequence. -/
  | sequence (items : List Value)
  /-- A mapping, with keys that differ. -/
  | mapping (entries : List (Value × Value))
  /-- A value with a tag. -/
  | tagged (tag : String) (value : Value)

namespace Value

mutual

/-- Whether two values are equal. The order of the entries of a mapping does not count. -/
def same : Value → Value → Bool
  | null, null => true
  | truth a, truth b => a == b
  | integer m, integer n => m == n
  | double d, double e => d.same e
  | text s, text t => s == t
  | sequence a, sequence b => sameItems a b
  | mapping a, mapping b => a.length == b.length && sameEntries a b
  | tagged a v, tagged b w => a == b && same v w
  | _, _ => false

/-- Whether the items of two sequences are equal. -/
def sameItems : List Value → List Value → Bool
  | [], [] => true
  | v :: a, w :: b => same v w && sameItems a b
  | _, _ => false

/-- Whether all entries of a list are in another one. -/
def sameEntries : List (Value × Value) → List (Value × Value) → Bool
  | [], _ => true
  | (k, v) :: a, b => b.any (fun e => same k e.1 && same v e.2) && sameEntries a b

end

/-- The value under a text in a mapping. -/
def get? (entries : List (Value × Value)) (key : String) : Option Value :=
  (entries.find? fun e => match e.1 with
    | text s => s = key
    | _ => false).map (·.2)

end Value

/-! ### Denotation -/

/-- How deep collections may be nested. -/
def depthLimit : Nat := 128

/-- How many aliases may be followed for each mark of a document. -/
def aliasesPerMark : Nat := 100

/-- A computation that counts the aliases that were followed. -/
abbrev Counted := StateT Nat (Except Fault)

/-- The tag of a value that has a tag of the document's own. -/
def ownTag? (tag : Option String) : Option String := do
  match (← tag).toList with
  | ['!'] => some "!"
  | '!' :: rest => some (String.ofList rest)
  | _ => none

/-- What a plain scalar denotes. -/
def Meaning.value? : Meaning → Option Value
  | null => some .null
  | truth b => some (.truth b)
  | integer n => some (.integer n)
  | wide => none
  | double d => some (.double d)
  | text s => some (.text s)

/-- What a scalar without a tag of the document's own denotes. -/
def scalarValue? (tag : Option String) (plain : Bool) (s : String) : Option Value :=
  match tag with
  | some "tag:yaml.org,2002:bool" => (truth? s).map .truth
  | some "tag:yaml.org,2002:int" => (integer? s.toList).bind Meaning.value?
  | some "tag:yaml.org,2002:float" => (double? s.toList).map .double
  | some "tag:yaml.org,2002:null" => if isNull s then some .null else none
  | some _ => some (.text s)
  | none => if plain then (meaningOf s).value? else some (.text s)

/-- What a scalar denotes. -/
def scalar? (tag : Option String) (plain : Bool) (s : String) : Option Value :=
  match ownTag? tag with
  | some own => (scalarValue? none plain s).map (.tagged own)
  | none => scalarValue? tag plain s

/-- A value with the tag of its node, if that is one of the document's own. -/
def withTag (tag : Option String) (v : Value) : Value :=
  (ownTag? tag).elim v (.tagged · v)

/-- The node itself, or the one that it stands for. -/
def follow (targets : Targets) (limit : Nat) : Node → Counted Node
  | .alias anchor => do
    let followed := (← get) + 1
    if limit < followed then throw .repetition
    set followed
    match targets.lookup anchor with
    | some node => return node
    | none => throw .malformed
  | node => return node

/-- The entries of a mapping after one more, the key of which has to be new. -/
def addEntry (valueOf : Node → Counted Value) (done : List (Value × Value)) :
    Node × Node → Counted (List (Value × Value))
  | (key, value) => do
    let k ← valueOf key
    if done.any (·.1.same k) then throw .malformed
    return done ++ [(k, ← valueOf value)]

/-- The value of a node at which collections may be nested to some more depth. -/
def valueOf (targets : Targets) (limit : Nat) : Nat → Node → Counted Value
  | depth, node => do
    match ← follow targets limit node with
    | .alias _ => throw .malformed
    | .scalar p plain s =>
      match scalar? p.tag plain s with
      | some v => return v
      | none => throw .malformed
    | .sequence p items =>
      match depth with
      | 0 => throw .malformed
      | depth + 1 => return withTag p.tag (.sequence (← items.mapM (valueOf targets limit depth)))
    | .mapping p entries =>
      match depth with
      | 0 => throw .malformed
      | depth + 1 =>
        return withTag p.tag (.mapping (← entries.foldlM (addEntry (valueOf targets limit depth)) []))

/-- The value that a text denotes. An empty text denotes null. -/
def Value.ofText (text : String) : Except Fault Value :=
  match Document.ofText? text with
  | none => .error .malformed
  | some d => do
    let v ← match d.root with
      | none => .ok .null
      | some root =>
        let limit := aliasesPerMark * root.size
        (fun r => r.1) <$> (valueOf root.targets limit depthLimit root).run 0
    if d.isFollowed then .error .manyDocuments else .ok v

end Packetry.Yaml
