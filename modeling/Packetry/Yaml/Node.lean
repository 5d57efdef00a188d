import Packetry.Yaml.Token

/-!
# Nodes

The second layer of YAML: the tokens of a document become a tree of nodes. A node is a
scalar, a sequence, a mapping, or an *alias*, which stands for a node that carries an anchor.
Anchors are numbered; a name that is used again gets the next number, and so a number is used
again as well if a new name follows. What counts is the node that gets a number last, as
`Packetry.Yaml.Node.targets` says.

The scalars of this layer are texts; what they mean is a matter of the values above.
-/

namespace Packetry.Yaml

/-- What may stand before a node. -/
structure Properties where
  /-- The tag, with its handle replaced by what that stands for. -/
  tag : Option String
  /-- The number of the anchor. -/
  anchor : Option Nat
  deriving DecidableEq, Repr

/-- Nothing stands before the node. -/
def Properties.none : Properties := ⟨.none, .none⟩

/-- A node of a document. -/
inductive Node where
  /-- A reference to the node with an anchor. -/
  | alias (anchor : Nat)
  /-- A scalar, which is plain or not. -/
  | scalar (properties : Properties) (plain : Bool) (text : String)
  /-- A sequence. -/
  | sequence (properties : Properties) (items : List Node)
  /-- A mapping, with keys that need not differ. -/
  | mapping (properties : Properties) (entries : List (Node × Node))

/-- The node where nothing is written. -/
def Node.empty : Node := .scalar .none true ""

/-! ### Reading nodes -/

/-- What is left of the tokens, and what the names in them mean. -/
structure Reader where
  /-- The tokens. -/
  tokens : List Token
  /-- The tag handles of the document. -/
  handles : List (String × String)
  /-- The names of the anchors so far and their numbers. -/
  anchors : List (String × Nat)

namespace Reader

/-- The reader behind the next token. -/
def next (r : Reader) : Reader :=
  { r with tokens := r.tokens.tail }

/-- Whether the next token is one of a list. -/
def at? (r : Reader) (those : List Token) : Bool :=
  r.tokens.head?.any those.contains

/-- The number for a new anchor, and the reader that knows it. -/
def name (r : Reader) (anchor : String) : Nat × Reader :=
  let number := r.anchors.length
  (number, { r with
    anchors := (anchor, number) :: r.anchors.filter (·.1 ≠ anchor) })

/-- The meaning of a tag. -/
def resolve? (r : Reader) (handle rest : String) : Option String :=
  if handle = "" then some rest else (r.handles.lookup handle).map (· ++ rest)

/-- An anchor and a tag, in either order, before a node. -/
structure Written where
  /-- The tag. -/
  tag : Option String
  /-- The anchor. -/
  anchor : Option String

/-- What is written before a node. -/
def properties? (r : Reader) : Option (Written × Reader) :=
  match r.tokens with
  | .anchor a :: .tag handle rest :: _ => do
    return (⟨← r.resolve? handle rest, a⟩, r.next.next)
  | .anchor a :: _ => some (⟨none, a⟩, r.next)
  | .tag handle rest :: .anchor a :: _ => do
    return (⟨← r.resolve? handle rest, a⟩, r.next.next)
  | .tag handle rest :: _ => do return (⟨← r.resolve? handle rest, none⟩, r.next)
  | _ => some (⟨none, none⟩, r)

/-- The properties of a node, with its anchor numbered. -/
def number (r : Reader) (w : Written) : Properties × Reader :=
  match w.anchor with
  | none => (⟨w.tag, none⟩, r)
  | some a =>
    let (number, r) := r.name a
    (⟨w.tag, some number⟩, r)

/-- The empty node with properties, if any are written. -/
def bare? (w : Written) (properties : Properties) (r : Reader) : Option (Node × Reader) :=
  if w.tag.isSome || w.anchor.isSome then some (.scalar properties true "", r) else none

mutual

/-- A node. The flags tell whether block collections may stand here, and whether a sequence
may stand here whose items are not indented. The number bounds how deep the reading goes;
one that exceeds four times the number of tokens does not matter. -/
def node? : Nat → Bool → Bool → Reader → Option (Node × Reader)
  | 0, _, _, _ => none
  | depth + 1, block, level, r =>
    match r.tokens with
    | .alias name :: _ => (r.anchors.lookup name).map fun number => (.alias number, r.next)
    | _ => do
      let (written, r) ← r.properties?
      let (properties, r') := r.number written
      match r.tokens with
      | .blockEntry :: _ =>
        if level then do
          let (items, r) ← levelItems? depth r'
          return (.sequence properties items, r)
        else bare? written properties r'
      | .scalar plain text :: _ =>
        let tag := properties.tag.filter (· ≠ "!")
        return (.scalar { properties with tag := tag } plain text, r'.next)
      | .flowSequenceStart :: _ => do
        let (items, r) ← flowItems? depth true r'.next
        return (.sequence properties items, r)
      | .flowMappingStart :: _ => do
        let (entries, r) ← flowEntries? depth true r'.next
        return (.mapping properties entries, r)
      | .blockSequenceStart :: _ =>
        if block then do
          let (items, r) ← blockItems? depth r'.next
          return (.sequence properties items, r)
        else bare? written properties r'
      | .blockMappingStart :: _ =>
        if block then do
          let (entries, r) ← blockEntries? depth r'.next
          return (.mapping properties entries, r)
        else bare? written properties r'
      | _ :: _ => bare? written properties r'
      | [] => none

/-- The items of a block sequence. -/
def blockItems? : Nat → Reader → Option (List Node × Reader)
  | 0, _ => none
  | depth + 1, r =>
    match r.tokens with
    | .blockEntry :: _ => do
      let (item, r) ← nodeUnless? depth [.blockEntry, .blockEnd] true false r.next
      let (items, r) ← blockItems? depth r
      return (item :: items, r)
    | .blockEnd :: _ => some ([], r.next)
    | _ => none

/-- The items of a block sequence that is not indented more than the mapping around it. -/
def levelItems? : Nat → Reader → Option (List Node × Reader)
  | 0, _ => none
  | depth + 1, r =>
    match r.tokens with
    | .blockEntry :: _ => do
      let (item, r) ←
        nodeUnless? depth [.blockEntry, .key, .value, .blockEnd] true false r.next
      let (items, r) ← levelItems? depth r
      return (item :: items, r)
    | _ :: _ => some ([], r)
    | [] => none

/-- The entries of a block mapping. -/
def blockEntries? : Nat → Reader → Option (List (Node × Node) × Reader)
  | 0, _ => none
  | depth + 1, r =>
    match r.tokens with
    | .key :: _ => do
      let ends : List Token := [.key, .value, .blockEnd]
      let (key, r) ← nodeUnless? depth ends true true r.next
      let (value, r) ← valueUnless? depth ends true r
      let (entries, r) ← blockEntries? depth r
      return ((key, value) :: entries, r)
    | .blockEnd :: _ => some ([], r.next)
    | _ => none

/-- The items of a flow sequence. A single entry of a mapping may stand for an item. -/
def flowItems? : Nat → Bool → Reader → Option (List Node × Reader)
  | 0, _, _ => none
  | depth + 1, first, r => do
    if r.at? [.flowSequenceEnd] then return ([], r.next)
    let r ← if first then some r else if r.at? [.flowEntry] then some r.next else none
    if r.at? [.flowSequenceEnd] then return ([], r.next)
    let (item, r) ←
      if r.at? [.key] then do
        let r := r.next
        let (key, r) ←
          if r.at? [.value, .flowEntry, .flowSequenceEnd] then some (Node.empty, r.next)
          else node? depth false false r
        let (value, r) ← valueUnless? depth [.flowEntry, .flowSequenceEnd] false r
        some (Node.mapping .none [(key, value)], r)
      else node? depth false false r
    let (items, r) ← flowItems? depth false r
    return (item :: items, r)

/-- The entries of a flow mapping. -/
def flowEntries? : Nat → Bool → Reader → Option (List (Node × Node) × Reader)
  | 0, _, _ => none
  | depth + 1, first, r => do
    if r.at? [.flowMappingEnd] then return ([], r.next)
    let r ← if first then some r else if r.at? [.flowEntry] then some r.next else none
    if r.at? [.flowMappingEnd] then return ([], r.next)
    let (entry, r) ←
      if r.at? [.key] then do
        let (key, r) ← nodeUnless? depth [.value, .flowEntry, .flowMappingEnd] false false r.next
        let (value, r) ← valueUnless? depth [.flowEntry, .flowMappingEnd] false r
        some ((key, value), r)
      else do
        let (key, r) ← node? depth false false r
        some ((key, Node.empty), r)
    let (entries, r) ← flowEntries? depth false r
    return (entry :: entries, r)

/-- A node, or the empty one if the next token shows that nothing is written. -/
def nodeUnless? : Nat → List Token → Bool → Bool → Reader → Option (Node × Reader)
  | 0, _, _, _, _ => none
  | depth + 1, ends, block, level, r =>
    if r.at? ends then some (.empty, r) else node? depth block level r

/-- The value of an entry, which may lack its mark. -/
def valueUnless? : Nat → List Token → Bool → Reader → Option (Node × Reader)
  | 0, _, _, _ => none
  | depth + 1, ends, block, r =>
    if r.at? [.value] then nodeUnless? depth ends block block r.next
    else if r.tokens.isEmpty then none
    else some (.empty, r)

end

end Reader

/-! ### Documents -/

/-- A document that was read. -/
structure Document where
  /-- Its root; an empty text has none. -/
  root : Option Node
  /-- Whether anything follows it. -/
  isFollowed : Bool

/-- The handles that need no directive. -/
def standardHandles : List (String × String) :=
  [("!", "!"), ("!!", "tag:yaml.org,2002:")]

/-- The directives before a document: the handles and the tokens behind them. The version
must be given once at most, and be one of the two that are known; no handle must be given
twice. -/
def directives? (version : Bool) (handles : List (String × String)) :
    List Token → Option (List (String × String) × List Token)
  | .version major minor :: rest =>
    if version || major ≠ 1 || (minor ≠ 1 && minor ≠ 2) then none
    else directives? true handles rest
  | .handle name meaning :: rest =>
    if (handles.lookup name).isSome then none
    else directives? version ((name, meaning) :: handles) rest
  | rest => some (handles ++ standardHandles, rest)

/-- Whether a token cannot be part of the content of a document. -/
def Token.isOutside : Token → Bool
  | .version _ _ => true
  | .handle _ _ => true
  | .documentStart => true
  | .documentEnd => true
  | .streamEnd => true
  | _ => false

/-- The root of the first document, and the tokens behind it. -/
def root? (tokens : List Token) : Option (Node × List Token) := do
  let depth := 4 * tokens.length + 8
  let explicit := tokens.head?.any fun t => t.isOutside && t ≠ .documentEnd
  if explicit then
    let (handles, rest) ← directives? false [] tokens
    match rest with
    | .documentStart :: rest =>
      if rest.head?.any Token.isOutside then return (.empty, rest)
      let (node, r) ← Reader.node? depth true false ⟨rest, handles, []⟩
      return (node, r.tokens)
    | _ => none
  else
    let (node, r) ← Reader.node? depth true false ⟨tokens, standardHandles, []⟩
    return (node, r.tokens)

/-- The first document of a text. -/
def Document.ofText? (text : String) : Option Document := do
  let all := tokens text.toList
  if all = [.streamEnd] then return ⟨none, false⟩
  let (root, rest) ← root? all
  if rest.isEmpty then none
  return ⟨root, rest.dropWhile (· = .documentEnd) ≠ [.streamEnd]⟩

/-! ### Anchors -/

mutual

/-- The nodes of a tree that carry an anchor, each with its number, in the order in which
they start. -/
def Node.anchored : Node → List (Nat × Node)
  | .alias _ => []
  | .scalar p plain text => (p.anchor.map fun n => (n, Node.scalar p plain text)).toList
  | .sequence p items =>
    (p.anchor.map fun n => (n, Node.sequence p items)).toList ++ anchoredIn items
  | .mapping p entries =>
    (p.anchor.map fun n => (n, Node.mapping p entries)).toList ++ anchoredInEntries entries

/-- The nodes of a list of trees that carry an anchor. -/
def Node.anchoredIn : List Node → List (Nat × Node)
  | [] => []
  | item :: items => item.anchored ++ anchoredIn items

/-- The nodes in the entries of a mapping that carry an anchor. -/
def Node.anchoredInEntries : List (Node × Node) → List (Nat × Node)
  | [] => []
  | (key, value) :: entries => key.anchored ++ value.anchored ++ anchoredInEntries entries

end

/-- The nodes that aliases stand for, by the numbers of anchors. -/
abbrev Targets := List (Nat × Node)

/-- The nodes that the aliases in a tree stand for. Of two nodes with one number the later one
counts, and so comes first. -/
def Node.targets (root : Node) : Targets :=
  root.anchored.reverse

mutual

/-- The number of marks that it takes to write a tree: one for a scalar or an alias, and one
for each end of a collection. -/
def Node.size : Node → Nat
  | .alias _ => 1
  | .scalar _ _ _ => 1
  | .sequence _ items => 2 + sizeIn items
  | .mapping _ entries => 2 + sizeInEntries entries

/-- The size of a list of trees. -/
def Node.sizeIn : List Node → Nat
  | [] => 0
  | item :: items => item.size + sizeIn items

/-- The size of the entries of a mapping. -/
def Node.sizeInEntries : List (Node × Node) → Nat
  | [] => 0
  | (key, value) :: entries => key.size + value.size + sizeInEntries entries

end

end Packetry.Yaml
