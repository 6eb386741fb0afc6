/-
  Routebook.Yaml.Node

  The nodes of a settings document, from its tokens.  A document holds one
  node.  An alias stands for the node that bears its anchor; inside that very
  node it stands for what is known of it there, an empty collection.
-/
import Routebook.Yaml.Moment
import Routebook.Yaml.Sense
import Routebook.Yaml.Token

namespace Routebook.Yaml

/-- A node of a settings document. -/
inductive Node where
  | scalar (sense : Sense) (text : String)
  | sequence (sense : Sense) (items : List Node)
  | mapping (sense : Sense) (pairs : List (Node × Node))

/-- What plain text is meant to be. -/
def Sense.ofPlain (text : String) : Sense :=
  if looksBool text then .bool
  else if looksFloat text then .float
  else if looksInt text then .int
  else if text = "<<" then .merge
  else if looksNull text then .null
  else if Moment.looks text then .moment
  else if text = "=" then .own
  else .text

namespace Node

/-- What is known while nodes are read. -/
structure Reading where
  /-- The tokens to come. -/
  tokens : List Token
  /-- The nodes that bear an anchor. -/
  anchors : Entries Node
  /-- What the handles of tags stand for. -/
  handles : Entries String

/-- A step of reading nodes. -/
abbrev Read (α : Type) := StateT Reading (Except Failure) α

/-- The document is malformed. -/
def malformed {α : Type} : Read α := throw .malformedSettings

/-- The next token. -/
def next? : Read (Option Token) := do return (← get).tokens.head?

/-- Past the next token. -/
def skip : Read Unit := modify fun r => { r with tokens := r.tokens.tail }

/-- Past the next token if it is a given one, and whether it was. -/
def take (t : Token) : Read Bool := do
  if (← next?) == some t then
    skip
    return true
  else return false

/-- An empty place stands for null. -/
def empty : Node := .scalar .null ""

/-- Let a name stand for a node. -/
def anchor (name : Option String) (n : Node) : Read Unit :=
  match name with
  | none => pure ()
  | some name => modify fun r => { r with anchors := Entries.put name n r.anchors }

/-- The anchor and the tag that may stand before a node, in either order. -/
def properties : Read (Option String × Option TagName) := do
  match ← next? with
  | some (.anchor a) => do
    skip
    match ← next? with
    | some (.tag t) => do skip; return (some a, some t)
    | _ => return (some a, none)
  | some (.tag t) => do
    skip
    match ← next? with
    | some (.anchor a) => do skip; return (some a, some t)
    | _ => return (none, some t)
  | _ => return (none, none)

/-- The tag that a written name stands for. -/
def resolve (t : TagName) : Read String := do
  match t.handle with
  | none => return t.rest
  | some short =>
    match Entries.get? short (← get).handles with
    | some lead => return lead ++ t.rest
    | none => malformed

/-- What a node is meant to be: what its tag says, if it has one that says anything. -/
def senseOf (tag : Option String) (otherwise : Sense) : Sense :=
  match tag with
  | none => otherwise
  | some "!" => otherwise
  | some t => Sense.ofTag t

/-- Which nodes may stand in a place. -/
inductive Place where
  /-- Inside brackets. -/
  | flow
  /-- Among blocks. -/
  | block
  /-- The value or key of a block, whose items need not be indented. -/
  | pair
  deriving DecidableEq

/-- A node without content; it needs an anchor or a tag. -/
def emptyNode (name : Option String) (tag : Option String) : Read Node := do
  if name.isNone && tag.isNone then malformed
  let n := Node.scalar (senseOf tag .null) ""
  anchor name n
  return n

/-- A sequence; its items may refer to it. -/
def sequenceOf (name : Option String) (sense : Sense) (items : Read (List Node)) : Read Node := do
  -- Items that refer to the sequence around them find it empty.
  anchor name (.sequence sense [])
  let n := Node.sequence sense (← items)
  anchor name n
  return n

/-- A mapping; its keys and values may refer to it. -/
def mappingOf (name : Option String) (sense : Sense) (pairs : Read (List (Node × Node))) :
    Read Node := do
  anchor name (.mapping sense [])
  let n := Node.mapping sense (← pairs)
  anchor name n
  return n

/-- Past the comma between two items. -/
def separator : Read Unit := do
  if !(← take .comma) then malformed

mutual
/-- A node. -/
def node (place : Place) : Nat → Read Node
  | 0 => malformed
  | fuel + 1 => do
    match ← next? with
    | some (.alias name) => do
      skip
      match Entries.get? name (← get).anchors with
      | some n => return n
      | none => malformed
    | _ => do
      let (name, written) ← properties
      let tag ← written.mapM resolve
      if (← get).anchors.any fun e => some e.1 == name then malformed
      match ← next? with
      | some (.scalar plain text) => do
        skip
        let isPlain := (plain && tag.isNone) || tag == some "!"
        let n := Node.scalar (senseOf tag (if isPlain then Sense.ofPlain text else .text)) text
        anchor name n
        return n
      | some .openList => do
        skip
        sequenceOf name (senseOf tag .list) (listItems true fuel)
      | some .openMapping => do
        skip
        mappingOf name (senseOf tag .mapping) (flowPairs true fuel)
      | some .sequenceStart => do
        -- Inside brackets no block may begin, so nothing stands here.
        if place = .flow then
          emptyNode name tag
        else
          skip
          sequenceOf name (senseOf tag .list) (blockItems fuel)
      | some .mappingStart => do
        if place = .flow then
          emptyNode name tag
        else
          skip
          mappingOf name (senseOf tag .mapping) (blockPairs fuel)
      | some .item => do
        if place = .pair then sequenceOf name (senseOf tag .list) (looseItems fuel)
        else emptyNode name tag
      | _ => emptyNode name tag

/-- A node, or an empty place before one of some tokens. -/
def nodeUnless (place : Place) (ends : List Token) : Nat → Read Node
  | 0 => malformed
  | fuel + 1 => do
    match ← next? with
    | some t => if ends.contains t then return empty else node place fuel
    | none => node place fuel

/-- The items of a block, to its end. -/
def blockItems : Nat → Read (List Node)
  | 0 => malformed
  | fuel + 1 => do
    if ← take .item then
      let n ← nodeUnless .block [.item, .blockEnd] fuel
      return n :: (← blockItems fuel)
    else if ← take .blockEnd then return []
    else malformed

/-- Items that are not indented; what follows them ends them. -/
def looseItems : Nat → Read (List Node)
  | 0 => malformed
  | fuel + 1 => do
    if ← take .item then
      let n ← nodeUnless .block [.item, .key, .value, .blockEnd] fuel
      return n :: (← looseItems fuel)
    else return []

/-- A value after its mark, or an empty place. -/
def valueOf (place : Place) (ends : List Token) : Nat → Read Node
  | 0 => malformed
  | fuel + 1 => do
    if ← take .value then nodeUnless place ends fuel else return empty

/-- The pairs of a block, to its end. -/
def blockPairs : Nat → Read (List (Node × Node))
  | 0 => malformed
  | fuel + 1 => do
    if ← take .key then
      let k ← nodeUnless .pair [.key, .value, .blockEnd] fuel
      let v ← valueOf .pair [.key, .value, .blockEnd] fuel
      return (k, v) :: (← blockPairs fuel)
    else if ← take .blockEnd then return []
    else malformed

/-- The items of a list in brackets; the flag tells whether none came before.
A pair among them is a mapping of its own. -/
def listItems (first : Bool) : Nat → Read (List Node)
  | 0 => malformed
  | fuel + 1 => do
    if ← take .closeList then return []
    if !first then separator
    if ← take .closeList then return []
    let n ← (do
      if ← take .key then
        let k ← nodeUnless .flow [.value, .comma, .closeList] fuel
        let v ← valueOf .flow [.comma, .closeList] fuel
        return Node.mapping .mapping [(k, v)]
      else node .flow fuel)
    return n :: (← listItems false fuel)

/-- The pairs of a mapping in brackets; the flag tells whether none came before.
A key without a mark has no value. -/
def flowPairs (first : Bool) : Nat → Read (List (Node × Node))
  | 0 => malformed
  | fuel + 1 => do
    if ← take .closeMapping then return []
    if !first then separator
    if ← take .closeMapping then return []
    let p ← (do
      if ← take .key then
        let k ← nodeUnless .flow [.value, .comma, .closeMapping] fuel
        let v ← valueOf .flow [.comma, .closeMapping] fuel
        return (k, v)
      else return (← node .flow fuel, empty))
    return p :: (← flowPairs false fuel)
end

/-! ## Documents -/

/-- The handles that need no directive. -/
def knownHandles : List (String × String) := [("!", "!"), ("!!", Sense.family)]

/-- The directives before a document: at most one version, which must be the
first one, and no handle twice. -/
def directives : List Token → Bool → Entries String → Outcome (List Token × Entries String)
  | .version major _ :: rest, versioned, handles =>
    if versioned || major != 1 then .error .malformedSettings else directives rest true handles
  | .handle name lead :: rest, versioned, handles =>
    if Entries.has name handles then .error .malformedSettings
    else directives rest versioned (Entries.put name lead handles)
  | .reserved :: rest, versioned, handles => directives rest versioned handles
  | rest, _, handles => .ok (rest, handles)

/-- Whether a document begins with what only precedes one. -/
def isOpened : List Token → Bool
  | .documentStart :: _ => true
  | .version _ _ :: _ => true
  | .handle _ _ :: _ => true
  | .reserved :: _ => true
  | _ => false

/-- The node of the only document of a text; none if there is no document. -/
def ofTokens? (ts : List Token) : Outcome (Option Node) :=
  match ts with
  | [] => .ok none
  | _ => do
    let (rest, declared) ← if isOpened ts then directives ts false [] else pure (ts, [])
    let handles := knownHandles.foldl (fun m h => Entries.putNew h.1 h.2 m) declared
    let fuel := 4 * ts.length + 4
    let (n, r) ←
      if isOpened ts then
        match rest with
        | .documentStart :: rest =>
          if isOpened rest || rest.head?.all (· == .documentEnd) then
            pure (empty, ⟨rest, [], handles⟩)
          else (node .block fuel).run ⟨rest, [], handles⟩
        | _ => throw .malformedSettings
      else (node .block fuel).run ⟨rest, [], handles⟩
    if r.tokens.all (· == .documentEnd) then return some n else throw .malformedSettings

end Node

end Routebook.Yaml
