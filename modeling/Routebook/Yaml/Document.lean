/-
  Routebook.Yaml.Document

  What a settings document says, from its nodes: scalars, lists, and mappings
  whose keys are scalars.  A key that is repeated keeps its first place and
  its last value; a merge key takes over the pairs of other mappings, which
  the mapping's own pairs follow.
-/
import Routebook.Double.Reader
import Routebook.Yaml.Binary
import Routebook.Yaml.Layout
import Routebook.Yaml.Node

namespace Routebook.Yaml

/-- A value without parts. -/
inductive Scalar where
  | plain (v : Value)
  /-- A date, perhaps with a time of day. -/
  | moment (m : Moment)
  /-- Bytes. -/
  | binary (bytes : List UInt8)

/-- What a settings document says. -/
inductive Document where
  | scalar (s : Scalar)
  | list (items : List Document)
  | mapping (pairs : List (Scalar × Document))

namespace Scalar

/-- Whether two scalars are the same key. -/
def same : Scalar → Scalar → Bool
  | .plain a, .plain b => Value.same a b
  | .moment a, .moment b => a == b
  | .binary a, .binary b => a == b
  | _, _ => false

/-- Whether a scalar is more than nothing. -/
def holds : Scalar → Bool
  | .plain v => v.holds
  | .moment _ => true
  | .binary bytes => !bytes.isEmpty

end Scalar

/-- Whether a document says more than nothing. -/
def Document.holds : Document → Bool
  | .scalar s => s.holds
  | .list items => !items.isEmpty
  | .mapping pairs => !pairs.isEmpty

namespace Document

/-! ## Scalars -/

/-- The words for text that is no integer of a base. -/
def badInt (base : Nat) (text : String) : Failure :=
  .badValue ("invalid literal for int() with base " ++ toString base ++ ": " ++ Text.quoted text)

/-- The words for an integer with too many digits. -/
def longInt (count : Nat) : Failure :=
  .badValue ("Exceeds the limit (" ++ toString Value.digitLimit ++
    " digits) for integer string conversion: value has " ++ toString count ++
    " digits; use sys.set_int_max_str_digits() to increase the limit")

/-- The value of digits of a base, which must not be too many if they are decimal. -/
def digits (base : Nat) (text : List Char) : Outcome Nat :=
  let value? := text.foldl
    (fun n? c => n?.bind fun n =>
      match Json.Token.hexValue? c with
      | some d => if d < base then some (n * base + d) else none
      | none => none) (some 0)
  if text.isEmpty then .error (badInt base "")
  else if base = 10 ∧ Value.digitLimit < text.length then .error (longInt text.length)
  else
    match value? with
    | none => .error (badInt base (String.ofList text))
    | some n => .ok n

/-- The number that parts of base sixty make. -/
def sixty (parts : List Nat) : Nat := parts.foldl (fun n p => n * 60 + p) 0

/-- The size of an integer, from its characters without a sign. -/
def sizeOf (body : List Char) : Outcome Nat :=
  match body with
  | ['0'] => .ok 0
  | '0' :: 'b' :: rest => digits 2 rest
  | '0' :: 'x' :: rest => digits 16 rest
  | '0' :: _ => digits 8 body
  | _ =>
    if body.contains ':' then do
      let parts ← ((String.ofList body).splitOn ":").mapM fun p => digits 10 p.toList
      return sixty parts
    else digits 10 body

/-- An integer as it is written; underscores do not count. -/
def intOf (text : String) : Outcome Int := do
  let cs := text.toList.filter (· != '_')
  let n ← sizeOf (Sense.dropSign cs)
  return if cs.head? == some '-' then -(n : Int) else n

/-- A number of double precision from text without groups. -/
def doubleOf (text : String) : Outcome Double :=
  match Double.read? text with
  | some x => .ok x
  | none => .error (.badValue ("could not convert string to float: " ++ Text.quoted text))

/-- The decimal number that digits with perhaps a point make: without the
point, and how many places follow it. -/
def decimal (text : String) : Nat × Nat :=
  let (whole, rest) := text.toList.span Char.isDigit
  let places := (rest.drop 1).takeWhile Char.isDigit
  (Moment.value (whole ++ places), places.length)

/-- The number that groups of base sixty make, the last of which may have places. -/
def sixtyDouble (negative : Bool) (parts : List String) : Double :=
  let (last, places) := decimal (parts.getLast?.getD "")
  let whole := sixty (parts.dropLast.map fun p => Moment.value p.toList)
  let unit := Nat.pow 10 places
  Double.ofRatio negative (whole * 60 * unit + last) unit

/-- A number of double precision as it is written; underscores do not count. -/
def floatOf (text : String) : Outcome Double := do
  let cs := (text.toList.filter (· != '_')).map Char.toLower
  let negative := cs.head? == some '-'
  let body := String.ofList (Sense.dropSign cs)
  if body = ".inf" then return .infinite negative
  if body = ".nan" then return .nan
  let parts := body.splitOn ":"
  let numbers ← parts.mapM doubleOf
  match numbers with
  | [x] => return if negative then x.negated else x
  | _ => return sixtyDouble negative parts

/-- A scalar from its text. -/
def scalarOf (sense : Sense) (text : String) : Outcome Scalar := do
  match sense with
  | .null => return .plain .null
  | .bool =>
    match Entries.get? (text.map Char.toLower) Sense.truthWords with
    | some b => return .plain (.bool b)
    | none => throw .missingKey
  | .int => return .plain (.int (← intOf text))
  | .float => return .plain (.float (← floatOf text))
  | .text => return .plain (.string text)
  | .moment =>
    match Moment.ofText? text with
    | none => throw .malformedSettings
    | some m =>
      match m.refusal? with
      | some message => throw (.badValue message)
      | none => return .moment m
  | .binary =>
    match Binary.ofText? text with
    | some bytes => return .binary bytes
    | none => throw .malformedSettings
  | _ => throw .malformedSettings

/-! ## Collections -/

/-- Whether a node is a key that takes over the pairs of other mappings. -/
def isMerge : Node → Bool
  | .scalar .merge _ => true
  | .sequence .merge _ => true
  | .mapping .merge _ => true
  | _ => false

/-- Whether a node is the key whose value stands for its mapping. -/
def isOwn : Node → Bool
  | .scalar .own _ => true
  | _ => false

/-- Whether the parts of a node are read only after what stands beside it. -/
def isLater : Node → Bool
  | .scalar _ _ => false
  | .sequence sense _ => [Sense.list, .mapping, .set, .pairs].contains sense
  | .mapping sense _ => [Sense.list, .mapping, .set, .pairs].contains sense

mutual
/-- The text of a node where a scalar is wanted. -/
def ownText? : Node → Option String
  | .scalar _ text => some text
  | .sequence _ _ => none
  | .mapping _ pairs => ownTextOf? pairs

/-- The text of the value that stands for a mapping. -/
def ownTextOf? : List (Node × Node) → Option String
  | [] => none
  | (k, v) :: rest => if isOwn k then ownText? v else ownTextOf? rest
end

/-- An item or a pair that is read: a key, and a value that is perhaps later. -/
structure Part where
  key : Outcome Scalar
  later : Bool
  value : Outcome Document

namespace Part

/-- The pair that a part is, or why it is none. -/
def pair (p : Part) : Outcome (Scalar × Document) := do return (← p.key, ← p.value)

/-- A failure of a part that is met at once. -/
def failure? (p : Part) : Option Failure :=
  match p.key, p.value with
  | .error e, _ => some e
  | .ok _, .error e => if p.later then none else some e
  | .ok _, .ok _ => none

/-- The pairs of all parts; the failures that are met at once come first. -/
def all (parts : List Part) : Outcome (List (Scalar × Document)) :=
  match parts.findSome? failure? with
  | some e => .error e
  | none => parts.mapM pair

end Part

/-- A pair put among others: a key that is there keeps its place. -/
def put (key : Scalar) (value : Document) : List (Scalar × Document) → List (Scalar × Document)
  | [] => [(key, value)]
  | (k, v) :: rest =>
    if Scalar.same k key then (k, value) :: rest else (k, v) :: put key value rest

/-- A mapping of pairs. -/
def ofPairs (pairs : List (Scalar × Document)) : List (Scalar × Document) :=
  pairs.foldl (fun m p => put p.1 p.2 m) []

/-- A key must be a scalar; the key for a mapping's own value is text here. -/
def keyOf (n : Node) (read : Outcome Document) : Outcome Scalar :=
  match n with
  | .scalar .own text => .ok (.plain (.string text))
  | _ =>
    match read with
    | .ok (.scalar s) => .ok s
    | .ok _ => .error .malformedSettings
    -- A collection is refused as a key before what it holds is read.
    | .error e => if isLater n then .error .malformedSettings else .error e

/-- The key of items, which have none. -/
def noKey : Outcome Scalar := .ok (.plain .null)

mutual
/-- What a node says. -/
def ofNode : Node → Outcome Document
  | .scalar sense text => Document.scalar <$> scalarOf sense text
  | .sequence sense items => do
    match sense with
    | .list => return .list ((← Part.all (itemsOf items)).map Prod.snd)
    | .pairs => return .list (← couplesOf items)
    | _ => throw .malformedSettings
  | .mapping sense pairs => do
    match sense with
    | .mapping =>
      let (merged, own) ← partsOf pairs
      return .mapping (ofPairs (← Part.all (merged ++ own)))
    | .set =>
      let (merged, own) ← partsOf pairs
      return .list ((ofPairs (← Part.all (merged ++ own))).map fun p => .scalar p.1)
    | _ =>
      match ownTextOf? pairs with
      | some text => Document.scalar <$> scalarOf sense text
      | none => throw .malformedSettings

/-- What the items of a sequence say. -/
def itemsOf : List Node → List Part
  | [] => []
  | n :: rest => ⟨noKey, isLater n, ofNode n⟩ :: itemsOf rest

/-- What the items of a list of pairs say; each is a mapping of one pair. -/
def couplesOf : List Node → Outcome (List Document)
  | [] => .ok []
  | .mapping _ [(k, v)] :: rest => do
    let couple := Document.list [← ofNode k, ← ofNode v]
    return couple :: (← couplesOf rest)
  | _ => .error .malformedSettings

/-- The pairs of a mapping: those it takes over, and its own. -/
def partsOf : List (Node × Node) → Outcome (List Part × List Part)
  | [] => .ok ([], [])
  | (k, v) :: rest => do
    let (merged, own) ← partsOf rest
    -- Of two keys that take over, the pairs of the first come first.
    if isMerge k then return ((← takenFrom v) ++ merged, own)
    else return (merged, ⟨keyOf k (ofNode k), isLater v, ofNode v⟩ :: own)

/-- The pairs taken over from a node: a mapping, or a sequence of mappings, of
which the last comes first. -/
def takenFrom : Node → Outcome (List Part)
  | .scalar _ _ => .error .malformedSettings
  | .mapping _ pairs => do
    let (merged, own) ← partsOf pairs
    return merged ++ own
  | .sequence _ items => do return (← takenFromEach items).reverse.flatten

/-- The pairs taken over from each of some nodes, which must be mappings. -/
def takenFromEach : List Node → Outcome (List (List Part))
  | [] => .ok []
  | .mapping _ pairs :: rest => do
    let (merged, own) ← partsOf pairs
    return (merged ++ own) :: (← takenFromEach rest)
  | _ => .error .malformedSettings
end

/-- What a text says; null if it holds no document. -/
def ofText (text : String) : Outcome Document := do
  match ← Node.ofTokens? (← tokens text) with
  | none => return .scalar (.plain .null)
  | some n => ofNode n

end Document

end Routebook.Yaml
