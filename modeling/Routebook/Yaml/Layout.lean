/-
  Routebook.Yaml.Layout

  From text to tokens.  Indentation opens and ends blocks; a word turns out to
  be a key only when a colon follows it, so the place where a key may begin is
  remembered and the mark of the key is put there afterwards.
-/
import Routebook.Text.LineEnd
import Routebook.Yaml.Block
import Routebook.Yaml.Plain
import Routebook.Yaml.Quoted
import Routebook.Yaml.Token

namespace Routebook.Yaml

/-- A place where a key may have begun. -/
structure KeyPlace where
  /-- How many tokens came before. -/
  token : Nat
  /-- Whether nothing but a key can stand there. -/
  required : Bool
  index : Nat
  line : Nat
  column : Nat

/-- How far the reading of tokens has come. -/
structure Layout where
  cursor : Cursor
  /-- The tokens read so far. -/
  tokens : Array Token
  /-- The column of the innermost block. -/
  indent : Int
  /-- The columns of the blocks around it. -/
  outer : List Int
  /-- Whether a key may begin here. -/
  mayBegin : Bool
  /-- Where a key may have begun, for the innermost open collection and for
  each around it; the last stands for the blocks. -/
  places : List (Option KeyPlace)

namespace Layout

/-- Before the first token. -/
def start (text : List Char) : Layout := ⟨Cursor.start text, #[], -1, [], true, [none]⟩

/-- The longest text that may stand between the beginning of a key and its colon. -/
def keyLimit : Nat := 1024

/-- Whether an open collection in brackets surrounds the place. -/
def inFlow (l : Layout) : Bool := decide (1 < l.places.length)

/-- Add a token. -/
def push (t : Token) (l : Layout) : Layout := { l with tokens := l.tokens.push t }

/-- Put a token before those that came after a place. -/
def insert (place : Nat) (t : Token) (l : Layout) : Layout :=
  { l with tokens := (l.tokens.take place).push t ++ l.tokens.drop place }

/-- Go to a place. -/
def goTo (c : Cursor) (l : Layout) : Layout := { l with cursor := c }

/-- Say whether a key may begin here. -/
def allow (may : Bool) (l : Layout) : Layout := { l with mayBegin := may }

/-! ## Blanks -/

/-- Past blanks, comments and line breaks; after a break a key may begin again. -/
def skipBlanks : Nat → Layout → Layout
  | 0, l => l
  | fuel + 1, l =>
    let c := l.cursor.skip (· == ' ')
    let c := if c.next == some '#' then c.skip (!isBreak ·) else c
    match c.lineBreak? with
    | none => l.goTo c
    | some (_, c) => skipBlanks fuel ((l.goTo c).allow (!l.inFlow || l.mayBegin))

/-- To the next token; a byte order mark at the very beginning is skipped. -/
def toNext (l : Layout) : Layout :=
  let c := l.cursor
  let c := if c.index = 0 ∧ c.next = some '\ufeff' then c.step else c
  skipBlanks (c.rest.length + 1) (l.goTo c)

/-! ## Blocks -/

/-- End the blocks that are indented further than a column. -/
def endBlocks (column : Int) (l : Layout) : Layout :=
  if l.inFlow then l
  else
    let ended := (l.indent :: l.outer).takeWhile (column < ·)
    match (l.indent :: l.outer).drop ended.length with
    | [] => l
    | indent :: outer =>
      { l with
        indent := indent
        outer := outer
        tokens := l.tokens ++ (Array.replicate ended.length Token.blockEnd) }

/-- Begin a block at a column, with its token at a place, unless it is there already. -/
def beginBlock (column : Nat) (place : Nat) (t : Token) (l : Layout) : Layout :=
  if l.indent < (column : Int) then
    { (l.insert place t) with indent := column, outer := l.indent :: l.outer }
  else l

/-! ## Places of keys -/

/-- Whether a key can no longer have begun at a place. -/
def isStale (c : Cursor) (k : KeyPlace) : Bool :=
  k.line != c.line || decide (keyLimit < c.index - k.index)

/-- Forget the places where no key can have begun any more; a required key
must not be among them. -/
def forgetStale (l : Layout) : Outcome Layout :=
  if l.places.any fun p => p.any fun k => isStale l.cursor k && k.required then
    .error .malformedSettings
  else .ok { l with places := l.places.map fun p => p.filter fun k => !isStale l.cursor k }

/-- Forget where the innermost key may have begun. -/
def forgetPlace (l : Layout) : Outcome Layout :=
  match l.places with
  | [] => .ok l
  | p :: rest =>
    if p.any (·.required) then .error .malformedSettings
    else .ok { l with places := none :: rest }

/-- Remember that a key may begin here. -/
def markPlace (l : Layout) : Outcome Layout :=
  if !l.mayBegin then .ok l
  else do
    let c := l.cursor
    let required := !l.inFlow && l.indent == (c.column : Int)
    let l ← l.forgetPlace
    return { l with
      places := some ⟨l.tokens.size, required, c.index, c.line, c.column⟩ :: l.places.tail }

/-! ## Tokens -/

/-- A token that may begin a key. -/
def word (t : Token) (after : Cursor) (l : Layout) : Outcome Layout := do
  let l ← l.markPlace
  return ((l.push t).goTo after).allow false

/-- The mark of an item or of a key that is written out: a block begins with it. -/
def blockMark (opening mark : Token) (l : Layout) : Outcome Layout := do
  let l ← (
    if l.inFlow then .ok l
    else if !l.mayBegin then .error .malformedSettings
    else .ok (l.beginBlock l.cursor.column l.tokens.size opening) : Outcome Layout)
  let l ← l.forgetPlace
  return (l.push mark).goTo l.cursor.step

/-- The mark of a value: where a key may have begun, it did. -/
def valueMark (l : Layout) : Outcome Layout :=
  match l.places with
  | some k :: rest =>
    let l := { l with places := none :: rest }
    let l := l.insert k.token .key
    let l := if l.inFlow then l else l.beginBlock k.column k.token .mappingStart
    .ok (((l.push .value).goTo l.cursor.step).allow false)
  | _ => do
    let inFlow := l.inFlow
    let l ← l.blockMark .mappingStart .value
    return l.allow (!inFlow)

/-- A mark between documents. -/
def boundary (t : Token) (l : Layout) : Outcome Layout := do
  let l ← (l.endBlocks (-1)).forgetPlace
  return ((l.push t).goTo (l.cursor.steps 3)).allow false

/-- The beginning of a collection in brackets. -/
def openFlow (t : Token) (l : Layout) : Outcome Layout := do
  let l ← l.markPlace
  return { (l.push t).goTo l.cursor.step with places := none :: l.places, mayBegin := true }

/-- The end of a collection in brackets; one must be open. -/
def closeFlow (t : Token) (l : Layout) : Outcome Layout := do
  if !l.inFlow then throw .malformedSettings
  let l ← l.forgetPlace
  return { (l.push t).goTo l.cursor.step with places := l.places.tail, mayBegin := false }

/-- Whether plain text may begin with a character. -/
def beginsPlain (inFlow : Bool) (c : Cursor) : Bool :=
  match c.next with
  | none => false
  | some x =>
    !("-?:,[]\x7b\x7d#&*!|>'\x22%@\x60".contains x || isSpace x || isBreak x) ||
      (!endsWord (c.ahead 1) && (x == '-' || (!inFlow && (x == '?' || x == ':'))))

/-- The token that begins with a character. -/
def token (x : Char) (l : Layout) : Outcome Layout :=
  let c := l.cursor
  let startsWord := l.inFlow || endsWord (c.ahead 1)
  if x = '%' ∧ c.column = 0 then do
    let l ← (l.endBlocks (-1)).forgetPlace
    let (t, after) ← Token.directive c
    return ((l.push t).goTo after).allow false
  else if c.column = 0 ∧ c.atWord '-' then l.boundary .documentStart
  else if c.column = 0 ∧ c.atWord '.' then l.boundary .documentEnd
  else if x = '[' then l.openFlow .openList
  else if x = '\x7b' then l.openFlow .openMapping
  else if x = ']' then l.closeFlow .closeList
  else if x = '\x7d' then l.closeFlow .closeMapping
  else if x = ',' then do
    let l ← l.forgetPlace
    return ((l.push .comma).goTo c.step).allow true
  else if x = '-' ∧ endsWord (c.ahead 1) then do
    return (← l.blockMark .sequenceStart .item).allow true
  else if x = '?' ∧ startsWord then do
    return (← l.blockMark .mappingStart .key).allow (!l.inFlow)
  else if x = ':' ∧ startsWord then l.valueMark
  else if x = '*' then do
    let (name, after) ← Token.anchorName c
    l.word (.alias name) after
  else if x = '&' then do
    let (name, after) ← Token.anchorName c
    l.word (.anchor name) after
  else if x = '!' then do
    let (name, after) ← Token.tagName c
    l.word (.tag name) after
  else if (x = '|' ∨ x = '>') ∧ !l.inFlow then do
    let l ← l.forgetPlace
    let (text, after) ← Block.read (x == '>') l.indent c
    return ((l.push (.scalar false text)).goTo after).allow true
  else if x = '\x27' ∨ x = '\x22' then do
    let (text, after) ← Quoted.read x c
    l.word (.scalar false text) after
  else if beginsPlain l.inFlow c then do
    let (text, crosses, after) := Plain.read l.inFlow l.indent c
    return (← l.word (.scalar true text) after).allow crosses
  else .error .malformedSettings

/-- The tokens from here to the end. -/
def run : Nat → Layout → Outcome (List Token)
  | 0, _ => .error .malformedSettings
  | fuel + 1, l => do
    let l ← l.toNext.forgetStale
    let l := l.endBlocks l.cursor.column
    match l.cursor.next with
    | none =>
      let l ← (l.endBlocks (-1)).forgetPlace
      return l.tokens.toList
    | some x =>
      let l ← l.token x
      run fuel l

end Layout

/-- The tokens of a text. -/
def tokens (text : String) : Outcome (List Token) :=
  let cs := Text.singleLineEnds text.toList
  if cs.all isAllowed then Layout.run (cs.length + 1) (Layout.start cs)
  else .error .malformedSettings

end Routebook.Yaml
