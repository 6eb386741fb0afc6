/-
  Routebook.Json.Reader

  Values from JSON tokens.  The reader is a machine with a stack of open
  arrays and objects that takes one token at a time; a repeated key keeps the
  place of the first and the value of the last.
-/
import Routebook.Json.Token

namespace Routebook.Json

/-- An array or an object that is still open. -/
inductive Frame where
  /-- The items so far, last first. -/
  | array (items : List Value)
  /-- The fields so far and the key whose value comes next. -/
  | object (fields : Entries Value) (key : String)

/-- What the reader waits for. -/
inductive State where
  /-- A value; right after an opening bracket the array may also close. -/
  | value (stack : List Frame) (mayClose : Bool)
  /-- A key; right after an opening brace the object may also close. -/
  | key (fields : Entries Value) (stack : List Frame) (mayClose : Bool)
  /-- The colon after a key. -/
  | colon (fields : Entries Value) (key : String) (stack : List Frame)
  /-- A value is complete; a comma, a closing mark or the end follows. -/
  | done (v : Value) (stack : List Frame)

namespace State

/-- Before the first token. -/
def start : State := .value [] false

/-- The value of a token that is a whole value. -/
def scalar? : Token → Option Value
  | .null => some .null
  | .bool b => some (.bool b)
  | .int n => some (.int n)
  | .float x => some (.float x)
  | .string s => some (.string s)
  | _ => none

/-- Whether one more array or object may be opened. -/
def mayOpen (dialect : Dialect) (stack : List Frame) : Bool :=
  (dialect.maxDepth.map fun m => decide (stack.length < m)).getD true

/-- Take one token. -/
def step (dialect : Dialect) : State → Token → Option State
  | .value stack _, .openArray =>
    if mayOpen dialect stack then some (.value (.array [] :: stack) true) else none
  | .value stack _, .openObject =>
    if mayOpen dialect stack then some (.key [] stack true) else none
  -- Only right behind the bracket; behind a comma an item must follow.
  | .value (.array [] :: stack) true, .closeArray => some (.done (.array []) stack)
  | .value stack _, t => (scalar? t).map (.done · stack)
  | .key fields stack _, .string k => some (.colon fields k stack)
  | .key fields stack true, .closeObject => some (.done (.object fields) stack)
  | .colon fields k stack, .colon => some (.value (.object fields k :: stack) false)
  | .done v (.array items :: stack), .comma => some (.value (.array (v :: items) :: stack) false)
  | .done v (.array items :: stack), .closeArray =>
    some (.done (.array (v :: items).reverse) stack)
  | .done v (.object fields k :: stack), .comma =>
    -- A key that was there keeps its place and takes the new value.
    some (.key (Entries.put k v fields) stack false)
  | .done v (.object fields k :: stack), .closeObject =>
    some (.done (.object (Entries.put k v fields)) stack)
  | _, _ => none

/-- Take all tokens. -/
def run (dialect : Dialect) : State → List Token → Option State
  | s, [] => some s
  | s, t :: ts =>
    match step dialect s t with
    | some s' => run dialect s' ts
    | none => none

/-- The value read, if exactly one is complete. -/
def result? : State → Option Value
  | .done v [] => some v
  | _ => none

end State

/-- The value of a sequence of tokens. -/
def ofTokens? (dialect : Dialect) (ts : List Token) : Option Value :=
  (State.start.run dialect ts).bind State.result?

/-- The value a text stands for, or `none` if it is not JSON. -/
def read? (dialect : Dialect) (text : String) : Option Value :=
  (tokens dialect text.toList).bind (ofTokens? dialect)

end Routebook.Json
