/-
  Routebook.Code.Expression

  Expressions of source text.  Of an expression only its shape is kept: what
  decides whether something may be assigned to it or deleted.
-/
import Routebook.Code.Lines

namespace Routebook.Code

/-- The shape of an expression. -/
inductive Shape where
  | name
  /-- An attribute or an item of something. -/
  | place
  | starred (of : Shape)
  /-- An expression in parentheses. -/
  | group (of : Shape)
  | tuple (items : List Shape)
  | list (items : List Shape)
  | other

namespace Shape

mutual
/-- Whether something may be assigned to an expression; `stars` and `many` tell
whether starred parts and collections may be among its parts. -/
def isTarget (stars many : Bool) : Shape → Bool
  | .name => true
  | .place => true
  | .starred _ => false
  | .group s => isTarget stars many s
  | .tuple items => many && areTargets stars many items
  | .list items => many && areTargets stars many items
  | .other => false

/-- Whether something may be assigned to each of some expressions. -/
def areTargets (stars many : Bool) : List Shape → Bool
  | [] => true
  | .starred s :: rest => stars && isTarget stars many s && areTargets stars many rest
  | s :: rest => isTarget stars many s && areTargets stars many rest
end

/-- Whether values may be unpacked into an expression. -/
def isAssignable : Shape → Bool
  | .starred s => isTarget true true s
  | s => isTarget true true s

/-- Whether an expression is one thing that something may be assigned to. -/
def isSingle (s : Shape) : Bool := isTarget false false s

/-- Whether an expression may be deleted. -/
def isDeletable (s : Shape) : Bool := isTarget false true s

end Shape

namespace Expression

open Scan

/-- What is met in the arguments of a call so far. -/
inductive Stage where
  | positional
  | named
  | mapped
  deriving DecidableEq

/-- What is met in the parameters of a function so far. -/
structure Seen where
  any : Bool
  default : Bool
  slash : Bool
  star : Bool

/-- Whether a further parameter follows a comma. -/
def afterComma : Scan Bool := do
  let ts ← get
  match ts[1]? with
  | some (Token.name text) => return !keywords.contains text
  | _ => return false

/-- The operators between operands of one value. -/
def operators : List String :=
  ["|", "^", "&", "<<", ">>", "+", "-", "*", "/", "//", "%", "@", "**"]

/-- The marks that compare. -/
def comparisons : List String := ["==", "!=", "<", "<=", ">", ">="]

/-- Past one of some marks, if it is the next token. -/
def oneOf (marks : List String) : Scan Bool := do
  match ← next? with
  | some (.sign s) =>
    if marks.contains s then
      skip
      return true
    else return false
  | _ => return false

/-- Past a comparison, if it comes next. -/
def comparison : Scan Bool := do
  if ← oneOf comparisons then return true
  if ← word? "in" then return true
  if ← word? "is" then
    let _ ← word? "not"
    return true
  if (← seesWord "not") && (← seesAfter (.name "in")) then
    skip
    skip
    return true
  return false

/-- Whether a comprehension begins here. -/
def seesFor : Scan Bool := do
  return (← seesWord "for") || ((← seesWord "async") && (← seesAfter (.name "for")))

/-- Expressions with commas between them, and perhaps one at the end; the flag
tells whether there was a comma. -/
def sequence (item : Scan Shape) : Nat → Scan (List Shape × Bool)
  | 0 => refuse
  | fuel + 1 => do
    let first ← item
    if ← sign? "," then
      match ← attempt (sequence item fuel) with
      | some (more, _) => return (first :: more, true)
      | none => return ([first], true)
    else return ([first], false)

mutual
/-- A list of expressions, which is a tuple if there is a comma. -/
def starExpressions : Nat → Scan Shape
  | 0 => refuse
  | fuel + 1 => do
    let (items, comma) ← sequence (starExpression fuel) fuel
    match items, comma with
    | [s], false => return s
    | _, _ => return .tuple items

/-- An expression, or a starred operand. -/
def starExpression : Nat → Scan Shape
  | 0 => refuse
  | fuel + 1 => do
    if ← sign? "*" then return .starred (← operand fuel) else expression fuel

/-- A starred operand, or an expression that may be named. -/
def starNamed : Nat → Scan Shape
  | 0 => refuse
  | fuel + 1 => do
    if ← sign? "*" then return .starred (← operand fuel) else named fuel

/-- An expression that may be named. -/
def named : Nat → Scan Shape
  | 0 => refuse
  | fuel + 1 => do
    if ← seesNameThen ":=" then
      skip
      skip
      let _ ← expression fuel
      return .other
    else expression fuel

/-- What a function yields. -/
def yielded : Nat → Scan Shape
  | 0 => refuse
  | fuel + 1 => do
    word "yield"
    if ← word? "from" then
      let _ ← expression fuel
    else
      let _ ← attempt (starExpressions fuel)
    return .other

/-- What a function yields, or expressions. -/
def yieldedOr : Nat → Scan Shape
  | 0 => refuse
  | fuel + 1 => do if ← seesWord "yield" then yielded fuel else starExpressions fuel

/-- An expression: a choice by a condition, or a function without a name. -/
def expression : Nat → Scan Shape
  | 0 => refuse
  | fuel + 1 => do
    if ← word? "lambda" then
      parameters false fuel
      sign ":"
      let _ ← expression fuel
      return .other
    let s ← disjunction fuel
    let choice ← attempt (do
      word "if"
      let _ ← disjunction fuel
      word "else"
      let _ ← expression fuel)
    -- Without its alternative a condition belongs to what stands around.
    return if choice.isSome then .other else s

/-- Conditions joined by `and` and `or`. -/
def disjunction : Nat → Scan Shape
  | 0 => refuse
  | fuel + 1 => do
    let s ← negation fuel
    if ← word? "and" <||> word? "or" then
      let _ ← disjunction fuel
      return .other
    else return s

/-- A condition that may be negated. -/
def negation : Nat → Scan Shape
  | 0 => refuse
  | fuel + 1 => do
    if ← word? "not" then
      let _ ← negation fuel
      return .other
    else compared fuel

/-- Operands that are compared. -/
def compared : Nat → Scan Shape
  | 0 => refuse
  | fuel + 1 => do
    let s ← operand fuel
    if ← comparison then
      let _ ← compared fuel
      return .other
    else return s

/-- Operands joined by operators. -/
def operand : Nat → Scan Shape
  | 0 => refuse
  | fuel + 1 => do
    let s ← factor fuel
    if ← oneOf operators then
      let _ ← operand fuel
      return .other
    else return s

/-- An operand that may have a sign. -/
def factor : Nat → Scan Shape
  | 0 => refuse
  | fuel + 1 => do
    if ← oneOf ["+", "-", "~"] then
      let _ ← factor fuel
      return .other
    if ← word? "await" then
      let _ ← primary fuel
      return .other
    primary fuel

/-- An atom with what is taken from it. -/
def primary : Nat → Scan Shape
  | 0 => refuse
  | fuel + 1 => do
    let s ← atom fuel
    trailers s fuel

/-- Attributes, calls and items after an atom. -/
def trailers (s : Shape) : Nat → Scan Shape
  | 0 => refuse
  | fuel + 1 => do
    if ← sign? "." then
      let _ ← name
      trailers .place fuel
    else if ← sign? "(" then
      arguments true .positional fuel
      trailers .other fuel
    else if ← sign? "[" then
      let _ ← sequence (slice fuel) fuel
      sign "]"
      trailers .place fuel
    else return s

/-- A slice, a starred expression, or an expression that may be named. -/
def slice : Nat → Scan Shape
  | 0 => refuse
  | fuel + 1 => do
    if ← sign? "*" then return .starred (← expression fuel)
    if ← seesSign ":" then sliceEnd fuel
    else if ← seesNameThen ":=" then named fuel
    else
      let s ← expression fuel
      if ← seesSign ":" then sliceEnd fuel else return s

/-- The rest of a slice, from its first colon on. -/
def sliceEnd : Nat → Scan Shape
  | 0 => refuse
  | fuel + 1 => do
    sign ":"
    let _ ← attempt (expression fuel)
    if ← sign? ":" then
      let _ ← attempt (expression fuel)
    return .other

/-- The arguments of a call up to the closing bracket.  A comprehension may
stand alone if `alone` holds. -/
def arguments (alone : Bool) (stage : Stage) : Nat → Scan Unit
  | 0 => refuse
  | fuel + 1 => do
    if ← sign? ")" then return ()
    let next ← (do
      if ← sign? "**" then
        let _ ← expression fuel
        return Stage.mapped
      else if ← sign? "*" then
        if stage = .mapped then refuse
        let _ ← expression fuel
        return stage
      else if ← seesNameThen "=" then
        skip
        skip
        let _ ← expression fuel
        return if stage = .mapped then .mapped else .named
      else
        if stage ≠ .positional then refuse
        let _ ← named fuel
        if alone && (← seesFor) then
          clauses fuel
          if !(← seesSign ")") then refuse
        return stage)
    if ← sign? "," then
      arguments false next fuel
    else sign ")"

/-- The clauses of a comprehension. -/
def clauses : Nat → Scan Unit
  | 0 => refuse
  | fuel + 1 => do
    let _ ← word? "async"
    word "for"
    let _ ← targets fuel
    word "in"
    let _ ← disjunction fuel
    conditions fuel
    if ← seesFor then clauses fuel

/-- The conditions of a clause. -/
def conditions : Nat → Scan Unit
  | 0 => refuse
  | fuel + 1 => do
    if ← word? "if" then
      let _ ← disjunction fuel
      conditions fuel

/-- What values are unpacked into, one by one. -/
def targets : Nat → Scan Unit
  | 0 => refuse
  | fuel + 1 => do
    let (items, _) ← sequence (target fuel) fuel
    if !items.all Shape.isAssignable then refuse

/-- One thing that values may be unpacked into. -/
def target : Nat → Scan Shape
  | 0 => refuse
  | fuel + 1 => do
    if ← sign? "*" then return .starred (← primary fuel) else primary fuel

/-- The parameters of a function up to what ends them; `typed` tells whether
they may have types. -/
def parameters (typed : Bool) : Nat → Scan Unit
  | 0 => refuse
  | fuel + 1 => do
    if (← seesSign ")") || (← seesSign ":") then return ()
    parameter typed ⟨false, false, false, false⟩ fuel

/-- One parameter and those after it, given what came before. -/
def parameter (typed : Bool) (seen : Seen) : Nat → Scan Unit
  | 0 => refuse
  | fuel + 1 => do
    let now ← (do
      if ← sign? "/" then
        if seen.slash || seen.star || !seen.any then refuse
        return { seen with slash := true }
      else if ← sign? "**" then
        let _ ← name
        typeOf typed fuel
        let _ ← sign? ","
        if !((← seesSign ")") || (← seesSign ":")) then refuse
        return seen
      else if ← sign? "*" then
        if seen.star then refuse
        match ← name? with
        | some _ =>
          if ← pure typed <&&> sign? ":" then
            let _ ← starExpression fuel
        | none =>
          if !((← seesSign ",") && (← afterComma)) then refuse
        return { seen with star := true }
      else
        let _ ← name
        typeOf typed fuel
        if ← sign? "=" then
          let _ ← expression fuel
          return { seen with any := true, default := true }
        else
          if seen.default && !seen.star then refuse
          return { seen with any := true } : Scan Seen)
    if ← sign? "," then
      if !((← seesSign ")") || (← seesSign ":")) then parameter typed now fuel

/-- The type of a parameter, if it may have one and has. -/
def typeOf (typed : Bool) : Nat → Scan Unit
  | 0 => refuse
  | fuel + 1 => do
    if ← pure typed <&&> sign? ":" then
      let _ ← expression fuel

/-- The innermost parts of expressions. -/
def atom : Nat → Scan Shape
  | 0 => refuse
  | fuel + 1 => do
    match ← next? with
    | some (.name "True") => do skip; return .other
    | some (.name "False") => do skip; return .other
    | some (.name "None") => do skip; return .other
    | some (.name _) => do
      let _ ← name
      return .name
    | some (.number _) => do skip; return .other
    | some (.quoted bytes _) => do
      quotedRun bytes fuel
      return .other
    | some (.sign "...") => do skip; return .other
    | some (.sign "(") => do
      skip
      parenthesised fuel
    | some (.sign "[") => do
      skip
      bracketed fuel
    | some (.sign "\x7b") => do
      skip
      braced fuel
    | _ => refuse

/-- Quoted texts side by side: all stand for bytes or none. -/
def quotedRun (bytes : Bool) : Nat → Scan Unit
  | 0 => refuse
  | fuel + 1 => do
    match ← next? with
    | some (.quoted b fields) => do
      if b ≠ bytes then refuse
      skip
      fieldsFit fields fuel
      quotedRun bytes fuel
    | _ => return ()

/-- The expressions in a quoted text are expressions. -/
def fieldsFit (fields : List (List Char)) : Nat → Scan Unit
  | 0 => refuse
  | fuel + 1 => do
    match fields with
    | [] => return ()
    | text :: rest => do
      let some ts := tokensInside text | refuse
      let outer ← get
      set ts
      let _ ← starExpressions fuel
      if !(← get).isEmpty then refuse
      set outer
      fieldsFit rest fuel

/-- After an opening parenthesis. -/
def parenthesised : Nat → Scan Shape
  | 0 => refuse
  | fuel + 1 => do
    if ← sign? ")" then return .tuple []
    if ← seesWord "yield" then
      let _ ← yielded fuel
      sign ")"
      return .other
    let (items, comma) ← sequence (starNamed fuel) fuel
    match items, comma with
    | [.starred _], false => refuse
    | [s], false =>
      if ← seesFor then
        clauses fuel
        sign ")"
        return .other
      else
        sign ")"
        return .group s
    | _, _ => do
      sign ")"
      return .tuple items

/-- After an opening bracket. -/
def bracketed : Nat → Scan Shape
  | 0 => refuse
  | fuel + 1 => do
    if ← sign? "]" then return .list []
    let (items, comma) ← sequence (starNamed fuel) fuel
    match items, comma with
    | [.starred _], false => do
      sign "]"
      return .list items
    | [_], false =>
      if ← seesFor then
        clauses fuel
        sign "]"
        return .other
      else
        sign "]"
        return .list items
    | _, _ => do
      sign "]"
      return .list items

/-- After an opening brace. -/
def braced : Nat → Scan Shape
  | 0 => refuse
  | fuel + 1 => do
    if ← sign? "\x7d" then return .other
    match ← attempt (entry fuel) with
    | some starred => do
      if !starred && (← seesFor) then clauses fuel
      else entries fuel
      sign "\x7d"
      return .other
    | none => do
      let (items, comma) ← sequence (starNamed fuel) fuel
      match items, comma with
      | [.starred _], false => pure ()
      | [_], false => if ← seesFor then clauses fuel
      | _, _ => pure ()
      sign "\x7d"
      return .other

/-- An entry of a mapping: a key and a value, or a starred mapping; whether it
is the latter. -/
def entry : Nat → Scan Bool
  | 0 => refuse
  | fuel + 1 => do
    if ← sign? "**" then
      let _ ← operand fuel
      return true
    else
      let _ ← expression fuel
      sign ":"
      let _ ← expression fuel
      return false

/-- Further entries of a mapping. -/
def entries : Nat → Scan Unit
  | 0 => refuse
  | fuel + 1 => do
    if ← sign? "," then
      if !(← seesSign "\x7d") then
        let _ ← entry fuel
        entries fuel
end

end Expression

end Routebook.Code
