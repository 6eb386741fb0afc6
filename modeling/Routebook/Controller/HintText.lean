/-
  Routebook.Controller.HintText

  Quoted hints: a small language of expressions with names, attributes,
  subscripts, calls, quotients, alternatives and choices.  A hint whose
  evaluation meets a missing name, a wrong type or a mistake of spelling has
  no tags; any other failure is passed on.
-/
import Routebook.Controller.Basic

namespace Routebook.HintText

/-! ## Tokens -/

/-- A token of a hint. -/
inductive Tok where
  | name (s : String)
  | number (n : Nat)
  | string (s : String)
  | mark (c : Char)
  deriving DecidableEq

/-- Characters a name may start with. -/
def isNameStart (c : Char) : Bool := c.isAlpha || c == '_' || decide (c.toNat ≥ 0x80)

/-- Characters of a name. -/
def isNameChar (c : Char) : Bool := isNameStart c || c.isDigit

/-- The tokens of a text; `fuel` bounds their number. -/
def tokens? : Nat → List Char → Option (List Tok)
  | 0, _ => none
  | fuel + 1, cs =>
    match cs with
    | [] => some []
    | c :: rest =>
      if c = ' ' || c = '\t' || c = '\x0c' then tokens? fuel rest
      else if c = '#' then (if rest.contains '\n' then none else some [])
      else if isNameStart c then
        let (word, rest') := cs.span isNameChar
        (tokens? fuel rest').map (.name (String.ofList word) :: ·)
      else if c.isDigit then
        let (ds, rest') := cs.span Char.isDigit
        let n := ds.foldl (fun n d => n * 10 + (d.toNat - 48)) 0
        (tokens? fuel rest').map (.number n :: ·)
      else if c = '\x27' || c = '\x22' then
        match rest.span (· != c) with
        | (body, _ :: rest') => (tokens? fuel rest').map (.string (String.ofList body) :: ·)
        | _ => none
      else if "()[].,/:\x7b\x7d".toList.contains c then (tokens? fuel rest).map (.mark c :: ·)
      else none

/-! ## Terms -/

/-- An expression. -/
inductive Term where
  | name (s : String)
  | number (n : Nat)
  | string (s : String)
  | nothing
  | emptyObject
  | list (items : List Term)
  | member (of : Term) (name : String)
  | subscript (of : Term) (items : List Term)
  | call (of : Term) (items : List Term)
  | quotient (a b : Term)
  | either (a b : Term)
  | choose (a condition b : Term)

mutual
/-- An expression, and what follows it. -/
def term? : Nat → List Tok → Option (Term × List Tok)
  | 0, _ => none
  | fuel + 1, ts => do
    let (a, rest) ← either? fuel ts
    match rest with
    | .name "if" :: rest' => do
      let (condition, rest'') ← either? fuel rest'
      match rest'' with
      | .name "else" :: rest''' => do
        let (b, tail) ← term? fuel rest'''
        some (.choose a condition b, tail)
      | _ => none
    | _ => some (a, rest)

/-- Alternatives. -/
def either? : Nat → List Tok → Option (Term × List Tok)
  | 0, _ => none
  | fuel + 1, ts => do
    let (a, rest) ← atom? fuel ts
    let (a, rest) ← behind? fuel a rest
    match rest with
    | .name "or" :: rest' => do
      let (b, tail) ← either? fuel rest'
      some (.either a b, tail)
    | .mark '/' :: rest' => do
      let (b, rest'') ← atom? fuel rest'
      let (b, tail) ← behind? fuel b rest''
      some (.quotient a b, tail)
    | _ => some (a, rest)

/-- What may stand behind an atom: attributes, subscripts and calls. -/
def behind? : Nat → Term → List Tok → Option (Term × List Tok)
  | 0, _, _ => none
  | fuel + 1, a, ts =>
    match ts with
    | .mark '.' :: .name n :: rest => behind? fuel (.member a n) rest
    | .mark '.' :: _ => none
    | .mark '[' :: rest => do
      let (items, rest') ← items? fuel ']' rest
      if items.isEmpty then none else behind? fuel (.subscript a items) rest'
    | .mark '(' :: rest => do
      let (items, rest') ← items? fuel ')' rest
      behind? fuel (.call a items) rest'
    | _ => some (a, ts)

/-- Expressions between commas up to a closing mark. -/
def items? : Nat → Char → List Tok → Option (List Term × List Tok)
  | 0, _, _ => none
  | fuel + 1, close, ts =>
    match ts with
    | .mark c :: rest =>
      if c = close then some ([], rest)
      else do
        let (a, rest') ← term? fuel ts
        more? fuel close a rest'
    | _ => do
      let (a, rest') ← term? fuel ts
      more? fuel close a rest'

/-- After an expression: the closing mark, or a comma and more. -/
def more? : Nat → Char → Term → List Tok → Option (List Term × List Tok)
  | 0, _, _, _ => none
  | fuel + 1, close, a, ts =>
    match ts with
    | .mark ',' :: rest => (items? fuel close rest).map fun r => (a :: r.1, r.2)
    | .mark c :: rest => if c = close then some ([a], rest) else none
    | _ => none

/-- A name, a number, a text, a bracketed expression, a list, an empty object. -/
def atom? : Nat → List Tok → Option (Term × List Tok)
  | 0, _ => none
  | fuel + 1, ts =>
    match ts with
    | .name "None" :: rest => some (.nothing, rest)
    | .name n :: rest =>
      if ["if", "else", "or", "and", "not", "in", "is", "lambda", "for", "True", "False"].contains n
      then none else some (.name n, rest)
    | .number n :: rest => some (.number n, rest)
    | .string s :: rest => some (.string s, rest)
    | .mark '(' :: rest => do
      let (a, rest') ← term? fuel rest
      match rest' with
      | .mark ')' :: tail => some (a, tail)
      | _ => none
    | .mark '[' :: rest => (items? fuel ']' rest).map fun r => (.list r.1, r.2)
    | .mark '\x7b' :: .mark '\x7d' :: rest => some (.emptyObject, rest)
    | _ => none
end

/-- The expression of a whole text. -/
def parse? (text : String) : Option Term := do
  let ts ← tokens? (text.length + 1) text.toList
  let (t, rest) ← term? (8 * ts.length + 8) ts
  if rest.isEmpty then some t else none

/-! ## Evaluation -/

/-- What an expression stands for. -/
inductive Meaning where
  | bound (b : Binding)
  | data (v : Value)
  /-- The module of type forms. -/
  | typing
  /-- The form of types with metadata. -/
  | annotatedForm
  /-- Anything without tags. -/
  | opaqueValue

/-- The name under which modules hold the type forms. -/
def typingName : String := "_ty"

/-- An integer from a text of decimal digits. -/
def integer? (s : String) : Option Int :=
  let cs := s.trimAscii.toString.toList
  let (negative, ds) :=
    match cs with
    | '-' :: r => (true, r)
    | '+' :: r => (false, r)
    | r => (false, r)
  if ds.isEmpty || !ds.all Char.isDigit then none
  else
    let n : Int := ds.foldl (fun n d => n * 10 + (d.toNat - 48)) 0
    some (if negative then -n else n)

/-- Calling what an expression stands for. -/
def callMeaning (f : Meaning) (items : List Meaning) : Outcome Meaning :=
  match f, items with
  | .bound (.foreign "builtins.int"), [.data (.string s)] =>
    -- Of all calls only this one depends on a text, and may fail by it.
    match integer? s with
    | some n => .ok (.data (.int n))
    | none =>
      .error (.badValue ("invalid literal for int() with base 10: " ++ Text.quoted s))
  | .data _, _ => .error .wrongType
  | .typing, _ => .error .wrongType
  | .annotatedForm, _ => .error .wrongType
  | _, _ => .ok .opaqueValue

/-- A subscript of what an expression stands for. -/
def subscriptMeaning (of : Meaning) (items : List Meaning) : Outcome Meaning :=
  match of, items with
  | .annotatedForm, .data (.int _) :: _ => .error .wrongType
  | .annotatedForm, _ :: _ :: _ => .ok .opaqueValue
  | .annotatedForm, _ => .error .wrongType
  | .data (.object _), _ => .error .missingKey
  | .data _, _ => .error .wrongType
  | .typing, _ => .error .wrongType
  | .bound (.foreign _), _ => .ok .opaqueValue
  | .bound _, _ => .error .wrongType
  | .opaqueValue, _ => .ok .opaqueValue

/-- The binding of a name in a class or the classes above it. -/
def memberOf? (world : World) (id : ClassId) (name : String) : Option Binding :=
  match world[id]? with
  | none => none
  | some c =>
    ((c :: c.ancestors.filterMap fun i => world[i]?).map Controller.bindings).findSome?
      (Entries.get? name)

/-- An attribute of what an expression stands for. -/
def memberMeaning (world : World) (of : Meaning) (name : String) : Outcome Meaning :=
  match of with
  | .typing =>
    if name = "Annotated" then .ok .annotatedForm
    else if ["Optional", "Union", "Any", "List", "Dict", "Literal", "ClassVar"].contains name then
      .ok .opaqueValue
    else .error .missingName
  | .bound (.controller id) =>
    match memberOf? world id name with
    | some b => .ok (.bound b)
    | none => .error .missingName
  | .opaqueValue => .ok .opaqueValue
  | _ => .error .missingName

mutual
/-- What an expression stands for where names have the given bindings. -/
def eval (world : World) (scopes : List (Entries Binding)) (typed : Bool) : Term → Outcome Meaning
  | .name n =>
    if typed && n = typingName then .ok .typing
    else
      match lookup? scopes n with
      | some b => .ok (.bound b)
      | none => .error .missingName
  | .number n => .ok (.data (.int n))
  | .string s => .ok (.data (.string s))
  | .nothing => .ok (.data .null)
  | .emptyObject => .ok (.data (.object []))
  | .list items => do
    let _ ← evalAll world scopes typed items
    .ok .opaqueValue
  | .member of name => do
    let m ← eval world scopes typed of
    memberMeaning world m name
  | .subscript of items => do
    let m ← eval world scopes typed of
    let ms ← evalAll world scopes typed items
    subscriptMeaning m ms
  | .call of items => do
    let m ← eval world scopes typed of
    let ms ← evalAll world scopes typed items
    callMeaning m ms
  | .quotient a b => do
    let x ← eval world scopes typed a
    let y ← eval world scopes typed b
    match x, y with
    | .data (.int _), .data (.int n) => if n = 0 then .error .zeroDivision else .ok .opaqueValue
    | _, _ => .error .wrongType
  | .either a b => do
    let x ← eval world scopes typed a
    match x with
    -- Only data may count as false; all else is true.
    | .data v => if v.holds then .ok x else eval world scopes typed b
    | _ => .ok x
  | .choose a condition b => do
    let c ← eval world scopes typed condition
    match c with
    | .data v => if v.holds then eval world scopes typed a else eval world scopes typed b
    | _ => eval world scopes typed a

/-- What expressions stand for, from the first to the last. -/
def evalAll (world : World) (scopes : List (Entries Binding)) (typed : Bool) :
    List Term → Outcome (List Meaning)
  | [] => .ok []
  | t :: ts => do
    let m ← eval world scopes typed t
    let ms ← evalAll world scopes typed ts
    .ok (m :: ms)
end

/-- The tags of a meaning. -/
def Meaning.tags (world : World) : Meaning → List Attached
  | .bound b => b.tags world
  | _ => []

/-- A failure that leaves a hint without tags. -/
def isPassedOver : Failure → Bool
  | .missingName => true
  | .wrongType => true
  | .malformedSource => true
  | _ => false

/-- An outcome in which the failures that leave a hint without tags are dropped. -/
def passOver (r : Outcome (List Attached)) : Outcome (List Attached) :=
  match r with
  | .ok tags => .ok tags
  | .error e => if isPassedOver e then .ok [] else .error e

/-- The tags of a quoted hint, where `globals` is what the module of the class
holds, if it is known. -/
def tags (world : World) (own : Entries Binding) (globals : Option (Entries Binding))
    (text : String) : Outcome (List Attached) :=
  match parse? text with
  | none => .ok []
  | some t =>
    passOver
      ((eval world [own, globals.getD []] globals.isSome t).map (Meaning.tags world))

end Routebook.HintText
