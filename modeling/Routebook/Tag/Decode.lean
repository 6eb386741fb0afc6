/-
  Routebook.Tag.Decode

  Tags from given data.  Faults are reported in field order, keys that no
  field takes come last, in the order given.  Param-like kinds take every key
  that is not a field as a rule; truth values among the rules are kept as the
  words `true` and `false`.
-/
import Routebook.Tag.Basic
import Routebook.Tag.Field
import Routebook.Text.Upper

namespace Routebook

namespace Tag

/-- The `kind` given with the data, if any, must be the name of the kind. -/
def kindField (kind : Kind) (data : Entries Value) : Checked Unit :=
  match Entries.get? "kind" data with
  | none => .ok ()
  | some (.string s) =>
    if s = kind.name then .ok () else .faulty [.mk [.key "kind"] (.notOneOf [kind.name])]
  | some _ => .faulty [.mk [.key "kind"] (.notOneOf [kind.name])]

/-! ## Closed vocabularies -/

/-- The items of a source or verb list: nothing for a value that does not
hold, one item for a string, the keys of an object. -/
def listedItems (v : Value) : Checked (List Value) :=
  if !v.holds then .ok []
  else
    match v with
    | .string s => .ok [.string s]
    | .array items => .ok items
    | .object fields => .ok (fields.map fun e => .string e.1)
    | _ => .wrongType

/-- The member of a vocabulary that an item names, whatever its case. -/
def member (what : String) (allowed : List String) (ofName? : String → Option α) (v : Value) :
    Checked α :=
  if v.hasLongInt then .fault (.refused .tooManyDigits)
  else
    let word := Text.upper v.text
    match ofName? word with
    | some a => .ok a
    | none => .fault (.refused (.unsupported what word allowed))

/-- The members that the items name, each once, in order of first mention;
the first item that names none ends the reading. -/
def members [BEq α] (read : Value → Checked α) : List α → List Value → Checked (List α)
  | acc, [] => .ok acc
  | acc, v :: vs =>
    (read v).andThen fun a => members read (if acc.contains a then acc else acc ++ [a]) vs

/-- A list of parameter sources. -/
def sourceList (v : Value) : Checked (List Source) :=
  (listedItems v).andThen
    (members (member "param source" (Source.all.map Source.name) Source.ofName?) [])

/-- A list of HTTP verbs, at least one. -/
def verbList (v : Value) : Checked (List Verb) :=
  ((listedItems v).andThen
    (members (member "HTTP method" (Verb.all.map Verb.name) Verb.ofName?) [])).andThen fun verbs =>
      if verbs.isEmpty then .fault (.refused .noVerb) else .ok verbs

/-! ## Rules of param-like kinds -/

/-- Whether a value can be the key of a rule at all. -/
def canBeKey : Value → Bool
  | .array _ => false
  | .object _ => false
  | _ => true

/-- Store a rule under a key of any scalar type. -/
def putRule (key value : Value) : List (Value × Value) → List (Value × Value)
  | [] => [(key, value)]
  | (k, v) :: rest => if k.same key then (k, value) :: rest else (k, v) :: putRule key value rest

/-- The pair that one item of a rule sequence stands for. -/
def rulePair (position : Nat) (item : Value) : Checked (Value × Value) :=
  let parts? : Option (List Value) :=
    match item with
    | .string s => some (s.toList.map fun c => .string (String.ofList [c]))
    | .array items => some items
    | .object fields => some (fields.map fun e => .string e.1)
    | _ => none
  match parts? with
  | none => .wrongType
  | some [k, v] => if canBeKey k then .ok (k, v) else .wrongType
  | some parts => .fault (.refused (.notAPair position parts.length))

/-- Rules given as a sequence of pairs. -/
def ruleSequence (acc : List (Value × Value)) : Nat → List Value → Checked (List (Value × Value))
  | _, [] => .ok acc
  | i, item :: rest =>
    (rulePair i item).andThen fun p => ruleSequence (putRule p.1 p.2 acc) (i + 1) rest

/-- The rules given explicitly: an object, a sequence of pairs, or nothing. -/
def givenRules (v : Value) : Checked (List (Value × Value)) :=
  if !v.holds then .ok []
  else
    match v with
    | .object fields => .ok (fields.map fun e => (.string e.1, e.2))
    | .array items => ruleSequence [] 0 items
    | .string s => ruleSequence [] 0 (s.toList.map fun c => .string (String.ofList [c]))
    | _ => .wrongType

/-- The fields of a param-like kind; `from` may also be written `from_`. -/
def paramFields : List String :=
  ["kind", "name", "from_", "type", "description", "default", "deprecated", "validate_rules",
   "from"]

/-- The given rules followed by every key that is no field, in the order given. -/
def collectRules (data : Entries Value) : Checked (List (Value × Value)) :=
  Checked.map
    (fun given =>
      (data.filter fun e => !paramFields.contains e.1).foldl
        (fun acc e => putRule (.string e.1) e.2 acc) given)
    (givenRules ((Entries.get? "validate_rules" data).getD .null))

/-- The step that leads to a rule whose key is no string. -/
def ruleStep : Value → Step
  | .string s => .key s
  | .bool b => .index (if b then 1 else 0)
  | .int n => if Field.fitsWord n then .index n else .key (toString n)
  | v => .key v.literal

/-- A rule as it is kept: truth values become words. -/
def literalRule : Value → Value
  | .bool b => .string (if b then "true" else "false")
  | v => v

/-- Rules under string keys, ready to be kept. -/
def checkRules : List (Value × Value) → Checked (Entries Value)
  | [] => .ok []
  | (k, v) :: rest =>
    let this : Checked (String × Value) :=
      match k with
      | .string s => .ok (s, literalRule v)
      | _ => .faulty [.mk [.key "validate_rules", ruleStep k, .key "[key]"] .notAString]
    Checked.seq (Checked.map List.cons this) (checkRules rest)

/-- The sources, under whichever of the two keys is used. -/
def sourcesField (data : Entries Value) : Checked (List Source) :=
  if Entries.has "from" data then Field.withDefault data "from" [] sourceList
  else Field.withDefault data "from_" [] sourceList

/-- With `from` given, `from_` is a key that no field takes. -/
def oneSourceKey (data : Entries Value) : Checked Unit :=
  if Entries.has "from" data && Entries.has "from_" data then
    .faulty [.mk [.key "from_"] .unexpected]
  else .ok ()

/-! ## The kinds -/

/-- The data of an action. -/
def decodeApi (data : Entries Value) : Checked Api :=
  kindField .api data *>
  (Api.mk <$> Field.required data "name" Field.string
    <*> Field.required data "path" Field.string
    <*> Field.withDefault data "version" "1.0.0" Field.string
    <*> Field.withDefault data "description" "" Field.string
    <*> Field.withDefault data "deprecated" false Field.bool)
  <* Field.noOthers data ["kind", "name", "path", "version", "description", "deprecated"]

/-- A string, a list or an object; anything else is none of the three. -/
def contentValue : Value → Checked Value
  | .string s => .ok (.string s)
  | .array items => .ok (.array items)
  | .object fields => .ok (.object fields)
  | _ => .faulty
      [.mk [.key "str"] .notAString, .mk [.key "list[any]"] .notAList,
       .mk [.key "dict[any,any]"] .notAnObject]

/-- The word for a content type. -/
def contentType : Value → Checked ContentType
  | .string "text" => .ok .text
  | .string "file" => .ok .file
  | _ => .fault (.notOneOf ["text", "file"])

/-- The data of a description-like kind. -/
def decodeDescription (kind : DescriptionKind) (data : Entries Value) : Checked Description :=
  kindField (.description kind) data *>
  (Description.mk <$> Field.withDefault data "value" (.string "") contentValue
    <*> Field.withDefault data "type" .text contentType)
  <* Field.noOthers data ["kind", "value", "type"]

/-- The data of a group membership. -/
def decodeGroup (data : Entries Value) : Checked Group :=
  kindField .group data *>
  (Group.mk <$> Field.required data "group_name" Field.nonEmptyString)
  <* Field.noOthers data ["kind", "group_name"]

/-- The data of a param-like kind. -/
def decodeParam (kind : ParamKind) (data : Entries Value) : Checked Param :=
  (collectRules data).andThen fun rules =>
    -- The rules are gathered first, so what is wrong with that is reported alone.
    kindField (.param kind) data *>
    (Param.mk <$> Field.required data "name" Field.string
      <*> sourcesField data
      <*> Field.withDefault data "type" "" Field.string
      <*> Field.withDefault data "description" "" Field.string
      <*> Field.withDefault data "default" .null Field.any
      <*> Field.withDefault data "deprecated" false Field.bool
      <*> checkRules rules)
    <* oneSourceKey data

/-- The data of a verb list. -/
def decodeMethod (data : Entries Value) : Checked (List Verb) :=
  kindField .method data *> Field.required data "allow" verbList
  <* Field.noOthers data ["kind", "allow"]

/-- The data of a circuit breaker. -/
def decodeCircuitBreaker (data : Entries Value) : Checked CircuitBreaker :=
  kindField .circuitBreaker data *>
  (CircuitBreaker.mk <$>
      Field.withDefault data "timeout" (Double.ofRatio false 3 1) Field.positiveNumber
    <*> Field.withDefault data "fail_action" none Field.optionalString)
  <* Field.noOthers data ["kind", "timeout", "fail_action"]

/-- The data of a kind that only has a key. -/
def decodeKey (kind : Kind) (data : Entries Value) : Checked String :=
  kindField kind data *> Field.required data "key" Field.nonEmptyString
  <* Field.noOthers data ["kind", "key"]

/-- The data of a parameter injection. -/
def decodeInjectParams (data : Entries Value) : Checked InjectParams :=
  kindField .injectParamsContext data *>
  (InjectParams.mk <$> Field.withDefault data "key" "INJECT_PARAMS" Field.string
    <*> Field.withDefault data "only_param_tag" true Field.bool
    <*> Field.withDefault data "filter_null" false Field.bool
    <*> Field.withDefault data "filter_empty" false Field.bool)
  <* Field.noOthers data ["kind", "key", "only_param_tag", "filter_null", "filter_empty"]

/-- The tag of a kind with the given fields. -/
def decodeFields (kind : Kind) (data : Entries Value) : Checked Tag :=
  match kind with
  | .api => Tag.api <$> decodeApi data
  | .description k => Tag.description k <$> decodeDescription k data
  | .group => Tag.group <$> decodeGroup data
  | .param k => Tag.param k <$> decodeParam k data
  | .method => Tag.method <$> decodeMethod data
  | .circuitBreaker => Tag.circuitBreaker <$> decodeCircuitBreaker data
  | .context => Tag.context <$> decodeKey .context data
  | .di => Tag.di <$> decodeKey .di data
  | .injectParamsContext => Tag.injectParamsContext <$> decodeInjectParams data

/-- The name that no field of a tag may have. -/
def reservedKey : String := "self"

/-- Read the fields of a tag; the reserved name among them is a type error. -/
def guarded (read : Entries Value → Checked α) (data : Entries Value) : Checked α :=
  if Entries.has reservedKey data then .wrongType else read data

/-- The tag of a kind with the given fields. -/
def decode (kind : Kind) (data : Entries Value) : Checked Tag := guarded (decodeFields kind) data

/-- The fields of a tag as part of something else: all their faults become one. -/
def nested (kind : Kind) (read : Entries Value → Checked α) (data : Entries Value) : Checked α :=
  match guarded read data with
  | .faulty faults => .fault (.invalidTag kind faults)
  | other => other

/-- The tag of a kind as part of something else. -/
def decodeNested (kind : Kind) (data : Entries Value) : Checked Tag :=
  nested kind (decodeFields kind) data

end Tag

end Routebook
