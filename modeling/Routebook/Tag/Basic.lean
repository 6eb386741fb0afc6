/-
  Routebook.Tag.Basic

  Tags as they are after reading: every field has its type, closed
  vocabularies are closed types, and only the free parts (the data of a
  description, a default, the values of rules) stay free values.
-/
import Routebook.Value
import Routebook.Tag.Kind

namespace Routebook

/-- An action: a method that answers requests. -/
structure Api where
  name : String
  path : String
  version : String
  description : String
  deprecated : Bool
  deriving DecidableEq

/-- What the value of a description is. -/
inductive ContentType where
  /-- The content itself. -/
  | text
  /-- The name of a file that holds the content. -/
  | file
  deriving DecidableEq, Repr

/-- The word for a content type. -/
def ContentType.name : ContentType → String
  | .text => "text"
  | .file => "file"

/-- Free text, free data or a file reference. -/
structure Description where
  value : Value
  type : ContentType

/-- Membership of a group. -/
structure Group where
  groupName : String
  deriving DecidableEq

/-- A named parameter with its sources and rules. -/
structure Param where
  name : String
  sources : List Source
  type : String
  description : String
  default : Value
  deprecated : Bool
  rules : Entries Value

/-- Limits of a call that may fail. -/
structure CircuitBreaker where
  timeout : Double
  failAction : Option String
  deriving DecidableEq

/-- How parameters are injected into the context. -/
structure InjectParams where
  key : String
  onlyParamTag : Bool
  filterNull : Bool
  filterEmpty : Bool
  deriving DecidableEq

/-- A tag of one of the catalog's kinds. -/
inductive Tag where
  | api (api : Api)
  | description (kind : DescriptionKind) (description : Description)
  | group (group : Group)
  | param (kind : ParamKind) (param : Param)
  | method (allow : List Verb)
  | circuitBreaker (breaker : CircuitBreaker)
  | context (key : String)
  | di (key : String)
  | injectParamsContext (inject : InjectParams)

/-- The kind of a tag. -/
def Tag.kind : Tag → Kind
  | .api _ => .api
  | .description k _ => .description k
  | .group _ => .group
  | .param k _ => .param k
  | .method _ => .method
  | .circuitBreaker _ => .circuitBreaker
  | .context _ => .context
  | .di _ => .di
  | .injectParamsContext _ => .injectParamsContext

/-! ## Equality

Rules and the keys of free objects may stand in any order.  The flag tells
whether a NaN counts as equal to a NaN, as it does for a value that is shared. -/

/-- Equal types and equal values. -/
def Description.same (nanToo : Bool) (a b : Description) : Bool :=
  a.type == b.type && a.value.sameWith nanToo b.value

/-- Equal fields; the order of rules does not count. -/
def Param.same (nanToo : Bool) (a b : Param) : Bool :=
  a.name == b.name && a.sources == b.sources && a.type == b.type &&
    a.description == b.description && a.deprecated == b.deprecated &&
    a.default.sameWith nanToo b.default &&
    (Value.object a.rules).sameWith nanToo (.object b.rules)

/-- Equal kinds and equal fields. -/
def Tag.same (nanToo : Bool) : Tag → Tag → Bool
  | .api a, .api b => a == b
  | .description k a, .description l b => k == l && a.same nanToo b
  | .group a, .group b => a == b
  | .param k a, .param l b => k == l && a.same nanToo b
  | .method a, .method b => a == b
  | .circuitBreaker a, .circuitBreaker b =>
    (a.timeout.sameNumber b.timeout || (nanToo && a.timeout == b.timeout)) &&
      a.failAction == b.failAction
  | .context a, .context b => a == b
  | .di a, .di b => a == b
  | .injectParamsContext a, .injectParamsContext b => a == b
  | _, _ => false

end Routebook
