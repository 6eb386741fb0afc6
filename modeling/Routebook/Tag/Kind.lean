/-
  Routebook.Tag.Kind

  The closed catalog of tag kinds, in the order in which it lists them, and
  the two closed vocabularies tags use: where a parameter comes from and the
  HTTP verbs of an action.
-/

namespace Routebook

/-- The kinds whose data is a text, a list or an object, or names a file. -/
inductive DescriptionKind where
  | description
  | requestExample
  | success
  | fail
  | groupDescription
  deriving DecidableEq, Repr

/-- The kinds that describe one named parameter with its rules. -/
inductive ParamKind where
  | param
  | auth
  | groupAuth
  | successParam
  | failParam
  deriving DecidableEq, Repr

/-- The kinds of tags. -/
inductive Kind where
  | api
  | description (k : DescriptionKind)
  | group
  | param (k : ParamKind)
  | method
  | circuitBreaker
  | context
  | di
  | injectParamsContext
  deriving DecidableEq, Repr

/-- The name of a description-like kind. -/
def DescriptionKind.name : DescriptionKind → String
  | .description => "ApiDescription"
  | .requestExample => "ApiRequestExample"
  | .success => "ApiSuccess"
  | .fail => "ApiFail"
  | .groupDescription => "ApiGroupDescription"

/-- The name of a param-like kind. -/
def ParamKind.name : ParamKind → String
  | .param => "Param"
  | .auth => "ApiAuth"
  | .groupAuth => "ApiGroupAuth"
  | .successParam => "ApiSuccessParam"
  | .failParam => "ApiFailParam"

namespace Kind

/-- The name of a kind. -/
def name : Kind → String
  | .api => "Api"
  | .description k => k.name
  | .group => "ApiGroup"
  | .param k => k.name
  | .method => "Method"
  | .circuitBreaker => "CircuitBreaker"
  | .context => "Context"
  | .di => "Di"
  | .injectParamsContext => "InjectParamsContext"

/-- All kinds, in catalog order. -/
def catalog : List Kind :=
  [.api, .param .auth, .description .description, .description .fail, .param .failParam, .group,
   .param .groupAuth, .description .groupDescription, .description .requestExample,
   .param .successParam, .description .success, .circuitBreaker, .context, .di,
   .injectParamsContext, .method, .param .param]

/-- The kind of a name. -/
def ofName? (s : String) : Option Kind := catalog.find? (·.name == s)

theorem ofName?_name (k : Kind) : ofName? k.name = some k := by
  cases k with
  | description d => cases d <;> decide
  | param p => cases p <;> decide
  | _ => decide

theorem name_inj {k l : Kind} (h : k.name = l.name) : k = l := by
  have hk := ofName?_name k
  rw [h, ofName?_name l] at hk
  exact (Option.some.inj hk).symm

end Kind

/-- Where a request parameter comes from. -/
inductive Source where
  | get | post | put | delete | cookie | header | file | di | context | raw
  deriving DecidableEq, Repr

namespace Source

/-- All sources, in the order messages list them. -/
def all : List Source := [.get, .post, .put, .delete, .cookie, .header, .file, .di, .context, .raw]

/-- The upper-case name of a source. -/
def name : Source → String
  | .get => "GET"
  | .post => "POST"
  | .put => "PUT"
  | .delete => "DELETE"
  | .cookie => "COOKIE"
  | .header => "HEADER"
  | .file => "FILE"
  | .di => "DI"
  | .context => "CONTEXT"
  | .raw => "RAW"

/-- The source of an upper-case name. -/
def ofName? (s : String) : Option Source := all.find? (·.name == s)

theorem ofName?_name (x : Source) : ofName? x.name = some x := by cases x <;> decide

end Source

/-- An HTTP verb of an action. -/
inductive Verb where
  | get | post | put | patch | delete | head | options
  deriving DecidableEq, Repr

namespace Verb

/-- All verbs, in the order messages list them. -/
def all : List Verb := [.get, .post, .put, .patch, .delete, .head, .options]

/-- The upper-case name of a verb. -/
def name : Verb → String
  | .get => "GET"
  | .post => "POST"
  | .put => "PUT"
  | .patch => "PATCH"
  | .delete => "DELETE"
  | .head => "HEAD"
  | .options => "OPTIONS"

/-- The verb of an upper-case name. -/
def ofName? (s : String) : Option Verb := all.find? (·.name == s)

theorem ofName?_name (x : Verb) : ofName? x.name = some x := by cases x <;> decide

end Verb

end Routebook
