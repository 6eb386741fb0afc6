/-
  Routebook.Tag.Encode

  The fields of a tag as free values, in declaration order.  This is what is
  stored, and what reading takes back.
-/
import Routebook.Tag.Basic

namespace Routebook

/-- The fields of an action. -/
def Api.fields (a : Api) : Entries Value :=
  [("kind", .string "Api"), ("name", .string a.name), ("path", .string a.path),
   ("version", .string a.version), ("description", .string a.description),
   ("deprecated", .bool a.deprecated)]

/-- The fields of a description. -/
def Description.fields (kind : DescriptionKind) (d : Description) : Entries Value :=
  [("kind", .string kind.name), ("value", d.value), ("type", .string d.type.name)]

/-- The fields of a group membership. -/
def Group.fields (g : Group) : Entries Value :=
  [("kind", .string "ApiGroup"), ("group_name", .string g.groupName)]

/-- The fields of a parameter. -/
def Param.fields (kind : ParamKind) (p : Param) : Entries Value :=
  [("kind", .string kind.name), ("name", .string p.name),
   ("from_", .array (p.sources.map fun s => .string s.name)), ("type", .string p.type),
   ("description", .string p.description), ("default", p.default),
   ("deprecated", .bool p.deprecated), ("validate_rules", .object p.rules)]

/-- The fields of a circuit breaker. -/
def CircuitBreaker.fields (b : CircuitBreaker) : Entries Value :=
  [("kind", .string "CircuitBreaker"), ("timeout", .float b.timeout),
   ("fail_action", match b.failAction with | some s => .string s | none => .null)]

/-- The fields of a parameter injection. -/
def InjectParams.fields (i : InjectParams) : Entries Value :=
  [("kind", .string "InjectParamsContext"), ("key", .string i.key),
   ("only_param_tag", .bool i.onlyParamTag), ("filter_null", .bool i.filterNull),
   ("filter_empty", .bool i.filterEmpty)]

/-- The fields of a tag. -/
def Tag.fields : Tag → Entries Value
  | .api a => a.fields
  | .description k d => d.fields k
  | .group g => g.fields
  | .param k p => p.fields k
  | .method allow =>
    [("kind", .string "Method"), ("allow", .array (allow.map fun v => .string v.name))]
  | .circuitBreaker b => b.fields
  | .context key => [("kind", .string "Context"), ("key", .string key)]
  | .di key => [("kind", .string "Di"), ("key", .string key)]
  | .injectParamsContext i => i.fields

end Routebook
