/-
  Routebook.Controller.Define

  Making classes from class statements.  The stacks above a class are made
  first, then its bases are looked up, then its body runs, and last the order
  of the classes above it is settled.  A later member of a name takes the
  place of the first one in the order of the class.
-/
import Routebook.Controller.Basic
import Routebook.Controller.Order

namespace Routebook

/-- A class whose body is running. -/
structure Body where
  world : World
  bindings : Entries Binding
  hints : Entries Hinted

namespace Body

/-- Bind a name. -/
def bind (body : Body) (name : String) (b : Binding) : Body :=
  { body with bindings := Entries.put name b body.bindings }

end Body

/-- Where the statements of a class body look names up. -/
structure Surroundings where
  moduleName : String
  globals : Entries Binding
  /-- Hints are kept as texts. -/
  postponed : Bool

/-- The hint of an attribute when its class body runs.  A type cannot be given
metadata that is empty. -/
def Hint.settle (hint : Hint) (s : Surroundings) (world : World) (own : Entries Binding) :
    Outcome Hinted :=
  match hint with
  | .plain => .ok (.settled [])
  | .tagged [] => if s.postponed then .ok (.settled []) else .error .wrongType
  | .optional [] => if s.postponed then .ok (.settled []) else .error .wrongType
  | .tagged specs =>
    if s.postponed then .ok (.later specs true) else (TagSpec.metadata specs).map .settled
  | .optional specs =>
    if s.postponed then .ok (.later specs false)
    else (TagSpec.metadata specs).map fun _ => .settled []
  | .named name =>
    if s.postponed then .ok (.text name)
    else
      match lookup? [own, s.globals] name with
      | some b => .ok (.settled (b.tags world))
      | none => .error .missingName
  | .quoted specs => .ok (if s.postponed then .settled [] else .later specs true)
  | .text t => .ok (if s.postponed then .settled [] else .text t)

/-- Look the bases of a class up. -/
def basesOf (scopes : List (Entries Binding)) (names : List String) : Outcome (List Binding) :=
  names.mapM fun n =>
    match lookup? scopes n with
    | some b => .ok b
    | none => .error .missingName

/-- The name of the class above all others. -/
def rootClass : String := "builtins.object"

/-- Whether some class made elsewhere is given twice, or the one above all
others stands in front of another one. -/
def misplaced : List Binding → Bool
  | [] => false
  | .foreign key :: rest =>
    (rest.any fun b => match b with | .foreign k => k == key | _ => false) ||
      (key == rootClass && !rest.isEmpty) || misplaced rest
  | _ :: rest => misplaced rest

/-- The classes above a class with the given bases. -/
def ancestorsOf (world : World) (bases : List Binding) : Outcome (List ClassId) :=
  let isClass : Binding → Bool
    | .controller _ => true
    | .foreign _ => true
    | _ => false
  let ids := bases.filterMap fun b =>
    match b with
    | .controller id => some id
    | _ => none
  let orders := ids.map fun id => id :: ((world[id]?).map Controller.ancestors).getD []
  if !bases.all isClass || misplaced bases || ids.eraseDups.length ≠ ids.length then
    .error .wrongType
  else
    match Order.above ids orders with
    | some order => .ok order
    | none => .error .wrongType

mutual
/-- Run one member of a class body; `path` is the name of the class. -/
def Member.run (s : Surroundings) (path : String) (body : Body) : Member → Outcome Body
  | .function name layers =>
    (TagSpec.written layers).map fun tags => body.bind name (.function tags)
  | .wrapped name layers =>
    (TagSpec.written layers).map fun tags => body.bind name (.wrapped tags)
  | .property name layers =>
    (TagSpec.written layers).map fun tags => body.bind name (.property tags)
  | .getterless name tag =>
    match tag with
    | none => .ok (body.bind name (.property []))
    | some spec => do
      let _ ← TagSpec.stack [spec]
      .error (.tag .noHolder)
  | .value name => .ok (body.bind name .other)
  | .same name other =>
    match lookup? [body.bindings, s.globals] other with
    | some b => .ok (body.bind name b)
    | none => .error .missingName
  | .nested decl => do
    let (world, id) ← decl.make s (path ++ ".") body.bindings body.world
    .ok ({ body with world := world }.bind decl.name (.controller id))
  | .annotated name hint assigned => do
    -- The value is bound before the hint is looked at.
    let body := if assigned then body.bind name .other else body
    let hinted ← hint.settle s body.world body.bindings
    .ok { body with hints := Entries.put name hinted body.hints }

/-- Run the members of a class body. -/
def Member.runAll (s : Surroundings) (path : String) (body : Body) : List Member → Outcome Body
  | [] => .ok body
  | m :: rest => do
    let body ← m.run s path body
    Member.runAll s path body rest

/-- Make a class; `lead` is what its name is put behind, `around` what the
names around it are bound to. -/
def ClassDecl.make (s : Surroundings) (lead : String) (around : Entries Binding) (world : World) :
    ClassDecl → Outcome (World × ClassId)
  | .mk name bases layers members => do
    -- The tags above a class are made before its bases are looked up.
    let tags ← TagSpec.written layers
    let bases ← basesOf [around, s.globals] bases
    let body ← Member.runAll s (lead ++ name) ⟨world, [], []⟩ members
    let ancestors ← ancestorsOf body.world bases
    let made : Controller :=
      ⟨s.moduleName, lead ++ name, tags, ancestors, body.bindings, body.hints⟩
    .ok (body.world ++ [made], body.world.length)
end

end Routebook
