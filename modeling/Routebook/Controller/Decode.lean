/-
  Routebook.Controller.Decode

  Modules of controller classes from data: an object for every statement,
  member and hint.  Data of another shape stands for nothing.
-/
import Routebook.Controller.Syntax

namespace Routebook.Program

/-- What stands where a tag is expected: a kind with its fields, a plain value
under `other`, a kind of its own under `custom`. -/
def tagSpec (v : Value) : TagSpec :=
  match v with
  | .array [.string kind, data] => .make kind data.asObject
  | .object fs =>
    match Entries.get? "other" fs, Entries.get? "custom" fs with
    | some plain, _ => .plain plain
    | none, some kind => .bare kind.asString
    | none, none => .plain v
  | _ => .plain v

/-- A list of tags. -/
def tagSpecs (v : Value) : List TagSpec := v.asArray.map tagSpec

/-- Stacks of tags. -/
def layers (v : Value) : List (List TagSpec) := v.asArray.map tagSpecs

/-- The metadata of a type that has some already; neither may be empty. -/
def joined (inner outer : List TagSpec) : List TagSpec :=
  if inner.isEmpty || outer.isEmpty then [] else inner ++ outer

/-- The hint of an attribute. -/
def hint (v : Value) : Hint :=
  match (v.field "h").asString with
  | "annotated" => .tagged (tagSpecs (v.field "meta"))
  | "nested" => .tagged (joined (tagSpecs (v.field "inner")) (tagSpecs (v.field "meta")))
  | "optional" => .optional (tagSpecs (v.field "meta"))
  | "class" => .named ((v.field "name").asString)
  | "string" => .quoted (tagSpecs (v.field "meta"))
  | "text" => .text ((v.field "text").asString)
  | _ => .plain

mutual
/-- The members of a class, if some object has them in its fields. -/
def membersIn : List (String × Value) → List Member
  | [] => []
  | (key, v) :: rest => if key = "members" then memberList v else membersIn rest

/-- A list of members. -/
def memberList : Value → List Member
  | .array vs => memberItems vs
  | _ => []

/-- Members, one after the other. -/
def memberItems : List Value → List Member
  | [] => []
  | v :: vs => member v :: memberItems vs

/-- A member of a class. -/
def member : Value → Member
  | .object fs =>
    let get := fun key => (Entries.get? key fs).getD .null
    let name := (get "name").asString
    let tags := layers (get "tags")
    let all := tags ++ layers (get "inner")
    match (get "m").asString with
    | "def" => .function name tags
    | "lambda" => .function name []
    | "static" => .wrapped name all
    | "classm" => .wrapped name all
    | "property" => .property name all
    | "property_none" => .getterless name none
    | "property_none_tagged" => .getterless name (some (tagSpec (get "tag")))
    | "alias" => .same name ((get "of").asString)
    | "class" => .nested (.mk name ((get "bases").asArray.map Value.asString) tags (membersIn fs))
    | "attr" => .annotated name (hint (get "hint")) (get "value").holds
    | _ => .value name
  | _ => .value ""
end

/-- A class statement under the given name. -/
def classDecl (name : String) (v : Value) : ClassDecl :=
  .mk name ((v.field "bases").asArray.map Value.asString) (layers (v.field "tags"))
    (membersIn v.asObject)

/-- The exception a module stops with. -/
def stop (name message : String) : Stop :=
  match name with
  | "ValueError" => .badValue message
  | "TypeError" => .wrongType
  | "KeyError" => .missingKey
  | "NameError" => .missingName
  | "ZeroDivisionError" => .zeroDivision
  | "ImportError" => .notImportable
  | "ModuleNotFoundError" => .noModule
  | "SyntaxError" => .malformedSource
  | "FileNotFoundError" => .noSuchFile
  | "IsADirectoryError" => .isDirectory
  | "OSError" => .badPath
  | _ => .raised message

/-- The right-hand side of an assignment. -/
def expr (s : String) : Expr :=
  if s ≠ "" ∧ s.toList.all Char.isDigit then .number else .name s

/-- A statement. -/
def item (v : Value) : Item :=
  let fs := v.asObject
  if Entries.has "class" fs then
    .define (classDecl ((v.field "class").asString) v) (!(v.field "in_if").holds)
  else if Entries.has "import" fs then
    .importFrom ((v.field "import").asString) ((v.field "from").asString)
  else if Entries.has "assign" fs then
    .assign ((v.field "assign").asString) (expr ((v.field "value").asString))
  else if Entries.has "del" fs then .delete ((v.field "del").asString)
  else .stop (stop ((v.field "raise").asString) ((v.field "message").asString))

/-- A module. -/
def ofData (v : Value) : Program := ⟨(v.field "items").asArray.map item, (v.field "future").holds⟩

end Routebook.Program
