/-
  Routebook.Controller.Basic

  Controller classes once they are made, and what names are bound to in
  classes and modules.  Classes are known by their numbers in the world of
  all classes made so far.
-/
import Routebook.Controller.Syntax

namespace Routebook

/-- The number of a class. -/
abbrev ClassId := Nat

/-- What a name is bound to. -/
inductive Binding where
  | controller (id : ClassId)
  /-- A class made elsewhere, under its full name. -/
  | foreign (key : String)
  | function (tags : List Attached)
  /-- A function that is bound to no instance, or to the class. -/
  | wrapped (tags : List Attached)
  | property (tags : List Attached)
  | module (name : String)
  /-- Anything else. -/
  | other

/-- The hint of an attribute once its class is made. -/
inductive Hinted where
  /-- Nothing is left to be evaluated. -/
  | settled (tags : List Attached)
  /-- A type with metadata, to be evaluated in the module of the class; the
  tags count only if the type is not one of several alternatives. -/
  | later (metadata : List TagSpec) (counts : Bool)
  /-- A text to be evaluated in the module of the class. -/
  | text (text : String)

/-- A controller class. -/
structure Controller where
  moduleName : String
  qualName : String
  /-- The tags above the class statement. -/
  tags : List Attached
  /-- The classes that a name is looked up in after the class itself. -/
  ancestors : List ClassId
  /-- What the names in the class are bound to. -/
  bindings : Entries Binding
  /-- The annotated attributes and their hints. -/
  hints : Entries Hinted

/-- The name a class is collected under. -/
def Controller.key (c : Controller) : String := c.moduleName ++ "." ++ c.qualName

/-- All classes made so far; a class's number is its place. -/
abbrev World := List Controller

/-- The bindings of modules by their names. -/
abbrev Globals := Entries (Entries Binding)

/-- Whether a name is one of the built-in classes. -/
def isBuiltinClass (name : String) : Bool :=
  ["object", "dict", "list", "tuple", "set", "frozenset", "str", "bytes", "bytearray", "int",
   "float", "complex", "bool", "type", "property", "staticmethod", "classmethod", "super",
   "BaseException", "Exception", "ValueError", "TypeError", "KeyError", "NameError",
   "RuntimeError", "ImportError", "OSError", "AttributeError", "LookupError", "IndexError",
   "ArithmeticError", "ZeroDivisionError", "enumerate", "filter", "map", "range", "reversed",
   "slice", "zip", "memoryview"].contains name

/-- Whether a name is built in at all. -/
def isBuiltin (name : String) : Bool :=
  isBuiltinClass name ||
    ["abs", "all", "any", "ascii", "bin", "callable", "chr", "compile", "delattr", "dir",
     "divmod", "eval", "exec", "format", "getattr", "globals", "hasattr", "hash", "hex", "id",
     "input", "isinstance", "issubclass", "iter", "len", "locals", "max", "min", "next", "oct",
     "open", "ord", "pow", "print", "repr", "round", "setattr", "sorted", "sum", "vars",
     "Ellipsis", "NotImplemented", "__name__", "__debug__", "__import__"].contains name

/-- What a built-in name is bound to. -/
def builtin? (name : String) : Option Binding :=
  if isBuiltinClass name then some (.foreign ("builtins." ++ name))
  else if isBuiltin name then some .other
  else none

/-- The innermost binding of a name. -/
def lookup? (scopes : List (Entries Binding)) (name : String) : Option Binding :=
  match scopes with
  | [] => builtin? name
  | scope :: outer =>
    match Entries.get? name scope with
    | some b => some b
    | none => lookup? outer name

/-- The tags to be read from what a name is bound to. -/
def Binding.tags (world : World) : Binding → List Attached
  | .controller id => ((world[id]?).map Controller.tags).getD []
  | .function tags => tags
  | .wrapped tags => tags
  | .property tags => tags
  | _ => []

end Routebook
