/-
  Routebook.Controller.Syntax

  How modules of controller classes are written down: statements at the top
  of a module, members of a class, and the hints of annotated attributes.
-/
import Routebook.Tag.Stack

namespace Routebook

/-- The hint of an annotated attribute. -/
inductive Hint where
  /-- An ordinary type. -/
  | plain
  /-- A type with metadata. -/
  | tagged (metadata : List TagSpec)
  /-- A type with metadata, as an alternative to nothing. -/
  | optional (metadata : List TagSpec)
  /-- The class of a name. -/
  | named (name : String)
  /-- The quoted text of a type with metadata. -/
  | quoted (metadata : List TagSpec)
  /-- A quoted text. -/
  | text (text : String)

mutual
/-- A member of a class. -/
inductive Member where
  /-- A function under its stacks. -/
  | function (name : String) (layers : List (List TagSpec))
  /-- A function that is bound to no instance, or to the class. -/
  | wrapped (name : String) (layers : List (List TagSpec))
  /-- A property with a getter. -/
  | property (name : String) (layers : List (List TagSpec))
  /-- A property without a getter, possibly with a tag above it. -/
  | getterless (name : String) (tag : Option TagSpec)
  /-- A plain value. -/
  | value (name : String)
  /-- What another name stands for. -/
  | same (name other : String)
  /-- A class inside the class. -/
  | nested (decl : ClassDecl)
  /-- An annotated attribute, possibly with a value. -/
  | annotated (name : String) (hint : Hint) (assigned : Bool)

/-- A class statement. -/
inductive ClassDecl where
  | mk (name : String) (bases : List String) (layers : List (List TagSpec))
      (members : List Member)
end

/-- The name of a class statement. -/
def ClassDecl.name : ClassDecl → String
  | .mk name _ _ _ => name

/-- The exceptions a module may stop with. -/
inductive Stop where
  | raised (message : String)
  | badValue (message : String)
  | wrongType
  | missingKey
  | missingName
  | zeroDivision
  | notImportable
  | noModule
  | malformedSource
  | noSuchFile
  | isDirectory
  | badPath

/-- What a name is bound to by an assignment. -/
inductive Expr where
  | name (name : String)
  | number

/-- A statement at the top of a module. -/
inductive Item where
  /-- A class statement; one that stands inside a condition is not at the top level. -/
  | define (decl : ClassDecl) (topLevel : Bool)
  | importFrom (name module : String)
  | assign (name : String) (value : Expr)
  | delete (name : String)
  | stop (why : Stop)

/-- A module: its statements, and whether its hints are postponed. -/
structure Program where
  items : List Item
  postponed : Bool

/-- The names of the class statements at the top level, repeated ones included. -/
def Program.declaredNames (p : Program) : List String :=
  p.items.filterMap fun item =>
    match item with
    | .define decl true => some decl.name
    | _ => none

end Routebook
