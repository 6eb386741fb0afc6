/-
  Routebook.Controller.Reflect

  The methods and properties of a class: for every name the first class along
  the order of lookup that has it decides.  Names that begin and end with two
  underscores are left out, and so are, on demand, all that begin with one.
-/
import Routebook.Controller.HintText

namespace Routebook

/-- One class along the order of lookup. -/
structure Owner where
  bindings : Entries Binding
  /-- The tags of the annotated attributes, once their hints are evaluated. -/
  hints : Outcome (Entries (List Attached))

/-- Whether a name is reserved for the language of classes. -/
def isReserved (name : String) : Bool := name.startsWith "__" && name.endsWith "__"

/-- Whether a name is hidden from the public. -/
def isPrivate (name : String) : Bool := name.startsWith "_"

namespace Reflect

/-- The tags of a binding that is a method. -/
def methodTags? : Binding → Option (List Attached)
  | .function tags => some tags
  | .wrapped tags => some tags
  | _ => none

/-- Whether a name is reported at all. -/
def isReported (publicOnly : Bool) (name : String) : Bool :=
  !isReserved name && !(publicOnly && isPrivate name)

/-- The methods among some bindings whose names are not seen yet. -/
def methodsIn (publicOnly : Bool) (seen : List String) (bindings : Entries Binding) :
    Entries (List Attached) :=
  bindings.filterMap fun e =>
    if seen.contains e.1 || !isReported publicOnly e.1 then none
    else (methodTags? e.2).map fun tags => (e.1, tags)

/-- The methods of a class, own ones first; `seen` holds the names met. -/
def methodsFrom (publicOnly : Bool) (seen : List String) : List Owner → Entries (List Attached)
  | [] => []
  | o :: rest =>
    methodsIn publicOnly seen o.bindings ++
      -- Every name of the class is met, whatever it is bound to.
      methodsFrom publicOnly (seen ++ Entries.keys o.bindings) rest

/-- The methods of a class. -/
def methods (publicOnly : Bool) (owners : List Owner) : Entries (List Attached) :=
  methodsFrom publicOnly [] owners

/-- The properties of one class: members first, then annotated attributes. -/
def declared (o : Owner) : Outcome (Entries (List Attached)) := do
  let hints ← o.hints
  let properties := o.bindings.filterMap fun e =>
    match e.2 with
    | .property tags => some (e.1, tags)
    | _ => none
  return properties ++ hints

/-- Report the names that are neither seen nor reserved; all of them are seen
from then on. -/
def unseen (publicOnly : Bool) :
    List String → Entries (List Attached) → List String × Entries (List Attached)
  | seen, [] => (seen, [])
  | seen, (name, tags) :: rest =>
    if seen.contains name || isReserved name then unseen publicOnly seen rest
    else
      let (seen', more) := unseen publicOnly (seen ++ [name]) rest
      -- A hidden name is met all the same, and hides those of the classes above.
      (seen', if publicOnly && isPrivate name then more else (name, tags) :: more)

/-- The properties of a class, own ones first; `seen` holds the names met. -/
def propertiesFrom (publicOnly : Bool) (seen : List String) :
    List Owner → Outcome (Entries (List Attached))
  | [] => .ok []
  | o :: rest => do
    let found ← declared o
    let (seen', own) := unseen publicOnly seen found
    let more ← propertiesFrom publicOnly seen' rest
    return own ++ more

/-- The properties of a class. -/
def properties (publicOnly : Bool) (owners : List Owner) : Outcome (Entries (List Attached)) :=
  propertiesFrom publicOnly [] owners

end Reflect

/-! ## Owners of a class -/

/-- What a text must hold to be evaluated as a hint. -/
def hintMark : String := "Annotated"

/-- Whether a text holds the mark of a hint. -/
def holdsMark (text : String) : Bool := (text.splitOn hintMark).length > 1

/-- The tags of a hint, where `globals` is what the module of the class holds,
if it is known. -/
def Hinted.tags (world : World) (own : Entries Binding) (globals : Option (Entries Binding)) :
    Hinted → Outcome (List Attached)
  | .settled tags => .ok tags
  | .later specs counts =>
    if globals.isNone then .ok []
    else
      HintText.passOver ((TagSpec.metadata specs).map fun tags => if counts then tags else [])
  | .text t => if holdsMark t then HintText.tags world own globals t else .ok []

/-- The owner that a class is. -/
def Controller.owner (world : World) (globals : Globals) (c : Controller) : Owner :=
  ⟨c.bindings,
   c.hints.mapM fun e =>
     (e.2.tags world c.bindings (Entries.get? c.moduleName globals)).map fun tags => (e.1, tags)⟩

/-- The owners along the order of lookup of a class. -/
def Controller.owners (world : World) (globals : Globals) (c : Controller) : List Owner :=
  (c :: c.ancestors.filterMap fun i => world[i]?).map (Controller.owner world globals)

end Routebook
