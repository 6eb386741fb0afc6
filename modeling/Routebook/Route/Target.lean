/-
  Routebook.Route.Target

  Targets: where a route leads, as a path made from a class name.  A dot and
  a backslash both separate the segments of a name; a namespace in front is
  dropped only when it matches whole segments and leaves some.
-/

namespace Routebook.Route

/-- What separates the segments of a name. -/
def isSeparator (c : Char) : Bool := c == '.' || c == '\x5c'

/-- The segments of a name: the runs between separators that are not empty. -/
def segments : List Char → List (List Char)
  | [] => []
  | c :: cs =>
    if isSeparator c then segments cs
    else
      match cs with
      | [] => [[c]]
      | d :: _ =>
        if isSeparator d then [c] :: segments cs
        else
          match segments cs with
          | [] => [[c]]
          | s :: rest => (c :: s) :: rest

/-- The segments of a target for a class in a namespace. -/
def targetSegments (name lead : List (List Char)) : List (List Char) :=
  if lead ≠ [] ∧ lead.length < name.length ∧ name.take lead.length = lead then
    name.drop lead.length
  else name

/-- A path that starts with a slash. -/
def slashed (parts : List (List Char)) : List Char :=
  '/' :: ['/'].intercalate parts

/-- The target of a class name under a namespace. -/
def targetOf (className lead : String) : String :=
  String.ofList (slashed (targetSegments (segments className.toList) (segments lead.toList)))

end Routebook.Route
