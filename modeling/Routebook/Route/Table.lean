/-
  Routebook.Route.Table

  The route table: for every method with an action the verbs it answers to,
  the pattern of its path and the target it leads to, in the order of the
  classes and their methods.
-/
import Routebook.Handbook.Markdown
import Routebook.Route.Pattern
import Routebook.Route.Target

namespace Routebook

/-- A route. -/
structure Route where
  verbs : List Verb
  pattern : String
  target : String
  deriving DecidableEq, Repr

namespace Route

/-- The verbs of an action that is not restricted. -/
def standardVerbs : List Verb := [.post, .get, .put, .patch, .delete, .head, .options]

/-- The route of a method, if it is an action. -/
def ofMethod? (base name : String) (bag : Bag) : Option Route :=
  (Handbook.action? bag).map fun a =>
    ⟨(Handbook.verbs? bag).getD standardVerbs, patternOf a.path, base ++ "/" ++ name⟩

/-- The routes of a class under the name it is known by. -/
def ofClass (lead className : String) (c : ClassModel MethodModel) : List Route :=
  c.methods.filterMap fun m => ofMethod? (targetOf className lead) m.1 m.2.bag

/-- The routes of all classes. -/
def table (lead : String) (objects : Entries (ClassModel MethodModel)) : List Route :=
  objects.flatMap fun e => ofClass lead e.1 e.2

end Route

end Routebook
