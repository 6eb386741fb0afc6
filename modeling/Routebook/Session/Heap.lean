/-
  Routebook.Session.Heap

  Models that are shared.  A model and each of its methods have a number, and
  whoever holds the number sees every later change; merged groups hold the
  numbers of their methods.
-/
import Routebook.Merge

namespace Routebook

/-- The number of a method. -/
abbrev MethodId := Nat

/-- The number of a class model. -/
abbrev ModelId := Nat

/-- All methods and class models made so far; a number is a place. -/
structure Heap where
  methods : List MethodModel
  models : List (ClassModel MethodId)

namespace Heap

/-- Nothing is made yet. -/
def empty : Heap := ⟨[], []⟩

/-- The method of a number. -/
def method (h : Heap) (id : MethodId) : MethodModel := (h.methods[id]?).getD (MethodModel.empty "")

/-- A model without anything. -/
def blankModel : ClassModel MethodId := ⟨"", GroupInfo.empty, [], []⟩

/-- The class model of a number, its methods by their numbers. -/
def held (h : Heap) (id : ModelId) : ClassModel MethodId := (h.models[id]?).getD blankModel

/-- The class model of a number. -/
def model (h : Heap) (id : ModelId) : ClassModel MethodModel := (h.held id).mapMethods h.method

/-- Add a method. -/
def addMethod (h : Heap) (m : MethodModel) : Heap × MethodId :=
  ({ h with methods := h.methods ++ [m] }, h.methods.length)

/-- Change a method. -/
def setMethod (h : Heap) (id : MethodId) (m : MethodModel) : Heap :=
  { h with methods := h.methods.set id m }

/-- Number some methods from a first number on. -/
def numbered (first : Nat) : Entries MethodModel → Entries MethodId
  | [] => []
  | (name, _) :: rest => (name, first) :: numbered (first + 1) rest

/-- Add a class model. -/
def add (h : Heap) (c : ClassModel MethodModel) : Heap × ModelId :=
  let held : ClassModel MethodId :=
    ⟨c.className, c.group, numbered h.methods.length c.methods, c.properties⟩
  (⟨h.methods ++ Entries.values c.methods, h.models ++ [held]⟩, h.models.length)

/-- Change a class model. -/
def modifyModel (h : Heap) (id : ModelId) (f : ClassModel MethodId → ClassModel MethodId) : Heap :=
  { h with models := h.models.set id (f (h.held id)) }

/-- Add merged groups. -/
def addMethods (h : Heap) (ms : List MethodModel) : Heap × List MethodId :=
  ({ h with methods := h.methods ++ ms }, (List.range ms.length).map (· + h.methods.length))

/-- Add a merged group. -/
def addMerged (h : Heap) (g : MergedGroup MethodModel) : Heap × MergedGroup MethodId :=
  let (h, ids) := h.addMethods g.methods
  (h, ⟨g.name, g.description, g.auth, ids⟩)

/-- A merged group as it is now. -/
def merged (h : Heap) (g : MergedGroup MethodId) : MergedGroup MethodModel := g.mapMethods h.method

/-- Merge class models.  Their methods are completed where they are, so all
who hold them see it. -/
def merge (h : Heap) (default : String) (ids : List ModelId) :
    Heap × Entries (MergedGroup MethodId) :=
  let shells := Merge.shells default (ids.map h.model)
  let methods := Merge.allMethods (ids.map h.held)
  -- The shells are settled before the first method is completed.
  let h' := methods.foldl
    (fun acc id => acc.setMethod id (Merge.complete default shells (acc.method id))) h
  (h',
    Merge.place (fun id => (h'.method id).group.groupName default) (Merge.unplaced shells) methods)

end Heap

end Routebook
