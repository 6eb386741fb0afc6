/-
  Routebook.Model.Basic

  What is known of controller classes once their tags are collected: the
  group of a class and of each of its methods, and the tags of its methods
  and properties.  Merging many classes gives groups of methods.
-/
import Routebook.Tag.Bag

namespace Routebook

/-- The group of a class or a method: membership, description, auth by name. -/
structure GroupInfo where
  group : Option Group
  description : Option Description
  auth : Entries Param

namespace GroupInfo

/-- No group at all. -/
def empty : GroupInfo := ⟨none, none, []⟩

/-- The name of the group, if there is one. -/
def groupName? (g : GroupInfo) : Option String := g.group.map Group.groupName

/-- The name of the group; without one, or with an empty one, the default. -/
def groupName (default : String) (g : GroupInfo) : String :=
  match g.groupName? with
  | some name => if name = "" then default else name
  | none => default

/-- Store an auth tag under its own name. -/
def addAuth (p : Param) (g : GroupInfo) : GroupInfo :=
  { g with auth := Entries.put p.name p g.auth }

/-- Replace all auth tags. -/
def setAuth (ps : List Param) (g : GroupInfo) : GroupInfo :=
  { g with auth := Entries.ofPairs (ps.map fun p => (p.name, p)) }

end GroupInfo

/-- The tags of a property or an attribute. -/
structure PropertyModel where
  name : String
  bag : Bag

/-- The tags of a method and its group. -/
structure MethodModel where
  name : String
  bag : Bag
  group : GroupInfo

/-- What is collected from one class; `μ` is what stands for a method. -/
structure ClassModel (μ : Type) where
  className : String
  group : GroupInfo
  methods : Entries μ
  properties : Entries PropertyModel

/-- One group after merging; `μ` is what stands for a method. -/
structure MergedGroup (μ : Type) where
  name : String
  description : Option Description
  auth : Entries Param
  methods : List μ

namespace PropertyModel

/-- A property without tags. -/
def empty (name : String) : PropertyModel := ⟨name, []⟩

end PropertyModel

namespace MethodModel

/-- A method without tags and group. -/
def empty (name : String) : MethodModel := ⟨name, [], GroupInfo.empty⟩

end MethodModel

namespace ClassModel

variable {μ ν : Type}

/-- Change what stands for a method. -/
def mapMethods (f : μ → ν) (c : ClassModel μ) : ClassModel ν :=
  ⟨c.className, c.group, Entries.mapValues f c.methods, c.properties⟩

end ClassModel

namespace MergedGroup

variable {μ ν : Type}

/-- Change what stands for a method. -/
def mapMethods (f : μ → ν) (g : MergedGroup μ) : MergedGroup ν :=
  ⟨g.name, g.description, g.auth, g.methods.map f⟩

end MergedGroup

/-! ## Equality

The order of named things does not count, the order of lists does.  A NaN
counts as equal to a NaN, because models share the tags they were made from. -/

/-- Equality of optional things. -/
def sameOption (same : α → α → Bool) : Option α → Option α → Bool
  | none, none => true
  | some a, some b => same a b
  | _, _ => false

/-- Equality of lists, item by item. -/
def sameList (same : α → α → Bool) : List α → List α → Bool
  | [], [] => true
  | a :: as, b :: bs => same a b && sameList same as bs
  | _, _ => false

/-- Equality of named things, whatever their order. -/
def sameEntries (same : α → α → Bool) (m n : Entries α) : Bool :=
  m.length == n.length &&
    m.all fun e => (Entries.get? e.1 n).any fun b => same e.2 b

/-- Equality of bags. -/
def Bag.same (a b : Bag) : Bool := sameEntries (sameList (Tag.same true)) a b

/-- Equality of group infos. -/
def GroupInfo.same (a b : GroupInfo) : Bool :=
  a.group == b.group && sameOption (Description.same true) a.description b.description &&
    sameEntries (Param.same true) a.auth b.auth

/-- Equality of properties. -/
def PropertyModel.same (a b : PropertyModel) : Bool := a.name == b.name && Bag.same a.bag b.bag

/-- Equality of methods. -/
def MethodModel.same (a b : MethodModel) : Bool :=
  a.name == b.name && Bag.same a.bag b.bag && a.group.same b.group

/-- Equality of class models. -/
def ClassModel.same (a b : ClassModel MethodModel) : Bool :=
  a.className == b.className && a.group.same b.group &&
    sameEntries MethodModel.same a.methods b.methods &&
    sameEntries PropertyModel.same a.properties b.properties

/-- Equality of merged groups. -/
def MergedGroup.same (a b : MergedGroup MethodModel) : Bool :=
  a.name == b.name && sameOption (Description.same true) a.description b.description &&
    sameEntries (Param.same true) a.auth b.auth && sameList MethodModel.same a.methods b.methods

end Routebook
