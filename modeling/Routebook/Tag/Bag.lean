/-
  Routebook.Tag.Bag

  Bags: the tags of one place by the name of their kind.  Kinds stand in the
  order of their first tag, tags of a kind in the order they are written.
-/
import Routebook.Entries
import Routebook.Tag.Basic

namespace Routebook

/-- Tags by the name of their kind. -/
abbrev Bag := Entries (List Tag)

namespace Bag

/-- Add one item under a name. -/
def add (name : String) (item : α) (bag : Entries (List α)) : Entries (List α) :=
  Entries.put name ((Entries.get? name bag).getD [] ++ [item]) bag

/-- Items by name, for any way of naming them. -/
def group (nameOf : α → String) (items : List α) : Entries (List α) :=
  items.foldl (fun bag item => add (nameOf item) item bag) []

/-- The bag of a list of tags. -/
def ofTags (tags : List Tag) : Bag := group (fun t => t.kind.name) tags

/-- All tags of a kind, in the order written. -/
def tags (bag : Bag) (name : String) : List Tag := (Entries.get? name bag).getD []

/-- The tag of a kind at a place; negative places count from the end. -/
def tag? (bag : Bag) (name : String) (place : Int) : Option Tag :=
  let all := tags bag name
  if place ≥ 0 then all[place.toNat]?
  else if -place ≤ all.length then all[all.length - (-place).toNat]?
  else none

/-- The first tag of a kind. -/
def first? (bag : Bag) (name : String) : Option Tag := (tags bag name).head?

end Bag

end Routebook
