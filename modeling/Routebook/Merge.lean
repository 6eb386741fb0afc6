/-
  Routebook.Merge

  Merging class models into groups, in two passes.

  The first pass builds the shells of the groups.  A class enters its group:
  its description replaces the one there, its auth tags are added under names
  that are new.  A method that lies in another group than its class enters
  that group: its auth tags are added in the same way, its description fills
  the group only while there is none.

  The second pass places every method in its group and gives it the auth tags
  of the group that it lacks.
-/
import Routebook.Model.Basic

namespace Routebook.Merge

/-- A group before its methods are placed. -/
structure Shell where
  description : Option Description
  auth : Entries Param

/-- The shells of groups by their names. -/
abbrev Shells := Entries Shell

namespace Shell

/-- A group of which nothing is known. -/
def empty : Shell := ⟨none, []⟩

/-- Add auth tags under names that are new. -/
def addAuth (ps : List Param) (s : Shell) : Shell :=
  { s with auth := ps.foldl (fun m p => Entries.putNew p.name p m) s.auth }

/-- Replace the description, if there is one to replace it with. -/
def describe (d : Option Description) (s : Shell) : Shell :=
  match d with
  | some d => { s with description := some d }
  | none => s

/-- Fill in a description where there is none. -/
def fillIn (d : Option Description) (s : Shell) : Shell :=
  match s.description with
  | some _ => s
  | none => { s with description := d }

end Shell

/-! ## First pass -/

/-- Enter a group, which is made if it is new. -/
def enter (name : String) (f : Shell → Shell) (shells : Shells) : Shells :=
  Entries.modify name f (Entries.putNew name Shell.empty shells)

/-- A class enters its group. -/
def enterClass (name : String) (g : GroupInfo) : Shells → Shells :=
  enter name fun s => (s.describe g.description).addAuth (Entries.values g.auth)

/-- A method enters its group, unless that is the group of its class. -/
def enterMethod (default home : String) (shells : Shells) (m : MethodModel) : Shells :=
  let name := m.group.groupName default
  -- Its class has entered that group already.
  if name = home then shells
  else
    enter name (fun s => (s.addAuth (Entries.values m.group.auth)).fillIn m.group.description)
      shells

/-- A class and its methods enter their groups. -/
def enterAll (default : String) (shells : Shells) (c : ClassModel MethodModel) : Shells :=
  let home := c.group.groupName default
  (Entries.values c.methods).foldl (enterMethod default home) (enterClass home c.group shells)

/-- The shells of all groups. -/
def shells (default : String) (classes : List (ClassModel MethodModel)) : Shells :=
  classes.foldl (enterAll default) []

/-! ## Second pass -/

/-- Give a method the auth tags it lacks. -/
def backfill (auth : Entries Param) (m : MethodModel) : MethodModel :=
  { m with
    group := { m.group with
      auth :=
        (Entries.values auth).foldl (fun own p => Entries.putNew p.name p own) m.group.auth } }

/-- The auth tags of a group. -/
def authOf (shells : Shells) (name : String) : Entries Param :=
  ((Entries.get? name shells).map Shell.auth).getD []

/-- Give a method the auth tags of its group that it lacks. -/
def complete (default : String) (shells : Shells) (m : MethodModel) : MethodModel :=
  backfill (authOf shells (m.group.groupName default)) m

/-- The groups before any method is placed. -/
def unplaced (shells : Shells) : Entries (MergedGroup μ) :=
  shells.map fun e => (e.1, ⟨e.1, e.2.description, e.2.auth, []⟩)

/-- Place methods, one after the other, in the groups they are named by. -/
def place (nameOf : μ → String) (groups : Entries (MergedGroup μ)) (methods : List μ) :
    Entries (MergedGroup μ) :=
  methods.foldl
    (fun acc m => Entries.modify (nameOf m) (fun g => { g with methods := g.methods ++ [m] }) acc)
    groups

/-- All methods of some classes, in order. -/
def allMethods (classes : List (ClassModel μ)) : List μ :=
  classes.flatMap fun c => Entries.values c.methods

/-! ## Merging -/

/-- What merging makes of the classes: their methods are completed. -/
def completed (default : String) (objects : Entries (ClassModel MethodModel)) :
    Entries (ClassModel MethodModel) :=
  let all := shells default (Entries.values objects)
  Entries.mapValues (fun c => c.mapMethods (complete default all)) objects

/-- The groups of classes whose methods are completed. -/
def groups (default : String) (objects : Entries (ClassModel MethodModel)) :
    Entries (MergedGroup MethodModel) :=
  let all := shells default (Entries.values objects)
  place (fun m => m.group.groupName default) (unplaced all)
    (allMethods (Entries.values (completed default objects)))

end Routebook.Merge
