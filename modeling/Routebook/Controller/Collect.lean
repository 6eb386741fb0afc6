/-
  Routebook.Controller.Collect

  The model of a class from its tags.  A class lies in the group of its first
  group tag, or in the default group.  A method lies in the group of its own
  first group tag, or in that of its class; in the group of the class it takes
  the class's description and auth tags, elsewhere its own description.  Its
  own auth tags come last and replace those of the same name.
-/
import Routebook.Controller.Reflect
import Routebook.Model.Basic

namespace Routebook.Collect

/-- The first group tag. -/
def group? (tags : List Tag) : Option Group :=
  tags.findSome? fun t => match t with | .group g => some g | _ => none

/-- The first description of a group. -/
def description? (tags : List Tag) : Option Description :=
  tags.findSome? fun t =>
    match t with | .description .groupDescription d => some d | _ => none

/-- The auth tags of a group. -/
def auth (tags : List Tag) : List Param :=
  tags.filterMap fun t => match t with | .param .groupAuth p => some p | _ => none

/-- Whether a tag says something of a group, not of a method. -/
def concernsGroup (t : Tag) : Bool :=
  match t with
  | .group _ => true
  | .description .groupDescription _ => true
  | .param .groupAuth _ => true
  | _ => false

/-- The default group, unless its name is empty. -/
def defaultGroup (name : String) : Outcome Group :=
  if name = "" then
    .error (.tag (.fields .group [.mk [.key "group_name"] .emptyString]))
  else .ok ⟨name⟩

/-- The group info of a class. -/
def classGroup (default : String) (tags : List Tag) : Outcome GroupInfo := do
  let group ←
    match group? tags with
    | some g => pure g
    | none => defaultGroup default
  return GroupInfo.setAuth (auth tags) ⟨some group, description? tags, []⟩

/-- Store auth tags, each under its own name, from the first to the last. -/
def addAll (g : GroupInfo) (ps : List Param) : GroupInfo :=
  ps.foldl (fun g p => g.addAuth p) g

/-- The group info of a method of a class. -/
def methodGroup (home : GroupInfo) (tags : List Tag) : GroupInfo :=
  let group :=
    match group? tags with
    | some g => some g
    | none => home.group
  let base : GroupInfo :=
    -- In the group of its class a method starts from what the class says of it.
    if group.map Group.groupName = home.groupName? then
      addAll ⟨group, home.description, []⟩ (Entries.values home.auth)
    else ⟨group, description? tags, []⟩
  addAll base (auth tags)

/-- The model of a method of a class. -/
def method (home : GroupInfo) (name : String) (tags : List Tag) : MethodModel :=
  ⟨name, Bag.ofTags (tags.filter fun t => !concernsGroup t), methodGroup home tags⟩

/-- The model of a property. -/
def property (name : String) (tags : List Tag) : PropertyModel := ⟨name, Bag.ofTags tags⟩

/-- The tags among what is attached. -/
def tagsOf (attached : List Attached) : List Tag := attached.filterMap Attached.tag?

/-- The model of a class; `default` names the default group. -/
def model (default key : String) (classTags : List Attached) (owners : List Owner)
    (publicOnly : Bool) : Outcome (ClassModel MethodModel) := do
  let home ← classGroup default (tagsOf classTags)
  let properties ← Reflect.properties publicOnly owners
  return {
    className := key
    group := home
    methods := Entries.ofPairs
      ((Reflect.methods publicOnly owners).map fun e => (e.1, method home e.1 (tagsOf e.2)))
    properties := Entries.ofPairs (properties.map fun e => (e.1, property e.1 (tagsOf e.2))) }

end Routebook.Collect
