/-
  Routebook.Model.Encode

  Models as free values, fields in declaration order and every default
  written.  This is what is stored, and what reading takes back.
-/
import Routebook.Model.Basic
import Routebook.Tag.Encode

namespace Routebook.Model

/-- A value, or null. -/
def orNull (f : α → Value) : Option α → Value
  | some a => f a
  | none => .null

/-- The data of an auth tag. -/
def authData (p : Param) : Value := .object (p.fields .groupAuth)

/-- The data of the description of a group. -/
def descriptionData (d : Description) : Value := .object (d.fields .groupDescription)

/-- The data of a bag. -/
def bagData (b : Bag) : Value :=
  .object (Entries.mapValues (fun tags => .array (tags.map fun t => .object t.fields)) b)

/-- The data of a group info. -/
def groupData (g : GroupInfo) : Value :=
  .object
    [("api_group", orNull (fun x => .object (Group.fields x)) g.group),
     ("api_group_description", orNull descriptionData g.description),
     ("api_group_auth", .object (Entries.mapValues authData g.auth))]

/-- The data of a property. -/
def propertyData (p : PropertyModel) : Value :=
  .object [("name", .string p.name), ("annotations", bagData p.bag)]

/-- The data of a method. -/
def methodData (m : MethodModel) : Value :=
  .object
    [("name", .string m.name), ("annotations", bagData m.bag), ("group_info", groupData m.group)]

/-- The data of a class model. -/
def classData (c : ClassModel MethodModel) : Value :=
  .object
    [("class_name", .string c.className), ("group_info", groupData c.group),
     ("methods", .object (Entries.mapValues methodData c.methods)),
     ("properties", .object (Entries.mapValues propertyData c.properties))]

/-- The data of a merged group. -/
def mergedData (g : MergedGroup MethodModel) : Value :=
  .object
    [("name", .string g.name), ("description", orNull descriptionData g.description),
     ("auth", .object (Entries.mapValues authData g.auth)),
     ("methods", .array (g.methods.map methodData))]

end Routebook.Model
