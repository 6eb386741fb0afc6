/-
  Routebook.Model.Decode

  Models from data.  Keys that no field takes are passed over; a tag in a bag
  is read as the kind it declares, and its faults are reported as one.
-/
import Routebook.Failure
import Routebook.Model.Basic
import Routebook.Tag.Decode

namespace Routebook.Model

/-- Read an object for a model; anything else is no such model. -/
def object (model : String) (read : Entries Value → Checked α) : Value → Checked α
  | .object fields => read fields
  | _ => .fault (.notAModel model)

/-- The data of a tag of one kind, as part of a model. -/
def tagOf (kind : Kind) (read : Entries Value → Checked α) : Value → Checked α :=
  object kind.name (Tag.nested kind read)

/-- Null, or something. -/
def optional (read : Value → Checked α) : Value → Checked (Option α)
  | .null => .ok none
  | v => Checked.map some (read v)

/-- A tag of the kind it declares. -/
def anyTag : Value → Checked Tag
  | .object fields =>
    match Entries.get? "kind" fields with
    | none => .fault .noKind
    | some declared =>
      let found : Option Kind :=
        match declared with
        | .string name => Kind.ofName? name
        | _ => none
      match found with
      | some kind => (Tag.decodeNested kind fields).under (.key kind.name)
      | none => .fault (.unknownKind declared.text)
  | _ => .fault .notTagData

/-- The membership of a group. -/
def group : Value → Checked Group := tagOf .group Tag.decodeGroup

/-- The description of a group. -/
def groupDescription : Value → Checked Description :=
  tagOf (.description .groupDescription) (Tag.decodeDescription .groupDescription)

/-- An auth tag of a group. -/
def groupAuth : Value → Checked Param := tagOf (.param .groupAuth) (Tag.decodeParam .groupAuth)

/-- A bag. -/
def bag : Value → Checked Bag := Field.object (Field.list anyTag)

/-- A group info. -/
def groupInfo : Value → Checked GroupInfo :=
  object "GroupInfo" fun data =>
    GroupInfo.mk <$> Field.withDefault data "api_group" none (optional group)
      <*> Field.withDefault data "api_group_description" none (optional groupDescription)
      <*> Field.withDefault data "api_group_auth" [] (Field.object groupAuth)

/-- A property. -/
def property : Value → Checked PropertyModel :=
  object "PropertyAnnotation" fun data =>
    PropertyModel.mk <$> Field.required data "name" Field.string
      <*> Field.withDefault data "annotations" [] bag

/-- A method. -/
def method : Value → Checked MethodModel :=
  object "MethodAnnotation" fun data =>
    MethodModel.mk <$> Field.required data "name" Field.string
      <*> Field.withDefault data "annotations" [] bag
      <*> Field.withDefault data "group_info" GroupInfo.empty groupInfo

/-- The name under which faults of a class model are reported. -/
def className : String := "ObjectAnnotation"

/-- A class model. -/
def ofClass : Value → Checked (ClassModel MethodModel) :=
  object className fun data =>
    ClassModel.mk <$> Field.required data "class_name" Field.string
      <*> Field.withDefault data "group_info" GroupInfo.empty groupInfo
      <*> Field.withDefault data "methods" [] (Field.object method)
      <*> Field.withDefault data "properties" [] (Field.object property)

/-- The name under which faults of a merged group are reported. -/
def mergedName : String := "MergedGroup"

/-- A merged group. -/
def ofMerged : Value → Checked (MergedGroup MethodModel) :=
  object mergedName fun data =>
    MergedGroup.mk <$> Field.required data "name" Field.string
      <*> Field.withDefault data "description" none (optional groupDescription)
      <*> Field.withDefault data "auth" [] (Field.object groupAuth)
      <*> Field.withDefault data "methods" [] (Field.list method)

/-- A class model, or why there is none. -/
def readClass (v : Value) : Outcome (ClassModel MethodModel) := (ofClass v).toOutcome className

/-- A merged group, or why there is none. -/
def readMerged (v : Value) : Outcome (MergedGroup MethodModel) := (ofMerged v).toOutcome mergedName

end Routebook.Model
