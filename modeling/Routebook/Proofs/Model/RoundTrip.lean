/-
  Routebook.Proofs.Model.RoundTrip

  Models are read back from their own data: class models from what is stored
  (`ofClass_classData`), merged groups from what a report holds
  (`ofMerged_mergedData`).  What is asked of a model is what reading promises
  of one: its tags are in normal form.
-/
import Routebook.Model.Decode
import Routebook.Model.Encode
import Routebook.Model.Report
import Routebook.Proofs.Tag.RoundTrip
import Routebook.Proofs.Value

namespace Routebook

/-! ## Models whose tags are in normal form -/

/-- The group has a name, the description something to say, and the auth tags are in normal form. -/
structure GroupInfo.Valid (g : GroupInfo) : Prop where
  group : ∀ x ∈ g.group, x.groupName ≠ ""
  description : ∀ d ∈ g.description, d.value.isContent = true
  auth : ∀ e ∈ g.auth, e.2.Valid

instance (g : GroupInfo) : Decidable g.Valid :=
  decidable_of_iff ((∀ x ∈ g.group, x.groupName ≠ "") ∧
      (∀ d ∈ g.description, d.value.isContent = true) ∧ ∀ e ∈ g.auth, e.2.Valid)
    ⟨fun h => ⟨h.1, h.2.1, h.2.2⟩, fun h => ⟨h.1, h.2, h.3⟩⟩

/-- Every tag is in normal form. -/
def Bag.Valid (b : Bag) : Prop := ∀ e ∈ b, ∀ t ∈ e.2, t.Valid

instance (b : Bag) : Decidable b.Valid :=
  inferInstanceAs (Decidable (∀ e ∈ b, ∀ t ∈ e.2, t.Valid))

/-- The tags of a method and of its group are in normal form. -/
structure MethodModel.Valid (m : MethodModel) : Prop where
  bag : m.bag.Valid
  group : m.group.Valid

instance (m : MethodModel) : Decidable m.Valid :=
  decidable_of_iff (m.bag.Valid ∧ m.group.Valid) ⟨fun h => ⟨h.1, h.2⟩, fun h => ⟨h.1, h.2⟩⟩

/-- The tags of the group, of all methods and of all properties are in normal form. -/
structure ClassModel.Valid (c : ClassModel MethodModel) : Prop where
  group : c.group.Valid
  methods : ∀ e ∈ c.methods, e.2.Valid
  properties : ∀ e ∈ c.properties, e.2.bag.Valid

instance (c : ClassModel MethodModel) : Decidable c.Valid :=
  decidable_of_iff (c.group.Valid ∧ (∀ e ∈ c.methods, e.2.Valid) ∧
      ∀ e ∈ c.properties, e.2.bag.Valid)
    ⟨fun h => ⟨h.1, h.2.1, h.2.2⟩, fun h => ⟨h.1, h.2, h.3⟩⟩

/-- What a merged group has from its classes, and its methods, are in normal form. -/
structure MergedGroup.Valid (g : MergedGroup MethodModel) : Prop where
  description : ∀ d ∈ g.description, d.value.isContent = true
  auth : ∀ e ∈ g.auth, e.2.Valid
  methods : ∀ m ∈ g.methods, m.Valid

instance (g : MergedGroup MethodModel) : Decidable g.Valid :=
  decidable_of_iff ((∀ d ∈ g.description, d.value.isContent = true) ∧
      (∀ e ∈ g.auth, e.2.Valid) ∧ ∀ m ∈ g.methods, m.Valid)
    ⟨fun h => ⟨h.1, h.2.1, h.2.2⟩, fun h => ⟨h.1, h.2, h.3⟩⟩

namespace Model

/-! ## Tags inside a model -/

theorem group_fields {x : Group} (h : x.groupName ≠ "") : group (.object x.fields) = .ok x :=
  Tag.nested_fields (.group x) (Tag.decodeGroup_fields h)

theorem groupDescription_data {d : Description} (h : d.value.isContent = true) :
    groupDescription (descriptionData d) = .ok d :=
  Tag.nested_fields (.description .groupDescription d) (Tag.decodeDescription_fields _ h)

theorem groupAuth_data {p : Param} (h : p.Valid) : groupAuth (authData p) = .ok p :=
  Tag.nested_fields (.param .groupAuth p) (Tag.decodeParam_fields _ h)

/-- A tag in a bag is read as the kind it declares. -/
theorem anyTag_fields {t : Tag} (h : t.Valid) : anyTag (.object t.fields) = .ok t := by
  have hnested : Tag.decodeNested t.kind t.fields = .ok t :=
    Tag.nested_fields t (Tag.decodeFields_fields h)
  -- The kind that the fields declare picks the reader.
  unfold anyTag
  simp only [Tag.get?_kind_fields, Kind.ofName?_name, hnested, Checked.under_ok]

theorem bag_data {b : Bag} (h : b.Valid) : bag (bagData b) = .ok b :=
  Field.object_mapValues fun e he => Field.list_map fun t ht => anyTag_fields (h e he t ht)

/-! ## Models -/

theorem optional_orNull {α : Type} {read : Value → Checked α} {write : α → Entries Value}
    {o : Option α} (h : ∀ a ∈ o, read (.object (write a)) = .ok a) :
    optional read (orNull (fun a => .object (write a)) o) = .ok o := by
  cases o with
  | none => rfl
  | some a =>
      show Checked.map some (read (.object (write a))) = _
      rw [h a rfl]
      rfl

theorem description_orNull {o : Option Description}
    (h : ∀ d ∈ o, d.value.isContent = true) :
    optional groupDescription (orNull descriptionData o) = .ok o :=
  optional_orNull fun d hd => groupDescription_data (h d hd)

theorem auth_data {auth : Entries Param} (h : ∀ e ∈ auth, e.2.Valid) :
    Field.object groupAuth (.object (Entries.mapValues authData auth)) = .ok auth :=
  Field.object_mapValues fun e he => groupAuth_data (h e he)

theorem groupInfo_data {g : GroupInfo} (h : g.Valid) : groupInfo (groupData g) = .ok g := by
  have hgroup : optional group (orNull (fun x => .object (Group.fields x)) g.group)
      = .ok g.group := optional_orNull fun x hx => group_fields (h.group x hx)
  simp [groupInfo, groupData, object, Field.withDefault, Entries.get?, hgroup,
    description_orNull h.description, auth_data h.auth]

theorem property_data {p : PropertyModel} (h : p.bag.Valid) :
    property (propertyData p) = .ok p := by
  simp [property, propertyData, object, Field.withDefault, Entries.get?, Field.string, bag_data h]

theorem method_data {m : MethodModel} (h : m.Valid) : method (methodData m) = .ok m := by
  simp [method, methodData, object, Field.withDefault, Entries.get?, Field.string,
    bag_data h.bag, groupInfo_data h.group]

/-- A class model is read back from its own data. -/
theorem ofClass_classData {c : ClassModel MethodModel} (h : c.Valid) :
    ofClass (classData c) = .ok c := by
  have hmethods : Field.object method (.object (Entries.mapValues methodData c.methods))
      = .ok c.methods := Field.object_mapValues fun e he => method_data (h.methods e he)
  have hproperties : Field.object property (.object (Entries.mapValues propertyData c.properties))
      = .ok c.properties := Field.object_mapValues fun e he => property_data (h.properties e he)
  simp [ofClass, classData, object, Field.withDefault, Entries.get?, Field.string,
    groupInfo_data h.group, hmethods, hproperties]

/-- A merged group is read back from its own data. -/
theorem ofMerged_mergedData {g : MergedGroup MethodModel} (h : g.Valid) :
    ofMerged (mergedData g) = .ok g := by
  have hmethods : Field.list method (.array (g.methods.map methodData)) = .ok g.methods :=
    Field.list_map fun m hm => method_data (h.methods m hm)
  simp [ofMerged, mergedData, object, Field.withDefault, Entries.get?, Field.string,
    description_orNull h.description, auth_data h.auth, hmethods]

end Model

/-! ## Models whose numbers are finite -/

/-- The default and the rules hold finite numbers only. -/
def Param.isFinite (p : Param) : Bool :=
  p.default.isFinite && p.rules.all fun e => e.2.isFinite

/-- The free values of a tag and its time limit, if it has one, are finite. -/
def Tag.isFinite : Tag → Bool
  | .description _ d => d.value.isFinite
  | .param _ p => p.isFinite
  | .circuitBreaker b => b.timeout.isFinite
  | _ => true

/-- Whether the description and the auth tags hold no number that is not finite. -/
def GroupInfo.isFinite (g : GroupInfo) : Bool :=
  (g.description.all fun d => d.value.isFinite) && g.auth.all fun e => e.2.isFinite

/-- Whether no tag holds one. -/
def Bag.isFinite (b : Bag) : Bool := b.all fun e => e.2.all Tag.isFinite

/-- Whether neither the tags of a method nor its group hold one. -/
def MethodModel.isFinite (m : MethodModel) : Bool := m.bag.isFinite && m.group.isFinite

/-- Whether nothing in a class holds one: its group, its methods, its properties. -/
def ClassModel.isFinite (c : ClassModel MethodModel) : Bool :=
  c.group.isFinite && (c.methods.all fun e => e.2.isFinite) &&
    c.properties.all fun e => e.2.bag.isFinite

/-- Whether nothing in a merged group holds one. -/
def MergedGroup.isFinite (g : MergedGroup MethodModel) : Bool :=
  (g.description.all fun d => d.value.isFinite) && (g.auth.all fun e => e.2.isFinite) &&
    g.methods.all MethodModel.isFinite

namespace Model

/-! ## Their data is finite -/

theorem isFinite_orNull {α : Type} (write : α → Value) (o : Option α) :
    (orNull write o).isFinite = o.all fun a => (write a).isFinite := by
  cases o
  · exact Value.isFinite_null
  · rfl

theorem isFinite_tagData (t : Tag) : (Value.object t.fields).isFinite = t.isFinite := by
  cases t with
  | circuitBreaker b =>
      -- A breaker without an action has a null there.
      cases hb : b.failAction <;> simp [Tag.fields, CircuitBreaker.fields, Tag.isFinite, hb]
  | _ =>
      simp [Tag.fields, Api.fields, Description.fields, Group.fields, Param.fields,
        InjectParams.fields, Tag.isFinite, Param.isFinite]

theorem isFinite_bagData (b : Bag) : (bagData b).isFinite = b.isFinite := by
  have htag : (Value.isFinite ∘ fun t => .object t.fields) = Tag.isFinite :=
    funext isFinite_tagData
  simp only [bagData, Value.isFinite_object, Value.isFinite_array, Entries.all_mapValues,
    List.all_map, Bag.isFinite, htag]

theorem isFinite_groupData (g : GroupInfo) : (groupData g).isFinite = g.isFinite := by
  have hgroup : ∀ x : Group, (x.fields.all fun e => e.2.isFinite) = true := by
    intro x
    rw [← Value.isFinite_object]
    exact isFinite_tagData (.group x)
  have hdescription : ∀ d : Description, (descriptionData d).isFinite = d.value.isFinite :=
    fun d => isFinite_tagData (.description .groupDescription d)
  have hauth : ∀ p : Param, (authData p).isFinite = p.isFinite :=
    fun p => isFinite_tagData (.param .groupAuth p)
  simp [groupData, isFinite_orNull, hgroup, hdescription, hauth, GroupInfo.isFinite]

theorem isFinite_methodData (m : MethodModel) : (methodData m).isFinite = m.isFinite := by
  simp [methodData, isFinite_bagData, isFinite_groupData, MethodModel.isFinite]

theorem isFinite_propertyData (p : PropertyModel) :
    (propertyData p).isFinite = p.bag.isFinite := by
  simp [propertyData, isFinite_bagData]

/-- The data of a class model is finite exactly if the model is. -/
theorem isFinite_classData (c : ClassModel MethodModel) :
    (classData c).isFinite = c.isFinite := by
  simp [classData, isFinite_groupData, isFinite_methodData, isFinite_propertyData,
    ClassModel.isFinite, Bool.and_assoc]

/-! ## A report of finite models leaves them as they are -/

theorem Param.finiteOnly_eq_self {p : Param} (h : p.isFinite = true) : p.finiteOnly = p := by
  rw [Param.isFinite, Bool.and_eq_true, List.all_eq_true] at h
  unfold Param.finiteOnly
  rw [Value.finiteOnly_eq_self _ h.1,
    Entries.mapValues_eq_self fun e he => Value.finiteOnly_eq_self _ (h.2 e he)]

theorem Description.finiteOnly_eq_self {d : Description} (h : d.value.isFinite = true) :
    d.finiteOnly = d := by
  unfold Description.finiteOnly
  rw [Value.finiteOnly_eq_self _ h]

theorem Tag.finiteOnly_eq_self {t : Tag} (h : t.isFinite = true) : t.finiteOnly = t := by
  cases t with
  | description k d => exact congrArg (Tag.description k) (Description.finiteOnly_eq_self h)
  | param k p => exact congrArg (Tag.param k) (Param.finiteOnly_eq_self h)
  | _ => rfl

theorem description_finiteOnly_eq_self {o : Option Description}
    (h : (o.all fun d => d.value.isFinite) = true) : o.map Description.finiteOnly = o := by
  cases o with
  | none => rfl
  | some d => exact congrArg some (Description.finiteOnly_eq_self h)

theorem auth_finiteOnly_eq_self {auth : Entries Param}
    (h : (auth.all fun e => e.2.isFinite) = true) :
    Entries.mapValues Param.finiteOnly auth = auth :=
  Entries.mapValues_eq_self fun e he => Param.finiteOnly_eq_self (List.all_eq_true.mp h e he)

theorem GroupInfo.finiteOnly_eq_self {g : GroupInfo} (h : g.isFinite = true) :
    GroupInfo.finiteOnly g = g := by
  rw [GroupInfo.isFinite, Bool.and_eq_true] at h
  unfold GroupInfo.finiteOnly
  rw [description_finiteOnly_eq_self h.1, auth_finiteOnly_eq_self h.2]

theorem MethodModel.finiteOnly_eq_self {m : MethodModel} (h : m.isFinite = true) :
    MethodModel.finiteOnly m = m := by
  rw [MethodModel.isFinite, Bool.and_eq_true] at h
  have hbag : Entries.mapValues (fun tags => tags.map Tag.finiteOnly) m.bag = m.bag := by
    refine Entries.mapValues_eq_self fun e he => map_eq_self fun t ht => ?_
    exact Tag.finiteOnly_eq_self
      (List.all_eq_true.mp (List.all_eq_true.mp h.1 e he) t ht)
  unfold MethodModel.finiteOnly
  rw [hbag, GroupInfo.finiteOnly_eq_self h.2]

theorem MergedGroup.finiteOnly_eq_self {g : MergedGroup MethodModel} (h : g.isFinite = true) :
    MergedGroup.finiteOnly g = g := by
  rw [MergedGroup.isFinite, Bool.and_eq_true, Bool.and_eq_true] at h
  unfold MergedGroup.finiteOnly
  rw [description_finiteOnly_eq_self h.1.1, auth_finiteOnly_eq_self h.1.2,
    map_eq_self fun m hm => MethodModel.finiteOnly_eq_self (List.all_eq_true.mp h.2 m hm)]

end Model
end Routebook
