/-
  Routebook.Proofs.Model.Breakage

  Where the reading of a class model can end in a type error.  A model is read
  from parts that collect their faults, so only the tags in it can do that:
  those of its bags, each as the kind it declares, and those of its group
  infos, each as the kind that stands in its place (`Value.classSites`).  The
  reading of a model ends in a type error exactly if the data at one of these
  places breaks its kind (`ofClass_wrongType_iff`); otherwise it gives a valid
  model (`valid_of_ofClass`) or faults.
-/
import Routebook.Proofs.Model.RoundTrip
import Routebook.Proofs.Tag.Breakage

namespace Routebook

/-- Tag data that is read, each with the kind it is read as. -/
abbrev Sites := List (Kind × Entries Value)

/-- Some of the data breaks its kind. -/
def Sites.Break (sites : Sites) : Prop := ∃ site ∈ sites, Tag.Breaks site.1 site.2

namespace Sites

@[simp] theorem not_break_nil : ¬ Sites.Break [] := by simp [Sites.Break]

@[simp] theorem break_singleton {kind : Kind} {data : Entries Value} :
    Sites.Break [(kind, data)] ↔ Tag.Breaks kind data := by simp [Sites.Break]

@[simp] theorem break_append {sites more : Sites} :
    Sites.Break (sites ++ more) ↔ sites.Break ∨ more.Break := by
  simp only [Sites.Break, List.mem_append, or_and_right, exists_or]

@[simp] theorem break_flatMap {α : Type} {f : α → Sites} {as : List α} :
    Sites.Break (as.flatMap f) ↔ ∃ a ∈ as, (f a).Break := by
  simp only [Sites.Break, List.mem_flatMap]
  constructor
  · rintro ⟨site, ⟨a, ha, hsite⟩, hbreak⟩
    exact ⟨a, ha, site, hsite, hbreak⟩
  · rintro ⟨a, ha, site, hsite, hbreak⟩
    exact ⟨site, ⟨a, ha, hsite⟩, hbreak⟩

end Sites

/-! ## Places of tags -/

namespace Value

/-- An object where a tag of one kind stands. -/
def tagSites (kind : Kind) : Value → Sites
  | .object fields => [(kind, fields)]
  | _ => []

/-- An object where a tag of any kind stands: it has to declare one that exists. -/
def anyTagSites : Value → Sites
  | .object fields =>
    match Entries.get? "kind" fields with
    | some (.string name) => (Kind.ofName? name).toList.map fun kind => (kind, fields)
    | _ => []
  | _ => []

/-- The tags of a bag. -/
def bagSites (v : Value) : Sites :=
  (Entries.values v.asObject).flatMap fun tags => tags.asArray.flatMap anyTagSites

/-- The tags of a group info. -/
def groupSites (v : Value) : Sites :=
  (v.field "api_group").tagSites .group ++
    (v.field "api_group_description").tagSites (.description .groupDescription) ++
    (Entries.values (v.field "api_group_auth").asObject).flatMap (tagSites (.param .groupAuth))

/-- The tags of a method. -/
def methodSites (v : Value) : Sites :=
  (v.field "annotations").bagSites ++ (v.field "group_info").groupSites

/-- The tags of a property. -/
def propertySites (v : Value) : Sites := (v.field "annotations").bagSites

/-- The tags of a class model. -/
def classSites (v : Value) : Sites :=
  (v.field "group_info").groupSites ++
    (Entries.values (v.field "methods").asObject).flatMap methodSites ++
    (Entries.values (v.field "properties").asObject).flatMap propertySites

end Value

namespace Model

variable {α : Type}

/-! ## Readings that end in a type error -/

theorem object_wrongType_iff {model : String} {read : Entries Value → Checked α} {v : Value} :
    object model read v = .wrongType ↔ ∃ fields, v = .object fields ∧ read fields = .wrongType := by
  cases v <;> simp [object]

theorem fieldObject_wrongType_iff {read : Value → Checked α} {v : Value} :
    Field.object read v = .wrongType ↔ ∃ w ∈ Entries.values v.asObject, read w = .wrongType := by
  cases v with
  | object fields => exact Checked.fields_wrongType_iff
  | _ => simp [Field.object, Value.asObject, Entries.values]

theorem fieldList_wrongType_iff {read : Value → Checked α} {v : Value} :
    Field.list read v = .wrongType ↔ ∃ w ∈ v.asArray, read w = .wrongType := by
  cases v with
  | array items => exact Checked.items_wrongType_iff
  | _ => simp [Field.list, Value.asArray]

/-- Nothing breaks a reading of null. -/
theorem object_null {model : String} {read : Entries Value → Checked α} :
    object model read .null ≠ .wrongType := by simp [object]

theorem optional_null {read : Value → Checked α} : optional read .null ≠ .wrongType := by
  simp [optional]

theorem fieldObject_null {read : Value → Checked α} : Field.object read .null ≠ .wrongType := by
  simp [Field.object]

/-- A field that is absent is as harmless as null. -/
theorem withDefault_wrongType_iff_field {data : Entries Value} {name : String} {default : α}
    (read : Value → Checked α) (hnull : read .null ≠ .wrongType) :
    Field.withDefault data name default read = .wrongType
      ↔ read ((Value.object data).field name) = .wrongType := by
  rw [Field.withDefault_wrongType_iff]
  show _ ↔ read ((Entries.get? name data).getD .null) = .wrongType
  cases Entries.get? name data <;> simp [hnull]

theorem optional_wrongType_iff {read : Value → Checked α} (hnull : read .null ≠ .wrongType)
    {v : Value} : optional read v = .wrongType ↔ read v = .wrongType := by
  cases v with
  | null => simp [optional, hnull]
  | _ => exact Checked.map_wrongType_iff

theorem anyTag_wrongType_iff {v : Value} :
    anyTag v = .wrongType ↔ v.anyTagSites.Break := by
  cases v with
  | object fields =>
      simp only [anyTag, Value.anyTagSites]
      cases hkind : Entries.get? "kind" fields with
      | none => simp
      | some declared =>
          cases declared with
          | string name =>
              cases hname : Kind.ofName? name with
              | none => simp [hname]
              | some kind => simp [hname, Tag.decodeNested_wrongType_iff]
          | _ => simp
  | _ => simp [anyTag, Value.anyTagSites]

/-- A tag of one kind in its place. -/
theorem tagOf_wrongType_iff {kind : Kind} {read : Entries Value → Checked α} {f : α → Tag}
    (hread : ∀ data, Tag.decodeFields kind data = f <$> read data) {v : Value} :
    tagOf kind read v = .wrongType ↔ (v.tagSites kind).Break := by
  have hbreak (data : Entries Value) :
      Tag.nested kind read data = .wrongType ↔ Tag.Breaks kind data := by
    -- A place for one kind reads the fields that any place for a tag would read.
    rw [Tag.nested_wrongType_iff, ← Checked.map_wrongType_iff (f := f), ← hread,
      Tag.decodeFields_wrongType_iff]
    rfl
  rw [tagOf, object_wrongType_iff]
  cases v <;> simp [Value.tagSites, hbreak]

theorem group_wrongType_iff {v : Value} : group v = .wrongType ↔ (v.tagSites .group).Break :=
  tagOf_wrongType_iff fun _ => rfl

theorem groupDescription_wrongType_iff {v : Value} :
    groupDescription v = .wrongType ↔ (v.tagSites (.description .groupDescription)).Break :=
  tagOf_wrongType_iff fun _ => rfl

theorem groupAuth_wrongType_iff {v : Value} :
    groupAuth v = .wrongType ↔ (v.tagSites (.param .groupAuth)).Break :=
  tagOf_wrongType_iff fun _ => rfl

theorem bag_wrongType_iff {v : Value} : bag v = .wrongType ↔ v.bagSites.Break := by
  simp only [bag, fieldObject_wrongType_iff, fieldList_wrongType_iff, anyTag_wrongType_iff,
    Value.bagSites, Sites.break_flatMap]

theorem groupInfo_wrongType_iff {v : Value} :
    groupInfo v = .wrongType ↔ v.groupSites.Break := by
  rw [groupInfo, object_wrongType_iff]
  cases v with
  | object data =>
      have hgroup : group .null ≠ .wrongType := by simp [group, tagOf, object]
      have hdescription : groupDescription .null ≠ .wrongType := by
        simp [groupDescription, tagOf, object]
      simp only [Value.object.injEq, exists_eq_left', Checked.seq_wrongType_iff,
        Checked.map_wrongType_iff, Value.groupSites, Sites.break_append, Sites.break_flatMap]
      rw [withDefault_wrongType_iff_field (optional group) optional_null,
        withDefault_wrongType_iff_field (optional groupDescription) optional_null,
        withDefault_wrongType_iff_field (Field.object groupAuth) fieldObject_null,
        optional_wrongType_iff hgroup, optional_wrongType_iff hdescription,
        fieldObject_wrongType_iff, group_wrongType_iff, groupDescription_wrongType_iff]
      simp only [groupAuth_wrongType_iff]
  | _ => simp [Value.groupSites, Value.field, Value.tagSites, Value.asObject, Entries.values]

theorem property_wrongType_iff {v : Value} : property v = .wrongType ↔ v.propertySites.Break := by
  rw [property, object_wrongType_iff]
  cases v with
  | object data =>
      simp only [Value.object.injEq, exists_eq_left', Checked.seq_wrongType_iff,
        Checked.map_wrongType_iff, Field.required_wrongType_iff, Tag.string_ne_wrongType]
      rw [withDefault_wrongType_iff_field bag fieldObject_null, bag_wrongType_iff]
      simp [Value.propertySites]
  | _ => simp [Value.propertySites, Value.bagSites, Value.field, Value.asObject, Entries.values]

theorem method_wrongType_iff {v : Value} : method v = .wrongType ↔ v.methodSites.Break := by
  rw [method, object_wrongType_iff]
  cases v with
  | object data =>
      simp only [Value.object.injEq, exists_eq_left', Checked.seq_wrongType_iff,
        Checked.map_wrongType_iff, Field.required_wrongType_iff]
      rw [withDefault_wrongType_iff_field bag fieldObject_null,
        withDefault_wrongType_iff_field groupInfo object_null, bag_wrongType_iff,
        groupInfo_wrongType_iff]
      simp [Value.methodSites]
  | _ =>
      simp [Value.methodSites, Value.bagSites, Value.groupSites, Value.field, Value.tagSites,
        Value.asObject, Entries.values]

/-- Reading a class model ends in a type error exactly if a tag in it breaks its kind. -/
theorem ofClass_wrongType_iff {v : Value} : ofClass v = .wrongType ↔ v.classSites.Break := by
  rw [ofClass, object_wrongType_iff]
  cases v with
  | object data =>
      simp only [Value.object.injEq, exists_eq_left', Checked.seq_wrongType_iff,
        Checked.map_wrongType_iff, Field.required_wrongType_iff]
      rw [withDefault_wrongType_iff_field groupInfo object_null,
        withDefault_wrongType_iff_field (Field.object method) fieldObject_null,
        withDefault_wrongType_iff_field (Field.object property) fieldObject_null,
        groupInfo_wrongType_iff, fieldObject_wrongType_iff, fieldObject_wrongType_iff]
      simp [Value.classSites, method_wrongType_iff, property_wrongType_iff, or_assoc]
  | _ =>
      simp [Value.classSites, Value.groupSites, Value.field, Value.tagSites, Value.asObject,
        Entries.values]

/-! ## Models that are read -/

theorem object_ok {model : String} {read : Entries Value → Checked α} {v : Value} {a : α}
    (h : object model read v = .ok a) : ∃ fields, v = .object fields ∧ read fields = .ok a := by
  cases v with
  | object fields => exact ⟨fields, rfl, h⟩
  | _ => exact absurd h (by simp [object])

theorem optional_ok {read : Value → Checked α} {v : Value} {o : Option α}
    (h : optional read v = .ok o) : ∀ a ∈ o, ∃ w, read w = .ok a := by
  cases v with
  | null =>
      obtain rfl := Checked.ok.inj h
      exact nofun
  | _ =>
      obtain ⟨a, ha, rfl⟩ := Checked.map_ok_iff.mp h
      rintro b ⟨rfl⟩
      exact ⟨_, ha⟩

/-- Everything in a table was read. -/
theorem fieldObject_ok {read : Value → Checked α} {v : Value} {m : Entries α}
    (h : Field.object read v = .ok m) : ∀ e ∈ m, ∃ w, read w = .ok e.2 := by
  cases v with
  | object fields =>
      have hgiven : Entries.Each (fun _ _ => True) fields := fun _ _ => trivial
      exact Field.each_of_object (Q := fun _ a => ∃ w, read w = .ok a) h hgiven
        fun _ w _ _ hw => ⟨w, hw⟩
  | _ => exact absurd h (by simp [Field.object])

theorem fieldList_ok {read : Value → Checked α} {v : Value} {as : List α}
    (h : Field.list read v = .ok as) : ∀ a ∈ as, ∃ w, read w = .ok a := by
  cases v with
  | array items =>
      exact forall_mem_of_forall₂ (Field.list_ok h) fun w _ a hw => ⟨w, hw⟩
  | _ => exact absurd h (by simp [Field.list])

theorem valid_of_anyTag {v : Value} {t : Tag} (h : anyTag v = .ok t) : t.Valid := by
  unfold anyTag at h
  split at h
  · split at h
    · exact absurd h (by simp)
    · simp only at h
      split at h
      · exact Tag.valid_of_decodeFields (Tag.nested_ok (Checked.under_ok_iff.mp h))
      · exact absurd h (by simp)
  · exact absurd h (by simp)

theorem tagOf_ok {kind : Kind} {read : Entries Value → Checked α} {v : Value} {a : α}
    (h : tagOf kind read v = .ok a) : ∃ fields, read fields = .ok a := by
  obtain ⟨fields, -, hread⟩ := object_ok h
  exact ⟨fields, Tag.nested_ok hread⟩

theorem valid_of_bag {v : Value} {b : Bag} (h : bag v = .ok b) : b.Valid := by
  intro e he t ht
  obtain ⟨w, hw⟩ := fieldObject_ok h e he
  obtain ⟨u, hu⟩ := fieldList_ok hw t ht
  exact valid_of_anyTag hu

theorem valid_of_group {v : Value} {x : Group} (h : group v = .ok x) : x.groupName ≠ "" := by
  obtain ⟨data, hread⟩ := tagOf_ok h
  have hfields : Tag.decodeFields .group data = .ok (.group x) :=
    Checked.map_ok_iff.mpr ⟨x, hread, rfl⟩
  exact Tag.valid_of_decodeFields hfields

/-- What a field holds that may be left out: nothing, or what was read there. -/
theorem optionalField_ok {read : Value → Checked α} {data : Entries Value} {name : String}
    {o : Option α} (h : Field.withDefault data name none (optional read) = .ok o) :
    ∀ a ∈ o, ∃ w, read w = .ok a := by
  rcases Field.withDefault_ok h with rfl | ⟨v, hv⟩
  · exact nofun
  · exact optional_ok hv

theorem tableField_ok {read : Value → Checked α} {data : Entries Value} {name : String}
    {m : Entries α} (h : Field.withDefault data name [] (Field.object read) = .ok m) :
    ∀ e ∈ m, ∃ w, read w = .ok e.2 := by
  rcases Field.withDefault_ok h with rfl | ⟨v, hv⟩
  · exact nofun
  · exact fieldObject_ok hv

theorem valid_of_groupInfo {v : Value} {g : GroupInfo} (h : groupInfo v = .ok g) : g.Valid := by
  obtain ⟨data, -, h⟩ := object_ok h
  simp only [Checked.seq_ok_iff, Checked.map_ok_iff] at h
  obtain ⟨f, auth, ⟨f, description, ⟨group', hgroup, rfl⟩, hdescription, rfl⟩, hauth, rfl⟩ := h
  refine ⟨fun x hx => ?_, fun d hd => ?_, fun e he => ?_⟩
  · obtain ⟨w, hw⟩ := optionalField_ok hgroup x hx
    exact valid_of_group hw
  · obtain ⟨w, hw⟩ := optionalField_ok hdescription d hd
    obtain ⟨fields, hread⟩ := tagOf_ok hw
    exact Tag.valid_of_decodeDescription hread
  · obtain ⟨w, hw⟩ := tableField_ok hauth e he
    obtain ⟨fields, hread⟩ := tagOf_ok hw
    exact Tag.valid_of_decodeParam hread

theorem valid_groupInfo_empty : GroupInfo.empty.Valid := by decide

theorem valid_of_bagField {data : Entries Value} {name : String} {b : Bag}
    (h : Field.withDefault data name [] bag = .ok b) : b.Valid := by
  rcases Field.withDefault_ok h with rfl | ⟨v, hv⟩
  · exact nofun
  · exact valid_of_bag hv

theorem valid_of_groupField {data : Entries Value} {name : String} {g : GroupInfo}
    (h : Field.withDefault data name GroupInfo.empty groupInfo = .ok g) : g.Valid := by
  rcases Field.withDefault_ok h with rfl | ⟨v, hv⟩
  · exact valid_groupInfo_empty
  · exact valid_of_groupInfo hv

theorem valid_of_method {v : Value} {m : MethodModel} (h : method v = .ok m) : m.Valid := by
  obtain ⟨data, -, h⟩ := object_ok h
  simp only [Checked.seq_ok_iff, Checked.map_ok_iff] at h
  obtain ⟨f, group', ⟨f, bag', ⟨name, -, rfl⟩, hbag, rfl⟩, hgroup, rfl⟩ := h
  exact ⟨valid_of_bagField hbag, valid_of_groupField hgroup⟩

theorem valid_of_property {v : Value} {p : PropertyModel} (h : property v = .ok p) :
    p.bag.Valid := by
  obtain ⟨data, -, h⟩ := object_ok h
  simp only [Checked.seq_ok_iff, Checked.map_ok_iff] at h
  obtain ⟨f, bag', ⟨name, -, rfl⟩, hbag, rfl⟩ := h
  exact valid_of_bagField hbag

/-- A class model that is read has tags in normal form only. -/
theorem valid_of_ofClass {v : Value} {c : ClassModel MethodModel} (h : ofClass v = .ok c) :
    c.Valid := by
  obtain ⟨data, -, h⟩ := object_ok h
  simp only [Checked.seq_ok_iff, Checked.map_ok_iff] at h
  obtain ⟨f, properties, ⟨f, methods, ⟨f, group', ⟨name, -, rfl⟩, hgroup, rfl⟩, hmethods, rfl⟩,
    hproperties, rfl⟩ := h
  refine ⟨valid_of_groupField hgroup, fun e he => ?_, fun e he => ?_⟩
  · obtain ⟨w, hw⟩ := tableField_ok hmethods e he
    exact valid_of_method hw
  · obtain ⟨w, hw⟩ := tableField_ok hproperties e he
    exact valid_of_property hw

end Model
end Routebook
