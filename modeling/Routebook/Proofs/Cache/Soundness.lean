/-
  Routebook.Proofs.Cache.Soundness

  A text in which a sound model was stored gives a sound model, or none
  (`sound_of_decode`).  The text may say less than the model: numbers that are
  not finite become null, and a key that a free object repeats is merged.  But
  names, kinds and the keys of all tables are texts of their own, they come
  back as they were, and a group is read only with a name.

  So a directory that holds nothing but such texts (`Holds`) answers with
  sound models, whatever sound models are stored in it.
-/
import Routebook.Proofs.Cache.RoundTrip
import Routebook.Proofs.Files.Places
import Routebook.Proofs.Json.Limits
import Routebook.Proofs.Model.Breakage
import Routebook.Proofs.Model.Sound

namespace Routebook

open Json (collapsed collapsedItems collapsedFields)

/-! ## What a text says of a value -/

/-- A value as its stored text says it. -/
def Value.asStored (v : Value) : Value := collapsed v.finiteOnly

namespace Value

@[simp] theorem asStored_string (s : String) : asStored (.string s) = .string s := by
  unfold asStored
  rw [finiteOnly, collapsed] <;> simp

theorem finiteFields_eq (fs : Entries Value) :
    finiteFields fs = Entries.mapValues finiteOnly fs := by
  induction fs with
  | nil => rfl
  | cons e fs ih =>
      rw [finiteFields, ih]
      rfl

/-- An object without repeated keys is stored field by field. -/
theorem asStored_object {fs : Entries Value} (hd : (Entries.keys fs).Nodup) :
    asStored (.object fs) = .object (Entries.mapValues asStored fs) := by
  have hkeys : (Entries.keys ([] ++ Entries.mapValues finiteOnly fs)).Nodup := by
    rw [List.nil_append, Entries.keys_mapValues]
    exact hd
  unfold asStored
  rw [finiteOnly, finiteFields_eq, collapsed, Json.collapsedFields_eq hkeys, List.nil_append]
  simp only [Entries.mapValues, List.map_map, Function.comp_def]

theorem asStored_array (vs : List Value) : asStored (.array vs) = .array (vs.map asStored) := by
  have hitems : collapsedItems (finiteItems vs) = vs.map asStored := by
    induction vs with
    | nil => rw [finiteItems, collapsedItems, List.map_nil]
    | cons v vs ih => rw [finiteItems, collapsedItems, List.map_cons, ih, asStored]
  rw [← hitems, asStored, finiteOnly, collapsed]

theorem isObject_asStored (fs : Entries Value) :
    ∃ gs, asStored (.object fs) = .object gs := by
  unfold asStored
  rw [finiteOnly, collapsed]
  exact ⟨_, rfl⟩

end Value

namespace Model

variable {α : Type}

/-! ## Tables -/

/-- A table whose entries are stored and read one by one keeps its keys, and a
property of its entries that every reading keeps. -/
theorem table_of_asStored {P : String → α → Prop} {write : α → Value} {read : Value → Checked α}
    {m m' : Entries α} (hm : Entries.Each P m) (hd : (Entries.keys m).Nodup)
    (h : Field.object read (Value.asStored (.object (Entries.mapValues write m))) = .ok m')
    (hread : ∀ key a a', P key a → read (Value.asStored (write a)) = .ok a' → P key a') :
    Entries.Each P m' ∧ Entries.keys m' = Entries.keys m := by
  have hdistinct : (Entries.keys (Entries.mapValues write m)).Nodup := by
    rw [Entries.keys_mapValues]
    exact hd
  rw [Value.asStored_object hdistinct] at h
  constructor
  · -- Under each key stands the text of an entry with the property.
    have hwritten : Entries.Each (fun key v => ∃ a, P key a ∧ v = write a)
        (Entries.mapValues write m) :=
      Entries.each_mapValues hm fun key a ha => ⟨a, ha, rfl⟩
    have hgiven : Entries.Each (fun key v => ∃ a, P key a ∧ v = Value.asStored (write a))
        (Entries.mapValues Value.asStored (Entries.mapValues write m)) := by
      refine Entries.each_mapValues hwritten ?_
      rintro key v ⟨a, ha, rfl⟩
      exact ⟨a, ha, rfl⟩
    refine Field.each_of_object h hgiven ?_
    rintro key v a' ⟨a, ha, rfl⟩ hv
    exact hread key a a' ha hv
  · rw [Field.keys_of_object h, Entries.keys_mapValues, Entries.keys_mapValues]

/-! ## Tags -/

theorem nodup_keys_fields (t : Tag) : (Entries.keys t.fields).Nodup := by
  cases t <;> simp [Tag.fields, Api.fields, Description.fields, Group.fields, Param.fields,
    CircuitBreaker.fields, InjectParams.fields, Entries.keys]

theorem get?_kind_asStored {t : Tag} {fs : Entries Value}
    (h : Value.asStored (.object t.fields) = .object fs) :
    Entries.get? "kind" fs = some (.string t.kind.name) := by
  rw [Value.asStored_object (nodup_keys_fields t)] at h
  obtain rfl := Value.object.inj h
  rw [Entries.get?_mapValues, Tag.get?_kind_fields, Option.map_some, Value.asStored_string]

/-- A tag that is read from a text has the kind of the tag that was stored. -/
theorem kind_of_anyTag {t t' : Tag} (h : anyTag (Value.asStored (.object t.fields)) = .ok t') :
    t'.kind = t.kind := by
  obtain ⟨fs, hfs⟩ := Value.isObject_asStored t.fields
  have hkind := get?_kind_asStored hfs
  rw [hfs] at h
  simp only [anyTag, hkind, Kind.ofName?_name, Checked.under_ok_iff] at h
  exact Tag.kind_of_decodeFields (Tag.nested_ok h)

/-- A bag that is read from a text holds tags of the same kinds. -/
theorem sound_bag {b b' : Bag} (hb : b.Sound)
    (h : bag (Value.asStored (bagData b)) = .ok b') :
    b'.Sound ∧ Entries.keys b' = Entries.keys b := by
  obtain ⟨hkinds, hkeys⟩ := table_of_asStored hb.kinds hb.distinct h
      fun name tags tags' htags hread => by
    rw [Value.asStored_array, List.map_map] at hread
    have hall := Field.list_ok hread
    rw [List.forall₂_map_left_iff] at hall
    constructor
    · rintro rfl
      exact htags.1 (List.forall₂_nil_right_iff.mp hall)
    · refine forall_mem_of_forall₂ hall fun t ht t' hread => ?_
      rw [kind_of_anyTag hread]
      exact htags.2 t ht
  exact ⟨⟨hkeys ▸ hb.distinct, hkinds⟩, hkeys⟩

/-! ## Group infos -/

theorem name_of_groupAuth {p p' : Param} (h : groupAuth (Value.asStored (authData p)) = .ok p') :
    p'.name = p.name := by
  have hd : (Entries.keys (p.fields .groupAuth)).Nodup := nodup_keys_fields (.param .groupAuth p)
  rw [authData, Value.asStored_object hd] at h
  have hread := Tag.nested_ok h
  simp only [Tag.decodeParam, Checked.andThen_ok_iff, Checked.seqLeft_ok_iff,
    Checked.seqRight_ok_iff, Checked.seq_ok_iff, Checked.map_ok_iff, Field.required_ok_iff] at hread
  -- The fields come one behind the other, the last one outermost.
  obtain ⟨given, -, ⟨-, f, rules, hf, -, rfl⟩, -⟩ := hread
  obtain ⟨f, deprecated, hf, -, rfl⟩ := hf
  obtain ⟨f, default, hf, -, rfl⟩ := hf
  obtain ⟨f, description, hf, -, rfl⟩ := hf
  obtain ⟨f, type, hf, -, rfl⟩ := hf
  obtain ⟨f, sources, hf, -, rfl⟩ := hf
  obtain ⟨name, ⟨v, hv, hname⟩, rfl⟩ := hf
  have hgiven : v = .string p.name := by
    rw [Entries.get?_mapValues] at hv
    simpa [Param.fields, Entries.get?] using hv.symm
  subst hgiven
  exact (Checked.ok.inj hname).symm

/-- Where an object stands, something is read, and not null. -/
theorem isSome_of_optional {read : Value → Checked α} {fs : Entries Value} {o : Option α}
    (h : optional read (Value.asStored (.object fs)) = .ok o) :
    ∃ a v, o = some a ∧ read v = .ok a := by
  obtain ⟨gs, hgs⟩ := Value.isObject_asStored fs
  rw [hgs] at h
  obtain ⟨a, ha, rfl⟩ := Checked.map_ok_iff.mp h
  exact ⟨a, _, rfl, ha⟩

/-- A group info that is read from a text of a sound one is sound. -/
theorem sound_groupInfo {g g' : GroupInfo} (hg : g.Sound)
    (h : groupInfo (Value.asStored (groupData g)) = .ok g') : g'.Sound := by
  have hd : ∀ a b c : Value, (Entries.keys
      [("api_group", a), ("api_group_description", b), ("api_group_auth", c)]).Nodup :=
    fun _ _ _ => by simp [Entries.keys]
  rw [groupData, Value.asStored_object (hd _ _ _)] at h
  simp only [groupInfo, object, Checked.seq_ok_iff, Checked.map_ok_iff] at h
  obtain ⟨f, auth, ⟨f, description, ⟨group', hgroup, rfl⟩, -, rfl⟩, hauth, rfl⟩ := h
  obtain ⟨x, hx, -⟩ := hg.group
  have hgroupRead : optional group
      (Value.asStored (orNull (fun x => .object (Group.fields x)) g.group)) = .ok group' :=
    Field.withDefault_of_get? rfl hgroup
  rw [Option.mem_def.mp hx] at hgroupRead
  -- A group that was written is read as a group; null would have been read as none.
  obtain ⟨y, v, rfl, hy⟩ := isSome_of_optional hgroupRead
  have hkeyed : Entries.Each (fun name p => name = Param.name p) g.auth := hg.keyed
  obtain ⟨hauth, hkeys⟩ := table_of_asStored hkeyed hg.distinct
    (Field.withDefault_of_get? rfl hauth) fun name p p' hp hread =>
      hp.trans (name_of_groupAuth hread).symm
  exact ⟨⟨y, rfl, valid_of_group hy⟩, hauth, hkeys ▸ hg.distinct⟩

/-! ## Methods, properties, classes -/

theorem sound_method {name : String} {m m' : MethodModel} (hm : m.Sound name)
    (h : method (Value.asStored (methodData m)) = .ok m') : m'.Sound name := by
  have hd : ∀ a b c : Value, (Entries.keys
      [("name", a), ("annotations", b), ("group_info", c)]).Nodup :=
    fun _ _ _ => by simp [Entries.keys]
  rw [methodData, Value.asStored_object (hd _ _ _)] at h
  simp only [method, object, Checked.seq_ok_iff, Checked.map_ok_iff] at h
  obtain ⟨f, group', ⟨f, bag', ⟨name', hname, rfl⟩, hbag, rfl⟩, hgroup, rfl⟩ := h
  have hbagRead : bag (Value.asStored (bagData m.bag)) = .ok bag' :=
    Field.withDefault_of_get? rfl hbag
  have hgroupRead : groupInfo (Value.asStored (groupData m.group)) = .ok group' :=
    Field.withDefault_of_get? rfl hgroup
  obtain ⟨v, hv, hname⟩ := Field.required_ok_iff.mp hname
  obtain rfl : Value.asStored (.string m.name) = v := Option.some.inj hv
  rw [Value.asStored_string] at hname
  obtain ⟨hsound, hkeys⟩ := sound_bag hm.bag hbagRead
  refine ⟨(Checked.ok.inj hname).symm.trans hm.name, hsound, ?_,
    sound_groupInfo hm.group hgroupRead⟩
  show ∀ k ∈ groupKinds, k.name ∉ Entries.keys bag'
  rw [hkeys]
  exact hm.free

theorem sound_property {name : String} {p p' : PropertyModel} (hp : p.Sound name)
    (h : property (Value.asStored (propertyData p)) = .ok p') : p'.Sound name := by
  have hd : ∀ a b : Value, (Entries.keys [("name", a), ("annotations", b)]).Nodup :=
    fun _ _ => by simp [Entries.keys]
  rw [propertyData, Value.asStored_object (hd _ _)] at h
  simp only [property, object, Checked.seq_ok_iff, Checked.map_ok_iff] at h
  obtain ⟨f, bag', ⟨name', hname, rfl⟩, hbag, rfl⟩ := h
  have hbagRead : bag (Value.asStored (bagData p.bag)) = .ok bag' :=
    Field.withDefault_of_get? rfl hbag
  obtain ⟨v, hv, hname⟩ := Field.required_ok_iff.mp hname
  obtain rfl : Value.asStored (.string p.name) = v := Option.some.inj hv
  rw [Value.asStored_string] at hname
  exact ⟨(Checked.ok.inj hname).symm.trans hp.name, (sound_bag hp.bag hbagRead).1⟩

/-- A class model that is read from a text of a sound one is sound. -/
theorem sound_class {c c' : ClassModel MethodModel} (hc : c.Sound)
    (h : ofClass (Value.asStored (classData c)) = .ok c') : c'.Sound := by
  have hd : ∀ a b c d : Value, (Entries.keys
      [("class_name", a), ("group_info", b), ("methods", c), ("properties", d)]).Nodup :=
    fun _ _ _ _ => by simp [Entries.keys]
  rw [classData, Value.asStored_object (hd _ _ _ _)] at h
  simp only [ofClass, object, Checked.seq_ok_iff, Checked.map_ok_iff] at h
  obtain ⟨f, properties, ⟨f, methods, ⟨f, group', ⟨name, -, rfl⟩, hgroup, rfl⟩, hmethods, rfl⟩,
    hproperties, rfl⟩ := h
  obtain ⟨hmethods, hmethodKeys⟩ := table_of_asStored hc.methods hc.distinctMethods
    (Field.withDefault_of_get? rfl hmethods) fun _ _ _ hm h => sound_method hm h
  obtain ⟨hproperties, hpropertyKeys⟩ := table_of_asStored hc.properties hc.distinctProperties
    (Field.withDefault_of_get? rfl hproperties) fun _ _ _ hp h => sound_property hp h
  exact ⟨sound_groupInfo hc.group (Field.withDefault_of_get? rfl hgroup), hmethods,
    hmethodKeys ▸ hc.distinctMethods, hproperties, hpropertyKeys ▸ hc.distinctProperties⟩

end Model

namespace Cache

/-- What is read from the text of a sound model is a sound model. -/
theorem sound_of_decode {c c' : ClassModel MethodModel} (hc : c.Sound)
    (h : decode (encode c) = .ok (some c')) : c'.Sound := by
  unfold decode at h
  split at h
  · exact absurd h (by simp)
  · rename_i v hv
    obtain rfl := Json.eq_of_read?_stored hv
    split at h
    · rename_i c'' hread
      obtain rfl := Option.some.inj (Except.ok.inj h)
      exact Model.sound_class hc hread
    · exact absurd h (by simp)
    · exact absurd h (by simp)

/-! ## Directories of sound models -/

/-- Every file that answers for a key holds a sound model. -/
def Holds (t : Tree) (d : Path) : Prop :=
  ∀ key content, t.node? (t.resolve (d.child (fileName key))) = some (.file content) →
    ∃ c : ClassModel MethodModel, c.Sound ∧ content = fileOf c

section Holds

variable {t : Tree} {d : Path}

theorem sound_of_load (h : Holds t d) {key : String} {c : ClassModel MethodModel}
    (hload : load t d key = .ok (some c)) : c.Sound := by
  rw [load_eq] at hload
  cases hp : t.lookup (d.child (fileName key)) with
  | found place node =>
      rw [hp] at hload
      cases node with
      | directory => exact absurd hload (by simp [answer])
      | file content =>
          obtain ⟨rfl, hnode⟩ := Tree.lookup_found hp
          obtain ⟨stored, hstored, rfl⟩ := h key content hnode
          rw [answer_fileOf] at hload
          exact sound_of_decode hstored hload
  | _ =>
      rw [hp] at hload
      exact absurd hload (by simp [answer])

theorem holds_makeWay (h : Holds t d) : Holds (t.makeWay d).after d := by
  intro key content hfile
  rw [Tree.resolve_congr (Tree.here_makeWay t d)] at hfile
  exact h key content (Tree.file_of_makeWay hfile)

/-- Storing a sound model leaves a directory of sound models, however far it comes. -/
theorem holds_store (h : Holds t d) (key : String) {c : ClassModel MethodModel} (hc : c.Sound) :
    Holds (store t d key c).after d := by
  have hmade := holds_makeWay h
  cases hstore : store t d key c with
  | error r =>
      obtain ⟨t', e⟩ := r
      obtain ⟨rfl, -⟩ := store_error hstore
      exact hmade
  | ok t' =>
      obtain ⟨t₁, place, hmake, -, -, hfree, rfl⟩ := store_ok_iff.mp hstore
      rw [hmake] at hmade
      show Holds (t₁.put (place ++ [fileName key]) (.file (fileOf c))) d
      intro other content hfile
      rw [Tree.resolve_congr (Tree.here_put t₁ _ _)] at hfile
      -- A key of the same file name leads to the new entry; all other keys lead where they led.
      by_cases hplace : t₁.resolve (d.child (fileName other)) = place ++ [fileName key]
      · rw [hplace, Tree.node?_put_self _ hfree] at hfile
        exact ⟨c, hc, (Node.file.inj (Option.some.inj hfile)).symm⟩
      · rw [Tree.node?_put_of_ne _ hplace] at hfile
        exact hmade other content hfile

end Holds

end Cache
end Routebook
