/-
  Routebook.Proofs.Controller.Collect

  What is collected from a class is in normal form, because all tags that
  classes hold are, and it is sound (`sound_valid_model`): tags are sorted by
  their own kinds, auth tags are stored under their own names, and the group
  of the class, or the default group, stands in for the group of a method
  that names none.
-/
import Routebook.Proofs.Controller.Reflect
import Routebook.Proofs.Model.Sound

namespace Routebook

open Outcome

/-! ## Sorting tags -/

namespace Bag

/-- Items that are sorted by name: under a name stand items of that name, at least one. -/
theorem each_group {P : α → Prop} (nameOf : α → String) {items : List α} (h : ∀ a ∈ items, P a) :
    Entries.Each (fun name as => as ≠ [] ∧ ∀ a ∈ as, nameOf a = name ∧ P a)
      (group nameOf items) := by
  -- Each item keeps the bag as the statement says, whatever was in it before.
  have hrun : ∀ {bag : Entries (List α)},
      Entries.Each (fun name as => as ≠ [] ∧ ∀ a ∈ as, nameOf a = name ∧ P a) bag →
      Entries.Each (fun name as => as ≠ [] ∧ ∀ a ∈ as, nameOf a = name ∧ P a)
        (items.foldl (fun bag item => add (nameOf item) item bag) bag) := by
    induction items with
    | nil => exact fun hbag => hbag
    | cons item items ih =>
        intro bag hbag
        refine ih (fun a ha => h a (List.mem_cons_of_mem _ ha)) (Entries.each_put hbag ⟨?_, ?_⟩)
        · exact List.append_ne_nil_of_right_ne_nil _ (List.cons_ne_nil _ _)
        · intro a ha
          rcases List.mem_append.mp ha with ha | ha
          · cases hold : Entries.get? (nameOf item) bag with
            | none => simp [hold] at ha
            | some as =>
                rw [hold] at ha
                exact (hbag.of_get? hold).2 a ha
          · obtain rfl := List.mem_singleton.mp ha
            exact ⟨rfl, h a List.mem_cons_self⟩
  exact hrun Entries.each_nil

theorem nodup_keys_group (nameOf : α → String) (items : List α) :
    (Entries.keys (group nameOf items)).Nodup := by
  have hrun : ∀ {bag : Entries (List α)}, (Entries.keys bag).Nodup →
      (Entries.keys (items.foldl (fun bag item => add (nameOf item) item bag) bag)).Nodup := by
    induction items with
    | nil => exact fun hbag => hbag
    | cons item items ih => exact fun hbag => ih (Entries.nodup_keys_put _ _ hbag)
  exact hrun List.nodup_nil

/-- Kinds stand in the order of their first tag. -/
theorem keys_group (nameOf : α → String) (items : List α) :
    Entries.keys (group nameOf items) = (items.map nameOf).eraseDups := by
  -- The names in the bag are those that were met, each once and in the order of meeting.
  have hrun : ∀ {bag : Entries (List α)}, (Entries.keys bag).Nodup →
      Entries.keys (items.foldl (fun bag item => add (nameOf item) item bag) bag)
        = (Entries.keys bag ++ items.map nameOf).eraseDups := by
    induction items with
    | nil =>
        intro bag hbag
        rw [List.map_nil, List.append_nil, eraseDups_of_nodup hbag]
        rfl
    | cons item items ih =>
        intro bag hbag
        have hadded : (Entries.keys (add (nameOf item) item bag)).Nodup :=
          Entries.nodup_keys_put _ _ hbag
        rw [List.foldl_cons, ih hadded, add, Entries.keys_put, List.map_cons]
        by_cases hname : nameOf item ∈ Entries.keys bag
        · rw [if_pos hname, eraseDups_append_cons_of_mem hname]
        · rw [if_neg hname, List.append_assoc, List.singleton_append]
  exact hrun List.nodup_nil

/-- Under a name stand the items of that name, in order. -/
theorem getD_group (nameOf : α → String) (items : List α) (name : String) :
    (Entries.get? name (group nameOf items)).getD [] = items.filter fun a => nameOf a = name := by
  have hrun (bag : Entries (List α)) :
      (Entries.get? name (items.foldl (fun bag item => add (nameOf item) item bag) bag)).getD []
        = (Entries.get? name bag).getD [] ++ items.filter fun a => nameOf a = name := by
    induction items generalizing bag with
    | nil => simp
    | cons item items ih =>
        rw [List.foldl_cons, ih, add, Entries.get?_put]
        by_cases hname : nameOf item = name
        · rw [if_pos hname.symm, hname]
          simp [hname]
        · rw [if_neg (Ne.symm hname)]
          simp [hname]
  exact hrun []

theorem sound_ofTags (tags : List Tag) : (ofTags tags).Sound := by
  refine ⟨nodup_keys_group _ tags, ?_⟩
  have hsorted := @each_group _ (fun _ => True) (fun t : Tag => t.kind.name) tags fun _ _ => trivial
  exact hsorted.mono fun _ _ h => ⟨h.1, fun t ht => (h.2 t ht).1⟩

theorem valid_ofTags {tags : List Tag} (h : ∀ t ∈ tags, t.Valid) : (ofTags tags).Valid := by
  intro e he t ht
  exact ((each_group (fun t : Tag => t.kind.name) h e he).2 t ht).2

/-- A kind that no tag has is not in their bag. -/
theorem notMem_keys_ofTags {tags : List Tag} {k : Kind} (h : ∀ t ∈ tags, t.kind ≠ k) :
    k.name ∉ Entries.keys (ofTags tags) := by
  intro hmem
  obtain ⟨e, he, hname⟩ := List.mem_map.mp hmem
  obtain ⟨hne, hkinds⟩ := each_group (fun t : Tag => t.kind.name) h e he
  obtain ⟨t, ht⟩ := List.exists_mem_of_ne_nil _ hne
  obtain ⟨hkind, hother⟩ := hkinds t ht
  exact hother (Kind.name_inj (hkind.trans hname))

end Bag

namespace Collect

/-! ## Tags of a list -/

section Tags

variable {tags : List Tag} (h : ∀ t ∈ tags, t.Valid)
include h

theorem valid_group? {g : Group} (hg : group? tags = some g) : g.groupName ≠ "" := by
  obtain ⟨t, ht, hg⟩ := List.exists_of_findSome?_eq_some hg
  have hvalid := h t ht
  split at hg
  · obtain rfl := Option.some.inj hg
    exact hvalid
  · exact absurd hg (by simp)

theorem valid_description? {d : Description} (hd : description? tags = some d) :
    d.value.isContent = true := by
  obtain ⟨t, ht, hd⟩ := List.exists_of_findSome?_eq_some hd
  have hvalid := h t ht
  split at hd
  · obtain rfl := Option.some.inj hd
    exact hvalid
  · exact absurd hd (by simp)

theorem valid_auth : ∀ p ∈ auth tags, p.Valid := by
  intro p hp
  obtain ⟨t, ht, hp⟩ := List.mem_filterMap.mp hp
  have hvalid := h t ht
  split at hp
  · obtain rfl := Option.some.inj hp
    exact hvalid
  · exact absurd hp (by simp)

end Tags

theorem valid_tagsOf {attached : List Attached} (h : AllValid attached) :
    ∀ t ∈ tagsOf attached, t.Valid := by
  intro t ht
  obtain ⟨a, ha, ht⟩ := List.mem_filterMap.mp ht
  have hvalid := h a ha
  cases a with
  | tag own =>
      obtain rfl := Option.some.inj ht
      exact hvalid
  | bare kind => exact absurd ht (by simp [Attached.tag?])

/-! ## Group infos -/

/-- A group info that is sound and in normal form. -/
structure Settled (g : GroupInfo) : Prop where
  sound : g.Sound
  valid : g.Valid

/-- A group with a name is settled as long as nothing else is known. -/
theorem settled_of_group {x : Group} (hx : x.groupName ≠ "") {d : Option Description}
    (hd : ∀ y ∈ d, y.value.isContent = true) : Settled ⟨some x, d, []⟩ := by
  refine ⟨⟨⟨x, rfl, hx⟩, ?_, List.nodup_nil⟩, ⟨?_, hd, ?_⟩⟩
  · exact fun _ he => absurd he List.not_mem_nil
  · rintro y ⟨⟩
    exact hx
  · exact fun _ he => absurd he List.not_mem_nil

theorem settled_addAuth {g : GroupInfo} (h : Settled g) {p : Param} (hp : p.Valid) :
    Settled (g.addAuth p) := by
  have hkeyed : Entries.Each (fun key (q : Param) => key = q.name) g.auth := h.sound.keyed
  have hvalid : Entries.Each (fun _ (q : Param) => q.Valid) g.auth := h.valid.auth
  refine ⟨⟨h.sound.group, ?_, ?_⟩, ⟨h.valid.group, h.valid.description, ?_⟩⟩
  · exact Entries.each_put hkeyed rfl
  · exact Entries.nodup_keys_put _ _ h.sound.distinct
  · exact Entries.each_put hvalid hp

theorem settled_addAll {g : GroupInfo} (h : Settled g) {ps : List Param}
    (hps : ∀ p ∈ ps, p.Valid) : Settled (addAll g ps) := by
  induction ps generalizing g with
  | nil => exact h
  | cons p ps ih =>
      have hnext := settled_addAuth h (hps p List.mem_cons_self)
      exact ih hnext fun q hq => hps q (List.mem_cons_of_mem _ hq)

/-- Replacing all auth tags is storing them one after the other. -/
theorem setAuth_eq_addAll (ps : List Param) (group : Option Group) (d : Option Description) :
    GroupInfo.setAuth ps ⟨group, d, []⟩ = addAll ⟨group, d, []⟩ ps := by
  have hrun : ∀ auth : Entries Param,
      (⟨group, d, Entries.putAll auth (ps.map fun p => (p.name, p))⟩ : GroupInfo)
        = addAll ⟨group, d, auth⟩ ps := by
    induction ps with
    | nil => exact fun _ => rfl
    | cons p ps ih => exact fun auth => ih (Entries.put p.name p auth)
  exact hrun []

theorem settled_classGroup {default : String} {tags : List Tag} (h : ∀ t ∈ tags, t.Valid)
    {home : GroupInfo} (hhome : classGroup default tags = .ok home) : Settled home := by
  -- Both the own group of a class and the default group have a name.
  have hmade : ∀ {g : Group}, g.groupName ≠ "" →
      Settled (GroupInfo.setAuth (auth tags) ⟨some g, description? tags, []⟩) := by
    intro g hg
    rw [setAuth_eq_addAll]
    exact settled_addAll (settled_of_group hg fun d hd => valid_description? h hd) (valid_auth h)
  unfold classGroup at hhome
  split at hhome
  · rename_i g hg
    obtain rfl := Except.ok.inj hhome
    exact hmade (valid_group? h hg)
  · obtain ⟨g, hg, hhome⟩ := bind_ok_iff.mp hhome
    obtain rfl := Except.ok.inj hhome
    unfold defaultGroup at hg
    split at hg
    · exact absurd hg (by simp)
    · rename_i hdefault
      obtain rfl := Except.ok.inj hg
      exact hmade hdefault

theorem settled_methodGroup {home : GroupInfo} (hhome : Settled home) {tags : List Tag}
    (h : ∀ t ∈ tags, t.Valid) : Settled (methodGroup home tags) := by
  have hvalues : ∀ p ∈ Entries.values home.auth, p.Valid := by
    intro p hp
    obtain ⟨e, he, rfl⟩ := List.mem_map.mp hp
    exact hhome.valid.auth e he
  -- A method in a group with a name, at home or elsewhere.
  have hin : ∀ {x : Group}, x.groupName ≠ "" →
      Settled (addAll
        (if (some x).map Group.groupName = home.groupName? then
          addAll ⟨some x, home.description, []⟩ (Entries.values home.auth)
        else ⟨some x, description? tags, []⟩) (auth tags)) := by
    intro x hx
    refine settled_addAll ?_ (valid_auth h)
    split
    · exact settled_addAll (settled_of_group hx hhome.valid.description) hvalues
    · exact settled_of_group hx fun d hd => valid_description? h hd
  unfold methodGroup
  cases hg : group? tags with
  | some g => exact hin (valid_group? h hg)
  | none =>
      obtain ⟨x, hx, hne⟩ := hhome.sound.group
      have hhere := hin hne
      rw [← Option.mem_def.mp hx] at hhere
      exact hhere

/-! ## Models -/

theorem kind_of_concernsGroup {t : Tag} (h : concernsGroup t = false) : t.kind ∉ groupKinds := by
  cases t with
  | description k d => cases k <;> simp_all [concernsGroup, Tag.kind, groupKinds]
  | param k p => cases k <;> simp_all [concernsGroup, Tag.kind, groupKinds]
  | group g => exact absurd h (by simp [concernsGroup])
  | _ => simp [Tag.kind, groupKinds]

theorem sound_method {home : GroupInfo} (hhome : Settled home) (name : String) {tags : List Tag}
    (h : ∀ t ∈ tags, t.Valid) : (method home name tags).Sound name := by
  refine ⟨rfl, Bag.sound_ofTags _, fun k hk => ?_, (settled_methodGroup hhome h).sound⟩
  refine Bag.notMem_keys_ofTags fun t ht hkind => ?_
  have hown : concernsGroup t = false := by simpa using (List.mem_filter.mp ht).2
  exact kind_of_concernsGroup hown (hkind ▸ hk)

theorem valid_method {home : GroupInfo} (hhome : Settled home) (name : String) {tags : List Tag}
    (h : ∀ t ∈ tags, t.Valid) : (method home name tags).Valid :=
  ⟨Bag.valid_ofTags fun t ht => h t (List.mem_filter.mp ht).1,
    (settled_methodGroup hhome h).valid⟩

section Model

variable {default key : String} {classTags : List Attached} {owners : List Owner}
variable {publicOnly : Bool} {c : ClassModel MethodModel}

/-- What is collected from a class in normal form is sound and in normal form. -/
theorem sound_valid_model (htags : AllValid classTags) (howners : ∀ o ∈ owners, o.Valid)
    (h : model default key classTags owners publicOnly = .ok c) : c.Sound ∧ c.Valid := by
  obtain ⟨home, hgroup, h⟩ := bind_ok_iff.mp h
  obtain ⟨properties, hproperties, h⟩ := bind_ok_iff.mp h
  obtain rfl := Except.ok.inj h
  have hhome := settled_classGroup (valid_tagsOf htags) hgroup
  have hmethods := Reflect.valid_methods publicOnly howners
  have hfound := Reflect.valid_properties howners hproperties
  refine ⟨⟨hhome.sound, ?_, Entries.nodup_keys_ofPairs _, ?_, Entries.nodup_keys_ofPairs _⟩,
    ⟨hhome.valid, ?_, ?_⟩⟩
  · refine Entries.each_ofPairs fun e he => ?_
    obtain ⟨d, hd, rfl⟩ := List.mem_map.mp he
    exact sound_method hhome d.1 (valid_tagsOf (hmethods d hd))
  · refine Entries.each_ofPairs fun e he => ?_
    obtain ⟨d, hd, rfl⟩ := List.mem_map.mp he
    exact ⟨rfl, Bag.sound_ofTags _⟩
  · refine Entries.each_ofPairs (P := fun _ (m : MethodModel) => m.Valid) fun e he => ?_
    obtain ⟨d, hd, rfl⟩ := List.mem_map.mp he
    exact valid_method hhome d.1 (valid_tagsOf (hmethods d hd))
  · refine Entries.each_ofPairs (P := fun _ (p : PropertyModel) => p.bag.Valid) fun e he => ?_
    obtain ⟨d, hd, rfl⟩ := List.mem_map.mp he
    exact Bag.valid_ofTags (valid_tagsOf (hfound d hd))

end Model

end Collect
end Routebook
