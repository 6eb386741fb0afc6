/-
  Routebook.Proofs.Controller.Resolution

  Which group the methods of a class lie in, and with which description and
  auth tags.  The rules are stated on the lists of tags as they are written
  (`ClassResolved`, `MethodResolved`, `Sorted`), and collecting follows them
  for every class (`resolved_model`).

  What a method takes from its class depends on the names of the two groups
  and on nothing else: a method that names the group of its class itself loses
  its own description like one that names no group.
-/
import Routebook.Proofs.Controller.Collect

namespace Routebook

/-! ## Tags that say something of a group -/

namespace Tag

/-- The group that a tag names. -/
def group? : Tag → Option Group
  | .group g => some g
  | _ => none

/-- The description of a group that a tag gives. -/
def groupDescription? : Tag → Option Description
  | .description .groupDescription d => some d
  | _ => none

/-- The auth tag of a group that a tag is. -/
def groupAuth? : Tag → Option Param
  | .param .groupAuth p => some p
  | _ => none

end Tag

/-! ## The rules -/

/-- Named tags over a base: each name in its first place, with its last tag. -/
structure Overrides (base : Entries Param) (ps : List Param) (auth : Entries Param) : Prop where
  places : Entries.keys auth = (Entries.keys base ++ ps.map Param.name).eraseDups
  values : ∀ name, Entries.get? name auth
    = ((ps.filter fun p => p.name = name).getLast?).or (Entries.get? name base)

/-- The group info of a class: its first group tag or the default group, its first
description, and its auth tags by name. -/
structure ClassResolved (default : String) (tags : List Tag) (g : GroupInfo) : Prop where
  group : g.group = some (((tags.filterMap Tag.group?).head?).getD ⟨default⟩)
  description : g.description = (tags.filterMap Tag.groupDescription?).head?
  auth : Overrides [] (tags.filterMap Tag.groupAuth?) g.auth

/-- The group info of a method of a class whose group info is `home`: its own first
group tag or the group of the class; in a group of the class's name what the class has,
the auth tags overridden by its own ones; in another group what it has itself. -/
structure MethodResolved (home : GroupInfo) (tags : List Tag) (g : GroupInfo) : Prop where
  group : g.group = ((tags.filterMap Tag.group?).head?).or home.group
  inside : g.groupName? = home.groupName? →
    g.description = home.description ∧ Overrides home.auth (tags.filterMap Tag.groupAuth?) g.auth
  outside : g.groupName? ≠ home.groupName? →
    g.description = (tags.filterMap Tag.groupDescription?).head? ∧
      Overrides [] (tags.filterMap Tag.groupAuth?) g.auth

/-- The bag of a method: its tags but for those that say something of a group, by kind
in the order of their first one, and those of a kind in the order written. -/
structure Sorted (tags : List Tag) (bag : Bag) : Prop where
  kinds : Entries.keys bag
    = ((tags.filter fun t => t.kind ∉ groupKinds).map fun t => t.kind.name).eraseDups
  others : ∀ kind ∉ groupKinds, Bag.tags bag kind.name = tags.filter fun t => t.kind = kind
  groups : ∀ kind ∈ groupKinds, Bag.tags bag kind.name = []

/-- What is collected under a name follows the rules for the tags of a method. -/
structure Collected (home : GroupInfo) (reflected : String × List Tag) (m : String × MethodModel) :
    Prop where
  key : m.1 = reflected.1
  name : m.2.name = reflected.1
  group : MethodResolved home reflected.2 m.2.group
  bag : Sorted reflected.2 m.2.bag

/-- A class model follows the rules for the tags of the class and of its methods. -/
structure Resolved (default : String) (tags : List Tag) (reflected : Entries (List Tag))
    (c : ClassModel MethodModel) : Prop where
  group : ClassResolved default tags c.group
  methods : List.Forall₂ (Collected c.group) reflected c.methods

namespace Collect

/-! ## First tags -/

theorem group?_eq (tags : List Tag) : group? tags = (tags.filterMap Tag.group?).head? := by
  rw [List.head?_filterMap]
  refine congrArg (fun f => tags.findSome? f) (funext fun t => ?_)
  cases t <;> rfl

theorem description?_eq (tags : List Tag) :
    description? tags = (tags.filterMap Tag.groupDescription?).head? := by
  rw [List.head?_filterMap]
  refine congrArg (fun f => tags.findSome? f) (funext fun t => ?_)
  cases t with
  | description k d => cases k <;> rfl
  | _ => rfl

theorem auth_eq (tags : List Tag) : auth tags = tags.filterMap Tag.groupAuth? := by
  refine congrArg (fun f => tags.filterMap f) (funext fun t => ?_)
  cases t with
  | param k p => cases k <;> rfl
  | _ => rfl

theorem concernsGroup_eq_false_iff {t : Tag} : concernsGroup t = false ↔ t.kind ∉ groupKinds := by
  refine ⟨kind_of_concernsGroup, fun h => ?_⟩
  cases t with
  | description k d => cases k <;> simp_all [concernsGroup, Tag.kind, groupKinds]
  | param k p => cases k <;> simp_all [concernsGroup, Tag.kind, groupKinds]
  | group g => exact absurd h (by simp [Tag.kind, groupKinds])
  | _ => rfl

/-! ## Auth tags by name -/

/-- Tags that are stored under their own names, the last one of a name. -/
theorem get?_ofPairs_named (ps : List Param) (name : String) :
    Entries.get? name (Entries.ofPairs (ps.map fun p => (p.name, p)))
      = (ps.filter fun p => p.name = name).getLast? := by
  induction ps with
  | nil => rfl
  | cons p ps ih =>
      rw [List.map_cons, Entries.get?_ofPairs_cons, ih]
      by_cases hname : p.name = name
      · rw [if_pos hname.symm, List.filter_cons_of_pos (by simpa using hname), List.getLast?_cons]
        cases (ps.filter fun p => p.name = name).getLast? <;> rfl
      · rw [if_neg (Ne.symm hname), Option.or_none, List.filter_cons_of_neg (by simpa using hname)]

theorem overrides_putAll {base : Entries Param} (hd : (Entries.keys base).Nodup) (ps : List Param) :
    Overrides base ps (Entries.putAll base (ps.map fun p => (p.name, p))) := by
  refine ⟨?_, fun name => ?_⟩
  · rw [Entries.keys_putAll _ hd, Entries.keys, Entries.keys, List.map_map]
    rfl
  · rw [Entries.get?_putAll, get?_ofPairs_named]

theorem overrides_ofPairs (ps : List Param) :
    Overrides [] ps (Entries.ofPairs (ps.map fun p => (p.name, p))) := by
  have hnone : (Entries.keys ([] : Entries Param)).Nodup := List.nodup_nil
  exact overrides_putAll hnone ps

theorem addAll_eq (g : GroupInfo) (ps : List Param) :
    addAll g ps = { g with auth := Entries.putAll g.auth (ps.map fun p => (p.name, p)) } := by
  induction ps generalizing g with
  | nil => rfl
  | cons p ps ih => exact ih (g.addAuth p)

/-- Tags that stand under their own names are stored again as they stand. -/
theorem addAll_keyed {auth : Entries Param} (hd : (Entries.keys auth).Nodup)
    (hkeyed : ∀ e ∈ auth, e.1 = e.2.name) (group : Option Group) (d : Option Description) :
    addAll ⟨group, d, []⟩ (Entries.values auth) = ⟨group, d, auth⟩ := by
  have hpairs : (Entries.values auth).map (fun p => (p.name, p)) = auth := by
    rw [Entries.values, List.map_map]
    exact map_eq_self fun e he => Prod.ext (hkeyed e he).symm rfl
  rw [addAll_eq, hpairs]
  exact congrArg (GroupInfo.mk group d) (Entries.ofPairs_eq_self hd)

/-! ## Group infos -/

/-- With a default group the group info of a class can always be made. -/
theorem classGroup_eq {default : String} (hdefault : default ≠ "") (tags : List Tag) :
    classGroup default tags
      = .ok ⟨some ((group? tags).getD ⟨default⟩), description? tags,
          Entries.ofPairs ((auth tags).map fun p => (p.name, p))⟩ := by
  unfold classGroup defaultGroup
  rw [if_neg hdefault]
  cases group? tags <;> rfl

section ClassGroup

variable {default : String} {tags : List Tag} {home : GroupInfo}

theorem resolved_classGroup (hdefault : default ≠ "") (h : classGroup default tags = .ok home) :
    ClassResolved default tags home := by
  rw [classGroup_eq hdefault] at h
  obtain rfl := Except.ok.inj h
  refine ⟨?_, description?_eq tags, ?_⟩
  · rw [group?_eq]
  · rw [auth_eq]
    exact overrides_ofPairs _

theorem keyed_classGroup (hdefault : default ≠ "") (h : classGroup default tags = .ok home) :
    (Entries.keys home.auth).Nodup ∧ home.AuthKeyed := by
  rw [classGroup_eq hdefault] at h
  obtain rfl := Except.ok.inj h
  refine ⟨Entries.nodup_keys_ofPairs _, ?_⟩
  have hkeyed : Entries.Each (fun name (p : Param) => name = p.name)
      (Entries.ofPairs ((auth tags).map fun p => (p.name, p))) := by
    refine Entries.each_ofPairs fun e he => ?_
    obtain ⟨p, -, rfl⟩ := List.mem_map.mp he
    rfl
  exact hkeyed

/-- A method that is inside the group of its class starts from what the class has. -/
theorem methodGroup_inside (hd : (Entries.keys home.auth).Nodup) (hkeyed : home.AuthKeyed)
    (h : ((group? tags).or home.group).map Group.groupName = home.groupName?) :
    methodGroup home tags = ⟨(group? tags).or home.group, home.description,
      Entries.putAll home.auth ((auth tags).map fun p => (p.name, p))⟩ := by
  have hgroup : methodGroup home tags
      = addAll (addAll ⟨(group? tags).or home.group, home.description, []⟩
          (Entries.values home.auth)) (auth tags) := by
    unfold methodGroup
    cases hown : group? tags <;> (rw [hown] at h; exact congrArg (addAll · _) (if_pos h))
  rw [hgroup, addAll_keyed hd hkeyed, addAll_eq]

/-- A method in another group has nothing but its own. -/
theorem methodGroup_outside
    (h : ((group? tags).or home.group).map Group.groupName ≠ home.groupName?) :
    methodGroup home tags = ⟨(group? tags).or home.group, description? tags,
      Entries.ofPairs ((auth tags).map fun p => (p.name, p))⟩ := by
  have hgroup : methodGroup home tags
      = addAll ⟨(group? tags).or home.group, description? tags, []⟩ (auth tags) := by
    unfold methodGroup
    cases hown : group? tags <;> (rw [hown] at h; exact congrArg (addAll · _) (if_neg h))
  rw [hgroup, addAll_eq]
  rfl

theorem resolved_methodGroup (hd : (Entries.keys home.auth).Nodup) (hkeyed : home.AuthKeyed)
    (tags : List Tag) : MethodResolved home tags (methodGroup home tags) := by
  by_cases hhome : ((group? tags).or home.group).map Group.groupName = home.groupName?
  · -- The same name, whoever gave it.
    rw [methodGroup_inside hd hkeyed hhome, auth_eq, group?_eq]
    rw [group?_eq] at hhome
    exact ⟨rfl, fun _ => ⟨rfl, overrides_putAll hd _⟩, fun hother => absurd hhome hother⟩
  · rw [methodGroup_outside hhome, auth_eq, group?_eq]
    rw [group?_eq] at hhome
    refine ⟨rfl, fun hsame => absurd hsame hhome, fun _ => ⟨description?_eq tags, ?_⟩⟩
    exact overrides_ofPairs _

end ClassGroup

/-! ## Bags -/

theorem sorted_ofTags (tags : List Tag) :
    Sorted tags (Bag.ofTags (tags.filter fun t => !concernsGroup t)) := by
  have hkept : (fun t => !concernsGroup t) = fun t : Tag => decide (t.kind ∉ groupKinds) := by
    funext t
    rw [Bool.eq_iff_iff, Bool.not_eq_true', decide_eq_true_iff, concernsGroup_eq_false_iff]
  rw [hkept]
  -- A bag holds the tags of a kind under the name of the kind, and names tell kinds apart.
  have htags (kind : Kind) :
      Bag.tags (Bag.ofTags (tags.filter fun t => t.kind ∉ groupKinds)) kind.name
        = (tags.filter fun t => t.kind ∉ groupKinds).filter fun t => t.kind.name = kind.name :=
    Bag.getD_group _ _ _
  refine ⟨Bag.keys_group _ _, fun kind hkind => ?_, fun kind hkind => ?_⟩
  · rw [htags, List.filter_filter]
    refine List.filter_congr fun t _ => ?_
    rw [Bool.eq_iff_iff]
    simp only [Bool.and_eq_true, decide_eq_true_iff]
    constructor
    · rintro ⟨hname, -⟩
      exact Kind.name_inj hname
    · rintro rfl
      exact ⟨rfl, hkind⟩
  · rw [htags, List.filter_eq_nil_iff]
    intro t ht hname
    have hother := (List.mem_filter.mp ht).2
    rw [Kind.name_inj (of_decide_eq_true hname)] at hother
    exact of_decide_eq_true hother hkind

/-! ## Models -/

section Model

variable {default key : String} {classTags : List Attached} {owners : List Owner}
variable {publicOnly : Bool} {c : ClassModel MethodModel}

/-- With a default group only a property can keep a class from being collected. -/
theorem model_eq (hdefault : default ≠ "") (key : String) (classTags : List Attached)
    (owners : List Owner) (publicOnly : Bool) :
    ∃ home, classGroup default (tagsOf classTags) = .ok home ∧
      model default key classTags owners publicOnly
        = (Reflect.properties publicOnly owners).map fun properties =>
            ⟨key, home,
              Entries.ofPairs ((Reflect.methods publicOnly owners).map fun e =>
                (e.1, method home e.1 (tagsOf e.2))),
              Entries.ofPairs (properties.map fun e => (e.1, property e.1 (tagsOf e.2)))⟩ := by
  refine ⟨_, classGroup_eq hdefault _, ?_⟩
  unfold model
  rw [classGroup_eq hdefault]
  cases Reflect.properties publicOnly owners <;> rfl

/-- Collecting a class follows the rules. -/
theorem resolved_model (hdefault : default ≠ "")
    (h : model default key classTags owners publicOnly = .ok c) :
    Resolved default (tagsOf classTags)
      (Entries.mapValues tagsOf (Entries.ofPairs (Reflect.methods publicOnly owners))) c := by
  obtain ⟨home, hhome, hmodel⟩ := model_eq hdefault key classTags owners publicOnly
  rw [hmodel] at h
  obtain ⟨properties, -, rfl⟩ := Outcome.map_ok_iff.mp h
  obtain ⟨hd, hkeyed⟩ := keyed_classGroup hdefault hhome
  refine ⟨resolved_classGroup hdefault hhome, ?_⟩
  show List.Forall₂ (Collected home) _ (Entries.ofPairs _)
  rw [Entries.ofPairs_map fun name tags => method home name (tagsOf tags), Entries.mapValues,
    List.forall₂_map_left_iff, List.forall₂_map_right_iff, List.forall₂_same]
  intro e _
  exact ⟨rfl, rfl, resolved_methodGroup hd hkeyed _, sorted_ofTags _⟩

end Model

end Collect
end Routebook
