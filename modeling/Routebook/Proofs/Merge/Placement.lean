/-
  Routebook.Proofs.Merge.Placement

  Where merging puts methods.  Placing is a loop over all methods that appends
  each to the group it is named by; after any part of the loop every group
  holds those of the methods seen that have its name, in scan order
  (`place_eq_map`).  The first pass has made a shell for every name that the
  loop asks for (`mem_keys_shells`), although it enters only classes and the
  methods that lie elsewhere than their class: a method that stays at home
  has the name its class has entered.

  `merge_placement` puts the parts together: the keys of the groups, the
  methods of each, nothing lost or doubled, and a loop that never asks for a
  group that is not there.
-/
import Mathlib.Data.List.Basic
import Routebook.Proofs.Merge.Completion

namespace Routebook

/-- Items that are sorted into distinct boxes, each into the box of its name. -/
theorem flatMap_filter_perm {names : List String} (hd : names.Nodup) (nameOf : μ → String)
    {ms : List μ} (h : ∀ m ∈ ms, nameOf m ∈ names) :
    (names.flatMap fun name => ms.filter fun m => nameOf m = name).Perm ms := by
  induction names generalizing ms with
  | nil =>
      cases ms with
      | nil => exact .nil
      | cons m ms => exact absurd (h m List.mem_cons_self) (by simp)
  | cons name names ih =>
      obtain ⟨hname, hd⟩ := List.nodup_cons.mp hd
      -- The other boxes take nothing from the first one.
      have hrest : (names.flatMap fun other => ms.filter fun m => nameOf m = other)
          = names.flatMap fun other =>
              (ms.filter fun m => !decide (nameOf m = name)).filter fun m => nameOf m = other := by
        refine List.flatMap_congr fun other hother => ?_
        rw [List.filter_filter]
        refine List.filter_congr fun m _ => ?_
        by_cases hm : nameOf m = other
        · have hne : other ≠ name := fun he => hname (he ▸ hother)
          simp [hm, hne]
        · simp [hm]
      rw [List.flatMap_cons, hrest]
      have hin : ∀ m ∈ ms.filter fun m => !decide (nameOf m = name), nameOf m ∈ names := by
        intro m hm
        obtain ⟨hm, hne⟩ := List.mem_filter.mp hm
        rcases List.mem_cons.mp (h m hm) with he | hin
        · simp [he] at hne
        · exact hin
      exact ((ih hd hin).append_left _).trans (List.filter_append_perm _ ms)

namespace Merge

/-! ## The names of groups -/

/-- The groups of a class and of its methods, in order. -/
def groupNames (default : String) (c : ClassModel MethodModel) : List String :=
  c.group.groupName default :: (Entries.values c.methods).map (·.group.groupName default)

/-- Methods that stay at home name no new group. -/
theorem eraseDups_leavers (default home : String) (ms : List MethodModel) (seen rest : List String)
    (hhome : home ∈ seen) :
    (seen ++ ((leavers default home ms).map Entrant.group ++ rest)).eraseDups
      = (seen ++ (ms.map (·.group.groupName default) ++ rest)).eraseDups := by
  induction ms generalizing seen with
  | nil => rfl
  | cons m ms ih =>
      -- A method that stays at home adds the name of its class, which has been seen.
      by_cases hm : m.group.groupName default = home
      · have hskip : leavers default home (m :: ms) = leavers default home ms := by
          simp [leavers, hm]
        rw [hskip, ih seen hhome, List.map_cons, List.cons_append,
          eraseDups_append_cons_of_mem (hm ▸ hhome)]
      · have hstep : leavers default home (m :: ms)
            = ⟨m.group.groupName default, false, m.group⟩ :: leavers default home ms := by
          simp [leavers, hm]
        have hnext := ih (seen ++ [m.group.groupName default]) (List.mem_append_left _ hhome)
        rw [hstep]
        simpa using hnext

/-- The groups stand in the order in which the classes and their methods first name them. -/
theorem keys_shells_eq_groupNames (default : String) (classes : List (ClassModel MethodModel)) :
    Entries.keys (shells default classes)
      = (classes.flatMap (groupNames default)).eraseDups := by
  have hrun : ∀ seen : List String,
      (seen ++ (allEntrants default classes).map Entrant.group).eraseDups
        = (seen ++ classes.flatMap (groupNames default)).eraseDups := by
    induction classes with
    | nil => intro seen; rfl
    | cons c classes ih =>
        intro seen
        have hhere := eraseDups_leavers default (c.group.groupName default)
          (Entries.values c.methods) (seen ++ [c.group.groupName default])
          ((allEntrants default classes).map Entrant.group) (by simp)
        have hrest := ih (seen ++ groupNames default c)
        simp only [allEntrants, entrants, groupNames, List.flatMap_cons, List.map_append,
          List.map_cons, List.append_assoc, List.cons_append, List.nil_append] at hhere hrest ⊢
        rw [hhere, hrest]
  rw [keys_shells]
  exact hrun []

theorem nodup_keys_shells (default : String) (classes : List (ClassModel MethodModel)) :
    (Entries.keys (shells default classes)).Nodup := by
  rw [shells_eq]
  exact nodup_keys_enterEach [] _ List.nodup_nil

theorem shellOf_of_mem {default : String} {classes : List (ClassModel MethodModel)}
    {e : String × Shell} (he : e ∈ shells default classes) :
    shellOf (shells default classes) e.1 = e.2 := by
  unfold shellOf
  rw [Entries.get?_eq_some_of_mem (nodup_keys_shells default classes) he, Option.getD_some]

/-- Every method finds a shell under the name of its group. -/
theorem mem_keys_shells (default : String) {classes : List (ClassModel MethodModel)}
    {m : MethodModel} (h : m ∈ allMethods classes) :
    m.group.groupName default ∈ Entries.keys (shells default classes) := by
  rw [keys_shells_eq_groupNames, List.mem_eraseDups]
  obtain ⟨c, hc, hm⟩ := List.mem_flatMap.mp h
  exact List.mem_flatMap.mpr ⟨c, hc, List.mem_cons_of_mem _ (List.mem_map_of_mem hm)⟩

/-! ## Placing -/

theorem keys_unplaced (all : Shells) :
    Entries.keys (unplaced all : Entries (MergedGroup μ)) = Entries.keys all := by
  simp [Entries.keys, unplaced, Function.comp_def]

/-- After some methods every group holds, behind those it had, the ones of its name. -/
theorem place_eq_map (nameOf : μ → String) (groups : Entries (MergedGroup μ)) (ms : List μ) :
    place nameOf groups ms
      = groups.map fun e =>
          (e.1, { e.2 with methods := e.2.methods ++ ms.filter fun m => nameOf m = e.1 }) := by
  induction ms generalizing groups with
  | nil => simp [place]
  | cons m ms ih =>
      have hstep : place nameOf groups (m :: ms)
          = place nameOf
              (Entries.modify (nameOf m) (fun g => { g with methods := g.methods ++ [m] }) groups)
              ms := rfl
      rw [hstep, ih, Entries.modify, List.map_map]
      refine List.map_congr_left fun e _ => ?_
      by_cases he : e.1 = nameOf m
      · simp [he]
      · simp [he, Ne.symm he]

theorem keys_place (nameOf : μ → String) (groups : Entries (MergedGroup μ)) (ms : List μ) :
    Entries.keys (place nameOf groups ms) = Entries.keys groups := by
  rw [place_eq_map]
  simp [Entries.keys, Function.comp_def]

end Merge

namespace Heap

open Merge

/-- The group that a shared method lies in. -/
def groupOf (h : Heap) (default : String) (id : MethodId) : String :=
  (h.method id).group.groupName default

theorem groupOf_merge (h : Heap) (default : String) (ids : List ModelId) (id : MethodId) :
    (h.merge default ids).1.groupOf default id = h.groupOf default id := by
  unfold groupOf
  rw [merge_fst, method_completeAll]
  split <;> rfl

theorem allMethods_map_model (h : Heap) (ids : List ModelId) :
    allMethods (ids.map h.model) = (h.methodsOf ids).map h.method := by
  unfold allMethods methodsOf allMethods
  rw [List.map_flatMap, List.flatMap_map, List.flatMap_map]
  exact List.flatMap_congr fun id _ => values_mapMethods h.method (h.held id)

/-- The groups of a merge: each shell with the methods of its name. -/
theorem merge_snd_eq_map (h : Heap) (default : String) (ids : List ModelId) :
    (h.merge default ids).2
      = (shells default (ids.map h.model)).map fun e =>
          (e.1, ⟨e.1, e.2.description, e.2.auth,
            (h.methodsOf ids).filter fun id => h.groupOf default id = e.1⟩) := by
  have hname : (fun id => ((h.merge default ids).1.method id).group.groupName default)
      = h.groupOf default := funext (groupOf_merge h default ids)
  rw [merge_snd, hname, place_eq_map, unplaced, List.map_map]
  rfl

theorem keys_merge (h : Heap) (default : String) (ids : List ModelId) :
    Entries.keys (h.merge default ids).2 = Entries.keys (shells default (ids.map h.model)) := by
  rw [merge_snd, keys_place, keys_unplaced]

theorem groupOf_mem_keys_shells {h : Heap} (default : String) {ids : List ModelId} {id : MethodId}
    (hid : id ∈ h.methodsOf ids) :
    h.groupOf default id ∈ Entries.keys (shells default (ids.map h.model)) :=
  mem_keys_shells default (allMethods_map_model h ids ▸ List.mem_map_of_mem hid)

/-- The merged group of a name: its shell, with the methods of its name. -/
def groupNamed (h : Heap) (default : String) (ids : List ModelId) (name : String) :
    MergedGroup MethodId :=
  ⟨name, (shellOf (shells default (ids.map h.model)) name).description,
    authOf (shells default (ids.map h.model)) name,
    (h.methodsOf ids).filter fun id => h.groupOf default id = name⟩

theorem eq_of_mem_merge {h : Heap} {default : String} {ids : List ModelId}
    {e : String × MergedGroup MethodId} (he : e ∈ (h.merge default ids).2) :
    e.2 = h.groupNamed default ids e.1 := by
  rw [merge_snd_eq_map] at he
  obtain ⟨d, hd, rfl⟩ := List.mem_map.mp he
  rw [groupNamed, authOf_eq, shellOf_of_mem hd]

theorem get?_merge {h : Heap} {default : String} {ids : List ModelId} {name : String}
    (hname : name ∈ Entries.keys (h.merge default ids).2) :
    Entries.get? name (h.merge default ids).2 = some (h.groupNamed default ids name) := by
  obtain ⟨e, he, rfl⟩ := List.mem_map.mp hname
  rw [Entries.get?_eq_some_of_mem (keys_merge h default ids ▸ nodup_keys_shells default _) he,
    eq_of_mem_merge he]

/-- Merging places every method once, in the group it lies in:

* the keys are the groups of the classes and of their methods, each at its
  first mention;
* a group has its key for a name and holds, of all methods in scan order,
  those that lie in it;
* the methods of all groups together are all methods;
* whenever the turn of a method comes, its group has a shell and is found
  among the groups. -/
theorem merge_placement (h : Heap) (default : String) (ids : List ModelId) :
    Entries.keys (h.merge default ids).2
        = ((ids.map h.model).flatMap (groupNames default)).eraseDups ∧
      (Entries.keys (h.merge default ids).2).Nodup ∧
      (∀ e ∈ (h.merge default ids).2, e.2.name = e.1 ∧
        e.2.methods = (h.methodsOf ids).filter fun id => h.groupOf default id = e.1) ∧
      ((h.merge default ids).2.flatMap fun e => e.2.methods).Perm (h.methodsOf ids) ∧
      ∀ done id rest, h.methodsOf ids = done ++ id :: rest →
        ∃ s g, Entries.get? (h.groupOf default id) (shells default (ids.map h.model)) = some s ∧
          Entries.get? (h.groupOf default id)
            (place (h.groupOf default) (unplaced (shells default (ids.map h.model))) done)
              = some g := by
  have hkeys : Entries.keys (h.merge default ids).2
      = Entries.keys (shells default (ids.map h.model)) := by
    rw [merge_snd, keys_place, keys_unplaced]
  have hfound : ∀ id ∈ h.methodsOf ids,
      h.groupOf default id ∈ Entries.keys (shells default (ids.map h.model)) := fun id hid =>
    mem_keys_shells default (allMethods_map_model h ids ▸ List.mem_map_of_mem hid)
  refine ⟨?_, ?_, ?_, ?_, ?_⟩
  · rw [hkeys, keys_shells_eq_groupNames]
  · rw [hkeys]
    exact nodup_keys_shells default _
  · intro e he
    rw [merge_snd_eq_map] at he
    obtain ⟨d, -, rfl⟩ := List.mem_map.mp he
    exact ⟨rfl, rfl⟩
  · have hboxes : ((h.merge default ids).2.flatMap fun e => e.2.methods)
        = (Entries.keys (shells default (ids.map h.model))).flatMap fun name =>
            (h.methodsOf ids).filter fun id => h.groupOf default id = name := by
      rw [merge_snd_eq_map, Entries.keys, List.flatMap_map, List.flatMap_map]
    rw [hboxes]
    exact flatMap_filter_perm (nodup_keys_shells default _) (h.groupOf default) hfound
  · intro done id rest hsplit
    have hid : h.groupOf default id ∈ Entries.keys (shells default (ids.map h.model)) :=
      hfound id (hsplit ▸ by simp)
    obtain ⟨s, hs⟩ := Entries.exists_get?_of_mem_keys hid
    obtain ⟨g, hg⟩ := Entries.exists_get?_of_mem_keys
      (m := place (h.groupOf default) (unplaced (shells default (ids.map h.model))) done)
      (by rw [keys_place, keys_unplaced]; exact hid)
    exact ⟨s, g, hs, hg⟩

end Heap
end Routebook
