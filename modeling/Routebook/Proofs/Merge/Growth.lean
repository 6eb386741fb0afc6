/-
  Routebook.Proofs.Merge.Growth

  One more class.  The first pass over some classes and one more is the first
  pass over these, and then the entrants of the new class; so the shells of
  groups that it does not touch stay as they are, and those that it touches
  only grow (`shellOf_snoc`, `prefix_authOf_snoc`).  The second pass follows:
  what a method is given grows at its end (`prefix_auth_merge_snoc`).

  `merge_snoc` says what this means for the merged groups.
-/
import Routebook.Proofs.Merge.Backfill
import Routebook.Proofs.Merge.Precedence

namespace Routebook

namespace Merge

variable {default : String} (classes : List (ClassModel MethodModel)) (c : ClassModel MethodModel)

/-! ## The first pass -/

theorem shells_snoc :
    shells default (classes ++ [c]) = enterEach (shells default classes) (entrants default c) := by
  rw [shells_eq, shells_eq, allEntrants, allEntrants, List.flatMap_append, List.flatMap_singleton]
  exact List.foldl_append

theorem shellOf_snoc (name : String) :
    shellOf (shells default (classes ++ [c])) name
      = ((entrants default c).filter fun e => e.group = name).foldl (fun s e => e.enter s)
          (shellOf (shells default classes) name) := by
  rw [shells_snoc, shellOf_enterEach]

/-- The old groups stand in front. -/
theorem prefix_keys_shells_snoc :
    Entries.keys (shells default classes) <+: Entries.keys (shells default (classes ++ [c])) := by
  rw [shells_snoc, keys_enterEach _ _ (nodup_keys_shells default classes), List.eraseDups_append,
    eraseDups_of_nodup (nodup_keys_shells default classes)]
  exact List.prefix_append _ _

/-- A group that the new class does not touch has the shell it had. -/
theorem shellOf_snoc_of_notMem {name : String} (hname : name ∉ groupNames default c) :
    shellOf (shells default (classes ++ [c])) name = shellOf (shells default classes) name := by
  obtain ⟨hhome, hmethods⟩ := not_or.mp (fun h => hname (List.mem_cons.mpr h))
  have hnone : (entrants default c).filter (fun e => e.group = name) = [] := by
    refine List.filter_eq_nil_iff.mpr fun e he => ?_
    rcases List.mem_cons.mp he with rfl | he
    · simpa using Ne.symm hhome
    · obtain ⟨m, hm, rfl⟩ := List.mem_map.mp he
      have hne : m.group.groupName default ≠ name := fun heq =>
        hmethods (heq ▸ List.mem_map_of_mem (List.mem_filter.mp hm).1)
      simpa using hne
  rw [shellOf_snoc, hnone, List.foldl_nil]

/-- The auth tags that a group has stay in front. -/
theorem prefix_authOf_snoc (name : String) :
    authOf (shells default classes) name <+: authOf (shells default (classes ++ [c])) name := by
  rw [authOf_eq, authOf_eq, shellOf_snoc, auth_foldl_enter]
  exact Entries.prefix_putAllNew _ _

/-- A description that is there does not get lost. -/
theorem isSome_description_snoc {name : String}
    (h : (shellOf (shells default classes) name).description.isSome = true) :
    (shellOf (shells default (classes ++ [c])) name).description.isSome = true := by
  rw [shellOf_snoc, description_foldl_enter, foldl_describe_eq, Option.isSome_or, Option.isSome_or,
    h, Bool.true_or, Bool.or_true]

end Merge

namespace Heap

open Merge

variable (h : Heap) (default : String) (ids : List ModelId) (id : ModelId)

/-! ## The second pass -/

theorem map_model_snoc : (ids ++ [id]).map h.model = ids.map h.model ++ [h.model id] := by
  rw [List.map_append, List.map_singleton]

theorem methodsOf_snoc :
    h.methodsOf (ids ++ [id]) = h.methodsOf ids ++ Entries.values (h.held id).methods := by
  unfold methodsOf allMethods
  rw [List.map_append, List.flatMap_append, List.map_singleton, List.flatMap_singleton]

/-- The groups of the methods of a class are among those it touches. -/
theorem groupOf_mem_groupNames {m : MethodId} (hm : m ∈ Entries.values (h.held id).methods) :
    h.groupOf default m ∈ groupNames default (h.model id) := by
  refine List.mem_cons_of_mem _ ?_
  rw [model, values_mapMethods, List.map_map]
  exact List.mem_map_of_mem hm

/-- What a method has after merging some classes stays in front when one more is merged. -/
theorem prefix_auth_merge_snoc (m : MethodId) (hm : m ∈ h.methodsOf ids) :
    ((h.merge default ids).1.method m).group.auth
      <+: ((h.merge default (ids ++ [id])).1.method m).group.auth := by
  have hm' : m ∈ h.methodsOf (ids ++ [id]) := by
    rw [methodsOf_snoc]
    exact List.mem_append_left _ hm
  rcases Nat.lt_or_ge m h.methods.length with hmade | hmade
  · rw [method_merge_of_mem default hm hmade, method_merge_of_mem default hm' hmade,
      auth_complete_eq, auth_complete_eq, map_model_snoc]
    exact (List.prefix_append_right_inj _).mpr ((prefix_authOf_snoc _ _ _).filter _)
  · simp only [method_merge_of_le hmade, List.prefix_rfl]

/-- A method of a group that the new class does not touch is as it was. -/
theorem method_merge_snoc_of_notMem {m : MethodId}
    (hname : h.groupOf default m ∉ groupNames default (h.model id)) :
    (h.merge default (ids ++ [id])).1.method m = (h.merge default ids).1.method m := by
  have hgroup : authOf (shells default ((ids ++ [id]).map h.model)) (h.groupOf default m)
      = authOf (shells default (ids.map h.model)) (h.groupOf default m) := by
    rw [authOf_eq, authOf_eq, map_model_snoc, shellOf_snoc_of_notMem _ _ hname]
  -- The method is completed by its group, and the new class adds nothing to that group.
  by_cases hm : m ∈ h.methodsOf ids
  · have hm' : m ∈ h.methodsOf (ids ++ [id]) := by
      rw [methodsOf_snoc]
      exact List.mem_append_left _ hm
    rcases Nat.lt_or_ge m h.methods.length with hmade | hmade
    · rw [method_merge_of_mem default hm hmade, method_merge_of_mem default hm' hmade]
      exact congrArg (backfill · (h.method m)) hgroup
    · rw [method_merge_of_le hmade, method_merge_of_le hmade]
  · have hm' : m ∉ h.methodsOf (ids ++ [id]) := by
      rw [methodsOf_snoc]
      refine fun hc => (List.mem_append.mp hc).elim hm fun hnew => ?_
      exact hname (groupOf_mem_groupNames h default id hnew)
    rw [method_merge_of_notMem hm, method_merge_of_notMem hm']

/-! ## The groups -/

theorem prefix_keys_merge_snoc :
    Entries.keys (h.merge default ids).2 <+: Entries.keys (h.merge default (ids ++ [id])).2 := by
  rw [keys_merge, keys_merge, map_model_snoc]
  exact prefix_keys_shells_snoc _ _

/-- The methods of a group that the new class does not touch are those it had. -/
theorem filter_methodsOf_snoc {name : String} (hname : name ∉ groupNames default (h.model id)) :
    ((h.methodsOf (ids ++ [id])).filter fun m => h.groupOf default m = name)
      = (h.methodsOf ids).filter fun m => h.groupOf default m = name := by
  have hnone : ∀ m ∈ Entries.values (h.held id).methods,
      ¬decide (h.groupOf default m = name) = true := by
    intro m hm hgroup
    exact hname (of_decide_eq_true hgroup ▸ groupOf_mem_groupNames h default id hm)
  rw [methodsOf_snoc, List.filter_append, List.filter_eq_nil_iff.mpr hnone, List.append_nil]

/-- One more class at the end is local.

* The old groups stay in front.
* A group that is neither the group of the new class nor one of its methods' is
  the same as before, with all its methods as they are.
* Any other old group keeps its auth tags in front, and its methods, which keep
  theirs in front and change in nothing else; and if it had a description, it
  has one. -/
theorem merge_snoc :
    Entries.keys (h.merge default ids).2 <+: Entries.keys (h.merge default (ids ++ [id])).2 ∧
      ∀ e ∈ (h.merge default ids).2, ∃ g,
        Entries.get? e.1 (h.merge default (ids ++ [id])).2 = some g ∧
        (e.1 ∉ groupNames default (h.model id) → g = e.2 ∧
          (h.merge default (ids ++ [id])).1.merged g = (h.merge default ids).1.merged e.2) ∧
        g.name = e.2.name ∧ e.2.auth <+: g.auth ∧ e.2.methods <+: g.methods ∧
        (∀ m ∈ e.2.methods,
          ((h.merge default ids).1.method m).group.auth
              <+: ((h.merge default (ids ++ [id])).1.method m).group.auth ∧
            (h.merge default (ids ++ [id])).1.method m
              = ((h.merge default ids).1.method m).withAuth
                  ((h.merge default (ids ++ [id])).1.method m).group.auth) ∧
        (e.2.description.isSome = true → g.description.isSome = true) := by
  have hkeys := prefix_keys_merge_snoc h default ids id
  refine ⟨hkeys, fun e he => ⟨_, get?_merge (hkeys.subset (Entries.mem_keys_of_mem he)), ?_⟩⟩
  rw [eq_of_mem_merge he]
  generalize e.1 = name
  refine ⟨fun hname => ?_, rfl, ?_, ?_, fun m hm => ?_, fun hsome => ?_⟩
  · have hmethods : ((h.methodsOf ids).filter fun m => h.groupOf default m = name).map
          (h.merge default (ids ++ [id])).1.method
        = ((h.methodsOf ids).filter fun m => h.groupOf default m = name).map
            (h.merge default ids).1.method := by
      refine List.map_congr_left fun m hm => method_merge_snoc_of_notMem h default ids id ?_
      rwa [of_decide_eq_true (List.mem_filter.mp hm).2]
    have hgroup : h.groupNamed default (ids ++ [id]) name = h.groupNamed default ids name := by
      unfold groupNamed
      rw [map_model_snoc, authOf_eq, authOf_eq, shellOf_snoc_of_notMem _ _ hname,
        filter_methodsOf_snoc h default ids id hname]
    rw [hgroup]
    exact ⟨rfl, congrArg (MergedGroup.mk name _ _) hmethods⟩
  · unfold groupNamed
    rw [map_model_snoc]
    exact prefix_authOf_snoc _ _ _
  · unfold groupNamed
    rw [methodsOf_snoc, List.filter_append]
    exact List.prefix_append _ _
  · refine ⟨prefix_auth_merge_snoc h default ids id m (List.mem_filter.mp hm).1, ?_⟩
    rw [method_merge_eq_withAuth h default (ids ++ [id]) m,
      method_merge_eq_withAuth h default ids m]
    rfl
  · unfold groupNamed
    rw [map_model_snoc]
    exact isSome_description_snoc _ _ hsome

end Heap
end Routebook
