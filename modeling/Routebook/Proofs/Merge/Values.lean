/-
  Routebook.Proofs.Merge.Values

  Merging seen by values.  For models that own their methods, merging shared
  models makes of their values what `completed` says (`mapValues_model_merge`),
  and its groups are those of the values (`mapValues_merged`).  Completing is
  idempotent (`completed_completed`), and merging completed models leaves them
  all as they are (`merge_of_completed`).
-/
import Routebook.Proofs.Merge.Stability
import Routebook.Proofs.Session.Heap

namespace Routebook

namespace Merge

variable (default : String)

/-- The auth tags of all methods stand under their own names. -/
def Keyed (objects : Entries (ClassModel MethodModel)) : Prop :=
  ∀ c ∈ Entries.values objects, ∀ m ∈ Entries.values c.methods, m.group.AuthKeyed

/-! ## Completing twice -/

/-- Completed models have the shells of the models themselves. -/
theorem shells_completed {objects : Entries (ClassModel MethodModel)} (h : Keyed objects) :
    shells default (Entries.values (completed default objects))
      = shells default (Entries.values objects) := by
  -- Both are views of the same classes: the methods as they are, and completed.
  have hself : Entries.values objects = (Entries.values objects).map (·.mapMethods id) := by
    refine (map_eq_self fun c _ => ?_).symm
    simp [ClassModel.mapMethods, Entries.mapValues]
  have hcompleted : Entries.values (completed default objects)
      = (Entries.values objects).map
          (·.mapMethods (complete default (shells default (Entries.values objects)))) :=
    Entries.values_mapValues _ _
  rw [hcompleted, shells_eq default (List.map _ _), shells_eq default (Entries.values objects)]
  have hviews : List.Forall₂
      (Backfilled (authOf (enterEach [] (allEntrants default (Entries.values objects)))))
      (allEntrants default ((Entries.values objects).map (·.mapMethods id)))
      (allEntrants default ((Entries.values objects).map (·.mapMethods
        (complete default (enterEach [] (allEntrants default (Entries.values objects))))))) := by
    refine forall₂_allEntrants fun m hm => Or.inr ⟨?_, rfl⟩
    obtain ⟨c, hc, hm⟩ := List.mem_flatMap.mp hm
    exact h c hc m hm
  rw [← hself] at hviews
  exact enterEach_backfilled hviews

theorem completed_completed {objects : Entries (ClassModel MethodModel)} (h : Keyed objects) :
    completed default (completed default objects) = completed default objects := by
  have hshells := shells_completed default h
  unfold completed at hshells ⊢
  simp only at hshells ⊢
  rw [hshells, Entries.mapValues_mapValues]
  refine Entries.mapValues_congr fun c _ => ?_
  show (c.mapMethods _).mapMethods _ = _
  rw [mapMethods_mapMethods]
  exact mapMethods_congr fun m _ => complete_complete default _ m

/-! ## Groups of values -/

/-- Placing what stands for methods is placing the methods. -/
theorem mapValues_place {μ ν : Type} (f : μ → ν) (nameOf : ν → String) (all : Shells)
    (ms : List μ) :
    Entries.mapValues (·.mapMethods f) (place (nameOf ∘ f) (unplaced all) ms)
      = place nameOf (unplaced all) (ms.map f) := by
  rw [place_eq_map, place_eq_map]
  simp only [unplaced, Entries.mapValues, List.map_map]
  refine List.map_congr_left fun e _ => ?_
  simp only [Function.comp_apply, MergedGroup.mapMethods, List.nil_append, List.filter_map]
  rfl

end Merge

namespace Heap

open Merge

/-- Merging models that are complete changes nothing. -/
theorem merge_of_completed {h : Heap} {default : String} {models : Entries ModelId}
    (hcompleted : completed default (Entries.mapValues h.model models)
      = Entries.mapValues h.model models) :
    (h.merge default (Entries.values models)).1 = h := by
  refine ext_of_method (models_merge _ _ _) (length_methods_merge _ _ _) fun m hm => ?_
  rw [merge_fst, method_completeAll]
  split
  · next hreached =>
      -- The method belongs to a model that is complete.
      obtain ⟨c, hc, hmc⟩ := List.mem_flatMap.mp hreached.1
      obtain ⟨id, hid, rfl⟩ := List.mem_map.mp hc
      have hmodel : (h.model id).mapMethods (complete default
          (shells default ((Entries.values models).map h.model))) = h.model id := by
        unfold completed at hcompleted
        simp only at hcompleted
        rw [Entries.mapValues_mapValues, Entries.values_mapValues] at hcompleted
        obtain ⟨e, he, rfl⟩ := List.mem_map.mp hid
        exact congrArg Prod.snd (List.map_inj_left.mp hcompleted e he)
      obtain ⟨e, he, rfl⟩ := List.mem_map.mp hmc
      have hmethods := (congrArg ClassModel.methods hmodel).trans (List.map_id _).symm
      have hmem : (e.1, h.method e.2) ∈ (h.model id).methods := List.mem_map_of_mem he
      exact congrArg Prod.snd (List.map_inj_left.mp hmethods _ hmem)
  · rfl

section Apart

variable {h : Heap} (hapart : h.Apart) (default : String)
include hapart

/-- By values, merging completes the models that are merged. -/
theorem mapValues_model_merge {models : Entries ModelId}
    (hmodels : ∀ id ∈ Entries.values models, id < h.models.length) :
    Entries.mapValues (h.merge default (Entries.values models)).1.model models
      = completed default (Entries.mapValues h.model models) := by
  unfold completed
  simp only
  rw [Entries.mapValues_mapValues, Entries.values_mapValues]
  exact Entries.mapValues_congr fun id hid =>
    model_merge_of_mem hapart default (hmodels id hid) hid

/-- By values, the groups of a merge are those of the models. -/
theorem mapValues_merged {models : Entries ModelId}
    (hmodels : ∀ id ∈ Entries.values models, id < h.models.length) :
    Entries.mapValues (h.merge default (Entries.values models)).1.merged
        (h.merge default (Entries.values models)).2
      = groups default (Entries.mapValues h.model models) := by
  have hvalues : Entries.values (completed default (Entries.mapValues h.model models))
      = (Entries.values models).map (h.merge default (Entries.values models)).1.model := by
    rw [← mapValues_model_merge hapart default hmodels, Entries.values_mapValues]
  have hmethods : allMethods (Entries.values (completed default (Entries.mapValues h.model models)))
      = (h.methodsOf (Entries.values models)).map
          (h.merge default (Entries.values models)).1.method := by
    rw [hvalues, allMethods_map_model, methodsOf_merge]
  rw [merge_snd]
  unfold groups
  simp only
  rw [hmethods, Entries.values_mapValues]
  exact mapValues_place _ (fun m : MethodModel => m.group.groupName default) _ _

end Apart

end Heap
end Routebook
