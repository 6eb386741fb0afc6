/-
  Routebook.Proofs.Session.Heap

  Shared models.  A model that is added reads back as it was given
  (`model_add_self`) and leaves the ones before it as they are
  (`model_add_of_lt`).  Models that are only ever added own their methods:
  the methods of all models, one after the other, are all methods there are
  (`Apart`).  Then merging some models completes exactly these
  (`model_merge_of_mem`, `model_merge_of_notMem`).
-/
import Mathlib.Data.List.Nodup
import Routebook.Proofs.Merge.Placement

namespace Routebook

theorem mapMethods_mapMethods {μ ν ξ : Type} (f : μ → ν) (g : ν → ξ) (c : ClassModel μ) :
    (c.mapMethods f).mapMethods g = c.mapMethods (g ∘ f) := by
  simp only [ClassModel.mapMethods, Entries.mapValues, List.map_map, Function.comp_def]

theorem mapMethods_congr {μ ν : Type} {f g : μ → ν} {c : ClassModel μ}
    (h : ∀ x ∈ Entries.values c.methods, f x = g x) : c.mapMethods f = c.mapMethods g := by
  have hmethods : Entries.mapValues f c.methods = Entries.mapValues g c.methods :=
    List.map_congr_left fun e he => by rw [h e.2 (List.mem_map_of_mem he)]
  simp only [ClassModel.mapMethods, hmethods]

namespace Heap

open Merge

/-! ## Adding a model -/

@[simp] theorem length_models_add (h : Heap) (c : ClassModel MethodModel) :
    (h.add c).1.models.length = h.models.length + 1 := by
  simp [add]

@[simp] theorem length_methods_add (h : Heap) (c : ClassModel MethodModel) :
    (h.add c).1.methods.length = h.methods.length + c.methods.length := by
  simp [add, Entries.values]

theorem values_numbered (first : Nat) (ms : Entries MethodModel) :
    Entries.values (numbered first ms) = List.range' first ms.length := by
  induction ms generalizing first with
  | nil => rfl
  | cons e ms ih =>
      show first :: Entries.values (numbered (first + 1) ms) = _
      rw [ih, List.length_cons, List.range'_succ]

theorem held_add_of_lt (h : Heap) (c : ClassModel MethodModel) {id : ModelId}
    (hid : id < h.models.length) : (h.add c).1.held id = h.held id := by
  unfold held add
  rw [List.getElem?_append_left hid]

theorem held_add_self (h : Heap) (c : ClassModel MethodModel) :
    (h.add c).1.held h.models.length
      = ⟨c.className, c.group, numbered h.methods.length c.methods, c.properties⟩ := by
  unfold held add
  rw [List.getElem?_concat_length, Option.getD_some]

theorem method_add_of_lt (h : Heap) (c : ClassModel MethodModel) {id : MethodId}
    (hid : id < h.methods.length) : (h.add c).1.method id = h.method id := by
  unfold method add
  rw [List.getElem?_append_left hid]

/-- Numbered methods are found behind the ones before them. -/
theorem mapValues_numbered (before : List MethodModel) (ms : Entries MethodModel)
    (after : List MethodModel) :
    Entries.mapValues (Heap.method ⟨before ++ (Entries.values ms ++ after), []⟩)
      (numbered before.length ms) = ms := by
  induction ms generalizing before with
  | nil => rfl
  | cons e ms ih =>
      have hrest := ih (before ++ [e.2])
      rw [List.length_append, List.length_singleton, List.append_assoc] at hrest
      have hfirst : Heap.method ⟨before ++ (e.2 :: (Entries.values ms ++ after)), []⟩ before.length
          = e.2 := by
        simp [method]
      show (e.1, _) :: Entries.mapValues _ (numbered (before.length + 1) ms) = e :: ms
      exact congrArg₂ List.cons (Prod.ext rfl hfirst) hrest

/-- A model that was added reads back as it was given. -/
theorem model_add_self (h : Heap) (c : ClassModel MethodModel) :
    (h.add c).1.model h.models.length = c := by
  have hmethods := mapValues_numbered h.methods c.methods []
  rw [List.append_nil] at hmethods
  unfold model
  rw [held_add_self]
  exact congrArg (fun ms => (⟨c.className, c.group, ms, c.properties⟩ : ClassModel MethodModel))
    hmethods

/-- Adding a model leaves one whose methods are all there as it is. -/
theorem model_add_of_lt (h : Heap) (c : ClassModel MethodModel) {id : ModelId}
    (hid : id < h.models.length)
    (hmethods : ∀ m ∈ Entries.values (h.held id).methods, m < h.methods.length) :
    (h.add c).1.model id = h.model id := by
  unfold model
  rw [held_add_of_lt h c hid]
  exact mapMethods_congr fun m hm => method_add_of_lt h c (hmethods m hm)

/-! ## Merging -/

@[simp] theorem models_merge (h : Heap) (default : String) (ids : List ModelId) :
    (h.merge default ids).1.models = h.models := by
  rw [merge_fst, models_completeAll]

@[simp] theorem length_methods_merge (h : Heap) (default : String) (ids : List ModelId) :
    (h.merge default ids).1.methods.length = h.methods.length := by
  rw [merge_fst, length_completeAll]

/-- Of a model the methods that are reached are completed. -/
theorem model_merge (h : Heap) (default : String) (ids : List ModelId) (id : ModelId) :
    (h.merge default ids).1.model id
      = (h.held id).mapMethods fun m =>
          if m ∈ h.methodsOf ids ∧ m < h.methods.length then
            complete default (shells default (ids.map h.model)) (h.method m)
          else h.method m := by
  unfold model
  rw [held_merge]
  refine mapMethods_congr fun m _ => ?_
  rw [merge_fst, method_completeAll]
  rfl

/-- Heaps with the same class models and the same methods are the same. -/
theorem ext_of_method {h h' : Heap} (hmodels : h'.models = h.models)
    (hlength : h'.methods.length = h.methods.length)
    (hmethod : ∀ m < h.methods.length, h'.method m = h.method m) : h' = h := by
  have hmethods : h'.methods = h.methods := by
    refine List.ext_getElem hlength fun m hm' hm => ?_
    have hget := hmethod m hm
    unfold method at hget
    rwa [List.getElem?_eq_getElem hm', List.getElem?_eq_getElem hm] at hget
  cases h
  cases h'
  exact congrArg₂ Heap.mk hmethods hmodels

/-! ## Models that own their methods -/

/-- The methods of all models, one after the other, are all methods there are. -/
def Apart (h : Heap) : Prop := allMethods h.models = List.range h.methods.length

theorem apart_empty : Heap.empty.Apart := rfl

theorem apart_add {h : Heap} (hapart : h.Apart) (c : ClassModel MethodModel) :
    (h.add c).1.Apart := by
  have hown : allMethods (h.add c).1.models
      = allMethods h.models ++ Entries.values (numbered h.methods.length c.methods) := by
    simp [allMethods, add]
  have hrange := @List.range'_append_1 0 h.methods.length c.methods.length
  rw [Nat.zero_add] at hrange
  unfold Apart
  rw [hown, hapart, values_numbered, length_methods_add, List.range_eq_range', List.range_eq_range']
  exact hrange

theorem apart_merge {h : Heap} (hapart : h.Apart) (default : String) (ids : List ModelId) :
    (h.merge default ids).1.Apart := by
  unfold Apart
  rw [models_merge, length_methods_merge]
  exact hapart

theorem held_eq_getElem (h : Heap) {id : ModelId} (hid : id < h.models.length) :
    h.held id = h.models[id] := by
  unfold held
  rw [List.getElem?_eq_getElem hid, Option.getD_some]

section Apart

variable {h : Heap} (hapart : h.Apart)
include hapart

theorem lt_of_mem_held {id : ModelId} (hid : id < h.models.length) :
    ∀ m ∈ Entries.values (h.held id).methods, m < h.methods.length := by
  intro m hm
  have hall : m ∈ allMethods h.models := by
    refine List.mem_flatMap.mpr ⟨h.held id, ?_, hm⟩
    rw [held_eq_getElem h hid]
    exact List.getElem_mem hid
  rw [hapart] at hall
  exact List.mem_range.mp hall

/-- No method belongs to two models. -/
theorem eq_of_mem_held {id id' : ModelId} (hid : id < h.models.length)
    (hid' : id' < h.models.length) {m : MethodId} (hm : m ∈ Entries.values (h.held id).methods)
    (hm' : m ∈ Entries.values (h.held id').methods) : id = id' := by
  have hnodup : (allMethods h.models).Nodup := hapart ▸ List.nodup_range
  have hpairs := (List.nodup_flatMap.mp hnodup).2
  rw [List.pairwise_iff_getElem] at hpairs
  rw [held_eq_getElem h hid] at hm
  rw [held_eq_getElem h hid'] at hm'
  rcases Nat.lt_trichotomy id id' with hlt | heq | hgt
  · exact absurd hm' (List.disjoint_left.mp (hpairs id id' hid hid' hlt) hm)
  · exact heq
  · exact absurd hm (List.disjoint_left.mp (hpairs id' id hid' hid hgt) hm')

theorem model_add {c : ClassModel MethodModel} {id : ModelId} (hid : id < h.models.length) :
    (h.add c).1.model id = h.model id :=
  model_add_of_lt h c hid (lt_of_mem_held hapart hid)

/-- A model that is merged has its methods completed. -/
theorem model_merge_of_mem (default : String) {ids : List ModelId} {id : ModelId}
    (hid : id < h.models.length) (hmem : id ∈ ids) :
    (h.merge default ids).1.model id
      = (h.model id).mapMethods (complete default (shells default (ids.map h.model))) := by
  rw [model_merge]
  unfold model
  rw [mapMethods_mapMethods]
  refine mapMethods_congr fun m hm => ?_
  have hreached : m ∈ h.methodsOf ids :=
    List.mem_flatMap.mpr ⟨h.held id, List.mem_map_of_mem hmem, hm⟩
  rw [if_pos ⟨hreached, lt_of_mem_held hapart hid m hm⟩]
  rfl

/-- A model that is not merged stays as it is. -/
theorem model_merge_of_notMem (default : String) {ids : List ModelId}
    (hids : ∀ i ∈ ids, i < h.models.length) {id : ModelId} (hid : id < h.models.length)
    (hmem : id ∉ ids) : (h.merge default ids).1.model id = h.model id := by
  rw [model_merge]
  unfold model
  refine mapMethods_congr fun m hm => ?_
  have hmissed : m ∉ h.methodsOf ids := by
    intro hreached
    obtain ⟨c, hc, hmc⟩ := List.mem_flatMap.mp hreached
    obtain ⟨i, hi, rfl⟩ := List.mem_map.mp hc
    exact hmem (eq_of_mem_held hapart hid (hids i hi) hm hmc ▸ hi)
  rw [if_neg fun hc => hmissed hc.1]

end Apart

end Heap
end Routebook
