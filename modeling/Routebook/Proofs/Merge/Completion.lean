/-
  Routebook.Proofs.Merge.Completion

  The second pass on shared models.  Completing a method twice is completing
  it once (`complete_complete`), so it does not matter how often a method is
  reached; after the pass every method that was reached is completed and every
  other one is as it was (`method_completeAll`), and no class model has
  changed (`held_completeAll`).
-/
import Routebook.Session.Heap
import Routebook.Proofs.Merge.Shells

namespace Routebook

theorem values_mapMethods (f : μ → ν) (c : ClassModel μ) :
    Entries.values (c.mapMethods f).methods = (Entries.values c.methods).map f := by
  simp [ClassModel.mapMethods, Entries.values, Entries.mapValues]

/-- A method with other auth tags. -/
def MethodModel.withAuth (auth : Entries Param) (m : MethodModel) : MethodModel :=
  { m with group := { m.group with auth := auth } }

namespace Merge

variable (default : String) (all : Shells)

/-! ## One method -/

theorem complete_auth (m : MethodModel) :
    (complete default all m).group.auth
      = m.group.auth.putAllNew
          (named (Entries.values (authOf all (m.group.groupName default)))) :=
  foldl_putNew_eq _ _

@[simp] theorem complete_groupName (m : MethodModel) :
    (complete default all m).group.groupName default = m.group.groupName default := rfl

theorem complete_eq_withAuth (m : MethodModel) :
    complete default all m = m.withAuth (complete default all m).group.auth := rfl

theorem complete_complete (m : MethodModel) :
    complete default all (complete default all m) = complete default all m := by
  have hown : (complete default all (complete default all m)).group.auth
      = (complete default all m).group.auth := by
    rw [complete_auth, complete_groupName, complete_auth]
    refine Entries.putAllNew_eq_self fun e he => ?_
    exact (Entries.mem_keys_putAllNew _ _ _).mpr (Or.inr (Entries.mem_keys_of_mem he))
  rw [complete_eq_withAuth default all (complete default all m), hown]
  rfl

end Merge

namespace Heap

open Merge

/-! ## Methods that are reached one after the other -/

/-- Complete methods where they are, one after the other. -/
def completeAll (default : String) (all : Shells) (h : Heap) (ids : List MethodId) : Heap :=
  ids.foldl (fun acc id => acc.setMethod id (complete default all (acc.method id))) h

theorem method_setMethod (h : Heap) (id : MethodId) (m : MethodModel) (other : MethodId) :
    (h.setMethod id m).method other
      = if other = id ∧ id < h.methods.length then m else h.method other := by
  unfold method setMethod
  rw [List.getElem?_set]
  by_cases ho : id = other
  · subst ho
    by_cases hl : id < h.methods.length <;> simp [hl]
  · simp [ho, Ne.symm ho]

theorem setMethod_method (h : Heap) (id : MethodId) : h.setMethod id (h.method id) = h := by
  have hsame : h.methods.set id (h.method id) = h.methods := by
    refine List.ext_getElem? fun i => ?_
    rw [List.getElem?_set]
    by_cases hi : id = i
    · subst hi
      by_cases hl : id < h.methods.length <;> simp [hl, method]
    · simp [hi]
  unfold setMethod
  rw [hsame]

variable (default : String) (all : Shells)

@[simp] theorem models_completeAll (h : Heap) (ids : List MethodId) :
    (h.completeAll default all ids).models = h.models := by
  induction ids generalizing h with
  | nil => rfl
  | cons id ids ih => exact (ih _).trans rfl

@[simp] theorem length_completeAll (h : Heap) (ids : List MethodId) :
    (h.completeAll default all ids).methods.length = h.methods.length := by
  induction ids generalizing h with
  | nil => rfl
  | cons id ids ih => exact (ih _).trans (by simp [setMethod])

@[simp] theorem held_completeAll (h : Heap) (ids : List MethodId) (id : ModelId) :
    (h.completeAll default all ids).held id = h.held id := by
  unfold held
  rw [models_completeAll]

/-- After the pass the methods that were reached are completed, the others are as they were. -/
theorem method_completeAll (h : Heap) (ids : List MethodId) (other : MethodId) :
    (h.completeAll default all ids).method other
      = if other ∈ ids ∧ other < h.methods.length then complete default all (h.method other)
        else h.method other := by
  induction ids generalizing h with
  | nil => simp [completeAll]
  | cons id ids ih =>
      have hlen : (h.setMethod id (complete default all (h.method id))).methods.length
          = h.methods.length := by simp [setMethod]
      have hstep : h.completeAll default all (id :: ids)
          = (h.setMethod id (complete default all (h.method id))).completeAll default all ids := rfl
      rw [hstep, ih, hlen, method_setMethod]
      -- A number may stand twice in the list; completing twice is completing once.
      by_cases ho : other = id
      · subst ho
        by_cases hl : other < h.methods.length
        · by_cases hm : other ∈ ids <;> simp [hl, hm, complete_complete]
        · simp [hl]
      · simp [ho]

/-- Methods that are complete already are left as they are. -/
theorem completeAll_eq_self (h : Heap) (ids : List MethodId)
    (hdone : ∀ id ∈ ids, h.setMethod id (complete default all (h.method id)) = h) :
    h.completeAll default all ids = h := by
  induction ids with
  | nil => rfl
  | cons id ids ih =>
      have hstep : h.completeAll default all (id :: ids)
          = (h.setMethod id (complete default all (h.method id))).completeAll default all ids := rfl
      rw [hstep, hdone id List.mem_cons_self]
      exact ih fun i hi => hdone i (List.mem_cons_of_mem _ hi)

theorem completeAll_completeAll (h : Heap) (ids : List MethodId) :
    (h.completeAll default all ids).completeAll default all ids
      = h.completeAll default all ids := by
  refine completeAll_eq_self default all _ ids fun id hid => ?_
  have hmethod : (h.completeAll default all ids).setMethod id
        (complete default all ((h.completeAll default all ids).method id))
      = (h.completeAll default all ids).setMethod id
          ((h.completeAll default all ids).method id) := by
    rw [method_completeAll]
    by_cases hl : id < h.methods.length
    · rw [if_pos ⟨hid, hl⟩, complete_complete]
    · -- a number without a method: there is no place to write to
      have hout : ∀ m, (h.completeAll default all ids).setMethod id m
          = h.completeAll default all ids := by
        intro m
        unfold setMethod
        rw [List.set_eq_of_length_le]
        rw [length_completeAll]
        exact Nat.le_of_not_lt hl
      rw [hout, hout]
  rw [hmethod, setMethod_method]

/-! ## Merging shared models -/

/-- The methods of some models, in order. -/
def methodsOf (h : Heap) (ids : List ModelId) : List MethodId := allMethods (ids.map h.held)

theorem merge_fst (h : Heap) (default : String) (ids : List ModelId) :
    (h.merge default ids).1
      = h.completeAll default (shells default (ids.map h.model)) (h.methodsOf ids) := rfl

theorem merge_snd (h : Heap) (default : String) (ids : List ModelId) :
    (h.merge default ids).2
      = place (fun id => ((h.merge default ids).1.method id).group.groupName default)
          (unplaced (shells default (ids.map h.model))) (h.methodsOf ids) := rfl

@[simp] theorem held_merge (h : Heap) (default : String) (ids : List ModelId) (id : ModelId) :
    (h.merge default ids).1.held id = h.held id := by
  rw [merge_fst, held_completeAll]

@[simp] theorem methodsOf_merge (h : Heap) (default : String) (ids : List ModelId) :
    (h.merge default ids).1.methodsOf ids = h.methodsOf ids := by
  unfold methodsOf
  rw [List.map_congr_left fun id _ => held_merge h default ids id]

end Heap
end Routebook
