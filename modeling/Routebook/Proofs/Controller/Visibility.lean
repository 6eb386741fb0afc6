/-
  Routebook.Proofs.Controller.Visibility

  What is hidden from the public.  A name that is hidden is passed over, and
  nothing else changes: neither which class along the order of lookup decides a
  name nor what is reported under it.  So the public model of a class is the
  whole one without the methods and properties of hidden names (`model_public`).
-/
import Routebook.Controller.Collect
import Routebook.Proofs.Each
import Routebook.Proofs.Outcome

namespace Routebook

open Outcome

namespace Entries

variable {α : Type u}

/-- The entries whose names are not hidden. -/
def shown (m : Entries α) : Entries α := m.filter fun e => !isPrivate e.1

theorem shown_append (m n : Entries α) : shown (m ++ n) = shown m ++ shown n :=
  List.filter_append ..

theorem shown_cons (e : String × α) (m : Entries α) :
    shown (e :: m) = if isPrivate e.1 then shown m else e :: shown m := by
  unfold shown
  rw [List.filter_cons]
  cases isPrivate e.1 <;> rfl

theorem shown_put (key : String) (v : α) (m : Entries α) :
    shown (put key v m) = if isPrivate key then shown m else put key v (shown m) := by
  induction m with
  | nil =>
      show shown [(key, v)] = _
      rw [shown_cons]
      rfl
  | cons e m ih =>
      by_cases hkey : e.1 = key
      · subst hkey
        simp only [put, if_pos, shown_cons]
        cases isPrivate e.1 <;> simp [put]
      · simp only [put, if_neg hkey, shown_cons, ih]
        cases isPrivate e.1 <;> cases isPrivate key <;> simp [put, hkey]

/-- It makes no difference whether hidden names are left out before or after storing. -/
theorem shown_ofPairs (pairs : List (String × α)) :
    shown (ofPairs pairs) = ofPairs (shown pairs) := by
  have hrun (m : Entries α) : shown (putAll m pairs) = putAll (shown m) (shown pairs) := by
    induction pairs generalizing m with
    | nil => rfl
    | cons e pairs ih =>
        show shown (putAll (put e.1 e.2 m) pairs) = _
        rw [ih, shown_put, shown_cons]
        cases isPrivate e.1 <;> rfl
  exact hrun []

theorem shown_map {β : Type v} (f : String → α → β) (m : Entries α) :
    shown (m.map fun e => (e.1, f e.1 e.2)) = (shown m).map fun e => (e.1, f e.1 e.2) :=
  List.filter_map ..

end Entries

namespace Reflect

/-! ## Methods -/

theorem methodsIn_public (seen : List String) (bindings : Entries Binding) :
    methodsIn true seen bindings = Entries.shown (methodsIn false seen bindings) := by
  unfold methodsIn Entries.shown
  -- A hidden name is the last reason to pass a binding over, so it can be asked for afterwards.
  rw [List.filter_filterMap]
  refine congrArg (fun f => bindings.filterMap f) (funext fun e => ?_)
  unfold isReported
  cases seen.contains e.1 <;> cases isReserved e.1 <;> cases hhidden : isPrivate e.1 <;>
    cases methodTags? e.2 <;> simp [Option.filter, hhidden]

theorem methods_public (owners : List Owner) :
    methods true owners = Entries.shown (methods false owners) := by
  have hrun (seen : List String) :
      methodsFrom true seen owners = Entries.shown (methodsFrom false seen owners) := by
    induction owners generalizing seen with
    | nil => rfl
    | cons o rest ih => rw [methodsFrom, methodsFrom, Entries.shown_append, methodsIn_public, ih]
  exact hrun []

/-! ## Properties -/

/-- Hidden names are seen like all others. -/
theorem unseen_public (seen : List String) (found : Entries (List Attached)) :
    unseen true seen found
      = ((unseen false seen found).1, Entries.shown (unseen false seen found).2) := by
  induction found generalizing seen with
  | nil => rfl
  | cons e rest ih =>
      obtain ⟨name, tags⟩ := e
      unfold unseen
      split
      · exact ih seen
      · rw [ih]
        simp only [Bool.true_and, Bool.false_and, Bool.false_eq_true, if_false, Entries.shown_cons]

theorem properties_public (owners : List Owner) :
    properties true owners = (properties false owners).map Entries.shown := by
  have hrun (seen : List String) :
      propertiesFrom true seen owners = (propertiesFrom false seen owners).map Entries.shown := by
    induction owners generalizing seen with
    | nil => rfl
    | cons o rest ih =>
        unfold propertiesFrom
        cases declared o with
        | error e => rfl
        | ok found =>
            show (propertiesFrom true (unseen true seen found).1 rest).map
                ((unseen true seen found).2 ++ ·)
              = ((propertiesFrom false (unseen false seen found).1 rest).map
                ((unseen false seen found).2 ++ ·)).map Entries.shown
            -- What was seen is the same in both runs, so the induction goes on from there.
            rw [unseen_public, ih]
            cases propertiesFrom false (unseen false seen found).1 rest with
            | error e => rfl
            | ok more => exact congrArg Except.ok (Entries.shown_append _ _).symm
  exact hrun []

end Reflect

/-! ## Models -/

/-- A model without the methods and properties of hidden names. -/
def ClassModel.publicPart {μ : Type} (c : ClassModel μ) : ClassModel μ :=
  { c with methods := Entries.shown c.methods, properties := Entries.shown c.properties }

/-- The public model of a class is the public part of the whole one. -/
theorem Collect.model_public (default key : String) (classTags : List Attached)
    (owners : List Owner) :
    model default key classTags owners true
      = (model default key classTags owners false).map ClassModel.publicPart := by
  have hmethods (home : GroupInfo) :
      Entries.ofPairs ((Reflect.methods true owners).map fun e =>
          (e.1, method home e.1 (tagsOf e.2)))
        = Entries.shown (Entries.ofPairs ((Reflect.methods false owners).map fun e =>
          (e.1, method home e.1 (tagsOf e.2)))) := by
    rw [Reflect.methods_public, Entries.shown_ofPairs,
      Entries.shown_map fun name tags => method home name (tagsOf tags)]
  have hproperties (found : Entries (List Attached)) :
      Entries.ofPairs ((Entries.shown found).map fun e => (e.1, property e.1 (tagsOf e.2)))
        = Entries.shown (Entries.ofPairs (found.map fun e =>
          (e.1, property e.1 (tagsOf e.2)))) := by
    rw [Entries.shown_ofPairs, Entries.shown_map fun name tags => property name (tagsOf tags)]
  -- Hiding names and reflecting on what is left commute, once for methods and once for properties.
  unfold model
  rw [Reflect.properties_public]
  simp only [hmethods]
  cases classGroup default (tagsOf classTags) with
  | error e => rfl
  | ok home =>
      cases Reflect.properties false owners with
      | error e => rfl
      | ok found =>
          show Except.ok (ClassModel.mk key home _ (Entries.ofPairs _)) = _
          rw [hproperties]
          rfl

/-- Nothing is hidden in a model exactly if it is its own public part. -/
theorem ClassModel.publicPart_eq_self_iff {μ : Type} {c : ClassModel μ} :
    c.publicPart = c ↔ (∀ e ∈ c.methods, isPrivate e.1 = false) ∧
      ∀ e ∈ c.properties, isPrivate e.1 = false := by
  have hshown {α : Type} (m : Entries α) :
      Entries.shown m = m ↔ ∀ e ∈ m, isPrivate e.1 = false := by
    unfold Entries.shown
    rw [List.filter_eq_self]
    simp
  rw [← hshown, ← hshown]
  constructor
  · intro h
    exact ⟨congrArg ClassModel.methods h, congrArg ClassModel.properties h⟩
  · rintro ⟨hmethods, hproperties⟩
    unfold publicPart
    rw [hmethods, hproperties]

end Routebook
