/-
  Routebook.Proofs.Outcome

  When outcomes that are put together succeed.
-/
import Routebook.Failure
import Routebook.Proofs.Each

namespace Routebook

namespace Outcome

variable {α β : Type}

theorem error_bind (e : Failure) (f : α → Outcome β) : (Except.error e >>= f) = .error e := rfl

theorem bind_ok_iff {x : Outcome α} {f : α → Outcome β} {b : β} :
    (x >>= f) = .ok b ↔ ∃ a, x = .ok a ∧ f a = .ok b := by
  cases x with
  | ok a =>
      show f a = .ok b ↔ _
      simp
  | error e =>
      show Except.error e = .ok b ↔ _
      simp

theorem bind_error_iff {x : Outcome α} {f : α → Outcome β} {e : Failure} :
    (x >>= f) = .error e ↔ x = .error e ∨ ∃ a, x = .ok a ∧ f a = .error e := by
  cases x with
  | ok a =>
      show f a = .error e ↔ _
      simp
  | error e' =>
      show Except.error e' = .error e ↔ _
      simp

theorem map_ok_iff {f : α → β} {x : Outcome α} {b : β} :
    x.map f = .ok b ↔ ∃ a, x = .ok a ∧ f a = b := by
  cases x <;> simp [Except.map]

/-- Going on in a way that never fails does not fail either. -/
theorem exists_bind_iff {x : Outcome α} {f : α → Outcome β} (hf : ∀ a, ∃ b, f a = .ok b) :
    (∃ b, (x >>= f) = .ok b) ↔ ∃ a, x = .ok a := by
  constructor
  · rintro ⟨b, hb⟩
    obtain ⟨a, ha, -⟩ := bind_ok_iff.mp hb
    exact ⟨a, ha⟩
  · rintro ⟨a, ha⟩
    obtain ⟨b, hb⟩ := hf a
    exact ⟨b, bind_ok_iff.mpr ⟨a, ha, hb⟩⟩

theorem map_injective {f : α → β} (hf : Function.Injective f) :
    Function.Injective (Except.map f : Outcome α → Outcome β) := by
  rintro (e | a) (e' | a') h
  · exact congrArg Except.error (Except.error.inj h)
  · exact absurd h (by simp [Except.map])
  · exact absurd h (by simp [Except.map])
  · exact congrArg Except.ok (hf (Except.ok.inj h))

theorem toOption_eq_some_iff {x : Outcome α} {a : α} : x.toOption = some a ↔ x = .ok a := by
  cases x <;> simp [Except.toOption]

theorem isSome_toOption_iff {x : Outcome α} : x.toOption.isSome = true ↔ ∃ a, x = .ok a := by
  simp only [Option.isSome_iff_exists, toOption_eq_some_iff]

/-- A list of outcomes succeeds if each of them does. -/
theorem mapM_ok_iff {f : α → Outcome β} {as : List α} {bs : List β} :
    as.mapM f = .ok bs ↔ List.Forall₂ (fun a b => f a = .ok b) as bs := by
  induction as generalizing bs with
  | nil =>
      rw [List.mapM_nil]
      constructor
      · intro h
        obtain rfl : [] = bs := Except.ok.inj h
        exact .nil
      · rintro ⟨⟩
        rfl
  | cons a as ih =>
      rw [List.mapM_cons, bind_ok_iff]
      constructor
      · rintro ⟨b, hb, h⟩
        obtain ⟨rest, hrest, h⟩ := bind_ok_iff.mp h
        obtain rfl : b :: rest = bs := Except.ok.inj h
        exact .cons hb (ih.mp hrest)
      · intro h
        cases h with
        | cons hb hrest => exact ⟨_, hb, bind_ok_iff.mpr ⟨_, ih.mpr hrest, rfl⟩⟩

/-- A list of outcomes fails as the first of them that does. -/
theorem mapM_error_iff {f : α → Outcome β} {as : List α} {e : Failure} :
    as.mapM f = .error e ↔ ∃ before a after, as = before ++ a :: after ∧
      (∀ b ∈ before, ∃ c, f b = .ok c) ∧ f a = .error e := by
  induction as with
  | nil =>
      refine iff_of_false nofun ?_
      rintro ⟨before, a, after, h, -⟩
      exact absurd h.symm (List.append_ne_nil_of_right_ne_nil _ (List.cons_ne_nil _ _))
  | cons first rest ih =>
      rw [List.mapM_cons, bind_error_iff]
      constructor
      · rintro (hfirst | ⟨c, hfirst, h⟩)
        · exact ⟨[], first, rest, rfl, nofun, hfirst⟩
        · rcases bind_error_iff.mp h with hrest | ⟨_, -, h⟩
          · obtain ⟨before, a, after, rfl, hbefore, ha⟩ := ih.mp hrest
            exact ⟨first :: before, a, after, rfl,
              List.forall_mem_cons.mpr ⟨⟨c, hfirst⟩, hbefore⟩, ha⟩
          · exact absurd h nofun
      · rintro ⟨before, a, after, h, hbefore, ha⟩
        -- The item that fails is the first one, or it stands behind a first one that succeeds.
        cases before with
        | nil =>
            obtain ⟨rfl, rfl⟩ := List.cons.inj h
            exact .inl ha
        | cons b before =>
            obtain ⟨rfl, rfl⟩ := List.cons.inj h
            obtain ⟨⟨c, hfirst⟩, hbefore⟩ := List.forall_mem_cons.mp hbefore
            have hrest := ih.mpr ⟨before, a, after, rfl, hbefore, ha⟩
            exact .inr ⟨c, hfirst, bind_error_iff.mpr (.inl hrest)⟩

theorem mapM_congr {f g : α → Outcome β} {as : List α} (h : ∀ a ∈ as, f a = g a) :
    as.mapM f = as.mapM g := by
  induction as with
  | nil => rfl
  | cons a as ih =>
      rw [List.mapM_cons, List.mapM_cons, h a List.mem_cons_self,
        ih fun a' ha' => h a' (List.mem_cons_of_mem _ ha')]

/-- Changing every answer is changing the list of answers. -/
theorem mapM_map_right {γ : Type} (f : α → Outcome β) (g : β → γ) (as : List α) :
    (as.mapM fun a => g <$> f a) = List.map g <$> as.mapM f := by
  induction as with
  | nil => rfl
  | cons a as ih =>
      rw [List.mapM_cons, List.mapM_cons, ih]
      cases f a with
      | error e => rfl
      | ok b => cases as.mapM f <;> rfl

/-- What holds of every answer of a reading holds of all answers of a list. -/
theorem forall_mem_of_mapM {f : α → Outcome β} {as : List α} {bs : List β} {P : β → Prop}
    (h : as.mapM f = .ok bs) (hf : ∀ a ∈ as, ∀ b, f a = .ok b → P b) : ∀ b ∈ bs, P b :=
  forall_mem_of_forall₂ (mapM_ok_iff.mp h) hf

end Outcome
end Routebook
