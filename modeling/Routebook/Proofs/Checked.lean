/-
  Routebook.Proofs.Checked

  When combined readings succeed.  A reading made of parts gives a value
  exactly if every part does, so a successful reading can be taken apart
  (`seq_ok_iff` and its kin), and a list or an object is read back as soon as
  each of its members is (`items_map`, `fields_mapValues`).
-/
import Routebook.Proofs.Each
import Routebook.Tag.Field

namespace Routebook

namespace Checked

variable {α β : Type}

/-! ## Combined readings that succeed -/

@[simp] theorem map_ok_iff {f : α → β} {x : Checked α} {b : β} :
    f <$> x = .ok b ↔ ∃ a, x = .ok a ∧ f a = b := by
  cases x with
  | ok a =>
      show Checked.ok (f a) = .ok b ↔ _
      simp
  | faulty fs =>
      show Checked.faulty fs = .ok b ↔ _
      simp
  | wrongType =>
      show Checked.wrongType = .ok b ↔ _
      simp

@[simp] theorem seq_ok_iff {f : Checked (α → β)} {x : Checked α} {b : β} :
    f <*> x = .ok b ↔ ∃ g a, f = .ok g ∧ x = .ok a ∧ g a = b :=
  seq_eq_ok_iff

@[simp] theorem seqRight_ok_iff {x : Checked α} {y : Checked β} {b : β} :
    x *> y = .ok b ↔ (∃ a, x = .ok a) ∧ y = .ok b := by
  show Checked.seq (Checked.map (Function.const _ id) x) y = .ok b ↔ _
  rw [seq_eq_ok_iff]
  constructor
  · rintro ⟨g, a, hg, hy, rfl⟩
    obtain ⟨c, hx, rfl⟩ := map_ok_iff.mp hg
    exact ⟨⟨c, hx⟩, hy⟩
  · rintro ⟨⟨c, rfl⟩, hy⟩
    exact ⟨_, b, rfl, hy, rfl⟩

@[simp] theorem seqLeft_ok_iff {x : Checked α} {y : Checked β} {a : α} :
    x <* y = .ok a ↔ x = .ok a ∧ ∃ b, y = .ok b := by
  show Checked.seq (Checked.map (Function.const _) x) y = .ok a ↔ _
  rw [seq_eq_ok_iff]
  constructor
  · rintro ⟨g, b, hg, hy, rfl⟩
    obtain ⟨c, hx, rfl⟩ := map_ok_iff.mp hg
    exact ⟨hx, b, hy⟩
  · rintro ⟨rfl, b, hy⟩
    exact ⟨_, b, rfl, hy, rfl⟩

@[simp] theorem andThen_ok_iff {x : Checked α} {f : α → Checked β} {b : β} :
    x.andThen f = .ok b ↔ ∃ a, x = .ok a ∧ f a = .ok b := by
  cases x <;> simp [Checked.andThen]

@[simp] theorem under_ok_iff {step : Step} {x : Checked α} {a : α} :
    x.under step = .ok a ↔ x = .ok a := by
  cases x <;> simp [under]

@[simp] theorem fault_ne_ok (cause : Cause) (a : α) : (fault cause : Checked α) ≠ .ok a := by
  simp [fault]

/-! ## Combined readings that end in a type error -/

@[simp] theorem map_wrongType_iff {f : α → β} {x : Checked α} :
    f <$> x = .wrongType ↔ x = .wrongType := by
  cases x with
  | ok a =>
      show Checked.ok (f a) = .wrongType ↔ _
      simp
  | faulty fs =>
      show Checked.faulty fs = .wrongType ↔ _
      simp
  | wrongType =>
      show Checked.wrongType = .wrongType ↔ _
      simp

theorem seq_eq_wrongType_iff {f : Checked (α → β)} {x : Checked α} :
    Checked.seq f x = .wrongType ↔ f = .wrongType ∨ x = .wrongType := by
  cases f <;> cases x <;> simp [Checked.seq]

@[simp] theorem seq_wrongType_iff {f : Checked (α → β)} {x : Checked α} :
    f <*> x = .wrongType ↔ f = .wrongType ∨ x = .wrongType :=
  seq_eq_wrongType_iff

@[simp] theorem seqRight_wrongType_iff {x : Checked α} {y : Checked β} :
    x *> y = .wrongType ↔ x = .wrongType ∨ y = .wrongType := by
  show Checked.seq (Checked.map (Function.const _ id) x) y = .wrongType ↔ _
  rw [seq_eq_wrongType_iff]
  exact or_congr_left map_wrongType_iff

@[simp] theorem seqLeft_wrongType_iff {x : Checked α} {y : Checked β} :
    x <* y = .wrongType ↔ x = .wrongType ∨ y = .wrongType := by
  show Checked.seq (Checked.map (Function.const _) x) y = .wrongType ↔ _
  rw [seq_eq_wrongType_iff]
  exact or_congr_left map_wrongType_iff

@[simp] theorem andThen_wrongType_iff {x : Checked α} {f : α → Checked β} :
    x.andThen f = .wrongType ↔ x = .wrongType ∨ ∃ a, x = .ok a ∧ f a = .wrongType := by
  cases x <;> simp [Checked.andThen]

@[simp] theorem under_wrongType_iff {step : Step} {x : Checked α} :
    x.under step = .wrongType ↔ x = .wrongType := by
  cases x <;> simp [under]

@[simp] theorem fault_ne_wrongType (cause : Cause) : (fault cause : Checked α) ≠ .wrongType := by
  simp [fault]

/-! ## Lists and objects -/

/-- A list is read back when each of its items is. -/
theorem items_map {read : Value → Checked α} {write : α → Value} {as : List α} (i : Int)
    (h : ∀ a ∈ as, read (write a) = .ok a) : items read i (as.map write) = .ok as := by
  induction as generalizing i with
  | nil => rfl
  | cons a as ih =>
      rw [List.map_cons, items, h a List.mem_cons_self,
        ih (i + 1) fun b hb => h b (List.mem_cons_of_mem _ hb)]
      rfl

/-- An object is read back when each of its fields is; its keys may repeat. -/
theorem fields_mapValues {read : Value → Checked α} {write : α → Value} {m : Entries α}
    (h : ∀ e ∈ m, read (write e.2) = .ok e.2) : fields read (m.mapValues write) = .ok m := by
  induction m with
  | nil => rfl
  | cons e m ih =>
      show fields read ((e.1, write e.2) :: Entries.mapValues write m) = .ok (e :: m)
      rw [fields, h e List.mem_cons_self, ih fun d hd => h d (List.mem_cons_of_mem _ hd)]
      rfl

/-- A list ends in a type error exactly if one of its items does. -/
theorem items_wrongType_iff {read : Value → Checked α} {i : Int} {vs : List Value} :
    items read i vs = .wrongType ↔ ∃ v ∈ vs, read v = .wrongType := by
  induction vs generalizing i with
  | nil => simp [items]
  | cons v vs ih =>
      rw [items, seq_eq_wrongType_iff, ih, List.exists_mem_cons_iff]
      exact or_congr_left (map_wrongType_iff.trans under_wrongType_iff)

/-- An object ends in a type error exactly if one of its fields does. -/
theorem fields_wrongType_iff {read : Value → Checked α} {fs : Entries Value} :
    fields read fs = .wrongType ↔ ∃ v ∈ Entries.values fs, read v = .wrongType := by
  induction fs with
  | nil => simp [fields, Entries.values]
  | cons e fs ih =>
      show _ ↔ ∃ v ∈ e.2 :: Entries.values fs, read v = .wrongType
      rw [fields, seq_eq_wrongType_iff, ih, List.exists_mem_cons_iff]
      exact or_congr_left (map_wrongType_iff.trans under_wrongType_iff)

/-- Items that were read stand where they stood. -/
theorem items_ok {read : Value → Checked α} {i : Int} {vs : List Value} {as : List α}
    (h : items read i vs = .ok as) : List.Forall₂ (fun v a => read v = .ok a) vs as := by
  induction vs generalizing i as with
  | nil =>
      obtain rfl := Checked.ok.inj h
      exact .nil
  | cons v vs ih =>
      obtain ⟨g, rest, hg, hrest, rfl⟩ := seq_eq_ok_iff.mp h
      obtain ⟨a, ha, rfl⟩ := map_ok_iff.mp hg
      exact .cons (under_ok_iff.mp ha) (ih hrest)

/-- Fields that were read stand under the keys under which they were given. -/
theorem fields_ok {read : Value → Checked α} {fs : Entries Value} {m : Entries α}
    (h : fields read fs = .ok m) :
    List.Forall₂ (fun e d => d.1 = e.1 ∧ read e.2 = .ok d.2) fs m := by
  induction fs generalizing m with
  | nil =>
      obtain rfl := Checked.ok.inj h
      exact .nil
  | cons e fs ih =>
      obtain ⟨g, rest, hg, hrest, rfl⟩ := seq_eq_ok_iff.mp h
      obtain ⟨a, ha, rfl⟩ := map_ok_iff.mp hg
      exact .cons ⟨rfl, under_ok_iff.mp ha⟩ (ih hrest)

end Checked

namespace Field

variable {α : Type}

/-! ## Fields that are given -/

@[simp] theorem required_ok_iff {data : Entries Value} {name : String}
    {read : Value → Checked α} {a : α} :
    required data name read = .ok a ↔ ∃ v, Entries.get? name data = some v ∧ read v = .ok a := by
  unfold required
  cases Entries.get? name data <;> simp

@[simp] theorem required_wrongType_iff {data : Entries Value} {name : String}
    {read : Value → Checked α} :
    required data name read = .wrongType
      ↔ ∃ v, Entries.get? name data = some v ∧ read v = .wrongType := by
  unfold required
  cases Entries.get? name data <;> simp

@[simp] theorem withDefault_wrongType_iff {data : Entries Value} {name : String} {default : α}
    {read : Value → Checked α} :
    withDefault data name default read = .wrongType
      ↔ ∃ v, Entries.get? name data = some v ∧ read v = .wrongType := by
  unfold withDefault
  cases Entries.get? name data <;> simp

/-- A field with a default that could be read holds what was given or the default. -/
theorem withDefault_ok {data : Entries Value} {name : String} {default : α}
    {read : Value → Checked α} {a : α} (h : withDefault data name default read = .ok a) :
    a = default ∨ ∃ v, read v = .ok a := by
  unfold withDefault at h
  cases hg : Entries.get? name data with
  | none =>
      rw [hg] at h
      exact Or.inl (Checked.ok.inj h).symm
  | some v =>
      rw [hg] at h
      exact Or.inr ⟨v, Checked.under_ok_iff.mp h⟩

theorem withDefault_of_get? {data : Entries Value} {name : String} {default : α} {v : Value}
    {read : Value → Checked α} {a : α} (hv : Entries.get? name data = some v)
    (h : withDefault data name default read = .ok a) : read v = .ok a := by
  unfold withDefault at h
  rw [hv] at h
  exact Checked.under_ok_iff.mp h

theorem list_map {read : Value → Checked α} {write : α → Value} {as : List α}
    (h : ∀ a ∈ as, read (write a) = .ok a) : list read (.array (as.map write)) = .ok as :=
  Checked.items_map 0 h

theorem object_mapValues {read : Value → Checked α} {write : α → Value} {m : Entries α}
    (h : ∀ e ∈ m, read (write e.2) = .ok e.2) :
    object read (.object (m.mapValues write)) = .ok m :=
  Checked.fields_mapValues h

theorem list_ok {read : Value → Checked α} {vs : List Value} {as : List α}
    (h : list read (.array vs) = .ok as) : List.Forall₂ (fun v a => read v = .ok a) vs as :=
  Checked.items_ok h

theorem keys_of_object {read : Value → Checked α} {fs : Entries Value} {m : Entries α}
    (h : object read (.object fs) = .ok m) : Entries.keys m = Entries.keys fs := by
  have hall := Checked.fields_ok h
  clear h
  induction hall with
  | nil => rfl
  | cons he _ ih =>
      show _ :: Entries.keys _ = _ :: Entries.keys _
      rw [he.1, ih]

/-- What holds of every value that may be given under a key holds of what was read there. -/
theorem each_of_object {read : Value → Checked α} {P : String → Value → Prop}
    {Q : String → α → Prop} {fs : Entries Value} {m : Entries α}
    (h : object read (.object fs) = .ok m) (hfs : Entries.Each P fs)
    (hread : ∀ key v a, P key v → read v = .ok a → Q key a) : Entries.Each Q m := by
  have hall := Checked.fields_ok h
  clear h
  induction hall with
  | nil => exact Entries.each_nil
  | @cons e d fs m he _ ih =>
      have hrest := ih fun e' he' => hfs e' (List.mem_cons_of_mem _ he')
      intro d' hd'
      rcases List.mem_cons.mp hd' with rfl | hd'
      · rw [he.1]
        exact hread e.1 e.2 d'.2 (hfs e List.mem_cons_self) he.2
      · exact hrest d' hd'

end Field
end Routebook
