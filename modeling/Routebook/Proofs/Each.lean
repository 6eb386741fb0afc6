/-
  Routebook.Proofs.Each

  What holds of every entry of a collection, key and value together.  Each way
  to build a collection keeps such a property if what is put in has it, so an
  invariant of a table is carried through its changes by one lemma a change.
  Distinct keys are carried along in the same way.
-/
import Mathlib.Data.List.Forall2
import Routebook.Proofs.Entries

namespace Routebook

/-- What follows from being related to a member of the other list. -/
theorem forall_mem_of_forall₂ {α β : Type} {R : α → β → Prop} {P : β → Prop} {as : List α}
    {bs : List β} (h : List.Forall₂ R as bs) (hP : ∀ a ∈ as, ∀ b, R a b → P b) :
    ∀ b ∈ bs, P b := by
  induction h with
  | nil => exact fun b hb => absurd hb List.not_mem_nil
  | @cons a b as bs hab _ ih =>
      intro c hc
      rcases List.mem_cons.mp hc with rfl | hc
      · exact hP a List.mem_cons_self c hab
      · exact ih (fun a' ha' => hP a' (List.mem_cons_of_mem _ ha')) c hc

namespace Entries

variable {α : Type u} {β : Type v}

/-- Every entry has a property. -/
def Each (P : String → α → Prop) (m : Entries α) : Prop := ∀ e ∈ m, P e.1 e.2

section Each

variable {P : String → α → Prop} {m : Entries α} {key : String} {v : α}

theorem each_nil : Each P ([] : Entries α) := fun _ h => absurd h List.not_mem_nil

theorem each_append {n : Entries α} (hm : Each P m) (hn : Each P n) : Each P (m ++ n) := by
  intro e he
  rcases List.mem_append.mp he with h | h
  · exact hm e h
  · exact hn e h

theorem Each.mono {Q : String → α → Prop} (h : Each P m) (hPQ : ∀ key v, P key v → Q key v) :
    Each Q m := fun e he => hPQ e.1 e.2 (h e he)

theorem Each.of_get? (h : Each P m) (hv : get? key m = some v) : P key v := by
  induction m with
  | nil => exact absurd hv (by simp)
  | cons e m ih =>
      obtain ⟨k, w⟩ := e
      rw [get?_cons] at hv
      by_cases hk : k = key
      · rw [if_pos hk] at hv
        obtain rfl := Option.some.inj hv
        exact hk ▸ h _ List.mem_cons_self
      · rw [if_neg hk] at hv
        exact ih (fun e he => h e (List.mem_cons_of_mem _ he)) hv

theorem mem_of_get? (hv : get? key m = some v) : (key, v) ∈ m :=
  Each.of_get? (P := fun key v => (key, v) ∈ m) (fun _ he => he) hv

theorem mem_put {e : String × α} (h : e ∈ put key v m) : e = (key, v) ∨ e ∈ m := by
  induction m with
  | nil => exact .inl (List.mem_singleton.mp h)
  | cons d m ih =>
      obtain ⟨k, w⟩ := d
      unfold put at h
      split at h
      · rename_i hk
        rcases List.mem_cons.mp h with rfl | h
        · exact .inl (by rw [hk])
        · exact .inr (List.mem_cons_of_mem _ h)
      · rcases List.mem_cons.mp h with rfl | h
        · exact .inr List.mem_cons_self
        · exact (ih h).imp_right (List.mem_cons_of_mem _)

theorem each_put (hm : Each P m) (hv : P key v) : Each P (put key v m) := by
  intro e he
  rcases mem_put he with rfl | he
  · exact hv
  · exact hm e he

theorem each_putAll {more : Entries α} (hm : Each P m) (hmore : Each P more) :
    Each P (putAll m more) := by
  induction more generalizing m with
  | nil => exact hm
  | cons e more ih =>
      have hput : Each P (put e.1 e.2 m) := each_put hm (hmore e List.mem_cons_self)
      exact ih hput fun d hd => hmore d (List.mem_cons_of_mem _ hd)

theorem each_ofPairs {pairs : List (String × α)} (h : ∀ e ∈ pairs, P e.1 e.2) :
    Each P (ofPairs pairs) := each_putAll each_nil h

theorem each_modify {f : α → α} (hm : Each P m) (hf : ∀ v, P key v → P key (f v)) :
    Each P (modify key f m) := by
  intro e he
  obtain ⟨d, hd, rfl⟩ := List.mem_map.mp he
  by_cases hk : d.1 = key
  · rw [if_pos hk]
    exact hk ▸ hf d.2 (hk ▸ hm d hd)
  · rw [if_neg hk]
    exact hm d hd

theorem each_erase (hm : Each P m) : Each P (erase key m) :=
  fun e he => hm e (List.mem_filter.mp he).1

theorem each_mapValues {Q : String → β → Prop} {f : α → β} (hm : Each P m)
    (hf : ∀ key v, P key v → Q key (f v)) : Each Q (mapValues f m) := by
  intro e he
  obtain ⟨d, hd, rfl⟩ := List.mem_map.mp he
  exact hf d.1 d.2 (hm d hd)

end Each

/-! ## Distinct keys -/

theorem nodup_keys_put {m : Entries α} (key : String) (v : α) (hd : (keys m).Nodup) :
    (keys (put key v m)).Nodup := by
  rw [keys_put]
  by_cases hk : key ∈ keys m
  · rwa [if_pos hk]
  · rw [if_neg hk]
    exact List.nodup_append.mpr ⟨hd, by simp, fun a ha b hb => by
      rintro rfl
      exact hk (List.mem_singleton.mp hb ▸ ha)⟩

theorem nodup_keys_putAll {m : Entries α} (more : Entries α) (hd : (keys m).Nodup) :
    (keys (putAll m more)).Nodup := by
  induction more generalizing m with
  | nil => exact hd
  | cons e more ih => exact ih (nodup_keys_put e.1 e.2 hd)

theorem nodup_keys_ofPairs (pairs : List (String × α)) : (keys (ofPairs pairs)).Nodup :=
  nodup_keys_putAll pairs List.nodup_nil

/-- The keys stand in the order in which they occur first, those in `m` in front. -/
theorem keys_putAll {m : Entries α} (more : Entries α) (hd : (keys m).Nodup) :
    keys (putAll m more) = (keys m ++ keys more).eraseDups := by
  induction more generalizing m with
  | nil =>
      show keys m = (keys m ++ []).eraseDups
      rw [List.append_nil, eraseDups_of_nodup hd]
  | cons e more ih =>
      show keys (putAll (put e.1 e.2 m) more) = (keys m ++ e.1 :: keys more).eraseDups
      rw [ih (nodup_keys_put e.1 e.2 hd), keys_put]
      by_cases hkey : e.1 ∈ keys m
      · rw [if_pos hkey, eraseDups_append_cons_of_mem hkey]
      · rw [if_neg hkey, List.append_assoc, List.singleton_append]

theorem mem_keys_putAll {key : String} {m more : Entries α} :
    key ∈ keys (putAll m more) ↔ key ∈ keys m ∨ key ∈ keys more := by
  induction more generalizing m with
  | nil => exact (or_iff_left List.not_mem_nil).symm
  | cons e more ih =>
      have hput : key ∈ keys (put e.1 e.2 m) ↔ key ∈ keys m ∨ key = e.1 := by
        rw [keys_put]
        by_cases hkey : e.1 ∈ keys m
        · rw [if_pos hkey]
          exact (or_iff_left_of_imp fun h => h ▸ hkey).symm
        · rw [if_neg hkey, List.mem_append, List.mem_singleton]
      have hkeys : key ∈ keys (e :: more) ↔ key = e.1 ∨ key ∈ keys more := List.mem_cons
      exact ih.trans (by rw [hput, hkeys, or_assoc])

theorem keys_ofPairs (pairs : List (String × α)) :
    keys (ofPairs pairs) = (pairs.map Prod.fst).eraseDups :=
  keys_putAll pairs List.nodup_nil

/-- Entries with distinct keys are stored as they stand. -/
theorem ofPairs_eq_self {m : Entries α} (hd : (keys m).Nodup) : ofPairs m = m := by
  refine Entries.ext ?_ (nodup_keys_ofPairs m) fun key _ => get?_ofPairs_of_nodup key hd
  rw [keys_ofPairs]
  exact eraseDups_of_nodup hd

/-- A change of the values that looks at the keys too commutes with storing. -/
theorem ofPairs_map (f : String → α → β) (pairs : List (String × α)) :
    ofPairs (pairs.map fun e => (e.1, f e.1 e.2))
      = (ofPairs pairs).map fun e => (e.1, f e.1 e.2) := by
  have hput (key : String) (v : α) (m : Entries α) :
      put key (f key v) (m.map fun e => (e.1, f e.1 e.2))
        = (put key v m).map fun e => (e.1, f e.1 e.2) := by
    induction m with
    | nil => rfl
    | cons e m ih =>
        by_cases hkey : e.1 = key
        · simp [put, hkey]
        · simp [put, hkey, ih]
  -- The induction is over the pairs, from any table that was built before them.
  have hrun (m : Entries α) :
      putAll (m.map fun e => (e.1, f e.1 e.2)) (pairs.map fun e => (e.1, f e.1 e.2))
        = (putAll m pairs).map fun e => (e.1, f e.1 e.2) := by
    induction pairs generalizing m with
    | nil => rfl
    | cons e pairs ih =>
        show putAll (put e.1 (f e.1 e.2) _) _ = _
        rw [hput]
        exact ih (put e.1 e.2 m)
  exact hrun []

end Entries
end Routebook
