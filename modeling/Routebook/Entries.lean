/-
  Routebook.Entries

  Ordered key/value lists: a key keeps the place of its first insertion and
  the value of its last one.  Every named collection of the library (the
  members of an object value, the auth tags of a group, the methods of a
  class) is such a list, so its order is part of what it holds.
-/

namespace Routebook

/-- Key/value pairs in the order in which the keys were first inserted. -/
abbrev Entries (α : Type u) := List (String × α)

namespace Entries

variable {α : Type u} {β : Type v}

/-- The value stored under a key. -/
def get? (key : String) : Entries α → Option α
  | [] => none
  | (k, v) :: rest => if k = key then some v else get? key rest

/-- Whether a key is stored. -/
def has (key : String) (m : Entries α) : Bool := (get? key m).isSome

/-- Store a value: an existing key keeps its place, a new one goes to the end. -/
def put (key : String) (value : α) : Entries α → Entries α
  | [] => [(key, value)]
  | (k, v) :: rest => if k = key then (k, value) :: rest else (k, v) :: put key value rest

/-- Store a value only under a key that is not there yet. -/
def putNew (key : String) (value : α) (m : Entries α) : Entries α :=
  if has key m then m else m ++ [(key, value)]

/-- Change the value under a key, if there is one. -/
def modify (key : String) (f : α → α) (m : Entries α) : Entries α :=
  m.map fun e => if e.1 = key then (e.1, f e.2) else e

/-- Remove a key. -/
def erase (key : String) (m : Entries α) : Entries α := m.filter (·.1 ≠ key)

/-- The keys, in order. -/
def keys (m : Entries α) : List String := m.map Prod.fst

/-- The values, in order. -/
def values (m : Entries α) : List α := m.map Prod.snd

/-- Store every pair of `more`, from the first to the last. -/
def putAll (m more : Entries α) : Entries α := more.foldl (fun acc e => put e.1 e.2 acc) m

/-- The entries of a list of pairs that may repeat a key. -/
def ofPairs (pairs : List (String × α)) : Entries α := putAll [] pairs

/-- Change every value and keep the keys. -/
def mapValues (f : α → β) (m : Entries α) : Entries β := m.map fun e => (e.1, f e.2)

/-! ## Small laws -/

@[simp] theorem get?_nil (key : String) : get? key ([] : Entries α) = none := rfl

theorem get?_cons (key k : String) (v : α) (m : Entries α) :
    get? key ((k, v) :: m) = if k = key then some v else get? key m := rfl

theorem get?_put_self (key : String) (v : α) (m : Entries α) :
    get? key (put key v m) = some v := by
  induction m with
  | nil => simp [put, get?]
  | cons e m ih =>
    obtain ⟨k, w⟩ := e
    by_cases h : k = key <;> simp [put, get?, h, ih]

theorem get?_put_of_ne {key other : String} (v : α) (m : Entries α) (h : other ≠ key) :
    get? other (put key v m) = get? other m := by
  induction m with
  | nil => simp [put, get?, Ne.symm h]
  | cons e m ih =>
    obtain ⟨k, w⟩ := e
    by_cases hk : k = key
    · simp [put, get?, hk, Ne.symm h]
    · by_cases ho : k = other
      · subst ho; simp [put, get?, hk]
      · simp [put, get?, hk, ho, ih]

theorem get?_eq_none_iff (key : String) (m : Entries α) :
    get? key m = none ↔ key ∉ keys m := by
  induction m with
  | nil => simp [keys]
  | cons e m ih =>
    obtain ⟨k, w⟩ := e
    by_cases h : k = key
    · simp [get?, keys, h]
    · simp only [get?, h, if_false, ih, keys, List.map_cons, List.mem_cons, not_or]
      exact ⟨fun hm => ⟨fun he => h he.symm, hm⟩, fun hm => hm.2⟩

theorem has_iff (key : String) (m : Entries α) : has key m = true ↔ key ∈ keys m := by
  have h := get?_eq_none_iff key m
  cases hg : get? key m with
  | none => simp [has, hg, h.1 hg]
  | some v =>
    have : key ∈ keys m := Classical.byContradiction fun hn => by simp [h.2 hn] at hg
    simp [has, hg, this]

/-- The keys after storing: the same ones, or the new one at the end. -/
theorem keys_put (key : String) (v : α) (m : Entries α) :
    keys (put key v m) = if key ∈ keys m then keys m else keys m ++ [key] := by
  induction m with
  | nil => simp [put, keys]
  | cons e m ih =>
    obtain ⟨k, w⟩ := e
    by_cases h : k = key
    · simp [put, keys, h]
    · have hk : ¬ key = k := fun he => h he.symm
      simp only [keys, put, h, if_false, List.map_cons, List.mem_cons, hk, false_or] at ih ⊢
      rw [ih]
      by_cases hm : key ∈ List.map Prod.fst m <;> simp [hm]

theorem putNew_of_has {key : String} (v : α) {m : Entries α} (h : has key m = true) :
    putNew key v m = m := by simp [putNew, h]

theorem putNew_of_not_has {key : String} (v : α) {m : Entries α} (h : has key m = false) :
    putNew key v m = m ++ [(key, v)] := by simp [putNew, h]

@[simp] theorem keys_modify (key : String) (f : α → α) (m : Entries α) :
    keys (modify key f m) = keys m := by
  simp only [keys, modify, List.map_map]
  refine List.map_congr_left fun e _ => ?_
  by_cases h : e.1 = key <;> simp [h]

@[simp] theorem keys_mapValues (f : α → β) (m : Entries α) :
    keys (mapValues f m) = keys m := by
  simp [keys, mapValues, Function.comp_def]

end Entries

end Routebook
