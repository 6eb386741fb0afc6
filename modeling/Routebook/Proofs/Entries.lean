/-
  Routebook.Proofs.Entries

  The theory of ordered entries that merging and storing rest on.  Adding
  entries under new keys only is a fold of `putNew`; it leaves what was there
  in front (`prefix_putAllNew`), adds nothing whose key is taken
  (`putAllNew_eq_self`), and adds a list of new keys as it stands
  (`putAllNew_of_disjoint`).

  `putAllNew_filter` is the fact that re-merging turns on: entries that are
  the front part of a finished collection reach that collection at once, in
  the same order, when they are given the entries of it that they lack.
-/
import Routebook.Entries

namespace Routebook

/-! ## Lists in the order of first occurrence -/

theorem eraseDups_of_nodup {l : List String} (hd : l.Nodup) : l.eraseDups = l := by
  induction l with
  | nil => rfl
  | cons a l ih =>
      obtain ⟨ha, hd⟩ := List.nodup_cons.mp hd
      have hkept : (l.filter fun b => !b == a) = l :=
        List.filter_eq_self.mpr fun b hb => by simp [ne_of_mem_of_not_mem hb ha]
      rw [List.eraseDups_cons, hkept, ih hd]

/-- What has occurred already may be left out. -/
theorem eraseDups_append_cons_of_mem {l : List String} {a : String} (ha : a ∈ l)
    (rest : List String) : (l ++ a :: rest).eraseDups = (l ++ rest).eraseDups := by
  have hskip : (a :: rest).removeAll l = rest.removeAll l := by
    rw [List.cons_removeAll, if_neg (by simpa using ha)]
  rw [List.eraseDups_append, List.eraseDups_append, hskip]

theorem eraseDups_eq_nil_iff {l : List String} : l.eraseDups = [] ↔ l = [] := by
  cases l with
  | nil => simp
  | cons a l => simp [List.eraseDups_cons]

theorem map_eq_self {α : Type u} {f : α → α} {l : List α} (h : ∀ a ∈ l, f a = a) :
    l.map f = l :=
  calc l.map f = l.map id := List.map_congr_left h
    _ = l := List.map_id l

namespace Entries

variable {α : Type u} {β : Type v}

/-- Store every pair of `more` whose key is new, from the first to the last. -/
def putAllNew (m more : Entries α) : Entries α :=
  more.foldl (fun acc e => putNew e.1 e.2 acc) m

/-! ## Lookup -/

theorem mapValues_eq_self {f : α → α} {m : Entries α} (h : ∀ e ∈ m, f e.2 = e.2) :
    mapValues f m = m :=
  map_eq_self fun e he => by rw [h e he]

@[simp] theorem all_mapValues (f : α → β) (p : String × β → Bool) (m : Entries α) :
    List.all (mapValues f m) p = List.all m fun e => p (e.1, f e.2) := by
  rw [mapValues, List.all_map]
  rfl

theorem get?_mapValues (f : α → β) (key : String) (m : Entries α) :
    get? key (mapValues f m) = (get? key m).map f := by
  induction m with
  | nil => rfl
  | cons e m ih =>
      obtain ⟨k, v⟩ := e
      show get? key ((k, f v) :: mapValues f m) = _
      rw [get?_cons, get?_cons, ih]
      split <;> rfl

theorem values_mapValues (f : α → β) (m : Entries α) :
    values (mapValues f m) = (values m).map f := by
  simp only [values, mapValues, List.map_map, Function.comp_def]

theorem mapValues_mapValues {γ : Type w} (f : α → β) (g : β → γ) (m : Entries α) :
    mapValues g (mapValues f m) = mapValues (g ∘ f) m := by
  simp only [mapValues, List.map_map, Function.comp_def]

theorem mapValues_congr {f g : α → β} {m : Entries α} (h : ∀ v ∈ values m, f v = g v) :
    mapValues f m = mapValues g m :=
  List.map_congr_left fun e he => by rw [h e.2 (List.mem_map_of_mem he)]

theorem mapValues_put (f : α → β) (key : String) (v : α) (m : Entries α) :
    mapValues f (put key v m) = put key (f v) (mapValues f m) := by
  induction m with
  | nil => rfl
  | cons e m ih =>
      obtain ⟨k, w⟩ := e
      show mapValues f (if k = key then _ else _) = if k = key then _ else _
      split
      · rfl
      · exact congrArg ((k, f w) :: ·) ih

/-- Putting in what is there changes nothing. -/
theorem put_eq_self {key : String} {v : α} {m : Entries α} (h : get? key m = some v) :
    put key v m = m := by
  induction m with
  | nil => exact absurd h (by simp)
  | cons e m ih =>
      obtain ⟨k, w⟩ := e
      rw [get?_cons] at h
      unfold put
      split at h
      · next hk =>
          rw [if_pos hk, Option.some.inj h]
      · next hk => rw [if_neg hk, ih h]

theorem has_eq_false_iff (key : String) (m : Entries α) :
    has key m = false ↔ key ∉ keys m := by
  rw [← has_iff, Bool.not_eq_true]

@[simp] theorem keys_append (m n : Entries α) : keys (m ++ n) = keys m ++ keys n := by
  simp [keys]

theorem mem_keys_of_mem {e : String × α} {m : Entries α} (h : e ∈ m) : e.1 ∈ keys m :=
  List.mem_map_of_mem h

theorem get?_append (key : String) (m n : Entries α) :
    get? key (m ++ n) = (get? key m).or (get? key n) := by
  induction m with
  | nil => simp
  | cons e m ih =>
      obtain ⟨k, v⟩ := e
      by_cases h : k = key <;> simp [get?_cons, h, ih]

theorem get?_eq_some_of_mem {e : String × α} {m : Entries α} (hd : (keys m).Nodup)
    (h : e ∈ m) : get? e.1 m = some e.2 := by
  induction m with
  | nil => cases h
  | cons d m ih =>
      obtain ⟨k, v⟩ := d
      have hk : k ∉ keys m := (List.nodup_cons.mp hd).1
      rcases List.mem_cons.mp h with rfl | hm
      · simp [get?_cons]
      · have hne : k ≠ e.1 := fun he => hk (he ▸ mem_keys_of_mem hm)
        rw [get?_cons, if_neg hne]
        exact ih (List.nodup_cons.mp hd).2 hm

theorem get?_erase (key k : String) (m : Entries α) :
    get? k (erase key m) = if k = key then none else get? k m := by
  induction m with
  | nil => simp [erase]
  | cons e m ih =>
      obtain ⟨c, v⟩ := e
      have hstep : erase key ((c, v) :: m)
          = if c = key then erase key m else (c, v) :: erase key m := by
        by_cases hc : c = key <;> simp [erase, hc]
      rw [hstep]
      -- An entry of the key is left out and looking goes on behind it, for the key may stand twice.
      by_cases hc : c = key
      · rw [if_pos hc, ih, get?_cons]
        by_cases hk : k = key
        · rw [if_pos hk, if_pos hk]
        · rw [if_neg hk, if_neg hk, if_neg fun he => hk (he.symm.trans hc)]
      · rw [if_neg hc, get?_cons, get?_cons, ih]
        by_cases hk : c = k
        · rw [if_pos hk, if_pos hk, if_neg (hk ▸ hc)]
        · rw [if_neg hk, if_neg hk]

theorem has_erase_of_ne {key k : String} (h : k ≠ key) (m : Entries α) :
    has k (erase key m) = has k m := by
  rw [has, has, get?_erase, if_neg h]

theorem erase_eq_self {key : String} {m : Entries α} (h : has key m = false) : erase key m = m := by
  have hnot : key ∉ keys m := (has_eq_false_iff key m).mp h
  apply List.filter_eq_self.mpr
  intro e he
  have hne : e.1 ≠ key := fun heq => hnot (heq ▸ mem_keys_of_mem he)
  simpa using hne

theorem get?_put (key k : String) (v : α) (m : Entries α) :
    get? key (put k v m) = if key = k then some v else get? key m := by
  split
  · next h => rw [h, get?_put_self]
  · next h => exact get?_put_of_ne v m h

theorem has_put (key k : String) (v : α) (m : Entries α) :
    has key (put k v m) = (decide (key = k) || has key m) := by
  unfold has
  rw [get?_put]
  by_cases h : key = k
  · simp [h]
  · simp [h]

/-- Keys that are filtered by a test which the stored key does not pass. -/
theorem filter_put {p : String → Bool} {key : String} (hp : p key = false) (v : α)
    (m : Entries α) : (put key v m).filter (fun e => p e.1) = m.filter fun e => p e.1 := by
  induction m with
  | nil => simp [put, hp]
  | cons e m ih =>
      obtain ⟨k, w⟩ := e
      unfold put
      split
      · next hk => simp [hk, hp]
      · rw [List.filter_cons, List.filter_cons, ih]

/-- The last pair with a key decides; without one, what was stored before. -/
theorem get?_putAll (key : String) (m more : Entries α) :
    get? key (putAll m more) = (get? key (ofPairs more)).or (get? key m) := by
  induction more generalizing m with
  | nil => rfl
  | cons e more ih =>
      -- The first pair counts as stored before the others.
      have hstep (n : Entries α) : get? key (putAll n (e :: more))
          = (get? key (ofPairs more)).or (get? key (put e.1 e.2 n)) := ih (put e.1 e.2 n)
      have hfresh : get? key (ofPairs (e :: more))
          = (get? key (ofPairs more)).or (get? key (put e.1 e.2 [])) := hstep []
      rw [hstep m, hfresh, Option.or_assoc, get?_put, get?_put]
      split <;> rfl

theorem putAll_eq_self {m more : Entries α} (h : ∀ e ∈ more, get? e.1 m = some e.2) :
    putAll m more = m := by
  induction more with
  | nil => rfl
  | cons e more ih =>
      show putAll (put e.1 e.2 m) more = m
      rw [put_eq_self (h e List.mem_cons_self)]
      exact ih fun d hd => h d (List.mem_cons_of_mem _ hd)

theorem get?_ofPairs_cons (key : String) (e : String × α) (more : Entries α) :
    get? key (ofPairs (e :: more))
      = (get? key (ofPairs more)).or (if key = e.1 then some e.2 else none) := by
  show get? key (putAll (put e.1 e.2 []) more) = _
  rw [get?_putAll, get?_put, get?_nil]

theorem isSome_get?_ofPairs {key : String} {m : Entries α} (h : key ∈ keys m) :
    (get? key (ofPairs m)).isSome = true := by
  induction m with
  | nil => exact absurd h List.not_mem_nil
  | cons e m ih =>
      rw [get?_ofPairs_cons, Option.isSome_or]
      rcases List.mem_cons.mp h with rfl | h
      · rw [if_pos rfl, Option.isSome_some, Bool.or_true]
      · rw [ih h, Bool.true_or]

theorem get?_ofPairs_of_nodup {m : Entries α} (key : String) (hd : (keys m).Nodup) :
    get? key (ofPairs m) = get? key m := by
  induction m with
  | nil => rfl
  | cons e m ih =>
      obtain ⟨k, v⟩ := e
      obtain ⟨hk, hd⟩ := List.nodup_cons.mp hd
      rw [get?_ofPairs_cons, ih hd, get?_cons]
      by_cases h : k = key
      · have hnone : get? key m = none := (get?_eq_none_iff key m).mpr (h ▸ hk)
        rw [hnone, if_pos h, if_pos h.symm, Option.none_or]
      · rw [if_neg h, if_neg (Ne.symm h), Option.or_none]

theorem exists_get?_of_mem_keys {key : String} {m : Entries α} (h : key ∈ keys m) :
    ∃ v, get? key m = some v := by
  cases hg : get? key m with
  | some v => exact ⟨v, rfl⟩
  | none => exact absurd h ((get?_eq_none_iff key m).mp hg)

/-- Entries under the same distinct keys with the same values are the same. -/
protected theorem ext {m n : Entries α} (hk : keys m = keys n) (hd : (keys m).Nodup)
    (h : ∀ key ∈ keys m, get? key m = get? key n) : m = n := by
  have hfst : ∀ e ∈ m, get? e.1 n = some e.2 := fun e he =>
    (h e.1 (mem_keys_of_mem he)).symm.trans (get?_eq_some_of_mem hd he)
  refine List.ext_getElem (by simpa [keys] using congrArg List.length hk) fun i hi hj => ?_
  have hkey : m[i].1 = n[i].1 := by
    have := congrArg (·[i]?) hk
    simpa [keys, hi, hj] using this
  have hval : some m[i].2 = some n[i].2 := by
    rw [← hfst m[i] (List.getElem_mem hi), hkey]
    exact get?_eq_some_of_mem (hk ▸ hd) (List.getElem_mem hj)
  exact Prod.ext hkey (Option.some.inj hval)

theorem get?_modify (key k : String) (f : α → α) (m : Entries α) :
    get? k (modify key f m) = if k = key then (get? k m).map f else get? k m := by
  induction m with
  | nil => simp [modify]
  | cons e m ih =>
      obtain ⟨c, v⟩ := e
      have hstep : modify key f ((c, v) :: m)
          = (c, if c = key then f v else v) :: modify key f m := by
        by_cases hc : c = key <;> simp [modify, hc]
      rw [hstep, get?_cons, get?_cons, ih]
      by_cases hc : c = k
      · subst hc
        by_cases hk : c = key <;> simp [hk]
      · simp [hc]

/-! ## Storing under one new key -/

theorem keys_putNew (key : String) (v : α) (m : Entries α) :
    keys (putNew key v m) = if key ∈ keys m then keys m else keys m ++ [key] := by
  by_cases h : key ∈ keys m
  · rw [putNew_of_has v ((has_iff key m).mpr h), if_pos h]
  · rw [putNew_of_not_has v ((has_eq_false_iff key m).mpr h), if_neg h, keys_append]
    rfl

theorem get?_putNew (key k : String) (v : α) (m : Entries α) :
    get? k (putNew key v m) = if k = key then some ((get? key m).getD v) else get? k m := by
  cases hg : get? key m with
  | some w =>
      rw [putNew_of_has v (by simp [has, hg])]
      by_cases hk : k = key <;> simp [hk, hg]
  | none =>
      rw [putNew_of_not_has v (by simp [has, hg]), get?_append]
      by_cases hk : k = key
      · simp [hk, hg, get?_cons]
      · simp [hk, get?_cons, Ne.symm hk]

theorem prefix_putNew (key : String) (v : α) (m : Entries α) : m <+: putNew key v m := by
  unfold putNew
  split
  · exact List.prefix_refl m
  · exact List.prefix_append m _

theorem nodup_keys_putNew (key : String) (v : α) {m : Entries α} (hd : (keys m).Nodup) :
    (keys (putNew key v m)).Nodup := by
  rw [keys_putNew]
  split
  · exact hd
  · rename_i hk
    refine List.nodup_append.mpr ⟨hd, by simp, ?_⟩
    intro a ha b hb hab
    rw [List.mem_singleton.mp hb] at hab
    exact hk (hab ▸ ha)

/-! ## Storing under many new keys -/

@[simp] theorem putAllNew_nil (m : Entries α) : putAllNew m [] = m := rfl

theorem putAllNew_cons (m : Entries α) (e : String × α) (more : Entries α) :
    putAllNew m (e :: more) = putAllNew (putNew e.1 e.2 m) more := rfl

theorem putAllNew_append (m more rest : Entries α) :
    putAllNew m (more ++ rest) = putAllNew (putAllNew m more) rest :=
  List.foldl_append

theorem prefix_putAllNew (m more : Entries α) : m <+: putAllNew m more := by
  induction more generalizing m with
  | nil => exact List.prefix_refl m
  | cons e more ih => exact (prefix_putNew e.1 e.2 m).trans (ih _)

theorem nodup_keys_putAllNew {m : Entries α} (more : Entries α) (hd : (keys m).Nodup) :
    (keys (putAllNew m more)).Nodup := by
  induction more generalizing m with
  | nil => exact hd
  | cons e more ih => exact ih (nodup_keys_putNew e.1 e.2 hd)

theorem mem_keys_putAllNew (key : String) (m more : Entries α) :
    key ∈ keys (putAllNew m more) ↔ key ∈ keys m ∨ key ∈ keys more := by
  induction more generalizing m with
  | nil => simp [keys]
  | cons e more ih =>
      have hcons : key ∈ keys (e :: more) ↔ key = e.1 ∨ key ∈ keys more := List.mem_cons
      rw [putAllNew_cons, ih, keys_putNew, hcons]
      by_cases he : e.1 ∈ keys m
      · rw [if_pos he]
        constructor
        · rintro (h | h)
          · exact Or.inl h
          · exact Or.inr (Or.inr h)
        · rintro (h | rfl | h)
          · exact Or.inl h
          · exact Or.inl he
          · exact Or.inr h
      · rw [if_neg he, List.mem_append, List.mem_singleton, or_assoc]

/-- Every entry of the result was there before or is one of those given. -/
theorem mem_putAllNew {e : String × α} {m more : Entries α} (h : e ∈ putAllNew m more) :
    e ∈ m ∨ e ∈ more := by
  induction more generalizing m with
  | nil => exact Or.inl h
  | cons d more ih =>
      rw [putAllNew_cons] at h
      rcases ih h with hm | hr
      · unfold putNew at hm
        split at hm
        · exact Or.inl hm
        · rcases List.mem_append.mp hm with hm | hd
          · exact Or.inl hm
          · exact Or.inr (List.mem_singleton.mp hd ▸ List.mem_cons_self)
      · exact Or.inr (List.mem_cons_of_mem _ hr)

/-- Entries whose keys are taken add nothing. -/
theorem putAllNew_eq_self {m more : Entries α} (h : ∀ e ∈ more, e.1 ∈ keys m) :
    putAllNew m more = m := by
  induction more with
  | nil => rfl
  | cons e more ih =>
      have he : has e.1 m = true := (has_iff e.1 m).mpr (h e List.mem_cons_self)
      rw [putAllNew_cons, putNew_of_has e.2 he]
      exact ih fun d hd => h d (List.mem_cons_of_mem _ hd)

/-- Entries whose keys are new and distinct are added as they stand. -/
theorem putAllNew_of_disjoint {m more : Entries α} (hd : (keys more).Nodup)
    (h : ∀ e ∈ more, e.1 ∉ keys m) : putAllNew m more = m ++ more := by
  induction more generalizing m with
  | nil => simp
  | cons e more ih =>
      obtain ⟨he, hd⟩ := List.nodup_cons.mp hd
      have hnew : has e.1 m = false := (has_eq_false_iff e.1 m).mpr (h e List.mem_cons_self)
      rw [putAllNew_cons, putNew_of_not_has e.2 hnew, ih hd]
      · simp
      · intro d hd' hmem
        rw [keys_append] at hmem
        rcases List.mem_append.mp hmem with hm | hm
        · exact h d (List.mem_cons_of_mem _ hd') hm
        · exact he (List.mem_singleton.mp hm ▸ mem_keys_of_mem hd')

/-- The entries of a list that may repeat a key: of each key the first one. -/
def firsts : Entries α → Entries α
  | [] => []
  | e :: rest => e :: (firsts rest).filter fun d => d.1 ≠ e.1

theorem mem_of_mem_firsts {e : String × α} {m : Entries α} (h : e ∈ firsts m) : e ∈ m := by
  induction m with
  | nil => exact h
  | cons d m ih =>
      rcases List.mem_cons.mp h with rfl | h
      · exact List.mem_cons_self
      · exact List.mem_cons_of_mem _ (ih (List.mem_filter.mp h).1)

/-- Of what is given, the first entry of each key that is new is added. -/
theorem putAllNew_eq_append_firsts (m more : Entries α) :
    putAllNew m more = m ++ (firsts more).filter fun e => e.1 ∉ keys m := by
  induction more generalizing m with
  | nil => simp [firsts]
  | cons e more ih =>
      rw [putAllNew_cons, ih]
      by_cases he : e.1 ∈ keys m
      · have hrest : ((firsts more).filter fun d => d.1 ≠ e.1).filter (fun d => d.1 ∉ keys m)
            = (firsts more).filter fun d => d.1 ∉ keys m := by
          rw [List.filter_filter]
          refine List.filter_congr fun d _ => ?_
          by_cases hd : d.1 = e.1 <;> simp [hd, he]
        rw [putNew_of_has e.2 ((has_iff e.1 m).mpr he), firsts,
          List.filter_cons_of_neg (by simpa using he), hrest]
      · have hrest : ((firsts more).filter fun d => d.1 ≠ e.1).filter (fun d => d.1 ∉ keys m)
            = (firsts more).filter fun d => d.1 ∉ keys (m ++ [e]) := by
          rw [List.filter_filter]
          refine List.filter_congr fun d _ => ?_
          have hkeys : keys (m ++ [e]) = keys m ++ [e.1] := keys_append m [e]
          simp [hkeys, Bool.and_comm]
        rw [putNew_of_not_has e.2 ((has_eq_false_iff e.1 m).mpr he), firsts,
          List.filter_cons_of_pos (by simpa using he), hrest, List.append_assoc,
          List.singleton_append]

theorem putAllNew_nil_left (more : Entries α) : putAllNew [] more = firsts more := by
  have hall : ((firsts more).filter fun e => e.1 ∉ keys ([] : Entries α)) = firsts more :=
    List.filter_eq_self.mpr fun e _ => by simp [keys]
  rw [putAllNew_eq_append_firsts, hall, List.nil_append]

theorem firsts_of_nodup {m : Entries α} (hd : (keys m).Nodup) : firsts m = m := by
  induction m with
  | nil => rfl
  | cons e m ih =>
      obtain ⟨he, hd⟩ := List.nodup_cons.mp hd
      have hkept : (m.filter fun d => d.1 ≠ e.1) = m := by
        refine List.filter_eq_self.mpr fun d hmem => ?_
        have hne : d.1 ≠ e.1 := fun heq => he (heq ▸ mem_keys_of_mem hmem)
        simpa using hne
      rw [firsts, ih hd, hkept]

/-- With distinct keys, what is added are the entries whose keys are new, in their order. -/
theorem putAllNew_eq_append_filter {m more : Entries α} (hd : (keys more).Nodup) :
    putAllNew m more = m ++ more.filter fun e => decide (e.1 ∉ keys m) := by
  rw [putAllNew_eq_append_firsts, firsts_of_nodup hd]

/-- The front part of a collection, given the entries of the collection whose
keys are not among some of its own, becomes the whole collection. -/
theorem putAllNew_filter {m whole : Entries α} (hpre : m <+: whole) (hd : (keys whole).Nodup)
    {p : String → Bool} (hp : ∀ key, p key = false → key ∈ keys m) :
    putAllNew m (whole.filter fun e => p e.1) = whole := by
  obtain ⟨rest, rfl⟩ := hpre
  rw [keys_append] at hd
  obtain ⟨-, hrest, hdisj⟩ := List.nodup_append.mp hd
  have hnew : ∀ e ∈ rest, e.1 ∉ keys m := fun e he hm => hdisj _ hm _ (mem_keys_of_mem he) rfl
  have hkept : (rest.filter fun e => p e.1) = rest := by
    refine List.filter_eq_self.mpr fun e he => ?_
    cases hpe : p e.1 with
    | true => rfl
    | false => exact absurd (hp e.1 hpe) (hnew e he)
  have hold : putAllNew m (m.filter fun e => p e.1) = m :=
    putAllNew_eq_self fun e he => mem_keys_of_mem (List.mem_filter.mp he).1
  rw [List.filter_append, putAllNew_append, hkept, hold]
  exact putAllNew_of_disjoint hrest hnew

end Entries
end Routebook
