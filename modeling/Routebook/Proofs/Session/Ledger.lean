/-
  Routebook.Proofs.Session.Ledger

  Scanning by values.  A ledger says which model is kept under which key,
  without saying where and how; a finding is a class that was found, with the
  model that its tags give.  Of these alone it depends what a scan answers
  and what is kept afterwards (`Ledger.scan`); that a session with its shared
  models or its files does as the ledger says is shown elsewhere.

  Two laws of such scans are about repetition and history.  A scan that is
  repeated finds everything kept as it left it: it answers the same, and
  nothing changes (`scan_scan`).  And a scan answers as one without a cache
  does as long as every class is kept as its own tags give it, or not at all
  (`scan_eq_uncached`), but not for longer (`own_of_scan_eq_uncached`); scans of
  other classes leave it at that, and so do scans that do not merge (`own_scan`).
-/
import Routebook.Proofs.Merge.Values
import Routebook.Proofs.Outcome

namespace Routebook

/-- A class that was found: its key, and the model that its tags give. -/
structure Finding where
  key : String
  model : Outcome (ClassModel MethodModel)

/-- What is kept, by key and value. -/
abbrev Ledger := Entries (ClassModel MethodModel)

namespace Ledger

/-- The model kept under a key, where a cache is asked for. -/
def recalled (caching : Bool) (key : String) (l : Ledger) : Option (ClassModel MethodModel) :=
  if caching then Entries.get? key l else none

/-- Keep models, where a cache is asked for. -/
def remember (caching : Bool) (models : Entries (ClassModel MethodModel)) (l : Ledger) : Ledger :=
  if caching then Entries.putAll l models else l

/-- Collect a class: what is kept is taken as it is. -/
def collect (caching : Bool) (f : Finding) (l : Ledger) :
    Outcome (ClassModel MethodModel) × Ledger :=
  match recalled caching f.key l with
  | some c => (.ok c, l)
  | none =>
    match f.model with
    | .ok c => (.ok c, remember caching [(f.key, c)] l)
    | .error e => (.error e, l)

/-- Collect classes, each under its key. -/
def gather (caching : Bool) (acc : Entries (ClassModel MethodModel)) :
    List Finding → Ledger → Outcome (Entries (ClassModel MethodModel)) × Ledger
  | [], l => (.ok acc, l)
  | f :: rest, l =>
    match collect caching f l with
    | (.ok c, l') => gather caching (Entries.put f.key c acc) rest l'
    | (.error e, l') => (.error e, l')

/-- Complete models, on demand. -/
def complete (default : String) (merging : Bool) (models : Entries (ClassModel MethodModel)) :
    Entries (ClassModel MethodModel) :=
  if merging then Merge.completed default models else models

/-- Collect classes, complete their models on demand, and keep them. -/
def scan (caching : Bool) (default : String) (merging : Bool) (found : List Finding) (l : Ledger) :
    Outcome (Entries (ClassModel MethodModel)) × Ledger :=
  match gather caching [] found l with
  | (.ok models, l') =>
    (.ok (complete default merging models), remember caching (complete default merging models) l')
  | (.error e, l') => (.error e, l')

/-! ## One class after the other -/

section Gather

variable {caching : Bool} {f : Finding} {l : Ledger} {c : ClassModel MethodModel}
variable {acc : Entries (ClassModel MethodModel)}

theorem gather_cons_of_ok {l' : Ledger} (h : collect caching f l = (.ok c, l'))
    (rest : List Finding) :
    gather caching acc (f :: rest) l = gather caching (Entries.put f.key c acc) rest l' := by
  rw [gather, h]

theorem gather_cons_of_error {l' : Ledger} {e : Failure} (h : collect caching f l = (.error e, l'))
    (rest : List Finding) : gather caching acc (f :: rest) l = (.error e, l') := by
  rw [gather, h]

theorem collect_of_kept (h : Entries.get? f.key l = some c) : collect true f l = (.ok c, l) := by
  have hrecalled : recalled true f.key l = some c := h
  rw [collect, hrecalled]

theorem collect_of_new (hnone : Entries.get? f.key l = none) (hmodel : f.model = .ok c) :
    collect true f l = (.ok c, Entries.put f.key c l) := by
  have hrecalled : recalled true f.key l = none := hnone
  rw [collect, hrecalled, hmodel]
  rfl

theorem collect_of_error (hnone : Entries.get? f.key l = none) {e : Failure}
    (hmodel : f.model = .error e) : collect true f l = (.error e, l) := by
  have hrecalled : recalled true f.key l = none := hnone
  rw [collect, hrecalled, hmodel]

/-- A class that is collected is kept, and nothing else changes. -/
theorem collect_ok {l' : Ledger} (h : collect true f l = (.ok c, l')) :
    Entries.get? f.key l' = some c ∧
      ∀ key c', Entries.get? key l = some c' → Entries.get? key l' = some c' := by
  -- What is kept already stays; what is new goes under a key that was free.
  cases hkept : Entries.get? f.key l with
  | some c₀ =>
      rw [collect_of_kept hkept] at h
      obtain ⟨hc, rfl⟩ := Prod.mk.inj h
      obtain rfl := Except.ok.inj hc
      exact ⟨hkept, fun _ _ h => h⟩
  | none =>
      cases hmodel : f.model with
      | error e =>
          rw [collect_of_error hkept hmodel] at h
          exact absurd (Prod.mk.inj h).1 (by simp)
      | ok c₀ =>
          rw [collect_of_new hkept hmodel] at h
          obtain ⟨hc, rfl⟩ := Prod.mk.inj h
          obtain rfl := Except.ok.inj hc
          refine ⟨Entries.get?_put_self _ _ _, fun key c' hkey => ?_⟩
          have hne : key ≠ f.key := fun he => by
            rw [he, hkept] at hkey
            exact absurd hkey (by simp)
          rw [Entries.get?_put_of_ne _ _ hne]
          exact hkey

/-- The models in hand are kept as they are. -/
def Agrees (models : Entries (ClassModel MethodModel)) (l : Ledger) : Prop :=
  ∀ key c, Entries.get? key models = some c → Entries.get? key l = some c

/-- What was kept before is kept afterwards, and the models collected are too. -/
theorem agrees_gather {found : List Finding} {models : Entries (ClassModel MethodModel)}
    {l' : Ledger} (h : gather true acc found l = (.ok models, l')) (hacc : Agrees acc l) :
    Agrees models l' ∧ Agrees l l' := by
  induction found generalizing acc l with
  | nil =>
      obtain ⟨hmodels, rfl⟩ := Prod.mk.inj h
      obtain rfl := Except.ok.inj hmodels
      exact ⟨hacc, fun _ _ h => h⟩
  | cons f rest ih =>
      -- The invariant of the run is that the answers so far agree with the ledger.
      rcases hcollect : collect true f l with ⟨e | c, l₁⟩
      · rw [gather_cons_of_error hcollect] at h
        exact absurd (Prod.mk.inj h).1 (by simp)
      · rw [gather_cons_of_ok hcollect] at h
        obtain ⟨hnew, hold⟩ := collect_ok hcollect
        have hput : Agrees (Entries.put f.key c acc) l₁ := by
          intro key c' hkey
          rw [Entries.get?_put] at hkey
          split at hkey
          · next hk =>
              rw [hk, hnew]
              exact hkey
          · exact hold key c' (hacc key c' hkey)
        obtain ⟨hmodels, hlater⟩ := ih h hput
        exact ⟨hmodels, fun key c' hkey => hlater key c' (hold key c' hkey)⟩

/-- The models stand in the order in which their classes were found first. -/
theorem keys_gather {found : List Finding} {models : Entries (ClassModel MethodModel)}
    {l' : Ledger} (h : gather caching acc found l = (.ok models, l'))
    (hd : (Entries.keys acc).Nodup) :
    Entries.keys models = (Entries.keys acc ++ found.map Finding.key).eraseDups ∧
      (Entries.keys models).Nodup := by
  induction found generalizing acc l with
  | nil =>
      obtain ⟨hmodels, -⟩ := Prod.mk.inj h
      obtain rfl := Except.ok.inj hmodels
      rw [List.map_nil, List.append_nil, eraseDups_of_nodup hd]
      exact ⟨rfl, hd⟩
  | cons f rest ih =>
      -- A name that is answered again stays where it was answered first.
      rcases hcollect : collect caching f l with ⟨e | c, l₁⟩
      · rw [gather_cons_of_error hcollect] at h
        exact absurd (Prod.mk.inj h).1 (by simp)
      · rw [gather_cons_of_ok hcollect] at h
        obtain ⟨hkeys, hnodup⟩ := ih h (Entries.nodup_keys_put f.key c hd)
        refine ⟨?_, hnodup⟩
        rw [hkeys, Entries.keys_put, List.map_cons]
        split
        · next hmem => rw [eraseDups_append_cons_of_mem hmem]
        · rw [List.append_assoc, List.singleton_append]

/-- Where everything is kept, nothing is collected anew. -/
theorem gather_of_kept {found : List Finding}
    (h : ∀ f ∈ found, f.key ∈ Entries.keys l) :
    ∃ models, gather true acc found l = (.ok models, l) := by
  induction found generalizing acc with
  | nil => exact ⟨acc, rfl⟩
  | cons f rest ih =>
      obtain ⟨c, hc⟩ := Entries.exists_get?_of_mem_keys (h f List.mem_cons_self)
      rw [gather_cons_of_ok (collect_of_kept hc)]
      exact ih fun f' hf' => h f' (List.mem_cons_of_mem _ hf')

/-- Keeping models levels out what two ledgers say under their keys. -/
theorem get?_remember_congr {l' : Ledger} {models : Entries (ClassModel MethodModel)}
    (hoff : caching = false → l' = l)
    (hother : ∀ key, key ∉ Entries.keys models → Entries.get? key l' = Entries.get? key l)
    (key : String) :
    Entries.get? key (remember caching models l)
      = Entries.get? key (remember caching models l') := by
  cases caching with
  | false => rw [hoff rfl]
  | true =>
      show Entries.get? key (Entries.putAll l models) = Entries.get? key (Entries.putAll l' models)
      rw [Entries.get?_putAll, Entries.get?_putAll]
      by_cases hkey : key ∈ Entries.keys models
      · have hsome := Entries.isSome_get?_ofPairs hkey
        rw [Option.or_of_isSome hsome, Option.or_of_isSome hsome]
      · rw [hother key hkey]

end Gather

/-! ## Scanning again -/

section Again

variable {default : String} {merging : Bool} {found found' : List Finding} {l l' : Ledger}
variable {models : Entries (ClassModel MethodModel)}

theorem keys_complete (default : String) (merging : Bool)
    (models : Entries (ClassModel MethodModel)) :
    Entries.keys (complete default merging models) = Entries.keys models := by
  unfold complete
  split
  · exact Entries.keys_mapValues _ _
  · rfl

theorem complete_complete (default : String) (merging : Bool) (hkeyed : Merge.Keyed models) :
    complete default merging (complete default merging models)
      = complete default merging models := by
  unfold complete
  split
  · exact Merge.completed_completed default hkeyed
  · rfl

/-- A scan that goes through collects models, completes them and keeps them. -/
theorem scan_ok {caching : Bool} (h : scan caching default merging found l = (.ok models, l')) :
    ∃ raw l₁, gather caching [] found l = (.ok raw, l₁) ∧
      models = complete default merging raw ∧ l' = remember caching models l₁ := by
  unfold scan at h
  rcases hgather : gather caching [] found l with ⟨e | raw, l₁⟩
  · rw [hgather] at h
    exact absurd (Prod.mk.inj h).1 (by simp)
  · rw [hgather] at h
    obtain ⟨hmodels, rfl⟩ := Prod.mk.inj h
    obtain rfl := Except.ok.inj hmodels
    exact ⟨raw, l₁, rfl, rfl, rfl⟩

theorem keys_scan {caching : Bool} (h : scan caching default merging found l = (.ok models, l')) :
    Entries.keys models = (found.map Finding.key).eraseDups ∧ (Entries.keys models).Nodup := by
  obtain ⟨raw, l₁, hgather, rfl, -⟩ := scan_ok h
  rw [keys_complete]
  exact keys_gather hgather List.nodup_nil

/-- A scan leaves kept what it answers. -/
theorem get?_of_scan (h : scan true default merging found l = (.ok models, l')) {key : String}
    (hkey : key ∈ Entries.keys models) : Entries.get? key l' = Entries.get? key models := by
  have hnodup := (keys_scan h).2
  obtain ⟨raw, l₁, -, -, rfl⟩ := scan_ok h
  obtain ⟨c, hc⟩ := Entries.exists_get?_of_mem_keys hkey
  show Entries.get? key (Entries.putAll l₁ models) = _
  rw [Entries.get?_putAll, Entries.get?_ofPairs_of_nodup key hnodup, hc, Option.some_or]

/-- A scan that finds classes of the same names as one before, in the same order
apart from repetitions, answers the same, and what is kept stays as it is. -/
theorem scan_scan (h : scan true default merging found l = (.ok models, l'))
    (hcomplete : complete default merging models = models)
    (hnames : (found'.map Finding.key).eraseDups = (found.map Finding.key).eraseDups) :
    scan true default merging found' l' = (.ok models, l') := by
  obtain ⟨hkeys, hnodup⟩ := keys_scan h
  have hkept : ∀ key ∈ Entries.keys models, Entries.get? key l' = Entries.get? key models :=
    fun key hkey => get?_of_scan h hkey
  -- All names are names of models, and these are kept.
  have hall : ∀ f ∈ found', f.key ∈ Entries.keys l' := by
    intro f hf
    have hmem : f.key ∈ Entries.keys models := by
      rw [hkeys, ← hnames, List.mem_eraseDups]
      exact List.mem_map_of_mem hf
    obtain ⟨c, hc⟩ := Entries.exists_get?_of_mem_keys hmem
    rw [← Entries.has_iff, Entries.has, hkept _ hmem, hc]
    rfl
  obtain ⟨again, hgather⟩ := @gather_of_kept l' [] found' hall
  have hsame : again = models := by
    obtain ⟨hkeys', hnodup'⟩ := keys_gather hgather List.nodup_nil
    have hagrees := (agrees_gather hgather fun _ _ h => absurd h (by simp)).1
    have heq : Entries.keys again = Entries.keys models := by
      rw [hkeys', hkeys, ← hnames]
      rfl
    refine Entries.ext heq hnodup' fun key hkey => ?_
    obtain ⟨c, hc⟩ := Entries.exists_get?_of_mem_keys hkey
    rw [hc, ← hkept key (heq ▸ hkey), hagrees key c hc]
  have hput : Entries.putAll l' models = l' := by
    refine Entries.putAll_eq_self fun e he => ?_
    rw [hkept e.1 (Entries.mem_keys_of_mem he)]
    exact Entries.get?_eq_some_of_mem hnodup he
  unfold scan
  rw [hgather, hsame]
  simp only [hcomplete]
  exact congrArg (Prod.mk _) hput

end Again

/-! ## Scanning without a cache -/

section Uncached

variable {default : String} {found : List Finding} {l l' : Ledger}
variable {acc models : Entries (ClassModel MethodModel)}

/-- No two different classes that were found have one name. -/
def Distinct (found : List Finding) : Prop :=
  ∀ f ∈ found, ∀ f' ∈ found, f.key = f'.key → f.model = f'.model

/-- Of the classes that were found every one is kept as its own tags give it, or not at all. -/
def Own (found : List Finding) (l : Ledger) : Prop :=
  ∀ f ∈ found, ∀ c, Entries.get? f.key l = some c → f.model = .ok c

theorem distinct_of_nodup (h : (found.map Finding.key).Nodup) : Distinct found := by
  intro f hf f' hf' hkey
  rw [List.inj_on_of_nodup_map h hf hf' hkey]

theorem collect_uncached (f : Finding) (l : Ledger) : collect false f l = (f.model, l) := by
  have hrecalled : recalled false f.key l = none := rfl
  rw [collect, hrecalled]
  cases f.model <;> rfl

theorem gather_eq_uncached (hdistinct : Distinct found) (hown : Own found l) (l' : Ledger) :
    (gather true acc found l).1 = (gather false acc found l').1 := by
  induction found generalizing acc l with
  | nil => rfl
  | cons f rest ih =>
      have hrest : Distinct rest := fun a ha b hb =>
        hdistinct a (List.mem_cons_of_mem _ ha) b (List.mem_cons_of_mem _ hb)
      have hkept : Own rest l := fun a ha => hown a (List.mem_cons_of_mem _ ha)
      -- A kept entry is what the class gives anyway (`Own`), and a new entry keeps that so, since
      -- findings under one key give the same (`Distinct`).
      cases hmodel : f.model with
      | error e =>
          have hnone : Entries.get? f.key l = none := by
            cases hget : Entries.get? f.key l with
            | none => rfl
            | some c =>
                have hc := hown f List.mem_cons_self c hget
                rw [hmodel] at hc
                exact absurd hc (by simp)
          have huncached : collect false f l' = (.error e, l') := by rw [collect_uncached, hmodel]
          rw [gather_cons_of_error (collect_of_error hnone hmodel),
            gather_cons_of_error huncached]
      | ok c =>
          have huncached : collect false f l' = (.ok c, l') := by rw [collect_uncached, hmodel]
          rw [gather_cons_of_ok huncached]
          cases hget : Entries.get? f.key l with
          | some c' =>
              have hc := hown f List.mem_cons_self c' hget
              obtain rfl : c = c' := Except.ok.inj (hmodel.symm.trans hc)
              rw [gather_cons_of_ok (collect_of_kept hget)]
              exact ih hrest hkept
          | none =>
              rw [gather_cons_of_ok (collect_of_new hget hmodel)]
              refine ih hrest fun f' hf' c' hget' => ?_
              rw [Entries.get?_put] at hget'
              split at hget'
              · next hk =>
                  obtain rfl := Option.some.inj hget'
                  rw [← hmodel]
                  exact hdistinct f' (List.mem_cons_of_mem _ hf') f List.mem_cons_self hk
              · exact hkept f' hf' c' hget'

/-- If all classes are kept as their own tags give them, or not at all, a scan
answers as one without a cache does. -/
theorem scan_eq_uncached (default : String) (merging : Bool) (hdistinct : Distinct found)
    (hown : Own found l) (l' : Ledger) :
    (scan true default merging found l).1 = (scan false default merging found l').1 := by
  have hgather : (gather true [] found l).1 = (gather false [] found l').1 :=
    gather_eq_uncached hdistinct hown l'
  unfold scan
  rcases hcached : gather true [] found l with ⟨e | raw, l₁⟩ <;>
    rcases huncached : gather false [] found l' with ⟨e' | raw', l₂⟩ <;>
    rw [hcached, huncached] at hgather
  · exact congrArg Except.error (Except.error.inj hgather)
  · exact absurd hgather (by simp)
  · exact absurd hgather (by simp)
  · obtain rfl : raw = raw' := Except.ok.inj hgather
    rfl

/-- Without a cache every class is answered as its own tags give it. -/
theorem get?_of_gather_uncached (hdistinct : Distinct found)
    (h : (gather false acc found l).1 = .ok models) :
    (∀ f ∈ found, ∃ c, Entries.get? f.key models = some c ∧ f.model = .ok c) ∧
      ∀ key, key ∉ found.map Finding.key → Entries.get? key models = Entries.get? key acc := by
  induction found generalizing acc with
  | nil =>
      obtain rfl : acc = models := Except.ok.inj h
      exact ⟨fun _ hf => absurd hf List.not_mem_nil, fun _ _ => rfl⟩
  | cons f rest ih =>
      have hrest : Distinct rest := fun a ha b hb =>
        hdistinct a (List.mem_cons_of_mem _ ha) b (List.mem_cons_of_mem _ hb)
      cases hmodel : f.model with
      | error e =>
          have huncached : collect false f l = (.error e, l) := by rw [collect_uncached, hmodel]
          rw [gather_cons_of_error huncached] at h
          exact absurd h (by simp)
      | ok c =>
          have huncached : collect false f l = (.ok c, l) := by rw [collect_uncached, hmodel]
          rw [gather_cons_of_ok huncached] at h
          obtain ⟨hfound, hother⟩ := ih hrest h
          refine ⟨fun f' hf' => ?_, fun key hkey => ?_⟩
          · rcases List.mem_cons.mp hf' with rfl | hf'
            · -- The last class of the name is answered, and it is the same one.
              by_cases hmem : f'.key ∈ rest.map Finding.key
              · obtain ⟨f₁, hf₁, hkey⟩ := List.mem_map.mp hmem
                obtain ⟨c₁, hget, hc₁⟩ := hfound f₁ hf₁
                have hsame :=
                  hdistinct f' List.mem_cons_self f₁ (List.mem_cons_of_mem _ hf₁) hkey.symm
                exact ⟨c₁, hkey ▸ hget, hmodel ▸ hsame.trans hc₁⟩
              · refine ⟨c, ?_, hmodel⟩
                rw [hother _ hmem, Entries.get?_put_self]
            · exact hfound f' hf'
          · rw [List.map_cons] at hkey
            have hrestKey : key ∉ rest.map Finding.key := fun h => hkey (List.mem_cons_of_mem _ h)
            have hne : key ≠ f.key := fun h => hkey (h ▸ List.mem_cons_self)
            rw [hother key hrestKey, Entries.get?_put_of_ne _ _ hne]

/-- Without a cache a scan goes through if every class that was found has a model. -/
theorem exists_scan_uncached (default : String) (hmodels : ∀ f ∈ found, ∃ c, f.model = .ok c)
    (l : Ledger) : ∃ models, (scan false default false found l).1 = .ok models := by
  have hgather (acc : Entries (ClassModel MethodModel)) :
      ∃ models, gather false acc found l = (.ok models, l) := by
    induction found generalizing acc with
    | nil => exact ⟨acc, rfl⟩
    | cons f rest ih =>
        obtain ⟨c, hc⟩ := hmodels f List.mem_cons_self
        have hcollect : collect false f l = (.ok c, l) := by rw [collect_uncached, hc]
        rw [gather_cons_of_ok hcollect]
        exact ih (fun f' hf' => hmodels f' (List.mem_cons_of_mem _ hf')) _
  obtain ⟨models, hmodels⟩ := hgather []
  refine ⟨models, ?_⟩
  unfold scan
  rw [hmodels]
  rfl

/-- If a scan without merging answers as one without a cache, all classes are
kept as their own tags give them, or not at all. -/
theorem own_of_scan_eq_uncached (hdistinct : Distinct found)
    (huncached : (scan false default false found l').1 = .ok models)
    (hcached : (scan true default false found l).1 = .ok models) : Own found l := by
  rcases hscan : scan true default false found l with ⟨r, l₁⟩
  rw [hscan] at hcached
  obtain rfl : r = .ok models := hcached
  obtain ⟨raw, l₂, hgather, hraw, -⟩ := scan_ok hscan
  obtain rfl : models = raw := hraw
  have hplain : (gather false [] found l').1 = .ok models := by
    rcases hscan' : scan false default false found l' with ⟨r', l₃⟩
    rw [hscan'] at huncached
    obtain rfl : r' = .ok models := huncached
    obtain ⟨raw', l₄, hgather', hraw', -⟩ := scan_ok hscan'
    obtain rfl : models = raw' := hraw'
    rw [hgather']
  -- What the ledger kept under a key of the scan was answered, and the scan without a cache
  -- answered what the class gives: the answers are the same.
  obtain ⟨hmodels, hlater⟩ := agrees_gather hgather fun _ _ h => absurd h (by simp)
  intro f hf c hget
  obtain ⟨c', hget', hmodel⟩ := (get?_of_gather_uncached hdistinct hplain).1 f hf
  have hkept := hmodels f.key c' hget'
  rw [hlater f.key c hget] at hkept
  exact hmodel.trans (congrArg Except.ok (Option.some.inj hkept).symm)

end Uncached

/-! ## Classes that stay as they are -/

section Own

variable {default : String} {merging : Bool} {found other : List Finding} {l : Ledger}
variable {acc : Entries (ClassModel MethodModel)}

theorem own_collect {f' : Finding} (hown : Own found l)
    (hsame : ∀ f ∈ found, f'.key = f.key → f'.model = f.model) :
    Own found (collect true f' l).2 := by
  cases hget : Entries.get? f'.key l with
  | some c =>
      rw [collect_of_kept hget]
      exact hown
  | none =>
      cases hmodel : f'.model with
      | error e =>
          rw [collect_of_error hget hmodel]
          exact hown
      | ok c =>
          rw [collect_of_new hget hmodel]
          intro f hf c' hc'
          rw [Entries.get?_put] at hc'
          split at hc'
          · next hkey =>
              obtain rfl := Option.some.inj hc'
              rw [← hsame f hf hkey.symm]
              exact hmodel
          · exact hown f hf c' hc'

theorem own_gather (hown : Own found l)
    (hsame : ∀ f' ∈ other, ∀ f ∈ found, f'.key = f.key → f'.model = f.model) :
    Own found (gather true acc other l).2 := by
  induction other generalizing acc l with
  | nil => exact hown
  | cons f' rest ih =>
      have hfirst := own_collect hown (hsame f' List.mem_cons_self)
      rcases hcollect : collect true f' l with ⟨e | c, l₁⟩ <;> rw [hcollect] at hfirst
      · rw [gather_cons_of_error hcollect]
        exact hfirst
      · rw [gather_cons_of_ok hcollect]
        exact ih hfirst fun a ha => hsame a (List.mem_cons_of_mem _ ha)

/-- A scan leaves classes as their own tags give them, unless it merges one of
their names or finds another class under it. -/
theorem own_scan (hown : Own found l)
    (hother : ∀ f' ∈ other, ∀ f ∈ found, f'.key = f.key →
      merging = false ∧ f'.model = f.model) :
    Own found (scan true default merging other l).2 := by
  have hgathered : Own found (gather true [] other l).2 :=
    own_gather hown fun f' hf' f hf hkey => (hother f' hf' f hf hkey).2
  unfold scan
  rcases hgather : gather true [] other l with ⟨e | raw, l₁⟩ <;> rw [hgather] at hgathered
  · exact hgathered
  · obtain ⟨hkeys, hnodup⟩ := keys_gather hgather List.nodup_nil
    cases merging with
    | false =>
        -- The models are kept as they are already.
        have hagrees := (agrees_gather hgather fun _ _ h => absurd h (by simp)).1
        have hput : Entries.putAll l₁ raw = l₁ :=
          Entries.putAll_eq_self fun e he =>
            hagrees e.1 e.2 (Entries.get?_eq_some_of_mem hnodup he)
        show Own found (Entries.putAll l₁ raw)
        rw [hput]
        exact hgathered
    | true =>
        intro f hf c hc
        have hnew : f.key ∉ Entries.keys (complete default true raw) := by
          rw [keys_complete, hkeys, List.mem_eraseDups]
          intro hmem
          obtain ⟨f', hf', hkey⟩ := List.mem_map.mp hmem
          exact absurd (hother f' hf' f hf hkey).1 (by simp)
        have hget := Entries.get?_putAll f.key l₁ (complete default true raw)
        rw [Entries.get?_ofPairs_of_nodup f.key (keys_complete default true raw ▸ hnodup),
          (Entries.get?_eq_none_iff _ _).mpr hnew, Option.none_or] at hget
        exact hgathered f hf c (hget.symm.trans hc)

end Own

end Ledger
end Routebook
