/-
  Routebook.Proofs.Session.Soundness

  Sound sessions: loaded tags are in normal form, every model is sound, and
  the cache leads to sound models alone.  Each step of a session keeps this,
  together with the models that the rest of a run has in hand (`Has`), and
  what a failing step has done is sound as well.
-/
import Routebook.Proofs.Cache.Soundness
import Routebook.Proofs.Controller.Collect
import Routebook.Proofs.Modules.Discovery
import Routebook.Proofs.Session.Heap
import Routebook.Proofs.Session.Steps

namespace Routebook

open Steps

/-! ## The heap -/

namespace Heap

open Merge

variable {h : Heap}

theorem sound_empty : Heap.empty.Sound := fun _ hid => absurd hid (Nat.not_lt_zero _)

/-- A method that is not there has no group, so a sound model has none of it. -/
theorem lt_of_sound {id : ModelId} (hsound : (h.model id).Sound) :
    ∀ m ∈ Entries.values (h.held id).methods, m < h.methods.length := by
  intro m hm
  by_contra hout
  have hblank : h.method m = MethodModel.empty "" := by
    unfold method
    rw [List.getElem?_eq_none (Nat.le_of_not_lt hout), Option.getD_none]
  obtain ⟨e, he, rfl⟩ := List.mem_map.mp hm
  have hmem : (e.1, h.method e.2) ∈ (h.model id).methods := List.mem_map_of_mem he
  obtain ⟨x, hx, -⟩ := (hsound.methods _ hmem).group.group
  rw [hblank] at hx
  exact absurd hx (by simp [MethodModel.empty, GroupInfo.empty])

theorem sound_add (hsound : h.Sound) {c : ClassModel MethodModel} (hc : c.Sound) :
    (h.add c).1.Sound := by
  intro id hid
  rw [length_models_add] at hid
  rcases Nat.lt_succ_iff_lt_or_eq.mp hid with hlt | rfl
  · rw [model_add_of_lt h c hlt (lt_of_sound (hsound id hlt))]
    exact hsound id hlt
  · rw [model_add_self]
    exact hc

theorem sound_merge (hsound : h.Sound) (default : String) (ids : List ModelId) :
    (h.merge default ids).1.Sound := by
  intro id hid
  rw [models_merge] at hid
  obtain ⟨hgroup, hmethods, hdistinct, hproperties, hdistinct'⟩ := hsound id hid
  rw [model_merge]
  refine ⟨hgroup, ?_, ?_, hproperties, hdistinct'⟩
  · -- A method is completed, or it is as it was.
    intro e he
    obtain ⟨d, hd, rfl⟩ := List.mem_map.mp he
    have hold : (h.method d.2).Sound d.1 := hmethods (d.1, h.method d.2) (List.mem_map_of_mem hd)
    dsimp only
    split
    · exact sound_complete _ hold
    · exact hold
  · have hkeys : ∀ f : MethodId → MethodModel,
        Entries.keys ((h.held id).mapMethods f).methods = Entries.keys (h.held id).methods :=
      fun f => Entries.keys_mapValues f _
    rw [hkeys, ← hkeys h.method]
    exact hdistinct

/-- The groups of a merge stand under their own names, and so do their auth tags. -/
theorem sound_groups (h : Heap) (default : String) (ids : List ModelId) :
    Entries.Each MergedGroup.Sound
      (Entries.mapValues (h.merge default ids).1.merged (h.merge default ids).2) := by
  have hd := nodup_keys_shells default (ids.map h.model)
  rw [merge_snd_eq_map]
  intro e he
  obtain ⟨g, hg, rfl⟩ := List.mem_map.mp he
  obtain ⟨⟨name, shell⟩, hshell, rfl⟩ := List.mem_map.mp hg
  have hget : Entries.get? name (shells default (ids.map h.model)) = some shell :=
    Entries.get?_eq_some_of_mem hd hshell
  -- The auth tags of a group come from its entrants, which were entered by name.
  have hauth : shell.auth = authOf (shells default (ids.map h.model)) name := by
    unfold authOf
    rw [hget]
    rfl
  refine ⟨rfl, ?_, ?_⟩
  · show ∀ a ∈ shell.auth, a.1 = a.2.name
    rw [hauth, shells_eq]
    exact keyed_authOf_enterEach _ name
  · show (Entries.keys shell.auth).Nodup
    rw [hauth, shells_eq]
    exact nodup_authOf_enterEach _ name

/-- Of sound models the groups do not depend on the default group. -/
theorem merge_congr_default (hsound : h.Sound) {ids : List ModelId}
    (hids : ∀ id ∈ ids, id < h.models.length) (default default' : String) :
    h.merge default' ids = h.merge default ids := by
  have hmodels : ∀ c ∈ ids.map h.model, c.Sound := by
    intro c hc
    obtain ⟨id, hid, rfl⟩ := List.mem_map.mp hc
    exact hsound id (hids id hid)
  have hshells : shells default' (ids.map h.model) = shells default (ids.map h.model) :=
    shells_of_sound hmodels
  -- Every method that is reached names its own group.
  have hnames : ∀ m ∈ h.methodsOf ids, h.groupOf default' m = h.groupOf default m := by
    intro m hm
    obtain ⟨c, hc, hm⟩ := List.mem_flatMap.mp hm
    obtain ⟨id, hid, rfl⟩ := List.mem_map.mp hc
    obtain ⟨e, he, rfl⟩ := List.mem_map.mp hm
    have hmem : (e.1, h.method e.2) ∈ (h.model id).methods := List.mem_map_of_mem he
    have hgroup := ((hsound id (hids id hid)).methods _ hmem).group
    exact GroupInfo.groupName_of_sound hgroup default' default
  have hcomplete : ∀ m ∈ h.methodsOf ids, ∀ all,
      complete default' all (h.method m) = complete default all (h.method m) := by
    intro m hm all
    have hname : (h.method m).group.groupName default' = (h.method m).group.groupName default :=
      hnames m hm
    unfold complete
    rw [hname]
  refine Prod.ext ?_ ?_
  · refine ext_of_method (by simp) (by simp) fun m _ => ?_
    rw [merge_fst, merge_fst, method_completeAll, method_completeAll, hshells]
    by_cases hm : m ∈ h.methodsOf ids
    · rw [hcomplete m hm]
    · rw [if_neg fun hc => hm hc.1, if_neg fun hc => hm hc.1]
  · rw [merge_snd_eq_map, merge_snd_eq_map, hshells]
    refine List.map_congr_left fun e _ => ?_
    have hfilter : ((h.methodsOf ids).filter fun id => h.groupOf default' id = e.1)
        = (h.methodsOf ids).filter fun id => h.groupOf default id = e.1 :=
      List.filter_congr fun m hm => by rw [hnames m hm]
    rw [hfilter]

end Heap

/-! ## Sessions -/

namespace Cache

/-- A cache of sound models: memory leads to models that were made. -/
def Sound (made : Nat) (t : Tree) : Cache → Prop
  | .memory items => Entries.Each (fun _ id => id < made) items
  | .directory d => Holds t d

/-- Nothing is kept. -/
def IsEmpty (t : Tree) : Cache → Prop
  | .memory items => items = []
  | .directory d => ∀ key, t.isFileAt (t.resolve (d.child (fileName key))) = false

theorem Sound.mono {made made' : Nat} {t : Tree} {cache : Cache} (h : cache.Sound made t)
    (hle : made ≤ made') : cache.Sound made' t := by
  cases cache with
  | memory items =>
      have hitems : Entries.Each (fun _ id => id < made) items := h
      exact hitems.mono fun _ _ hid => Nat.lt_of_lt_of_le hid hle
  | directory d => exact h

theorem IsEmpty.sound {t : Tree} {cache : Cache} (h : cache.IsEmpty t) (made : Nat) :
    cache.Sound made t := by
  cases cache with
  | memory items =>
      intro e he
      rw [show items = [] from h] at he
      exact absurd he List.not_mem_nil
  | directory d =>
      intro key content hfile
      have hfree := h key
      unfold Tree.isFileAt at hfree
      rw [hfile] at hfree
      exact absurd hfree (by simp)

end Cache

namespace Session

/-- Loaded tags are in normal form, and all models are sound, kept ones too. -/
structure Sound (s : Session) : Prop where
  modules : s.modules.Valid
  heap : s.heap.Sound
  cache : s.cache.Sound s.heap.models.length s.tree

/-- A sound session in which some models were made. -/
structure Has (ids : List ModelId) (s : Session) : Prop where
  sound : s.Sound
  made : ∀ id ∈ ids, id < s.heap.models.length

section Sound

variable {s : Session}

/-- What the tags of a class give is sound and in normal form. -/
theorem sound_valid_reflectModel (h : s.modules.Valid) {c : FoundClass} {publicOnly : Bool}
    {m : ClassModel MethodModel} (hm : s.reflectModel c publicOnly = .ok m) :
    m.Sound ∧ m.Valid := by
  have hclass : ∀ id (k : Controller), s.modules.world[id]? = some k → k.Valid :=
    fun id k hk => h.world.of_getElem? hk
  have htags : AllValid (s.tagsOf c) := by
    -- A class that is no controller has no tags and no owners.
    cases c with
    | foreign key => exact allValid_nil
    | controller id =>
        show AllValid (((s.modules.world[id]?).map Controller.tags).getD [])
        cases hk : s.modules.world[id]? with
        | none => exact allValid_nil
        | some k => exact (hclass id k hk).tags
  have howners : ∀ o ∈ s.ownersOf c, o.Valid := by
    cases c with
    | foreign key => exact fun o ho => absurd ho List.not_mem_nil
    | controller id =>
        show ∀ o ∈ ((s.modules.world[id]?).map
          (Controller.owners s.modules.world s.modules.globals)).getD [], o.Valid
        cases hk : s.modules.world[id]? with
        | none => exact fun o ho => absurd ho List.not_mem_nil
        | some k => exact Controller.valid_owners h.world h.globals (hclass id k hk)
  exact Collect.sound_valid_model htags howners hm

theorem Sound.items (h : s.Sound) {items : Entries ModelId} (hcache : s.cache = .memory items) :
    Entries.Each (fun _ id => id < s.heap.models.length) items := by
  have hsound := h.cache
  rwa [hcache] at hsound

theorem Sound.holds (h : s.Sound) {d : Path} (hcache : s.cache = .directory d) :
    Cache.Holds s.tree d := by
  have hsound := h.cache
  rwa [hcache] at hsound

theorem Has.mono {ids ids' : List ModelId} (h : s.Has ids) (hids : ids' ⊆ ids) : s.Has ids' :=
  ⟨h.sound, fun id hid => h.made id (hids hid)⟩

theorem Has.add {ids : List ModelId} (h : s.Has ids) {c : ClassModel MethodModel} (hc : c.Sound) :
    Has (s.heap.models.length :: ids) { s with heap := (s.heap.add c).1 } := by
  have hlength : (s.heap.add c).1.models.length = s.heap.models.length + 1 :=
    Heap.length_models_add _ _
  have hle : s.heap.models.length ≤ (s.heap.add c).1.models.length := by omega
  refine ⟨⟨h.sound.modules, Heap.sound_add h.sound.heap hc, h.sound.cache.mono hle⟩, ?_⟩
  intro id hid
  show id < (s.heap.add c).1.models.length
  rw [hlength]
  rcases List.mem_cons.mp hid with rfl | hid
  · exact Nat.lt_succ_self _
  · exact Nat.lt_succ_of_lt (h.made id hid)

theorem Has.merge {ids : List ModelId} (h : s.Has ids) (default : String) (ids' : List ModelId) :
    Has ids { s with heap := (s.heap.merge default ids').1 } := by
  have hlength : (s.heap.merge default ids').1.models.length = s.heap.models.length := by
    rw [Heap.models_merge]
  refine ⟨⟨h.sound.modules, Heap.sound_merge h.sound.heap default ids', ?_⟩, fun id hid => ?_⟩
  · exact h.sound.cache.mono (Nat.le_of_eq hlength.symm)
  · show id < (s.heap.merge default ids').1.models.length
    rw [hlength]
    exact h.made id hid

end Sound

/-! ## What every step keeps -/

section Steps

variable {ids : List ModelId}

theorem keeps_lift {r : Outcome α} {Q : α → Session → Prop}
    (h : ∀ a s, r = .ok a → s.Has ids → Q a s) : Keeps Sound (Has ids) Q (lift r) := by
  intro s hs
  rw [exec_lift]
  cases r with
  | ok a => exact h a s rfl hs
  | error e => exact hs.sound

/-- Loading touches neither models nor files. -/
theorem keeps_load {x : Load α} {Q : α → Prop} (hx : ∀ t, Import.Same t t Q x) :
    Keeps Sound (Has ids) (fun _ => Has ids) (load x) := by
  intro s hs
  obtain ⟨-, htree, hvalid, -⟩ := (hx s.tree).exec rfl hs.sound.modules
  have hcache : s.cache.Sound s.heap.models.length (exec x s.modules).2.tree := by
    rw [htree]
    exact hs.sound.cache
  have hafter : Has ids { s with modules := (exec x s.modules).2 } :=
    ⟨⟨hvalid, hs.sound.heap, hcache⟩, hs.made⟩
  rw [exec_load]
  cases (exec x s.modules).1 with
  | ok a => exact hafter
  | error e => exact hafter.sound

theorem keeps_cached (key : String) :
    Keeps Sound (Has ids) (fun found => Has (found.toList ++ ids)) (cached key) := by
  intro s hs
  cases hcache : s.cache with
  | memory items =>
      rw [exec_cached_memory key hcache]
      refine ⟨hs.sound, fun id hid => ?_⟩
      rcases List.mem_append.mp hid with hid | hid
      · exact (hs.sound.items hcache).of_get? (Option.mem_toList.mp hid)
      · exact hs.made id hid
  | directory d =>
      rw [exec_cached_directory key hcache]
      cases hload : Cache.load s.tree d key with
      | error e => exact hs.sound
      | ok found =>
          -- What is read from a file is sound because only sound models were stored there.
          cases found with
          | none => exact hs
          | some c => exact hs.add (Cache.sound_of_load (hs.sound.holds hcache) hload)

theorem keeps_keep (key : String) {id : ModelId} (hid : id ∈ ids) :
    Keeps Sound (Has ids) (fun _ => Has ids) (keep key id) := by
  intro s hs
  have hmade := hs.made id hid
  cases hcache : s.cache with
  | memory items =>
      rw [exec_keep_memory key id hcache]
      have hput : Entries.Each (fun _ id => id < s.heap.models.length) (Entries.put key id items) :=
        Entries.each_put (hs.sound.items hcache) hmade
      exact ⟨⟨hs.sound.modules, hs.sound.heap, hput⟩, hs.made⟩
  | directory d =>
      rw [exec_keep_directory key id hcache, exec_change]
      -- What a change that fails has done stays, and is sound as well.
      have hstored : s.cache.Sound s.heap.models.length
          (Cache.store s.tree d key (s.heap.model id)).after := by
        rw [hcache]
        exact Cache.holds_store (hs.sound.holds hcache) key (hs.sound.heap id hmade)
      have hafter : Has ids { s with modules := { s.modules with
          tree := (Cache.store s.tree d key (s.heap.model id)).after } } :=
        ⟨⟨⟨hs.sound.modules.world, hs.sound.modules.loaded⟩, hs.sound.heap, hstored⟩, hs.made⟩
      cases hstore : Cache.store s.tree d key (s.heap.model id) with
      | ok t =>
          rw [hstore] at hafter
          exact hafter
      | error r =>
          rw [hstore] at hafter
          exact hafter.sound

theorem keeps_recalled (key : String) :
    Keeps Sound (Has ids) (fun found => Has (found.toList ++ ids)) (recalled key) := by
  intro s hs
  rw [exec_recalled]
  split
  · exact keeps_cached key s hs
  · exact hs

theorem keeps_remember (key : String) {id : ModelId} (hid : id ∈ ids) :
    Keeps Sound (Has ids) (fun _ => Has ids) (remember key id) := by
  intro s hs
  rw [exec_remember]
  split
  · exact keeps_keep key hid s hs
  · exact hs

theorem keeps_addModel {c : ClassModel MethodModel} (hc : c.Sound) :
    Keeps Sound (Has ids) (fun id => Has (id :: ids)) (addModel c) :=
  fun _ hs => hs.add hc

theorem keeps_mergeWith (default : String) (ids' : List ModelId) :
    Keeps Sound (Has ids) (fun _ => Has ids) (mergeWith default ids') :=
  fun _ hs => hs.merge default ids'

theorem keeps_merge (ids' : List ModelId) :
    Keeps Sound (Has ids) (fun _ => Has ids) (merge ids') :=
  keeps_get_bind fun s _ => keeps_mergeWith s.settings.defaultGroup ids'

theorem keeps_collectNew (c : FoundClass) (publicOnly : Bool) :
    Keeps Sound (Has ids) (fun id => Has (id :: ids)) (collectNew c publicOnly) := by
  refine keeps_get_bind fun s hs => ?_
  have hmodel : Keeps Sound (Has ids) (fun m s' => m.Sound ∧ s'.Has ids)
      (lift (s.reflectModel c publicOnly)) :=
    keeps_lift fun m s' hm hs' => ⟨(sound_valid_reflectModel hs.sound.modules hm).1, hs'⟩
  refine keeps_bind hmodel fun m => ?_
  intro s' hs'
  refine keeps_bind (keeps_addModel hs'.1) (fun id => ?_) s' hs'.2
  refine keeps_bind (keeps_remember _ List.mem_cons_self) fun _ => ?_
  exact keeps_pure fun _ h => h

theorem keeps_collect (c : FoundClass) (publicOnly : Bool) :
    Keeps Sound (Has ids) (fun id => Has (id :: ids)) (collect c publicOnly) := by
  refine keeps_get_bind fun s _ => keeps_bind (keeps_recalled (s.keyOf c)) fun found => ?_
  cases found with
  | some id => exact keeps_pure fun _ h => h
  | none => exact keeps_collectNew c publicOnly

theorem keeps_collectAll (acc : Entries ModelId) (cs : List FoundClass) :
    Keeps Sound (Has (Entries.values acc)) (fun models => Has (Entries.values models))
      (collectAll acc cs) := by
  induction cs generalizing acc with
  | nil => exact keeps_pure fun _ h => h
  | cons c rest ih =>
      refine keeps_bind (keeps_collect c false) fun id => keeps_get_bind fun s _ => ?_
      refine keeps_mono (ih (Entries.put (s.keyOf c) id acc)) (fun s' h => h.mono ?_) fun _ _ h => h
      -- The models in hand are those before, and the one collected.
      intro i hi
      obtain ⟨e, he, rfl⟩ := List.mem_map.mp hi
      rcases Entries.mem_put he with rfl | he
      · exact List.mem_cons_self
      · exact List.mem_cons_of_mem _ (List.mem_map_of_mem he)

theorem keeps_mergeOnDemand (merging : Bool) (models : Entries ModelId) :
    Keeps Sound (Has ids) (fun _ => Has ids) (mergeOnDemand merging models) := by
  unfold mergeOnDemand
  split
  · exact keeps_discard (keeps_merge _) fun _ _ h => h
  · exact keeps_pure fun _ h => h

theorem keeps_scan (path : String) (merging : Bool) :
    Keeps Sound (Has []) (fun models => Has (Entries.values models)) (scan path merging) := by
  have hclasses : ∀ t, Import.Same t t (fun _ => True) (Discover.classes path) :=
    fun t => Import.same_classes (Tree.LooksLike.refl t) (Tree.SameAt.refl t _)
  refine keeps_bind (keeps_load hclasses) fun found => ?_
  refine keeps_bind (keeps_collectAll [] found) fun models => ?_
  refine keeps_bind (keeps_mergeOnDemand merging models) fun _ => ?_
  refine keeps_bind (keeps_forM models fun e he => ?_) fun _ => keeps_pure fun _ h => h
  exact keeps_remember e.1 (List.mem_map_of_mem he)

end Steps

end Session
end Routebook
