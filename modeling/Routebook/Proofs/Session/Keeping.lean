/-
  Routebook.Proofs.Session.Keeping

  Sessions do as the ledger says, whichever cache they have.  Memory keeps
  the very models that are in hand, so completing them changes what is kept,
  and keeping them afterwards changes nothing; a directory keeps copies, which
  change only when models are kept.  In the end both keep the same
  (`endAlike_scan`).

  The relation that carries the proof is `Follows`: the session keeps what the
  ledger says, and what it has in hand are models of its own.  In memory each
  of them is the one that is kept under its key; a directory is one that was
  empty at first, and the names in question have files of their own there.
-/
import Routebook.Proofs.Cache.RoundTrip
import Routebook.Proofs.Files.Stock
import Routebook.Proofs.Session.Ledger
import Routebook.Proofs.Session.Soundness

namespace Routebook

open Steps

namespace Cache

/-- The directory of a cache, if it has one. -/
def directory? : Cache → Option Path
  | .memory _ => none
  | .directory d => some d

theorem eq_directory {c : Cache} {d : Path} (h : c.directory? = some d) : c = .directory d := by
  cases c with
  | memory items => exact absurd h (by simp [directory?])
  | directory d' => rw [Option.some.inj h]

/-- A name of a file in which a model is kept. -/
def IsEntry (keys : String → Prop) (name : String) : Prop := ∃ key, keys key ∧ name = fileName key

theorem endsWith_py_of_isEntry {keys : String → Prop} (name : String) (h : IsEntry keys name) :
    name.endsWith ".py" = false := by
  obtain ⟨key, -, rfl⟩ := h
  rw [← Bool.not_eq_true, endsWith_iff, toList_fileName]
  rintro ⟨lead, hlead⟩
  have hlast := congrArg List.getLast? hlead
  rw [List.getLast?_append_of_ne_nil _ (by decide), List.getLast?_append_of_ne_nil _ (by decide)]
    at hlast
  exact absurd hlast (by decide)

/-- Names that a directory tells apart, and models that it gives back. -/
structure Shelf (keys : String → Prop) (models : ClassModel MethodModel → Prop) : Prop where
  apart : ∀ a b, keys a → keys b → fileName a = fileName b → a = b
  short : ∀ key, keys key → (fileName key).utf8ByteSize ≤ Tree.nameLimit
  back : ∀ c, models c → decode (encode c) = .ok (some c)

end Cache

/-- Models that are sound, and stay such models when they are completed. -/
structure Keepable (models : ClassModel MethodModel → Prop) : Prop where
  sound : ∀ c, models c → c.Sound
  completed : ∀ default objects, (∀ c ∈ Entries.values objects, models c) →
    ∀ c ∈ Entries.values (Merge.completed default objects), models c

theorem Keepable.keyed {models : ClassModel MethodModel → Prop} (h : Keepable models)
    {objects : Entries (ClassModel MethodModel)}
    (hobjects : ∀ c ∈ Entries.values objects, models c) : Merge.Keyed objects := by
  intro c hc m hm
  obtain ⟨e, he, rfl⟩ := List.mem_map.mp hm
  exact ((h.sound c (hobjects c hc)).methods e he).group.keyed

namespace Session

/-- What a run leaves as it was: the settings, the modules but for the files,
the directory of the cache, and without caching the cache and the files too. -/
structure Frame (s s' : Session) : Prop where
  settings : s'.settings = s.settings
  base : s'.baseDirectory = s.baseDirectory
  modules : s'.modules = s.modules.withTree s'.tree
  directory : s'.cache.directory? = s.cache.directory?
  uncached : s.settings.cache = false → s'.cache = s.cache ∧ s'.tree = s.tree

/-- A class that was found, as the ledger sees it. -/
def finding (s : Session) (c : FoundClass) : Finding := ⟨s.keyOf c, s.reflectModel c false⟩

theorem Frame.refl (s : Session) : Frame s s := ⟨rfl, rfl, rfl, rfl, fun _ => ⟨rfl, rfl⟩⟩

theorem Frame.keyOf {s s' : Session} (h : Frame s s') (c : FoundClass) :
    s'.keyOf c = s.keyOf c := by
  unfold Session.keyOf
  rw [h.modules]
  rfl

theorem Frame.reflectModel {s s' : Session} (h : Frame s s') (c : FoundClass) (publicOnly : Bool) :
    s'.reflectModel c publicOnly = s.reflectModel c publicOnly := by
  unfold Session.reflectModel
  rw [h.keyOf, h.settings]
  unfold Session.tagsOf Session.ownersOf
  rw [h.modules]
  rfl

/-- Models that are made or completed are no part of it. -/
theorem Frame.withHeap {s s' : Session} (h : Frame s s') (heap : Heap) :
    Frame s { s' with heap := heap } :=
  ⟨h.settings, h.base, h.modules, h.directory, h.uncached⟩

/-- Memory keeps without leaving memory. -/
theorem Frame.withItems {s s' : Session} (h : Frame s s') (hcaching : s.settings.cache = true)
    {items : Entries ModelId} (hcache : s'.cache = .memory items) (items' : Entries ModelId) :
    Frame s { s' with cache := .memory items' } :=
  ⟨h.settings, h.base, h.modules, (congrArg Cache.directory? hcache).symm.trans h.directory,
    fun hoff => absurd (hcaching.symm.trans hoff) (by simp)⟩

/-- A directory keeps by files. -/
theorem Frame.withFiles {s s' : Session} (h : Frame s s') (hcaching : s.settings.cache = true)
    (tree : Tree) : Frame s { s' with modules := { s'.modules with tree := tree } } := by
  refine ⟨h.settings, h.base, ?_, h.directory, fun hoff => ?_⟩
  · show { s'.modules with tree := tree } = _
    rw [h.modules]
    rfl
  · exact absurd (hcaching.symm.trans hoff) (by simp)

/-- The models in memory are those of the ledger, each its own, and those in
hand are among them. -/
structure InMemory (items acc : Entries ModelId) (heap : Heap) (l : Ledger) : Prop where
  made : ∀ key id, Entries.get? key items = some id → id < heap.models.length
  distinct : ∀ key key' id, Entries.get? key items = some id → Entries.get? key' items = some id →
    key = key'
  ledger : ∀ key, Entries.get? key l = (Entries.get? key items).map heap.model
  inHand : ∀ e ∈ acc, Entries.get? e.1 items = some e.2

/-- A directory that was empty in the files `t` gives what the ledger says. -/
structure InDirectory (keys : String → Prop) (models : ClassModel MethodModel → Prop) (t : Tree)
    (d : Path) (place : Place) (tree : Tree) (l : Ledger) : Prop where
  shelf : Cache.Shelf keys models
  vacant : t.Vacant d place
  stocked : t.Stocked (Cache.IsEntry keys) place tree
  loads : ∀ key, keys key → Cache.load tree d key = .ok (Entries.get? key l)

/-- The cache of a session over the files `t` keeps what the ledger says. -/
inductive Kept (keys : String → Prop) (models : ClassModel MethodModel → Prop) (t : Tree)
    (acc : Entries ModelId) (s : Session) (l : Ledger) : Prop where
  | memory {items : Entries ModelId} (hcache : s.cache = .memory items) (htree : s.tree = t)
      (hitems : InMemory items acc s.heap l)
  | directory {d : Path} {place : Place} (hcache : s.cache = .directory d)
      (hfiles : InDirectory keys models t d place s.tree l)

/-- Since `s₀` the session has come to keep what the ledger says, with the
models `acc` in hand. -/
structure Follows (keys : String → Prop) (models : ClassModel MethodModel → Prop) (t : Tree)
    (s₀ : Session) (acc : Entries ModelId) (s : Session) (l : Ledger) : Prop where
  frame : Frame s₀ s
  apart : s.heap.Apart
  made : ∀ id ∈ Entries.values acc, id < s.heap.models.length
  inHand : ∀ e ∈ acc, keys e.1 ∧ models (s.heap.model e.2)
  known : ∀ key c, Entries.get? key l = some c → models c
  kept : s₀.settings.cache = true → Kept keys models t acc s l

section Follows

variable {keys : String → Prop} {models : ClassModel MethodModel → Prop} {t : Tree}
variable {s₀ s : Session} {acc : Entries ModelId} {l : Ledger}

/-- The models in hand may be laid down, and the ledger said otherwise. -/
theorem Follows.congr (h : Follows keys models t s₀ acc s l) {l' : Ledger}
    (hl : ∀ key, Entries.get? key l' = Entries.get? key l) : Follows keys models t s₀ acc s l' := by
  refine ⟨h.frame, h.apart, h.made, h.inHand, fun key c hc => h.known key c (hl key ▸ hc),
    fun hcaching => ?_⟩
  cases h.kept hcaching with
  | memory hcache htree hitems =>
      exact .memory hcache htree ⟨hitems.made, hitems.distinct,
        fun key => (hl key).trans (hitems.ledger key), hitems.inHand⟩
  | directory hcache hfiles =>
      exact .directory hcache ⟨hfiles.shelf, hfiles.vacant, hfiles.stocked,
        fun key hkey => by rw [hl key]; exact hfiles.loads key hkey⟩

/-! ## Keeping one model -/

/-- A model is kept in a file of its own. -/
theorem InDirectory.store {d : Path} {place : Place} {tree : Tree}
    (h : InDirectory keys models t d place tree l) {key : String} (hkey : keys key)
    {c : ClassModel MethodModel} (hc : models c) :
    ∃ tree', Cache.store tree d key c = .ok tree' ∧
      InDirectory keys models t d place tree' (Entries.put key c l) := by
  have hlookup : tree.lookup d = .found place .directory :=
    h.stocked.lookup_of_found h.vacant.directory
  have hmake := Tree.makeWay_of_lookup hlookup
  have hfree : t.node? (place ++ [Cache.fileName key]) = none := h.vacant.free _
  have hnode : tree.node? (place ++ [Cache.fileName key]) ≠ some .directory := by
    rw [Ne, h.stocked.directory_iff, hfree]
    simp
  -- The way to the directory is there and no directory has the name, so the entry is one `put`.
  have hstore : Cache.store tree d key c
      = .ok (tree.put (place ++ [Cache.fileName key]) (.file (Cache.fileOf c))) :=
    Cache.store_ok_iff.mpr ⟨tree, place, hmake, hlookup, h.shelf.short key hkey, hnode, rfl⟩
  refine ⟨_, hstore, h.shelf, h.vacant, h.stocked.put ⟨key, hkey, rfl⟩ hfree _,
    fun other hother => ?_⟩
  rw [Entries.get?_put]
  by_cases heq : other = key
  · subst heq
    rw [if_pos rfl, Cache.load_store_of_fileName_eq hstore rfl, h.shelf.back c hc]
  · have hname : Cache.fileName other ≠ Cache.fileName key :=
      fun he => heq (h.shelf.apart other key hother hkey he)
    rw [if_neg heq, Cache.load_store_of_fileName_ne hstore hname, hmake]
    exact h.loads other hother

/-- A model of memory that is new is kept under a key that is new. -/
theorem InMemory.add {items : Entries ModelId} {heap : Heap} (h : InMemory items acc heap l)
    (hapart : heap.Apart) {key : String} (hnew : Entries.get? key l = none)
    (c : ClassModel MethodModel) :
    InMemory (Entries.put key heap.models.length items) (Entries.put key heap.models.length acc)
      (heap.add c).1 (Entries.put key c l) := by
  have hfree : Entries.get? key items = none := by
    rw [h.ledger key] at hnew
    exact Option.map_eq_none_iff.mp hnew
  -- No number from before is that of the new model.
  have hold : ∀ k id, Entries.get? k items = some id → id ≠ heap.models.length :=
    fun k id hk => Nat.ne_of_lt (h.made k id hk)
  refine ⟨fun k id hk => ?_, fun k k' id hk hk' => ?_, fun k => ?_, fun e he => ?_⟩
  · rw [Heap.length_models_add]
    rw [Entries.get?_put] at hk
    split at hk
    · obtain rfl := Option.some.inj hk
      exact Nat.lt_succ_self _
    · exact Nat.lt_succ_of_lt (h.made k id hk)
  · rw [Entries.get?_put] at hk hk'
    split at hk <;> split at hk'
    · next hkey hkey' => rw [hkey, hkey']
    · exact absurd (Option.some.inj hk).symm (hold k' id hk')
    · exact absurd (Option.some.inj hk').symm (hold k id hk)
    · exact h.distinct k k' id hk hk'
  · rw [Entries.get?_put, Entries.get?_put]
    split
    · rw [Option.map_some, Heap.model_add_self]
    · rw [h.ledger k]
      cases hk : Entries.get? k items with
      | none => rfl
      | some id => rw [Option.map_some, Option.map_some, Heap.model_add hapart (h.made k id hk)]
  · rcases Entries.mem_put he with rfl | he
    · exact Entries.get?_put_self _ _ _
    · have hne : e.1 ≠ key := by
        intro heq
        have hget := h.inHand e he
        rw [heq, hfree] at hget
        exact absurd hget (by simp)
      rw [Entries.get?_put_of_ne _ _ hne]
      exact h.inHand e he

/-! ## Collecting -/

/-- One more model in hand. -/
theorem Follows.put {s' : Session} {l' : Ledger} (h : Follows keys models t s₀ acc s l)
    {key : String} (hkey : keys key) {id : ModelId} (hframe : Frame s₀ s') (hapart : s'.heap.Apart)
    (hlength : s.heap.models.length ≤ s'.heap.models.length)
    (hsame : ∀ i < s.heap.models.length, s'.heap.model i = s.heap.model i)
    (hid : id < s'.heap.models.length) (hmodel : models (s'.heap.model id))
    (hknown : ∀ k c, Entries.get? k l' = some c → models c)
    (hkept : s₀.settings.cache = true → Kept keys models t (Entries.put key id acc) s' l') :
    Follows keys models t s₀ (Entries.put key id acc) s' l' ∧
      s'.modelsNow (Entries.put key id acc)
        = Entries.put key (s'.heap.model id) (s.modelsNow acc) := by
  -- Models made before keep their numbers and their content; only the one put is new.
  refine ⟨⟨hframe, hapart, fun i hi => ?_, fun e he => ?_, hknown, hkept⟩, ?_⟩
  · obtain ⟨e, he, rfl⟩ := List.mem_map.mp hi
    rcases Entries.mem_put he with rfl | he
    · exact hid
    · exact Nat.lt_of_lt_of_le (h.made _ (List.mem_map_of_mem he)) hlength
  · rcases Entries.mem_put he with rfl | he
    · exact ⟨hkey, hmodel⟩
    · rw [hsame _ (h.made _ (List.mem_map_of_mem he))]
      exact h.inHand e he
  · unfold modelsNow
    rw [Entries.mapValues_put]
    exact congrArg _ (Entries.mapValues_congr fun i hi => hsame i (h.made i hi))

/-- A model that was made is one more in hand. -/
theorem Follows.made_put {s' : Session} {l' : Ledger} (h : Follows keys models t s₀ acc s l)
    {key : String} (hkey : keys key) {c : ClassModel MethodModel} (hc : models c)
    (hframe : Frame s₀ s') (hheap : s'.heap = (s.heap.add c).1)
    (hknown : ∀ k c, Entries.get? k l' = some c → models c)
    (hkept : s₀.settings.cache = true →
      Kept keys models t (Entries.put key s.heap.models.length acc) s' l') :
    Follows keys models t s₀ (Entries.put key s.heap.models.length acc) s' l' ∧
      s'.modelsNow (Entries.put key s.heap.models.length acc)
        = Entries.put key c (s.modelsNow acc) := by
  -- The new model has the next number, so nothing that was there is touched.
  have hnew : s'.heap.model s.heap.models.length = c := by rw [hheap, Heap.model_add_self]
  have hlength : s'.heap.models.length = s.heap.models.length + 1 := by
    rw [hheap, Heap.length_models_add]
  have hsame : ∀ i < s.heap.models.length, s'.heap.model i = s.heap.model i := by
    intro i hi
    rw [hheap, Heap.model_add h.apart hi]
  have hapart : s'.heap.Apart := by
    rw [hheap]
    exact Heap.apart_add h.apart c
  have hlt : s.heap.models.length < s'.heap.models.length := by omega
  have hmodel : models (s'.heap.model s.heap.models.length) := by rwa [hnew]
  have hput := h.put hkey hframe hapart (Nat.le_of_lt hlt) hsame hlt hmodel hknown hkept
  rwa [hnew] at hput

theorem known_put (hknown : ∀ k c, Entries.get? k l = some c → models c) (key : String)
    {c : ClassModel MethodModel} (hc : models c) :
    ∀ k c', Entries.get? k (Entries.put key c l) = some c' → models c' := by
  intro k c' hget
  rw [Entries.get?_put] at hget
  split at hget
  · exact Option.some.inj hget ▸ hc
  · exact hknown k c' hget

/-- A class of which nothing is kept is collected. -/
theorem Follows.collectNew (h : Follows keys models t s₀ acc s l) (c : FoundClass)
    (hkey : keys (s₀.keyOf c)) {publicOnly : Bool} {m : ClassModel MethodModel}
    (hreflect : s₀.reflectModel c publicOnly = .ok m) (hm : models m)
    (hnone : Ledger.recalled s₀.settings.cache (s₀.keyOf c) l = none) :
    ∃ id s', exec (Session.collectNew c publicOnly) s = (.ok id, s') ∧
      Follows keys models t s₀ (Entries.put (s₀.keyOf c) id acc) s'
        (Ledger.remember s₀.settings.cache [(s₀.keyOf c, m)] l) ∧
      s'.modelsNow (Entries.put (s₀.keyOf c) id acc)
        = Entries.put (s₀.keyOf c) m (s.modelsNow acc) := by
  have hexec : exec (Session.collectNew c publicOnly) s
      = exec (do remember (s₀.keyOf c) s.heap.models.length; return s.heap.models.length)
          { s with heap := (s.heap.add m).1 } := by
    rw [exec_collectNew, h.frame.reflectModel, hreflect, h.frame.keyOf]
  have hframe := h.frame.withHeap (s.heap.add m).1
  cases hcaching : s₀.settings.cache with
  | false =>
      -- Without a cache the model is only made.
      have hoff : s.settings.cache = false := by rw [h.frame.settings, hcaching]
      have hremember : exec (remember (s₀.keyOf c) s.heap.models.length)
          { s with heap := (s.heap.add m).1 } = (.ok ⟨⟩, { s with heap := (s.heap.add m).1 }) := by
        rw [exec_remember, hoff]
        rfl
      refine ⟨_, _, hexec.trans (exec_bind_of_ok hremember), ?_⟩
      exact h.made_put hkey hm hframe rfl h.known
        fun hon => absurd (hcaching.symm.trans hon) (by simp)
  | true =>
      have hon : s.settings.cache = true := by rw [h.frame.settings, hcaching]
      have hnew : Entries.get? (s₀.keyOf c) l = none := by
        rw [hcaching] at hnone
        exact hnone
      have hremember : exec (remember (s₀.keyOf c) s.heap.models.length)
          { s with heap := (s.heap.add m).1 }
          = exec (keep (s₀.keyOf c) s.heap.models.length)
              { s with heap := (s.heap.add m).1 } := by
        rw [exec_remember, hon]
        rfl
      have hknown := known_put h.known (s₀.keyOf c) hm
      cases h.kept hcaching with
      | memory hcache htree hitems =>
          have hkeep := hremember.trans (exec_keep_memory _ _ hcache)
          refine ⟨_, _, hexec.trans (exec_bind_of_ok hkeep), ?_⟩
          exact h.made_put hkey hm (hframe.withItems hcaching hcache _) rfl hknown
            fun _ => .memory rfl htree (hitems.add h.apart hnew m)
      | directory hcache hfiles =>
          obtain ⟨tree', hstore, hfiles'⟩ := hfiles.store hkey hm
          have hkeep := hremember.trans (exec_keep_directory _ _ hcache)
          rw [exec_change, Heap.model_add_self] at hkeep
          have htree : Session.tree { s with heap := (s.heap.add m).1 } = s.tree := rfl
          rw [htree, hstore] at hkeep
          refine ⟨_, _, hexec.trans (exec_bind_of_ok hkeep), ?_⟩
          exact h.made_put hkey hm (hframe.withFiles hcaching tree') rfl hknown
            fun _ => .directory hcache hfiles'

/-- What the ledger keeps nothing under, the cache keeps nothing under. -/
theorem Follows.recalled_none (h : Follows keys models t s₀ acc s l) {key : String}
    (hkey : keys key) (hnone : Ledger.recalled s₀.settings.cache key l = none) :
    exec (Session.recalled key) s = (.ok none, s) := by
  rw [exec_recalled, h.frame.settings]
  cases hcaching : s₀.settings.cache with
  | false => rfl
  | true =>
      have hget : Entries.get? key l = none := by
        rw [hcaching] at hnone
        exact hnone
      show exec (cached key) s = _
      cases h.kept hcaching with
      | memory hcache htree hitems =>
          rw [hitems.ledger key] at hget
          rw [exec_cached_memory key hcache, Option.map_eq_none_iff.mp hget]
      | directory hcache hfiles =>
          rw [exec_cached_directory key hcache, hfiles.loads key hkey, hget]

/-- What the ledger keeps is taken in hand: from memory as it is, from a directory as a copy. -/
theorem Follows.recalled_some (h : Follows keys models t s₀ acc s l) {key : String}
    (hkey : keys key) {c : ClassModel MethodModel}
    (hsome : Ledger.recalled s₀.settings.cache key l = some c) :
    ∃ id s', exec (Session.recalled key) s = (.ok (some id), s') ∧
      Follows keys models t s₀ (Entries.put key id acc) s' l ∧
      s'.modelsNow (Entries.put key id acc) = Entries.put key c (s.modelsNow acc) := by
  rw [exec_recalled, h.frame.settings]
  cases hcaching : s₀.settings.cache with
  | false =>
      rw [hcaching] at hsome
      exact absurd hsome (by simp [Ledger.recalled])
  | true =>
      have hget : Entries.get? key l = some c := by
        rw [hcaching] at hsome
        exact hsome
      show ∃ id s', exec (cached key) s = _ ∧ _
      -- In memory the model itself comes back, from files a new one with the same content.
      cases h.kept hcaching with
      | memory hcache htree hitems =>
          rw [hitems.ledger key] at hget
          obtain ⟨id, hid, rfl⟩ := Option.map_eq_some_iff.mp hget
          refine ⟨id, s, by rw [exec_cached_memory key hcache, hid], ?_⟩
          refine h.put hkey h.frame h.apart (Nat.le_refl _) (fun _ _ => rfl)
            (hitems.made key id hid) ?_ h.known fun _ => .memory hcache htree
              ⟨hitems.made, hitems.distinct, hitems.ledger, fun e he => ?_⟩
          · refine h.known key _ ?_
            rw [hitems.ledger key, hid, Option.map_some]
          · rcases Entries.mem_put he with rfl | he
            · exact hid
            · exact hitems.inHand e he
      | directory hcache hfiles =>
          refine ⟨_, _, by rw [exec_cached_directory key hcache, hfiles.loads key hkey, hget], ?_⟩
          exact h.made_put hkey (h.known key c hget) (h.frame.withHeap _) rfl
            h.known fun _ => .directory hcache hfiles

/-- The models in hand may be laid down. -/
theorem Follows.drop (h : Follows keys models t s₀ acc s l) : Follows keys models t s₀ [] s l := by
  refine ⟨h.frame, h.apart, fun _ hid => absurd hid List.not_mem_nil,
    fun _ he => absurd he List.not_mem_nil, h.known, fun hcaching => ?_⟩
  cases h.kept hcaching with
  | memory hcache htree hitems =>
      exact .memory hcache htree ⟨hitems.made, hitems.distinct, hitems.ledger,
        fun _ he => absurd he List.not_mem_nil⟩
  | directory hcache hfiles => exact .directory hcache hfiles

/-- A class is collected as the ledger says. -/
theorem Follows.collect (h : Follows keys models t s₀ acc s l) (c : FoundClass)
    (publicOnly : Bool) (hkey : keys (s₀.keyOf c))
    (hmodels : ∀ m, s₀.reflectModel c publicOnly = .ok m → models m) :
    EndAlike (Follows keys models t s₀ [])
      (fun id m s' l' => Follows keys models t s₀ (Entries.put (s₀.keyOf c) id acc) s' l' ∧
        s'.modelsNow (Entries.put (s₀.keyOf c) id acc)
          = Entries.put (s₀.keyOf c) m (s.modelsNow acc))
      (exec (Session.collect c publicOnly) s)
      (Ledger.collect s₀.settings.cache ⟨s₀.keyOf c, s₀.reflectModel c publicOnly⟩ l) := by
  rw [exec_collect, h.frame.keyOf]
  unfold Ledger.collect
  simp only
  -- Both sides ask the cache first and reflect on the class only if it has nothing.
  cases hrecalled : Ledger.recalled s₀.settings.cache (s₀.keyOf c) l with
  | some m =>
      obtain ⟨id, s', hexec, hfollows⟩ := h.recalled_some hkey hrecalled
      rw [hexec]
      exact hfollows
  | none =>
      rw [h.recalled_none hkey hrecalled]
      cases hreflect : s₀.reflectModel c publicOnly with
      | error e =>
          simp only
          rw [exec_collectNew, h.frame.reflectModel, hreflect]
          exact ⟨rfl, h.drop⟩
      | ok m =>
          obtain ⟨id, s', hexec, hfollows⟩ :=
            h.collectNew c hkey hreflect (hmodels m hreflect) hrecalled
          simp only
          rw [hexec]
          exact hfollows

/-- Classes are collected as the ledger says. -/
theorem Follows.collectAll (h : Follows keys models t s₀ acc s l) (cs : List FoundClass)
    (hkeys : ∀ c ∈ cs, keys (s₀.keyOf c))
    (hmodels : ∀ c ∈ cs, ∀ m, s₀.reflectModel c false = .ok m → models m) :
    EndAlike (Follows keys models t s₀ [])
      (fun ids ms s' l' => Follows keys models t s₀ ids s' l' ∧ s'.modelsNow ids = ms)
      (exec (Session.collectAll acc cs) s)
      (Ledger.gather s₀.settings.cache (s.modelsNow acc) (cs.map s₀.finding) l) := by
  induction cs generalizing acc s l with
  | nil => exact ⟨h, rfl⟩
  | cons c rest ih =>
      have hone := h.collect c false (hkeys c List.mem_cons_self) (hmodels c List.mem_cons_self)
      change EndAlike _ _ _ (Ledger.collect _ (s₀.finding c) l) at hone
      unfold Session.collectAll
      rw [exec_bind, List.map_cons, Ledger.gather]
      -- One class ends alike on both sides, so only the two cases in which it ends the same remain.
      generalize exec (Session.collect c false) s = r at hone ⊢
      generalize Ledger.collect s₀.settings.cache (s₀.finding c) l = r' at hone ⊢
      rcases r with ⟨e | id, s'⟩ <;> rcases r' with ⟨e' | m, l'⟩
      · exact hone
      · exact hone.elim
      · exact hone.elim
      · obtain ⟨hfollows, hnow⟩ := hone
        have hrest := ih hfollows (fun d hd => hkeys d (List.mem_cons_of_mem _ hd))
          fun d hd => hmodels d (List.mem_cons_of_mem _ hd)
        rw [hnow] at hrest
        show EndAlike _ _ (exec (get >>= fun s => Session.collectAll _ rest) s') _
        rw [exec_bind_of_ok (exec_get s'), hfollows.frame.keyOf]
        exact hrest

/-! ## Merging and keeping -/

theorem values_modelsNow (s : Session) (acc : Entries ModelId) :
    Entries.values (s.modelsNow acc) = (Entries.values acc).map s.heap.model :=
  Entries.values_mapValues _ _

theorem Follows.models_modelsNow (h : Follows keys models t s₀ acc s l) :
    ∀ c ∈ Entries.values (s.modelsNow acc), models c := by
  intro c hc
  rw [values_modelsNow] at hc
  obtain ⟨id, hid, rfl⟩ := List.mem_map.mp hc
  obtain ⟨e, he, rfl⟩ := List.mem_map.mp hid
  exact (h.inHand e he).2

/-- What is kept under a key that no model in hand has is none of those in hand. -/
theorem InMemory.notMem_values {items : Entries ModelId} {heap : Heap}
    (h : InMemory items acc heap l) {key : String} (hkey : key ∉ Entries.keys acc) {id : ModelId}
    (hid : Entries.get? key items = some id) : id ∉ Entries.values acc := by
  intro hin
  obtain ⟨e, he, rfl⟩ := List.mem_map.mp hin
  have heq : key = e.1 := h.distinct key e.1 e.2 hid (h.inHand e he)
  exact hkey (heq ▸ Entries.mem_keys_of_mem he)

/-- Memory has the models in hand themselves, so it keeps what merging makes of them. -/
theorem InMemory.merge {items : Entries ModelId} {heap : Heap} (h : InMemory items acc heap l)
    (default : String) :
    InMemory items acc (heap.merge default (Entries.values acc)).1
      (Entries.mapValues (heap.merge default (Entries.values acc)).1.model items) := by
  refine ⟨fun key id hid => ?_, h.distinct, fun key => Entries.get?_mapValues _ key items, h.inHand⟩
  rw [Heap.models_merge]
  exact h.made key id hid

/-- Under any other key it keeps what it kept. -/
theorem InMemory.get?_merge {items : Entries ModelId} {heap : Heap} (h : InMemory items acc heap l)
    (hapart : heap.Apart) (hmade : ∀ id ∈ Entries.values acc, id < heap.models.length)
    (default : String) {key : String} (hkey : key ∉ Entries.keys acc) :
    Entries.get? key (Entries.mapValues (heap.merge default (Entries.values acc)).1.model items)
      = Entries.get? key l := by
  rw [Entries.get?_mapValues, h.ledger key]
  cases hid : Entries.get? key items with
  | none => rfl
  | some id =>
      have hsame : (heap.merge default (Entries.values acc)).1.model id = heap.model id :=
        Heap.model_merge_of_notMem hapart default hmade (h.made key id hid)
          (h.notMem_values hkey hid)
      rw [Option.map_some, Option.map_some, hsame]

/-- Merging the models in hand completes them; of what is kept nothing else
changes, and without a cache nothing at all. -/
theorem Follows.merge (hkeep : Keepable models) (h : Follows keys models t s₀ acc s l)
    (default : String) :
    ∃ l', Follows keys models t s₀ acc
        { s with heap := (s.heap.merge default (Entries.values acc)).1 } l' ∧
      (∀ key, key ∉ Entries.keys acc → Entries.get? key l' = Entries.get? key l) ∧
      (s₀.settings.cache = false → l' = l) := by
  have hnow := Heap.mapValues_model_merge h.apart default h.made
  have hframe := h.frame.withHeap (s.heap.merge default (Entries.values acc)).1
  have hapart := Heap.apart_merge h.apart default (Entries.values acc)
  have hmade : ∀ id ∈ Entries.values acc,
      id < (s.heap.merge default (Entries.values acc)).1.models.length := by
    rw [Heap.models_merge]
    exact h.made
  have hmodel : ∀ id ∈ Entries.values acc,
      models ((s.heap.merge default (Entries.values acc)).1.model id) := by
    intro id hid
    refine hkeep.completed default (s.modelsNow acc) h.models_modelsNow _ ?_
    show _ ∈ Entries.values (Merge.completed default (Entries.mapValues s.heap.model acc))
    rw [← hnow, Entries.values_mapValues]
    exact List.mem_map_of_mem hid
  have hinHand : ∀ e ∈ acc, keys e.1 ∧
      models ((s.heap.merge default (Entries.values acc)).1.model e.2) :=
    fun e he => ⟨(h.inHand e he).1, hmodel e.2 (List.mem_map_of_mem he)⟩
  -- Models that are kept in memory change where they are, so the ledger changes with them.
  -- Files and the settings without a cache do not notice.
  cases hcaching : s₀.settings.cache with
  | false =>
      refine ⟨l, ⟨hframe, hapart, hmade, hinHand, h.known, fun hon => ?_⟩, fun _ _ => rfl,
        fun _ => rfl⟩
      exact absurd (hcaching.symm.trans hon) (by simp)
  | true =>
      cases h.kept hcaching with
      | directory hcache hfiles =>
          exact ⟨l, ⟨hframe, hapart, hmade, hinHand, h.known, fun _ => .directory hcache hfiles⟩,
            fun _ _ => rfl, fun _ => rfl⟩
      | @memory items hcache htree hitems =>
          have hother : ∀ key, key ∉ Entries.keys acc → Entries.get? key (Entries.mapValues
              (s.heap.merge default (Entries.values acc)).1.model items) = Entries.get? key l :=
            fun _ hkey => hitems.get?_merge h.apart h.made default hkey
          refine ⟨_, ⟨hframe, hapart, hmade, hinHand, fun key c hget => ?_,
            fun _ => .memory hcache htree (hitems.merge default)⟩, hother,
            fun hoff => absurd hoff (by simp)⟩
          by_cases hkey : key ∈ Entries.keys acc
          · obtain ⟨e, he, rfl⟩ := List.mem_map.mp hkey
            rw [Entries.get?_mapValues, hitems.inHand e he, Option.map_some] at hget
            obtain rfl := Option.some.inj hget
            exact hmodel e.2 (List.mem_map_of_mem he)
          · rw [hother key hkey] at hget
            exact h.known key c hget

/-- A model in hand is kept as it is. -/
theorem Follows.remember (h : Follows keys models t s₀ acc s l) {e : String × ModelId}
    (he : e ∈ acc) :
    ∃ s', exec (Session.remember e.1 e.2) s = (.ok ⟨⟩, s') ∧ s'.heap = s.heap ∧
      Follows keys models t s₀ acc s'
        (Ledger.remember s₀.settings.cache [(e.1, s.heap.model e.2)] l) := by
  obtain ⟨hkey, hmodel⟩ := h.inHand e he
  rw [exec_remember, h.frame.settings]
  cases hcaching : s₀.settings.cache with
  | false => exact ⟨s, rfl, rfl, h⟩
  | true =>
      show ∃ s', exec (keep e.1 e.2) s = _ ∧ _
      cases h.kept hcaching with
      | @memory items hcache htree hitems =>
          -- It is kept already, by its number and so by its value.
          have hitem := Entries.put_eq_self (hitems.inHand e he)
          have hsame : Entries.put e.1 (s.heap.model e.2) l = l := by
            refine Entries.put_eq_self ?_
            rw [hitems.ledger, hitems.inHand e he, Option.map_some]
          refine ⟨_, exec_keep_memory e.1 e.2 hcache, rfl, ?_⟩
          show Follows keys models t s₀ acc _ (Entries.put e.1 (s.heap.model e.2) l)
          rw [hsame, hitem]
          exact ⟨h.frame.withItems hcaching hcache items, h.apart, h.made, h.inHand, h.known,
            fun _ => .memory rfl htree hitems⟩
      | directory hcache hfiles =>
          obtain ⟨tree', hstore, hfiles'⟩ := hfiles.store hkey hmodel
          have hkeep := exec_keep_directory e.1 e.2 hcache
          rw [exec_change, hstore] at hkeep
          exact ⟨_, hkeep, rfl, h.frame.withFiles hcaching tree', h.apart, h.made, h.inHand,
            known_put h.known e.1 hmodel, fun _ => .directory hcache hfiles'⟩

theorem Follows.rememberAll (h : Follows keys models t s₀ acc s l) {es : Entries ModelId}
    (hes : ∀ e ∈ es, e ∈ acc) :
    ∃ s', exec (Session.rememberAll es) s = (.ok ⟨⟩, s') ∧ s'.heap = s.heap ∧
      Follows keys models t s₀ acc s'
        (Ledger.remember s₀.settings.cache (s.modelsNow es) l) := by
  induction es generalizing s l with
  | nil =>
      refine ⟨s, rfl, rfl, h.congr fun key => ?_⟩
      unfold Ledger.remember
      split <;> rfl
  | cons e es ih =>
      obtain ⟨s₁, hone, hheap, hfollows⟩ := h.remember (hes e List.mem_cons_self)
      obtain ⟨s₂, hrest, hheap', hfollows'⟩ :=
        ih hfollows fun d hd => hes d (List.mem_cons_of_mem _ hd)
      refine ⟨s₂, (exec_bind_of_ok hone).trans hrest, hheap'.trans hheap,
        hfollows'.congr fun key => ?_⟩
      -- Remembering writes no model, so the rest is remembered as it was in the beginning.
      have hnow : s₁.modelsNow es = s.modelsNow es := by
        unfold modelsNow
        rw [hheap]
      rw [hnow]
      unfold Ledger.remember
      split <;> rfl

/-- The models in hand are completed on demand, and kept. -/
theorem Follows.finish (hkeep : Keepable models) (h : Follows keys models t s₀ acc s l)
    (merging : Bool) :
    ∃ s', exec (do mergeOnDemand merging acc; Session.rememberAll acc; return acc) s
        = (.ok acc, s') ∧
      s'.modelsNow acc = Ledger.complete s₀.settings.defaultGroup merging (s.modelsNow acc) ∧
      Follows keys models t s₀ acc s' (Ledger.remember s₀.settings.cache
        (Ledger.complete s₀.settings.defaultGroup merging (s.modelsNow acc)) l) := by
  rw [exec_bind_of_ok (exec_mergeOnDemand s merging acc)]
  cases merging with
  | false =>
      obtain ⟨s', hexec, hheap, hfollows⟩ := h.rememberAll fun _ he => he
      refine ⟨s', ?_, ?_, hfollows⟩
      · show exec (do Session.rememberAll acc; return acc) s = _
        rw [exec_bind_of_ok hexec]
        rfl
      · show Entries.mapValues s'.heap.model acc = _
        rw [hheap]
        rfl
  | true =>
      -- Merging changes the ledger only under keys that are remembered right afterwards, so
      -- what was there under them does not matter.
      obtain ⟨l₁, hmerged, hother, hoff⟩ := h.merge hkeep s₀.settings.defaultGroup
      obtain ⟨s', hexec, hheap, hfollows⟩ := hmerged.rememberAll fun _ he => he
      have hnow : Session.modelsNow
          { s with heap := (s.heap.merge s₀.settings.defaultGroup (Entries.values acc)).1 } acc
          = Merge.completed s₀.settings.defaultGroup (s.modelsNow acc) :=
        Heap.mapValues_model_merge h.apart _ h.made
      have hkeys : Entries.keys (Ledger.complete s₀.settings.defaultGroup true (s.modelsNow acc))
          = Entries.keys acc :=
        (Ledger.keys_complete _ _ _).trans (Entries.keys_mapValues _ _)
      rw [hnow] at hfollows
      refine ⟨s', ?_, ?_, hfollows.congr (Ledger.get?_remember_congr hoff fun key hkey => ?_)⟩
      · have hdefault : s.settings.defaultGroup = s₀.settings.defaultGroup := by
          rw [h.frame.settings]
        rw [if_pos rfl, hdefault, exec_bind_of_ok hexec]
        rfl
      · show Entries.mapValues s'.heap.model acc = _
        rw [hheap]
        exact hnow
      · exact hother key (hkeys ▸ hkey)

end Follows
end Session
end Routebook
