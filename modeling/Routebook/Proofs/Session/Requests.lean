/-
  Routebook.Proofs.Session.Requests

  What a session is asked for: scans, handbooks and route tables, one after
  the other.  Each of them is a scan, and what is made of the models it
  answers (`Request.answer`); so a session between two requests is one that
  keeps what a ledger says (`Ready`).  One request takes it along (`Ready.run`),
  and with it a whole run takes along what every request keeps
  (`Ready.after_along`).
-/
import Routebook.Proofs.Session.Scan

namespace Routebook

open Steps

/-- What a session may be asked for. -/
inductive Request where
  | scan (path : String) (merging : Bool)
  | handbook (path : String)
  | routes (path : String) (lead? : Option String)

/-- What a request is answered; models are answered as they are then. -/
inductive Answer where
  | models (models : Entries (ClassModel MethodModel))
  | handbook (text : String)
  | routes (table : List Route)

namespace Request

/-- The path whose classes are asked for. -/
def path : Request → String
  | .scan path _ => path
  | .handbook path => path
  | .routes path _ => path

/-- Whether models are merged on the way. -/
def merging : Request → Bool
  | .scan _ merging => merging
  | _ => true

/-- A request as part of a run. -/
def run : Request → Run Answer
  | .scan path merging => do
    let ids ← Session.scan path merging
    return .models ((← get).modelsNow ids)
  | .handbook path => return .handbook (← Session.handbook path)
  | .routes path lead? => return .routes (← Session.routes path lead?)

/-- What is made of scanned models, in the session that the scan leaves. -/
def answer (s : Session) : Request → Entries (ClassModel MethodModel) → Outcome Answer
  | .scan _ _, ms => .ok (.models ms)
  | .handbook _, ms =>
    (Handbook.markdown s.frame (Merge.groups s.settings.defaultGroup ms)).map .handbook
  | .routes _ lead?, ms => .ok (.routes (Route.table (lead?.getD s.settings.namespaceLead) ms))

end Request

namespace Session

/-- The session that requests leave. -/
def after (s : Session) (rs : List Request) : Session :=
  rs.foldl (fun s r => (exec r.run s).2) s

/-- Requests one after the other: what each is answered, and the session it leaves. -/
def trace (s : Session) : List Request → List (Outcome Answer × Session)
  | [] => []
  | r :: rs => exec r.run s :: trace (exec r.run s).2 rs

/-- The classes found for a path; none if finding them fails. -/
def foundAt (s : Session) (path : String) : List Finding :=
  match s.findings path with
  | .ok fs => fs
  | .error _ => []

/-- All that requests find along the way is of a kind, which may depend on the request. -/
def Along (P : Request → Finding → Prop) (s : Session) : List Request → Prop
  | [] => True
  | r :: rs => (∀ f ∈ s.foundAt r.path, P r f) ∧ Along P (exec r.run s).2 rs

/-- All that requests find along the way has names and models of certain kinds. -/
def Within (keys : String → Prop) (models : ClassModel MethodModel → Prop) (s : Session) :
    List Request → Prop
  | [] => True
  | r :: rs => s.FindsWithin keys models r.path ∧ Within keys models (exec r.run s).2 rs

instance decidableWithin (keys : String → Prop) (models : ClassModel MethodModel → Prop)
    [DecidablePred keys] [DecidablePred models] :
    (s : Session) → (rs : List Request) → Decidable (Within keys models s rs)
  | _, [] => .isTrue trivial
  | s, r :: rs =>
    have := decidableWithin keys models (exec r.run s).2 rs
    inferInstanceAs (Decidable (s.FindsWithin keys models r.path ∧ _))

theorem foundAt_of_ok {s : Session} {path : String} {fs : List Finding}
    (h : s.findings path = .ok fs) : s.foundAt path = fs := by
  unfold foundAt
  rw [h]

theorem foundAt_of_error {s : Session} {path : String} {e : Failure}
    (h : s.findings path = .error e) : s.foundAt path = [] := by
  unfold foundAt
  rw [h]

theorem along_of_forall {P : Request → Finding → Prop} (hP : ∀ r f, P r f) (s : Session)
    (rs : List Request) : Along P s rs := by
  induction rs generalizing s with
  | nil => trivial
  | cons r rs ih => exact ⟨fun f _ => hP r f, ih _⟩

theorem after_cons (s : Session) (r : Request) (rs : List Request) :
    s.after (r :: rs) = (exec r.run s).2.after rs := rfl

theorem after_append (s : Session) (rs more : List Request) :
    s.after (rs ++ more) = (s.after rs).after more :=
  List.foldl_append

/-! ## A request is a scan -/

section Run

variable {s s' : Session} {r : Request}

theorem exec_run_of_error {e : Failure} (h : exec (scan r.path r.merging) s = (.error e, s')) :
    exec r.run s = (.error e, s') := by
  cases r with
  | scan path merging => exact exec_bind_of_error h
  | handbook path =>
      have hgroups : exec (scanGroups path) s = (.error e, s') := exec_bind_of_error h
      exact exec_bind_of_error (exec_bind_of_error hgroups)
  | routes path lead? => exact exec_bind_of_error (exec_bind_of_error h)

/-- Where no classes are looked for, their want is answered. -/
theorem answer_scan_of_error {path : String} {e : Failure} (h : s.found path = .error e)
    (merging : Bool) : (exec (Request.scan path merging).run s).1 = .error e := by
  have hscan : exec (scan path merging) s = (.error e, s.located path) := by
    rw [exec_scan, h]
  exact congrArg Prod.fst (exec_run_of_error (r := .scan path merging) hscan)

/-- Where no class is found, no model is answered. -/
theorem answer_scan_of_nil {path : String} (h : s.found path = .ok []) (merging : Bool) :
    (exec (Request.scan path merging).run s).1 = .ok (.models []) := by
  obtain ⟨s', hscan⟩ : ∃ s', exec (scan path merging) s = (.ok [], s') := by
    rw [exec_scan, h]
    cases merging <;> exact ⟨_, rfl⟩
  exact congrArg Prod.fst (exec_bind_of_ok hscan)

/-- Merging again what a scan has completed changes nothing, and gives the
groups of the models as they are. -/
theorem exec_merge_of_completed {ids : Entries ModelId} (hapart : s.heap.Apart)
    (hmade : ∀ id ∈ Entries.values ids, id < s.heap.models.length)
    (hcompleted : Merge.completed s.settings.defaultGroup (s.modelsNow ids) = s.modelsNow ids) :
    ∃ groups, exec (merge (Entries.values ids)) s = (.ok groups, s) ∧
      s.groupsNow groups = Merge.groups s.settings.defaultGroup (s.modelsNow ids) := by
  have hheap : (s.heap.merge s.settings.defaultGroup (Entries.values ids)).1 = s.heap :=
    Heap.merge_of_completed hcompleted
  refine ⟨(s.heap.merge s.settings.defaultGroup (Entries.values ids)).2, ?_, ?_⟩
  · rw [exec_merge, hheap]
  · have hmerged := Heap.mapValues_merged hapart s.settings.defaultGroup hmade
    rw [hheap] at hmerged
    exact hmerged

theorem exec_render (s : Session) (groups : Entries (MergedGroup MethodId)) :
    exec (render groups) s = (Handbook.markdown s.frame (s.groupsNow groups), s) := by
  unfold render
  rw [exec_bind_of_ok (exec_get s), exec_lift]

theorem exec_run_of_ok {ids : Entries ModelId}
    (h : exec (scan r.path r.merging) s = (.ok ids, s')) (hapart : s'.heap.Apart)
    (hmade : ∀ id ∈ Entries.values ids, id < s'.heap.models.length)
    (hcompleted : r.merging = true →
      Merge.completed s'.settings.defaultGroup (s'.modelsNow ids) = s'.modelsNow ids) :
    exec r.run s = (r.answer s' (s'.modelsNow ids), s') := by
  cases r with
  | scan path merging => exact exec_bind_of_ok h
  | handbook path =>
      -- A handbook merges once more, which changes nothing that is complete already.
      obtain ⟨groups, hmerge, hgroups⟩ := exec_merge_of_completed hapart hmade (hcompleted rfl)
      have hscan : exec (scanGroups path) s = (.ok groups, s') := (exec_bind_of_ok h).trans hmerge
      have hhandbook : exec (Session.handbook path) s
          = (Handbook.markdown s'.frame (s'.groupsNow groups), s') :=
        (exec_bind_of_ok hscan).trans (exec_render s' groups)
      rw [hgroups] at hhandbook
      show exec (Session.handbook path >>= fun text => pure (Answer.handbook text)) s = _
      rw [exec_bind, hhandbook]
      show _ = ((Handbook.markdown s'.frame _).map Answer.handbook, s')
      generalize Handbook.markdown s'.frame _ = text
      cases text <;> rfl
  | routes path lead? =>
      have hroutes : exec (Session.routes path lead?) s = (.ok (Route.table
          (lead?.getD s'.settings.namespaceLead) (s'.modelsNow ids)), s') := exec_bind_of_ok h
      exact exec_bind_of_ok hroutes

end Run

/-! ## Between two requests -/

variable {keys : String → Prop} {models : ClassModel MethodModel → Prop} {t : Tree}
variable {s : Session} {l : Ledger}

/-- A session that keeps what the ledger says, and has nothing in hand. -/
structure Ready (keys : String → Prop) (models : ClassModel MethodModel → Prop) (t : Tree)
    (s : Session) (l : Ledger) : Prop where
  valid : s.modules.Valid
  follows : Follows keys models t s [] s l

/-- What a scan of a path answers by the ledger, and what is kept then. -/
def scanned (s : Session) (path : String) (merging : Bool) (l : Ledger) :
    Outcome (Entries (ClassModel MethodModel)) × Ledger :=
  Ledger.scanFound s.settings.cache s.settings.defaultGroup merging (s.findings path) l

/-- What was followed from some session is followed from the one it has led to. -/
theorem Follows.restart {s₀ : Session} {acc : Entries ModelId}
    (h : Follows keys models t s₀ acc s l) : Follows keys models t s [] s l := by
  have hdrop := h.drop
  refine ⟨Frame.refl s, hdrop.apart, hdrop.made, hdrop.inHand, hdrop.known, fun hcaching => ?_⟩
  rw [h.frame.settings] at hcaching
  exact hdrop.kept hcaching

theorem Modules.Valid.withTree {m : Modules} (h : m.Valid) (t : Tree) : (m.withTree t).Valid :=
  ⟨h.world, h.loaded⟩

/-- What a scan leaves, between two requests. -/
theorem Ready.of_follows {s₀ : Session} {acc : Entries ModelId} (hvalid : s₀.modules.Valid)
    (h : Follows keys models t s₀ acc s l) : Ready keys models t s l := by
  refine ⟨?_, h.restart⟩
  rw [h.frame.modules]
  exact Modules.Valid.withTree hvalid s.tree

/-- A request is answered by the models that the ledger gives, and the session keeps
afterwards what the ledger then says. -/
theorem Ready.run (hkeep : Keepable models) (h : Ready keys models t s l) (r : Request)
    (hfound : s.FindsWithin keys models r.path) :
    ∃ s', exec r.run s = ((s.scanned r.path r.merging l).1 >>= r.answer s', s') ∧
      Passed s r.path s' ∧
      Ready keys models t s' (s.scanned r.path r.merging l).2 ∧
      ∀ ms, (s.scanned r.path r.merging l).1 = .ok ms → ∀ c ∈ Entries.values ms, models c := by
  have hlocated := (located_spec h.valid r.path).2
  have hends := h.follows.scan hkeep h.valid r.path r.merging hfound
  change EndAlike _ _ _ (s.scanned r.path r.merging l) at hends
  -- The session and the ledger end alike, so only the two cases in which they end the same remain.
  rcases hscan : exec (scan r.path r.merging) s with ⟨e | ids, s'⟩ <;>
    rcases hledger : s.scanned r.path r.merging l with ⟨e' | ms, l'⟩ <;>
    rw [hscan, hledger] at hends
  · obtain ⟨rfl, hfollows⟩ := hends
    exact ⟨s', exec_run_of_error hscan, hfollows.frame.passed h.valid,
      .of_follows hlocated hfollows,
      fun _ h => absurd h (by simp)⟩
  · exact hends.elim
  · exact hends.elim
  · obtain ⟨hfollows, rfl, hcompleted⟩ := hends
    have hpassed := hfollows.frame.passed h.valid
    refine ⟨s', exec_run_of_ok hscan hfollows.apart hfollows.made fun hmerging => ?_,
      hpassed, .of_follows hlocated hfollows, fun ms hms => ?_⟩
    · rw [hmerging] at hcompleted
      rw [hpassed.settings]
      exact hcompleted
    · exact Except.ok.inj hms ▸ hfollows.models_modelsNow

/-- What one request leaves as it was, and what it finds, decides what a whole run leaves:
an invariant of sessions and ledgers that every request keeps holds after all of them. -/
theorem Ready.after_along (hkeep : Keepable models) {P : Request → Finding → Prop}
    {I : Session → Ledger → Prop}
    (hstep : ∀ s l r s', (∀ f ∈ s.foundAt r.path, P r f) → Passed s r.path s' → I s l →
      I s' (s.scanned r.path r.merging l).2)
    (h : Ready keys models t s l) (hI : I s l) {rs : List Request}
    (hwithin : Within keys models s rs) (halong : Along P s rs) :
    ∃ l', Ready keys models t (s.after rs) l' ∧ I (s.after rs) l' := by
  induction rs generalizing s l with
  | nil => exact ⟨l, h, hI⟩
  | cons r rs ih =>
      obtain ⟨s', hexec, hpassed, hready, -⟩ := h.run hkeep r hwithin.1
      obtain ⟨hfirst, hrest⟩ := halong
      have hlater := hwithin.2
      rw [hexec] at hrest hlater
      rw [after_cons, hexec]
      exact ih hready (hstep s l r s' hfirst hpassed hI) hlater hrest

/-- Requests leave the settings and the directory of the cache as they are, and a session
that keeps what some ledger says. -/
theorem Ready.after (hkeep : Keepable models) (h : Ready keys models t s l) {rs : List Request}
    (hwithin : Within keys models s rs) :
    ∃ l', Ready keys models t (s.after rs) l' ∧ (s.after rs).settings = s.settings ∧
      (s.after rs).cache.directory? = s.cache.directory? :=
  h.after_along hkeep
    (I := fun s' _ => s'.settings = s.settings ∧ s'.cache.directory? = s.cache.directory?)
    (fun _ _ _ _ _ hpassed hI =>
      ⟨hpassed.settings.trans hI.1, hpassed.directory.trans hI.2⟩)
    ⟨rfl, rfl⟩ hwithin (along_of_forall (fun _ _ => trivial) s rs)

/-- What is kept under the names in question is what the ledger says. -/
theorem Ready.kept_eq (h : Ready keys models t s l) (hcaching : s.settings.cache = true)
    {key : String} (hkey : keys key) : s.kept key = .ok (Entries.get? key l) := by
  unfold kept
  cases h.follows.kept hcaching with
  | memory hcache htree hitems =>
      rw [hcache]
      exact congrArg Except.ok (hitems.ledger key).symm
  | directory hcache hfiles =>
      rw [hcache]
      exact hfiles.loads key hkey

/-- A memory leaves the files as they are. -/
theorem Ready.tree_of_memory (h : Ready keys models t s l) (hcaching : s.settings.cache = true)
    (hmemory : s.cache.directory? = none) : s.tree = t := by
  cases h.follows.kept hcaching with
  | memory hcache htree hitems => exact htree
  | directory hcache hfiles =>
      rw [hcache] at hmemory
      exact absurd hmemory (by simp [Cache.directory?])

/-- A directory leaves the files as they are but for its own. -/
theorem Ready.stocked_of_directory (h : Ready keys models t s l)
    (hcaching : s.settings.cache = true) {d : Path} {place : Place} (hvacant : t.Vacant d place)
    (hdirectory : s.cache.directory? = some d) : t.Stocked (Cache.IsEntry keys) place s.tree := by
  cases h.follows.kept hcaching with
  | memory hcache htree hitems =>
      rw [hcache] at hdirectory
      exact absurd hdirectory (by simp [Cache.directory?])
  | directory hcache hfiles =>
      rw [hcache] at hdirectory
      obtain rfl := Option.some.inj hdirectory
      have hplace := hfiles.vacant.directory.symm.trans hvacant.directory
      obtain ⟨rfl, -⟩ := Lookup.found.inj hplace
      exact hfiles.stocked

/-! ## Sessions that begin -/

theorem load_of_vacant {d : Path} {place : Place} (h : t.Vacant d place) {key : String}
    (hshort : (Cache.fileName key).utf8ByteSize ≤ Tree.nameLimit) :
    Cache.load t d key = .ok none := by
  rw [Cache.load_eq, Tree.lookup_child t d (Cache.plainName_fileName key), h.directory]
  show Cache.answer (t.entry place (Cache.fileName key)) = _
  rw [Tree.entry_eq_missing hshort (h.free _)]
  rfl

/-- A session begins with nothing kept: in memory, or in a directory that is empty. -/
theorem follows_start {modules : Modules} {settings : Settings} {base : Option Path}
    (hdirectory : settings.cache = true → ∀ d, settings.cacheDirectory = some d →
      Cache.Shelf keys models ∧ ∃ place, modules.tree.Vacant d place) :
    Follows keys models modules.tree (start modules settings base) []
      (start modules settings base) [] := by
  refine ⟨Frame.refl _, Heap.apart_empty, fun _ hid => absurd hid List.not_mem_nil,
    fun _ he => absurd he List.not_mem_nil, fun _ _ h => absurd h (by simp), fun hcaching => ?_⟩
  -- In the beginning nothing is kept: the table is empty, and so is the directory.
  cases hd : settings.cacheDirectory with
  | none =>
      have hcache : (start modules settings base).cache = .memory [] := by
        show Cache.ofSettings settings = _
        rw [Cache.ofSettings, hd]
      exact .memory hcache rfl ⟨fun _ _ h => absurd h (by simp), fun _ _ _ h => absurd h (by simp),
        fun _ => rfl, fun _ he => absurd he List.not_mem_nil⟩
  | some d =>
      have hcache : (start modules settings base).cache = .directory d := by
        show Cache.ofSettings settings = _
        rw [Cache.ofSettings, hd]
      obtain ⟨hshelf, place, hvacant⟩ := hdirectory hcaching d hd
      exact .directory hcache ⟨hshelf, hvacant, Tree.Stocked.refl _ _ _,
        fun key hkey => load_of_vacant hvacant (hshelf.short key hkey)⟩

theorem ready_start {modules : Modules} (hvalid : modules.Valid) {settings : Settings}
    {base : Option Path}
    (hdirectory : settings.cache = true → ∀ d, settings.cacheDirectory = some d →
      Cache.Shelf keys models ∧ ∃ place, modules.tree.Vacant d place) :
    Ready keys models modules.tree (start modules settings base) [] :=
  ⟨hvalid, follows_start hdirectory⟩

end Session
end Routebook
