/-
  Routebook.Proofs.Session.Scan

  Whole scans.  To find the classes of a path loads modules; with them loaded
  (`located`) nothing but the findings matters, and a scan does with these what
  the ledger says, whichever cache keeps the models (`Follows.scan`).
-/
import Routebook.Proofs.Session.Keeping

namespace Routebook

open Steps

/-- A finding of a name and with a model of certain kinds. -/
structure Finding.Within (keys : String → Prop) (models : ClassModel MethodModel → Prop)
    (f : Finding) : Prop where
  key : keys f.key
  model : ∀ c, f.model = .ok c → models c

instance (keys : String → Prop) (models : ClassModel MethodModel → Prop) [DecidablePred keys]
    [DecidablePred models] (f : Finding) : Decidable (f.Within keys models) :=
  match h : f.model with
  | .ok c => decidable_of_iff (keys f.key ∧ models c)
      ⟨fun hf => ⟨hf.1, fun _ hc => Except.ok.inj (h.symm.trans hc) ▸ hf.2⟩,
        fun hf => ⟨hf.key, hf.model c h⟩⟩
  | .error _ => decidable_of_iff (keys f.key)
      ⟨fun hf => ⟨hf, fun _ hc => absurd (h.symm.trans hc) (by simp)⟩, fun hf => hf.key⟩

/-- A scan of what is found for a path, if that can be said. -/
def Ledger.scanFound (caching : Bool) (default : String) (merging : Bool)
    (found : Outcome (List Finding)) (l : Ledger) :
    Outcome (Entries (ClassModel MethodModel)) × Ledger :=
  match found with
  | .ok fs => Ledger.scan caching default merging fs l
  | .error e => (.error e, l)

namespace Session

/-! ## Finding classes -/

/-- The classes found for a path. -/
def found (s : Session) (path : String) : Outcome (List FoundClass) :=
  (exec (Discover.classes path) s.modules).1

/-- A session with all modules loaded that finding the classes of a path loads. -/
def located (s : Session) (path : String) : Session :=
  { s with modules := (exec (Discover.classes path) s.modules).2 }

@[simp] theorem settings_located (s : Session) (path : String) :
    (s.located path).settings = s.settings := by
  cases s
  rfl

@[simp] theorem baseDirectory_located (s : Session) (path : String) :
    (s.located path).baseDirectory = s.baseDirectory := by
  cases s
  rfl

@[simp] theorem cache_located (s : Session) (path : String) :
    (s.located path).cache = s.cache := by
  cases s
  rfl

/-- The classes found for a path, as the ledger sees them. -/
def findings (s : Session) (path : String) : Outcome (List Finding) :=
  (s.found path).map fun cs => cs.map (s.located path).finding

/-- What is found, by a run that loads the same modules. -/
theorem findings_of_exec {s : Session} {path : String} {r : Outcome (List FoundClass) × Modules}
    (h : exec (Discover.classes path) s.modules = r) :
    s.findings path = r.1.map fun cs => cs.map (finding { s with modules := r.2 }) := by
  subst h
  rfl

theorem located_of_exec {s : Session} {path : String} {r : Outcome (List FoundClass) × Modules}
    (h : exec (Discover.classes path) s.modules = r) :
    s.located path = { s with modules := r.2 } := by
  subst h
  rfl

/-- What is found depends on the modules, not on the files. -/
theorem findings_congr {s s' : Session} {path : String} {t : Tree}
    (hfound : s'.found path = s.found path)
    (hmodules : (s'.located path).modules = (s.located path).modules.withTree t)
    (hdefault : s'.settings.defaultGroup = s.settings.defaultGroup) :
    s'.findings path = s.findings path := by
  have hfinding : (s'.located path).finding = (s.located path).finding := by
    funext c
    unfold finding reflectModel keyOf tagsOf ownersOf
    rw [hmodules]
    show Finding.mk _ (Collect.model s'.settings.defaultGroup _ _ _ _)
      = Finding.mk _ (Collect.model s.settings.defaultGroup _ _ _ _)
    rw [hdefault]
    rfl
  unfold findings
  rw [hfound, hfinding]

/-- All that is found for a path has names and models of certain kinds. -/
def FindsWithin (keys : String → Prop) (models : ClassModel MethodModel → Prop) (s : Session)
    (path : String) : Prop :=
  ∀ fs, s.findings path = .ok fs → ∀ f ∈ fs, f.Within keys models

instance (keys : String → Prop) (models : ClassModel MethodModel → Prop) [DecidablePred keys]
    [DecidablePred models] (s : Session) (path : String) :
    Decidable (s.FindsWithin keys models path) :=
  match h : s.findings path with
  | .ok fs => decidable_of_iff (∀ f ∈ fs, f.Within keys models)
      ⟨fun hfs _ hfound => Except.ok.inj (h.symm.trans hfound) ▸ hfs, fun hfs => hfs fs h⟩
  | .error _ => .isTrue fun _ hfound => absurd (h.symm.trans hfound) (by simp)

theorem exec_scan (s : Session) (path : String) (merging : Bool) :
    exec (scan path merging) s
      = match s.found path with
        | .error e => (.error e, s.located path)
        | .ok cs =>
          match exec (Session.collectAll [] cs) (s.located path) with
          | (.error e, s') => (.error e, s')
          | (.ok acc, s') =>
            exec (do mergeOnDemand merging acc; Session.rememberAll acc; return acc) s' := by
  have hload : exec (load (Discover.classes path)) s = (s.found path, s.located path) :=
    exec_load s _
  unfold scan
  rw [exec_bind, hload]
  cases s.found path with
  | error e => rfl
  | ok cs =>
      simp only
      rw [exec_bind]
      generalize exec (Session.collectAll [] cs) (s.located path) = r
      rcases r with ⟨e | acc, s'⟩ <;> rfl

section Located

variable {s : Session} (hvalid : s.modules.Valid) (path : String)
include hvalid

/-- Loading modules leaves the files as they are, and tables in normal form. -/
theorem located_spec : (s.located path).tree = s.tree ∧ (s.located path).modules.Valid := by
  have hsame := Import.same_classes (Tree.LooksLike.refl s.tree)
    (Tree.SameAt.refl s.tree (Path.ofText path))
  obtain ⟨-, htree, hloaded, -⟩ := hsame.exec rfl hvalid
  exact ⟨htree, hloaded⟩

end Located

/-- What is as it was, after a run in which the classes of a path were found. -/
structure Passed (s : Session) (path : String) (s' : Session) : Prop where
  settings : s'.settings = s.settings
  base : s'.baseDirectory = s.baseDirectory
  modules : s'.modules = (s.located path).modules.withTree s'.tree
  directory : s'.cache.directory? = s.cache.directory?
  uncached : s.settings.cache = false → s'.cache = s.cache ∧ s'.tree = s.tree

theorem Frame.passed {s s' : Session} {path : String} (hvalid : s.modules.Valid)
    (h : Frame (s.located path) s') : Passed s path s' := by
  obtain ⟨hsettings, hbase, hmodules, hdirectory, huncached⟩ := h
  rw [settings_located] at hsettings huncached
  rw [baseDirectory_located] at hbase
  rw [cache_located] at hdirectory huncached
  rw [(located_spec hvalid path).1] at huncached
  exact ⟨hsettings, hbase, hmodules, hdirectory, huncached⟩

/-! ## Scanning -/

section Scan

variable {keys : String → Prop} {models : ClassModel MethodModel → Prop} {t : Tree}
variable {s₀ s : Session} {acc : Entries ModelId} {l : Ledger}

/-- What is kept depends on the files of the modules alone. -/
theorem Follows.reload (h : Follows keys models t s₀ acc s l) {modules : Modules}
    (htree : modules.tree = s.tree) :
    Follows keys models t { s with modules := modules } acc { s with modules := modules } l := by
  refine ⟨Frame.refl _, h.apart, h.made, h.inHand, h.known, fun hcaching => ?_⟩
  rw [show Session.settings { s with modules := modules } = s₀.settings from h.frame.settings]
    at hcaching
  cases h.kept hcaching with
  | memory hcache ht hitems => exact .memory hcache (htree.trans ht) hitems
  | @directory d place hcache hfiles =>
      have hfiles' : InDirectory keys models t d place modules.tree l := htree ▸ hfiles
      exact .directory hcache hfiles'

/-- A path is scanned as the ledger says. -/
theorem Follows.scan (hkeep : Keepable models) (hvalid : s.modules.Valid)
    (h : Follows keys models t s [] s l) (path : String) (merging : Bool)
    (hfound : s.FindsWithin keys models path) :
    EndAlike (Follows keys models t (s.located path) [])
      (fun ids ms s' l' =>
        Follows keys models t (s.located path) ids s' l' ∧ s'.modelsNow ids = ms ∧
          Ledger.complete s.settings.defaultGroup merging ms = ms)
      (exec (scan path merging) s)
      (Ledger.scanFound s.settings.cache s.settings.defaultGroup merging (s.findings path) l) := by
  have hlocated : Follows keys models t (s.located path) [] (s.located path) l :=
    h.reload (located_spec hvalid path).1
  rw [exec_scan]
  cases hcs : s.found path with
  | error e =>
      have hfindings : s.findings path = .error e := by
        unfold findings
        rw [hcs]
        rfl
      rw [hfindings]
      exact ⟨rfl, hlocated⟩
  | ok cs =>
      have hfindings : s.findings path = .ok (cs.map (s.located path).finding) := by
        unfold findings
        rw [hcs]
        rfl
      have hwithin := hfound _ hfindings
      rw [hfindings]
      -- Collecting ends alike on both sides; if it went well, completing and remembering do too.
      have hcollect := hlocated.collectAll cs
        (fun c hc => (hwithin _ (List.mem_map_of_mem hc)).key)
        (fun c hc => (hwithin _ (List.mem_map_of_mem hc)).model)
      simp only [Ledger.scanFound, Ledger.scan]
      change EndAlike _ _ _ (Ledger.gather s.settings.cache [] _ l) at hcollect
      generalize exec (Session.collectAll [] cs) (s.located path) = r at hcollect ⊢
      generalize Ledger.gather s.settings.cache [] (cs.map (s.located path).finding) l = r'
        at hcollect ⊢
      rcases r with ⟨e | ids, s'⟩ <;> rcases r' with ⟨e' | ms, l'⟩
      · exact hcollect
      · exact hcollect.elim
      · exact hcollect.elim
      · obtain ⟨hfollows, rfl⟩ := hcollect
        obtain ⟨s'', hexec, hnow, hfollows'⟩ := hfollows.finish hkeep merging
        have hkeyed := hkeep.keyed hfollows.models_modelsNow
        simp only
        rw [hexec]
        exact ⟨hfollows', hnow, Ledger.complete_complete _ merging hkeyed⟩

end Scan

end Session
end Routebook
