/-
  Routebook.Proofs.Session.Independence

  What a scan owes to the requests before it.  A session answers a scan as one
  without a cache does as long as the cache keeps every class that is found as
  its own tags give it, or not at all (`Session.KeepsOwn`).  That is so when no
  earlier request has merged one of these classes; and it is as far as it goes:
  models that were completed by merging are kept completed, and a later scan
  that does not merge shows what came from other classes
  (`scan_uncached_of_history`).
-/
import Routebook.Proofs.Session.Interchange

namespace Routebook

open Steps

namespace Session

/-- The same session without a cache. -/
def uncached (s : Session) : Session :=
  configure { s.settings with cache := false } s.baseDirectory false s

/-- Every class found for a path is kept as its own tags give it, or not at all. -/
def KeepsOwn (s : Session) (path : String) : Prop :=
  ∀ f ∈ s.foundAt path, ∀ c, s.kept f.key = .ok (some c) → f.model = .ok c

/-- A request that leaves classes alone: it merges none of their names, and finds
no other class under one. -/
def LeavesAlone (found : List Finding) (r : Request) (f' : Finding) : Prop :=
  ∀ f ∈ found, f'.key = f.key → r.merging = false ∧ f'.model = f.model

section Answers

variable {keys : String → Prop} {models : ClassModel MethodModel → Prop} {t : Tree}
variable {s : Session} {l : Ledger} {path : String} {found : List Finding} {rs : List Request}

theorem findings_uncached (s : Session) (path : String) :
    s.uncached.findings path = s.findings path := rfl

/-- Without a cache nothing is kept. -/
theorem Ready.uncached (h : Ready keys models t s l) : Ready keys models t s.uncached [] := by
  refine ⟨h.valid, Frame.refl _, h.follows.apart, fun _ hid => absurd hid List.not_mem_nil,
    fun _ he => absurd he List.not_mem_nil, fun _ _ hget => absurd hget (by simp),
    fun hcaching => ?_⟩
  have hoff : s.uncached.settings.cache = false := rfl
  rw [hoff] at hcaching
  exact absurd hcaching (by simp)

/-- A scan is answered by the models that the ledger gives. -/
theorem Ready.answer_scan (hkeep : Keepable models) (h : Ready keys models t s l) (merging : Bool)
    (hfound : s.FindsWithin keys models path) :
    (exec (Request.scan path merging).run s).1
      = (s.scanned path merging l).1.map Answer.models := by
  obtain ⟨s', hexec, -⟩ := h.run hkeep (.scan path merging) hfound
  rw [hexec]
  show (s.scanned path merging l).1 >>= (fun ms => .ok (Answer.models ms)) = _
  generalize (s.scanned path merging l).1 = r
  cases r <;> rfl

/-- Two scans answer the same if the ledgers give the same. -/
theorem Ready.answer_eq_uncached_iff (hkeep : Keepable models) (h : Ready keys models t s l)
    (merging : Bool) (hfound : s.FindsWithin keys models path) :
    (exec (Request.scan path merging).run s).1
        = (exec (Request.scan path merging).run s.uncached).1
      ↔ (s.scanned path merging l).1 = (s.uncached.scanned path merging []).1 := by
  rw [h.answer_scan hkeep merging hfound, h.uncached.answer_scan hkeep merging hfound]
  exact (Outcome.map_injective fun _ _ => Answer.models.inj).eq_iff

/-- What is kept under the names found for a path is as the ledger says. -/
theorem Ready.keepsOwn_iff (h : Ready keys models t s l) (hcaching : s.settings.cache = true)
    (hfound : s.FindsWithin keys models path) :
    s.KeepsOwn path ↔ Ledger.Own (s.foundAt path) l := by
  -- For the keys of what is found the cache answers as the ledger does.
  have hkept : ∀ f ∈ s.foundAt path, s.kept f.key = .ok (Entries.get? f.key l) := by
    intro f hf
    cases hfindings : s.findings path with
    | error e =>
        rw [foundAt_of_error hfindings] at hf
        exact absurd hf List.not_mem_nil
    | ok fs =>
        rw [foundAt_of_ok hfindings] at hf
        exact h.kept_eq hcaching (hfound fs hfindings f hf).key
  constructor
  · intro hown f hf c hc
    refine hown f hf c ?_
    rw [hkept f hf, hc]
  · intro hown f hf c hc
    rw [hkept f hf] at hc
    exact hown f hf c (Except.ok.inj hc)

/-! ## Answers with a cache and without -/

/-- If all classes are kept as their own tags give them, or not at all, a scan answers
as one without a cache. -/
theorem Ready.answer_eq_uncached (hkeep : Keepable models) (h : Ready keys models t s l)
    (hcaching : s.settings.cache = true) (hfound : s.FindsWithin keys models path)
    (hdistinct : Ledger.Distinct (s.foundAt path)) (hown : Ledger.Own (s.foundAt path) l)
    (merging : Bool) :
    (exec (Request.scan path merging).run s).1
      = (exec (Request.scan path merging).run s.uncached).1 := by
  rw [h.answer_eq_uncached_iff hkeep merging hfound]
  unfold scanned
  rw [findings_uncached, hcaching]
  cases hfindings : s.findings path with
  | error e => rfl
  | ok fs =>
      rw [foundAt_of_ok hfindings] at hdistinct hown
      exact Ledger.scan_eq_uncached _ merging hdistinct hown _

/-- If a scan without merging answers as one without a cache, all classes are kept
as their own tags give them, or not at all. -/
theorem Ready.own_of_answer_eq_uncached (hkeep : Keepable models) (h : Ready keys models t s l)
    (hcaching : s.settings.cache = true) (hfound : s.FindsWithin keys models path)
    (hdistinct : Ledger.Distinct (s.foundAt path))
    (hmodels : ∀ f ∈ s.foundAt path, ∃ c, f.model = .ok c)
    (hsame : (exec (Request.scan path false).run s).1
      = (exec (Request.scan path false).run s.uncached).1) :
    Ledger.Own (s.foundAt path) l := by
  rw [h.answer_eq_uncached_iff hkeep false hfound] at hsame
  unfold scanned at hsame
  rw [findings_uncached, hcaching] at hsame
  cases hfindings : s.findings path with
  | error e =>
      rw [foundAt_of_error hfindings]
      exact fun _ hf => absurd hf List.not_mem_nil
  | ok fs =>
      rw [foundAt_of_ok hfindings] at hdistinct hmodels ⊢
      rw [hfindings] at hsame
      obtain ⟨ms, hms⟩ := Ledger.exists_scan_uncached s.settings.defaultGroup hmodels []
      exact Ledger.own_of_scan_eq_uncached hdistinct hms (hsame.trans hms)

/-! ## Along the requests before -/

theorem own_scanned (hcaching : s.settings.cache = true) (hown : Ledger.Own found l) {r : Request}
    (halone : ∀ f' ∈ s.foundAt r.path, LeavesAlone found r f') :
    Ledger.Own found (s.scanned r.path r.merging l).2 := by
  unfold scanned
  rw [hcaching]
  cases hfindings : s.findings r.path with
  | error e => exact hown
  | ok fs =>
      rw [foundAt_of_ok hfindings] at halone
      exact Ledger.own_scan hown halone

/-- Requests that leave classes alone leave them kept as their own tags give them,
or not at all. -/
theorem Ready.after_own (hkeep : Keepable models) (h : Ready keys models t s l)
    (hcaching : s.settings.cache = true) (hwithin : Within keys models s rs)
    (hown : Ledger.Own found l) (halone : Along (LeavesAlone found) s rs) :
    ∃ l', Ready keys models t (s.after rs) l' ∧ Ledger.Own found l' := by
  obtain ⟨l', hready, -, hown'⟩ := h.after_along hkeep
    (I := fun s l => s.settings.cache = true ∧ Ledger.Own found l)
    (fun s l r s' hfound hpassed hI =>
      ⟨hpassed.settings ▸ hI.1, own_scanned hI.1 hI.2 hfound⟩)
    ⟨hcaching, hown⟩ hwithin halone
  exact ⟨l', hready, hown'⟩

end Answers

/-! ## Sessions with a cache -/

section Start

variable {keys : String → Prop} {modules : Modules} {settings : Settings} {base : Option Path}
variable {rs : List Request}

/-- A session begins with nothing kept, and what it finds may be kept if it can be stored,
where it has to be. -/
theorem ready_start_collected (base : Option Path) (hvalid : modules.Valid)
    (hsuits : ∀ d, settings.cacheDirectory = some d → Cache.Suits modules.tree d keys) :
    ∃ models, Keepable models ∧ Ready keys models modules.tree (start modules settings base) [] ∧
      ∀ rs, Within keys (fun c => settings.cacheDirectory ≠ none → c.Storable)
        (start modules settings base) rs → Within keys models (start modules settings base) rs := by
  have hkeep := keepable_admitted (settings.cacheDirectory ≠ none) False fun _ => True
  have hready : Ready keys (ClassModel.Collected (ClassModel.Admitted
      (settings.cacheDirectory ≠ none) False fun _ => True)) modules.tree
      (start modules settings base) [] := by
    refine ready_start hvalid fun _ d hd => ?_
    have hsome : settings.cacheDirectory ≠ none := by
      rw [hd]
      simp
    exact ⟨(hsuits d hd).shelf fun c hc => hc.1 hsome, (hsuits d hd).vacant⟩
  refine ⟨_, hkeep, hready, fun rs hwithin => hready.within_collected hkeep ?_⟩
  exact hwithin.mono (fun _ h => h) fun c hc => ⟨hc, fun h => h.elim⟩

/-- Whether a scan shows what other scans have left.  After any requests, a scan of a path
answers as it does without a cache, merging or not, if no request before has
merged a class of that path; and exactly if all of its classes are kept as their
own tags give them, or not at all.

The classes found for the path have different names or equal models.  If the
cache is a directory, it is empty at first, and the classes that are found have
names with files of their own there, and models that can be stored. -/
theorem scan_uncached_of_history (hvalid : modules.Valid) (hcaching : settings.cache = true)
    (hsuits : ∀ d, settings.cacheDirectory = some d → Cache.Suits modules.tree d keys)
    (path : String)
    (hwithin : Within keys (fun c => settings.cacheDirectory ≠ none → c.Storable)
      (start modules settings base) (rs ++ [.scan path false]))
    (hdistinct : Ledger.Distinct (((start modules settings base).after rs).foundAt path)) :
    let s := (start modules settings base).after rs
    let same := fun merging => (exec (Request.scan path merging).run s).1
      = (exec (Request.scan path merging).run s.uncached).1
    (Along (LeavesAlone (s.foundAt path)) (start modules settings base) rs →
      ∀ merging, same merging) ∧
    ((∀ f ∈ s.foundAt path, ∃ c, f.model = .ok c) →
      ((∀ merging, same merging) ↔ s.KeepsOwn path)) := by
  intro s same
  obtain ⟨models, hkeep, hready, hcollected⟩ := ready_start_collected base hvalid hsuits
  obtain ⟨hrs, hlast⟩ := within_append.mp (hcollected _ hwithin)
  have hfound : s.FindsWithin keys models path := hlast.1
  obtain ⟨l, hafter, hsettings, -⟩ := hready.after hkeep hrs
  have hon : s.settings.cache = true := hsettings ▸ hcaching
  refine ⟨fun halone merging => ?_, fun hmodels => ⟨fun hsame => ?_, fun hown merging => ?_⟩⟩
  · obtain ⟨l', hafter', hown⟩ := hready.after_own hkeep hcaching hrs
      (fun _ _ _ h => absurd h (by simp)) halone
    exact hafter'.answer_eq_uncached hkeep hon hfound hdistinct hown merging
  · rw [hafter.keepsOwn_iff hon hfound]
    exact hafter.own_of_answer_eq_uncached hkeep hon hfound hdistinct hmodels (hsame false)
  · rw [hafter.keepsOwn_iff hon hfound] at hown
    exact hafter.answer_eq_uncached hkeep hon hfound hdistinct hown merging

end Start

/-- The authorizations that an answer shows for the methods of its models. -/
def Answer.auths : Answer → Entries (Entries (List String))
  | .models ms =>
    Entries.mapValues (fun c => Entries.mapValues (fun m => Entries.keys m.group.auth) c.methods) ms
  | _ => []

/-- A session over two controllers of one group, after a scan that merges. -/
def mergedSession : Session := sharedSession.after [.scan "m.py" true]

/-- These files, and a third controller of the group in another one. -/
def neighbourTree : Tree :=
  let group : TagSpec := .make "ApiGroup" [("group_name", .string "g")]
  let third : ClassDecl := .mk "C" [] [[group, .make "ApiGroupAuth" [("name", .string "key")]]] []
  ⟨[], (["n.py"], .file (.program ⟨[.define third true], false⟩)) :: sharedTree.nodes⟩

/-- A session over these files. -/
def neighbourStart : Session :=
  startInMemory (Modules.start neighbourTree .nowhere [[]]) Settings.default none

/-- The same session after a scan that merges the third controller. -/
def neighbourSession : Session := neighbourStart.after [.scan "n.py" true]

/-- A scan that does not merge shows the authorization that the method was given
from the other controller; without a cache it does not. -/
theorem auths_mergedSession :
    ((exec (Request.scan "m.py" false).run mergedSession).1.map Answer.auths).toOption
        = some [("m.A", [("one", ["tok"])]), ("m.B", [])] ∧
      ((exec (Request.scan "m.py" false).run mergedSession.uncached).1.map Answer.auths).toOption
        = some [("m.A", [("one", [])]), ("m.B", [])] := by
  decide +kernel

/-- A memory asks nothing of the names and the models that it keeps. -/
theorem within_inMemory (s : Session) (rs : List Request) :
    Within (fun _ => True) (fun c => Settings.default.cacheDirectory ≠ none → c.Storable) s rs :=
  within_of_forall (fun _ => trivial) fun _ h => absurd rfl h

/-- A scan that merged the controllers of the path is seen in what is kept of them.  One
that merged another controller of their group left them alone, so they are kept as their
own tags give them and answered as without a cache. -/
theorem scan_uncached_of_history_mergedSession :
    ¬ mergedSession.KeepsOwn "m.py" ∧
      Along (LeavesAlone (neighbourSession.foundAt "m.py")) neighbourStart [.scan "n.py" true] ∧
      neighbourSession.KeepsOwn "m.py" ∧
      ∀ merging, (exec (Request.scan "m.py" merging).run neighbourSession).1
        = (exec (Request.scan "m.py" merging).run neighbourSession.uncached).1 := by
  have hcaching : Settings.default.cache = true := rfl
  have hmemory (t : Tree) : ∀ d, Settings.default.cacheDirectory = some d →
      Cache.Suits t d fun _ => True := nofun
  -- The law for one request before, and a scan of the path after it.
  have hlaw (t : Tree) (r : Request)
      (hkeys : ((((start (Modules.start t .nowhere [[]]) Settings.default none).after
        [r]).foundAt "m.py").map Finding.key).Nodup) :=
    scan_uncached_of_history (Modules.valid_start t .nowhere [[]]) hcaching (hmemory t) "m.py"
      (within_inMemory _ ([r] ++ [.scan "m.py" false])) (Ledger.distinct_of_nodup hkeys)
  constructor
  · have hmodels : ∀ f ∈ mergedSession.foundAt "m.py", f.model.toOption.isSome = true := by
      decide +kernel
    obtain ⟨-, hexact⟩ := hlaw sharedTree (.scan "m.py" true) (by decide +kernel)
    intro hown
    have hsame : (exec (Request.scan "m.py" false).run mergedSession).1
        = (exec (Request.scan "m.py" false).run mergedSession.uncached).1 :=
      (hexact fun f hf => Outcome.isSome_toOption_iff.mp (hmodels f hf)).mpr hown false
    have hauths := auths_mergedSession.1
    rw [hsame, auths_mergedSession.2] at hauths
    exact absurd hauths (by decide)
  · have hmodels : ∀ f ∈ neighbourSession.foundAt "m.py", f.model.toOption.isSome = true := by
      decide +kernel
    have hother : ∀ f' ∈ neighbourStart.foundAt "n.py",
        ∀ f ∈ neighbourSession.foundAt "m.py", f'.key ≠ f.key := by decide +kernel
    obtain ⟨hanswers, hexact⟩ := hlaw neighbourTree (.scan "n.py" true) (by decide +kernel)
    have halone : Along (LeavesAlone (neighbourSession.foundAt "m.py")) neighbourStart
        [.scan "n.py" true] :=
      ⟨fun f' hf' f hf hkey => absurd hkey (hother f' hf' f hf), trivial⟩
    have hsame := hanswers halone
    exact ⟨halone,
      (hexact fun f hf => Outcome.isSome_toOption_iff.mp (hmodels f hf)).mp hsame, hsame⟩

/-- What a scan shows may depend on a scan before it. -/
theorem scan_mergedSession_ne_uncached :
    (exec (Request.scan "m.py" false).run mergedSession).1
      ≠ (exec (Request.scan "m.py" false).run mergedSession.uncached).1 := by
  intro hsame
  have hauths := auths_mergedSession.1
  rw [hsame, auths_mergedSession.2] at hauths
  exact absurd hauths (by decide)

end Session
end Routebook
