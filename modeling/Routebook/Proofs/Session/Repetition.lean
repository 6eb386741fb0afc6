/-
  Routebook.Proofs.Session.Repetition

  The same scan again and again.  The first call keeps what it answers, and any
  later one that finds classes of the same names takes all of them from there:
  it answers the same, in the same order, its models make the same groups, and
  what is kept stays as it is (`scan_again`).

  That the same names are found is not a matter of course.  A module inside a
  package takes its name there when it is loaded, and if that was the name of a
  class, the class is found by the first call only.  Once nothing is left to be
  loaded, though, all calls find the same (`namesAt_again`).
-/
import Routebook.Proofs.Session.Independence

namespace Routebook

open Steps

namespace Session

/-- The names of the classes found for a path, each one once. -/
def namesAt (s : Session) (path : String) : Outcome (List String) :=
  (s.findings path).map fun fs => (fs.map Finding.key).eraseDups

/-- Scan a path and merge the models that are answered. -/
def scanMerged (path : String) (merging : Bool) : Run (Entries (MergedGroup MethodModel)) := do
  let ids ← scan path merging
  let groups ← merge (Entries.values ids)
  return (← get).groupsNow groups

/-- The session that a scan leaves when it was called a number of times. -/
def again (s : Session) (path : String) (merging : Bool) (n : Nat) : Session :=
  s.after (List.replicate n (.scan path merging))

theorem again_succ (s : Session) (path : String) (merging : Bool) (n : Nat) :
    s.again path merging (n + 1)
      = (exec (Request.scan path merging).run (s.again path merging n)).2 := by
  unfold again
  rw [List.replicate_succ', after_append]
  rfl

/-! ## One call -/

section Once

variable {keys : String → Prop} {models : ClassModel MethodModel → Prop} {t : Tree}
variable {s s' : Session} {l l' : Ledger} {path : String} {merging : Bool}
variable {ms : Entries (ClassModel MethodModel)}

theorem Ready.answer_scan_iff (hkeep : Keepable models) (h : Ready keys models t s l)
    (merging : Bool) (hfound : s.FindsWithin keys models path) :
    (exec (Request.scan path merging).run s).1 = .ok (.models ms)
      ↔ (s.scanned path merging l).1 = .ok ms := by
  rw [h.answer_scan hkeep merging hfound, Outcome.map_ok_iff]
  constructor
  · rintro ⟨ms', hms, heq⟩
    exact Answer.models.inj heq ▸ hms
  · exact fun hms => ⟨ms, hms, rfl⟩

/-- A scan that goes through answers the models of the names that are found. -/
theorem namesAt_of_scanned (h : (s.scanned path merging l).1 = .ok ms) :
    s.namesAt path = .ok (Entries.keys ms) := by
  unfold scanned at h
  unfold namesAt
  cases hfindings : s.findings path with
  | error e =>
      rw [hfindings] at h
      exact absurd h (by simp [Ledger.scanFound])
  | ok fs =>
      rw [hfindings] at h
      rcases hscan : Ledger.scan s.settings.cache s.settings.defaultGroup merging fs l with ⟨r, l'⟩
      obtain rfl : r = .ok ms := (congrArg Prod.fst hscan).symm.trans h
      exact congrArg Except.ok (Ledger.keys_scan hscan).1.symm

/-- A scan leaves its models as merging completes them, and they make the groups that
their values say. -/
theorem Ready.scan_ok (hkeep : Keepable models) (h : Ready keys models t s l)
    (hfound : s.FindsWithin keys models path) (hms : (s.scanned path merging l).1 = .ok ms) :
    Ledger.complete s.settings.defaultGroup merging ms = ms ∧
      (exec (scanMerged path merging) s).1 = .ok (Merge.groups s.settings.defaultGroup ms) := by
  have hends := h.follows.scan hkeep h.valid path merging hfound
  change EndAlike _ _ _ (s.scanned path merging l) at hends
  rcases hscan : exec (scan path merging) s with ⟨e | ids, s'⟩ <;>
    rcases hledger : s.scanned path merging l with ⟨e' | ms', l'⟩ <;>
    rw [hscan, hledger] at hends <;> rw [hledger] at hms
  · exact absurd hms (by simp)
  · exact hends.elim
  · exact hends.elim
  · obtain rfl : ms' = ms := Except.ok.inj hms
    obtain ⟨hfollows, hnow, hcomplete⟩ := hends
    refine ⟨hcomplete, ?_⟩
    have hsettings := (hfollows.frame.passed h.valid).settings
    -- The models are merged as the ledger has them, so their groups are those of the answer.
    unfold scanMerged
    rw [exec_bind_of_ok hscan, exec_bind_of_ok (exec_merge s' _)]
    show Except.ok (Entries.mapValues (s'.heap.merge _ _).1.merged (s'.heap.merge _ _).2) = _
    rw [Heap.mapValues_merged hfollows.apart s'.settings.defaultGroup hfollows.made, hsettings]
    exact congrArg (fun ms => Except.ok (Merge.groups s.settings.defaultGroup ms)) hnow

/-- A later scan that finds the same names does as the ledger says, which stays as it is. -/
theorem scanned_again (hcaching : s.settings.cache = true) (hsettings : s'.settings = s.settings)
    (hscanned : s.scanned path merging l = (.ok ms, l'))
    (hcomplete : Ledger.complete s.settings.defaultGroup merging ms = ms)
    (hnames : s'.namesAt path = s.namesAt path) :
    s'.scanned path merging l' = (.ok ms, l') := by
  unfold namesAt at hnames
  unfold scanned at hscanned ⊢
  rw [hcaching] at hscanned
  rw [hsettings, hcaching]
  cases hfindings : s.findings path with
  | error e =>
      rw [hfindings] at hscanned
      exact absurd (congrArg Prod.fst hscanned) (by simp [Ledger.scanFound])
  | ok fs =>
      rw [hfindings] at hscanned hnames
      obtain ⟨fs', hfs', hkeys⟩ := Outcome.map_ok_iff.mp hnames
      rw [hfs']
      exact Ledger.scan_scan hscanned hcomplete hkeys

end Once

/-! ## One call after the other -/

section Again

variable {keys : String → Prop} {models : ClassModel MethodModel → Prop} {t : Tree}
variable {s : Session} {l l' : Ledger} {path : String} {merging : Bool}
variable {ms : Entries (ClassModel MethodModel)}

/-- Between two calls a session keeps what some ledger says, with the settings it had. -/
theorem Ready.exists_again (hkeep : Keepable models) (h : Ready keys models t s l)
    (hwithin : ∀ n, Within keys models s (List.replicate n (.scan path merging))) (n : Nat) :
    (s.again path merging n).settings = s.settings ∧
      (s.again path merging n).cache.directory? = s.cache.directory? ∧
      (s.again path merging n).FindsWithin keys models path ∧
      ∃ l', Ready keys models t (s.again path merging n) l' := by
  have hnext := hwithin (n + 1)
  rw [List.replicate_succ', within_append] at hnext
  obtain ⟨l', hready, hsettings, hdirectory⟩ := h.after hkeep hnext.1
  exact ⟨hsettings, hdirectory, hnext.2.1, l', hready⟩

/-- While the same names are found, the ledger that the first call leaves stays. -/
theorem Ready.again_succ (hkeep : Keepable models) (h : Ready keys models t s l)
    (hcaching : s.settings.cache = true)
    (hwithin : ∀ n, Within keys models s (List.replicate n (.scan path merging)))
    (hscanned : s.scanned path merging l = (.ok ms, l'))
    (hnames : ∀ n, (s.again path merging n).namesAt path = s.namesAt path) (n : Nat) :
    Ready keys models t (s.again path merging (n + 1)) l' := by
  have hfound (n : Nat) := (h.exists_again hkeep hwithin n).2.2.1
  induction n with
  | zero =>
      obtain ⟨s', hexec, -, hready, -⟩ := h.run hkeep (.scan path merging) (hfound 0)
      have hnext := Session.again_succ s path merging 0
      change _ = (exec (Request.scan path merging).run s).2 at hnext
      rw [hnext, hexec]
      exact hscanned ▸ hready
  | succ n ih =>
      -- A scan of the same names finds everything in the ledger and leaves it as it is.
      have hcomplete := (h.scan_ok hkeep (hfound 0) (congrArg Prod.fst hscanned)).1
      have hagain := scanned_again hcaching (h.exists_again hkeep hwithin (n + 1)).1 hscanned
        hcomplete (hnames (n + 1))
      obtain ⟨s', hexec, -, hready, -⟩ := ih.run hkeep (.scan path merging) (hfound (n + 1))
      rw [Session.again_succ, hexec]
      exact hagain ▸ hready

/-- With a memory the second call answers from what the first one has left. -/
theorem Ready.answer_again (hkeep : Keepable models) (h : Ready keys models t s l)
    (hcaching : s.settings.cache = true) (hmemory : s.cache.directory? = none)
    (hwithin : ∀ n, Within keys models s (List.replicate n (.scan path merging))) :
    (exec (Request.scan path merging).run (s.again path merging 1)).1
      = ((s.located path).scanned path merging (s.scanned path merging l).2).1.map
          Answer.models := by
  obtain ⟨-, -, hfound, -⟩ := h.exists_again hkeep hwithin 1
  obtain ⟨s', hexec, hpassed, hready, -⟩ := h.run hkeep (.scan path merging) (hwithin 1).1
  obtain rfl : s.again path merging 1 = s' := congrArg Prod.snd hexec
  rw [hready.answer_scan hkeep merging hfound]
  have htree : (s.again path merging 1).tree = s.tree := by
    have hbefore := h.tree_of_memory hcaching hmemory
    exact (hready.tree_of_memory (hpassed.settings ▸ hcaching)
      (hpassed.directory.trans hmemory)).trans hbefore.symm
  -- No file has changed, so what the first call has loaded is all that differs.
  have hmodules : (s.again path merging 1).modules = (s.located path).modules := by
    rw [hpassed.modules, htree, ← (located_spec h.valid path).1]
    rfl
  have hfindings : (s.again path merging 1).findings path = (s.located path).findings path := by
    refine findings_congr (t := ((s.located path).located path).tree) ?_ ?_ ?_
    · unfold found
      rw [hmodules]
    · show (exec (Discover.classes path) (s.again path merging 1).modules).2 = _
      rw [hmodules]
      rfl
    · rw [hpassed.settings, settings_located]
  unfold scanned
  rw [hfindings, hpassed.settings, settings_located]
  rfl

end Again

/-! ## Once everything is loaded -/

section Loaded

variable {keys : String → Prop} {models : ClassModel MethodModel → Prop} {t : Tree}
variable {s : Session} {l : Ledger} {path : String} {merging : Bool}

/-- Over the files of a cache a path leads to what it led to before them. -/
theorem Ready.sameAt (h : Ready keys models t s l) (hcaching : s.settings.cache = true) {p : Path}
    (houtside : ∀ d, s.cache.directory? = some d → t.Outside d keys p) :
    t.LooksLike s.tree ∧ t.SameAt s.tree p := by
  cases h.follows.kept hcaching with
  | memory hcache htree hitems =>
      rw [htree]
      exact ⟨Tree.LooksLike.refl t, Tree.SameAt.refl t p⟩
  | @directory d place hcache hfiles =>
      have hout := houtside d (by rw [hcache]; rfl)
      exact ⟨hfiles.stocked.looksLike Cache.endsWith_py_of_isEntry,
        Tree.sameAt Cache.endsWith_py_of_isEntry hfiles.vacant hfiles.stocked
          (hout.ne_entry hfiles.vacant)⟩

/-- Over the files of a cache the same classes are found, by loading the same modules. -/
theorem Ready.exec_classes (h : Ready keys models t s l) (hcaching : s.settings.cache = true)
    (houtside : ∀ d, s.cache.directory? = some d → t.Outside d keys (Path.ofText path)) :
    exec (Discover.classes path) s.modules
      = ((exec (Discover.classes path) (s.modules.withTree t)).1,
          (exec (Discover.classes path) (s.modules.withTree t)).2.withTree s.tree) := by
  obtain ⟨hlook, hpath⟩ := h.sameAt hcaching houtside
  exact ((Import.same_classes hlook hpath).exec (m := s.modules.withTree t) rfl
    (Modules.Valid.withTree h.valid t)).1

/-- A session that differs in files of the cache only finds the same, where nothing is
left to be loaded. -/
theorem Ready.findings_of_loaded {s' : Session} {l' : Ledger} (h : Ready keys models t s l)
    (h' : Ready keys models t s' l') (hcaching : s.settings.cache = true)
    (hsettings : s'.settings = s.settings) (hdirectory : s'.cache.directory? = s.cache.directory?)
    (houtside : ∀ d, s.cache.directory? = some d → t.Outside d keys (Path.ofText path))
    (hmodules : s'.modules = s.modules.withTree s'.tree)
    (hloaded : (exec (Discover.classes path) s.modules).2 = s.modules) :
    s'.findings path = s.findings path ∧
      (exec (Discover.classes path) s'.modules).2 = s'.modules := by
  have hbefore := h.exec_classes hcaching houtside
  have hafter := h'.exec_classes (hsettings ▸ hcaching) fun d hd => houtside d (hdirectory ▸ hd)
  have hsame : s'.modules.withTree t = s.modules.withTree t := by
    rw [hmodules]
    rfl
  rw [hsame] at hafter
  -- Both load the same over the files before the cache, which is nothing.
  have hkept := congrArg (Modules.withTree s'.tree) (congrArg Prod.snd hbefore)
  rw [hloaded] at hkept
  have hloaded' : (exec (Discover.classes path) s'.modules).2 = s'.modules :=
    calc (exec (Discover.classes path) s'.modules).2
        = (exec (Discover.classes path) (s.modules.withTree t)).2.withTree s'.tree :=
          congrArg Prod.snd hafter
      _ = s.modules.withTree s'.tree := hkept.symm
      _ = s'.modules := hmodules.symm
  refine ⟨findings_congr (t := s'.tree) ?_ ?_ (by rw [hsettings]), hloaded'⟩
  · unfold found
    rw [hbefore, hafter]
  · show (exec (Discover.classes path) s'.modules).2 = _
    rw [hloaded', hmodules]
    show _ = (exec (Discover.classes path) s.modules).2.withTree s'.tree
    rw [hloaded]

/-- From a session on in which nothing is left to be loaded all calls find the same. -/
theorem Ready.findings_again (hkeep : Keepable models) (h : Ready keys models t s l)
    (hcaching : s.settings.cache = true)
    (houtside : ∀ d, s.cache.directory? = some d → t.Outside d keys (Path.ofText path))
    (hwithin : ∀ n, Within keys models s (List.replicate n (.scan path merging)))
    (hloaded : (exec (Discover.classes path) s.modules).2 = s.modules) (n : Nat) :
    (s.again path merging n).findings path = s.findings path := by
  have hagain (n : Nat) := h.exists_again hkeep hwithin n
  have hmodules (n : Nat) :
      (s.again path merging n).modules = s.modules.withTree (s.again path merging n).tree := by
    induction n with
    | zero => rfl
    | succ n ih =>
        obtain ⟨hsettings, hdirectory, hfound, l', hready⟩ := hagain n
        obtain ⟨s', hexec, hpassed, -⟩ := hready.run hkeep (.scan path merging) hfound
        -- All modules are loaded, so looking for the classes again loads none.
        have hstill := (h.findings_of_loaded hready hcaching hsettings hdirectory houtside ih
          hloaded).2
        rw [Session.again_succ, hexec]
        show s'.modules = _
        rw [hpassed.modules]
        show (exec (Discover.classes path) (s.again path merging n).modules).2.withTree s'.tree = _
        rw [hstill, ih]
        rfl
  obtain ⟨hsettings, hdirectory, -, l', hready⟩ := hagain n
  exact (h.findings_of_loaded hready hcaching hsettings hdirectory houtside (hmodules n) hloaded).1

end Loaded

/-! ## Sessions with a cache -/

section Start

variable {keys : String → Prop} {modules : Modules} {settings : Settings} {base : Option Path}

theorem directory?_start (modules : Modules) (settings : Settings) (base : Option Path) :
    (start modules settings base).cache.directory? = settings.cacheDirectory := by
  show (Cache.ofSettings settings).directory? = _
  unfold Cache.ofSettings
  cases settings.cacheDirectory <;> rfl

/-- If the second call has nothing left to load and finds the names of the first one,
every call finds them. -/
theorem namesAt_again (hvalid : modules.Valid) (hcaching : settings.cache = true)
    (hsuits : ∀ d, settings.cacheDirectory = some d → Cache.Suits modules.tree d keys)
    (path : String) (merging : Bool)
    (hwithin : ∀ n, Within keys (fun c => settings.cacheDirectory ≠ none → c.Storable)
      (start modules settings base) (List.replicate n (.scan path merging)))
    (houtside : ∀ d, settings.cacheDirectory = some d →
      modules.tree.Outside d keys (Path.ofText path))
    (hloaded : Discover.isLoaded ((start modules settings base).again path merging 1).modules path
      = true)
    (hnames : ((start modules settings base).again path merging 1).namesAt path
      = (start modules settings base).namesAt path) (n : Nat) :
    ((start modules settings base).again path merging n).namesAt path
      = (start modules settings base).namesAt path := by
  obtain ⟨models, hkeep, hready, hcollected⟩ := ready_start_collected base hvalid hsuits
  have hwithin (n : Nat) := hcollected _ (hwithin n)
  cases n with
  | zero => rfl
  | succ n =>
      obtain ⟨hsettings, hdirectory, -, l, hfirst⟩ := hready.exists_again hkeep hwithin 1
      -- The first scan loads the modules; the later ones start from where it ended.
      have hlater (m : Nat) :
          Within keys models ((start modules settings base).again path merging 1)
            (List.replicate m (.scan path merging)) := by
        have hall := hwithin (1 + m)
        rw [List.replicate_add, within_append] at hall
        exact hall.2
      have hsplit : (start modules settings base).again path merging (n + 1)
          = ((start modules settings base).again path merging 1).again path merging n := by
        unfold again
        rw [← after_append, ← List.replicate_add, Nat.add_comm]
      have hout : ∀ d,
          ((start modules settings base).again path merging 1).cache.directory? = some d →
            modules.tree.Outside d keys (Path.ofText path) := by
        rw [hdirectory, directory?_start]
        exact houtside
      have hfindings := hfirst.findings_again hkeep (hsettings ▸ hcaching) hout hlater
        (Discover.exec_classes_of_loaded hloaded) n
      rw [hsplit, ← hnames]
      unfold namesAt
      rw [hfindings]

/-- A scan that goes through and is repeated.  Every call answers the same models in the
same order exactly if every call finds classes of the same names, and then their
groups are the same too, and no call after the first one changes what is kept.
If the classes have different names or equal models, a session without a cache
answers these models as well.

If the cache is a directory, it is empty at first, and the classes that are found
have names with files of their own there, and models that can be stored. -/
theorem scan_again (hvalid : modules.Valid) (hcaching : settings.cache = true)
    (hsuits : ∀ d, settings.cacheDirectory = some d → Cache.Suits modules.tree d keys)
    (path : String) (merging : Bool)
    (hwithin : ∀ n, Within keys (fun c => settings.cacheDirectory ≠ none → c.Storable)
      (start modules settings base) (List.replicate n (.scan path merging)))
    {ms : Entries (ClassModel MethodModel)}
    (hfirst : (exec (Request.scan path merging).run (start modules settings base)).1
      = .ok (.models ms)) :
    let first := start modules settings base
    let again := first.again path merging
    let sameNames := ∀ n, (again n).namesAt path = first.namesAt path
    ((∀ n, (exec (Request.scan path merging).run (again n)).1 = .ok (.models ms)) ↔ sameNames) ∧
      (sameNames → ∀ n,
        (exec (scanMerged path merging) (again n)).1
            = .ok (Merge.groups settings.defaultGroup ms) ∧
          ∀ key, keys key → (again (n + 1)).kept key = (again 1).kept key) ∧
      (Ledger.Distinct (first.foundAt path) →
        (exec (Request.scan path merging).run first.uncached).1 = .ok (.models ms)) := by
  intro first again sameNames
  obtain ⟨models, hkeep, hready, hcollected⟩ := ready_start_collected base hvalid hsuits
  have hwithin (n : Nat) := hcollected _ (hwithin n)
  have hagain (n : Nat) := hready.exists_again hkeep hwithin n
  have hscanned : (first.scanned path merging []).1 = .ok ms :=
    (hready.answer_scan_iff hkeep merging (hagain 0).2.2.1).mp hfirst
  rcases hledger : first.scanned path merging [] with ⟨r, l⟩
  obtain rfl : r = .ok ms := by
    rw [hledger] at hscanned
    exact hscanned
  have hcomplete := (hready.scan_ok hkeep (hagain 0).2.2.1 hscanned).1
  -- By the ledger of the first call every call is answered alike.
  have hledgers (hnames : sameNames) (n : Nat) :
      ∃ l', Ready keys models modules.tree (again n) l' ∧
        ((again n).scanned path merging l').1 = .ok ms := by
    cases n with
    | zero => exact ⟨[], hready, hscanned⟩
    | succ n =>
        refine ⟨l, hready.again_succ hkeep hcaching hwithin hledger hnames n, ?_⟩
        rw [scanned_again hcaching (hagain (n + 1)).1 hledger hcomplete (hnames (n + 1))]
  refine ⟨⟨fun hsame n => ?_, fun hnames n => ?_⟩, fun hnames n => ⟨?_, fun key hkey => ?_⟩,
    fun hdistinct => ?_⟩
  · obtain ⟨hsettings, -, hfound, l', hready'⟩ := hagain n
    have hscanned' := (hready'.answer_scan_iff hkeep merging hfound).mp (hsame n)
    rw [namesAt_of_scanned hscanned', namesAt_of_scanned hscanned]
  · obtain ⟨l', hready', hscanned'⟩ := hledgers hnames n
    exact (hready'.answer_scan_iff hkeep merging (hagain n).2.2.1).mpr hscanned'
  · obtain ⟨l', hready', hscanned'⟩ := hledgers hnames n
    rw [(hready'.scan_ok hkeep (hagain n).2.2.1 hscanned').2, (hagain n).1]
    rfl
  · have hlater := hready.again_succ hkeep hcaching hwithin hledger hnames
    have hon (n : Nat) : (again (n + 1)).settings.cache = true := by
      rw [(hagain (n + 1)).1]
      exact hcaching
    rw [(hlater n).kept_eq (hon n) hkey, (hlater 0).kept_eq (hon 0) hkey]
  · rw [← hready.answer_eq_uncached hkeep hcaching (hagain 0).2.2.1 hdistinct
      (fun _ _ _ h => absurd h (by simp)) merging]
    exact hfirst

end Start

/-- Two controllers of one group, scanned again and again: the method that was given the
authorization of the other controller keeps it, and nothing else. -/
theorem scan_again_sharedSession :
    (∀ n, ((exec (Request.scan "m.py" true).run (sharedSession.again "m.py" true n)).1.map
        Answer.auths).toOption = some [("m.A", [("one", ["tok"])]), ("m.B", [])]) ∧
      ∀ n key, (sharedSession.again "m.py" true (n + 1)).kept key
        = (sharedSession.again "m.py" true 1).kept key := by
  have hvalid : (Modules.start sharedTree .nowhere [[]]).Valid := Modules.valid_start _ _ _
  have hcaching : Settings.default.cache = true := rfl
  have hmemory : ∀ d, Settings.default.cacheDirectory = some d →
      Cache.Suits sharedTree d fun _ => True := nofun
  have hwithin (n : Nat) :=
    within_inMemory (start (Modules.start sharedTree .nowhere [[]]) Settings.default none)
      (List.replicate n (.scan "m.py" true))
  have hauths : ((exec (Request.scan "m.py" true).run sharedSession).1.map Answer.auths).toOption
      = some [("m.A", [("one", ["tok"])]), ("m.B", [])] := by decide +kernel
  have hnames : (sharedSession.namesAt "m.py").toOption = some ["m.A", "m.B"] := by decide +kernel
  have hnames' : ((sharedSession.again "m.py" true 1).namesAt "m.py").toOption
      = some ["m.A", "m.B"] := by decide +kernel
  have hloaded : Discover.isLoaded (sharedSession.again "m.py" true 1).modules "m.py" = true := by
    decide +kernel
  have hsame : ∀ n, (sharedSession.again "m.py" true n).namesAt "m.py"
      = sharedSession.namesAt "m.py" :=
    namesAt_again hvalid hcaching hmemory "m.py" true hwithin nofun hloaded
      ((Outcome.toOption_eq_some_iff.mp hnames').trans
        (Outcome.toOption_eq_some_iff.mp hnames).symm)
  obtain ⟨a, ha, -⟩ := Outcome.map_ok_iff.mp (Outcome.toOption_eq_some_iff.mp hauths)
  cases a with
  | models ms =>
      have hagain := scan_again hvalid hcaching hmemory "m.py" true hwithin ha
      refine ⟨fun n => ?_, fun n key => (hagain.2.1 hsame n).2 key trivial⟩
      have hanswer := hagain.1.mpr hsame n
      rw [ha] at hauths
      exact (congrArg (fun r => (r.map Answer.auths).toOption) hanswer).trans hauths
  | handbook text =>
      rw [ha] at hauths
      exact absurd hauths (by simp [Except.map, Except.toOption, Answer.auths])
  | routes table =>
      rw [ha] at hauths
      exact absurd hauths (by simp [Except.map, Except.toOption, Answer.auths])

/-! ## A class that is found once -/

/-- A package with a class that has the name of a module inside the package. -/
def maskedTree : Tree :=
  ⟨[], [(["pkg"], .directory),
    (["pkg", "__init__.py"], .file (.program ⟨[.define (.mk "mod" [] [] []) true], false⟩)),
    (["pkg", "mod.py"], .file (.program ⟨[.define (.mk "X" [] [] []) true], false⟩))]⟩

/-- A session with a memory over this package. -/
def maskedSession : Session :=
  startInMemory (Modules.start maskedTree .nowhere [[]]) Settings.default none

/-- The files of the package, which is in the current directory. -/
theorem exec_classes_maskedTree {m : Modules} (h : m.tree = maskedTree) :
    exec (Discover.classes "pkg") m
      = exec (Discover.classesInFiles ["pkg"]
          [⟨.here, ["pkg", "__init__.py"]⟩, ⟨.here, ["pkg", "mod.py"]⟩]) m := by
  have hp : m.tree.lookup (Path.ofText "pkg") = .found ["pkg"] .directory := by
    rw [h]
    rfl
  have hlisted : Discover.moduleFiles maskedTree ["pkg"] = [["__init__.py"], ["mod.py"]] :=
    Discover.moduleFiles_of_pairwise (by decide +kernel) (by decide +kernel)
  rw [Discover.exec_classes_of_directory hp, Discover.moduleFilesOf_of_directory hp, h, hlisted]
  rfl

/-- The second call does not find the class any more. -/
theorem scan_maskedSession_again :
    ((exec (Request.scan "pkg" true).run maskedSession).1.map Answer.auths).toOption
        = some [("pkg.mod", []), ("pkg.mod.X", [])] ∧
      ((exec (Request.scan "pkg" true).run (maskedSession.again "pkg" true 1)).1.map
        Answer.auths).toOption = some [("pkg.mod.X", [])] := by
  have hvalid : (Modules.start maskedTree .nowhere [[]]).Valid := Modules.valid_start _ _ _
  have hmemory : ∀ d, Settings.default.cacheDirectory = some d →
      Cache.Suits maskedTree d fun _ => True := nofun
  obtain ⟨models, hkeep, hstart, hcollected⟩ := ready_start_collected none hvalid hmemory
  have hready : Ready (fun _ => True) models maskedTree maskedSession [] := hstart
  have hwithin (n : Nat) :
      Within (fun _ => True) models maskedSession (List.replicate n (.scan "pkg" true)) :=
    hcollected _ (within_inMemory _ _)
  have hfound : maskedSession.FindsWithin (fun _ => True) models "pkg" := (hwithin 1).1
  have htree : (maskedSession.located "pkg").tree = maskedTree := (located_spec hvalid "pkg").1
  rw [hready.answer_scan hkeep true hfound, hready.answer_again hkeep rfl rfl hwithin]
  unfold scanned
  rw [findings_of_exec (exec_classes_maskedTree htree),
    findings_of_exec (exec_classes_maskedTree rfl), located_of_exec (exec_classes_maskedTree rfl)]
  decide +kernel

end Session
end Routebook
