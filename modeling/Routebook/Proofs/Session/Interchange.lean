/-
  Routebook.Proofs.Session.Interchange

  Memory and directory do the same.  Two sessions that differ in nothing but
  the cache are asked for the same, one request after the other; both keep what
  one ledger says (`Twins`), so they answer the same, in success and in failure,
  and keep equal models (`trace_memory_directory`).  A request is one step
  (`Twins.run`): what it finds does not depend on the cache (`Twins.findings`),
  and what it leaves are twins again (`Twins.passed`).

  The sources stay as they are.  A session writes nothing but the files of its
  cache, so sources that none of these belongs to are the same before every
  request.  A directory is part of the files, though, and the models in it are
  there for all to read: a request for one of its files, or a handbook that
  shows one, would have a source that keeping a model changes; and a key with
  the file name of another one finds what is kept under that
  (`trace_memory_directory_astray`).
-/
import Routebook.Proofs.Handbook.Examples
import Routebook.Proofs.Modules.Scanning
import Routebook.Proofs.Modules.Unresolved
import Routebook.Proofs.Session.Admission

namespace Routebook

open Steps

/-- A path that leads to none of the files that a directory has for some names. -/
def Tree.Outside (t : Tree) (d : Path) (keys : String → Prop) (p : Path) : Prop :=
  ∀ key, keys key → t.resolve p ≠ t.resolve (d.child (Cache.fileName key))

instance (t : Tree) (d : Path) (names : List String) (p : Path) :
    Decidable (t.Outside d (· ∈ names) p) :=
  inferInstanceAs
    (Decidable (∀ key ∈ names, t.resolve p ≠ t.resolve (d.child (Cache.fileName key))))

theorem Tree.Outside.ne_entry {t : Tree} {d p : Path} {keys : String → Prop} {place : Place}
    (h : t.Outside d keys p) (hvacant : t.Vacant d place) :
    ∀ name, Cache.IsEntry keys name → t.resolve p ≠ place ++ [name] := by
  rintro name ⟨key, hkey, rfl⟩
  have hplace := (Tree.lookup_found hvacant.directory).1
  rw [hplace, ← Tree.resolve_child t d (Cache.plainName_fileName key).notUp]
  exact h key hkey

namespace Session

theorem fileReference_congr {t t' : Tree} {base : Option Path} {text : String}
    (h : t'.probe (referencePath base text) = t.probe (referencePath base text)) :
    fileReference t' base text = fileReference t base text := by
  unfold fileReference
  rw [h]

/-- Two sessions that keep what one ledger says, in memory and in a directory
that was empty in the files `t`. -/
structure Twins (keys : String → Prop) (models : ClassModel MethodModel → Prop) (t : Tree)
    (d : Path) (place : Place) (base : Option Path) (m s : Session) (l : Ledger) : Prop where
  memory : Ready keys models t m l
  directory : Ready keys models t s l
  settings : m.settings = { s.settings with cacheDirectory := none }
  memoryBase : m.baseDirectory = base
  directoryBase : s.baseDirectory = base
  modules : s.modules = m.modules.withTree s.tree
  tree : m.tree = t
  stocked : t.Stocked (Cache.IsEntry keys) place s.tree
  nowhere : m.cache.directory? = none
  somewhere : s.cache.directory? = some d
  still : m.settings.cache = false → m.cache = .memory [] ∧ s.tree = t

section Twins

variable {keys : String → Prop} {models : ClassModel MethodModel → Prop} {t : Tree} {d : Path}
variable {place : Place} {base : Option Path} {m s : Session} {l : Ledger}

/-- The same classes are found. -/
theorem Twins.found (hvacant : t.Vacant d place) (h : Twins keys models t d place base m s l)
    {path : String} (houtside : t.Outside d keys (Path.ofText path)) :
    s.found path = m.found path ∧
      (s.located path).modules = (m.located path).modules.withTree s.tree := by
  have hlook := h.stocked.looksLike Cache.endsWith_py_of_isEntry
  have hpath := Tree.sameAt Cache.endsWith_py_of_isEntry hvacant h.stocked
    (houtside.ne_entry hvacant)
  obtain ⟨hexec, -, -, -⟩ :=
    (Import.same_classes hlook hpath).exec h.tree h.memory.valid
  rw [← h.modules] at hexec
  have hfound := congrArg Prod.fst hexec
  have hloaded := congrArg Prod.snd hexec
  exact ⟨hfound, hloaded⟩

theorem Twins.findings (hvacant : t.Vacant d place) (h : Twins keys models t d place base m s l)
    {path : String} (houtside : t.Outside d keys (Path.ofText path)) :
    s.findings path = m.findings path := by
  obtain ⟨hfound, hmodules⟩ := h.found hvacant houtside
  exact findings_congr hfound hmodules (by rw [h.settings])

/-- What is made of scanned models is the same, if no handbook shows a file of the cache. -/
theorem Twins.answer (hvacant : t.Vacant d place) (h : Twins keys models t d place base m s l)
    (r : Request) {ms : Entries (ClassModel MethodModel)} (hrefers : ∀ path, r = .handbook path →
      ∀ c ∈ Entries.values ms, Description.ReferTo
        (fun text => t.Outside d keys (referencePath base text)) c.descriptions) :
    r.answer s ms = r.answer m ms := by
  have hsettings := h.settings
  cases r with
  | scan path merging => rfl
  | routes path lead? =>
      unfold Request.answer
      rw [hsettings]
  | handbook path =>
      have hmarkdown : Handbook.markdown s.frame (Merge.groups s.settings.defaultGroup ms)
          = Handbook.markdown ⟨s.settings.marker, fileReference m.tree m.baseDirectory⟩
              (Merge.groups s.settings.defaultGroup ms) := by
        -- Descriptions refer to no entry of the cache, so they are resolved alike.
        refine Handbook.markdown_congr fun g hg d hd htype => ?_
        obtain ⟨c, hc, hdescription⟩ := Merge.description_of_groups hg hd
        have houtside := hrefers path rfl c hc d hdescription htype
        rw [h.directoryBase, h.memoryBase, h.tree]
        exact fileReference_congr (h.stocked.probe_eq (houtside.ne_entry hvacant))
      show Except.map _ (Handbook.markdown s.frame _)
        = Except.map _ (Handbook.markdown ⟨m.settings.marker, _⟩ _)
      rw [hmarkdown, hsettings]

/-- Under the names in question both keep the same. -/
theorem Twins.kept (hsuits : Cache.Suits t d keys) (h : Twins keys models t d place base m s l)
    {key : String} (hkey : keys key) : m.kept key = s.kept key := by
  have hsettings : s.settings.cache = m.settings.cache := by rw [h.settings]
  cases hcaching : m.settings.cache with
  | true =>
      rw [h.memory.kept_eq hcaching hkey, h.directory.kept_eq (hsettings.trans hcaching) hkey]
  | false =>
      obtain ⟨hcache, htree⟩ := h.still hcaching
      obtain ⟨place, hvacant⟩ := hsuits.vacant
      unfold Session.kept
      rw [hcache, Cache.eq_directory h.somewhere]
      show Except.ok none = Cache.load s.tree d key
      rw [htree, load_of_vacant hvacant (hsuits.short key hkey)]

/-- Twins that have passed the same request are twins again, once the ledger
says the same of both. -/
theorem Twins.passed (hvacant : t.Vacant d place) (h : Twins keys models t d place base m s l)
    {path : String} (houtside : t.Outside d keys (Path.ofText path)) {m' s' : Session} {l' : Ledger}
    (hpassed : Passed m path m') (hpassed' : Passed s path s')
    (hready : Ready keys models t m' l') (hready' : Ready keys models t s' l') :
    Twins keys models t d place base m' s' l' := by
  have hcaching : s.settings.cache = m.settings.cache := by rw [h.settings]
  -- With caching off, neither side changes its files.  With it on, the one in memory has none
  -- to change, and the other puts its entries into the directory that was empty.
  have hnowhere : m'.cache.directory? = none := hpassed.directory.trans h.nowhere
  have hsomewhere : s'.cache.directory? = some d := hpassed'.directory.trans h.somewhere
  refine ⟨hready, hready', ?_, hpassed.base.trans h.memoryBase,
    hpassed'.base.trans h.directoryBase, ?_, ?_, ?_, hnowhere, hsomewhere, fun hoff => ?_⟩
  · rw [hpassed.settings, hpassed'.settings]
    exact h.settings
  · rw [hpassed'.modules, (h.found hvacant houtside).2, hpassed.modules]
    rfl
  · cases hon : m.settings.cache with
    | false => exact (hpassed.uncached hon).2.trans h.tree
    | true => exact hready.tree_of_memory (hpassed.settings ▸ hon) hnowhere
  · cases hon : m.settings.cache with
    | false =>
        rw [(hpassed'.uncached (hcaching.trans hon)).2]
        exact h.stocked
    | true =>
        exact hready'.stocked_of_directory (hpassed'.settings ▸ hcaching.trans hon) hvacant
          hsomewhere
  · rw [hpassed.settings] at hoff
    obtain ⟨hcache, hstill⟩ := h.still hoff
    exact ⟨(hpassed.uncached hoff).1.trans hcache,
      (hpassed'.uncached (hcaching.trans hoff)).2.trans hstill⟩

/-- One request: both sessions answer it the same, and stay twins. -/
theorem Twins.run (hkeep : Keepable models) (hvacant : t.Vacant d place)
    (h : Twins keys models t d place base m s l) (r : Request)
    (houtside : t.Outside d keys (Path.ofText r.path)) (hfound : m.FindsWithin keys models r.path)
    (hrefers : ∀ path, r = .handbook path → ∀ c, models c → Description.ReferTo
      (fun text => t.Outside d keys (referencePath base text)) c.descriptions) :
    (exec r.run m).1 = (exec r.run s).1 ∧
      ∃ l', Twins keys models t d place base (exec r.run m).2 (exec r.run s).2 l' := by
  have hfindings := h.findings hvacant houtside
  have hfound' : s.FindsWithin keys models r.path := by
    unfold FindsWithin
    rw [hfindings]
    exact hfound
  have hscanned : s.scanned r.path r.merging l = m.scanned r.path r.merging l := by
    unfold scanned
    rw [hfindings, h.settings]
  obtain ⟨m', hexec, hpassed, hready, hmodels⟩ := h.memory.run hkeep r hfound
  obtain ⟨s', hexec', hpassed', hready', -⟩ := h.directory.run hkeep r hfound'
  rw [hscanned] at hexec' hready'
  have htwins := h.passed hvacant houtside hpassed hpassed' hready hready'
  rw [hexec, hexec']
  refine ⟨?_, _, htwins⟩
  cases hms : (m.scanned r.path r.merging l).1 with
  | error e =>
      -- by name: unfolding would compare the two ways to answer instead
      exact (Outcome.error_bind e (r.answer m')).trans (Outcome.error_bind e (r.answer s')).symm
  | ok ms =>
      exact (htwins.answer hvacant r fun path hpath c hc =>
        hrefers path hpath c (hmodels ms hms c hc)).symm

/-- Requests one after the other. -/
theorem Twins.trace (hsuits : Cache.Suits t d keys) (hkeep : Keepable models)
    (hvacant : t.Vacant d place) (h : Twins keys models t d place base m s l) {rs : List Request}
    (houtside : ∀ r ∈ rs, t.Outside d keys (Path.ofText r.path)) (hwithin : Within keys models m rs)
    (hrefers : (∃ path, Request.handbook path ∈ rs) → ∀ c, models c → Description.ReferTo
      (fun text => t.Outside d keys (referencePath base text)) c.descriptions) :
    List.Forall₂ (fun a b => a.1 = b.1 ∧ ∀ key, keys key → a.2.kept key = b.2.kept key)
      (m.trace rs) (s.trace rs) := by
  induction rs generalizing m s l with
  | nil => exact .nil
  | cons r rs ih =>
      obtain ⟨hanswer, l', htwins⟩ := h.run hkeep hvacant r (houtside r List.mem_cons_self)
        hwithin.1 fun path hpath => hrefers ⟨path, hpath ▸ List.mem_cons_self⟩
      refine .cons ⟨hanswer, fun key hkey => htwins.kept hsuits hkey⟩ ?_
      exact ih htwins (fun r' hr' => houtside r' (List.mem_cons_of_mem _ hr')) hwithin.2
        fun ⟨path, hpath⟩ => hrefers ⟨path, List.mem_cons_of_mem _ hpath⟩

end Twins

/-- A session with a memory. -/
def startInMemory (modules : Modules) (settings : Settings) (base : Option Path) : Session :=
  start modules { settings with cacheDirectory := none } base

/-- A session with a directory. -/
def startInDirectory (d : Path) (modules : Modules) (settings : Settings) (base : Option Path) :
    Session :=
  start modules { settings with cacheDirectory := some d } base

theorem twins_start {keys : String → Prop} {models : ClassModel MethodModel → Prop}
    {modules : Modules} {d : Path} {place : Place} (hvalid : modules.Valid)
    (hshelf : Cache.Shelf keys models) (hvacant : modules.tree.Vacant d place)
    (settings : Settings) (base : Option Path) :
    Twins keys models modules.tree d place base (startInMemory modules settings base)
      (startInDirectory d modules settings base) [] := by
  have hmemory : Ready keys models modules.tree (startInMemory modules settings base) [] :=
    ready_start hvalid fun _ _ h => absurd h (by simp)
  have hdirectory :
      Ready keys models modules.tree (startInDirectory d modules settings base) [] := by
    refine ready_start hvalid fun _ d' hd => ?_
    obtain rfl := Option.some.inj hd
    exact ⟨hshelf, place, hvacant⟩
  exact ⟨hmemory, hdirectory, rfl, rfl, rfl, rfl, rfl, Tree.Stocked.refl _ _ _, rfl, rfl,
    fun _ => ⟨rfl, rfl⟩⟩

/-- A session with a memory and a session with a directory, over the same files
and with the same settings, answer the same to whatever they are asked, one
request after the other, with the same failures, and after each request they
keep equal models.

The directory is empty at first; the classes that are found have names with
files of their own there, and models that can be stored.  The sources do not
change meanwhile: what is scanned and shown is not what the sessions write, so
no path that is asked for is a file of the cache, and no handbook refers to one. -/
theorem trace_memory_directory (t : Tree) (outside : Outside) (paths : List Place)
    (settings : Settings) (base : Option Path) {d : Path} {keys : String → Prop}
    (hsuits : Cache.Suits t d keys) (rs : List Request)
    (hwithin : Within keys ClassModel.Storable
      (startInMemory (Modules.start t outside paths) settings base) rs)
    (houtside : ∀ r ∈ rs, t.Outside d keys (Path.ofText r.path))
    (hrefers : (∃ path, Request.handbook path ∈ rs) →
      Within keys (fun c => Description.ReferTo
          (fun text => t.Outside d keys (referencePath base text)) c.descriptions)
        (startInMemory (Modules.start t outside paths) settings base) rs) :
    List.Forall₂ (fun a b => a.1 = b.1 ∧ ∀ key, keys key → a.2.kept key = b.2.kept key)
      ((startInMemory (Modules.start t outside paths) settings base).trace rs)
      ((startInDirectory d (Modules.start t outside paths) settings base).trace rs) := by
  obtain ⟨place, hvacant⟩ := hsuits.vacant
  have hkeep := keepable_admitted True (∃ path, Request.handbook path ∈ rs)
    fun text => t.Outside d keys (referencePath base text)
  have htwins := twins_start (Modules.valid_start t outside paths)
    (hsuits.shelf (P := ClassModel.Admitted True (∃ path, Request.handbook path ∈ rs)
      fun text => t.Outside d keys (referencePath base text)) fun c hc => hc.1 trivial)
    hvacant settings base
  refine htwins.trace hsuits hkeep hvacant houtside ?_ fun hhandbook c hc => hc.2.2.2 hhandbook
  refine htwins.memory.within_collected hkeep ?_
  by_cases hhandbook : ∃ path, Request.handbook path ∈ rs
  · exact (hwithin.and (hrefers hhandbook)).mono (fun _ h => h)
      fun c hc => ⟨fun _ => hc.1, fun _ => hc.2⟩
  · exact hwithin.mono (fun _ h => h) fun c hc => ⟨fun _ => hc, fun h => absurd h hhandbook⟩

/-- Two controllers of one group, of which only the second one says how to
authorize, and an empty directory. -/
def sharedTree : Tree :=
  let group : TagSpec := .make "ApiGroup" [("group_name", .string "g")]
  let api : TagSpec := .make "Api" [("name", .string "one"), ("path", .string "/one")]
  let first : ClassDecl := .mk "A" [] [[group]] [.function "one" [[api]]]
  let second : ClassDecl :=
    .mk "B" [] [[group, .make "ApiGroupAuth" [("name", .string "tok")]]] []
  ⟨[], [(["cache"], .directory),
    (["m.py"], .file (.program ⟨[.define first true, .define second true], false⟩))]⟩

theorem suits_sharedTree : Cache.Suits sharedTree ⟨.here, ["cache"]⟩ (· ∈ ["m.A", "m.B"]) := by
  refine ⟨⟨["cache"], rfl, fun name => rfl, by decide, by decide⟩, ?_, ?_⟩
  · have hapart : ∀ a ∈ ["m.A", "m.B"], ∀ b ∈ ["m.A", "m.B"],
        Cache.fileName a = Cache.fileName b → a = b := by decide
    exact fun a b ha hb => hapart a ha b hb
  · have hshort : ∀ key ∈ ["m.A", "m.B"], (Cache.fileName key).utf8ByteSize ≤ Tree.nameLimit := by
      decide
    exact hshort

/-- A session with a memory over these files. -/
def sharedSession : Session :=
  startInMemory (Modules.start sharedTree .nowhere [[]]) Settings.default none

/-- A scan without merging, the routes, and a handbook. -/
def sharedRequests : List Request :=
  [.scan "m.py" false, .routes "m.py" none, .handbook "m.py"]

theorem storable_sharedSession :
    Within (· ∈ ["m.A", "m.B"]) ClassModel.Storable sharedSession sharedRequests := by
  decide +kernel

theorem refers_sharedSession :
    Within (· ∈ ["m.A", "m.B"])
      (fun c => Description.ReferTo (fun text => sharedTree.Outside ⟨.here, ["cache"]⟩
        (· ∈ ["m.A", "m.B"]) (referencePath none text)) c.descriptions)
      sharedSession sharedRequests := by
  decide +kernel

theorem outside_sharedTree : ∀ r ∈ sharedRequests,
    sharedTree.Outside ⟨.here, ["cache"]⟩ (· ∈ ["m.A", "m.B"]) (Path.ofText r.path) := by
  decide +kernel

theorem trace_memory_directory_shared :
    List.Forall₂
      (fun a b => a.1 = b.1 ∧ ∀ key ∈ ["m.A", "m.B"], a.2.kept key = b.2.kept key)
      (sharedSession.trace sharedRequests)
      ((startInDirectory ⟨.here, ["cache"]⟩ (Modules.start sharedTree .nowhere [[]])
        Settings.default none).trace sharedRequests) :=
  trace_memory_directory sharedTree .nowhere [[]] Settings.default none suits_sharedTree
    sharedRequests storable_sharedSession outside_sharedTree fun _ => refers_sharedSession

/-! ## What only a directory has -/

/-- A class that is described by the file that a directory keeps for it. -/
def mirrorTree : Tree :=
  let description : TagSpec := .make "ApiGroupDescription"
    [("value", .string "cache/m.A_B.json"), ("type", .string "file")]
  let mirror : ClassDecl := .mk "A_B" [] [[description]] []
  ⟨[], [(["cache"], .directory), (["m.py"], .file (.program ⟨[.define mirror true], false⟩))]⟩

/-- The description of the class. -/
def mirrorDescription : Description := ⟨.string "cache/m.A_B.json", .file⟩

/-- The model of the class. -/
def mirrorModel : ClassModel MethodModel :=
  ⟨"m.A_B", ⟨some ⟨"default"⟩, some mirrorDescription, []⟩, [], []⟩

/-- The one group. -/
def mirrorGroups : Entries (MergedGroup MethodModel) :=
  [("default", ⟨"default", some mirrorDescription, [], []⟩)]

/-- A session with a memory over these files. -/
def mirrorInMemory : Session :=
  startInMemory (Modules.start mirrorTree .nowhere [[]]) Settings.default none

/-- A session with a directory over these files. -/
def mirrorInDirectory : Session :=
  startInDirectory ⟨.here, ["cache"]⟩ (Modules.start mirrorTree .nowhere [[]]) Settings.default none

/-- The file of the class. -/
def mirrorScan : Request := .scan "m.py" false

/-- The file that a directory keeps for the class. -/
def mirrorEntry : Request := .scan "./cache/m.A_B.json" false

theorem suits_mirrorTree : Cache.Suits mirrorTree ⟨.here, ["cache"]⟩ (· ∈ ["m.A_B"]) := by
  refine ⟨⟨["cache"], rfl, fun name => rfl, by decide, by decide⟩, fun a b ha hb _ => ?_, ?_⟩
  · exact (List.mem_singleton.mp ha).trans (List.mem_singleton.mp hb).symm
  · intro key hkey
    obtain rfl := List.mem_singleton.mp hkey
    decide

theorem lookup_mirrorEntry :
    (mirrorInDirectory.after [mirrorScan]).tree.lookup (Path.ofText "./cache/m.A_B.json")
      = .found ["cache", "m.A_B.json"] (.file (Cache.fileOf mirrorModel)) := rfl

/-- A key that has the file name of another one, though nothing was kept under it. -/
theorem kept_mirror : (mirrorInMemory.after [mirrorScan]).kept "m.A B" = .ok none ∧
    (mirrorInDirectory.after [mirrorScan]).kept "m.A B" = .ok (some mirrorModel) := by
  refine ⟨rfl, ?_⟩
  have hvalid : mirrorModel.Valid := by decide
  have hfile : Path.child ⟨.here, ["cache"]⟩ (Cache.fileName "m.A B")
      = Path.ofText "./cache/m.A_B.json" := rfl
  show Cache.load (mirrorInDirectory.after [mirrorScan]).tree ⟨.here, ["cache"]⟩ "m.A B" = _
  rw [Cache.load_eq, hfile, lookup_mirrorEntry, Cache.answer_fileOf]
  exact Cache.decode_encode hvalid (Cache.read?_encode rfl rfl)

/-- What is kept of the class declares none. -/
theorem classNames_mirrorModel : Code.classNames (Cache.encode mirrorModel) = .ok [] := by
  apply Discover.classNames_of_toList
  case htext =>
    -- In pieces: the text as a whole is too long to be taken apart character by character.
    simp only [Cache.encode, Json.print, Json.write, Json.writeFields, Json.quoted,
      String.toList_append, String.toList_ofList, mirrorModel, mirrorDescription, Model.classData,
      Model.groupData, Model.orNull, Model.descriptionData, Description.fields, Group.fields,
      Entries.mapValues, List.map]
    rfl
  case h => decide +kernel

/-- A path of a file that declares no class. -/
theorem answer_scan_of_classless {s : Session} {path text : String} {place : Place}
    {data : ByteArray}
    (hp : s.tree.lookup (Path.ofText path) = .found place (.file (.bytes data)))
    (htext : (Content.bytes data).text = .ok text) (hnames : Code.classNames text = .ok [])
    (merging : Bool) : (exec (Request.scan path merging).run s).1 = .ok (.models []) :=
  answer_scan_of_nil (congrArg Prod.fst (Discover.exec_classes_of_nil hp htext hnames)) merging

/-- A path that leads to no file in one session, and to what is kept in the other one. -/
theorem answer_mirrorEntry :
    (exec mirrorEntry.run (mirrorInMemory.after [mirrorScan])).1 = .error .wrongType ∧
      (exec mirrorEntry.run (mirrorInDirectory.after [mirrorScan])).1 = .ok (.models []) := by
  constructor
  · have hsplits : Splits "./cache/m.A_B.json" "./cache/m.A_B" "json" :=
      ⟨rfl, by decide, by decide, by decide⟩
    have hstart : "./cache/m.A_B".startsWith "." = true := (startsWith_iff _ _).mpr (by decide)
    have hrelative : Discover.IsRelative "./cache/m.A_B.json" := ⟨_, _, hsplits, hstart⟩
    refine answer_scan_of_error ?_ false
    exact congrArg Prod.fst
      (Discover.exec_classes_of_probe rfl (Discover.exec_importClass_of_relative hrelative))
  · exact answer_scan_of_classless lookup_mirrorEntry (Cache.text_fileOf _) classNames_mirrorModel
      false

/-- The handbook of the group around the text of its description. -/
theorem markdown_mirrorGroups : ∃ opening ending : String,
    ∀ (files : Handbook.References) (text : String),
      Handbook.describe files mirrorDescription = .ok text →
        Handbook.markdown ⟨Settings.default.marker, files⟩ mirrorGroups
          = .ok (opening ++ Handbook.orElse text "No description" ++ ending) := by
  refine ⟨Handbook.groupHeading "default" ++
      "<h3 class='group-description'>Group Description</h3>" ++ Handbook.blockEnd,
    Handbook.blockEnd ++ "<hr class='group-hr'/>" ++ Handbook.blockEnd ++
      "<hr class='method-hr'/>" ++ Handbook.blockEnd, fun files text htext => ?_⟩
  have hskipped : Handbook.skipped Settings.default.marker "default" = false := by decide
  simp [Handbook.markdown, mirrorGroups, hskipped, Handbook.groupSection,
    Handbook.groupDescription, htext, Handbook.groupAuth, String.append_assoc]

theorem handbook_mirrorInMemory :
    (exec (Request.handbook "m.py").run mirrorInMemory).1
      = (Handbook.markdown ⟨Settings.default.marker, fileReference mirrorTree none⟩
          mirrorGroups).map .handbook := rfl

theorem handbook_mirrorInDirectory :
    (exec (Request.handbook "m.py").run mirrorInDirectory).1
      = (Handbook.markdown ⟨Settings.default.marker,
          fileReference (mirrorInDirectory.after [.scan "m.py" true]).tree none⟩
          mirrorGroups).map .handbook := rfl

/-- A handbook that refers to what is kept has no text for it in one session, and that of the
model in the other one. -/
theorem handbook_mirror : (exec (Request.handbook "m.py").run mirrorInMemory).1
    ≠ (exec (Request.handbook "m.py").run mirrorInDirectory).1 := by
  obtain ⟨opening, ending, hmarkdown⟩ := markdown_mirrorGroups
  let kept := (mirrorInDirectory.after [.scan "m.py" true]).tree
  have hmemory : Handbook.describe (fileReference mirrorTree none) mirrorDescription = .ok "" :=
    Handbook.describe_file rfl rfl
  have hdirectory : Handbook.describe (fileReference kept none) mirrorDescription
      = .ok (Json.print .document (Model.classData mirrorModel)) := by
    have hshown : Handbook.describe (fileReference kept none) mirrorDescription
        = .ok (Handbook.formOfText (Cache.fileOf mirrorModel).textLenient) :=
      Handbook.describe_file rfl rfl
    rwa [Cache.textLenient_fileOf, Cache.formOfText_encode rfl rfl] at hshown
  rw [handbook_mirrorInMemory, handbook_mirrorInDirectory, hmarkdown _ _ hmemory,
    hmarkdown _ _ hdirectory]
  -- The data of a model is an object, so its text does not start as the other one does.
  obtain ⟨rest, hrest⟩ : ∃ rest, Json.print .document (Model.classData mirrorModel)
      = "\x7b" ++ rest := by
    unfold Model.classData Json.print Json.write
    simp only [String.append_assoc]
    exact ⟨_, rfl⟩
  have hne : "\x7b" ++ rest ≠ "" := by simp
  intro h
  injection h with h
  injection h with h
  rw [String.append_left_inj, String.append_right_inj, hrest, Handbook.orElse, Handbook.orElse,
    if_pos rfl, if_neg hne] at h
  have hfirst := congrArg (fun text : String => text.toList.head?) h
  rw [String.toList_append] at hfirst
  exact absurd hfirst (by simp)

/-- Keys, paths and descriptions that lead to the file of another name, or to a file of the
cache at all, tell the two caches apart. -/
theorem trace_memory_directory_astray :
    Cache.Suits mirrorTree ⟨.here, ["cache"]⟩ (· ∈ ["m.A_B"]) ∧
      Within (· ∈ ["m.A_B"]) ClassModel.Storable mirrorInMemory [mirrorScan, mirrorEntry] ∧
      Within (· ∈ ["m.A_B"]) ClassModel.Storable mirrorInMemory [.handbook "m.py"] ∧
      ((mirrorInMemory.after [mirrorScan]).kept "m.A B" = .ok none ∧
        (mirrorInDirectory.after [mirrorScan]).kept "m.A B" = .ok (some mirrorModel)) ∧
      ((exec mirrorEntry.run (mirrorInMemory.after [mirrorScan])).1 = .error .wrongType ∧
        (exec mirrorEntry.run (mirrorInDirectory.after [mirrorScan])).1 = .ok (.models [])) ∧
      (exec (Request.handbook "m.py").run mirrorInMemory).1
        ≠ (exec (Request.handbook "m.py").run mirrorInDirectory).1 :=
  ⟨suits_mirrorTree, by decide +kernel, by decide +kernel, kept_mirror, answer_mirrorEntry,
    handbook_mirror⟩

end Session
end Routebook
