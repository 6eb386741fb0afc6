/-
  Routebook.Proofs.Modules.Standing

  Where the modules of a table come from.  What a name stands for can be told
  before anything is loaded (`Stands`): the module that is loaded under it, or
  else what is found for it at the top or inside the package around it.

  Importing by name only adds to a table: every module that is loaded stays
  where it comes from, and every new one comes from where its name stood
  (`Extends`).  The relation is reflexive and transitive, so it is carried
  through importing step by step, in the order of the definitions
  (`grows_take` to `grows_module`).  Running a file under a given name is the
  one step that looks at no name at all (`file_ends`).
-/
import Routebook.Proofs.Modules.Importing

namespace Routebook

open Steps

/-! ## Origins -/

/-- Where a module comes from, and where the modules inside it are looked for. -/
structure Origin where
  locations : List Place
  searchIn : Option (List Place)

/-- The origin of a loaded module. -/
def LoadedModule.origin (l : LoadedModule) : Origin := ⟨l.locations, l.searchIn⟩

/-- The origin of what is loaded from a source. -/
def ModuleSource.origin (s : ModuleSource) : Origin := ⟨s.locations, s.searchIn⟩

namespace Modules

/-- The origin of the module under a name, if one is loaded. -/
def origin? (m : Modules) (name : String) : Option Origin :=
  (Entries.get? name m.loaded).map LoadedModule.origin

section Origin

variable (m : Modules) (name key : String)

theorem has_eq_isSome_origin? : Entries.has name m.loaded = (m.origin? name).isSome := by
  unfold Entries.has origin?
  rw [Option.isSome_map]

theorem isLoadedFrom_iff {m : Modules} {name : String} {place : Place} :
    m.isLoadedFrom name place = true ↔ ∃ o, m.origin? name = some o ∧ place ∈ o.locations := by
  unfold isLoadedFrom origin?
  cases Entries.get? name m.loaded with
  | none => simp
  | some l => simp [LoadedModule.origin]

theorem origin?_register (l : LoadedModule) :
    (m.register name l).origin? key = if key = name then some l.origin else m.origin? key := by
  unfold origin? register
  rw [Entries.get?_put]
  split <;> rfl

theorem origin?_forget :
    (m.forget name).origin? key = if key = name then none else m.origin? key := by
  unfold origin? forget
  rw [Entries.get?_erase]
  split <;> rfl

theorem origin?_modify {f : LoadedModule → LoadedModule} (hf : ∀ l, (f l).origin = l.origin) :
    origin? { m with loaded := Entries.modify name f m.loaded } key = m.origin? key := by
  unfold origin?
  rw [Entries.get?_modify]
  split
  · rw [Option.map_map]
    exact congrArg (fun g => Option.map g _) (funext hf)
  · rfl

@[simp] theorem origin?_bind (inner : String) (b : Binding) :
    (m.bind name inner b).origin? key = m.origin? key :=
  m.origin?_modify name key fun _ => rfl

@[simp] theorem origin?_unbind (inner : String) :
    (m.unbind name inner).origin? key = m.origin? key :=
  m.origin?_modify name key fun _ => rfl

/-- What a module is loaded from depends on the package around it through its origin alone. -/
theorem sourceOf?_eq : m.sourceOf? name =
    if (Naming.cutLast name).1 = "" then m.findTop? name
    else ((m.origin? (Naming.cutLast name).1).bind Origin.searchIn).bind
      (m.find? name (Naming.cutLast name).2) := by
  show (if (Naming.cutLast name).1 = "" then m.findTop? name
    else ((Entries.get? (Naming.cutLast name).1 m.loaded).bind LoadedModule.searchIn).bind
      (m.find? name (Naming.cutLast name).2)) = _
  unfold origin?
  cases Entries.get? (Naming.cutLast name).1 m.loaded <;> rfl

end Origin

end Modules

/-! ## What a name stands for -/

/-- The origin of the module that a name stands for: of the one that is loaded, or
of what would be loaded. -/
inductive Stands (m : Modules) : String → Origin → Prop
  | loaded {name : String} {o : Origin} (h : m.origin? name = some o) : Stands m name o
  | top {name : String} {s : ModuleSource} (hnew : m.origin? name = none)
      (htop : (Naming.cutLast name).1 = "") (hs : m.findTop? name = some s) :
      Stands m name s.origin
  | inner {name : String} {o : Origin} {places : List Place} {s : ModuleSource}
      (hnew : m.origin? name = none) (hin : (Naming.cutLast name).1 ≠ "")
      (hparent : Stands m (Naming.cutLast name).1 o) (hplaces : o.searchIn = some places)
      (hs : m.find? name (Naming.cutLast name).2 places = some s) :
      Stands m name s.origin

theorem Stands.unique {m : Modules} {name : String} {o o' : Origin} (h : Stands m name o)
    (h' : Stands m name o') : o = o' := by
  -- A loaded name has its origin; any other is found at the top or in its parent, never in both.
  induction h generalizing o' with
  | loaded h =>
      cases h' with
      | loaded h' => exact Option.some.inj (h.symm.trans h')
      | top hnew _ _ | inner hnew _ _ _ _ => exact absurd (h.symm.trans hnew) nofun
  | top hnew htop hs =>
      cases h' with
      | loaded h' => exact absurd (hnew.symm.trans h') nofun
      | top _ _ hs' => exact congrArg _ (Option.some.inj (hs.symm.trans hs'))
      | inner _ hin _ _ _ => exact absurd htop hin
  | inner hnew hin _ hplaces hs ih =>
      cases h' with
      | loaded h' => exact absurd (hnew.symm.trans h') nofun
      | top _ htop _ => exact absurd htop hin
      | inner _ _ hparent' hplaces' hs' =>
          obtain rfl := ih hparent'
          obtain rfl := Option.some.inj (hplaces.symm.trans hplaces')
          exact congrArg _ (Option.some.inj (hs.symm.trans hs'))

/-- What is loaded for a new name is what the name stands for. -/
theorem stands_of_sourceOf? {m : Modules} {name : String} {s : ModuleSource}
    (hnew : m.origin? name = none) (hs : m.sourceOf? name = some s) : Stands m name s.origin := by
  rw [m.sourceOf?_eq name] at hs
  split at hs
  · next htop => exact .top hnew htop hs
  · next hin =>
      obtain ⟨places, hplaces, hs⟩ := Option.bind_eq_some_iff.mp hs
      obtain ⟨o, ho, hplaces⟩ := Option.bind_eq_some_iff.mp hplaces
      exact .inner hnew hin (.loaded ho) hplaces hs

/-! ## Tables that extend a table -/

/-- The second table has all modules of the first one, from where they come, and
new ones come from where their names stood. -/
structure Extends (m m' : Modules) : Prop where
  tree : m'.tree = m.tree
  outside : m'.outside = m.outside
  paths : m'.paths = m.paths
  stays : ∀ name o, m.origin? name = some o → m'.origin? name = some o
  stands : ∀ name o, m'.origin? name = some o → Stands m name o

namespace Extends

variable {m m' m'' : Modules}

/-- A change that leaves all origins as they are. -/
theorem of_origin? (htree : m'.tree = m.tree) (houtside : m'.outside = m.outside)
    (hpaths : m'.paths = m.paths) (h : ∀ name, m'.origin? name = m.origin? name) : Extends m m' :=
  ⟨htree, houtside, hpaths, fun name _ ho => (h name).trans ho,
    fun name _ ho => .loaded ((h name).symm.trans ho)⟩

theorem refl (m : Modules) : Extends m m := of_origin? rfl rfl rfl fun _ => rfl

theorem origin?_eq_none (h : Extends m m') {name : String} (hnew : m'.origin? name = none) :
    m.origin? name = none := by
  cases hm : m.origin? name with
  | none => rfl
  | some o => exact absurd ((h.stays name o hm).symm.trans hnew) nofun

theorem find?_eq (h : Extends m m') (name last : String) (places : List Place) :
    m'.find? name last places = m.find? name last places := by
  unfold Modules.find?
  rw [h.tree, h.outside]

theorem findTop?_eq (h : Extends m m') (name : String) : m'.findTop? name = m.findTop? name := by
  unfold Modules.findTop?
  rw [h.paths, h.find?_eq]

/-- What a name stands for in the larger table, it stood for before. -/
theorem stands_of_stands (h : Extends m m') {name : String} {o : Origin}
    (hs : Stands m' name o) : Stands m name o := by
  induction hs with
  | loaded ho => exact h.stands _ _ ho
  | top hnew htop hs => exact .top (h.origin?_eq_none hnew) htop (h.findTop?_eq _ ▸ hs)
  | inner hnew hin _ hplaces hs ih =>
      exact .inner (h.origin?_eq_none hnew) hin ih hplaces (h.find?_eq _ _ _ ▸ hs)

theorem trans (h : Extends m m') (h' : Extends m' m'') : Extends m m'' where
  tree := h'.tree.trans h.tree
  outside := h'.outside.trans h.outside
  paths := h'.paths.trans h.paths
  stays name o ho := h'.stays name o (h.stays name o ho)
  stands name o ho := h.stands_of_stands (h'.stands name o ho)

theorem ne_of_origin? {key name : String} {o : Origin} (hnew : m.origin? name = none)
    (ho : m.origin? key = some o) : key ≠ name := by
  rintro rfl
  exact absurd (hnew.symm.trans ho) nofun

/-- A new module that comes from where its name stands. -/
theorem register {name : String} (hnew : m.origin? name = none) {l : LoadedModule}
    (hstands : Stands m name l.origin) : Extends m (m.register name l) := by
  refine ⟨rfl, rfl, rfl, fun key o ho => ?_, fun key o ho => ?_⟩
  · rw [m.origin?_register, if_neg (ne_of_origin? hnew ho), ho]
  · rw [m.origin?_register] at ho
    split at ho
    · next heq => exact heq ▸ Option.some.inj ho ▸ hstands
    · exact .loaded ho

/-- A module that was not there before may be taken out again. -/
theorem forget (h : Extends m m') {name : String} (hnew : m.origin? name = none) :
    Extends m (m'.forget name) := by
  refine ⟨h.tree, h.outside, h.paths, fun key o ho => ?_, fun key o ho => ?_⟩
  · rw [m'.origin?_forget, if_neg (ne_of_origin? hnew ho)]
    exact h.stays key o ho
  · rw [m'.origin?_forget] at ho
    split at ho
    · exact absurd ho nofun
    · exact h.stands key o ho

end Extends

namespace Import

/-! ## Steps that only add -/

/-- Whatever the outcome, a step of loading leaves a table that extends the one
it started from. -/
def Grows (x : Load α) : Prop := ∀ m, Extends m (exec x m).2

section Rules

variable {m : Modules}

theorem grows_pure (a : α) : Grows (pure a : Load α) := fun m => Extends.refl m

theorem grows_throw (e : Failure) : Grows (throw e : Load α) := fun m => Extends.refl m

theorem extends_bind {x : Load α} {f : α → Load β} (hx : Extends m (exec x m).2)
    (hf : ∀ a, Grows (f a)) : Extends m (exec (x >>= f) m).2 := by
  rw [exec_bind]
  generalize exec x m = r at hx ⊢
  rcases r with ⟨e | a, m'⟩
  · exact hx
  · exact hx.trans (hf a m')

theorem grows_bind {x : Load α} {f : α → Load β} (hx : Grows x) (hf : ∀ a, Grows (f a)) :
    Grows (x >>= f) := fun m => extends_bind (hx m) hf

/-- A step that goes on with the table as it is. -/
theorem grows_get {f : Modules → Load β} (hf : ∀ m, Extends m (exec (f m) m).2) :
    Grows (get >>= f) := fun m => by
  rw [exec_bind_of_ok (exec_get m)]
  exact hf m

theorem grows_modify {f : Modules → Modules} (hf : ∀ m, Extends m (f m)) :
    Grows (modify f : Load PUnit) := hf

theorem grows_tryCatch {x : Load α} {h : Failure → Load α} (hx : Grows x)
    (hh : ∀ e, Grows (h e)) : Grows (tryCatch x h) := by
  intro m
  have hfirst := hx m
  rw [exec_tryCatch]
  generalize exec x m = r at hfirst ⊢
  rcases r with ⟨e | a, m'⟩
  · exact hfirst.trans (hh e m')
  · exact hfirst

theorem grows_forM {f : α → Load PUnit} (as : List α) (h : ∀ a, Grows (f a)) :
    Grows (as.forM f) := by
  induction as with
  | nil => exact grows_pure _
  | cons a as ih => exact grows_bind (h a) fun _ => ih

theorem grows_lift (r : Outcome α) : Grows (lift r) := by
  cases r with
  | ok a => exact grows_pure a
  | error e => exact grows_throw e

theorem grows_bindName (module name : String) (b : Binding) :
    Grows (modify (Modules.bind module name b)) :=
  grows_modify fun m => .of_origin? rfl rfl rfl fun key => m.origin?_bind module key name b

theorem grows_unbind (module name : String) : Grows (modify (Modules.unbind module name)) :=
  grows_modify fun m => .of_origin? rfl rfl rfl fun key => m.origin?_unbind module key name

theorem grows_attribute (module name : String) : Grows (attribute? module name) :=
  grows_get fun m => Extends.refl m

theorem grows_takeInner (module name : String) : Grows (takeInner module name) := by
  refine grows_bind (grows_attribute module name) fun b => ?_
  cases b with
  | some b => exact grows_pure b
  | none =>
      refine grows_get fun m => ?_
      split
      · exact grows_pure _ m
      · exact grows_throw _ m

end Rules

/-! ## The statements of a module -/

section Statements

variable {importModule : String → Load Unit} (himport : ∀ name, Grows (importModule name))
include himport

theorem grows_take (module name : String) : Grows (take importModule module name) := by
  refine grows_bind (grows_attribute module name) fun b => ?_
  cases b with
  | some b => exact grows_pure b
  | none =>
      refine grows_get fun m => ?_
      dsimp only
      split
      · refine grows_bind (grows_tryCatch (himport _) fun e => ?_)
          (fun _ => grows_takeInner module name) m
        cases e with
        | noModule missing =>
            dsimp only
            split
            · exact grows_pure _
            · exact grows_throw _
        | _ => exact grows_throw _
      · exact grows_takeInner module name m

theorem grows_runItem (module : String) (postponed : Bool) (item : Item) :
    Grows (runItem importModule module postponed item) := by
  cases item with
  | define decl topLevel =>
      refine grows_get fun m => grows_bind (grows_lift _) (fun r => ?_) m
      have hworld : Grows (modify fun m => { m with world := r.1 } : Load PUnit) :=
        grows_modify fun m => .of_origin? rfl rfl rfl fun _ => rfl
      exact grows_bind hworld fun _ => grows_bindName module decl.name _
  | importFrom name source =>
      refine grows_get fun m => grows_bind (grows_lift _) (fun full => ?_) m
      refine grows_bind (himport full) fun _ => ?_
      exact grows_bind (grows_take himport full name) fun b => grows_bindName module name b
  | assign name value =>
      cases value with
      | number => exact grows_bindName module name _
      | name other =>
          refine grows_get fun m => ?_
          split
          · exact grows_bindName module name _ m
          · exact grows_throw _ m
  | delete name =>
      refine grows_get fun m => ?_
      split
      · exact grows_unbind module name m
      · exact grows_throw _ m
  | stop why => exact grows_throw _

/-- A module that runs through leaves a larger table; one that fails leaves such a
table without itself. -/
theorem runProgram_ends (module : String) (p : Program) (m : Modules) :
    (∃ m', exec (runProgram importModule module p) m = (.ok ⟨⟩, m') ∧ Extends m m') ∨
      ∃ e m', exec (runProgram importModule module p) m = (.error e, m'.forget module) ∧
        Extends m m' := by
  have hitems : Grows (p.items.forM (runItem importModule module p.postponed)) :=
    grows_forM _ fun item => grows_runItem himport module _ item
  have hrun := hitems m
  unfold runProgram
  rw [exec_tryCatch]
  generalize exec (p.items.forM (runItem importModule module p.postponed)) m = r at hrun ⊢
  rcases r with ⟨e | ⟨⟩, m'⟩
  · exact .inr ⟨e, m', rfl, hrun⟩
  · exact .inl ⟨m', rfl, hrun⟩

end Statements

/-! ## Loading a module -/

/-- The file that a source stands for is there. -/
def IsThere (t : Tree) : ModuleSource → Prop
  | .package d => t.isFileAt (d ++ [Naming.packageFile]) = true
  | .file place => t.isFileAt place = true
  | .directories _ => True
  | .outside _ => True

theorem isThere_find? {t : Tree} {name : String} {portions places : List Place}
    {s : ModuleSource} (h : ModuleSource.find? t name portions places = some s) : IsThere t s := by
  induction places generalizing portions with
  | nil =>
      unfold ModuleSource.find? at h
      split at h
      · exact absurd h (by simp)
      · exact Option.some.inj h ▸ trivial
  | cons d rest ih =>
      unfold ModuleSource.find? at h
      dsimp only at h
      split at h
      · next hpackage => exact Option.some.inj h ▸ hpackage
      · split at h
        · next hfile => exact Option.some.inj h ▸ hfile
        · split at h <;> exact ih h

theorem isThere_modulesFind? {m : Modules} {name last : String} {places : List Place}
    {s : ModuleSource} (h : m.find? name last places = some s) : IsThere m.tree s := by
  unfold Modules.find? at h
  split at h
  · exact Option.some.inj h ▸ trivial
  · exact isThere_find? h

theorem isThere_sourceOf? {m : Modules} {name : String} {s : ModuleSource}
    (h : m.sourceOf? name = some s) : IsThere m.tree s := by
  rw [m.sourceOf?_eq name] at h
  split at h
  · exact isThere_modulesFind? h
  · obtain ⟨places, -, hs⟩ := Option.bind_eq_some_iff.mp h
    exact isThere_modulesFind? hs

section Loading

variable {importModule : String → Load Unit} (himport : ∀ name, Grows (importModule name))
include himport

/-- A file that is there runs, in a table with the blank module in it; if it fails, the
module leaves the table. -/
theorem runPlace_ends {m : Modules} {name : String} {s : ModuleSource} {place : Place}
    (hplace : m.tree.isFileAt place = true) :
    (∃ m', exec (runPlace importModule name s place) m = (.ok ⟨⟩, m') ∧
        Extends (m.register name (s.blank name)) m') ∨
      ∃ e m', exec (runPlace importModule name s place) m = (.error e, m'.forget name) ∧
        Extends (m.register name (s.blank name)) m' := by
  have hfile : ∃ content, m.tree.node? place = some (.file content) := by
    unfold Tree.isFileAt at hplace
    split at hplace
    · next content hcontent => exact ⟨content, hcontent⟩
    · exact absurd hplace nofun
  obtain ⟨content, hcontent⟩ := hfile
  have hnode : (m.register name (s.blank name)).tree.node? place = some (.file content) := hcontent
  unfold runPlace
  rw [exec_bind_of_ok (exec_modify _ m), exec_bind_of_ok (exec_get _), hnode]
  dsimp only
  cases content.statements with
  | ok p => exact runProgram_ends himport name p _
  | error e => exact .inr ⟨e, _, rfl, Extends.refl _⟩

/-- Loading ends in a table that extends the one with the blank module in it, without
that module if it fails. -/
theorem load_ends {m : Modules} (name : String) {s : ModuleSource} (hs : IsThere m.tree s) :
    (∃ m', exec (load importModule name s) m = (.ok ⟨⟩, m') ∧
        Extends (m.register name (s.blank name)) m') ∨
      ∃ e m', exec (load importModule name s) m = (.error e, m'.forget name) ∧
        Extends (m.register name (s.blank name)) m' := by
  cases s with
  | package d => exact runPlace_ends himport hs
  | file place => exact runPlace_ends himport hs
  | directories places => exact .inl ⟨_, rfl, Extends.refl _⟩
  | outside held =>
      cases held with
      | error e => exact .inr ⟨e, _, rfl, Extends.refl _⟩
      | ok names =>
          -- What such a module holds is no part of where it comes from.
          refine .inl ⟨_, rfl, .of_origin? rfl rfl rfl fun key => ?_⟩
          rw [Modules.origin?_register]
          split
          · next heq =>
              rw [Modules.origin?_register, if_pos heq]
              rfl
          · rfl

omit himport in
theorem extends_bound (name : String) (m : Modules) : Extends m (bound name m) := by
  unfold bound
  split
  · exact Extends.refl m
  · exact grows_bindName _ _ _ m

theorem grows_enter (name : String) : Grows (enter importModule name) := by
  intro m
  cases hloaded : Entries.has name m.loaded with
  | true =>
      rw [exec_enter_of_loaded hloaded]
      exact Extends.refl m
  | false =>
      cases hsource : m.sourceOf? name with
      | none =>
          rw [exec_enter_of_missing hloaded hsource]
          exact Extends.refl m
      | some s =>
          have hnew : m.origin? name = none := by
            rw [m.has_eq_isSome_origin? name] at hloaded
            exact Option.isSome_eq_false_iff.mp hloaded |> Option.isNone_iff_eq_none.mp
          -- A new module is registered before it runs, and a broken one is forgotten again.
          have hblank : Extends m (m.register name (s.blank name)) :=
            .register hnew (stands_of_sourceOf? hnew hsource)
          rcases load_ends himport name (isThere_sourceOf? hsource) with
            ⟨m', hload, hext⟩ | ⟨e, m', hload, hext⟩
          · rw [exec_enter_of_loads hloaded hsource hload]
            exact (hblank.trans hext).trans (extends_bound name m')
          · rw [exec_enter_of_broken hloaded hsource hload]
            exact (hblank.trans hext).forget hnew

end Loading

theorem grows_byName (depth : Nat) (name : String) : Grows (byName depth name) := by
  induction depth generalizing name with
  | zero => exact grows_throw _
  | succ depth ih => exact grows_get fun m => grows_forM _ (grows_enter ih) m

/-- Importing by name only adds modules, each from where its name stood. -/
theorem grows_module (name : String) : Grows (Import.module name) :=
  grows_get fun m => grows_byName (depthBound m) name m

theorem Enters.loaded_of_arrived {importModule : String → Load Unit}
    (himport : ∀ name, Grows (importModule name)) {names : List String} {m m' : Modules}
    (h : Enters importModule names m .arrived m') :
    Extends m m' ∧ ∀ name ∈ names, ∃ o, m'.origin? name = some o := by
  generalize he : Ending.arrived = e at h
  induction h with
  | done => exact ⟨Extends.refl _, fun _ hn => absurd hn List.not_mem_nil⟩
  | @loaded name rest m m' e hloaded hrest ih =>
      obtain ⟨hext, hall⟩ := ih he
      refine ⟨hext, List.forall_mem_cons.mpr ⟨?_, hall⟩⟩
      rw [m.has_eq_isSome_origin? name] at hloaded
      obtain ⟨o, ho⟩ := Option.isSome_iff_exists.mp hloaded
      exact ⟨o, hext.stays name o ho⟩
  | missing _ _ => exact absurd he nofun
  | broken _ _ _ => exact absurd he nofun
  | @entered name rest m m' m'' s e hnew hsource hload hrest ih =>
      obtain ⟨hext, hall⟩ := ih he
      have henter := grows_enter himport name m
      rw [exec_enter_of_loads hnew hsource hload] at henter
      refine ⟨henter.trans hext, List.forall_mem_cons.mpr ⟨?_, hall⟩⟩
      -- The module was registered before it ran, and nothing takes it out again.
      rcases load_ends himport name (isThere_sourceOf? hsource) with
        ⟨m₁, hload', hblank⟩ | ⟨why, m₁, hload', -⟩
      · obtain rfl : m₁ = m' := (Prod.mk.inj (hload'.symm.trans hload)).2
        have ho := hblank.stays name s.origin (by rw [m.origin?_register, if_pos rfl]; rfl)
        have hbound := (extends_bound name m₁).stays name s.origin ho
        exact ⟨s.origin, hext.stays name s.origin hbound⟩
      · exact absurd (Prod.mk.inj (hload'.symm.trans hload)).1 nofun

/-- A module that is not loaded is among those to be imported for it. -/
theorem mem_pending {m : Modules} {name : String} (hnew : Entries.has name m.loaded = false) :
    name ∈ pending m name := by
  unfold pending Naming.wayTo
  rw [List.mem_reverse, List.reverse_append, List.reverse_singleton, List.singleton_append,
    List.takeWhile_cons_of_pos (by simp [hnew])]
  exact List.mem_cons_self

/-- After an import that succeeds the module is loaded, from where its name stood. -/
theorem stands_of_module {m m' : Modules} {name : String}
    (h : exec (Import.module name) m = (.ok ⟨⟩, m')) :
    ∃ o, m'.origin? name = some o ∧ Stands m name o := by
  obtain ⟨e, m₁, himport⟩ := exists_imports m name
  obtain ⟨houtcome, rfl⟩ := Prod.mk.inj (himport.exec_module.symm.trans h)
  -- Of the three endings only arriving gives no failure.
  have harrived : e = .arrived := by
    cases e with
    | arrived => rfl
    | missing _ => exact absurd houtcome nofun
    | broken _ _ => exact absurd houtcome nofun
  subst harrived
  obtain ⟨hext, hall⟩ := Enters.loaded_of_arrived (grows_byName _) himport
  cases hloaded : Entries.has name m.loaded with
  | true =>
      rw [m.has_eq_isSome_origin? name] at hloaded
      obtain ⟨o, ho⟩ := Option.isSome_iff_exists.mp hloaded
      exact ⟨o, hext.stays name o ho, .loaded ho⟩
  | false =>
      obtain ⟨o, ho⟩ := hall name (mem_pending hloaded)
      exact ⟨o, ho, hext.stands name o ho⟩

/-! ## Running a file under a name -/

/-- What a file runs as under a name. -/
def sourceAs (name : String) (place : Place) : ModuleSource :=
  if place.getLast?.getD "" = Naming.packageFile ∧ (Naming.cutLast name).2 ≠ Naming.packageStem then
    .package place.dropLast
  else .file place

theorem dropLast_append_packageFile {place : Place}
    (h : place.getLast?.getD "" = Naming.packageFile) :
    place.dropLast ++ [Naming.packageFile] = place := by
  cases hlast : place.getLast? with
  | none =>
      rw [hlast] at h
      exact absurd h (by decide)
  | some last =>
      rw [hlast, Option.getD_some] at h
      exact h ▸ List.dropLast_append_getLast? last hlast

theorem mem_locations_sourceAs (name : String) (place : Place) :
    place ∈ (sourceAs name place).locations := by
  unfold sourceAs
  split
  · next h =>
      show place ∈ [place.dropLast ++ [Naming.packageFile], place.dropLast]
      rw [dropLast_append_packageFile h.1]
      exact List.mem_cons_self
  · exact List.mem_cons_self

theorem isThere_sourceAs {t : Tree} (name : String) {place : Place}
    (h : t.isFileAt place = true) : IsThere t (sourceAs name place) := by
  unfold sourceAs
  split
  · next hp =>
      show t.isFileAt (place.dropLast ++ [Naming.packageFile]) = true
      rwa [dropLast_append_packageFile hp.1]
  · exact h

theorem exec_file_of_loaded {m : Modules} {name : String} {place : Place}
    (h : m.isLoadedFrom name place = true) : exec (file name place) m = (.ok ⟨⟩, m) := by
  rw [file, exec_bind_of_ok (exec_get m), if_pos h]
  rfl

theorem exec_file_of_new {m : Modules} {name : String} {place : Place}
    (hnew : m.isLoadedFrom name place = false) (hpy : isModulePlace place = true) :
    exec (file name place) m = exec (load Import.module name (sourceAs name place)) m := by
  have hname : (place.getLast?.getD "").endsWith ".py" = true := hpy
  rw [file, exec_bind_of_ok (exec_get m), if_neg (by simp [hnew])]
  dsimp only
  rw [if_pos hname]
  rfl

/-- A file that is not loaded under a name runs under it, whatever the name stood for. -/
theorem file_ends {m : Modules} {name : String} {place : Place}
    (hnew : m.isLoadedFrom name place = false) (hfile : m.tree.isFileAt place = true)
    (hpy : isModulePlace place = true) :
    (∃ m', exec (file name place) m = (.ok ⟨⟩, m') ∧
        Extends (m.register name ((sourceAs name place).blank name)) m') ∨
      ∃ e m', exec (file name place) m = (.error e, m'.forget name) ∧
        Extends (m.register name ((sourceAs name place).blank name)) m' := by
  rw [exec_file_of_new hnew hpy]
  exact load_ends grows_module name (isThere_sourceAs name hfile)

end Import
end Routebook
