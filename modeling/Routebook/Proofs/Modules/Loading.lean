/-
  Routebook.Proofs.Modules.Loading

  What loading keeps, and what it depends on.  Loading never changes a file,
  and all tags it comes across stay in normal form (`Modules.Valid`).  It looks
  at files only to tell packages, module files and directories apart and to
  read them, so files that look alike in this (`Tree.LooksLike`) are loaded
  alike: the same outcome, and the same table of modules.

  Both are shown in one walk over the definitions of loading: `Same t t' Q x y`
  says that `x` over the files `t` and `y` over the files `t'` end alike, with
  an answer in `Q`, in tables that differ in the files alone.
-/
import Routebook.Modules.Import
import Routebook.Proofs.Controller.Tags
import Routebook.Proofs.Steps

namespace Routebook

/-! ## Tables of modules -/

/-- Everything that is loaded holds tags in normal form. -/
structure Modules.Valid (m : Modules) : Prop where
  world : m.world.Valid
  loaded : Entries.Each (fun _ l => Scope.Valid l.bindings) m.loaded

namespace Modules

variable {m : Modules}

/-- The same table over other files. -/
def withTree (t : Tree) (m : Modules) : Modules := { m with tree := t }

theorem valid_start (t : Tree) (outside : Outside) (paths : List Place) :
    (start t outside paths).Valid :=
  ⟨fun _ h => absurd h List.not_mem_nil, Entries.each_nil⟩

theorem Valid.register (h : m.Valid) (name : String) {l : LoadedModule}
    (hl : Scope.Valid l.bindings) : (m.register name l).Valid :=
  ⟨h.world, Entries.each_put h.loaded hl⟩

theorem Valid.forget (h : m.Valid) (name : String) : (m.forget name).Valid :=
  ⟨h.world, Entries.each_erase h.loaded⟩

/-- A change of the bindings of one module. -/
theorem each_rebind (h : m.Valid) (module : String) {f : Entries Binding → Entries Binding}
    (hf : ∀ scope, Scope.Valid scope → Scope.Valid (f scope)) :
    Entries.Each (fun _ l => Scope.Valid l.bindings)
      (Entries.modify module (fun l => { l with bindings := f l.bindings }) m.loaded) :=
  Entries.each_modify h.loaded fun l hl => hf l.bindings hl

theorem Valid.bind (h : m.Valid) (module name : String) {b : Binding} (hb : b.Valid) :
    (m.bind module name b).Valid :=
  ⟨h.world, each_rebind h module fun _ hscope => Entries.each_put hscope hb⟩

theorem Valid.unbind (h : m.Valid) (module name : String) : (m.unbind module name).Valid :=
  ⟨h.world, each_rebind h module fun _ hscope => Entries.each_erase hscope⟩

theorem Valid.bindingsOf (h : m.Valid) (module : String) : Scope.Valid (m.bindingsOf module) := by
  unfold Modules.bindingsOf
  cases hl : Entries.get? module m.loaded with
  | none => exact Entries.each_nil
  | some l => exact h.loaded.of_get? hl

theorem Valid.attribute? (h : m.Valid) {module name : String} {b : Binding}
    (hb : m.attribute? module name = some b) : b.Valid := by
  obtain ⟨l, hl, hb⟩ := Option.bind_eq_some_iff.mp hb
  have hscope : Scope.Valid l.bindings := h.loaded.of_get? hl
  -- Its class apart, what every module has is no tagged member.
  unfold LoadedModule.attribute? at hb
  split at hb
  · exact Option.some.inj hb ▸ trivial
  · split at hb
    · exact Option.some.inj hb ▸ trivial
    · split at hb
      · next b' hget => exact Option.some.inj hb ▸ hscope.of_get? hget
      · split at hb
        · exact Option.some.inj hb ▸ trivial
        · cases hb

theorem Valid.globals (h : m.Valid) :
    Entries.Each (fun _ scope => Scope.Valid scope) m.globals :=
  Entries.each_mapValues h.loaded fun _ _ hl => hl

end Modules

/-! ## Files that look alike -/

/-- Whether a place has the name of a module file. -/
def isModulePlace (place : Place) : Bool := (place.getLast?.getD "").endsWith ".py"

/-- Files in which importing finds the same modules. -/
structure Tree.LooksLike (t t' : Tree) : Prop where
  here : t'.here = t.here
  modules : ∀ place, isModulePlace place = true → t'.node? place = t.node? place
  directories : ∀ place, t'.isDirectoryAt place = t.isDirectoryAt place
  importable : (t'.nodes.filter Import.isImportable).length
    = (t.nodes.filter Import.isImportable).length

theorem Tree.LooksLike.refl (t : Tree) : t.LooksLike t := ⟨rfl, fun _ _ => rfl, fun _ => rfl, rfl⟩

theorem endsWith_iff (s t : String) : s.endsWith t = true ↔ t.toList <:+ s.toList := by
  have h := @String.Slice.endsWith_string_iff t s.toSlice
  rw [String.copy_toSlice] at h
  exact h

theorem startsWith_iff (s t : String) : s.startsWith t = true ↔ t.toList <+: s.toList := by
  have h := @String.Slice.startsWith_string_iff t s.toSlice
  rw [String.copy_toSlice] at h
  exact h

theorem isModulePlace_append_singleton (place : Place) (name : String) :
    isModulePlace (place ++ [name]) = name.endsWith ".py" := by
  unfold isModulePlace
  rw [List.getLast?_concat, Option.getD_some]

theorem endsWith_append_py (name : String) : (name ++ ".py").endsWith ".py" = true := by
  rw [endsWith_iff, String.toList_append]
  exact List.suffix_append _ _

theorem endsWith_packageFile : Naming.packageFile.endsWith ".py" = true := by
  rw [endsWith_iff]
  decide

namespace Tree.LooksLike

variable {t t' : Tree} (h : t.LooksLike t')
include h

theorem isFileAt {place : Place} (hplace : isModulePlace place = true) :
    t'.isFileAt place = t.isFileAt place := by
  unfold Tree.isFileAt
  rw [h.modules place hplace]

theorem isPackage (directory : Place) :
    Naming.isPackage t' directory = Naming.isPackage t directory := by
  refine h.isFileAt ?_
  rw [isModulePlace_append_singleton]
  exact endsWith_packageFile

theorem find? (name : String) (portions places : List Place) :
    ModuleSource.find? t' name portions places = ModuleSource.find? t name portions places := by
  induction places generalizing portions with
  | nil => rfl
  | cons d rest ih =>
      have hfile : t'.isFileAt (d ++ [name ++ ".py"]) = t.isFileAt (d ++ [name ++ ".py"]) := by
        refine h.isFileAt ?_
        rw [isModulePlace_append_singleton]
        exact endsWith_append_py name
      simp only [ModuleSource.find?, h.isPackage, hfile, h.directories, ih]

end Tree.LooksLike

/-! ## Loading side by side -/

namespace Import

open Steps

/-- Two tables in normal form that differ in the files alone. -/
structure Beside (t t' : Tree) (m m' : Modules) : Prop where
  tree : m.tree = t
  other : m' = m.withTree t'
  valid : m.Valid

/-- Over two files a step of loading ends alike, with an answer in `Q`. -/
def Same (t t' : Tree) (Q : α → Prop) (x : Load α) : Prop :=
  Alike (Beside t t') (Beside t t') (fun a b m m' => b = a ∧ Q a ∧ Beside t t' m m') x x

/-- What a step of loading leaves: the same outcome over both files, and tables
in normal form over the files it was given. -/
theorem Same.exec {t t' : Tree} {Q : α → Prop} {x : Load α} (h : Same t t' Q x) {m : Modules}
    (htree : m.tree = t) (hm : m.Valid) :
    Steps.exec x (m.withTree t') = ((Steps.exec x m).1, (Steps.exec x m).2.withTree t') ∧
      (Steps.exec x m).2.tree = t ∧ (Steps.exec x m).2.Valid ∧
      ∀ a, (Steps.exec x m).1 = .ok a → Q a := by
  have hends := h m (m.withTree t') ⟨htree, rfl, hm⟩
  generalize Steps.exec x m = r at hends ⊢
  generalize Steps.exec x (m.withTree t') = r' at hends ⊢
  rcases r with ⟨e | a, s⟩ <;> rcases r' with ⟨e' | b, s'⟩
  · obtain ⟨rfl, htree, rfl, hvalid⟩ := hends
    exact ⟨rfl, htree, hvalid, fun a ha => absurd ha (by simp)⟩
  · exact hends.elim
  · exact hends.elim
  · obtain ⟨rfl, ha, htree, rfl, hvalid⟩ := hends
    refine ⟨rfl, htree, hvalid, fun c hc => ?_⟩
    exact Except.ok.inj hc ▸ ha

section Rules

variable {t t' : Tree} {Q : α → Prop} {P : β → Prop}

theorem same_pure {a : α} (h : Q a) : Same t t' Q (pure a) :=
  alike_pure fun _ _ hm => ⟨rfl, h, hm⟩

theorem same_throw (e : Failure) : Same t t' Q (throw e) :=
  alike_throw e fun _ _ hm => hm

theorem same_bind {x : Load α} {f : α → Load β} (hx : Same t t' Q x)
    (hf : ∀ a, Q a → Same t t' P (f a)) : Same t t' P (x >>= f) := by
  refine alike_bind hx fun a b => ?_
  rintro m m' ⟨rfl, ha, hm⟩
  exact hf _ ha m m' hm

theorem same_ite {p : Prop} [Decidable p] {x y : Load α} (hx : Same t t' Q x)
    (hy : Same t t' Q y) : Same t t' Q (if p then x else y) := by
  split
  · exact hx
  · exact hy

/-- A step that goes on with the table as it is, if it makes the same of it over both files. -/
theorem same_get {f : Modules → Load β} (hwithTree : ∀ m, m.tree = t → f (m.withTree t') = f m)
    (hf : ∀ m, m.tree = t → m.Valid → Same t t' P (f m)) : Same t t' P (get >>= f) := by
  refine alike_bind alike_get fun a b => ?_
  rintro m m' ⟨rfl, rfl, hm⟩
  obtain ⟨htree, rfl, hvalid⟩ := hm
  rw [hwithTree _ htree]
  exact hf _ htree hvalid _ _ ⟨htree, rfl, hvalid⟩

/-- A change that does not look at the files. -/
theorem same_modify {f : Modules → Modules} (htree : ∀ m, (f m).tree = m.tree)
    (hwithTree : ∀ m, f (m.withTree t') = (f m).withTree t') (hvalid : ∀ m, m.Valid → (f m).Valid) :
    Same t t' (fun _ => True) (modify f) := by
  refine alike_modify fun m m' hm => ?_
  obtain ⟨ht, rfl, h⟩ := hm
  exact ⟨rfl, trivial, (htree m).trans ht, hwithTree m, hvalid m h⟩

theorem same_tryCatch {x : Load α} {h : Failure → Load α} (hx : Same t t' Q x)
    (hh : ∀ e, Same t t' Q (h e)) : Same t t' Q (tryCatch x h) :=
  alike_tryCatch hx hh

theorem same_forM {f : α → Load PUnit} (as : List α) (h : ∀ a, Same t t' (fun _ => True) (f a)) :
    Same t t' (fun _ => True) (as.forM f) := by
  induction as with
  | nil => exact same_pure trivial
  | cons a as ih => exact same_bind (h a) fun _ _ => ih

theorem same_lift {r : Outcome α} (h : ∀ a, r = .ok a → Q a) : Same t t' Q (Import.lift r) := by
  cases r with
  | ok a => exact same_pure (h a rfl)
  | error e => exact same_throw e

/-! ## The steps of importing -/

theorem same_register (name : String) {l : LoadedModule} (hl : Scope.Valid l.bindings) :
    Same t t' (fun _ => True) (modify (Modules.register name l)) :=
  same_modify (fun _ => rfl) (fun _ => rfl) fun _ h => h.register name hl

theorem same_forget (name : String) :
    Same t t' (fun _ => True) (modify (Modules.forget name)) :=
  same_modify (fun _ => rfl) (fun _ => rfl) fun _ h => h.forget name

theorem same_bindName (module name : String) {b : Binding} (hb : b.Valid) :
    Same t t' (fun _ => True) (modify (Modules.bind module name b)) :=
  same_modify (fun _ => rfl) (fun _ => rfl) fun _ h => h.bind module name hb

theorem same_unbind (module name : String) :
    Same t t' (fun _ => True) (modify (Modules.unbind module name)) :=
  same_modify (fun _ => rfl) (fun _ => rfl) fun _ h => h.unbind module name

theorem same_attribute (module name : String) :
    Same t t' (fun b => ∀ x ∈ b, x.Valid) (attribute? module name) := by
  exact same_get (fun _ _ => rfl) fun m _ hm => same_pure fun b hb => hm.attribute? hb

theorem same_takeInner (module name : String) :
    Same t t' Binding.Valid (takeInner module name) := by
  refine same_bind (same_attribute module name) fun b hb => ?_
  cases b with
  | some b => exact same_pure (hb b rfl)
  | none =>
      refine same_get (fun _ _ => rfl) fun m _ _ => ?_
      split
      · exact same_pure trivial
      · exact same_throw _

variable {importModule : String → Load Unit}
variable (himport : ∀ name, Same t t' (fun _ => True) (importModule name))
include himport

theorem same_take (module name : String) :
    Same t t' Binding.Valid (take importModule module name) := by
  refine same_bind (same_attribute module name) fun b hb => ?_
  cases b with
  | some b => exact same_pure (hb b rfl)
  | none =>
      -- A name that the module does not have may be a module inside it.
      refine same_get (fun _ _ => rfl) fun m _ _ => ?_
      dsimp only
      split
      · refine same_bind (same_tryCatch (himport _) fun e => ?_)
          fun _ _ => same_takeInner module name
        cases e with
        | noModule missing =>
            dsimp only
            split
            · exact same_pure trivial
            · exact same_throw _
        | _ => exact same_throw _
      · exact same_takeInner module name

theorem same_runItem (module : String) (postponed : Bool) (item : Item) :
    Same t t' (fun _ => True) (runItem importModule module postponed item) := by
  -- What a statement makes is valid before a name is bound to it.
  cases item with
  | define decl topLevel =>
      refine same_get (fun _ _ => rfl) fun m htree hm => ?_
      have hmade : ∀ r, decl.make ⟨module, m.bindingsOf module, postponed⟩ "" [] m.world = .ok r →
          r.1.Valid := fun r hr => ClassDecl.valid_make (hm.bindingsOf module) hm.world decl hr
      refine same_bind (same_lift hmade) fun r hr => ?_
      have hworld : Same t t' (fun _ => True) (modify fun m => { m with world := r.1 }) :=
        same_modify (fun _ => rfl) (fun _ => rfl) fun _ h => ⟨hr, h.loaded⟩
      exact same_bind hworld fun _ _ => same_bindName module decl.name trivial
  | importFrom name source =>
      refine same_get (fun _ _ => rfl) fun m _ _ => ?_
      refine same_bind (same_lift fun _ _ => trivial) fun full _ => ?_
      refine same_bind (himport full) fun _ _ => ?_
      exact same_bind (same_take himport full name) fun b hb => same_bindName module name hb
  | assign name value =>
      cases value with
      | number => exact same_bindName module name trivial
      | name other =>
          refine same_get (fun _ _ => rfl) fun m _ hm => ?_
          split
          · rename_i b hb
            refine same_bindName module name (valid_lookup (fun s hs => ?_) hb)
            exact List.mem_singleton.mp hs ▸ hm.bindingsOf module
          · exact same_throw _
  | delete name =>
      refine same_get (fun _ _ => rfl) fun m _ _ => ?_
      split
      · exact same_unbind module name
      · exact same_throw _
  | stop why => exact same_throw _

theorem same_runProgram (module : String) (p : Program) :
    Same t t' (fun _ => True) (runProgram importModule module p) := by
  refine same_tryCatch (same_forM _ fun item => same_runItem himport module _ item) fun e => ?_
  exact same_bind (same_forget module) fun _ _ => same_throw e

end Rules

/-- What a module outside the files holds has no tags. -/
theorem valid_outside (names : Entries OutsideBinding) :
    Scope.Valid (Entries.mapValues OutsideBinding.binding names) := by
  refine Entries.each_mapValues (P := fun _ _ => True) (fun _ _ => trivial) fun _ b _ => ?_
  cases b with
  | function => exact allValid_nil
  | type _ | module _ | other => exact trivial

theorem same_receive (name : String) (source : ModuleSource)
    (held : Outcome (Entries OutsideBinding)) :
    Same t t' (fun _ => True) (receive name source held) := by
  refine same_bind (same_register name Entries.each_nil) fun _ _ => ?_
  cases held with
  | ok names => exact same_register name (valid_outside names)
  | error e => exact same_bind (same_forget name) fun _ _ => same_throw _

/-! ## Importing by name -/

/-- A source that is a file has the name of a module file. -/
def IsModuleSource (source : ModuleSource) : Prop :=
  ∀ place, source = .file place → isModulePlace place = true

theorem isModuleSource_find? {t : Tree} {name : String} {portions places : List Place}
    {source : ModuleSource} (h : ModuleSource.find? t name portions places = some source) :
    IsModuleSource source := by
  rintro place rfl
  induction places generalizing portions with
  | nil =>
      unfold ModuleSource.find? at h
      split at h <;> exact absurd h (by simp)
  | cons d rest ih =>
      unfold ModuleSource.find? at h
      dsimp only at h
      split at h
      · exact absurd h (by simp)
      · split at h
        · obtain rfl := ModuleSource.file.inj (Option.some.inj h)
          rw [isModulePlace_append_singleton]
          exact endsWith_append_py name
        · split at h <;> exact ih h

theorem isModuleSource_modulesFind? {m : Modules} {name last : String} {places : List Place}
    {source : ModuleSource} (h : m.find? name last places = some source) :
    IsModuleSource source := by
  unfold Modules.find? at h
  split at h
  · rintro place rfl
    exact absurd h (by simp)
  · exact isModuleSource_find? h

theorem isModuleSource_sourceOf? {m : Modules} {name : String} {source : ModuleSource}
    (h : m.sourceOf? name = some source) : IsModuleSource source := by
  unfold Modules.sourceOf? at h
  dsimp only at h
  split at h
  · exact isModuleSource_modulesFind? h
  · obtain ⟨places, -, hsource⟩ := Option.bind_eq_some_iff.mp h
    exact isModuleSource_modulesFind? hsource

section Names

variable {t t' : Tree} (hlook : t.LooksLike t')
include hlook

theorem same_runPlace {importModule : String → Load Unit}
    (himport : ∀ name, Same t t' (fun _ => True) (importModule name)) (name : String)
    (source : ModuleSource) {place : Place} (hplace : isModulePlace place = true) :
    Same t t' (fun _ => True) (runPlace importModule name source place) := by
  refine same_bind (same_register name Entries.each_nil) fun _ _ => ?_
  refine same_get (fun m hm => ?_) fun m _ _ => ?_
  · have hnode : (m.withTree t').tree.node? place = m.tree.node? place := by
      -- The file of a module holds the same in both trees.
      rw [hm]
      exact hlook.modules place hplace
    rw [hnode]
  · split
    · split
      · exact same_runProgram himport name _
      · exact same_bind (same_forget name) fun _ _ => same_throw _
    · exact same_throw _

theorem same_load {importModule : String → Load Unit}
    (himport : ∀ name, Same t t' (fun _ => True) (importModule name)) (name : String)
    {source : ModuleSource} (hsource : IsModuleSource source) :
    Same t t' (fun _ => True) (load importModule name source) := by
  cases source with
  | package d =>
      refine same_runPlace hlook himport name _ ?_
      rw [isModulePlace_append_singleton]
      exact endsWith_packageFile
  | file place => exact same_runPlace hlook himport name _ (hsource place rfl)
  | directories places => exact same_register name Entries.each_nil
  | outside held => exact same_receive name _ held

theorem modulesFind?_withTree {m : Modules} (hm : m.tree = t) (name last : String)
    (places : List Place) : (m.withTree t').find? name last places = m.find? name last places := by
  have hfind : ModuleSource.find? t' last [] places = ModuleSource.find? m.tree last [] places := by
    rw [hm]
    exact hlook.find? last [] places
  unfold Modules.find? Modules.withTree
  rw [hfind]

theorem findTop?_withTree {m : Modules} (hm : m.tree = t) (name : String) :
    (m.withTree t').findTop? name = m.findTop? name :=
  modulesFind?_withTree hlook hm name name m.paths

theorem sourceOf?_withTree {m : Modules} (hm : m.tree = t) (name : String) :
    (m.withTree t').sourceOf? name = m.sourceOf? name := by
  unfold Modules.sourceOf?
  dsimp only
  rw [findTop?_withTree hlook hm, funext (modulesFind?_withTree hlook hm name _)]
  rfl

theorem same_enter {importModule : String → Load Unit}
    (himport : ∀ name, Same t t' (fun _ => True) (importModule name)) (name : String) :
    Same t t' (fun _ => True) (enter importModule name) := by
  refine same_get (fun m hm => ?_) fun m _ _ => ?_
  · rw [sourceOf?_withTree hlook hm]
    rfl
  · split
    · exact same_pure trivial
    · split
      · exact same_throw _
      · rename_i source hsource
        refine same_bind (same_load hlook himport name (isModuleSource_sourceOf? hsource))
          fun _ _ => ?_
        dsimp only
        split
        · exact same_bindName _ _ trivial
        · exact same_pure trivial

theorem same_byName (depth : Nat) : ∀ name, Same t t' (fun _ => True) (byName depth name) := by
  induction depth with
  | zero => exact fun _ => same_throw _
  | succ depth ih =>
      intro name
      exact same_get (fun _ _ => rfl) fun m _ _ => same_forM _ (same_enter hlook ih)

theorem same_module (name : String) : Same t t' (fun _ => True) (module name) := by
  refine same_get (fun m hm => ?_) fun m _ _ => same_byName hlook _ name
  have hbound : depthBound (m.withTree t') = depthBound m := by
    show 64 + 16 * ((t'.nodes.filter isImportable).length + m.loaded.length) = _
    rw [hlook.importable, ← hm]
    rfl
  rw [hbound]

theorem same_file (name : String) (place : Place) :
    Same t t' (fun _ => True) (file name place) := by
  refine same_get (fun _ _ => rfl) fun m _ _ => ?_
  split
  · exact same_pure trivial
  · dsimp only
    split
    · rename_i hname
      refine same_load hlook (same_module hlook) name ?_
      rintro p hp
      split at hp
      · exact absurd hp (by simp)
      · obtain rfl := ModuleSource.file.inj hp
        exact hname
    · exact same_throw _

theorem same_define (name : String) (p : Program) (registered : Bool) :
    Same t t' (fun scope => Scope.Valid scope) (define name p registered) := by
  refine same_get (fun _ _ => rfl) fun m _ hm => ?_
  refine same_bind (same_register name Entries.each_nil) fun _ _ => ?_
  refine same_bind (same_forM _ fun item => same_runItem (same_module hlook) name _ item)
    fun _ _ => ?_
  refine same_get (fun _ _ => rfl) fun m' _ hm' => ?_
  have hmade : Scope.Valid (m'.bindingsOf name) := hm'.bindingsOf name
  dsimp only
  split
  · split
    · rename_i l hl
      exact same_bind (same_register name (hm.loaded.of_get? hl)) fun _ _ => same_pure hmade
    · exact same_bind (same_forget name) fun _ _ => same_pure hmade
  · exact same_pure hmade

end Names

end Import
end Routebook
