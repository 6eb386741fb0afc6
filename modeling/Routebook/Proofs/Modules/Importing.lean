/-
  Routebook.Proofs.Modules.Importing

  How an import ends.  The modules on the way to the one asked for are entered
  one after the other, and that ends in one of three ways: all of them are
  loaded, or there is nothing to load for one of them, or one of them is there
  and fails while it runs (`Ending`).  Every import ends in exactly one of them
  (`exists_imports`, `Imports.unique`).

  The ending tells what the import answers (`Imports.exec_module`), but not the
  other way round: a module that runs may itself fail for want of a module.
-/
import Routebook.Proofs.Modules.Discovery

namespace Routebook

/-! ## The way to a module -/

namespace Naming

theorem mem_beforeDots_iff {b cs : List Char} : b ∈ beforeDots cs ↔ b ++ ['.'] <+: cs := by
  induction cs generalizing b with
  | nil => simp [beforeDots]
  | cons c cs ih =>
      -- What stands before a dot further on starts with `c`.
      have hrest : b ∈ (beforeDots cs).map (c :: ·) ↔ b ≠ [] ∧ b ++ ['.'] <+: c :: cs := by
        cases b with
        | nil => simp
        | cons d b => simp [List.cons_prefix_cons, ih, and_comm, eq_comm]
      unfold beforeDots
      dsimp only
      by_cases hdot : c = '.'
      · subst hdot
        rw [if_pos rfl, List.mem_cons, hrest]
        cases b with
        | nil => simp
        | cons d b => simp
      · rw [if_neg hdot, hrest]
        cases b with
        | nil => simp [Ne.symm hdot]
        | cons d b => simp

/-- On the way to a module lie the module itself and the packages around it. -/
theorem mem_wayTo_iff {name p : String} :
    p ∈ wayTo name ↔ p = name ∨ p ≠ "" ∧ (p ++ ".").toList <+: name.toList := by
  unfold wayTo
  rw [List.mem_append, List.mem_singleton, or_comm]
  refine or_congr_right ?_
  rw [List.mem_map]
  constructor
  · rintro ⟨b, hb, rfl⟩
    obtain ⟨hbefore, hne⟩ := List.mem_filter.mp hb
    refine ⟨fun h => of_decide_eq_true hne ?_, ?_⟩
    · rw [← String.toList_ofList (l := b), h, String.toList_empty]
    · rw [String.toList_append, String.toList_ofList]
      exact mem_beforeDots_iff.mp hbefore
  · rintro ⟨hne, hprefix⟩
    rw [String.toList_append] at hprefix
    refine ⟨p.toList, List.mem_filter.mpr ⟨mem_beforeDots_iff.mpr hprefix, ?_⟩,
      String.ofList_toList⟩
    exact decide_eq_true (mt String.toList_eq_nil_iff.mp hne)

end Naming

namespace Discover

theorem isOnTheWay_iff {module missing : String} (hmodule : module ≠ "") :
    isOnTheWay module missing = true ↔ missing ∈ Naming.wayTo module := by
  rw [Naming.mem_wayTo_iff, isOnTheWay, Bool.and_eq_true, Bool.or_eq_true, bne_iff_ne, beq_iff_eq,
    startsWith_iff]
  constructor
  · rintro ⟨hne, rfl | hprefix⟩
    · exact .inl rfl
    · exact .inr ⟨hne, hprefix⟩
  · rintro (rfl | ⟨hne, hprefix⟩)
    · exact ⟨hmodule, .inl rfl⟩
    · exact ⟨hne, .inr hprefix⟩

end Discover

/-! ## Endings -/

namespace Import

open Steps

/-- How an import ends. -/
inductive Ending where
  /-- The module is loaded. -/
  | arrived
  /-- There is nothing to load for a module. -/
  | missing (name : String)
  /-- A module is there, and fails while it runs. -/
  | broken (name : String) (why : Failure)

/-- What an import that ends in some way answers. -/
def Ending.outcome : Ending → Outcome Unit
  | .arrived => .ok ⟨⟩
  | .missing name => .error (.noModule name)
  | .broken _ why => .error why

/-- The table once a loaded module is bound in the package around it. -/
def bound (name : String) (m : Modules) : Modules :=
  if (Naming.cutLast name).1 = "" then m
  else m.bind (Naming.cutLast name).1 (Naming.cutLast name).2 (.module name)

/-- Modules are entered one after the other, up to the first that cannot be. -/
inductive Enters (importModule : String → Load Unit) :
    List String → Modules → Ending → Modules → Prop
  | done {m : Modules} : Enters importModule [] m .arrived m
  | loaded {name : String} {rest : List String} {m m' : Modules} {e : Ending}
      (hloaded : Entries.has name m.loaded = true) (hrest : Enters importModule rest m e m') :
      Enters importModule (name :: rest) m e m'
  | missing {name : String} {rest : List String} {m : Modules}
      (hnew : Entries.has name m.loaded = false) (hsource : m.sourceOf? name = none) :
      Enters importModule (name :: rest) m (.missing name) m
  | broken {name : String} {rest : List String} {m m' : Modules} {source : ModuleSource}
      {why : Failure} (hnew : Entries.has name m.loaded = false)
      (hsource : m.sourceOf? name = some source)
      (hload : exec (load importModule name source) m = (.error why, m')) :
      Enters importModule (name :: rest) m (.broken name why) m'
  | entered {name : String} {rest : List String} {m m' m'' : Modules} {source : ModuleSource}
      {e : Ending} (hnew : Entries.has name m.loaded = false)
      (hsource : m.sourceOf? name = some source)
      (hload : exec (load importModule name source) m = (.ok ⟨⟩, m'))
      (hrest : Enters importModule rest (bound name m') e m'') :
      Enters importModule (name :: rest) m e m''

section Enter

variable {importModule : String → Load Unit} {name : String} {m m' : Modules}
  {source : ModuleSource}

theorem exec_enter_of_loaded (hloaded : Entries.has name m.loaded = true) :
    exec (enter importModule name) m = (.ok ⟨⟩, m) := by
  rw [enter, exec_bind_of_ok (exec_get m), if_pos hloaded]
  rfl

theorem exec_enter_of_missing (hnew : Entries.has name m.loaded = false)
    (hsource : m.sourceOf? name = none) :
    exec (enter importModule name) m = (.error (.noModule name), m) := by
  rw [enter, exec_bind_of_ok (exec_get m), if_neg (by simp [hnew]), hsource]
  rfl

theorem exec_enter_of_broken {why : Failure} (hnew : Entries.has name m.loaded = false)
    (hsource : m.sourceOf? name = some source)
    (hload : exec (load importModule name source) m = (.error why, m')) :
    exec (enter importModule name) m = (.error why, m') := by
  rw [enter, exec_bind_of_ok (exec_get m), if_neg (by simp [hnew]), hsource]
  exact exec_bind_of_error hload

theorem exec_enter_of_loads (hnew : Entries.has name m.loaded = false)
    (hsource : m.sourceOf? name = some source)
    (hload : exec (load importModule name source) m = (.ok ⟨⟩, m')) :
    exec (enter importModule name) m = (.ok ⟨⟩, bound name m') := by
  rw [enter, exec_bind_of_ok (exec_get m), if_neg (by simp [hnew]), hsource]
  dsimp only
  rw [exec_bind_of_ok hload, bound]
  by_cases htop : (Naming.cutLast name).1 = ""
  · rw [if_neg (not_not.mpr htop), if_pos htop]
    rfl
  · rw [if_pos htop, if_neg htop]
    rfl

end Enter

section Enters

variable {importModule : String → Load Unit} {names : List String} {m m' m'' : Modules}
  {e e' : Ending}

/-- What is answered when modules are entered one after the other. -/
theorem Enters.exec_forM (h : Enters importModule names m e m') :
    exec (names.forM (enter importModule)) m = (e.outcome, m') := by
  induction h with
  | done => rfl
  | loaded hloaded _ ih => exact (exec_bind_of_ok (exec_enter_of_loaded hloaded)).trans ih
  | missing hnew hsource => exact exec_bind_of_error (exec_enter_of_missing hnew hsource)
  | broken hnew hsource hload =>
      exact exec_bind_of_error (exec_enter_of_broken hnew hsource hload)
  | entered hnew hsource hload _ ih =>
      exact (exec_bind_of_ok (exec_enter_of_loads hnew hsource hload)).trans ih

theorem exists_enters (importModule : String → Load Unit) (names : List String) (m : Modules) :
    ∃ e m', Enters importModule names m e m' := by
  induction names generalizing m with
  | nil => exact ⟨.arrived, m, .done⟩
  | cons name rest ih =>
      cases hloaded : Entries.has name m.loaded with
      | true =>
          obtain ⟨e, m', hrest⟩ := ih m
          exact ⟨e, m', .loaded hloaded hrest⟩
      | false =>
          cases hsource : m.sourceOf? name with
          | none => exact ⟨.missing name, m, .missing hloaded hsource⟩
          | some source =>
              rcases hload : exec (load importModule name source) m with ⟨why | ⟨⟩, m'⟩
              · exact ⟨.broken name why, m', .broken hloaded hsource hload⟩
              · obtain ⟨e, m'', hrest⟩ := ih (bound name m')
                exact ⟨e, m'', .entered hloaded hsource hload hrest⟩

theorem Enters.unique (h : Enters importModule names m e m')
    (h' : Enters importModule names m e' m'') : e = e' ∧ m' = m'' := by
  -- What the table and the files hold for the first name excludes all other constructors.
  induction h generalizing m'' with
  | done => cases h'; exact ⟨rfl, rfl⟩
  | loaded hloaded _ ih =>
      cases h' with
      | loaded _ hrest' => exact ih hrest'
      | missing hnew _ | broken hnew _ _ | entered hnew _ _ _ =>
          exact absurd (hloaded.symm.trans hnew) nofun
  | missing hnew hsource =>
      cases h' with
      | loaded hloaded _ => exact absurd (hloaded.symm.trans hnew) nofun
      | missing _ _ => exact ⟨rfl, rfl⟩
      | broken _ hsource' _ | entered _ hsource' _ _ =>
          exact absurd (hsource.symm.trans hsource') nofun
  | broken hnew hsource hload =>
      cases h' with
      | loaded hloaded _ => exact absurd (hloaded.symm.trans hnew) nofun
      | missing _ hsource' => exact absurd (hsource.symm.trans hsource') nofun
      | broken _ hsource' hload' =>
          obtain rfl := Option.some.inj (hsource.symm.trans hsource')
          obtain ⟨hwhy, rfl⟩ := Prod.mk.inj (hload.symm.trans hload')
          exact ⟨congrArg _ (Except.error.inj hwhy), rfl⟩
      | entered _ hsource' hload' _ =>
          obtain rfl := Option.some.inj (hsource.symm.trans hsource')
          exact absurd (Prod.mk.inj (hload.symm.trans hload')).1 nofun
  | entered hnew hsource hload _ ih =>
      cases h' with
      | loaded hloaded _ => exact absurd (hloaded.symm.trans hnew) nofun
      | missing _ hsource' => exact absurd (hsource.symm.trans hsource') nofun
      | broken _ hsource' hload' =>
          obtain rfl := Option.some.inj (hsource.symm.trans hsource')
          exact absurd (Prod.mk.inj (hload.symm.trans hload')).1 nofun
      | entered _ hsource' hload' hrest' =>
          obtain rfl := Option.some.inj (hsource.symm.trans hsource')
          obtain ⟨-, rfl⟩ := Prod.mk.inj (hload.symm.trans hload')
          exact ih hrest'

/-- A module for which there is nothing to load is one of those to be entered. -/
theorem Enters.mem_of_missing {name : String} (h : Enters importModule names m (.missing name) m') :
    name ∈ names := by
  generalize he : Ending.missing name = e at h
  induction h with
  | done => exact absurd he nofun
  | loaded _ _ ih => exact List.mem_cons_of_mem _ (ih he)
  | missing _ _ => exact Ending.missing.inj he ▸ List.mem_cons_self
  | broken _ _ _ => exact absurd he nofun
  | entered _ _ _ _ ih => exact List.mem_cons_of_mem _ (ih he)

end Enters

/-! ## Imports -/

/-- An import by full name ends in some way, in some table. -/
def Imports (m : Modules) (name : String) (e : Ending) (m' : Modules) : Prop :=
  Enters (byName (depthBound m - 1)) (pending m name) m e m'

variable {m m' m'' : Modules} {name : String} {e e' : Ending}

theorem exists_imports (m : Modules) (name : String) : ∃ e m', Imports m name e m' :=
  exists_enters _ _ m

theorem Imports.unique (h : Imports m name e m') (h' : Imports m name e' m'') :
    e = e' ∧ m' = m'' :=
  Enters.unique h h'

theorem Imports.exec_module (h : Imports m name e m') :
    exec (Import.module name) m = (e.outcome, m') := by
  -- The bound on the depth is positive, so it plays no part at the top.
  have hdepth : depthBound m = depthBound m - 1 + 1 := by
    unfold depthBound
    omega
  rw [Import.module, exec_bind_of_ok (exec_get m), hdepth, byName, exec_bind_of_ok (exec_get m)]
  exact Enters.exec_forM h

/-- A missing module is the one asked for, or a package around it. -/
theorem Imports.mem_wayTo {missing : String} (h : Imports m name (.missing missing) m') :
    missing ∈ Naming.wayTo name := by
  have hpending : missing ∈ (pending m name).reverse := List.mem_reverse.mpr h.mem_of_missing
  rw [pending, List.reverse_reverse] at hpending
  exact List.mem_reverse.mp ((List.takeWhile_prefix _).subset hpending)

end Import
end Routebook
