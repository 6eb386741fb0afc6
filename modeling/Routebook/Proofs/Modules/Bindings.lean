/-
  Routebook.Proofs.Modules.Bindings

  What importing a file does to the modules that are loaded.  The route that is
  taken is settled before anything runs (`Plan`, `exec_importFile`): the module
  is kept, or searched for by its name, or a package is run first and the name
  is searched for then, or the file itself is run.

  Running a file is the only step that can take a name away from a module, and
  it does so exactly if the name is in use for another file (`Displaces`).  A
  search answers whatever stands under the name below the top-level location,
  and that need not be the file (`Leads`).  `importFile_origins` says that
  these are the only ways in which a file is not imported as itself.
-/
import Routebook.Proofs.Modules.Standing

namespace Routebook

open Steps

namespace Discover

/-! ## Plans -/

/-- How a file is going to be imported. -/
inductive Plan where
  /-- It is loaded under its name. -/
  | kept (name : String)
  /-- The top-level name leads to the top-level location of the file, so the name is
  searched for. -/
  | search (name : String)
  /-- The package at the top-level location is run, and the name is searched for. -/
  | package (top name : String) (directory : Place)
  /-- The file is run. -/
  | run (name : String)

/-- The plan for a file under a module name, if the name has a top-level location. -/
def planOf (m : Modules) (place : Place) (name : String) : Outcome Plan := do
  let (top, rest) := Naming.cutFirst name
  if m.isLoadedFrom name place then return .kept name
  let directory ← Naming.topLevelPlace place name
  let bound := boundPlaces m top
  let isTaken := bound.isSome || Entries.has name m.loaded
  let top' := if isTaken then Naming.privateTop top directory else top
  let name' := if isTaken then Naming.rejoin top' rest else name
  if (bound.getD []).contains directory then return .search name
  else if Naming.isPackage m.tree directory then return .package top' name' directory
  else return .run name'

namespace Plan

/-- The name that a plan answers. -/
def answer : Plan → String
  | .kept name => name
  | .search name => name
  | .package _ name _ => name
  | .run name => name

/-- The file that a plan runs, and the name under which it does. -/
def own? (place : Place) : Plan → Option (String × Place)
  | .kept _ => none
  | .search _ => none
  | .package top _ directory => some (top, directory ++ [Naming.packageFile])
  | .run name => some (name, place)

/-- Run the file of a plan, unless it is loaded. -/
def start (place : Place) (plan : Plan) : Load Unit :=
  match plan.own? place with
  | some (name, file) => Import.file name file
  | none => pure ⟨⟩

/-- Search for the module of a plan, if it is to be searched for. -/
def finish : Plan → Load Unit
  | .kept _ => pure ⟨⟩
  | .search name => Import.module name
  | .package _ name _ => Import.module name
  | .run _ => pure ⟨⟩

/-- Carry out a plan. -/
def perform (place : Place) (plan : Plan) : Load String := do
  plan.start place
  plan.finish
  return plan.answer

/-- The table in which the module of a plan is searched for: it has the file that the
plan runs in it. -/
def prepared (m : Modules) (place : Place) (plan : Plan) : Modules :=
  match plan.own? place with
  | some (name, file) =>
    if m.isLoadedFrom name file then m
    else m.register name ((Import.sourceAs name file).blank name)
  | none => m

end Plan

/-- A file is imported by carrying out its plan; without a name or a top-level location
nothing happens. -/
theorem exec_importFile (m : Modules) (place : Place) (root : Option Place) :
    exec (importFile place root) m =
      match Naming.moduleName m.tree place root >>= planOf m place with
      | .ok plan => exec (plan.perform place) m
      | .error e => (.error e, m) := by
  unfold importFile
  rw [exec_bind_of_ok (exec_get m)]
  cases Naming.moduleName m.tree place root with
  | error e => rfl
  | ok name =>
      show _ = match planOf m place name with
        | .ok plan => exec (plan.perform place) m
        | .error e => (.error e, m)
      unfold planOf
      dsimp only
      -- The plan and the import ask the same questions in the same order.
      by_cases hkept : m.isLoadedFrom name place = true
      · rw [if_pos hkept]
        show exec (if m.isLoadedFrom name place then pure name else _) m = _
        rw [if_pos hkept]
        rfl
      rw [if_neg hkept]
      show exec (if m.isLoadedFrom name place then pure name else _) m = _
      rw [if_neg hkept]
      cases Naming.topLevelPlace place name with
      | error e => rfl
      | ok directory =>
          rw [exec_bind_of_ok (exec_importLift _)]
          show _ = match (if ((boundPlaces m (Naming.cutFirst name).1).getD []).contains directory
              then _ else _ : Outcome Plan) with
            | .ok plan => exec (plan.perform place) m
            | .error e => (.error e, m)
          by_cases hbound : ((boundPlaces m (Naming.cutFirst name).1).getD []).contains
              directory = true
          · rw [if_pos hbound, if_pos hbound]
            rfl
          rw [if_neg hbound, if_neg hbound]
          by_cases hpackage : Naming.isPackage m.tree directory = true
          · rw [if_pos hpackage, if_pos hpackage]
            rfl
          rw [if_neg hpackage, if_neg hpackage, exec_bind]
          exact (exec_bind _ _ m).symm

/-! ## What a plan does to the table -/

/-- Every module that is loaded stays where it comes from. -/
def KeepsOrigins (m m' : Modules) : Prop :=
  ∀ name o, m.origin? name = some o → m'.origin? name = some o

namespace Plan

variable {m m' : Modules} {place : Place} {plan : Plan}

/-- The file that a plan runs takes a name away from another module. -/
def Displaces (m : Modules) (place : Place) (plan : Plan) : Prop :=
  ∃ name file, plan.own? place = some (name, file) ∧ Entries.has name m.loaded = true ∧
    m.isLoadedFrom name file = false

/-- A plan runs a module file of the tree, and keeps only what is loaded. -/
structure Fits (m : Modules) (place : Place) (plan : Plan) : Prop where
  file : ∀ name file, plan.own? place = some (name, file) →
    m.tree.isFileAt file = true ∧ isModulePlace file = true
  kept : ∀ name, plan = .kept name → m.isLoadedFrom name place = true

theorem fits_planOf (hfile : m.tree.isFileAt place = true) (hpy : isModulePlace place = true)
    {name : String} (h : planOf m place name = .ok plan) : plan.Fits m place := by
  -- A plan has a file of its own only if it registers the package or the module itself.
  unfold planOf at h
  dsimp only at h
  split at h
  · next hkept =>
      obtain rfl := Except.ok.inj h
      refine ⟨fun _ _ hown => absurd hown nofun, fun key hkey => ?_⟩
      exact Plan.kept.inj hkey ▸ hkept
  · obtain ⟨directory, -, h⟩ := Outcome.bind_ok_iff.mp h
    split at h
    · obtain rfl := Except.ok.inj h
      exact ⟨fun _ _ hown => absurd hown nofun, fun _ hkey => absurd hkey nofun⟩
    · split at h
      · next hpackage =>
          obtain rfl := Except.ok.inj h
          refine ⟨fun own file hown => ?_, fun _ hkey => absurd hkey nofun⟩
          obtain ⟨-, rfl⟩ := Prod.mk.inj (Option.some.inj hown)
          rw [isModulePlace_append_singleton]
          exact ⟨hpackage, endsWith_packageFile⟩
      · obtain rfl := Except.ok.inj h
        refine ⟨fun own file hown => ?_, fun _ hkey => absurd hkey nofun⟩
        obtain ⟨-, rfl⟩ := Prod.mk.inj (Option.some.inj hown)
        exact ⟨hfile, hpy⟩

/-- Running the file of a plan ends in a table that extends the prepared one, without
the module of the file if it fails. -/
theorem start_ends (hfits : plan.Fits m place) :
    (∃ m', exec (plan.start place) m = (.ok ⟨⟩, m') ∧ Extends (plan.prepared m place) m') ∨
      ∃ name file e m', plan.own? place = some (name, file) ∧ m.isLoadedFrom name file = false ∧
        exec (plan.start place) m = (.error e, m'.forget name) ∧
        Extends (plan.prepared m place) m' := by
  unfold start prepared
  cases hown : plan.own? place with
  | none => exact .inl ⟨m, rfl, Extends.refl m⟩
  | some own =>
      obtain ⟨name, file⟩ := own
      obtain ⟨hfile, hpy⟩ := hfits.file name file hown
      dsimp only
      -- Only a file that is not loaded yet runs, and only then can starting fail.
      cases hloaded : m.isLoadedFrom name file with
      | true =>
          rw [Import.exec_file_of_loaded hloaded]
          exact .inl ⟨m, rfl, Extends.refl m⟩
      | false =>
          rcases Import.file_ends hloaded hfile hpy with ⟨m', hrun, hext⟩ | ⟨e, m', hrun, hext⟩
          · exact .inl ⟨m', hrun, hext⟩
          · exact .inr ⟨name, file, e, m', rfl, hloaded, hrun, hext⟩

theorem grows_finish (plan : Plan) : Import.Grows plan.finish := by
  cases plan with
  | kept name => exact Import.grows_pure _
  | search name => exact Import.grows_module name
  | package top name directory => exact Import.grows_module name
  | run name => exact Import.grows_pure _

/-- A plan whose file runs through leaves a table that extends the prepared one; one
whose file fails, such a table without the module of the file. -/
theorem perform_ends (hfits : plan.Fits m place) :
    Extends (plan.prepared m place) (exec (plan.perform place) m).2 ∨
      ∃ name file e m', plan.own? place = some (name, file) ∧ m.isLoadedFrom name file = false ∧
        exec (plan.perform place) m = (.error e, m'.forget name) ∧
        Extends (plan.prepared m place) m' := by
  unfold perform
  rcases start_ends hfits with ⟨m', hrun, hext⟩ | ⟨name, file, e, m', hown, hnew, hrun, hext⟩
  · rw [exec_bind_of_ok hrun]
    exact .inl (hext.trans (Import.grows_bind plan.grows_finish (fun _ => Import.grows_pure _) m'))
  · exact .inr ⟨name, file, e, m', hown, hnew, exec_bind_of_error hrun, hext⟩

/-- Unless it displaces a module, a plan prepares a table with all modules. -/
theorem keepsOrigins_prepared (h : ¬ plan.Displaces m place) :
    KeepsOrigins m (plan.prepared m place) := by
  intro key o ho
  unfold prepared
  split
  · next name file hown =>
      split
      · exact ho
      · next hnew =>
          -- The name is free, so it is not the one that is looked up.
          have hne : key ≠ name := by
            rintro rfl
            refine h ⟨key, file, hown, ?_, by simpa using hnew⟩
            rw [m.has_eq_isSome_origin? key, ho]
            rfl
          rw [m.origin?_register, if_neg hne, ho]
  · exact ho

theorem origin?_prepared {name : String} {file : Place} (hown : plan.own? place = some (name, file))
    (hnew : m.isLoadedFrom name file = false) :
    (plan.prepared m place).origin? name = some (Import.sourceAs name file).origin := by
  unfold prepared
  rw [hown]
  dsimp only
  rw [if_neg (by simp [hnew]), m.origin?_register, if_pos rfl]
  rfl

/-- What a plan that displaces a module prepares, has another module under its name. -/
theorem not_keepsOrigins_of_displaces (hfits : plan.Fits m place)
    (h : plan.Displaces m place) : ¬ KeepsOrigins m (exec (plan.perform place) m).2 := by
  obtain ⟨name, file, hown, hloaded, hnew⟩ := h
  rw [m.has_eq_isSome_origin? name] at hloaded
  obtain ⟨o, ho⟩ := Option.isSome_iff_exists.mp hloaded
  have hprepared := origin?_prepared hown hnew
  intro hkeeps
  have hafter := hkeeps name o ho
  rcases perform_ends hfits with hext | ⟨name', file', e, m', hown', -, hrun, -⟩
  · -- The module that runs is from the file, and the one before was not.
    obtain rfl := Option.some.inj ((hext.stays _ _ hprepared).symm.trans hafter)
    have hfrom : m.isLoadedFrom name file = true :=
      Modules.isLoadedFrom_iff.mpr ⟨_, ho, Import.mem_locations_sourceAs name file⟩
    exact absurd (hnew.symm.trans hfrom) nofun
  · obtain ⟨rfl, rfl⟩ := Prod.mk.inj (Option.some.inj (hown'.symm.trans hown))
    rw [hrun, m'.origin?_forget, if_pos rfl] at hafter
    exact absurd hafter nofun

/-- A plan keeps all modules where they come from, whether it succeeds or fails,
exactly if its file takes no name away from another one. -/
theorem keepsOrigins_perform_iff (hfits : plan.Fits m place) :
    KeepsOrigins m (exec (plan.perform place) m).2 ↔ ¬ plan.Displaces m place := by
  refine ⟨fun hkeeps h => not_keepsOrigins_of_displaces hfits h hkeeps, fun h key o ho => ?_⟩
  have hprepared := keepsOrigins_prepared h key o ho
  rcases perform_ends hfits with hext | ⟨name, file, e, m', hown, hnew, hrun, hext⟩
  · exact hext.stays key o hprepared
  · -- Only the module of the file is taken out, and that is a new one.
    have hne : key ≠ name := by
      rintro rfl
      refine h ⟨key, file, hown, ?_, hnew⟩
      rw [m.has_eq_isSome_origin? key, ho]
      rfl
    rw [hrun, m'.origin?_forget, if_neg hne]
    exact hext.stays key o hprepared

theorem exists_origin?_prepared {name : String} {file : Place}
    (hown : plan.own? place = some (name, file)) :
    ∃ o, (plan.prepared m place).origin? name = some o := by
  unfold prepared
  rw [hown]
  dsimp only
  split
  · next hloaded =>
      obtain ⟨o, ho, -⟩ := Modules.isLoadedFrom_iff.mp hloaded
      exact ⟨o, ho⟩
  · exact ⟨_, by rw [m.origin?_register, if_pos rfl]⟩

/-- A plan that succeeds answers its name, and the module under it comes from where
the name stood in the prepared table. -/
theorem stands_of_perform (hfits : plan.Fits m place) {answer : String}
    (h : exec (plan.perform place) m = (.ok answer, m')) :
    answer = plan.answer ∧
      ∃ o, m'.origin? plan.answer = some o ∧ Stands (plan.prepared m place) plan.answer o := by
  unfold perform at h
  rcases start_ends hfits with ⟨m₁, hrun, hext⟩ | ⟨_, _, e, m₁, -, -, hrun, -⟩
  · rw [exec_bind_of_ok hrun] at h
    rcases hfinish : exec plan.finish m₁ with ⟨e | ⟨⟩, m₂⟩
    · rw [exec_bind_of_error hfinish] at h
      exact absurd (Prod.mk.inj h).1 nofun
    · rw [exec_bind_of_ok hfinish] at h
      obtain ⟨hanswer, rfl⟩ := Prod.mk.inj h
      refine ⟨(Except.ok.inj hanswer).symm, ?_⟩
      -- A search finds what stood under the name; without one nothing more is loaded.
      have hsearch : ∀ name, exec (Import.module name) m₁ = (.ok ⟨⟩, m₂) →
          ∃ o, m₂.origin? name = some o ∧ Stands (plan.prepared m place) name o := by
        intro name hname
        obtain ⟨o, ho, hstands⟩ := Import.stands_of_module hname
        exact ⟨o, ho, hext.stands_of_stands hstands⟩
      cases plan with
      | kept name =>
          obtain ⟨o, ho, -⟩ := Modules.isLoadedFrom_iff.mp (hfits.kept name rfl)
          obtain rfl := (Prod.mk.inj hfinish).2
          exact ⟨o, hext.stays name o ho, .loaded ho⟩
      | search name => exact hsearch name hfinish
      | package top name directory => exact hsearch name hfinish
      | run name =>
          have hown : (Plan.run name).own? place = some (name, place) := rfl
          obtain ⟨o, ho⟩ := exists_origin?_prepared (m := m) hown
          obtain rfl := (Prod.mk.inj hfinish).2
          exact ⟨o, hext.stays name o ho, .loaded ho⟩
  · rw [exec_bind_of_error hrun] at h
    exact absurd (Prod.mk.inj h).1 nofun

end Plan

/-! ## Calls -/

/-- A file to be imported, scanned from a root. -/
structure Call where
  place : Place
  root : Option Place

namespace Call

/-- A call is for a module file of the tree. -/
structure IsFor (t : Tree) (c : Call) : Prop where
  file : t.isFileAt c.place = true
  name : isModulePlace c.place = true

/-- Make a call. -/
def run (c : Call) : Load String := importFile c.place c.root

/-- The table after a call, whatever its outcome. -/
def after (m : Modules) (c : Call) : Modules := (exec c.run m).2

/-- The plan of a call, if the file has a name and that a top-level location. -/
def plan? (m : Modules) (c : Call) : Option Plan :=
  (Naming.moduleName m.tree c.place c.root >>= planOf m c.place).toOption

/-- The call runs a file under a name that is in use for another one. -/
def Displaces (m : Modules) (c : Call) : Prop :=
  ∃ plan, c.plan? m = some plan ∧ plan.Displaces m c.place

end Call

/-- A module comes from a file, or from its directory if the file makes that a package. -/
def IsOf (o : Origin) (place : Place) : Prop :=
  place ∈ o.locations ∨
    place.getLast? = some Naming.packageFile ∧ place.dropLast ∈ o.locations

/-- The name that a call is going to answer stands for the file itself, once the file
that the call runs is in the table. -/
def Call.Leads (m : Modules) (c : Call) : Prop :=
  ∃ plan o, c.plan? m = some plan ∧ Stands (plan.prepared m c.place) plan.answer o ∧ IsOf o c.place

/-- The table after some calls. -/
def tableAfter (m : Modules) : List Call → Modules
  | [] => m
  | c :: rest => tableAfter (c.after m) rest

section Calls

variable {m m' : Modules} {c : Call}

theorem exec_run_of_plan {plan : Plan} (h : c.plan? m = some plan) :
    exec c.run m = exec (plan.perform c.place) m := by
  unfold Call.plan? at h
  rw [Call.run, exec_importFile]
  cases hplan : Naming.moduleName m.tree c.place c.root >>= planOf m c.place with
  | error e =>
      rw [hplan] at h
      exact absurd h nofun
  | ok planned =>
      rw [hplan] at h
      obtain rfl := Option.some.inj h
      rfl

theorem exec_run_of_unnamed (h : c.plan? m = none) :
    ∃ e, exec c.run m = (.error e, m) := by
  unfold Call.plan? at h
  rw [Call.run, exec_importFile]
  cases hplan : Naming.moduleName m.tree c.place c.root >>= planOf m c.place with
  | error e => exact ⟨e, rfl⟩
  | ok plan =>
      rw [hplan] at h
      exact absurd h nofun

theorem fits_of_plan? (hc : c.IsFor m.tree) {plan : Plan} (h : c.plan? m = some plan) :
    plan.Fits m c.place := by
  unfold Call.plan? at h
  cases hplan : Naming.moduleName m.tree c.place c.root >>= planOf m c.place with
  | error e =>
      rw [hplan] at h
      exact absurd h nofun
  | ok planned =>
      rw [hplan] at h
      obtain rfl := Option.some.inj h
      obtain ⟨name, -, hplan⟩ := Outcome.bind_ok_iff.mp hplan
      exact Plan.fits_planOf hc.file hc.name hplan

theorem keepsOrigins_after_iff (hc : c.IsFor m.tree) :
    KeepsOrigins m (c.after m) ↔ ¬ c.Displaces m := by
  unfold Call.after Call.Displaces
  cases hplan : c.plan? m with
  | none =>
      obtain ⟨e, hrun⟩ := exec_run_of_unnamed hplan
      rw [hrun]
      exact iff_of_true (fun _ _ ho => ho) (by simp)
  | some plan =>
      rw [exec_run_of_plan hplan, Plan.keepsOrigins_perform_iff (fits_of_plan? hc hplan)]
      simp

theorem isOf_answer_iff (hc : c.IsFor m.tree) {answer : String}
    (h : exec c.run m = (.ok answer, m')) :
    (∃ o, m'.origin? answer = some o ∧ IsOf o c.place) ↔ c.Leads m := by
  unfold Call.Leads
  cases hplan : c.plan? m with
  | none =>
      obtain ⟨e, hrun⟩ := exec_run_of_unnamed hplan
      exact absurd (Prod.mk.inj (hrun.symm.trans h)).1 nofun
  | some plan =>
      -- The name that is answered has one standing, so there is one module to compare with.
      rw [exec_run_of_plan hplan] at h
      obtain ⟨rfl, o, ho, hstands⟩ := Plan.stands_of_perform (fits_of_plan? hc hplan) h
      constructor
      · rintro ⟨o', ho', hof⟩
        obtain rfl := Option.some.inj (ho.symm.trans ho')
        exact ⟨plan, o, rfl, hstands, hof⟩
      · rintro ⟨plan', o', hplan', hstands', hof⟩
        obtain rfl := Option.some.inj hplan'
        obtain rfl := hstands.unique hstands'
        exact ⟨o, ho, hof⟩

/-- A file that is run itself is what the call answers. -/
theorem leads_of_run {name : String} (h : c.plan? m = some (.run name)) : c.Leads m := by
  have hown : (Plan.run name).own? c.place = some (name, c.place) := rfl
  cases hloaded : m.isLoadedFrom name c.place with
  | true =>
      obtain ⟨o, ho, hplace⟩ := Modules.isLoadedFrom_iff.mp hloaded
      refine ⟨_, o, h, .loaded ?_, .inl hplace⟩
      unfold Plan.prepared
      rw [hown]
      dsimp only
      rw [if_pos hloaded]
      exact ho
  | false =>
      refine ⟨_, (Import.sourceAs name c.place).origin, h, .loaded ?_,
        .inl (Import.mem_locations_sourceAs _ _)⟩
      exact Plan.origin?_prepared hown hloaded

/-- Loading leaves the files as they are. -/
theorem tree_after (hc : c.IsFor m.tree) : (c.after m).tree = m.tree := by
  unfold Call.after
  cases hplan : c.plan? m with
  | none =>
      obtain ⟨e, hrun⟩ := exec_run_of_unnamed hplan
      rw [hrun]
  | some plan =>
      have hprepared : (plan.prepared m c.place).tree = m.tree := by
        unfold Plan.prepared
        split
        · split <;> rfl
        · rfl
      rw [exec_run_of_plan hplan]
      rcases Plan.perform_ends (fits_of_plan? hc hplan) with hext | ⟨_, _, e, m', -, -, hrun, hext⟩
      · exact hext.tree.trans hprepared
      · rw [hrun]
        exact hext.tree.trans hprepared

theorem KeepsOrigins.trans {m m' m'' : Modules} (h : KeepsOrigins m m')
    (h' : KeepsOrigins m' m'') : KeepsOrigins m m'' := fun name o ho => h' name o (h name o ho)

theorem tree_tableAfter {calls : List Call} (hcalls : ∀ c ∈ calls, c.IsFor m.tree) :
    (tableAfter m calls).tree = m.tree := by
  induction calls generalizing m with
  | nil => rfl
  | cons c rest ih =>
      obtain ⟨hc, hrest⟩ := List.forall_mem_cons.mp hcalls
      have htree : (c.after m).tree = m.tree := tree_after hc
      exact (ih (htree ▸ hrest)).trans htree

/-- While no call displaces a module, all modules stay where they come from. -/
theorem keepsOrigins_tableAfter {calls : List Call} (hcalls : ∀ c ∈ calls, c.IsFor m.tree)
    (h : ∀ before c rest, calls = before ++ c :: rest → ¬ c.Displaces (tableAfter m before)) :
    KeepsOrigins m (tableAfter m calls) := by
  induction calls generalizing m with
  | nil => exact fun _ _ ho => ho
  | cons c rest ih =>
      obtain ⟨hc, hrest⟩ := List.forall_mem_cons.mp hcalls
      have hfirst : KeepsOrigins m (c.after m) :=
        (keepsOrigins_after_iff hc).mpr (h [] c rest rfl)
      refine hfirst.trans (ih (tree_after hc ▸ hrest) fun before d after heq => ?_)
      exact h (c :: before) d after (congrArg (c :: ·) heq)

/-- Files that are imported one after the other.  A call leaves every module where it
comes from, whether it succeeds or fails, exactly if the file that it runs takes no
name away from another one; while that is so, all modules stay through all calls.
A call that succeeds answers a module that comes from the file exactly if that is
what its name stands for. -/
theorem importFile_origins {calls : List Call} (hcalls : ∀ c ∈ calls, c.IsFor m.tree) :
    ((∀ before c rest, calls = before ++ c :: rest → ¬ c.Displaces (tableAfter m before)) →
      KeepsOrigins m (tableAfter m calls)) ∧
    ∀ before c rest, calls = before ++ c :: rest →
      (KeepsOrigins (tableAfter m before) (c.after (tableAfter m before)) ↔
        ¬ c.Displaces (tableAfter m before)) ∧
      ∀ answer m', exec c.run (tableAfter m before) = (.ok answer, m') →
        ((∃ o, m'.origin? answer = some o ∧ IsOf o c.place) ↔ c.Leads (tableAfter m before)) := by
  refine ⟨keepsOrigins_tableAfter hcalls, fun before c rest heq => ?_⟩
  have hbefore : ∀ d ∈ before, d.IsFor m.tree := fun d hd =>
    hcalls d (heq ▸ List.mem_append_left _ hd)
  have hc : c.IsFor (tableAfter m before).tree := by
    rw [tree_tableAfter hbefore]
    exact hcalls c (heq ▸ List.mem_append_right _ List.mem_cons_self)
  exact ⟨keepsOrigins_after_iff hc, fun _ _ h => isOf_answer_iff hc h⟩

end Calls

/-! ### A file with the name of a module that is loaded -/

/-- A directory with one file. -/
def jsonTree : Tree := ⟨[], [(["json.py"], .file (.program ⟨[], false⟩))]⟩

/-- The table in which a module of that name from outside the files is loaded. -/
def jsonTable : Modules :=
  (Modules.start jsonTree .nowhere []).register "json"
    ((ModuleSource.outside (.ok [])).blank "json")

/-- The call for the file. -/
def jsonCall : Call := ⟨["json.py"], none⟩

theorem isFor_jsonCall : jsonCall.IsFor jsonTable.tree :=
  ⟨rfl, (isModulePlace_append_singleton [] "json.py").trans (endsWith_append_py "json")⟩

/-- A private name starts with a mark of its own. -/
theorem head?_privateTop (top : String) (place : Place) :
    (Naming.privateTop top place).toList.head? = some '_' := by
  unfold Naming.privateTop
  rw [String.append_assoc, String.append_assoc, String.toList_append]
  rfl

theorem plan?_jsonCall : jsonCall.plan? jsonTable =
    some (.run (Naming.privateTop "json" ["json.py"])) := by
  have hname : Naming.moduleName jsonTree ["json.py"] none = .ok "json" := rfl
  have hcut : Naming.cutFirst "json" = ("json", none) := by decide
  have htop : Naming.topLevelPlace ["json.py"] "json" = .ok ["json.py"] := rfl
  have hbound : boundPlaces jsonTable "json" = some [] := by decide
  show (Naming.moduleName jsonTree ["json.py"] none >>= _).toOption = _
  rw [hname]
  show (planOf jsonTable ["json.py"] "json").toOption = _
  unfold planOf
  rw [hcut]
  dsimp only
  rw [htop, hbound]
  rfl

/-- The file is imported as itself, under a private name, and the module of its name stays. -/
theorem importFile_origins_jsonTable :
    (jsonCall.after jsonTable).origin? "json" = some ⟨[], some []⟩ ∧
      ∀ answer m', exec jsonCall.run jsonTable = (.ok answer, m') →
        ∃ o, m'.origin? answer = some o ∧ IsOf o ["json.py"] := by
  have hcalls : ∀ c ∈ [jsonCall], c.IsFor jsonTable.tree := by
    intro c hc
    exact List.mem_singleton.mp hc ▸ isFor_jsonCall
  obtain ⟨hkeeps, hhome⟩ := (importFile_origins hcalls).2 [] jsonCall [] rfl
  have hfree : jsonTable.origin? (Naming.privateTop "json" ["json.py"]) = none := by
    have hne : Naming.privateTop "json" ["json.py"] ≠ "json" := by
      intro heq
      have hhead := head?_privateTop "json" ["json.py"]
      rw [heq] at hhead
      exact absurd hhead (by decide)
    unfold jsonTable
    rw [Modules.origin?_register, if_neg hne]
    rfl
  refine ⟨hkeeps.mpr ?_ "json" ⟨[], some []⟩ rfl, fun answer m' h => (hhome answer m' h).mpr ?_⟩
  · rintro ⟨plan, hplan, name, file, hown, hloaded, -⟩
    obtain rfl := Option.some.inj (plan?_jsonCall.symm.trans hplan)
    obtain ⟨rfl, -⟩ := Prod.mk.inj (Option.some.inj hown)
    have hfound : (jsonTable.origin? (Naming.privateTop "json" ["json.py"])).isSome = true := by
      rw [← Modules.has_eq_isSome_origin?]
      exact hloaded
    rw [hfree] at hfound
    exact absurd hfound Bool.false_ne_true
  · exact leads_of_run plan?_jsonCall

/-! ### Files that are not imported as themselves -/

/-- The content of a file without statements. -/
def bareFile : Node := .file (.program ⟨[], false⟩)

/-- A package with a file and a package of the same name in it. -/
def shadowTree : Tree :=
  ⟨[], [(["pkg"], .directory), (["pkg", "__init__.py"], bareFile), (["pkg", "mod.py"], bareFile),
    (["pkg", "mod"], .directory), (["pkg", "mod", "__init__.py"], bareFile)]⟩

/-- The call for the file. -/
def shadowCall : Call := ⟨["pkg", "mod.py"], none⟩

theorem plan?_shadowCall : shadowCall.plan? (Modules.start shadowTree .nowhere []) =
    some (.package "pkg" "pkg.mod" ["pkg"]) := by
  have hname : Naming.moduleName shadowTree ["pkg", "mod.py"] none = .ok "pkg.mod" := rfl
  have hcut : Naming.cutFirst "pkg.mod" = ("pkg", some "mod") := by decide
  have htop : Naming.topLevelPlace ["pkg", "mod.py"] "pkg.mod" = .ok ["pkg"] := rfl
  show (Naming.moduleName shadowTree ["pkg", "mod.py"] none >>= _).toOption = _
  rw [hname]
  show (planOf (Modules.start shadowTree .nowhere []) ["pkg", "mod.py"] "pkg.mod").toOption = _
  unfold planOf
  rw [hcut]
  dsimp only
  rw [htop]
  rfl

/-- The file is found to be `pkg.mod`, and the package of that name is answered. -/
theorem exec_shadowCall : ∃ m', exec shadowCall.run (Modules.start shadowTree .nowhere []) =
      (.ok "pkg.mod", m') ∧
    m'.origin? "pkg.mod" =
      some ⟨[["pkg", "mod", "__init__.py"], ["pkg", "mod"]], some [["pkg", "mod"]]⟩ := by
  let m : Modules := Modules.start shadowTree .nowhere []
  let m₁ : Modules := m.register "pkg" ((ModuleSource.package ["pkg"]).blank "pkg")
  let m₂ : Modules := m₁.register "pkg.mod" ((ModuleSource.package ["pkg", "mod"]).blank "pkg.mod")
  -- The package is registered first; the full name then finds the directory of the same name
  -- in it before the file.
  have hstart : exec (Import.file "pkg" ["pkg", "__init__.py"]) m = (.ok ⟨⟩, m₁) := by
    have hpy : isModulePlace ["pkg", "__init__.py"] = true :=
      (isModulePlace_append_singleton ["pkg"] _).trans endsWith_packageFile
    rw [Import.exec_file_of_new rfl hpy]
    rfl
  have hfinish : exec (Import.module "pkg.mod") m₁ = (.ok ⟨⟩, Import.bound "pkg.mod" m₂) := by
    have hpending : Import.pending m₁ "pkg.mod" = ["pkg.mod"] := by decide
    have hsource : m₁.sourceOf? "pkg.mod" = some (.package ["pkg", "mod"]) := rfl
    have henters : Import.Imports m₁ "pkg.mod" .arrived (Import.bound "pkg.mod" m₂) := by
      unfold Import.Imports
      rw [hpending]
      exact .entered rfl hsource rfl .done
    exact henters.exec_module
  refine ⟨Import.bound "pkg.mod" m₂, ?_, rfl⟩
  rw [exec_run_of_plan plan?_shadowCall]
  show exec (Import.file "pkg" ["pkg", "__init__.py"] >>= fun _ =>
    Import.module "pkg.mod" >>= fun _ => pure "pkg.mod") m = _
  rw [exec_bind_of_ok hstart, exec_bind_of_ok hfinish]
  rfl

/-- Two files whose names come from the same place: `a.b` is the file `b.py` of the scanned
directory `a`, and the stem of the file `a.b.py`. -/
def clashTree : Tree :=
  ⟨[], [(["a"], .directory), (["a", "b.py"], bareFile), (["a", "a.b.py"], bareFile)]⟩

/-- The name that both get while `a` leads outside the files. -/
def clashName : String := Naming.privateTop "a" ["a"] ++ "." ++ "b"

/-- The table in which `a` is the name of a module outside the files. -/
def clashTable : Modules := Modules.start clashTree (.ofTable [("a", .ok [])]) []

/-- The call for the first file. -/
def firstCall : Call := ⟨["a", "b.py"], some ["a"]⟩

/-- The call for the second file. -/
def secondCall : Call := ⟨["a", "a.b.py"], none⟩

theorem boundPlaces_of_outside {m : Modules} {top : String} (hnew : m.origin? top = none)
    {held : Outcome (Entries OutsideBinding)} (houtside : m.outside top = some held) :
    boundPlaces m top = some [] := by
  have hget : Entries.get? top m.loaded = none := Option.map_eq_none_iff.mp hnew
  unfold boundPlaces Modules.findTop? Modules.find?
  rw [hget, houtside]
  rfl

theorem head?_clashName : clashName.toList.head? = some '_' := by
  unfold clashName
  rw [String.append_assoc, String.toList_append, List.head?_append, head?_privateTop]
  rfl

/-- Both files get the name, whether a file is loaded under it or not. -/
theorem plan?_clash {m : Modules} (htree : m.tree = clashTree)
    (houtside : m.outside "a" = some (.ok []))
    (hfree : ∀ name, name ≠ clashName → m.origin? name = none) {place : Place}
    {root : Option Place} (hname : Naming.moduleName clashTree place root = .ok "a.b")
    (htop : Naming.topLevelPlace place "a.b" = .ok ["a"]) :
    Call.plan? m ⟨place, root⟩ = some (.run clashName) := by
  -- Neither the full name nor its first part is loaded, only the replacement for the name taken.
  have hdotted : m.origin? "a.b" = none := by
    refine hfree _ fun heq => ?_
    have hhead := head?_clashName
    rw [← heq] at hhead
    exact absurd hhead (by decide)
  have hplain : m.origin? "a" = none := by
    refine hfree _ fun heq => ?_
    have hhead := head?_clashName
    rw [← heq] at hhead
    exact absurd hhead (by decide)
  have hkept : m.isLoadedFrom "a.b" place = false := by
    have hget : Entries.get? "a.b" m.loaded = none := Option.map_eq_none_iff.mp hdotted
    unfold Modules.isLoadedFrom
    rw [hget]
  have hbound : boundPlaces m "a" = some [] := boundPlaces_of_outside hplain houtside
  have hcut : Naming.cutFirst "a.b" = ("a", some "b") := by decide
  have hpackage : Naming.isPackage m.tree ["a"] = false := by
    rw [htree]
    rfl
  unfold Call.plan?
  rw [htree, hname]
  show (planOf m place "a.b").toOption = _
  unfold planOf
  rw [hcut]
  dsimp only
  rw [if_neg (by simp [hkept]), htop]
  show (if ((boundPlaces m "a").getD []).contains ["a"] then _ else _ : Outcome Plan).toOption = _
  rw [hbound, if_neg (by simp), if_neg (by simp [hpackage])]
  rfl

theorem plan?_firstCall : firstCall.plan? clashTable = some (.run clashName) :=
  plan?_clash rfl rfl (fun _ _ => rfl) rfl rfl

/-- The table after the first call. -/
theorem after_firstCall : firstCall.after clashTable =
    clashTable.register clashName ((Import.sourceAs clashName ["a", "b.py"]).blank clashName) := by
  have hpy : isModulePlace ["a", "b.py"] = true :=
    (isModulePlace_append_singleton ["a"] "b.py").trans (endsWith_append_py "b")
  have hrun : exec (Import.file clashName ["a", "b.py"]) clashTable = (.ok ⟨⟩,
      clashTable.register clashName
        ((Import.sourceAs clashName ["a", "b.py"]).blank clashName)) := by
    rw [Import.exec_file_of_new rfl hpy]
    rfl
  unfold Call.after
  rw [exec_run_of_plan plan?_firstCall]
  show (exec (Import.file clashName ["a", "b.py"] >>= fun _ =>
    (pure PUnit.unit : Load PUnit) >>= fun _ => pure clashName) clashTable).2 = _
  rw [exec_bind_of_ok hrun]
  rfl

/-- Neither do files always come from where they are expected, nor do names stay with
their files: a package in the place of a file is answered for it, and the second of two
files takes the name of the first. -/
theorem importFile_astray :
    (∃ m', exec shadowCall.run (Modules.start shadowTree .nowhere []) = (.ok "pkg.mod", m') ∧
      ¬ ∃ o, m'.origin? "pkg.mod" = some o ∧ IsOf o shadowCall.place) ∧
    ¬ KeepsOrigins (firstCall.after clashTable)
      (secondCall.after (firstCall.after clashTable)) := by
  refine ⟨?_, ?_⟩
  · obtain ⟨m', hrun, ho⟩ := exec_shadowCall
    refine ⟨m', hrun, ?_⟩
    rintro ⟨o, ho', hof⟩
    obtain rfl := Option.some.inj (ho.symm.trans ho')
    rcases hof with hof | ⟨hlast, -⟩
    · exact absurd hof (by decide)
    · exact absurd hlast (by decide)
  · have hc : secondCall.IsFor (firstCall.after clashTable).tree := by
      rw [after_firstCall]
      exact ⟨rfl, (isModulePlace_append_singleton ["a"] "a.b.py").trans (endsWith_append_py "a.b")⟩
    have horigin : (firstCall.after clashTable).origin? clashName
        = some (Import.sourceAs clashName ["a", "b.py"]).origin := by
      rw [after_firstCall, Modules.origin?_register, if_pos rfl]
      rfl
    have hplan : secondCall.plan? (firstCall.after clashTable) = some (.run clashName) := by
      rw [after_firstCall]
      refine plan?_clash rfl rfl (fun name hne => ?_) rfl rfl
      rw [Modules.origin?_register, if_neg hne]
      rfl
    rw [keepsOrigins_after_iff hc, not_not]
    refine ⟨_, hplan, clashName, ["a", "a.b.py"], rfl, ?_, ?_⟩
    · rw [Modules.has_eq_isSome_origin?, horigin]
      rfl
    · rw [Bool.eq_false_iff]
      intro hloaded
      obtain ⟨o, ho, hplace⟩ := Modules.isLoadedFrom_iff.mp hloaded
      obtain rfl := Option.some.inj (horigin.symm.trans ho)
      have hplace : ["a", "a.b.py"] ∈ [["a", "b.py"]] := hplace
      exact absurd hplace (by decide)

end Discover
end Routebook
