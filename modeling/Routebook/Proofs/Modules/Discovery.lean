/-
  Routebook.Proofs.Modules.Discovery

  Finding classes, over files that look alike.  If a path leads to the same in
  both (`Tree.SameAt`), the same classes are found for it, with the same
  outcome and the same modules loaded (`same_classes`).  Classes whose modules
  are all loaded are found without loading anything (`exec_classes_of_loaded`).
-/
import Routebook.Modules.Discover
import Routebook.Proofs.Modules.Loading

namespace Routebook

open Discover

/-- In both trees a path leads to the same, and so do the module files below it. -/
structure Tree.SameAt (t t' : Tree) (p : Path) : Prop where
  probe : t'.probe p = t.probe p
  files : moduleFilesOf t' p = moduleFilesOf t p
  read : ∀ c, t.probe p = .ok (some (.file c)) → t'.read p = t.read p
  readFiles : ∀ q ∈ moduleFilesOf t p, t'.read q = t.read q

theorem Tree.SameAt.refl (t : Tree) (p : Path) : t.SameAt t p :=
  ⟨rfl, rfl, fun _ _ => rfl, fun _ _ => rfl⟩

namespace Tree.LooksLike

variable {t t' : Tree} (h : t.LooksLike t')
include h

theorem resolve (p : Path) : t'.resolve p = t.resolve p := by
  unfold Tree.resolve Tree.startOf
  rw [h.here]

theorem packagesAround (steps : Nat) (directory : Place) (found : List String) :
    Naming.packagesAround t' steps directory found
      = Naming.packagesAround t steps directory found := by
  induction steps generalizing directory found with
  | zero => rfl
  | succ steps ih => simp only [Naming.packagesAround, h.isPackage, ih]

theorem moduleName (place : Place) (root : Option Place) :
    Naming.moduleName t' place root = Naming.moduleName t place root := by
  simp only [Naming.moduleName, Naming.parts, Naming.packages, h.packagesAround]

end Tree.LooksLike

theorem declaredNames_congr {t t' : Tree} {p : Path} (h : t'.read p = t.read p) :
    declaredNames t' p = declaredNames t p := by
  unfold declaredNames
  rw [h]

namespace Import

variable {t t' : Tree} (hlook : t.LooksLike t')
include hlook

theorem boundPlaces_withTree {m : Modules} (hm : m.tree = t) (top : String) :
    boundPlaces (m.withTree t') top = boundPlaces m top := by
  unfold boundPlaces
  rw [findTop?_withTree hlook hm]
  rfl

theorem same_importFile (place : Place) (root : Option Place) :
    Same t t' (fun _ => True) (importFile place root) := by
  refine same_get (fun m hm => ?_) fun m _ _ => ?_
  · have hname : Naming.moduleName (m.withTree t').tree place root
        = Naming.moduleName m.tree place root := by
      rw [hm]
      exact hlook.moduleName place root
    -- Names and packages are read off the files, and these look alike in both trees.
    have hpackage : ∀ d, Naming.isPackage (m.withTree t').tree d = Naming.isPackage m.tree d := by
      rw [hm]
      exact hlook.isPackage
    simp only [hname, hpackage, boundPlaces_withTree hlook hm]
    rfl
  · refine same_bind (same_lift fun _ _ => trivial) fun name _ => ?_
    split
    · exact same_pure trivial
    · refine same_bind (same_lift fun _ _ => trivial) fun topPlace _ => ?_
      refine same_ite ?_ (same_ite ?_ ?_)
      · exact same_bind (same_module hlook name) fun _ _ => same_pure trivial
      · refine same_bind (same_file hlook _ _) fun _ _ => ?_
        exact same_bind (same_module hlook _) fun _ _ => same_pure trivial
      · exact same_bind (same_file hlook _ _) fun _ _ => same_pure trivial

theorem same_classesInFile {p : Path} (hread : t'.read p = t.read p) (root : Option Place) :
    Same t t' (fun _ => True) (classesInFile p root) := by
  refine same_get (fun m hm => ?_) fun m _ _ => ?_
  · have hnames : declaredNames (m.withTree t').tree p = declaredNames m.tree p := by
      rw [hm]
      exact declaredNames_congr hread
    have hplace : (m.withTree t').tree.resolve p = m.tree.resolve p := by
      rw [hm]
      exact hlook.resolve p
    rw [hnames, hplace]
  · refine same_bind (same_lift fun _ _ => trivial) fun names _ => ?_
    split
    · exact same_pure trivial
    · refine same_bind (same_importFile hlook _ _) fun module _ => ?_
      exact same_get (fun _ _ => rfl) fun _ _ _ => same_pure trivial

theorem same_classesInFiles (root : Place) {ps : List Path}
    (hread : ∀ p ∈ ps, t'.read p = t.read p) :
    Same t t' (fun _ => True) (classesInFiles root ps) := by
  induction ps with
  | nil => exact same_pure trivial
  | cons p rest ih =>
      refine same_bind (same_classesInFile hlook (hread p List.mem_cons_self) _) fun found _ => ?_
      refine same_bind (ih fun q hq => hread q (List.mem_cons_of_mem _ hq)) fun more _ => ?_
      exact same_pure trivial

theorem same_importClass (dotted : String) :
    Same t t' (fun _ => True) (importClass dotted) := by
  unfold importClass
  dsimp only
  split
  · exact same_pure trivial
  · split
    · exact same_bind (Q := fun _ => False) (same_throw _) fun _ h => h.elim
    · refine same_tryCatch ?_ fun e => ?_
      · refine same_bind (same_module hlook _) fun _ _ => ?_
        exact same_get (fun _ _ => rfl) fun _ _ _ => same_pure trivial
      · unfold withoutModule
        split
        · split
          · exact same_pure trivial
          · exact same_throw _
        · exact same_throw _

/-- The same classes are found for a path that leads to the same in both trees. -/
theorem same_classes {text : String} (hpath : t.SameAt t' (Path.ofText text)) :
    Same t t' (fun _ => True) (classes text) := by
  refine same_get (fun m hm => ?_) fun m hm _ => ?_
  · have hprobe : (m.withTree t').tree.probe (Path.ofText text)
        = m.tree.probe (Path.ofText text) := by
      rw [hm]
      exact hpath.probe
    have hplace : (m.withTree t').tree.resolve (Path.ofText text)
        = m.tree.resolve (Path.ofText text) := by
      rw [hm]
      exact hlook.resolve _
    have hfiles : moduleFilesOf (m.withTree t').tree (Path.ofText text)
        = moduleFilesOf m.tree (Path.ofText text) := by
      rw [hm]
      exact hpath.files
    simp only [hprobe, hplace, hfiles]
  · have hprobe : ∀ r, m.tree.probe (Path.ofText text) = .ok r →
        t.probe (Path.ofText text) = .ok r := fun r hr => hm ▸ hr
    -- The path leads to a file, to a directory, or it is read as the name of a class.
    refine same_bind (same_lift hprobe) fun r hr => ?_
    split
    · exact same_classesInFile hlook (hpath.read _ hr) none
    · refine same_classesInFiles hlook _ fun q hq => ?_
      rw [hm] at hq
      exact hpath.readFiles q hq
    · exact same_bind (same_importClass hlook text) fun _ _ => same_pure trivial

end Import

/-! ## Finding classes again -/

namespace Discover

open Steps

/-- Whether nothing has to be loaded for the classes of a file: it declares none, or
its module is loaded from it. -/
def isFileLoaded (m : Modules) (root : Option Place) (p : Path) : Bool :=
  match declaredNames m.tree p, Naming.moduleName m.tree (m.tree.resolve p) root with
  | .ok [], _ => true
  | .ok _, .ok module => m.isLoadedFrom module (m.tree.resolve p)
  | _, _ => false

/-- Whether nothing has to be loaded for the classes of a path or a dotted name. -/
def isLoaded (m : Modules) (text : String) : Bool :=
  match m.tree.probe (Path.ofText text) with
  | .ok (some (.file _)) => isFileLoaded m none (Path.ofText text)
  | .ok (some .directory) => (moduleFilesOf m.tree (Path.ofText text)).all
      (isFileLoaded m (some (m.tree.resolve (Path.ofText text))))
  | .ok none => Entries.has (Naming.cutLast text).1 m.loaded
  | .error _ => true

section Loaded

variable {m : Modules} {root : Option Place} {text : String}

theorem exec_importLift (r : Outcome α) : exec (Import.lift r) m = (r, m) := by
  cases r <;> rfl

/-- On the way to a module that is loaded there is nothing to import. -/
theorem pending_of_loaded {name : String} (h : Entries.has name m.loaded = true) :
    Import.pending m name = [] := by
  unfold Import.pending Naming.wayTo
  rw [List.reverse_append, List.reverse_singleton, List.singleton_append,
    List.takeWhile_cons_of_neg (by simp [h]), List.reverse_nil]

theorem exec_module_of_loaded {name : String} (h : Entries.has name m.loaded = true) :
    exec (Import.module name) m = (.ok ⟨⟩, m) := by
  unfold Import.module
  rw [exec_bind_of_ok (exec_get m)]
  have hdepth : Import.depthBound m = Import.depthBound m - 1 + 1 := by
    unfold Import.depthBound
    omega
  rw [hdepth, Import.byName, exec_bind_of_ok (exec_get m), pending_of_loaded h]
  rfl

theorem exec_importFile_of_loaded {place : Place} {module : String}
    (hname : Naming.moduleName m.tree place root = .ok module)
    (hloaded : m.isLoadedFrom module place = true) :
    exec (importFile place root) m = (.ok module, m) := by
  unfold importFile
  rw [exec_bind_of_ok (exec_get m), hname, exec_bind_of_ok (exec_importLift _)]
  simp only [hloaded, if_true]
  rfl

theorem exec_classesInFile_of_loaded {p : Path} (h : isFileLoaded m root p = true) :
    ∃ found, exec (classesInFile p root) m = (.ok found, m) := by
  -- A file that is loaded is found under its name, so importing it answers at once.
  unfold isFileLoaded at h
  unfold classesInFile
  rw [exec_bind_of_ok (exec_get m)]
  rcases hnames : declaredNames m.tree p with e | names
  · rw [hnames] at h
    exact absurd h (by simp)
  · rw [exec_bind_of_ok (exec_importLift _)]
    rcases names with - | ⟨name, names⟩
    · exact ⟨[], rfl⟩
    · rcases hname : Naming.moduleName m.tree (m.tree.resolve p) root with e | module
      · rw [hnames, hname] at h
        exact absurd h (by simp)
      · rw [hnames, hname] at h
        simp only [List.isEmpty_cons, Bool.false_eq_true, if_false]
        rw [exec_bind_of_ok (exec_importFile_of_loaded hname h)]
        exact ⟨_, rfl⟩

theorem exec_classesInFiles_of_loaded {place : Place} {ps : List Path}
    (h : ∀ p ∈ ps, isFileLoaded m (some place) p = true) :
    ∃ found, exec (classesInFiles place ps) m = (.ok found, m) := by
  induction ps with
  | nil => exact ⟨[], rfl⟩
  | cons p rest ih =>
      obtain ⟨found, hfound⟩ := exec_classesInFile_of_loaded (h p List.mem_cons_self)
      obtain ⟨more, hmore⟩ := ih fun q hq => h q (List.mem_cons_of_mem _ hq)
      refine ⟨found ++ more, ?_⟩
      rw [classesInFiles, exec_bind_of_ok hfound, exec_bind_of_ok hmore]
      rfl

theorem exec_importClass_of_loaded (h : Entries.has (Naming.cutLast text).1 m.loaded = true) :
    (exec (importClass text) m).2 = m := by
  unfold importClass
  dsimp only
  split
  · rfl
  · split
    · rfl
    · have hnamed : exec (classNamed (Naming.cutLast text).1 (Naming.cutLast text).2) m
          = (.ok (classIn? m (Naming.cutLast text).1 (Naming.cutLast text).2), m) := by
        unfold classNamed
        rw [exec_bind_of_ok (exec_module_of_loaded h)]
        rfl
      rw [exec_tryCatch, hnamed]

/-- Where everything is loaded, classes are found without loading anything. -/
theorem exec_classes_of_loaded (h : isLoaded m text = true) : (exec (classes text) m).2 = m := by
  unfold isLoaded at h
  unfold classes
  dsimp only
  rw [exec_bind_of_ok (exec_get m), exec_bind, exec_importLift]
  rcases hprobe : m.tree.probe (Path.ofText text) with e | node
  · rfl
  · rw [hprobe] at h
    rcases node with - | node
    · have hsame := exec_importClass_of_loaded h
      simp only
      rw [exec_bind]
      generalize exec (importClass text) m = r at hsame ⊢
      rcases r with ⟨e | found, m'⟩
      · exact hsame
      · exact hsame
    · cases node with
      | file content =>
          obtain ⟨found, hfound⟩ := exec_classesInFile_of_loaded h
          simp only [hfound]
      | directory =>
          obtain ⟨found, hfound⟩ := exec_classesInFiles_of_loaded (List.all_eq_true.mp h)
          simp only [hfound]

end Loaded

end Discover
end Routebook
