/-
  Routebook.Proofs.Modules.Scanning

  Scanning a directory.  A listing shows every module file below the directory
  once, in the order of paths (`pairwise_moduleFiles`).  It shows directories of
  such names too: then the scan stops where it comes to the first of them
  (`outcome_classesInFiles_stop`), whatever the modules before it do.
-/
import Mathlib.Data.List.Lex
import Mathlib.Data.List.Sort
import Mathlib.Data.String.Basic
import Routebook.Proofs.Files.WellFormed
import Routebook.Proofs.Modules.Bindings

namespace Routebook

open Steps Discover

/-- A directory below a place has a name under which module files are listed. -/
def Tree.ListsDirectory (t : Tree) (place : Place) : Prop :=
  ∃ names, IsListed names ∧ t.node? (place ++ names) = some .directory

/-! ## The order of paths -/

namespace Discover

theorem pathLe_iff (a b : List String) : pathLe a b = true ↔ a ≤ b := by
  unfold pathLe
  simp

/-- Names are listed in order. -/
theorem sorted_moduleFiles (t : Tree) (place : Place) :
    (moduleFiles t place).Pairwise (· ≤ ·) := by
  have htrans : ∀ a b c, pathLe a b = true → pathLe b c = true → pathLe a c = true := by
    intro a b c hab hbc
    rw [pathLe_iff] at hab hbc ⊢
    exact hab.trans hbc
  have htotal : ∀ a b, (pathLe a b || pathLe b a) = true := by
    intro a b
    rw [Bool.or_eq_true, pathLe_iff, pathLe_iff]
    exact le_total a b
  exact (List.pairwise_mergeSort htrans htotal _).imp fun h => (pathLe_iff _ _).mp h

end Discover

namespace Tree.WellFormed

variable {t : Tree} (ht : t.WellFormed)
include ht

/-- Everything has one place, also on the way to the current directory. -/
theorem nodup_places : ((t.way ++ t.nodes).map Prod.fst).Nodup := by
  rw [List.map_append, List.nodup_append]
  refine ⟨?_, ht.distinct, ?_⟩
  · -- The directories on the way differ in how far they are from the top.
    unfold way
    rw [List.map_map]
    refine (List.nodup_range).map_on fun a ha b hb heq => ?_
    have hlength := congrArg List.length heq
    simp only [Function.comp_apply, List.length_take] at hlength
    have ha := List.mem_range.mp ha
    have hb := List.mem_range.mp hb
    omega
  · rintro q hway q' hnode rfl
    obtain ⟨d, hd, rfl⟩ := List.mem_map.mp hway
    obtain ⟨e, he, heq⟩ := List.mem_map.mp hnode
    exact ht.apart e he (heq ▸ (mem_way_iff.mp hd).1)

theorem nodup_below (place : Place) : ((t.below place).map Prod.fst).Nodup := by
  have hplaces : (t.way ++ t.nodes).Pairwise fun d e => d.1 ≠ e.1 :=
    List.pairwise_map.mp ht.nodup_places
  -- Two places below the same one with the same names behind it are the same place.
  refine List.pairwise_map.mpr (List.pairwise_filterMap.mpr (hplaces.imp ?_))
  intro d e hne d' hd e' he heq
  split at hd <;> split at he
  · next hind hine =>
      obtain rfl := Option.some.inj hd
      obtain rfl := Option.some.inj he
      obtain ⟨ns, hns⟩ := List.isPrefixOf_iff_prefix.mp (Bool.and_eq_true_iff.mp hind).1
      obtain ⟨ns', hns'⟩ := List.isPrefixOf_iff_prefix.mp (Bool.and_eq_true_iff.mp hine).1
      have heq : d.1.drop place.length = e.1.drop place.length := heq
      rw [← hns, ← hns', List.drop_left, List.drop_left] at heq
      exact hne (by rw [← hns, ← hns', heq])
  all_goals simp_all

/-- Every name is listed once, and in order. -/
theorem pairwise_moduleFiles (place : Place) : (moduleFiles t place).Pairwise (· < ·) := by
  have hnodup : (moduleFiles t place).Nodup :=
    (List.mergeSort_perm _ _).nodup_iff.mpr ((ht.nodup_below place).filter _)
  exact ((sorted_moduleFiles t place).and hnodup).imp fun h => lt_of_le_of_ne h.1 h.2

/-! ## Reading what is listed -/

variable {p f : Path} {place : Place} (hp : t.lookup p = .found place .directory)
include hp

/-- What is listed is a file that can be read or a directory. -/
theorem read_of_listed (hf : f ∈ moduleFilesOf t p) :
    isModulePlace (t.resolve f) = true ∧
      (t.isDirectoryAt (t.resolve f) = false ∧ (∃ content, t.read f = .ok content) ∨
        t.isDirectoryAt (t.resolve f) = true ∧ t.read f = .error .isDirectory) := by
  obtain ⟨names, rfl, hlisted, hthere⟩ := (mem_moduleFilesOf_iff hp).mp hf
  obtain ⟨node, hnode⟩ := Option.ne_none_iff_exists'.mp hthere
  have hlookup := ht.lookup_below hp hnode
  rw [← (lookup_found hlookup).1]
  refine ⟨hlisted.isModulePlace place, ?_⟩
  unfold isDirectoryAt read
  rw [hnode, hlookup]
  cases node with
  | file content => exact .inl ⟨rfl, content, rfl⟩
  | directory => exact .inr ⟨rfl, rfl⟩

/-- A directory is listed if and only if one has the name of a module file. -/
theorem exists_isDirectoryAt_iff :
    (∃ f ∈ moduleFilesOf t p, t.isDirectoryAt (t.resolve f) = true) ↔ t.ListsDirectory place := by
  -- In well-formed files the path of a listed name leads to the place of the name.
  have hplace : ∀ names node, t.node? (place ++ names) = some node →
      t.resolve ⟨p.root, p.parts ++ names⟩ = place ++ names := fun names node hnode =>
    (lookup_found (ht.lookup_below hp hnode)).1.symm
  constructor
  · rintro ⟨f, hf, hdir⟩
    obtain ⟨names, rfl, hlisted, hthere⟩ := (mem_moduleFilesOf_iff hp).mp hf
    obtain ⟨node, hnode⟩ := Option.ne_none_iff_exists'.mp hthere
    rw [hplace names node hnode] at hdir
    unfold isDirectoryAt at hdir
    rw [hnode] at hdir
    cases node with
    | directory => exact ⟨names, hlisted, hnode⟩
    | file content => exact absurd hdir (by simp)
  · rintro ⟨names, hlisted, hnode⟩
    refine ⟨⟨p.root, p.parts ++ names⟩, ?_, ?_⟩
    · exact (mem_moduleFilesOf_iff hp).mpr ⟨names, rfl, hlisted, by simp [hnode]⟩
    · rw [hplace names .directory hnode]
      unfold isDirectoryAt
      rw [hnode]

/-- If a directory is listed, there is a first one, and all before it can be read. -/
theorem exists_first_directory (h : t.ListsDirectory place) :
    ∃ before f after, moduleFilesOf t p = before ++ f :: after ∧
      (∀ g ∈ before, isModulePlace (t.resolve g) = true ∧ ∃ content, t.read g = .ok content) ∧
      t.read f = .error .isDirectory := by
  -- What stands before the first directory is listed too, so it is a file.
  have hsome := List.find?_isSome.mpr ((ht.exists_isDirectoryAt_iff hp).mpr h)
  obtain ⟨f, hfind⟩ := Option.isSome_iff_exists.mp hsome
  obtain ⟨hdir, before, after, hfiles, hbefore⟩ := List.find?_eq_some_iff_append.mp hfind
  refine ⟨before, f, after, hfiles, fun g hg => ?_, ?_⟩
  · have hmem : g ∈ moduleFilesOf t p := hfiles ▸ List.mem_append_left _ hg
    obtain ⟨hpy, ⟨-, hread⟩ | ⟨hlater, -⟩⟩ := ht.read_of_listed hp hmem
    · exact ⟨hpy, hread⟩
    · have hfile := hbefore g hg
      rw [hlater] at hfile
      exact absurd hfile (by simp)
  · have hmem : f ∈ moduleFilesOf t p := hfiles ▸ List.mem_append_right _ List.mem_cons_self
    rcases (ht.read_of_listed hp hmem).2 with ⟨hfile, -⟩ | ⟨-, hstop⟩
    · exact absurd (hdir.symm.trans hfile) (by simp)
    · exact hstop

end Tree.WellFormed

/-- A listing shows files only if and only if no directory is listed. -/
theorem Tree.forall_mem_moduleFiles_iff {t : Tree} {place : Place} :
    (∀ names, names ∈ moduleFiles t place ↔ IsListed names ∧ t.isFileAt (place ++ names) = true) ↔
      ¬ t.ListsDirectory place := by
  simp only [Tree.mem_moduleFiles_iff]
  constructor
  · rintro hexact ⟨names, hlisted, hdir⟩
    have hfile := ((hexact names).mp ⟨hlisted, by simp [hdir]⟩).2
    unfold Tree.isFileAt at hfile
    rw [hdir] at hfile
    exact absurd hfile (by simp)
  · intro hnone names
    refine and_congr_right fun hlisted => ?_
    have hdir : t.node? (place ++ names) ≠ some .directory := fun h => hnone ⟨names, hlisted, h⟩
    unfold Tree.isFileAt
    cases hnode : t.node? (place ++ names) with
    | none => simp
    | some node =>
        cases node with
        | directory => exact absurd hnode hdir
        | file content => simp

/-! ## Scanning what is listed -/

namespace Discover

variable {m : Modules} {f : Path} {root : Option Place}

/-- Looking for the classes of a module file leaves the files as they are. -/
theorem tree_classesInFile {content : Content} (hread : m.tree.read f = .ok content)
    (hpy : isModulePlace (m.tree.resolve f) = true) :
    (exec (classesInFile f root) m).2.tree = m.tree := by
  have hfile : m.tree.isFileAt (m.tree.resolve f) = true := by
    unfold Tree.read at hread
    split at hread
    · next place content' hlookup =>
        obtain ⟨rfl, hnode⟩ := Tree.lookup_found hlookup
        unfold Tree.isFileAt
        rw [hnode]
    · exact absurd hread (by simp)
  -- Only an import changes the table, and it is one of a file that is there.
  have hcall : Call.IsFor m.tree ⟨m.tree.resolve f, root⟩ := ⟨hfile, hpy⟩
  unfold classesInFile
  rw [exec_bind_of_ok (exec_get m)]
  cases declaredNames m.tree f with
  | error e => rfl
  | ok names =>
      rw [exec_bind_of_ok (exec_importLift _)]
      split
      · rfl
      · have htree := tree_after hcall
        unfold Call.after Call.run at htree
        cases himport : exec (importFile (m.tree.resolve f) root) m with
        | mk outcome m' =>
            rw [himport] at htree
            cases outcome with
            | error e =>
                rw [exec_bind_of_error himport]
                exact htree
            | ok module =>
                rw [exec_bind_of_ok himport]
                exact htree

/-- The classes that a source text declares, by its characters. -/
theorem classNames_of_toList {text : String} {cs : List Char} {names : List String}
    (htext : text.toList = cs)
    (h : (Code.tokens cs).bind (Code.classNames? (16 * cs.length + 64)) = some names) :
    Code.classNames text = .ok names := by
  unfold Code.classNames
  simp only [htext, h]

/-- A file that cannot be read has no classes to look for. -/
theorem exec_classesInFile_of_unread {e : Failure} (hread : m.tree.read f = .error e) :
    exec (classesInFile f root) m = (.error e, m) := by
  have hnames : declaredNames m.tree f = .error e := by
    unfold declaredNames
    rw [hread]
    rfl
  unfold classesInFile
  rw [exec_bind_of_ok (exec_get m), hnames]
  rfl

theorem outcome_classesInFiles_of_error {root : Place} {rest : List Path} {m' : Modules}
    {e : Failure} (h : exec (classesInFile f (some root)) m = (.error e, m')) :
    (exec (classesInFiles root (f :: rest)) m).1 = .error e := by
  rw [classesInFiles, exec_bind_of_error h]

theorem outcome_classesInFiles_of_ok {root : Place} {rest : List Path} {m' : Modules}
    {found : List FoundClass} (h : exec (classesInFile f (some root)) m = (.ok found, m')) :
    (exec (classesInFiles root (f :: rest)) m).1
      = (exec (classesInFiles root rest) m').1.map (found ++ ·) := by
  rw [classesInFiles, exec_bind_of_ok h]
  cases hrest : exec (classesInFiles root rest) m' with
  | mk outcome m'' =>
      cases outcome with
      | error e =>
          rw [exec_bind_of_error hrest]
          rfl
      | ok more =>
          rw [exec_bind_of_ok hrest]
          rfl

/-- A scan stops at the first file that cannot be read, unless it has failed before. -/
theorem outcome_classesInFiles_stop {root : Place} {before after : List Path} {e : Failure}
    (hbefore : ∀ g ∈ before, isModulePlace (m.tree.resolve g) = true ∧
      ∃ content, m.tree.read g = .ok content)
    (hstop : m.tree.read f = .error e) :
    (exec (classesInFiles root (before ++ f :: after)) m).1
      = (exec (classesInFiles root before) m).1 >>= fun _ => .error e := by
  -- The files stay as they are, so what can be read now can be read in its turn.
  induction before generalizing m with
  | nil =>
      rw [List.nil_append, outcome_classesInFiles_of_error (exec_classesInFile_of_unread hstop)]
      rfl
  | cons g rest ih =>
      obtain ⟨⟨hpy, content, hread⟩, hrest⟩ := List.forall_mem_cons.mp hbefore
      have htree : (exec (classesInFile g (some root)) m).2.tree = m.tree :=
        tree_classesInFile hread hpy
      rw [List.cons_append]
      cases hfound : exec (classesInFile g (some root)) m with
      | mk outcome m' =>
          rw [hfound] at htree
          have htree : m'.tree = m.tree := htree
          cases outcome with
          | error e' =>
              rw [outcome_classesInFiles_of_error hfound, outcome_classesInFiles_of_error hfound]
              rfl
          | ok found =>
              -- The induction goes on with the table that the first file leaves.
              have hmore := ih (m := m') (htree ▸ hrest) (htree ▸ hstop)
              rw [outcome_classesInFiles_of_ok hfound, outcome_classesInFiles_of_ok hfound, hmore]
              cases (exec (classesInFiles root rest) m').1 with
              | error e' => rfl
              | ok more => rfl

/-- A file is scanned by itself. -/
theorem exec_classes_of_file {text : String} {place : Place} {content : Content}
    (hp : m.tree.lookup (Path.ofText text) = .found place (.file content)) :
    exec (classes text) m = exec (classesInFile (Path.ofText text) none) m := by
  have hprobe : m.tree.probe (Path.ofText text) = .ok (some (.file content)) := by
    unfold Tree.probe
    rw [hp]
  unfold classes
  dsimp only
  rw [exec_bind_of_ok (exec_get m), hprobe, exec_bind_of_ok (exec_importLift _)]

/-- A file that declares no class is not imported. -/
theorem exec_classes_of_nil {path text : String} {place : Place} {data : ByteArray}
    (hp : m.tree.lookup (Path.ofText path) = .found place (.file (.bytes data)))
    (htext : (Content.bytes data).text = .ok text) (hnames : Code.classNames text = .ok []) :
    exec (classes path) m = (.ok [], m) := by
  have hread : m.tree.read (Path.ofText path) = .ok (.bytes data) := by
    unfold Tree.read
    rw [hp]
  have hdeclared : declaredNames m.tree (Path.ofText path) = .ok [] := by
    unfold declaredNames
    rw [hread]
    show (do Code.classNames (← (Content.bytes data).text)) = _
    rw [htext]
    exact hnames
  rw [exec_classes_of_file hp]
  unfold classesInFile
  rw [exec_bind_of_ok (exec_get m), hdeclared]
  rfl

/-- A directory is scanned file by file, as the files are listed. -/
theorem exec_classes_of_directory {text : String} {place : Place}
    (hp : m.tree.lookup (Path.ofText text) = .found place .directory) :
    exec (classes text) m
      = exec (classesInFiles place (moduleFilesOf m.tree (Path.ofText text))) m := by
  have hprobe : m.tree.probe (Path.ofText text) = .ok (some .directory) := by
    unfold Tree.probe
    rw [hp]
  unfold classes
  dsimp only
  rw [exec_bind_of_ok (exec_get m), hprobe, exec_bind_of_ok (exec_importLift _)]
  simp only [(Tree.lookup_found hp).1]

/-! ## The listing of a directory -/

/-- Names that are met in order are listed as they are met. -/
theorem moduleFiles_of_pairwise {t : Tree} {place : Place} {listed : List (List String)}
    (hfiles : (((t.below place).map Prod.fst).filter fun names =>
      ((names.getLast?.getD "").endsWith ".py") && !(names.dropLast.any isPassedOver)) = listed)
    (hsorted : listed.Pairwise fun a b => pathLe a b = true) :
    moduleFiles t place = listed := by
  unfold moduleFiles
  rw [hfiles]
  exact List.mergeSort_of_pairwise hsorted

theorem moduleFilesOf_of_directory {t : Tree} {p : Path} {place : Place}
    (hp : t.lookup p = .found place .directory) :
    moduleFilesOf t p = (moduleFiles t place).map fun names => ⟨p.root, p.parts ++ names⟩ := by
  unfold moduleFilesOf
  rw [hp]

/-- The names below a directory are listed once each and in order, if they are those of
module files that are not hidden.  That lists the files exactly, and they can be read,
unless a directory has such a name; then a scan stops where it comes to one. -/
theorem moduleFiles_exact {t : Tree} (ht : t.WellFormed) {p : Path} {place : Place}
    (hp : t.lookup p = .found place .directory) :
    (moduleFilesOf t p = (moduleFiles t place).map fun names => ⟨p.root, p.parts ++ names⟩) ∧
    (moduleFiles t place).Pairwise (· < ·) ∧
    (∀ names, names ∈ moduleFiles t place ↔ IsListed names ∧ t.node? (place ++ names) ≠ none) ∧
    ((∀ names, names ∈ moduleFiles t place ↔ IsListed names ∧ t.isFileAt (place ++ names) = true) ↔
      ¬ t.ListsDirectory place) ∧
    (¬ t.ListsDirectory place → ∀ f ∈ moduleFilesOf t p, ∃ content, t.read f = .ok content) ∧
    (t.ListsDirectory place → ∃ before f after, moduleFilesOf t p = before ++ f :: after ∧
      (∀ g ∈ before, ∃ content, t.read g = .ok content) ∧ t.read f = .error .isDirectory ∧
      ∀ text m, Path.ofText text = p → m.tree = t →
        (exec (classes text) m).1
          = (exec (classesInFiles place before) m).1 >>= fun _ => .error .isDirectory) := by
  refine ⟨moduleFilesOf_of_directory hp, ht.pairwise_moduleFiles place,
    fun names => Tree.mem_moduleFiles_iff, Tree.forall_mem_moduleFiles_iff, ?_, ?_⟩
  · intro hnone f hf
    rcases (ht.read_of_listed hp hf).2 with ⟨-, hread⟩ | ⟨hdir, -⟩
    · exact hread
    · exact absurd ((ht.exists_isDirectoryAt_iff hp).mp ⟨f, hf, hdir⟩) hnone
  · intro hlists
    obtain ⟨before, f, after, hfiles, hready, hstop⟩ := ht.exists_first_directory hp hlists
    refine ⟨before, f, after, hfiles, fun g hg => (hready g hg).2, hstop, ?_⟩
    rintro text m rfl rfl
    rw [exec_classes_of_directory hp, hfiles]
    exact outcome_classesInFiles_stop hready hstop

/-- A directory with a module file, and one more in a directory whose name comes before
that of the file, though the text of its path does not. -/
def pageTree : Tree :=
  (((⟨["app"], []⟩ : Tree).put ["app", "a.py"] bareFile).put ["app", "a"] .directory).put
    ["app", "a", "x.py"] bareFile

/-- Its files are written one after the other, once there is a way to each of them. -/
theorem wellFormed_pageTree : pageTree.WellFormed := by
  have hhere : ∀ name ∈ ["app"], FileName name := by
    intro name hname
    obtain rfl := List.mem_singleton.mp hname
    exact ⟨⟨by decide, by decide⟩, by decide⟩
  have hfile : (⟨["app"], []⟩ : Tree).write (Path.ofText "a.py") (.program ⟨[], false⟩)
      = .ok ((⟨["app"], []⟩ : Tree).put ["app", "a.py"] bareFile) := rfl
  have hway := ((Tree.wellFormed_empty hhere).write hfile).makeWay (Path.ofText "a")
  have hinner : (((⟨["app"], []⟩ : Tree).put ["app", "a.py"] bareFile).makeWay
      (Path.ofText "a")).after.write (Path.ofText "a/x.py") (.program ⟨[], false⟩)
        = .ok pageTree := rfl
  exact hway.write hinner

/-- The file in the directory is listed first, and both can be read. -/
theorem moduleFiles_exact_pageTree :
    moduleFiles pageTree ["app"] = [["a", "x.py"], ["a.py"]] ∧
      ∀ f ∈ moduleFilesOf pageTree (Path.ofText "."), ∃ content, pageTree.read f = .ok content := by
  have hp : pageTree.lookup (Path.ofText ".") = .found ["app"] .directory := rfl
  obtain ⟨-, hsorted, hmem, -, hread, -⟩ := moduleFiles_exact wellFormed_pageTree hp
  have hfiles : (((pageTree.below ["app"]).map Prod.fst).filter fun names =>
      ((names.getLast?.getD "").endsWith ".py") && !(names.dropLast.any isPassedOver))
        = [["a.py"], ["a", "x.py"]] := by decide +kernel
  have hlist : moduleFiles pageTree ["app"] = [["a", "x.py"], ["a.py"]] := by
    have hperm : (moduleFiles pageTree ["app"]).Perm [["a", "x.py"], ["a.py"]] := by
      unfold moduleFiles
      rw [hfiles]
      exact (List.mergeSort_perm _ _).trans (.swap _ _ _)
    exact hperm.eq_of_pairwise' hsorted (by decide +kernel)
  refine ⟨hlist, hread ?_⟩
  rintro ⟨names, hlisted, hdir⟩
  have hmem := (hmem names).mpr ⟨hlisted, by rw [hdir]; simp⟩
  rw [hlist] at hmem
  simp only [List.mem_cons, List.not_mem_nil, or_false] at hmem
  rcases hmem with rfl | rfl
  · exact absurd (hdir.symm.trans (show _ = some bareFile from rfl)) (by simp [bareFile])
  · exact absurd (hdir.symm.trans (show _ = some bareFile from rfl)) (by simp [bareFile])

/-! ### A directory that is listed -/

/-- A directory with the name of a module file, and a module file after it. -/
def oddTree : Tree :=
  ⟨["app"], [(["app", "x.py"], .directory), (["app", "y.py"], bareFile)]⟩

/-- The directory is listed and cannot be read, so that the directory above it is not scanned. -/
theorem moduleFiles_inexact :
    ["x.py"] ∈ moduleFiles oddTree ["app"] ∧ oddTree.node? ["app", "x.py"] = some .directory ∧
      (exec (classes ".") (Modules.start oddTree .nowhere [])).1 = .error .isDirectory := by
  have hp : oddTree.lookup (Path.ofText ".") = .found ["app"] .directory := rfl
  have hlisted : moduleFiles oddTree ["app"] = [["x.py"], ["y.py"]] :=
    moduleFiles_of_pairwise (by decide +kernel) (by decide +kernel)
  refine ⟨hlisted ▸ List.mem_cons_self, rfl, ?_⟩
  have hstop : oddTree.read ⟨.here, ["x.py"]⟩ = .error .isDirectory := rfl
  rw [exec_classes_of_directory hp]
  show (exec (classesInFiles ["app"] (moduleFilesOf oddTree (Path.ofText "."))) _).1 = _
  rw [moduleFilesOf_of_directory hp, hlisted]
  exact outcome_classesInFiles_of_error (exec_classesInFile_of_unread hstop)

end Discover
end Routebook
