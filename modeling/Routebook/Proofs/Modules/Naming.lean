/-
  Routebook.Proofs.Modules.Naming

  Names of modules and the places they start from.  A name is made on the way
  up from a file, along the packages around it (`Encloses`) or to the directory
  above a scanned one.  The place it starts from is found by counting the dots
  in the name.  The two agree: the rest of the name leads back down from that
  place to the file (`Leads`), as long as no dot stands in a part of the name.
-/
import Routebook.Proofs.Files.Listing
import Routebook.Proofs.Modules.Packages

namespace Routebook.Naming

/-! ## Parts of a name -/

/-- No dot stands in the parts. -/
def Dotless (parts : List String) : Prop := ∀ s ∈ parts, '.' ∉ s.toList

/-- The name that parts make. -/
def join (parts : List String) : String := ".".intercalate parts

/-- The parts between the dots of a name. -/
def components (name : String) : List String :=
  (List.splitOn '.' name.toList).map String.ofList

/-- A name has the parts it is made of. -/
theorem components_join {parts : List String} (hne : parts ≠ []) (h : Dotless parts) :
    components (join parts) = parts := by
  have hdots : ∀ l ∈ parts.map String.toList, '.' ∉ l := by
    intro l hl
    obtain ⟨s, hs, rfl⟩ := List.mem_map.mp hl
    exact h s hs
  have hjoin : (join parts).toList = ['.'].intercalate (parts.map String.toList) :=
    String.toList_intercalate
  unfold components
  rw [hjoin, List.splitOn_intercalate '.' hdots (by simpa using hne), List.map_map]
  simp

theorem filter_dots_of_notMem {cs : List Char} (h : '.' ∉ cs) : cs.filter (· == '.') = [] := by
  refine List.filter_eq_nil_iff.mpr fun c hc => ?_
  rw [beq_iff_eq]
  rintro rfl
  exact h hc

/-- Between any two parts stands one dot. -/
theorem dots_join {first : String} {rest : List String} (h : Dotless (first :: rest)) :
    dots (join (first :: rest)) = rest.length := by
  have hjoin : ∀ parts, (join parts).toList = ['.'].intercalate (parts.map String.toList) :=
    fun _ => String.toList_intercalate
  unfold dots
  rw [hjoin]
  induction rest generalizing first with
  | nil =>
      have hfirst := filter_dots_of_notMem (h first List.mem_cons_self)
      simpa using hfirst
  | cons second rest ih =>
      obtain ⟨hfirst, hrest⟩ := List.forall_mem_cons.mp h
      rw [List.map_cons, List.map_cons, List.intercalate_cons_cons, List.filter_append,
        List.filter_append, filter_dots_of_notMem hfirst, List.length_append, List.length_append]
      have hmore := ih hrest
      rw [List.map_cons] at hmore
      rw [hmore, List.length_cons]
      show 0 + 1 + rest.length = rest.length + 1
      omega

/-! ## Stems -/

theorem stemOf_append_py {stem : String} (hne : stem ≠ "") :
    Path.stemOf (stem ++ ".py") = stem := by
  have hchars : stem.toList ≠ [] := fun h => hne (String.toList_eq_nil_iff.mp h)
  have hends : (stem ++ ".py").toList = stem.toList ++ ['.', 'p', 'y'] := String.toList_append
  have htail : (stem.toList ++ ['.', 'p', 'y']).reverse.takeWhile (· != '.') = ['y', 'p'] := by
    rw [List.reverse_append]
    rfl
  have hlong : 2 + 1 < (stem.toList ++ ['.', 'p', 'y']).length := by
    have hpos := List.length_pos_iff.mpr hchars
    rw [List.length_append]
    show 3 < stem.toList.length + 3
    omega
  -- The last dot is that of the ending, and not the first character.
  unfold Path.stemOf
  simp only [hends, htail]
  rw [if_pos ⟨hlong, List.cons_ne_nil _ _⟩]
  simp

/-- A module file is called by its stem and the ending, if no dot stands in the stem. -/
theorem eq_stem_append_py {name : String} (hpy : IsPy name) (h : '.' ∉ (Path.stemOf name).toList) :
    name = Path.stemOf name ++ ".py" := by
  obtain ⟨cs, hcs⟩ := hpy
  have hname : name = String.ofList cs ++ ".py" := by
    rw [← String.toList_inj, ← hcs, String.toList_append]
    exact congrArg (· ++ _) String.toList_ofList.symm
  by_cases hempty : String.ofList cs = ""
  · -- The name that is the ending alone has no ending.
    rw [hempty] at hname
    subst hname
    exact absurd h (by decide)
  · rw [hname, stemOf_append_py hempty]

/-! ## Ways down -/

/-- Going down from a place along the parts of a name leads to a file: the place
itself, the package file of the last directory, or the module file of the last part. -/
inductive Leads : Place → List String → Place → Prop
  | itself (place : Place) : Leads place [] place
  | package (place : Place) : Leads place [] (place ++ [packageFile])
  | module (place : Place) (stem : String) : Leads place [stem] (place ++ [stem ++ ".py"])
  | down {place : Place} {name : String} {rest : List String} {file : Place}
      (h : Leads (place ++ [name]) rest file) : Leads place (name :: rest) file

theorem leads_package (place : Place) (dirs : List String) :
    Leads place dirs (place ++ dirs ++ [packageFile]) := by
  induction dirs generalizing place with
  | nil =>
      rw [List.append_nil]
      exact .package place
  | cons name rest ih =>
      have hdown := ih (place ++ [name])
      rw [List.append_assoc place [name] rest] at hdown
      exact .down hdown

theorem leads_module (place : Place) (dirs : List String) (stem : String) :
    Leads place (dirs ++ [stem]) (place ++ dirs ++ [stem ++ ".py"]) := by
  induction dirs generalizing place with
  | nil =>
      rw [List.append_nil]
      exact .module place stem
  | cons name rest ih =>
      have hdown := ih (place ++ [name])
      rw [List.append_assoc place [name] rest] at hdown
      exact .down hdown

/-- What lies just below a place on the way to another one. -/
theorem take_succ_append_cons (base : Place) (first : String) (rest : List String) :
    (base ++ first :: rest).take (base.length + 1) = base ++ [first] := by
  rw [List.take_length_add_append]
  rfl

/-- The top-level place of a name with a dot for each directory between a place and a file. -/
theorem topLevelPlace_of_dots {base dirs : List String} {last name : String}
    (h : dots name + (if last = packageFile then 1 else 0) = dirs.length) :
    topLevelPlace (base ++ dirs ++ [last]) name
      = .ok ((base ++ dirs ++ [last]).take (base.length + 1)) := by
  have hlength : (base ++ dirs ++ [last]).length = base.length + dirs.length + 1 := by
    rw [List.length_append, List.length_append, List.length_singleton]
  unfold topLevelPlace
  simp only [List.getLast?_concat, Option.some.injEq, h, hlength]
  rw [if_neg (by omega)]
  congr 2
  omega

/-! ## Names of files -/

/-- The file in a place has a name with some parts, which starts from a place and
leads back from there to the file. -/
structure IsNamed (t : Tree) (file : Place) (root : Option Place) (ps : List String)
    (start : Place) : Prop where
  name : moduleName t file root = .ok (join ps)
  top : topLevelPlace file (join ps) = .ok start
  back : ∃ first rest, components (join ps) = first :: rest ∧ Leads start rest file

theorem moduleName_of_parts {t : Tree} {file : Place} {root : Option Place} {ps : List String}
    (h : parts t file root = .ok ps) : moduleName t file root = .ok (join ps) := by
  unfold moduleName
  rw [h]
  rfl

/-- A package is named along the packages to it. -/
theorem isNamed_package {t : Tree} {base inner : List String} {first : String}
    {root : Option Place}
    (hparts : parts t (base ++ first :: inner ++ [packageFile]) root = .ok (first :: inner))
    (hdots : Dotless (first :: inner)) :
    IsNamed t (base ++ first :: inner ++ [packageFile]) root (first :: inner)
      (base ++ [first]) := by
  refine ⟨moduleName_of_parts hparts, ?_, first, inner, components_join (by simp) hdots, ?_⟩
  · have htop : topLevelPlace (base ++ first :: inner ++ [packageFile]) (join (first :: inner))
        = .ok ((base ++ first :: inner ++ [packageFile]).take (base.length + 1)) :=
      topLevelPlace_of_dots (by rw [dots_join hdots, if_pos rfl, List.length_cons])
    rw [htop, List.append_assoc, List.cons_append, take_succ_append_cons]
  · have hleads := leads_package (base ++ [first]) inner
    rwa [List.append_assoc base [first] inner] at hleads

/-- A module is named along the directories to it and by its stem. -/
theorem isNamed_module {t : Tree} {base dirs : List String} {last stem : String}
    {root : Option Place} (hlast : last = stem ++ ".py") (hmodule : last ≠ packageFile)
    (hparts : parts t (base ++ dirs ++ [last]) root = .ok (dirs ++ [stem]))
    (hdots : Dotless (dirs ++ [stem])) :
    IsNamed t (base ++ dirs ++ [last]) root (dirs ++ [stem])
      ((base ++ dirs ++ [last]).take (base.length + 1)) := by
  subst hlast
  -- The stem adds a part without a dot, so the dots count the directories.
  have hcount : dots (join (dirs ++ [stem])) = dirs.length := by
    cases dirs with
    | nil => exact dots_join hdots
    | cons first inner =>
        have hjoin := dots_join (show Dotless (first :: (inner ++ [stem])) from hdots)
        simpa using hjoin
  refine ⟨moduleName_of_parts hparts, ?_, ?_⟩
  · exact topLevelPlace_of_dots (by rw [hcount, if_neg hmodule, Nat.add_zero])
  · rw [components_join (by simp) hdots]
    cases dirs with
    | nil =>
        -- Without a directory in between, the name starts at the file.
        refine ⟨stem, [], rfl, ?_⟩
        rw [List.take_of_length_le (by simp)]
        exact .itself _
    | cons first inner =>
        refine ⟨first, inner ++ [stem], rfl, ?_⟩
        rw [List.append_assoc, List.cons_append, take_succ_append_cons]
        have hleads := leads_module (base ++ [first]) inner stem
        rwa [List.append_assoc, List.append_assoc] at hleads

section Parts

variable {t : Tree} {base chain dirs : List String} {last stem : String}

/-- A package file is told by its stem. -/
theorem stemOf_eq_packageStem_iff (hpy : IsPy last) :
    Path.stemOf last = packageStem ↔ last = packageFile := by
  constructor
  · intro h
    have hdot : '.' ∉ (Path.stemOf last).toList := by
      rw [h]
      decide
    rw [eq_stem_append_py hpy hdot, h]
    rfl
  · rintro rfl
    exact stemOf_append_py (show packageStem ≠ "" by decide)

theorem stemAt_append_singleton (place : Place) (last : String) :
    stemAt (place ++ [last]) = Path.stemOf last := by
  unfold stemAt
  rw [List.getLast?_concat, Option.getD_some]

/-- In a chain of packages a file has the parts of the chain and its own. -/
theorem parts_of_chain (h : Encloses t base chain) (hne : chain ≠ []) (scanned : Option Place) :
    parts t (base ++ chain ++ [last]) scanned
      = .ok (if Path.stemOf last = packageStem then chain else chain ++ [Path.stemOf last]) := by
  unfold parts
  rw [List.dropLast_concat, packages_of_encloses h, stemAt_append_singleton]
  show (if chain ≠ [] then _ else _ : Outcome (List String)) = _
  rw [if_pos hne]
  rfl

/-- A directory that is no package stands in no chain of them. -/
theorem packages_of_not_isPackage (h : isPackage t base = false) : packages t base = .ok [] := by
  have hpackages := packages_of_encloses (encloses_nil h)
  rwa [List.append_nil] at hpackages

/-- Outside of packages a single file is called by its stem. -/
theorem parts_alone (h : isPackage t base = false) :
    parts t (base ++ [last]) none = .ok [Path.stemOf last] := by
  unfold parts
  rw [List.dropLast_concat, packages_of_not_isPackage h, stemAt_append_singleton]
  rfl

/-- Below a directory a place has the parts that lead there. -/
theorem partsFrom_append (directory : Place) (hstem : stem ≠ packageStem) :
    partsFrom directory (directory ++ dirs ++ [stem]) = .ok (dirs ++ [stem]) := by
  have hrelative : relative? (directory ++ dirs ++ [stem]) directory = some (dirs ++ [stem]) := by
    unfold relative?
    rw [List.append_assoc, if_pos (List.isPrefixOf_iff_prefix.mpr (List.prefix_append _ _)),
      List.drop_left]
  have hown : withoutPackageStem (dirs ++ [stem]) = dirs ++ [stem] := by
    unfold withoutPackageStem
    rw [List.getLast?_concat, if_neg (by simpa using hstem)]
  unfold partsFrom
  rw [hrelative]
  cases dirs with
  | nil => exact congrArg Except.ok hown
  | cons first inner => exact congrArg Except.ok hown

/-- A place that is not below a directory has no parts from there. -/
theorem partsFrom_outside {directory : Place} (h : ¬ directory <+: base) (stem : String) :
    ∃ e, partsFrom directory (base ++ [stem]) = .error e := by
  unfold partsFrom relative?
  split
  · exact ⟨_, rfl⟩
  · next names hne hrelative =>
      -- The directory would be the place itself, which leaves no parts.
      split at hrelative
      · next hleads =>
          rcases List.prefix_concat_iff.mp (List.isPrefixOf_iff_prefix.mp hleads) with heq | hbase
          · rw [heq, List.drop_length] at hrelative
            exact absurd (Option.some.inj hrelative).symm hne
          · exact absurd hbase h
      · exact absurd hrelative (by simp)
  · exact ⟨_, rfl⟩

/-- Outside of packages a scanned file has the parts from the directory above the root. -/
theorem parts_scanned (h : isPackage t base = false) (root : Place) :
    parts t (base ++ [last]) (some root)
      = partsFrom root.dropLast (base ++ [Path.stemOf last]) := by
  unfold parts
  rw [List.dropLast_concat, packages_of_not_isPackage h, stemAt_append_singleton]
  rfl

/-! ### The three ways to a name -/

/-- A file in a chain of packages is named along the chain, whatever is scanned. -/
theorem isNamed_of_chain (hpy : IsPy last) {first : String} {inner : List String}
    (h : Encloses t base (first :: inner)) {own : List String}
    (hown : own = if last = packageFile then [] else [Path.stemOf last])
    (hdots : Dotless (first :: inner ++ own)) (scanned : Option Place) :
    IsNamed t (base ++ first :: inner ++ [last]) scanned (first :: inner ++ own)
      (base ++ [first]) := by
  have hparts : parts t (base ++ first :: inner ++ [last]) scanned = .ok
      (if Path.stemOf last = packageStem then first :: inner
        else first :: inner ++ [Path.stemOf last]) :=
    parts_of_chain h (List.cons_ne_nil first inner) scanned
  -- A package file has no part of its own, any other file has its stem.
  by_cases hpackage : last = packageFile
  · subst hpackage
    rw [if_pos rfl] at hown
    subst hown
    rw [if_pos ((stemOf_eq_packageStem_iff hpy).mpr rfl)] at hparts
    rw [List.append_nil] at hdots ⊢
    exact isNamed_package hparts hdots
  · rw [if_neg hpackage] at hown
    subst hown
    rw [if_neg (mt (stemOf_eq_packageStem_iff hpy).mp hpackage)] at hparts
    have hlast : last = Path.stemOf last ++ ".py" :=
      eq_stem_append_py hpy (hdots _ (List.mem_append_right _ List.mem_cons_self))
    have hnamed := isNamed_module hlast hpackage hparts hdots
    have hfirst : (base ++ first :: inner ++ [last]).take (base.length + 1) = base ++ [first] := by
      rw [List.append_assoc, List.cons_append, take_succ_append_cons]
    exact hfirst ▸ hnamed

/-- Outside of packages a single file is called by its stem. -/
theorem isNamed_alone (hpy : IsPy last) (h : isPackage t base = false)
    (hmodule : last ≠ packageFile) (hdots : Dotless [Path.stemOf last]) :
    IsNamed t (base ++ [last]) none [Path.stemOf last] (base ++ [last]) := by
  have hparts : parts t (base ++ [] ++ [last]) none = .ok ([] ++ [Path.stemOf last]) := by
    rw [List.append_nil]
    exact parts_alone h
  have hlast : last = Path.stemOf last ++ ".py" :=
    eq_stem_append_py hpy (hdots _ List.mem_cons_self)
  have hnamed := isNamed_module hlast hmodule hparts hdots
  rw [List.append_nil, List.take_of_length_le (by simp)] at hnamed
  exact hnamed

/-- Outside of packages a scanned file is named along the directories to it from the one
above the root. -/
theorem isNamed_scanned (hpy : IsPy last) {root : Place}
    (h : isPackage t (root.dropLast ++ dirs) = false) (hmodule : last ≠ packageFile)
    (hdots : Dotless (dirs ++ [Path.stemOf last])) :
    IsNamed t (root.dropLast ++ dirs ++ [last]) (some root) (dirs ++ [Path.stemOf last])
      ((root.dropLast ++ dirs ++ [last]).take (root.dropLast.length + 1)) := by
  have hstem : Path.stemOf last ≠ packageStem := mt (stemOf_eq_packageStem_iff hpy).mp hmodule
  have hparts : parts t (root.dropLast ++ dirs ++ [last]) (some root)
      = .ok (dirs ++ [Path.stemOf last]) :=
    (parts_scanned h root).trans (partsFrom_append _ hstem)
  have hlast : last = Path.stemOf last ++ ".py" :=
    eq_stem_append_py hpy (hdots _ (List.mem_append_right _ List.mem_cons_self))
  exact isNamed_module hlast hmodule hparts hdots

end Parts

/-- Names and the places they start from.  A file in a chain of packages is named along
the chain, which starts at the outermost package, whatever is scanned.  Outside of
packages a file that is scanned from a root is named along the directories below the one
above the root, and any other file by its stem. -/
theorem moduleName_leads_back {t : Tree} (htop : isPackage t [] = false) {file : Place}
    (hfile : t.isFileAt file = true) (hpy : isModulePlace file = true) :
    (∃ base chain, file.dropLast = base ++ chain ∧ Encloses t base chain) ∧
    ∀ base chain, file.dropLast = base ++ chain → Encloses t base chain →
      (∀ first inner own, chain = first :: inner →
        own = (if file.getLast? = some packageFile then [] else [stemAt file]) →
        Dotless (chain ++ own) →
        ∀ scanned, IsNamed t file scanned (chain ++ own) (base ++ [first])) ∧
      (chain = [] → Dotless [stemAt file] → IsNamed t file none [stemAt file] file) ∧
      (chain = [] → ∀ above name dirs, file.dropLast = above ++ name :: dirs →
        Dotless (name :: dirs ++ [stemAt file]) →
        IsNamed t file (some (above ++ [name])) (name :: dirs ++ [stemAt file])
          (above ++ [name])) ∧
      (chain = [] → ∀ root dirs, file.dropLast = root.dropLast ++ dirs →
        Dotless (dirs ++ [stemAt file]) →
        IsNamed t file (some root) (dirs ++ [stemAt file])
          (file.take (root.dropLast.length + 1))) ∧
      (chain = [] → ∀ root, ¬ root.dropLast <+: file.dropLast →
        ∃ e, moduleName t file (some root) = .error e) := by
  -- A place of a module file is a directory and a name that ends as such.
  have hne : file ≠ [] := by
    rintro rfl
    exact absurd ((endsWith_iff _ _).mp hpy) (by decide)
  obtain ⟨directory, last, rfl⟩ : ∃ directory last, file = directory ++ [last] :=
    ⟨_, _, (List.dropLast_append_getLast hne).symm⟩
  rw [isModulePlace_append_singleton] at hpy
  have hpy : IsPy last := (endsWith_iff _ _).mp hpy
  simp only [List.dropLast_concat, List.getLast?_concat, Option.some.injEq,
    stemAt_append_singleton]
  refine ⟨exists_encloses htop directory, ?_⟩
  rintro base chain rfl hchain
  refine ⟨?_, ?_⟩
  · rintro first inner own rfl hown hdots scanned
    exact isNamed_of_chain hpy hchain hown hdots scanned
  · by_cases hnil : chain = []
    swap
    · exact ⟨fun h => absurd h hnil, fun h => absurd h hnil, fun h => absurd h hnil,
        fun h => absurd h hnil⟩
    -- Outside of packages the file is no package file.
    subst hnil
    rw [List.append_nil] at hfile ⊢
    have hplain : isPackage t base = false := hchain.outside
    have hmodule : last ≠ packageFile := by
      rintro rfl
      exact absurd (hplain.symm.trans hfile) (by simp)
    refine ⟨fun _ => isNamed_alone hpy hplain hmodule, ?_, ?_, ?_⟩
    · -- A root above the file is itself the first directory below its parent.
      rintro - above name dirs rfl hdots
      have habove : above ++ name :: dirs = (above ++ [name]).dropLast ++ name :: dirs := by
        rw [List.dropLast_concat]
      rw [habove] at hplain
      have hnamed := isNamed_scanned hpy hplain hmodule hdots
      rw [List.dropLast_concat, List.append_assoc, List.cons_append,
        take_succ_append_cons] at hnamed
      rw [List.append_assoc]
      exact hnamed
    · rintro - root dirs rfl hdots
      exact isNamed_scanned hpy hplain hmodule hdots
    · rintro - root hroot
      obtain ⟨e, herror⟩ := partsFrom_outside hroot (Path.stemOf last)
      refine ⟨e, ?_⟩
      unfold moduleName
      rw [parts_scanned hplain, herror]
      rfl

/-- A package in another one, and a directory beside them. -/
def shelfTree : Tree :=
  ⟨[], [(["w"], .directory), (["w", "shop"], .directory),
    (["w", "shop", "__init__.py"], .file (.program ⟨[], false⟩)),
    (["w", "shop", "stock"], .directory),
    (["w", "shop", "stock", "__init__.py"], .file (.program ⟨[], false⟩)),
    (["w", "shop", "stock", "item.py"], .file (.program ⟨[], false⟩)),
    (["w", "tools"], .directory), (["w", "tools", "x.py"], .file (.program ⟨[], false⟩))]⟩

theorem encloses_shelfTree : Encloses shelfTree ["w"] ["shop", "stock"] := by
  have hshop : Encloses shelfTree ["w"] ([] ++ ["shop"]) := (encloses_nil rfl).concat rfl
  have hstock : Encloses shelfTree ["w"] (["shop"] ++ ["stock"]) := hshop.concat rfl
  exact hstock

/-- The file is named along both packages, whether the inner one is scanned or not. -/
theorem moduleName_leads_back_shelfTree :
    IsNamed shelfTree ["w", "shop", "stock", "item.py"] (some ["w", "shop", "stock"])
        ["shop", "stock", "item"] ["w", "shop"] ∧
      IsNamed shelfTree ["w", "shop", "stock", "item.py"] none
        ["shop", "stock", "item"] ["w", "shop"] := by
  have hpy : isModulePlace ["w", "shop", "stock", "item.py"] = true :=
    (isModulePlace_append_singleton ["w", "shop", "stock"] "item.py").trans
      (endsWith_append_py "item")
  have hnames := ((moduleName_leads_back rfl rfl hpy).2 ["w"] ["shop", "stock"] rfl
    encloses_shelfTree).1 "shop" ["stock"] ["item"] rfl (by decide)
    (show ∀ s ∈ ["shop", "stock", "item"], '.' ∉ s.toList by decide)
  exact ⟨hnames _, hnames none⟩

/-- A scanned directory need not be above the file, and may be the top of the files: then
the name is neither the stem nor does it start with the name of that directory. -/
theorem moduleName_astray :
    isPackage shelfTree [] = false ∧ isPackage shelfTree ["w", "tools"] = false ∧
      shelfTree.isFileAt ["w", "tools", "x.py"] = true ∧
      stemAt ["w", "tools", "x.py"] = "x" ∧
      ¬ ["w", "shop"] <+: ["w", "tools", "x.py"] ∧
      moduleName shelfTree ["w", "tools", "x.py"] (some ["w", "shop"]) = .ok "tools.x" ∧
      moduleName shelfTree ["w", "tools", "x.py"] (some []) = .ok "w.tools.x" :=
  ⟨rfl, rfl, rfl, by decide, by decide, rfl, rfl⟩

end Routebook.Naming
