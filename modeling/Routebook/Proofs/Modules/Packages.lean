/-
  Routebook.Proofs.Modules.Packages

  The search for the packages around a file.  It starts at the directory of the
  file and goes up from package to package (`Rounds`), and it ends at the first
  directory that is none (`Ends`).  By then it has found the chain of packages
  around the file (`ends_iff`), in fewer rounds than there are directories above
  it.  The top of the files is above itself: a search that meets packages all the
  way up stays there and never ends (`exists_rounds`).  The bound that is set on
  the search decides nothing else (`packagesAround_eq_some_iff`).
-/
import Mathlib.Data.List.Induction
import Mathlib.Data.List.Infix
import Routebook.Modules.Naming

namespace Routebook.Naming

/-! ## Chains of packages -/

/-- A chain of packages, one in the other, the outermost in a directory that is none. -/
structure Encloses (t : Tree) (base : Place) (chain : List String) : Prop where
  outside : isPackage t base = false
  inside : ∀ dirs, dirs <+: chain → dirs ≠ [] → isPackage t (base ++ dirs) = true

theorem encloses_nil {t : Tree} {base : Place} (h : isPackage t base = false) :
    Encloses t base [] :=
  ⟨h, fun _ hdirs hne => absurd (List.prefix_nil.mp hdirs) hne⟩

theorem Encloses.concat {t : Tree} {base : Place} {chain : List String} {name : String}
    (h : Encloses t base chain) (hname : isPackage t (base ++ chain ++ [name]) = true) :
    Encloses t base (chain ++ [name]) := by
  refine ⟨h.outside, fun dirs hdirs hne => ?_⟩
  rcases List.prefix_concat_iff.mp hdirs with rfl | hdirs
  · rw [← List.append_assoc]
    exact hname
  · exact h.inside dirs hdirs hne

/-- Going down from a directory that is no package, a package goes on with the chain, and any
other directory starts anew. -/
theorem exists_encloses_of_prefix {t : Tree} {above directory : Place} (hle : above <+: directory)
    (habove : isPackage t above = false) :
    ∃ base chain, directory = base ++ chain ∧ Encloses t base chain := by
  induction directory using List.reverseRecOn with
  | nil =>
      rw [List.prefix_nil.mp hle] at habove
      exact ⟨[], [], rfl, encloses_nil habove⟩
  | append_singleton directory name ih =>
      cases hpackage : isPackage t (directory ++ [name]) with
      | false => exact ⟨directory ++ [name], [], (List.append_nil _).symm, encloses_nil hpackage⟩
      | true =>
          rcases List.prefix_concat_iff.mp hle with rfl | hle
          · exact absurd (habove.symm.trans hpackage) (by decide)
          · obtain ⟨base, chain, rfl, hchain⟩ := ih hle
            exact ⟨base, chain ++ [name], List.append_assoc .., hchain.concat hpackage⟩

theorem exists_encloses {t : Tree} (htop : isPackage t [] = false) (directory : Place) :
    ∃ base chain, directory = base ++ chain ∧ Encloses t base chain :=
  exists_encloses_of_prefix List.nil_prefix htop

/-! ## The search -/

/-- How far a search for packages has come. -/
structure Search where
  /-- The directory that is looked at next. -/
  directory : Place
  /-- The names of the packages met so far, the outermost first. -/
  found : List String

namespace Search

/-- The search around a file, before it has looked at anything. -/
def start (file : Place) : Search := ⟨file.dropLast, []⟩

/-- The search past a package: its name is kept, and the directory above it is next.  The
top has no name, and nothing is above it. -/
def up (s : Search) : Search :=
  ⟨s.directory.dropLast, s.directory.getLast?.getD "" :: s.found⟩

theorem up_append_singleton (base : Place) (name : String) (found : List String) :
    up ⟨base ++ [name], found⟩ = ⟨base, name :: found⟩ := by
  unfold up
  rw [List.dropLast_concat, List.getLast?_concat, Option.getD_some]

end Search

/-- A number of rounds of a search: each one goes up from a package. -/
inductive Rounds (t : Tree) : Nat → Search → Search → Prop
  | zero (s : Search) : Rounds t 0 s s
  | succ {n : Nat} {s s' : Search} (package : isPackage t s.directory = true)
      (rest : Rounds t n s.up s') : Rounds t (n + 1) s s'

/-- A search ends after a number of rounds, at a directory that is no package. -/
structure Ends (t : Tree) (n : Nat) (s s' : Search) : Prop where
  rounds : Rounds t n s s'
  outside : isPackage t s'.directory = false

section Rounds

variable {t : Tree} {n : Nat} {s s' : Search}

/-- Each round finds one more name. -/
theorem Rounds.length_found (h : Rounds t n s s') : s'.found.length = s.found.length + n := by
  induction h with
  | zero s => rfl
  | @succ n s s' _ _ ih =>
      have hup : s.up.found.length = s.found.length + 1 := List.length_cons
      omega

/-- Each round goes one directory up, as far as there is one above. -/
theorem Rounds.length_directory (h : Rounds t n s s') :
    s'.directory.length = s.directory.length - n := by
  induction h with
  | zero s => rfl
  | @succ n s s' _ _ ih =>
      have hup : s.up.directory.length = s.directory.length - 1 := List.length_dropLast
      omega

/-- A search with packages all the way up can take any number of rounds. -/
theorem exists_rounds (n : Nat) (h : ∀ above, above <+: s.directory → isPackage t above = true) :
    ∃ s', Rounds t n s s' ∧ isPackage t s'.directory = true := by
  have hhere : isPackage t s.directory = true := h _ (List.prefix_refl _)
  induction n generalizing s with
  | zero => exact ⟨s, .zero s, hhere⟩
  | succ n ih =>
      -- What lies above the next directory lies above this one, also at the top.
      have hup : ∀ above, above <+: s.up.directory → isPackage t above = true := by
        intro above habove
        exact h above (habove.trans (List.dropLast_prefix _))
      obtain ⟨s', hrounds, hpackage⟩ := ih hup (hup _ (List.prefix_refl _))
      exact ⟨s', .succ hhere hrounds, hpackage⟩

/-- From a package a search goes on, and ends as it does one round later. -/
theorem ends_succ_iff (package : isPackage t s.directory = true) :
    Ends t n s s' ↔ ∃ m, n = m + 1 ∧ Ends t m s.up s' := by
  constructor
  · rintro ⟨hrounds, houtside⟩
    cases hrounds with
    | zero => exact absurd (houtside.symm.trans package) (by decide)
    | succ _ rest => exact ⟨_, rfl, rest, houtside⟩
  · rintro ⟨m, rfl, hrest⟩
    exact ⟨.succ package hrest.rounds, hrest.outside⟩

/-- At any other directory a search has ended. -/
theorem ends_zero_iff (outside : isPackage t s.directory = false) :
    Ends t n s s' ↔ n = 0 ∧ s' = s := by
  constructor
  · rintro ⟨hrounds, -⟩
    cases hrounds with
    | zero => exact ⟨rfl, rfl⟩
    | succ package _ => exact absurd (outside.symm.trans package) (by decide)
  · rintro ⟨rfl, rfl⟩
    exact ⟨.zero s', outside⟩

/-! ## Where it ends -/

theorem ends_of_encloses {base : Place} {chain : List String} (h : Encloses t base chain)
    (found : List String) :
    Ends t chain.length ⟨base ++ chain, found⟩ ⟨base, chain ++ found⟩ := by
  -- The search goes up the chain and collects it from its end.
  induction chain using List.reverseRecOn generalizing found with
  | nil =>
      rw [List.append_nil]
      exact ⟨.zero _, h.outside⟩
  | append_singleton chain name ih =>
      have hpackage : isPackage t (base ++ (chain ++ [name])) = true :=
        h.inside _ (List.prefix_refl _) (by simp)
      have hinner : Encloses t base chain :=
        ⟨h.outside, fun dirs hdirs hne => h.inside dirs (hdirs.trans (List.prefix_append _ _)) hne⟩
      refine (ends_succ_iff hpackage).mpr ⟨chain.length, List.length_append, ?_⟩
      rw [← List.append_assoc, Search.up_append_singleton, List.append_assoc]
      exact ih hinner (name :: found)

theorem Ends.exists_encloses (h : Ends t n s s') :
    ∃ chain, s.directory = s'.directory ++ chain ∧ n = chain.length ∧
      s'.found = chain ++ s.found ∧ Encloses t s'.directory chain := by
  obtain ⟨hrounds, houtside⟩ := h
  induction hrounds with
  | zero s => exact ⟨[], (List.append_nil _).symm, rfl, rfl, encloses_nil houtside⟩
  | @succ n s s' hpackage _ ih =>
      -- The round goes up by one name, which comes last in the chain of packages.
      obtain ⟨chain, hdirectory, rfl, hfound, hchain⟩ := ih houtside
      obtain ⟨directory, found⟩ := s
      rcases List.eq_nil_or_concat directory with rfl | ⟨base, name, rfl⟩
      · -- The top is above itself: the search would end at a package.
        have htop : s'.directory = [] := (List.append_eq_nil_iff.mp hdirectory.symm).1
        rw [htop] at houtside
        exact absurd (houtside.symm.trans hpackage) (by decide)
      · rw [List.concat_eq_append] at hdirectory hfound hpackage
        rw [Search.up_append_singleton] at hdirectory hfound
        have hbase : base = s'.directory ++ chain := hdirectory
        subst hbase
        refine ⟨chain ++ [name], ?_, ?_, ?_, hchain.concat hpackage⟩
        · rw [List.concat_eq_append, List.append_assoc]
        · rw [List.length_append, List.length_singleton]
        · rw [hfound, List.append_assoc, List.singleton_append]

/-- A search ends at the other side of a chain of packages, with the names of the chain. -/
theorem ends_iff : Ends t n s s' ↔ ∃ chain, s.directory = s'.directory ++ chain ∧
    n = chain.length ∧ s'.found = chain ++ s.found ∧ Encloses t s'.directory chain := by
  constructor
  · exact Ends.exists_encloses
  · rintro ⟨chain, hdirectory, rfl, hfound, hchain⟩
    have hends := ends_of_encloses hchain s.found
    rwa [← hdirectory, ← hfound] at hends

/-- A search ends if and only if there is an end to the packages on the way up. -/
theorem exists_ends_iff :
    (∃ n s', Ends t n s s') ↔ ∃ above, above <+: s.directory ∧ isPackage t above = false := by
  constructor
  · rintro ⟨n, s', h⟩
    obtain ⟨chain, hdirectory, -⟩ := ends_iff.mp h
    exact ⟨s'.directory, ⟨chain, hdirectory.symm⟩, h.outside⟩
  · rintro ⟨above, hle, habove⟩
    obtain ⟨base, chain, hdirectory, hchain⟩ := exists_encloses_of_prefix hle habove
    exact ⟨chain.length, ⟨base, chain ++ s.found⟩,
      ends_iff.mpr ⟨chain, hdirectory, rfl, rfl, hchain⟩⟩

end Rounds

/-! ## The bound on the search -/

section Bound

variable {t : Tree} {directory : Place}

/-- A bounded search has the result of the search, if that ends within the bound. -/
theorem packagesAround_eq_some_iff {steps : Nat} {s : Search} {names : List String} :
    packagesAround t steps s.directory s.found = some names ↔
      ∃ n s', n < steps ∧ Ends t n s s' ∧ s'.found = names := by
  induction steps generalizing s with
  | zero =>
      constructor
      · intro h
        exact absurd h nofun
      · rintro ⟨n, s', hlt, -⟩
        exact absurd hlt (Nat.not_lt_zero n)
  | succ steps ih =>
      -- A round goes up from a package, and the search ends at the first directory that is none.
      cases hpackage : isPackage t s.directory with
      | true =>
          have hround : packagesAround t (steps + 1) s.directory s.found
              = packagesAround t steps s.up.directory s.up.found := if_pos hpackage
          rw [hround, ih]
          constructor
          · rintro ⟨n, s', hlt, hends, hfound⟩
            exact ⟨n + 1, s', by omega, (ends_succ_iff hpackage).mpr ⟨n, rfl, hends⟩, hfound⟩
          · rintro ⟨n, s', hlt, hends, hfound⟩
            obtain ⟨m, rfl, hrest⟩ := (ends_succ_iff hpackage).mp hends
            exact ⟨m, s', by omega, hrest, hfound⟩
      | false =>
          have hend : packagesAround t (steps + 1) s.directory s.found = some s.found :=
            if_neg (by rw [hpackage]; decide)
          rw [hend]
          constructor
          · intro h
            exact ⟨0, s, by omega, (ends_zero_iff hpackage).mpr ⟨rfl, rfl⟩, Option.some.inj h⟩
          · rintro ⟨n, s', -, hends, hfound⟩
            obtain ⟨-, rfl⟩ := (ends_zero_iff hpackage).mp hends
            rw [hfound]

/-- The bound is wide enough for every search that ends. -/
theorem packages_of_encloses {base : Place} {chain : List String} (h : Encloses t base chain) :
    packages t (base ++ chain) = .ok chain := by
  have hwide : chain.length < (base ++ chain).length + 1 := by
    rw [List.length_append]
    omega
  have hfound : packagesAround t ((base ++ chain).length + 1) (base ++ chain) []
      = some (chain ++ []) :=
    packagesAround_eq_some_iff.mpr ⟨chain.length, _, hwide, ends_of_encloses h [], rfl⟩
  unfold packages
  rw [hfound, List.append_nil]

/-- Only a search that does not end comes to the bound. -/
theorem packages_eq_endless (h : ∀ above, above <+: directory → isPackage t above = true) :
    packages t directory = .error .endless := by
  have hnone : packagesAround t (directory.length + 1) directory [] = none := by
    refine Option.eq_none_iff_forall_ne_some.mpr fun names hnames => ?_
    obtain ⟨n, s', -, hends, -⟩ :=
      packagesAround_eq_some_iff (s := ⟨directory, []⟩).mp hnames
    obtain ⟨above, hle, habove⟩ := exists_ends_iff.mp ⟨n, s', hends⟩
    exact absurd (habove.symm.trans (h above hle)) (by decide)
  unfold packages
  rw [hnone]

end Bound

/-! ## The search around a file -/

/-- The directories above a place, the nearest first; the top is above itself. -/
def parents (place : Place) : List Place := place.dropLast.inits.reverse

theorem mem_parents_iff {place directory : Place} :
    directory ∈ parents place ↔ directory <+: place.dropLast := by
  unfold parents
  rw [List.mem_reverse, List.mem_inits]

theorem length_parents (place : Place) : (parents place).length = place.dropLast.length + 1 := by
  unfold parents
  rw [List.length_reverse, List.length_inits]

/-- The search around a file ends if and only if one of the directories above the file is no
package.  It ends after fewer rounds than there are such directories, and has found the chain
of packages around the file.  Where they are all packages, it is at a package after any number
of rounds, with a name for each, and the file gets no name. -/
theorem packageSearch_ends_iff (t : Tree) (file : Place) :
    ((∃ n s, Ends t n (.start file) s) ↔
      ∃ directory, directory ∈ parents file ∧ isPackage t directory = false) ∧
    (∀ n s, Ends t n (.start file) s →
      n < (parents file).length ∧ n = s.found.length ∧ file.dropLast = s.directory ++ s.found ∧
        Encloses t s.directory s.found ∧ packages t file.dropLast = .ok s.found) ∧
    ((∀ directory, directory ∈ parents file → isPackage t directory = true) →
      (∀ n, ∃ s, Rounds t n (.start file) s ∧ isPackage t s.directory = true ∧
        s.directory.length = file.dropLast.length - n ∧ s.found.length = n) ∧
      ∀ root, moduleName t file root = .error .endless) := by
  simp only [mem_parents_iff]
  refine ⟨exists_ends_iff, ?_, ?_⟩
  · intro n s h
    obtain ⟨chain, hdirectory, rfl, hfound, hchain⟩ := ends_iff.mp h
    have hnames : s.found = chain := hfound.trans (List.append_nil chain)
    have hplace : file.dropLast = s.directory ++ chain := hdirectory
    have hlength : file.dropLast.length = s.directory.length + chain.length := by
      rw [hplace, List.length_append]
    rw [hnames]
    refine ⟨?_, rfl, hplace, hchain, ?_⟩
    · rw [length_parents]
      omega
    · rw [hplace]
      exact packages_of_encloses hchain
  · intro hall
    refine ⟨fun n => ?_, fun root => ?_⟩
    · obtain ⟨s, hrounds, hpackage⟩ := exists_rounds (s := .start file) n hall
      exact ⟨s, hrounds, hpackage, hrounds.length_directory,
        hrounds.length_found.trans (Nat.zero_add n)⟩
    · unfold moduleName parts
      rw [packages_eq_endless hall]
      rfl

/-- A module beside a package file at the top, and a package in a directory that is none. -/
def topTree : Tree :=
  ⟨["w"], [(["__init__.py"], .file (.program ⟨[], false⟩)),
    (["a.py"], .file (.program ⟨[], false⟩)),
    (["w", "shop"], .directory), (["w", "shop", "__init__.py"], .file (.program ⟨[], false⟩)),
    (["w", "shop", "item.py"], .file (.program ⟨[], false⟩))]⟩

/-- Around the file in the package the search ends after one round, although the top is a
package; beside the package file at the top it does not end. -/
theorem packageSearch_ends_iff_topTree :
    (Ends topTree 1 (.start ["w", "shop", "item.py"]) ⟨["w"], ["shop"]⟩ ∧
      1 < (parents ["w", "shop", "item.py"]).length ∧
      packages topTree ["w", "shop"] = .ok ["shop"]) ∧
    (∀ directory, directory ∈ parents ["a.py"] → isPackage topTree directory = true) ∧
      moduleName topTree ["a.py"] none = .error .endless := by
  have hends : Ends topTree 1 (.start ["w", "shop", "item.py"]) ⟨["w"], ["shop"]⟩ :=
    ⟨.succ rfl (.zero _), rfl⟩
  obtain ⟨hfew, -, -, -, hpackages⟩ :=
    (packageSearch_ends_iff topTree ["w", "shop", "item.py"]).2.1 1 _ hends
  have hall : ∀ directory, directory ∈ parents ["a.py"] → isPackage topTree directory = true := by
    intro directory hdirectory
    rw [List.prefix_nil.mp (mem_parents_iff.mp hdirectory)]
    rfl
  obtain ⟨-, hname⟩ := (packageSearch_ends_iff topTree ["a.py"]).2.2 hall
  exact ⟨⟨hends, hfew, hpackages⟩, hall, hname none⟩

/-- The file at the top has one directory above it, and the search around it does not end after
one round, nor after any other number of them. -/
theorem packageSearch_topTree_endless :
    topTree.isFileAt ["a.py"] = true ∧ (parents ["a.py"]).length = 1 ∧
      ¬ ∃ n s, n ≤ (parents ["a.py"]).length ∧ Ends topTree n (.start ["a.py"]) s := by
  refine ⟨rfl, rfl, ?_⟩
  rintro ⟨n, s, -, hends⟩
  obtain ⟨above, hle, habove⟩ := exists_ends_iff.mp ⟨n, s, hends⟩
  rw [List.prefix_nil.mp hle] at habove
  exact absurd habove (by decide)

end Routebook.Naming
