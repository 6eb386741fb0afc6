/-
  Routebook.Proofs.Files.Listing

  What a listing of module files shows.  A name is listed if it ends as those
  of module files do, and the names before it are neither those of caches nor
  hidden (`IsListed`).  A listing shows what is there under such names, whether
  that is a file or a directory (`mem_moduleFiles_iff`); the way to the current
  directory is there as well (`exists_mem_iff`).
-/
import Mathlib.Data.List.Basic
import Routebook.Proofs.Files.Places
import Routebook.Proofs.Modules.Discovery

namespace Routebook

open Discover

/-- A name that ends as those of module files do. -/
def IsPy (name : String) : Prop := ".py".toList <:+ name.toList

/-- A directory that is passed over: a cache or hidden. -/
def IsHidden (name : String) : Prop := name = "__pycache__" ∨ ".".toList <+: name.toList

/-- Names that lead from a directory to what is listed of it. -/
def IsListed (names : List String) : Prop :=
  ∃ dirs name, names = dirs ++ [name] ∧ IsPy name ∧ ∀ d ∈ dirs, ¬ IsHidden d

theorem isPassedOver_iff (name : String) : isPassedOver name = true ↔ IsHidden name := by
  unfold isPassedOver
  rw [Bool.or_eq_true, beq_iff_eq, startsWith_iff]
  rfl

theorem not_isPy_up : ¬ IsPy ".." := by
  unfold IsPy
  decide

/-- Neither a hidden name nor that of a module file stands for the directory above. -/
theorem IsListed.notUp {names : List String} (h : IsListed names) : ".." ∉ names := by
  obtain ⟨dirs, name, rfl, hpy, hopen⟩ := h
  intro hup
  rcases List.mem_append.mp hup with hup | hup
  · exact hopen _ hup (.inr (by decide))
  · exact not_isPy_up (List.mem_singleton.mp hup ▸ hpy)

theorem IsListed.isModulePlace {names : List String} (h : IsListed names) (place : Place) :
    isModulePlace (place ++ names) = true := by
  obtain ⟨dirs, name, rfl, hpy, -⟩ := h
  rw [← List.append_assoc, isModulePlace_append_singleton]
  exact (endsWith_iff name ".py").mpr hpy

/-- The names that are listed are those that pass both tests. -/
theorem isListed_iff {names : List String} (hne : names ≠ []) :
    IsListed names ↔
      ((names.getLast?.getD "").endsWith ".py" && !(names.dropLast.any isPassedOver)) = true := by
  obtain ⟨dirs, name, rfl⟩ : ∃ dirs name, names = dirs ++ [name] :=
    ⟨_, _, (List.dropLast_append_getLast hne).symm⟩
  have hany : (!(dirs.any isPassedOver)) = true ↔ ∀ d ∈ dirs, ¬ IsHidden d := by
    simp [isPassedOver_iff]
  rw [List.getLast?_concat, Option.getD_some, List.dropLast_concat, Bool.and_eq_true,
    endsWith_iff, hany]
  constructor
  · rintro ⟨dirs', name', heq, hpy, hopen⟩
    obtain ⟨rfl, hname⟩ := List.append_inj' heq rfl
    obtain rfl := List.singleton_inj.mp hname
    exact ⟨hpy, hopen⟩
  · exact fun h => ⟨dirs, name, rfl, h⟩

namespace Tree

/-! ## What lies below a place -/

theorem node?_of_way {t : Tree} {q : Place} (h : q <+: t.here) :
    t.node? q = some .directory :=
  if_pos (List.isPrefixOf_iff_prefix.mpr h)

theorem mem_way_iff {t : Tree} {e : Place × Node} :
    e ∈ t.way ↔ e.1 <+: t.here ∧ e.2 = .directory := by
  unfold way
  constructor
  · intro he
    obtain ⟨n, -, rfl⟩ := List.mem_map.mp he
    exact ⟨List.take_prefix n t.here, rfl⟩
  · rintro ⟨hhere, hnode⟩
    refine List.mem_map.mpr ⟨e.1.length, ?_, ?_⟩
    · exact List.mem_range.mpr (Nat.lt_succ_of_le hhere.length_le)
    · rw [← List.prefix_iff_eq_take.mp hhere, ← hnode]

/-- A place holds something if it lies on the way to the current directory or
is one of the places in the files. -/
theorem exists_mem_iff {t : Tree} {q : Place} :
    (∃ node, (q, node) ∈ t.way ++ t.nodes) ↔ t.node? q ≠ none := by
  have hway : (∃ node, (q, node) ∈ t.way) ↔ q <+: t.here := by
    simp [mem_way_iff]
  have hnodes : (∃ node, (q, node) ∈ t.nodes) ↔ t.nodes.find? (·.1 == q) ≠ none := by
    simp
  simp only [List.mem_append, exists_or, hway, hnodes]
  unfold node?
  rw [← List.isPrefixOf_iff_prefix]
  split
  · next hhere => simp [hhere]
  · next hhere => simp [hhere]

theorem mem_below_iff {t : Tree} {place : Place} {names : List String} :
    names ∈ (t.below place).map Prod.fst ↔ names ≠ [] ∧ t.node? (place ++ names) ≠ none := by
  rw [← exists_mem_iff]
  unfold below
  simp only [List.mem_map, List.mem_filterMap]
  constructor
  · rintro ⟨d, ⟨e, he, hd⟩, rfl⟩
    -- The place itself is not below itself: what is there has a longer way.
    split at hd
    · next hin =>
        obtain rfl := Option.some.inj hd
        obtain ⟨hleads, hlt⟩ := Bool.and_eq_true_iff.mp hin
        obtain ⟨ns, hns⟩ := List.isPrefixOf_iff_prefix.mp hleads
        have hdrop : e.1.drop place.length = ns := by rw [← hns, List.drop_left]
        simp only [hdrop, hns]
        refine ⟨?_, e.2, he⟩
        rintro rfl
        rw [List.append_nil] at hns
        exact absurd (of_decide_eq_true hlt) (by rw [hns]; exact Nat.lt_irrefl _)
    · exact absurd hd (by simp)
  · rintro ⟨hne, node, he⟩
    have hlt : place.length < (place ++ names).length := by
      rw [List.length_append]
      exact Nat.lt_add_of_pos_right (List.length_pos_of_ne_nil hne)
    refine ⟨(names, node), ⟨_, he, ?_⟩, rfl⟩
    simp [hne]

/-! ## What is listed -/

/-- A listing shows whatever is there under a name that is listed. -/
theorem mem_moduleFiles_iff {t : Tree} {place : Place} {names : List String} :
    names ∈ moduleFiles t place ↔ IsListed names ∧ t.node? (place ++ names) ≠ none := by
  unfold moduleFiles
  rw [List.mem_mergeSort, List.mem_filter, mem_below_iff]
  constructor
  · rintro ⟨⟨hne, hthere⟩, hlisted⟩
    exact ⟨(isListed_iff hne).mpr hlisted, hthere⟩
  · rintro ⟨hlisted, hthere⟩
    have hne : names ≠ [] := by
      obtain ⟨dirs, name, rfl, -⟩ := hlisted
      simp
    exact ⟨⟨hne, hthere⟩, (isListed_iff hne).mp hlisted⟩

theorem mem_moduleFilesOf_iff {t : Tree} {p f : Path} {place : Place}
    (hp : t.lookup p = .found place .directory) :
    f ∈ moduleFilesOf t p ↔
      ∃ names, f = ⟨p.root, p.parts ++ names⟩ ∧ IsListed names ∧
        t.node? (place ++ names) ≠ none := by
  unfold moduleFilesOf
  rw [hp]
  simp only [List.mem_map, mem_moduleFiles_iff]
  constructor
  · rintro ⟨names, hnames, rfl⟩
    exact ⟨names, rfl, hnames⟩
  · rintro ⟨names, rfl, hnames⟩
    exact ⟨names, hnames, rfl⟩

end Tree
end Routebook
