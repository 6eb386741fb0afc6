/-
  Routebook.Proofs.Files.Places

  Where paths lead, and what a change leaves there.  A path that leads
  somewhere leads to the place it names (`lookup_found`), so what a directory
  holds under a name can be said of a place instead of a path
  (`resolve_child`).  Making directories makes nothing else: a file that is
  there afterwards was there before (`file_of_makeWay`).
-/
import Routebook.Proofs.Files.Tree

namespace Routebook

namespace Tree

/-! ## Places of paths -/

theorem walk_found {t : Tree} {place found : Place} {names : List String} {node : Node}
    (h : t.walk place names = .found found node) :
    found = follow place names ∧ t.node? found = some node := by
  induction names generalizing place with
  | nil =>
      obtain ⟨hnode, rfl⟩ := walk_nil_found_iff.mp h
      exact ⟨rfl, hnode⟩
  | cons name rest ih =>
      -- Following a name without looking is the same step.
      have hstep : follow place (name :: rest) = follow (next place name) rest := rfl
      rw [hstep]
      exact ih (walk_cons_found_iff.mp h).2.2

/-- A path that leads somewhere leads to the place it names. -/
theorem lookup_found {t : Tree} {p : Path} {place : Place} {node : Node}
    (h : t.lookup p = .found place node) : place = t.resolve p ∧ t.node? place = some node :=
  walk_found (lookup_found_iff.mp h).2

theorem resolve_child (t : Tree) (d : Path) {name : String} (hup : name ≠ "..") :
    t.resolve (d.child name) = t.resolve d ++ [name] := by
  show follow (t.startOf d) (d.parts ++ [name]) = _
  unfold follow
  rw [List.foldl_append, List.foldl_cons, List.foldl_nil, if_neg hup]
  rfl

theorem resolve_congr {t t' : Tree} (hhere : t'.here = t.here) (p : Path) :
    t'.resolve p = t.resolve p := by
  unfold resolve startOf
  rw [hhere]

/-! ## Only directories are made -/

theorem file_of_put_directory {t : Tree} {place other : Place} {content : Content}
    (h : (t.put place .directory).node? other = some (.file content)) :
    t.node? other = some (.file content) := by
  rw [node?_put] at h
  split at h
  · exact absurd h (by simp)
  · split at h
    · exact absurd h (by simp)
    · exact h

theorem file_of_makeDirectories {t : Tree} {place other : Place} {names : List String}
    {content : Content}
    (h : (t.makeDirectories place names).after.node? other = some (.file content)) :
    t.node? other = some (.file content) := by
  induction names generalizing t place with
  | nil => exact h
  | cons name rest ih =>
      rcases makeDirectories_cases t place name rest with hdir | ⟨-, -, hmade⟩ | hstop
      · rw [makeDirectories_of_directory hdir] at h
        exact ih h
      · rw [hmade] at h
        exact file_of_put_directory (ih h)
      · rw [hstop t rfl] at h
        exact h

/-- A file that is there once a way was made was there before. -/
theorem file_of_makeWay {t : Tree} {d : Path} {other : Place} {content : Content}
    (h : (t.makeWay d).after.node? other = some (.file content)) :
    t.node? other = some (.file content) := by
  by_cases hnull : ∃ s ∈ d.parts, '\x00' ∈ s.toList
  · rwa [makeWay_of_null t hnull] at h
  · rw [makeWay_of_noNull t hnull] at h
    exact file_of_makeDirectories h

theorem here_makeWay (t : Tree) (d : Path) : (t.makeWay d).after.here = t.here :=
  (keeps_makeWay t d).here

/-! ## Paths of one name -/

theorem split_of_notMem {cs : List Char} (h : '/' ∉ cs) : Path.split cs = [cs] := by
  induction cs with
  | nil => rfl
  | cons c cs ih =>
      obtain ⟨hc, hcs⟩ := not_or.mp (mt List.mem_cons.mpr h)
      rw [Path.split, ih hcs]
      exact fun hslash => hc hslash.symm

/-- A name without slashes is a path of its own. -/
theorem ofText_of_notMem {name : String} (hne : name ≠ "") (hdot : name ≠ ".")
    (hslash : '/' ∉ name.toList) : Path.ofText name = ⟨.here, [name]⟩ := by
  have hroot : Path.rootOf name.toList = .here := by
    unfold Path.rootOf
    split
    · next hcs => exact absurd (hcs ▸ List.mem_cons_self) hslash
    · next hcs => exact absurd (hcs ▸ List.mem_cons_self) hslash
    · next hcs => exact absurd (hcs ▸ List.mem_cons_self) hslash
    · rfl
  have hnechars : name.toList ≠ [] := mt String.toList_eq_nil_iff.mp hne
  have hdotchars : name.toList ≠ ['.'] := fun h => hdot (String.toList_inj.mp h)
  rw [Path.ofText, hroot, Path.partsOf, split_of_notMem hslash,
    List.filter_cons_of_pos (by simp [hnechars, hdotchars]), List.filter_nil, List.map_singleton,
    String.ofList_toList]

/-- A name that is longer than names may be leads nowhere, and not even to the answer
that nothing is there. -/
theorem lookup_of_long {t : Tree} {name : String} (hnull : '\x00' ∉ name.toList)
    (hlong : nameLimit < name.utf8ByteSize) : t.lookup ⟨.here, [name]⟩ = .tooLong := by
  have hwhole : ¬ ∃ s ∈ [name], '\x00' ∈ s.toList := by simpa using hnull
  have hhere : t.node? t.here = some .directory :=
    if_pos (List.isPrefixOf_iff_prefix.mpr (List.prefix_refl t.here))
  have hstart : t.startOf ⟨.here, [name]⟩ = t.here := rfl
  rw [lookup_of_noNull t hwhole, walk_cons, hstart]
  unfold through
  rw [hhere]
  exact if_pos hlong

/-- A name that no file can have. -/
def longName : String := String.ofList (List.replicate 256 'x')

theorem toList_longName : longName.toList = List.replicate 256 'x' := String.toList_ofList

theorem mem_longName {c : Char} : c ∈ longName.toList ↔ c = 'x' := by
  rw [toList_longName, List.mem_replicate]
  exact and_iff_right (by simp)

theorem lookup_longName (t : Tree) : t.lookup (Path.ofText longName) = .tooLong := by
  have hx : 'x' ∈ longName.toList := mem_longName.mpr rfl
  rw [ofText_of_notMem (fun h => absurd (h ▸ hx) (by decide)) (fun h => absurd (h ▸ hx) (by decide))
    (by simp [mem_longName])]
  exact lookup_of_long (by simp [mem_longName]) (by decide +kernel)

end Tree
end Routebook
