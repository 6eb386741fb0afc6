/-
  Routebook.Proofs.Files.WellFormed

  Files as a file system holds them: every place holds one thing, lies in a
  directory, and has a name that can be written down (`WellFormed`).  The
  invariant holds of no files at all, and every change of the files keeps it,
  however far the change comes (`WellFormed.makeWay`, `WellFormed.write`).

  In such files whatever lies below a directory is found by following its
  names from there (`WellFormed.lookup_below`).
-/
import Mathlib.Data.List.Induction
import Mathlib.Data.List.Nodup
import Routebook.Proofs.Files.Stock

namespace Routebook

/-- A name that a file can have. -/
structure FileName (name : String) : Prop extends PlainName name where
  short : name.utf8ByteSize ≤ Tree.nameLimit

namespace Tree

/-- Each place holds one thing and lies in a directory.  The way to the current
directory is not among the places. -/
structure WellFormed (t : Tree) : Prop where
  distinct : (t.nodes.map Prod.fst).Nodup
  apart : ∀ e ∈ t.nodes, ¬ e.1 <+: t.here
  child : ∀ e ∈ t.nodes, ∃ parent name, e.1 = parent ++ [name] ∧ FileName name ∧
    t.node? parent = some .directory
  here : ∀ name ∈ t.here, FileName name

/-! ## What well-formed files hold -/

theorem mem_of_node? {t : Tree} {q : Place} {node : Node} (h : t.node? q = some node) :
    q <+: t.here ∧ node = .directory ∨ (q, node) ∈ t.nodes := by
  unfold node? at h
  split at h
  · next hhere => exact .inl ⟨List.isPrefixOf_iff_prefix.mp hhere, (Option.some.inj h).symm⟩
  · obtain ⟨e, he, rfl⟩ := Option.map_eq_some_iff.mp h
    have hq : e.1 = q := by simpa using List.find?_some he
    exact .inr (hq ▸ List.mem_of_find?_eq_some he)

theorem node?_startOf (t : Tree) (p : Path) : t.node? (t.startOf p) = some .directory := by
  unfold Tree.startOf
  split
  · exact node?_of_way List.nil_prefix
  · exact node?_of_way (List.prefix_refl _)

namespace WellFormed

variable {t : Tree} (ht : t.WellFormed)
include ht

/-- What lies above anything is a directory. -/
theorem directory_above {q : Place} {name : String} {node : Node}
    (h : t.node? (q ++ [name]) = some node) : t.node? q = some .directory := by
  rcases mem_of_node? h with ⟨hhere, -⟩ | hmem
  · exact node?_of_way ((List.prefix_append q [name]).trans hhere)
  · obtain ⟨parent, last, heq, -, hparent⟩ := ht.child _ hmem
    obtain ⟨rfl, -⟩ := List.append_inj' heq rfl
    exact hparent

theorem directory_of_append {q names : Place} {node : Node}
    (h : t.node? (q ++ names) = some node) (hne : names ≠ []) : t.node? q = some .directory := by
  -- From the last name upwards, each thing lies in a directory.
  induction names using List.reverseRecOn generalizing node with
  | nil => exact absurd rfl hne
  | append_singleton names last ih =>
      rw [← List.append_assoc] at h
      have habove := ht.directory_above h
      by_cases hnil : names = []
      · rwa [hnil, List.append_nil] at habove
      · exact ih habove hnil

theorem fileName_of_mem {q : Place} {node : Node} (h : t.node? q = some node) :
    ∀ name ∈ q, FileName name := by
  -- The last name is that of an entry, and the others lead to a directory.
  induction q using List.reverseRecOn generalizing node with
  | nil => exact fun _ hn => absurd hn List.not_mem_nil
  | append_singleton q last ih =>
      have habove := ih (ht.directory_above h)
      have hlast : FileName last := by
        rcases mem_of_node? h with ⟨hhere, -⟩ | hmem
        · exact (ht.here last (hhere.subset (List.mem_append_right _ List.mem_cons_self)))
        · obtain ⟨parent, name, heq, hname, -⟩ := ht.child _ hmem
          obtain ⟨-, hname'⟩ := List.append_inj' heq rfl
          exact List.singleton_inj.mp hname' ▸ hname
      intro name hname
      rcases List.mem_append.mp hname with hname | hname
      · exact habove name hname
      · exact List.mem_singleton.mp hname ▸ hlast

theorem walk_below {q names : Place} {node : Node} (h : t.node? (q ++ names) = some node) :
    t.walk q names = .found (q ++ names) node := by
  induction names generalizing q with
  | nil =>
      rw [List.append_nil] at h ⊢
      exact walk_nil_found_iff.mpr ⟨h, rfl⟩
  | cons name rest ih =>
      have hname : FileName name :=
        ht.fileName_of_mem h name (List.mem_append_right _ List.mem_cons_self)
      have hq := ht.directory_of_append h (List.cons_ne_nil _ _)
      have hstep : q ++ name :: rest = q ++ [name] ++ rest := by simp
      rw [walk_of_directory hq hname.short, next_of_ne q hname.notUp, hstep]
      exact ih (hstep ▸ h)

/-- What lies below a directory is found by its names. -/
theorem lookup_below {p : Path} {place names : Place} {node : Node}
    (hp : t.lookup p = .found place .directory) (h : t.node? (place ++ names) = some node) :
    t.lookup ⟨p.root, p.parts ++ names⟩ = .found (place ++ names) node := by
  have hnames : ¬ ∃ s ∈ names, '\x00' ∈ s.toList := fun ⟨name, hname, hnull⟩ =>
    (ht.fileName_of_mem h name (List.mem_append_right _ hname)).noNull hnull
  rw [lookup_append_of_found hp hnames]
  exact ht.walk_below h

end WellFormed

/-! ## Changes keep files well-formed -/

theorem wellFormed_empty {here : Place} (hhere : ∀ name ∈ here, FileName name) :
    (⟨here, []⟩ : Tree).WellFormed :=
  ⟨List.nodup_nil, fun _ he => absurd he List.not_mem_nil,
    fun _ he => absurd he List.not_mem_nil, hhere⟩

theorem mem_nodes_put {t : Tree} {place : Place} {node : Node} {e : Place × Node}
    (he : e ∈ (t.put place node).nodes) : e = (place, node) ∨ e ∈ t.nodes := by
  unfold put at he
  split at he
  · obtain ⟨d, hd, rfl⟩ := List.mem_map.mp he
    split
    · exact .inl rfl
    · exact .inr hd
  · rcases List.mem_append.mp he with he | he
    · exact .inr he
    · exact .inl (List.mem_singleton.mp he)

theorem nodup_nodes_put {t : Tree} (h : (t.nodes.map Prod.fst).Nodup) (place : Place)
    (node : Node) : ((t.put place node).nodes.map Prod.fst).Nodup := by
  unfold put
  split
  · -- A thing that is replaced keeps its place.
    have hsame : (t.nodes.map fun e => if e.1 == place then (place, node) else e).map Prod.fst
        = t.nodes.map Prod.fst := by
      rw [List.map_map]
      refine List.map_congr_left fun e _ => ?_
      by_cases he : e.1 = place <;> simp [he]
    exact hsame ▸ h
  · next hany =>
      show ((t.nodes ++ [(place, node)]).map Prod.fst).Nodup
      rw [List.map_append, List.map_singleton, List.nodup_append]
      refine ⟨h, List.nodup_singleton _, ?_⟩
      rintro q hq q' hq' rfl
      obtain rfl := List.mem_singleton.mp hq'
      obtain ⟨e, he, rfl⟩ := List.mem_map.mp hq
      exact hany (List.any_eq_true.mpr ⟨e, he, beq_self_eq_true _⟩)

namespace WellFormed

variable {t : Tree} (ht : t.WellFormed)
include ht

/-- Something new in a directory, or in the place of a file. -/
theorem put {parent : Place} {name : String} (hparent : t.node? parent = some .directory)
    (hname : FileName name) (hfree : t.node? (parent ++ [name]) ≠ some .directory) (node : Node) :
    (t.put (parent ++ [name]) node).WellFormed := by
  -- Directories stay directories, so what lay in one still does.
  have hkeeps := keeps_put node hfree
  refine ⟨nodup_nodes_put ht.distinct _ _, fun e he => ?_, fun e he => ?_, fun n hn => ?_⟩
  · rw [here_put]
    rcases mem_nodes_put he with rfl | he
    · exact fun hhere => hfree (node?_of_way hhere)
    · exact ht.apart e he
  · rcases mem_nodes_put he with rfl | he
    · exact ⟨parent, name, rfl, hname, hkeeps.directory _ hparent⟩
    · obtain ⟨parent', name', heq, hname', hparent'⟩ := ht.child e he
      exact ⟨parent', name', heq, hname', hkeeps.directory _ hparent'⟩
  · rw [here_put] at hn
    exact ht.here n hn

theorem put_new {parent : Place} {name : String} (hparent : t.node? parent = some .directory)
    (hname : FileName name) (hfree : t.node? (parent ++ [name]) = none) (node : Node) :
    (t.put (parent ++ [name]) node).WellFormed :=
  ht.put hparent hname (by simp [hfree]) node

theorem directory_dropLast {place : Place} (h : t.node? place = some .directory) :
    t.node? place.dropLast = some .directory := by
  cases place using List.reverseRecOn with
  | nil => exact h
  | append_singleton q last =>
      rw [List.dropLast_concat]
      exact ht.directory_above h

theorem makeDirectories {place : Place} {names : List String}
    (hplace : t.node? place = some .directory) (hnames : ∀ name ∈ names, '\x00' ∉ name.toList) :
    (t.makeDirectories place names).after.WellFormed := by
  induction names generalizing t place with
  | nil => exact ht
  | cons name rest ih =>
      obtain ⟨hnull, hrest⟩ := List.forall_mem_cons.mp hnames
      rcases makeDirectories_cases t place name rest with hdir | ⟨hnone, hshort, hmade⟩ | hstop
      · rw [makeDirectories_of_directory hdir]
        exact ih ht hdir hrest
      · -- What is made is new, since the way up is there already.
        have hup : name ≠ ".." := by
          rintro rfl
          have habove : t.node? (next place "..") = some .directory := ht.directory_dropLast hplace
          exact absurd (habove.symm.trans hnone) nofun
        rw [next_of_ne place hup] at hnone hmade
        have hfree : t.node? (place ++ [name]) ≠ some .directory := by simp [hnone]
        rw [hmade]
        exact ih (ht.put_new hplace ⟨⟨hup, hnull⟩, hshort⟩ hnone .directory)
          (node?_put_self _ hfree) hrest
      · rw [hstop t rfl]
        exact ht

/-- Making a way keeps files well-formed, however far it comes. -/
theorem makeWay (p : Path) : (t.makeWay p).after.WellFormed := by
  by_cases hnull : ∃ s ∈ p.parts, '\x00' ∈ s.toList
  · rw [makeWay_of_null t hnull]
    exact ht
  · rw [makeWay_of_noNull t hnull]
    exact ht.makeDirectories (node?_startOf t p) fun name hname hmem => hnull ⟨name, hname, hmem⟩

/-- A path that leads nowhere, seen from a directory, ends in a plain name. -/
theorem eq_child_of_missing {p : Path} {place : Place} (hp : t.lookup p = .missing)
    (hparent : t.lookup p.parent = .found place .directory) :
    p = p.parent.child p.name ∧ PlainName p.name := by
  obtain ⟨root, parts⟩ := p
  -- A path without names leads where its parent leads, which is somewhere.
  have hne : parts ≠ [] := by
    rintro rfl
    have hsame : t.lookup ⟨root, []⟩ = .found place .directory := hparent
    rw [hp] at hsame
    exact absurd hsame (by simp)
  obtain ⟨names, last, rfl⟩ : ∃ names last, parts = names ++ [last] :=
    ⟨_, _, (List.dropLast_append_getLast hne).symm⟩
  have hname : Path.name ⟨root, names ++ [last]⟩ = last := Path.name_child ⟨root, names⟩ last
  have hup : Path.parent ⟨root, names ++ [last]⟩ = ⟨root, names⟩ :=
    Path.parent_child ⟨root, names⟩ last
  rw [hup] at hparent
  rw [hup, hname]
  refine ⟨rfl, ?_, fun hnull => ?_⟩
  · -- The way up from a directory does not lead nowhere.
    rintro rfl
    have hplace := (lookup_found hparent).2
    have hup : t.walk place [".."] = .found place.dropLast .directory :=
      walk_cons_found_iff.mpr
        ⟨hplace, by decide, walk_nil_found_iff.mpr ⟨ht.directory_dropLast hplace, rfl⟩⟩
    have hplain : ¬ ∃ s ∈ [".."], '\x00' ∈ s.toList := by decide
    have hend := (lookup_append_of_found hparent hplain).trans hup
    exact absurd (hp.symm.trans hend) nofun
  · have hmalformed := lookup_of_null t (p := ⟨root, names ++ [last]⟩)
      ⟨last, List.mem_append_right _ List.mem_cons_self, hnull⟩
    exact absurd (hp.symm.trans hmalformed) nofun

/-- Writing a file keeps files well-formed. -/
theorem write {t' : Tree} {p : Path} {content : Content} (h : t.write p content = .ok t') :
    t'.WellFormed := by
  have hwrite := h
  unfold Tree.write at h
  split at h
  · next place old hlookup =>
      -- The file has a place of its own already.
      obtain rfl := Except.ok.inj h
      have hnode := (lookup_found hlookup).2
      rcases mem_of_node? hnode with ⟨-, hdir⟩ | hmem
      · exact absurd hdir nofun
      · obtain ⟨parent, name, heq, hname, hparent⟩ := ht.child _ hmem
        have heq : place = parent ++ [name] := heq
        subst heq
        exact ht.put hparent hname (by simp [hnode]) _
  · exact absurd h nofun
  · next hmissing =>
      split at h
      · next place hparent =>
          obtain ⟨hp, hname⟩ := ht.eq_child_of_missing hmissing hparent
          rw [hp] at hwrite
          obtain ⟨place, hdir, hshort, hfree, rfl⟩ := (write_child_ok_iff hname).mp hwrite
          exact ht.put (lookup_found hdir).2 ⟨hname, hshort⟩ hfree _
      · exact absurd h nofun
  · exact absurd h nofun

end WellFormed

end Tree
end Routebook
