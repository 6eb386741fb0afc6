/-
  Routebook.Proofs.Files.Stock

  Files that are put into an empty directory.  The directory is empty at
  first (`Vacant`), and later it holds some files under names of its own
  (`Stocked`); all else is as it was.  Then every path leads where it led,
  unless it leads to one of these files (`Stocked.probe_eq`), and directories
  list the same module files, since the names of the new ones are not such
  names (`Stocked.moduleFilesOf_eq`).  So modules are found and loaded as before
  (`Stocked.looksLike`, `sameAt`).
-/
import Routebook.Proofs.Files.Listing

namespace Routebook

open Discover

namespace Tree

/-- A path leads to a directory that holds nothing.  No name in the files is
one that stands for the directory above. -/
structure Vacant (t : Tree) (d : Path) (place : Place) : Prop where
  directory : t.lookup d = .found place .directory
  free : ∀ name, t.node? (place ++ [name]) = none
  below : ∀ e ∈ t.nodes, place <+: e.1 → e.1 = place
  named : ∀ e ∈ t.nodes, ".." ∉ e.1

/-- Files were put into a directory, under names of some kind. -/
structure Stocked (names : String → Prop) (place : Place) (t t' : Tree) : Prop where
  here : t'.here = t.here
  nodes : ∃ stock, t'.nodes = t.nodes ++ stock ∧
    ∀ e ∈ stock, ∃ name content, names name ∧ e = (place ++ [name], .file content)

theorem Stocked.refl (names : String → Prop) (place : Place) (t : Tree) :
    t.Stocked names place t :=
  ⟨rfl, [], (List.append_nil _).symm, fun _ h => absurd h List.not_mem_nil⟩

namespace Stocked

variable {names : String → Prop} {place : Place} {t t' : Tree}

/-! ## What places hold -/

/-- A place holds what it held, or it was free and holds a new file. -/
theorem node? (h : t.Stocked names place t') (q : Place) :
    t'.node? q = t.node? q ∨
      t.node? q = none ∧ ∃ name content, names name ∧ q = place ++ [name] ∧
        t'.node? q = some (.file content) := by
  obtain ⟨stock, hnodes, hstock⟩ := h.nodes
  unfold Tree.node?
  rw [h.here, hnodes, List.find?_append]
  split
  · exact Or.inl rfl
  -- What was there is found first, since the new files stand behind it.
  · cases hold : t.nodes.find? (·.1 == q) with
    | some e => exact Or.inl rfl
    | none =>
        cases hnew : stock.find? (·.1 == q) with
        | none => exact Or.inl rfl
        | some e =>
            obtain ⟨name, content, hname, rfl⟩ := hstock e (List.mem_of_find?_eq_some hnew)
            have hq : place ++ [name] = q := by simpa using List.find?_some hnew
            exact Or.inr ⟨rfl, name, content, hname, hq.symm, rfl⟩

theorem node?_of_ne (h : t.Stocked names place t') {q : Place}
    (hq : ∀ name, names name → q ≠ place ++ [name]) : t'.node? q = t.node? q := by
  rcases h.node? q with hsame | ⟨-, name, content, hname, heq, -⟩
  · exact hsame
  · exact absurd heq (hq name hname)

theorem directory_iff (h : t.Stocked names place t') (q : Place) :
    t'.node? q = some .directory ↔ t.node? q = some .directory := by
  rcases h.node? q with hsame | ⟨hnone, name, content, -, -, hfile⟩
  · rw [hsame]
  · rw [hnone, hfile]
    simp

theorem keeps (h : t.Stocked names place t') : t.Keeps t' :=
  ⟨h.here, fun q hq => (h.directory_iff q).mpr hq⟩

/-- One more file. -/
theorem put (h : t.Stocked names place t') {name : String} (hname : names name)
    (hfree : t.node? (place ++ [name]) = none) (content : Content) :
    t.Stocked names place (t'.put (place ++ [name]) (.file content)) := by
  obtain ⟨stock, hnodes, hstock⟩ := h.nodes
  refine ⟨(here_put _ _ _).trans h.here, ?_⟩
  -- The files from before are under other places.
  have hother : ∀ e ∈ t.nodes, e.1 ≠ place ++ [name] := by
    intro e he heq
    unfold Tree.node? at hfree
    split at hfree
    · exact absurd hfree (by simp)
    · have hfind := List.find?_eq_none.mp (Option.map_eq_none_iff.mp hfree) e he
      exact hfind (by simpa using heq)
  unfold Tree.put
  split
  · refine ⟨stock.map fun e =>
        if e.1 == place ++ [name] then (place ++ [name], .file content) else e,
      ?_, fun e he => ?_⟩
    · show List.map _ t'.nodes = _
      rw [hnodes, List.map_append]
      refine congrArg (· ++ _) (map_eq_self fun e he => ?_)
      rw [if_neg (by simpa using hother e he)]
    · obtain ⟨d, hd, rfl⟩ := List.mem_map.mp he
      split
      · exact ⟨name, content, hname, rfl⟩
      · exact hstock d hd
  · refine ⟨stock ++ [(place ++ [name], .file content)], ?_, fun e he => ?_⟩
    · show t'.nodes ++ _ = _
      rw [hnodes, List.append_assoc]
    · rcases List.mem_append.mp he with he | he
      · exact hstock e he
      · exact ⟨name, content, hname, List.mem_singleton.mp he⟩

/-! ## Where paths lead -/

/-- Where a way leads now: where it led, or nowhere still, or to a new file. -/
theorem walk (h : t.Stocked names place t') (start : Place) (ns : List String) :
    t'.walk start ns = t.walk start ns ∨
      t.walk start ns = .missing ∧
        (t'.walk start ns = .notDirectory ∨
          ∃ name content, names name ∧
            t'.walk start ns = .found (place ++ [name]) (.file content)) := by
  -- A place on the way holds what it held, or it was free and the way now stops at the new file.
  induction ns generalizing start with
  | nil =>
      unfold Tree.walk
      rcases h.node? start with hsame | ⟨hnone, name, content, hname, rfl, hfile⟩
      · rw [hsame]
        exact Or.inl rfl
      · rw [hnone, hfile]
        exact Or.inr ⟨rfl, Or.inr ⟨name, content, hname, rfl⟩⟩
  | cons n rest ih =>
      rw [walk_cons, walk_cons]
      rcases h.node? start with hsame | ⟨hnone, name, content, hname, rfl, hfile⟩
      · rw [through_congr hsame]
        rcases t.through_cases start n with hon | ⟨stop, -, hstop⟩
        · rw [hon, hon]
          exact ih _
        · rw [hstop, hstop]
          exact Or.inl rfl
      · unfold through
        rw [hnone, hfile]
        exact Or.inr ⟨rfl, Or.inl rfl⟩

theorem lookup (h : t.Stocked names place t') (p : Path) :
    t'.lookup p = t.lookup p ∨
      t.lookup p = .missing ∧
        (t'.lookup p = .notDirectory ∨
          ∃ name content, names name ∧ t'.lookup p = .found (place ++ [name]) (.file content)) := by
  by_cases hnull : ∃ s ∈ p.parts, '\x00' ∈ s.toList
  · rw [lookup_of_null t hnull, lookup_of_null t' hnull]
    exact Or.inl rfl
  · rw [lookup_of_noNull t hnull, lookup_of_noNull t' hnull, h.keeps.startOf p]
    exact h.walk _ _

theorem lookup_of_found (h : t.Stocked names place t') {p : Path} {q : Place} {node : Node}
    (hfound : t.lookup p = .found q node) : t'.lookup p = .found q node := by
  rcases h.lookup p with hsame | ⟨hmissing, -⟩
  · rw [hsame, hfound]
  · rw [hmissing] at hfound
    exact absurd hfound (by simp)

/-- A path that does not lead to one of the new files leads to what it led to. -/
theorem probe_eq (h : t.Stocked names place t') {p : Path}
    (hp : ∀ name, names name → t.resolve p ≠ place ++ [name]) : t'.probe p = t.probe p := by
  unfold Tree.probe
  rcases h.lookup p with hsame | ⟨hmissing, hnot | ⟨name, content, hname, hfound⟩⟩
  · rw [hsame]
  · rw [hmissing, hnot]
  · have hplace := (lookup_found hfound).1
    rw [resolve_congr h.here] at hplace
    exact absurd hplace.symm (hp name hname)

/-! ## Module files -/

variable (hnames : ∀ name, names name → name.endsWith ".py" = false)
include hnames

theorem moduleFiles_eq (h : t.Stocked names place t') (q : Place) :
    moduleFiles t' q = moduleFiles t q := by
  obtain ⟨stock, hnodes, hstock⟩ := h.nodes
  obtain ⟨fresh, hbelow, hfresh⟩ : ∃ fresh, t'.below q = t.below q ++ fresh ∧
      ∀ d ∈ fresh, ∃ e ∈ stock, (if q.isPrefixOf e.1 && decide (q.length < e.1.length) then
        some (e.1.drop q.length, e.2) else none) = some d := by
    refine ⟨_, ?_, fun d hd => List.mem_filterMap.mp hd⟩
    unfold Tree.below Tree.way
    rw [h.here, hnodes, ← List.append_assoc, List.filterMap_append]
  -- Of the new files none has the name of a module file.
  have hnone : ((fresh.map Prod.fst).filter fun ns =>
      ((ns.getLast?.getD "").endsWith ".py") && !(ns.dropLast.any isPassedOver)) = [] := by
    refine List.filter_eq_nil_iff.mpr fun ns hns => ?_
    obtain ⟨d, hd, rfl⟩ := List.mem_map.mp hns
    obtain ⟨e, he, hd⟩ := hfresh d hd
    obtain ⟨name, content, hname, rfl⟩ := hstock e he
    split at hd
    · next hin =>
        obtain rfl := Option.some.inj hd
        have hlong : q.length ≤ place.length := by
          have hlt := (Bool.and_eq_true_iff.mp hin).2
          have hlt : q.length < (place ++ [name]).length := of_decide_eq_true hlt
          rw [List.length_append, List.length_singleton] at hlt
          exact Nat.le_of_lt_succ hlt
        have hlast : ((place ++ [name]).drop q.length).getLast?.getD "" = name := by
          rw [List.drop_append_of_le_length hlong, List.getLast?_concat, Option.getD_some]
        simp only [hlast, hnames name hname, Bool.false_and]
        simp
    · exact absurd hd (by simp)
  unfold moduleFiles
  rw [hbelow, List.map_append, List.filter_append, hnone, List.append_nil]

theorem moduleFilesOf_eq (h : t.Stocked names place t') (p : Path) :
    moduleFilesOf t' p = moduleFilesOf t p := by
  unfold moduleFilesOf
  rcases h.lookup p with hsame | ⟨hmissing, hnot | ⟨name, content, hname, hfound⟩⟩
  · rw [hsame]
    split
    · rw [h.moduleFiles_eq hnames]
    · rfl
  · rw [hmissing, hnot]
  · rw [hmissing, hfound]

theorem looksLike (h : t.Stocked names place t') : t.LooksLike t' := by
  refine ⟨h.here, fun q hq => h.node?_of_ne fun name hname heq => ?_, fun q => ?_, ?_⟩
  · rw [heq, isModulePlace_append_singleton, hnames name hname] at hq
    exact absurd hq (by simp)
  · unfold Tree.isDirectoryAt
    rcases h.node? q with hsame | ⟨hnone, name, content, -, -, hfile⟩
    · rw [hsame]
    · rw [hnone, hfile]
  · obtain ⟨stock, hnodes, hstock⟩ := h.nodes
    have hnone : stock.filter Import.isImportable = [] := by
      refine List.filter_eq_nil_iff.mpr fun e he => ?_
      obtain ⟨name, content, hname, rfl⟩ := hstock e he
      have hlast : (place ++ [name]).getLast?.getD "" = name := by
        rw [List.getLast?_concat, Option.getD_some]
      simp only [Import.isImportable, hlast, hnames name hname]
      simp
    rw [hnodes, List.filter_append, hnone, List.append_nil]

end Stocked

/-! ## Files that are listed -/

theorem walk_append_of_found {t : Tree} {start q : Place} {ns : List String}
    (h : t.walk start ns = .found q .directory) (more : List String) :
    t.walk start (ns ++ more) = t.walk q more := by
  induction ns generalizing start with
  | nil =>
      obtain ⟨-, rfl⟩ := walk_nil_found_iff.mp h
      rfl
  | cons n rest ih =>
      obtain ⟨hdir, hshort, hrest⟩ := walk_cons_found_iff.mp h
      rw [List.cons_append, walk_of_directory hdir hshort, ih hrest]

/-- What lies behind a directory is found from there. -/
theorem lookup_append_of_found {t : Tree} {p : Path} {q : Place}
    (h : t.lookup p = .found q .directory) {ns : List String}
    (hns : ¬ ∃ s ∈ ns, '\x00' ∈ s.toList) :
    t.lookup ⟨p.root, p.parts ++ ns⟩ = t.walk q ns := by
  obtain ⟨hnull, hwalk⟩ := lookup_found_iff.mp h
  have hwhole : ¬ ∃ s ∈ p.parts ++ ns, '\x00' ∈ s.toList := by
    rintro ⟨s, hs, hmem⟩
    rcases List.mem_append.mp hs with hs | hs
    · exact hnull ⟨s, hs, hmem⟩
    · exact hns ⟨s, hs, hmem⟩
  rw [lookup_of_noNull t hwhole]
  exact walk_append_of_found hwalk ns

/-- A module file that is listed below a directory lies on the way to the
current directory or is one of the places in the files. -/
theorem mem_moduleFilesOf {t : Tree} {p f : Path} (h : f ∈ moduleFilesOf t p) :
    ∃ q ns, t.lookup p = .found q .directory ∧ f = ⟨p.root, p.parts ++ ns⟩ ∧ IsListed ns ∧
      (q ++ ns <+: t.here ∨ ∃ e ∈ t.nodes, e.1 = q ++ ns) := by
  -- Only a directory has a listing.
  cases hlookup : t.lookup p with
  | found q node =>
      cases node with
      | directory =>
          obtain ⟨ns, rfl, hlisted, hthere⟩ := (mem_moduleFilesOf_iff hlookup).mp h
          obtain ⟨node, hnode⟩ := exists_mem_iff.mpr hthere
          refine ⟨q, ns, rfl, rfl, hlisted, ?_⟩
          rcases List.mem_append.mp hnode with hway | hnode
          · exact .inl (mem_way_iff.mp hway).1
          · exact .inr ⟨_, hnode, rfl⟩
      | file c =>
          unfold moduleFilesOf at h
          rw [hlookup] at h
          exact absurd h List.not_mem_nil
  | _ =>
      unfold moduleFilesOf at h
      rw [hlookup] at h
      exact absurd h List.not_mem_nil

/-- The way to the current directory leads where it led. -/
theorem walk_way {names : String → Prop} {place : Place} {t t' : Tree}
    (h : t.Stocked names place t') {q : Place} {ns : List String} (hway : q ++ ns <+: t.here)
    (hup : ".." ∉ ns) : t'.walk q ns = t.walk q ns := by
  have hsame : ∀ {r : Place}, r <+: t.here → t'.node? r = t.node? r := fun hr => by
    rw [node?_of_way hr, node?_of_way (h.here ▸ hr)]
  induction ns generalizing q with
  | nil =>
      rw [List.append_nil] at hway
      unfold walk
      rw [hsame hway]
  | cons n rest ih =>
      have hn : n ≠ ".." := fun heq => hup (heq ▸ List.mem_cons_self)
      have hnext : q ++ [n] ++ rest <+: t.here := by simpa using hway
      rw [walk_cons, walk_cons, next_of_ne q hn,
        through_congr (hsame ((List.prefix_append q (n :: rest)).trans hway)),
        ih hnext fun hrest => hup (List.mem_cons_of_mem n hrest)]

section Listed

variable {names : String → Prop} {d : Path} {place : Place} {t t' : Tree}
variable (hnames : ∀ name, names name → name.endsWith ".py" = false)
include hnames

/-- No way to a module file leads over the new files. -/
theorem walk_listed (hvacant : t.Vacant d place) (h : t.Stocked names place t')
    {e : Place × Node} (he : e ∈ t.nodes) (hpy : isModulePlace e.1 = true) {q : Place}
    {ns : List String} (heq : e.1 = q ++ ns) : t'.walk q ns = t.walk q ns := by
  induction ns generalizing q with
  | nil =>
      rw [List.append_nil] at heq
      have hsame : t'.node? q = t.node? q := by
        refine h.node?_of_ne fun name hname hq => ?_
        rw [heq, hq, isModulePlace_append_singleton, hnames name hname] at hpy
        exact absurd hpy (by simp)
      unfold walk
      rw [hsame]
  | cons n rest ih =>
      have hsame : t'.node? q = t.node? q := by
        refine h.node?_of_ne fun name hname hq => ?_
        -- Below a new file nothing was there, since the directory was empty.
        have hbelow : place <+: e.1 := ⟨[name] ++ n :: rest, by rw [heq, hq, List.append_assoc]⟩
        have hlength := congrArg List.length (hvacant.below e he hbelow)
        rw [heq, hq] at hlength
        simp at hlength
      have hup : n ≠ ".." := by
        rintro rfl
        exact hvacant.named e he (by rw [heq]; simp)
      have hnext : e.1 = (q ++ [n]) ++ rest := by rw [heq, List.append_assoc]; rfl
      rw [walk_cons, walk_cons, through_congr hsame, next_of_ne q hup, ih hnext]

theorem read_listed (hvacant : t.Vacant d place) (h : t.Stocked names place t') {p f : Path}
    (hf : f ∈ moduleFilesOf t p) : t'.read f = t.read f := by
  obtain ⟨q, ns, hlookup, rfl, hlisted, hplace⟩ := mem_moduleFilesOf hf
  have hwalk : t'.walk q ns = t.walk q ns := by
    rcases hplace with hway | ⟨e, he, heq⟩
    · exact walk_way h hway hlisted.notUp
    · exact walk_listed hnames hvacant h he (heq ▸ hlisted.isModulePlace q) heq
  have hsame : t'.lookup ⟨p.root, p.parts ++ ns⟩ = t.lookup ⟨p.root, p.parts ++ ns⟩ := by
    by_cases hns : ∃ s ∈ ns, '\x00' ∈ s.toList
    · obtain ⟨s, hs, hnull⟩ := hns
      have hwhole : ∃ s ∈ p.parts ++ ns, '\x00' ∈ s.toList :=
        ⟨s, List.mem_append_right _ hs, hnull⟩
      rw [lookup_of_null t hwhole, lookup_of_null t' hwhole]
    · rw [lookup_append_of_found hlookup hns,
        lookup_append_of_found (h.lookup_of_found hlookup) hns, hwalk]
  unfold read
  rw [hsame]

/-- A path that does not lead to one of the new files leads to the same files. -/
theorem sameAt (hvacant : t.Vacant d place) (h : t.Stocked names place t') {p : Path}
    (hp : ∀ name, names name → t.resolve p ≠ place ++ [name]) : t.SameAt t' p := by
  refine ⟨h.probe_eq hp, h.moduleFilesOf_eq hnames p, fun c hc => ?_, fun f hf =>
    read_listed hnames hvacant h hf⟩
  unfold probe at hc
  unfold read
  cases hlookup : t.lookup p with
  | found q node => rw [h.lookup_of_found hlookup]
  | _ =>
      rw [hlookup] at hc
      exact absurd hc (by simp)

end Listed

/-! ## The directory itself -/

theorem makeDirectories_of_walk {t : Tree} {start q : Place} {ns : List String}
    (h : t.walk start ns = .found q .directory) : t.makeDirectories start ns = .ok t := by
  -- Each place on the way is a directory, since the way goes on or ends there.
  have hnode : ∀ {p : Place} {ms : List String}, t.walk p ms = .found q .directory →
      t.node? p = some .directory := by
    intro p ms hwalk
    cases ms with
    | nil => exact (walk_nil_found_iff.mp hwalk).1
    | cons m ms => exact (walk_cons_found_iff.mp hwalk).1
  induction ns generalizing start with
  | nil => rfl
  | cons n rest ih =>
      have hrest := (walk_cons_found_iff.mp h).2.2
      rw [makeDirectories_of_directory (hnode hrest)]
      exact ih hrest

/-- A way that leads to a directory needs no making. -/
theorem makeWay_of_lookup {t : Tree} {d : Path} {place : Place}
    (h : t.lookup d = .found place .directory) : t.makeWay d = .ok t := by
  obtain ⟨hnull, hwalk⟩ := lookup_found_iff.mp h
  rw [makeWay_of_noNull t hnull]
  exact makeDirectories_of_walk hwalk

end Tree
end Routebook
