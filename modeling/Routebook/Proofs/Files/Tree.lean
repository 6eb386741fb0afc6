/-
  Routebook.Proofs.Files.Tree

  What a change of the files leaves as it was.  Making directories and
  writing files never turns a directory into something else (`Keeps`), so a
  path that led to a directory leads there afterwards.  Writing the file of a
  name in a directory is one `put` (`write_child_ok_iff`), and other names of
  the directory are found as before (`lookup_child_put`).

  What one name of a path can do is said once: `makeDirectories_cases` for
  making directories, `walk_cons` and `walk_cons_found_iff` for following.
-/
import Routebook.Files.Tree

namespace Routebook

/-- A name that stands for itself and can be written down. -/
structure PlainName (name : String) : Prop where
  notUp : name ≠ ".."
  noNull : '\x00' ∉ name.toList

namespace Tree

/-! ## What places hold -/

@[simp] theorem here_put (t : Tree) (place : Place) (node : Node) :
    (t.put place node).here = t.here := by
  unfold put
  split <;> rfl

theorem find?_nodes_put (t : Tree) (place other : Place) (node : Node) :
    ((t.put place node).nodes.find? (·.1 == other)).map Prod.snd
      = if other = place then some node else (t.nodes.find? (·.1 == other)).map Prod.snd := by
  unfold put
  split
  · next hany =>
      -- An entry of the place is replaced where it stands, under the same place.
      have hsame : ((·.1 == other) ∘
          fun e : Place × Node => if e.1 == place then (place, node) else e) = (·.1 == other) := by
        funext e
        by_cases he : e.1 = place <;> simp [he]
      show ((t.nodes.map _).find? _).map Prod.snd = _
      rw [List.find?_map, hsame]
      cases hf : t.nodes.find? (·.1 == other) with
      | none =>
          by_cases ho : other = place
          · subst ho
            obtain ⟨e, he, heq⟩ := List.any_eq_true.mp hany
            exact absurd heq (List.find?_eq_none.mp hf e he)
          · rw [if_neg ho]
            rfl
      | some e =>
          have he : e.1 = other := by simpa using List.find?_some hf
          by_cases ho : other = place <;> simp [he, ho]
  · next hany =>
      -- A new entry goes to the end; no entry before it has its place.
      show ((t.nodes ++ [(place, node)]).find? _).map Prod.snd = _
      rw [List.find?_append]
      by_cases ho : other = place
      · subst ho
        have hfind : t.nodes.find? (·.1 == other) = none :=
          List.find?_eq_none.mpr fun e he h => hany (List.any_eq_true.mpr ⟨e, he, h⟩)
        rw [hfind, if_pos rfl]
        simp
      · have hpo : ¬ place = other := fun h => ho h.symm
        simp [ho, hpo]

/-- The place of a `put` holds what was put there, unless it lies on the way to
the current directory; all other places hold what they held. -/
theorem node?_put (t : Tree) (place other : Place) (node : Node) :
    (t.put place node).node? other
      = if other.isPrefixOf t.here then some .directory
        else if other = place then some node else t.node? other := by
  unfold node?
  rw [here_put, find?_nodes_put]
  by_cases hh : other.isPrefixOf t.here = true
  · rw [if_pos hh, if_pos hh]
  · rw [if_neg hh, if_neg hh, if_neg hh]

/-- A place that holds no directory does not lie on the way to the current one. -/
theorem isPrefixOf_here_of_node? {t : Tree} {place : Place}
    (h : t.node? place ≠ some .directory) : ¬ place.isPrefixOf t.here = true := by
  intro hh
  exact h (if_pos hh)

theorem node?_put_self {t : Tree} {place : Place} (node : Node)
    (h : t.node? place ≠ some .directory) : (t.put place node).node? place = some node := by
  rw [node?_put, if_neg (isPrefixOf_here_of_node? h), if_pos rfl]

theorem node?_put_of_ne {t : Tree} {place other : Place} (node : Node) (h : other ≠ place) :
    (t.put place node).node? other = t.node? other := by
  rw [node?_put, if_neg h]
  split
  · next hh => exact (if_pos hh).symm
  · rfl

/-! ## Directories stay -/

/-- Every directory of the first tree is one of the second, and paths start
from the same places. -/
structure Keeps (t t' : Tree) : Prop where
  here : t'.here = t.here
  directory : ∀ place, t.node? place = some .directory → t'.node? place = some .directory

theorem Keeps.refl (t : Tree) : t.Keeps t := ⟨rfl, fun _ h => h⟩

theorem Keeps.trans {t t' t'' : Tree} (h : t.Keeps t') (h' : t'.Keeps t'') : t.Keeps t'' :=
  ⟨h'.here.trans h.here, fun place hd => h'.directory place (h.directory place hd)⟩

theorem Keeps.startOf {t t' : Tree} (h : t.Keeps t') (p : Path) : t'.startOf p = t.startOf p := by
  unfold Tree.startOf
  rw [h.here]

theorem keeps_put {t : Tree} {place : Place} (node : Node)
    (h : t.node? place ≠ some .directory) : t.Keeps (t.put place node) := by
  refine ⟨here_put t place node, fun other hd => ?_⟩
  have hne : other ≠ place := fun he => h (he ▸ hd)
  rw [node?_put_of_ne node hne, hd]

/-! ## Making directories -/

/-- Where one name leads from a place. -/
def next (place : Place) (name : String) : Place :=
  if name = ".." then place.dropLast else place ++ [name]

theorem next_of_ne (place : Place) {name : String} (hup : name ≠ "..") :
    next place name = place ++ [name] :=
  if_neg hup

theorem makeDirectories_of_directory {t : Tree} {place : Place} {name : String}
    (h : t.node? (next place name) = some .directory) (rest : List String) :
    t.makeDirectories place (name :: rest) = t.makeDirectories (next place name) rest := by
  unfold next at h ⊢
  rw [makeDirectories]
  simp only [h]

/-- What one step can do: meet a directory, make one, or stop at a file or at a name
that is too long.  It stops in the same way wherever the place holds the same. -/
theorem makeDirectories_cases (t : Tree) (place : Place) (name : String) (rest : List String) :
    t.node? (next place name) = some .directory ∨
      (t.node? (next place name) = none ∧ name.utf8ByteSize ≤ nameLimit ∧
        t.makeDirectories place (name :: rest)
          = (t.put (next place name) .directory).makeDirectories (next place name) rest) ∨
      ∀ t₁ : Tree, t₁.node? (next place name) = t.node? (next place name) →
        t₁.makeDirectories place (name :: rest) = .error (t₁, .badPath) := by
  cases hn : t.node? (next place name) with
  | some node =>
      cases node with
      | directory => exact .inl rfl
      | file c =>
          refine .inr (.inr fun t₁ h₁ => ?_)
          unfold next at h₁
          rw [makeDirectories]
          simp only [h₁]
  | none =>
      by_cases hlong : name.utf8ByteSize > nameLimit
      · refine .inr (.inr fun t₁ h₁ => ?_)
        unfold next at h₁
        rw [makeDirectories]
        simp only [h₁, if_pos hlong]
      · refine .inr (.inl ⟨rfl, Nat.le_of_not_lt hlong, ?_⟩)
        unfold next at hn ⊢
        rw [makeDirectories]
        simp only [hn, if_neg hlong]

/-- A step goes on from a directory, met or made, or the run stops there. -/
theorem makeDirectories_goes_on (t : Tree) (place : Place) (name : String) (rest : List String) :
    (∃ t₂ : Tree, t.Keeps t₂ ∧ t₂.node? (next place name) = some .directory ∧
        t.makeDirectories place (name :: rest) = t₂.makeDirectories (next place name) rest) ∨
      ∀ t₁ : Tree, t₁.node? (next place name) = t.node? (next place name) →
        t₁.makeDirectories place (name :: rest) = .error (t₁, .badPath) := by
  rcases makeDirectories_cases t place name rest with hdir | ⟨hnone, -, hmade⟩ | hstop
  · exact .inl ⟨t, Keeps.refl t, hdir, makeDirectories_of_directory hdir rest⟩
  · have hfree : t.node? (next place name) ≠ some .directory := by simp [hnone]
    exact .inl ⟨_, keeps_put _ hfree, node?_put_self _ hfree, hmade⟩
  · exact .inr hstop

/-- Making directories keeps all directories, however far it comes. -/
theorem keeps_makeDirectories (t : Tree) (place : Place) (names : List String) :
    t.Keeps (t.makeDirectories place names).after := by
  induction names generalizing t place with
  | nil => exact Keeps.refl t
  | cons name rest ih =>
      rcases makeDirectories_goes_on t place name rest with ⟨t₂, hk, -, hon⟩ | hstop
      · rw [hon]
        exact hk.trans (ih t₂ _)
      · rw [hstop t rfl]
        exact Keeps.refl t

theorem keeps_of_makeDirectories {t t₁ : Tree} {place : Place} {names : List String}
    (h : t.makeDirectories place names = .ok t₁) : t.Keeps t₁ := by
  have hk := keeps_makeDirectories t place names
  rwa [h] at hk

/-- Once they have been made, there is nothing left to make. -/
theorem makeDirectories_of_keeps {t t₁ t' : Tree} {place : Place} {names : List String}
    (h : t.makeDirectories place names = .ok t₁) (hk : t₁.Keeps t') :
    t'.makeDirectories place names = .ok t' := by
  -- Each directory that was met or made is there in the end, and so it is met again.
  induction names generalizing t place with
  | nil => rfl
  | cons name rest ih =>
      rcases makeDirectories_goes_on t place name rest with ⟨t₂, -, hdir, hon⟩ | hstop
      · rw [hon] at h
        have hend := hk.directory _ ((keeps_of_makeDirectories h).directory _ hdir)
        rw [makeDirectories_of_directory hend]
        exact ih h
      · rw [hstop t rfl] at h
        exact absurd h nofun

/-- What could not be made cannot be made afterwards either. -/
theorem makeDirectories_of_error {t t₁ : Tree} {place : Place} {names : List String} {e : Failure}
    (h : t.makeDirectories place names = .error (t₁, e)) :
    t₁.makeDirectories place names = .error (t₁, e) := by
  -- Directories that were met or made are met again, and what stopped the first
  -- run has not been touched.
  induction names generalizing t place with
  | nil => exact absurd h nofun
  | cons name rest ih =>
      rcases makeDirectories_goes_on t place name rest with ⟨t₂, -, hdir, hon⟩ | hstop
      · rw [hon] at h
        have hk := keeps_makeDirectories t₂ (next place name) rest
        rw [h] at hk
        have hend : t₁.node? (next place name) = some .directory := hk.directory _ hdir
        rw [makeDirectories_of_directory hend]
        exact ih h
      · have hstop' := hstop t rfl
        obtain ⟨rfl, -⟩ := Prod.mk.inj (Except.error.inj (hstop'.symm.trans h))
        exact h

/-! ## Names that can be written down -/

theorem any_null_iff {names : List String} :
    (names.any fun s => s.toList.contains '\x00') = true ↔ ∃ s ∈ names, '\x00' ∈ s.toList := by
  simp

/-- A path with the character that no name may hold leads nowhere. -/
theorem lookup_of_null (t : Tree) {p : Path} (h : ∃ s ∈ p.parts, '\x00' ∈ s.toList) :
    t.lookup p = .malformed :=
  if_pos (any_null_iff.mpr h)

theorem lookup_of_noNull (t : Tree) {p : Path} (h : ¬ ∃ s ∈ p.parts, '\x00' ∈ s.toList) :
    t.lookup p = t.walk (t.startOf p) p.parts :=
  if_neg (mt any_null_iff.mp h)

theorem makeWay_of_null (t : Tree) {p : Path} (h : ∃ s ∈ p.parts, '\x00' ∈ s.toList) :
    t.makeWay p = .error (t, openFailure .malformed) :=
  if_pos (any_null_iff.mpr h)

theorem makeWay_of_noNull (t : Tree) {p : Path} (h : ¬ ∃ s ∈ p.parts, '\x00' ∈ s.toList) :
    t.makeWay p = t.makeDirectories (t.startOf p) p.parts :=
  if_neg (mt any_null_iff.mp h)

theorem keeps_makeWay (t : Tree) (d : Path) : t.Keeps (t.makeWay d).after := by
  by_cases hnull : ∃ s ∈ d.parts, '\x00' ∈ s.toList
  · rw [makeWay_of_null t hnull]
    exact Keeps.refl t
  · rw [makeWay_of_noNull t hnull]
    exact keeps_makeDirectories t _ _

theorem keeps_of_makeWay {t t₁ : Tree} {d : Path} (h : t.makeWay d = .ok t₁) : t.Keeps t₁ := by
  have hk := keeps_makeWay t d
  rwa [h] at hk

/-- A way that was made stays made while directories stay. -/
theorem makeWay_of_keeps {t t₁ t' : Tree} {d : Path} (h : t.makeWay d = .ok t₁)
    (hk : t₁.Keeps t') : t'.makeWay d = .ok t' := by
  have hstart := ((keeps_of_makeWay h).trans hk).startOf d
  by_cases hnull : ∃ s ∈ d.parts, '\x00' ∈ s.toList
  · rw [makeWay_of_null t hnull] at h
    exact absurd h nofun
  · rw [makeWay_of_noNull t hnull] at h
    rw [makeWay_of_noNull t' hnull, hstart]
    exact makeDirectories_of_keeps h hk

/-- Making a way twice is making it once. -/
theorem makeWay_after (t : Tree) (d : Path) : (t.makeWay d).after.makeWay d = t.makeWay d := by
  cases h : t.makeWay d with
  | ok t₁ => exact makeWay_of_keeps h (Keeps.refl t₁)
  | error r =>
      obtain ⟨t₁, e⟩ := r
      have hk := keeps_makeWay t d
      rw [h] at hk
      show t₁.makeWay d = .error (t₁, e)
      by_cases hnull : ∃ s ∈ d.parts, '\x00' ∈ s.toList
      · rw [makeWay_of_null t hnull] at h
        obtain ⟨rfl, rfl⟩ := Prod.mk.inj (Except.error.inj h)
        exact makeWay_of_null t hnull
      · rw [makeWay_of_noNull t hnull] at h
        rw [makeWay_of_noNull t₁ hnull, show t₁.startOf d = t.startOf d from hk.startOf d]
        exact makeDirectories_of_error h

/-! ## Following a path -/

/-- What is ahead of a place counts if the place is a directory and the name under
which it is left is short enough. -/
def through (t : Tree) (place : Place) (name : String) (ahead : Lookup) : Lookup :=
  match t.node? place with
  | none => .missing
  | some (.file _) => .notDirectory
  | some .directory => if name.utf8ByteSize > nameLimit then .tooLong else ahead

theorem walk_cons (t : Tree) (place : Place) (name : String) (rest : List String) :
    t.walk place (name :: rest) = t.through place name (t.walk (next place name) rest) := by
  have hnext : t.walk (next place name) rest
      = if name = ".." then t.walk place.dropLast rest else t.walk (place ++ [name]) rest := by
    unfold next
    split <;> rfl
  rw [hnext]
  rfl

theorem through_congr {t t' : Tree} {place : Place} (h : t'.node? place = t.node? place)
    (name : String) (ahead : Lookup) :
    t'.through place name ahead = t.through place name ahead := by
  unfold through
  rw [h]

/-- A place is either left whatever is ahead, or it is where the way stops. -/
theorem through_cases (t : Tree) (place : Place) (name : String) :
    (∀ ahead, t.through place name ahead = ahead) ∨
      ∃ stop, (∀ q node, stop ≠ .found q node) ∧ ∀ ahead, t.through place name ahead = stop := by
  unfold through
  split
  · exact .inr ⟨.missing, nofun, fun _ => rfl⟩
  · exact .inr ⟨.notDirectory, nofun, fun _ => rfl⟩
  · split
    · exact .inr ⟨.tooLong, nofun, fun _ => rfl⟩
    · exact .inl fun _ => rfl

theorem through_found_iff {t : Tree} {place q : Place} {name : String} {ahead : Lookup}
    {node : Node} : t.through place name ahead = .found q node ↔
      t.node? place = some .directory ∧ name.utf8ByteSize ≤ nameLimit ∧ ahead = .found q node := by
  unfold through
  split
  · next hn => simp [hn]
  · next hn => simp [hn]
  · next hn =>
      by_cases hlong : name.utf8ByteSize > nameLimit
      · simp [hlong, Nat.not_le.mpr hlong]
      · simp [hn, hlong, Nat.le_of_not_lt hlong]

/-- No name leads to what the place holds itself. -/
theorem walk_nil_found_iff {t : Tree} {place q : Place} {node : Node} :
    t.walk place [] = .found q node ↔ t.node? place = some node ∧ place = q := by
  unfold walk
  cases t.node? place with
  | none => simp
  | some n => simp [and_comm]

/-- A way that leads somewhere goes through directories, by names that are short enough. -/
theorem walk_cons_found_iff {t : Tree} {place q : Place} {name : String} {rest : List String}
    {node : Node} : t.walk place (name :: rest) = .found q node ↔
      t.node? place = some .directory ∧ name.utf8ByteSize ≤ nameLimit ∧
        t.walk (next place name) rest = .found q node := by
  rw [walk_cons, through_found_iff]

theorem walk_of_directory {t : Tree} {place : Place} {name : String}
    (hdir : t.node? place = some .directory) (hshort : name.utf8ByteSize ≤ nameLimit)
    (rest : List String) : t.walk place (name :: rest) = t.walk (next place name) rest := by
  rw [walk_cons]
  unfold through
  rw [hdir]
  exact if_neg (Nat.not_lt.mpr hshort)

theorem lookup_found_iff {t : Tree} {p : Path} {q : Place} {node : Node} :
    t.lookup p = .found q node ↔
      (¬ ∃ s ∈ p.parts, '\x00' ∈ s.toList) ∧ t.walk (t.startOf p) p.parts = .found q node := by
  by_cases hnull : ∃ s ∈ p.parts, '\x00' ∈ s.toList
  · simp only [lookup_of_null t hnull, hnull, not_true, false_and, reduceCtorEq]
  · simp only [lookup_of_noNull t hnull, hnull, not_false_eq_true, true_and]

/-- A way that ends in a directory ends there as long as directories stay. -/
theorem walk_of_keeps {t t' : Tree} (hk : t.Keeps t') {place found : Place} {names : List String}
    (h : t.walk place names = .found found .directory) :
    t'.walk place names = .found found .directory := by
  induction names generalizing place with
  | nil =>
      obtain ⟨hnode, rfl⟩ := walk_nil_found_iff.mp h
      exact walk_nil_found_iff.mpr ⟨hk.directory place hnode, rfl⟩
  | cons name rest ih =>
      obtain ⟨hdir, hshort, hrest⟩ := walk_cons_found_iff.mp h
      exact walk_cons_found_iff.mpr ⟨hk.directory place hdir, hshort, ih hrest⟩

/-- What a name leads to in a directory. -/
def entry (t : Tree) (place : Place) (name : String) : Lookup :=
  if name.utf8ByteSize > nameLimit then .tooLong
  else
    match t.node? (place ++ [name]) with
    | some node => .found (place ++ [name]) node
    | none => .missing

/-- One more name at the end of a way. -/
def child (t : Tree) (name : String) : Lookup → Lookup
  | .found place .directory => t.entry place name
  | .found _ (.file _) => .notDirectory
  | other => other

/-- Where a way stops, one more name changes nothing. -/
theorem child_through (t : Tree) (place : Place) (first name : String) (ahead : Lookup) :
    t.child name (t.through place first ahead) = t.through place first (t.child name ahead) := by
  rcases t.through_cases place first with hon | ⟨stop, hstop, hthrough⟩
  · rw [hon, hon]
  · rw [hthrough, hthrough]
    cases stop with
    | found q node => exact absurd rfl (hstop q node)
    | _ => rfl

theorem walk_append_singleton (t : Tree) (place : Place) (names : List String) {name : String}
    (hup : name ≠ "..") :
    t.walk place (names ++ [name]) = t.child name (t.walk place names) := by
  -- The induction is on the way; the last step looks at where the way has ended.
  induction names generalizing place with
  | nil =>
      rw [List.nil_append, walk_cons, next_of_ne place hup]
      unfold through walk
      cases t.node? place with
      | none => rfl
      | some node => cases node <;> rfl
  | cons first rest ih => rw [List.cons_append, walk_cons, walk_cons, child_through, ih]

theorem lookup_child (t : Tree) (d : Path) {name : String} (hname : PlainName name) :
    t.lookup (d.child name) = t.child name (t.lookup d) := by
  -- A plain name adds no character that no name may hold.
  have hparts : (d.child name).parts = d.parts ++ [name] := rfl
  have hiff : (∃ s ∈ (d.child name).parts, '\x00' ∈ s.toList) ↔
      ∃ s ∈ d.parts, '\x00' ∈ s.toList := by
    simp [hparts, or_and_right, exists_or, hname.noNull]
  by_cases hnull : ∃ s ∈ d.parts, '\x00' ∈ s.toList
  · rw [lookup_of_null t hnull, lookup_of_null t (hiff.mpr hnull)]
    rfl
  · rw [lookup_of_noNull t hnull, lookup_of_noNull t (mt hiff.mp hnull)]
    exact walk_append_singleton t _ d.parts hname.notUp

theorem lookup_of_keeps {t t' : Tree} (hk : t.Keeps t') {d : Path} {place : Place}
    (h : t.lookup d = .found place .directory) : t'.lookup d = .found place .directory := by
  obtain ⟨hnull, hwalk⟩ := lookup_found_iff.mp h
  rw [lookup_of_noNull t' hnull, hk.startOf]
  exact walk_of_keeps hk hwalk

/-! ## Writing a file into a directory -/

theorem entry_eq_missing {t : Tree} {place : Place} {name : String}
    (hlong : name.utf8ByteSize ≤ nameLimit) (h : t.node? (place ++ [name]) = none) :
    t.entry place name = .missing := by
  unfold entry
  rw [if_neg (Nat.not_lt.mpr hlong), h]

theorem entry_eq_found {t : Tree} {place : Place} {name : String} {node : Node}
    (hlong : name.utf8ByteSize ≤ nameLimit) (h : t.node? (place ++ [name]) = some node) :
    t.entry place name = .found (place ++ [name]) node := by
  unfold entry
  rw [if_neg (Nat.not_lt.mpr hlong), h]

/-- A file can be written under a name of a directory unless the name is too
long or stands for a directory itself; then it is put there. -/
theorem write_child_ok_iff {t t' : Tree} {d : Path} {name : String} (hname : PlainName name)
    {content : Content} :
    t.write (d.child name) content = .ok t' ↔
      ∃ place, t.lookup d = .found place .directory ∧ name.utf8ByteSize ≤ nameLimit ∧
        t.node? (place ++ [name]) ≠ some .directory ∧
        t' = t.put (place ++ [name]) (.file content) := by
  unfold write
  rw [lookup_child t d hname, Path.parent_child, Path.name_child]
  cases hd : t.lookup d with
  | found place node =>
      cases node with
      | file c => simp [child]
      | directory =>
          -- In a directory the name is too long, free, a directory or a file.
          by_cases hlong : name.utf8ByteSize ≤ nameLimit
          · cases hn : t.node? (place ++ [name]) with
            | none =>
                simp only [child, entry_eq_missing hlong hn]
                constructor
                · intro h
                  exact ⟨place, rfl, hlong, by simp [hn], (Except.ok.inj h).symm⟩
                · rintro ⟨place', hp, -, -, rfl⟩
                  rw [(Lookup.found.inj hp).1]
            | some node =>
                simp only [child, entry_eq_found hlong hn]
                cases node with
                | directory =>
                    refine ⟨fun h => absurd h (by simp), ?_⟩
                    rintro ⟨place', hp, -, hne, -⟩
                    rw [← (Lookup.found.inj hp).1] at hne
                    exact absurd hn hne
                | file c =>
                    constructor
                    · intro h
                      exact ⟨place, rfl, hlong, by simp [hn], (Except.ok.inj h).symm⟩
                    · rintro ⟨place', hp, -, -, rfl⟩
                      rw [(Lookup.found.inj hp).1]
          · have hentry : t.entry place name = .tooLong := if_pos (Nat.lt_of_not_le hlong)
            simp [child, hentry, hlong]
  | missing => simp [child]
  | notDirectory => simp [child]
  | tooLong => simp [child]
  | malformed => simp [child]

/-- Whether a file can be written does not depend on what it is to hold. -/
theorem write_error {t : Tree} {p : Path} {content : Content} {e : Failure}
    (h : t.write p content = .error e) (other : Content) : t.write p other = .error e := by
  unfold write at h ⊢
  split at h <;> simp_all
  split at h <;> simp_all

/-- After a file has been put into a directory, its name leads to it and all
other names lead where they led. -/
theorem lookup_child_put {t : Tree} {d : Path} {place : Place} {name : String} {content : Content}
    (hd : t.lookup d = .found place .directory)
    (hlong : name.utf8ByteSize ≤ nameLimit) (hfree : t.node? (place ++ [name]) ≠ some .directory)
    {other : String} (hother : PlainName other) :
    (t.put (place ++ [name]) (.file content)).lookup (d.child other)
      = if other = name then .found (place ++ [name]) (.file content)
        else t.lookup (d.child other) := by
  rw [lookup_child _ d hother, lookup_child t d hother,
    lookup_of_keeps (keeps_put (.file content) hfree) hd, hd]
  show entry _ place other = if _ then _ else entry t place other
  by_cases ho : other = name
  · subst ho
    rw [if_pos rfl]
    exact entry_eq_found hlong (node?_put_self _ hfree)
  · rw [if_neg ho]
    have hne : place ++ [other] ≠ place ++ [name] := by simpa using ho
    unfold entry
    rw [node?_put_of_ne _ hne]

end Tree
end Routebook
