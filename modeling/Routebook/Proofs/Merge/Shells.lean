/-
  Routebook.Proofs.Merge.Shells

  The shells of groups, one group at a time.  The first pass is a walk over
  all that enters a group (`entrants`): every class enters its own, and every
  method that lies in another group than its class enters that one.  A shell
  depends on the entrants of its group alone, in their order:

    * `keys_shells` — the groups stand in the order of their first entrants;
    * `authOf_shells` — the auth tags of a group are those of its entrants, one
      after the other, under names that are new (`putAllNew`);
    * `description_shells` — its description is the fold of two opposite
      rules, a class replacing it and a method filling a gap.
-/
import Routebook.Merge
import Routebook.Proofs.Entries

namespace Routebook.Merge

/-- What enters a group: a class, or a method that lies elsewhere than its class. -/
structure Entrant where
  group : String
  isClass : Bool
  info : GroupInfo

/-- Auth tags under their own names. -/
def named (ps : List Param) : Entries Param := ps.map fun p => (p.name, p)

namespace Entrant

/-- The auth tags that an entrant brings, under their own names. -/
def auth (e : Entrant) : Entries Param := named (Entries.values e.info.auth)

/-- The description of a group after an entrant: a class replaces it, a method
fills a gap. -/
def describe (e : Entrant) (d : Option Description) : Option Description :=
  if e.isClass then e.info.description.or d else d.or e.info.description

/-- The shell of a group after an entrant. -/
def enter (e : Entrant) (s : Shell) : Shell :=
  ⟨e.describe s.description, s.auth.putAllNew e.auth⟩

end Entrant

/-- Those of some methods that lie elsewhere than at home. -/
def leavers (default home : String) (ms : List MethodModel) : List Entrant :=
  (ms.filter fun m => m.group.groupName default ≠ home).map
    fun m => ⟨m.group.groupName default, false, m.group⟩

/-- A class and those of its methods that lie elsewhere, in order. -/
def entrants (default : String) (c : ClassModel MethodModel) : List Entrant :=
  let home := c.group.groupName default
  ⟨home, true, c.group⟩ :: leavers default home (Entries.values c.methods)

/-- All that enters a group, class by class. -/
def allEntrants (default : String) (classes : List (ClassModel MethodModel)) : List Entrant :=
  classes.flatMap (entrants default)

/-- The shells after some entrants. -/
def enterEach (all : Shells) (es : List Entrant) : Shells :=
  es.foldl (fun acc e => enter e.group e.enter acc) all

/-- The shell of a group; of a group that is not there, an empty one. -/
def shellOf (all : Shells) (name : String) : Shell := (Entries.get? name all).getD Shell.empty

/-! ## The first pass as a walk over entrants -/

theorem foldl_putNew_eq (ps : List Param) (m : Entries Param) :
    ps.foldl (fun m p => Entries.putNew p.name p m) m = m.putAllNew (named ps) := by
  simp only [Entries.putAllNew, named, List.foldl_map]

theorem enterClass_eq (name : String) (g : GroupInfo) (all : Shells) :
    enterClass name g all = enter name (Entrant.mk name true g).enter all := by
  have hshell : ∀ s : Shell, (s.describe g.description).addAuth (Entries.values g.auth)
      = (Entrant.mk name true g).enter s := by
    intro s
    cases hd : g.description <;>
      simp [Shell.describe, Shell.addAuth, Entrant.enter, Entrant.describe, Entrant.auth, hd,
        foldl_putNew_eq]
  unfold enterClass
  rw [funext hshell]

theorem enterMethod_eq (default home : String) (all : Shells) (m : MethodModel)
    (h : m.group.groupName default ≠ home) :
    enterMethod default home all m
      = enter (m.group.groupName default)
          (Entrant.mk (m.group.groupName default) false m.group).enter all := by
  have hshell : ∀ s : Shell,
      (s.addAuth (Entries.values m.group.auth)).fillIn m.group.description
        = (Entrant.mk (m.group.groupName default) false m.group).enter s := by
    rintro ⟨d, a⟩
    cases d <;>
      simp [Shell.fillIn, Shell.addAuth, Entrant.enter, Entrant.describe, Entrant.auth,
        foldl_putNew_eq]
  unfold enterMethod
  rw [if_neg h, funext hshell]

theorem foldl_enterMethod (default home : String) (ms : List MethodModel) (all : Shells) :
    ms.foldl (enterMethod default home) all
      = enterEach all (leavers default home ms) := by
  induction ms generalizing all with
  | nil => rfl
  | cons m ms ih =>
      rw [List.foldl_cons, ih]
      by_cases hm : m.group.groupName default = home
      · simp [enterMethod, leavers, hm]
      · rw [enterMethod_eq default home all m hm]
        simp [leavers, enterEach, hm]

theorem enterAll_eq (default : String) (all : Shells) (c : ClassModel MethodModel) :
    enterAll default all c = enterEach all (entrants default c) := by
  rw [enterAll, foldl_enterMethod, enterClass_eq]
  rfl

theorem shells_eq (default : String) (classes : List (ClassModel MethodModel)) :
    shells default classes = enterEach [] (allEntrants default classes) := by
  have hrun : ∀ acc : Shells, classes.foldl (enterAll default) acc
      = enterEach acc (allEntrants default classes) := by
    induction classes with
    | nil => intro acc; rfl
    | cons c classes ih =>
        intro acc
        rw [List.foldl_cons, ih, enterAll_eq]
        simp only [allEntrants, enterEach, List.flatMap_cons, List.foldl_append]
  exact hrun []

/-- Tags that stand under their own names already. -/
theorem named_values {m : Entries Param} (h : ∀ e ∈ m, e.1 = e.2.name) :
    named (Entries.values m) = m := by
  have hid : (m.map fun e => (e.2.name, e.2)) = m.map id :=
    List.map_congr_left fun e he => Prod.ext (h e he).symm rfl
  unfold named Entries.values
  rw [List.map_map]
  exact hid.trans (List.map_id m)

/-! ## One entrant -/

theorem keys_enter (name : String) (f : Shell → Shell) (all : Shells) :
    Entries.keys (enter name f all)
      = if name ∈ Entries.keys all then Entries.keys all else Entries.keys all ++ [name] := by
  rw [enter, Entries.keys_modify, Entries.keys_putNew]

theorem shellOf_enter (name other : String) (f : Shell → Shell) (all : Shells) :
    shellOf (enter name f all) other
      = if other = name then f (shellOf all name) else shellOf all other := by
  unfold shellOf enter
  rw [Entries.get?_modify, Entries.get?_putNew]
  by_cases h : other = name <;> simp [h]

/-! ## A run of entrants -/

theorem Shell.eq_of_parts {s t : Shell} (hd : s.description = t.description)
    (ha : s.auth = t.auth) : s = t := by
  cases s
  cases t
  simp_all

/-- Shells are what their keys and their lookups are. -/
theorem shells_ext {all all' : Shells} (hk : Entries.keys all = Entries.keys all')
    (hd : (Entries.keys all).Nodup) (h : ∀ name, shellOf all name = shellOf all' name) :
    all = all' := by
  refine Entries.ext hk hd fun key hkey => ?_
  obtain ⟨s, hs⟩ := Entries.exists_get?_of_mem_keys hkey
  obtain ⟨s', hs'⟩ := Entries.exists_get?_of_mem_keys (hk ▸ hkey)
  have := h key
  simp only [shellOf, hs, hs', Option.getD_some] at this
  rw [hs, hs', this]

theorem keys_enterEach (all : Shells) (es : List Entrant) (hd : (Entries.keys all).Nodup) :
    Entries.keys (enterEach all es) = (Entries.keys all ++ es.map Entrant.group).eraseDups := by
  induction es generalizing all with
  | nil => simp [enterEach, eraseDups_of_nodup hd]
  | cons e es ih =>
      have hnext : (Entries.keys (enter e.group e.enter all)).Nodup := by
        rw [enter, Entries.keys_modify]
        exact Entries.nodup_keys_putNew _ _ hd
      have hstep : Entries.keys (enterEach all (e :: es))
          = (Entries.keys (enter e.group e.enter all)
              ++ es.map Entrant.group).eraseDups := ih _ hnext
      rw [hstep, keys_enter, List.map_cons]
      by_cases h : e.group ∈ Entries.keys all
      · rw [if_pos h, eraseDups_append_cons_of_mem h]
      · rw [if_neg h, List.append_assoc]
        rfl

theorem nodup_keys_enterEach (all : Shells) (es : List Entrant) (hd : (Entries.keys all).Nodup) :
    (Entries.keys (enterEach all es)).Nodup := by
  induction es generalizing all with
  | nil => exact hd
  | cons e es ih =>
      refine ih (enter e.group e.enter all) ?_
      rw [enter, Entries.keys_modify]
      exact Entries.nodup_keys_putNew _ _ hd

theorem shellOf_enterEach (all : Shells) (es : List Entrant) (name : String) :
    shellOf (enterEach all es) name
      = (es.filter fun e => e.group = name).foldl (fun s e => e.enter s) (shellOf all name) := by
  induction es generalizing all with
  | nil => rfl
  | cons e es ih =>
      have hstep : shellOf (enterEach all (e :: es)) name
          = (es.filter fun e => e.group = name).foldl (fun s e => e.enter s)
              (shellOf (enter e.group e.enter all) name) := ih _
      rw [hstep, shellOf_enter]
      by_cases h : e.group = name
      · simp [h]
      · simp [h, Ne.symm h]

/-! ## The parts of a shell -/

theorem auth_foldl_enter (es : List Entrant) (s : Shell) :
    (es.foldl (fun s e => e.enter s) s).auth = s.auth.putAllNew (es.flatMap Entrant.auth) := by
  induction es generalizing s with
  | nil => rfl
  | cons e es ih =>
      rw [List.foldl_cons, ih, List.flatMap_cons, Entries.putAllNew_append]
      rfl

theorem description_foldl_enter (es : List Entrant) (s : Shell) :
    (es.foldl (fun s e => e.enter s) s).description
      = es.foldl (fun d e => e.describe d) s.description := by
  induction es generalizing s with
  | nil => rfl
  | cons e es ih => rw [List.foldl_cons, ih, List.foldl_cons]; rfl

theorem authOf_eq (all : Shells) (name : String) : authOf all name = (shellOf all name).auth := by
  unfold authOf shellOf
  cases Entries.get? name all <;> rfl

theorem authOf_enterEach (es : List Entrant) (name : String) :
    authOf (enterEach [] es) name
      = Entries.putAllNew [] ((es.filter fun e => e.group = name).flatMap Entrant.auth) := by
  rw [authOf_eq, shellOf_enterEach, auth_foldl_enter]
  rfl

theorem nodup_authOf_enterEach (es : List Entrant) (name : String) :
    (Entries.keys (authOf (enterEach [] es) name)).Nodup := by
  rw [authOf_enterEach]
  exact Entries.nodup_keys_putAllNew _ List.nodup_nil

/-- The auth tags of a group stand under their own names. -/
theorem keyed_authOf_enterEach (es : List Entrant) (name : String) :
    ∀ a ∈ authOf (enterEach [] es) name, a.1 = a.2.name := by
  intro a ha
  rw [authOf_enterEach] at ha
  rcases Entries.mem_putAllNew ha with hnil | hmem
  · cases hnil
  · obtain ⟨e, -, he⟩ := List.mem_flatMap.mp hmem
    obtain ⟨p, -, rfl⟩ := List.mem_map.mp he
    rfl

variable (default : String) (classes : List (ClassModel MethodModel)) (name : String)

/-- The groups, in the order of their first entrants. -/
theorem keys_shells :
    Entries.keys (shells default classes)
      = ((allEntrants default classes).map Entrant.group).eraseDups := by
  rw [shells_eq, keys_enterEach [] _ List.nodup_nil]
  rfl

/-- The auth tags of a group: those its entrants bring, under names that are new. -/
theorem authOf_shells :
    authOf (shells default classes) name
      = Entries.putAllNew []
          (((allEntrants default classes).filter fun e => e.group = name).flatMap
            Entrant.auth) := by
  rw [shells_eq, authOf_enterEach]

/-- The description of a group: what its entrants make of none. -/
theorem description_shells :
    (shellOf (shells default classes) name).description
      = ((allEntrants default classes).filter fun e => e.group = name).foldl
          (fun d e => e.describe d) none := by
  rw [shells_eq, shellOf_enterEach, description_foldl_enter]
  rfl

end Routebook.Merge
