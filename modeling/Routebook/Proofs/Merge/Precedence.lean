/-
  Routebook.Proofs.Merge.Precedence

  Who decides about a group.  Its auth tags are those of the classes that lie
  in it and of the methods that have moved to it, in scan order, of each name
  the first (`auth_of_merge`).  Its description is the last one of a class that
  lies in it, and for want of such a class the first one of a method that has
  moved to it (`description_of_merge`).

  Both are closed forms of one walk.  Restricted to the entrants of a group it
  sees of each class either the class itself or its movers, never both
  (`filter_entrants`); a method that stays with its class is not among them.
-/
import Routebook.Proofs.Merge.Placement
import Routebook.Proofs.Merge.Stability

namespace Routebook

namespace Merge

variable (default name : String)

/-- The methods of a class that have moved to a group in which the class does not lie. -/
def movers (c : ClassModel MethodModel) : List MethodModel :=
  if c.group.groupName default = name then []
  else (Entries.values c.methods).filter fun m => m.group.groupName default = name

/-- The auth tags that a class and its methods bring to a group. -/
def contribution (c : ClassModel MethodModel) : Entries Param :=
  (if c.group.groupName default = name then named (Entries.values c.group.auth) else []) ++
    (movers default name c).flatMap fun m => named (Entries.values m.group.auth)

/-- The descriptions of the classes that lie in a group, in scan order. -/
def classDescriptions (classes : List (ClassModel MethodModel)) : List Description :=
  (classes.filter fun c => c.group.groupName default = name).filterMap (·.group.description)

/-- The descriptions of the methods that have moved to a group, in scan order. -/
def moverDescriptions (classes : List (ClassModel MethodModel)) : List Description :=
  (classes.flatMap (movers default name)).filterMap (·.group.description)

variable {default name}

theorem mem_movers {c : ClassModel MethodModel} {m : MethodModel} :
    m ∈ movers default name c ↔
      c.group.groupName default ≠ name ∧ m ∈ Entries.values c.methods ∧
        m.group.groupName default = name := by
  unfold movers
  split
  · next h => simp [h]
  · next h => simp [h]

/-! ## The entrants of one group -/

theorem filter_leavers (home : String) (ms : List MethodModel) :
    (leavers default home ms).filter (fun e => e.group = name)
      = if home = name then []
        else (ms.filter fun m => m.group.groupName default = name).map
          fun m => ⟨name, false, m.group⟩ := by
  unfold leavers
  rw [List.filter_map, List.filter_filter]
  show (ms.filter fun m => decide (m.group.groupName default = name)
    && decide (m.group.groupName default ≠ home)).map _ = _
  split
  · next hhome =>
      -- whoever leaves the group is not in it
      have hnone : ∀ m ∈ ms, ¬(decide (m.group.groupName default = name)
          && decide (m.group.groupName default ≠ home)) = true := by
        intro m _
        by_cases hm : m.group.groupName default = name <;> simp [hm, hhome]
      rw [List.filter_eq_nil_iff.mpr hnone, List.map_nil]
  · next hhome =>
      have hsame : (ms.filter fun m => decide (m.group.groupName default = name)
            && decide (m.group.groupName default ≠ home))
          = ms.filter fun m => m.group.groupName default = name := by
        refine List.filter_congr fun m _ => ?_
        by_cases hm : m.group.groupName default = name <;> simp [hm, Ne.symm hhome]
      rw [hsame]
      refine List.map_congr_left fun m hm => ?_
      rw [show m.group.groupName default = name by simpa using (List.mem_filter.mp hm).2]

/-- A group sees of a class either the class or its movers. -/
theorem filter_entrants (c : ClassModel MethodModel) :
    (entrants default c).filter (fun e => e.group = name)
      = if c.group.groupName default = name then [⟨name, true, c.group⟩]
        else (movers default name c).map fun m => ⟨name, false, m.group⟩ := by
  unfold entrants movers
  rw [List.filter_cons, filter_leavers]
  by_cases h : c.group.groupName default = name <;> simp [h]

theorem filter_allEntrants (classes : List (ClassModel MethodModel)) :
    (allEntrants default classes).filter (fun e => e.group = name)
      = classes.flatMap fun c => (entrants default c).filter fun e => e.group = name := by
  unfold allEntrants
  rw [List.filter_flatMap]

/-! ## Auth tags -/

theorem flatMap_auth_entrants (c : ClassModel MethodModel) :
    ((entrants default c).filter fun e => e.group = name).flatMap Entrant.auth
      = contribution default name c := by
  rw [filter_entrants]
  unfold contribution
  split
  · next h => simp [movers, h, Entrant.auth]
  · next h =>
      rw [List.flatMap_map, List.nil_append]
      rfl

/-- The auth tags of a group: what the classes bring, of each name the first. -/
theorem authOf_eq_firsts (classes : List (ClassModel MethodModel)) :
    authOf (shells default classes) name
      = Entries.firsts (classes.flatMap (contribution default name)) := by
  have hbrought : ((allEntrants default classes).filter fun e => e.group = name).flatMap
      Entrant.auth = classes.flatMap (contribution default name) := by
    rw [filter_allEntrants, List.flatMap_assoc]
    exact List.flatMap_congr fun c _ => flatMap_auth_entrants c
  rw [authOf_shells, hbrought, Entries.putAllNew_nil_left]

/-- What is brought to a group is an auth tag of a class or of a mover. -/
theorem mem_contribution {c : ClassModel MethodModel} {a : String × Param}
    (ha : a ∈ contribution default name c) :
    (c.group.groupName default = name ∧ a.2 ∈ Entries.values c.group.auth) ∨
      (c.group.groupName default ≠ name ∧ ∃ m ∈ Entries.values c.methods,
        m.group.groupName default = name ∧ a.2 ∈ Entries.values m.group.auth) := by
  rcases List.mem_append.mp ha with ha | ha
  · left
    split at ha
    · next hclass =>
        obtain ⟨p, hp, rfl⟩ := List.mem_map.mp ha
        exact ⟨hclass, hp⟩
    · exact absurd ha List.not_mem_nil
  · right
    obtain ⟨m, hm, ha⟩ := List.mem_flatMap.mp ha
    obtain ⟨hclass, hmethod, hname⟩ := mem_movers.mp hm
    obtain ⟨p, hp, rfl⟩ := List.mem_map.mp ha
    exact ⟨hclass, m, hmethod, hname, hp⟩

/-! ## Descriptions -/

/-- What entrants make of a description: the last one of a class, or else what
was there, or else the first one of a method. -/
theorem foldl_describe_eq (es : List Entrant) (d : Option Description) :
    es.foldl (fun d e => e.describe d) d
      = ((es.filter Entrant.isClass).filterMap (·.info.description)).getLast?.or
          (d.or ((es.filter fun e => !e.isClass).filterMap (·.info.description)).head?) := by
  induction es generalizing d with
  | nil => simp
  | cons e es ih =>
      rw [List.foldl_cons, ih]
      cases hclass : e.isClass <;> cases hown : e.info.description <;>
        simp [Entrant.describe, hclass, hown, List.getLast?_cons]

theorem filterMap_class_entrants (classes : List (ClassModel MethodModel)) :
    (((allEntrants default classes).filter fun e => e.group = name).filter
        Entrant.isClass).filterMap (·.info.description)
      = classDescriptions default name classes := by
  unfold classDescriptions
  rw [filter_allEntrants]
  induction classes with
  | nil => rfl
  | cons c classes ih =>
      rw [List.flatMap_cons, List.filter_append, List.filterMap_append, ih, filter_entrants]
      by_cases h : c.group.groupName default = name
      · cases hd : c.group.description <;> simp [h, hd]
      · simp [h]

theorem filterMap_mover_entrants (classes : List (ClassModel MethodModel)) :
    (((allEntrants default classes).filter fun e => e.group = name).filter
        fun e => !e.isClass).filterMap (·.info.description)
      = moverDescriptions default name classes := by
  unfold moverDescriptions
  rw [filter_allEntrants]
  induction classes with
  | nil => rfl
  | cons c classes ih =>
      rw [List.flatMap_cons, List.filter_append, List.filterMap_append, ih, filter_entrants,
        List.flatMap_cons, List.filterMap_append]
      by_cases h : c.group.groupName default = name
      · simp [h, movers]
      · simp [h, List.filter_map, List.filterMap_map, Function.comp_def]

/-- The description of a group: the last one of a class, or else the first one
of a method that has moved to it. -/
theorem description_eq_or (classes : List (ClassModel MethodModel)) :
    (shellOf (shells default classes) name).description
      = (classDescriptions default name classes).getLast?.or
          (moverDescriptions default name classes).head? := by
  rw [description_shells, foldl_describe_eq, filterMap_class_entrants, filterMap_mover_entrants,
    Option.none_or]

end Merge

namespace Heap

open Merge

/-! ## The groups of a merge -/

section Merge

variable {h : Heap} {default : String} {ids : List ModelId} {e : String × MergedGroup MethodId}

/-- The auth tags of a merged group are what its classes and movers bring, in
scan order, and of each name the first one.  So each of them is an auth tag of
a class that lies in the group, or one that a method had before the merge which
lies there while its class does not; a method that stays with its class adds
nothing. -/
theorem auth_of_merge (he : e ∈ (h.merge default ids).2) :
    e.2.auth = Entries.firsts ((ids.map h.model).flatMap (contribution default e.1)) ∧
      ∀ a ∈ e.2.auth, ∃ id ∈ ids,
        ((h.model id).group.groupName default = e.1 ∧
            a.2 ∈ Entries.values (h.model id).group.auth) ∨
          ((h.model id).group.groupName default ≠ e.1 ∧
            ∃ m ∈ Entries.values (h.model id).methods,
              m.group.groupName default = e.1 ∧ a.2 ∈ Entries.values m.group.auth) := by
  have hauth : e.2.auth
      = Entries.firsts ((ids.map h.model).flatMap (contribution default e.1)) := by
    rw [eq_of_mem_merge he, groupNamed, authOf_eq_firsts]
  refine ⟨hauth, fun a ha => ?_⟩
  rw [hauth] at ha
  obtain ⟨c, hc, ha⟩ := List.mem_flatMap.mp (Entries.mem_of_mem_firsts ha)
  obtain ⟨id, hid, rfl⟩ := List.mem_map.mp hc
  exact ⟨id, hid, mem_contribution ha⟩

/-- In `misc` the first owner of a name is a method that has moved there. -/
theorem auth_of_merge_movedHeap :
    ∃ e ∈ (movedHeap.merge "default" [0, 1]).2, e.1 = "misc" ∧
      Entries.keys e.2.auth = ["sign", "tenant"] ∧
      e.2.auth = Entries.firsts (([0, 1].map movedHeap.model).flatMap
        (contribution "default" e.1)) := by
  have he := List.get_mem (movedHeap.merge "default" [0, 1]).2 ⟨1, by decide⟩
  exact ⟨_, he, by decide, by decide, (auth_of_merge he).1⟩

/-- The description of a merged group is the last one that a class declares
which lies in it; without such a class it is the first one, in scan order, of a
method that lies there while its class does not; without such a method there is
none.  A method that stays with its class decides nothing. -/
theorem description_of_merge (he : e ∈ (h.merge default ids).2) :
    e.2.description
        = (classDescriptions default e.1 (ids.map h.model)).getLast?.or
            (moverDescriptions default e.1 (ids.map h.model)).head? ∧
      ∀ d, e.2.description = some d → ∃ id ∈ ids,
        ((h.model id).group.groupName default = e.1 ∧ (h.model id).group.description = some d) ∨
          ((h.model id).group.groupName default ≠ e.1 ∧
            ∃ m ∈ Entries.values (h.model id).methods,
              m.group.groupName default = e.1 ∧ m.group.description = some d) := by
  have hdescription : e.2.description
      = (classDescriptions default e.1 (ids.map h.model)).getLast?.or
          (moverDescriptions default e.1 (ids.map h.model)).head? := by
    rw [eq_of_mem_merge he, groupNamed, description_eq_or]
  refine ⟨hdescription, fun d hd => ?_⟩
  rw [hdescription] at hd
  rcases Option.or_eq_some_iff.mp hd with hlast | ⟨-, hfirst⟩
  · obtain ⟨c, hc, hown⟩ := List.mem_filterMap.mp (List.mem_of_getLast? hlast)
    obtain ⟨hc, hclass⟩ := List.mem_filter.mp hc
    obtain ⟨id, hid, rfl⟩ := List.mem_map.mp hc
    exact ⟨id, hid, Or.inl ⟨by simpa using hclass, hown⟩⟩
  · obtain ⟨m, hm, hown⟩ := List.mem_filterMap.mp (List.mem_of_head? hfirst)
    obtain ⟨c, hc, hm⟩ := List.mem_flatMap.mp hm
    obtain ⟨id, hid, rfl⟩ := List.mem_map.mp hc
    obtain ⟨hclass, hmethod, hname⟩ := mem_movers.mp hm
    exact ⟨id, hid, Or.inr ⟨hclass, m, hmethod, hname, hown⟩⟩

/-- Three classes.  The first two lie in `user` and describe it, the second one
by an empty text; the third one has a method in `user` with a description, and
one in a group that no class describes. -/
def describedHeap : Heap :=
  let info (name : String) (about : Option String) : GroupInfo :=
    ⟨some ⟨name⟩, about.map fun text => ⟨.string text, .text⟩, []⟩
  ⟨[⟨"moved", [], info "user" (some "moved")⟩, ⟨"lone", [], info "misc" (some "lone")⟩],
    [⟨"app.First", info "user" (some "first"), [], []⟩,
      ⟨"app.Second", info "user" (some ""), [], []⟩,
      ⟨"app.Third", info "admin" none, [("moved", 0), ("lone", 1)], []⟩]⟩

theorem description_of_merge_describedHeap :
    ∃ e ∈ (describedHeap.merge "default" [2, 0, 1]).2, e.1 = "user" ∧
      e.2.description = some ⟨.string "", .text⟩ ∧
      e.2.description
        = (classDescriptions "default" e.1 ([2, 0, 1].map describedHeap.model)).getLast?.or
          (moverDescriptions "default" e.1 ([2, 0, 1].map describedHeap.model)).head? := by
  have he := List.get_mem (describedHeap.merge "default" [2, 0, 1]).2 ⟨1, by decide⟩
  exact ⟨_, he, by decide, rfl, (description_of_merge he).1⟩

end Merge

end Heap
end Routebook
