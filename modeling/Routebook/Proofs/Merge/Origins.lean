/-
  Routebook.Proofs.Merge.Origins

  Merging invents nothing.  Every auth tag of a completed class is one of a
  class or a method before (`auth_of_completed`), and so is every description
  in a merged group (`description_of_groups`).
-/
import Routebook.Proofs.Merge.Values

namespace Routebook

/-- The group infos of a class and of its methods. -/
def ClassModel.infos (c : ClassModel MethodModel) : List GroupInfo :=
  c.group :: (Entries.values c.methods).map MethodModel.group

/-- The descriptions among the tags of a bag. -/
def Bag.descriptions (b : Bag) : List Description :=
  b.flatMap fun e => e.2.filterMap fun t =>
    match t with
    | .description _ d => some d
    | _ => none

/-- The descriptions in a class model. -/
def ClassModel.descriptions (c : ClassModel MethodModel) : List Description :=
  (c.infos.filterMap GroupInfo.description) ++
    (Entries.values c.methods).flatMap fun m => m.bag.descriptions

/-- The descriptions in a merged group. -/
def MergedGroup.descriptions (g : MergedGroup MethodModel) : List Description :=
  g.description.toList ++ g.methods.flatMap fun m => m.bag.descriptions

namespace Merge

variable {default : String} {classes : List (ClassModel MethodModel)}

/-! ## The first pass -/

theorem info_mem_of_entrant {e : Entrant} (h : e ∈ allEntrants default classes) :
    ∃ c ∈ classes, e.info ∈ c.infos := by
  obtain ⟨c, hc, he⟩ := List.mem_flatMap.mp h
  refine ⟨c, hc, ?_⟩
  rcases List.mem_cons.mp he with rfl | he
  · exact List.mem_cons_self
  · obtain ⟨m, hm, rfl⟩ := List.mem_map.mp he
    exact List.mem_cons_of_mem _ (List.mem_map_of_mem (List.mem_filter.mp hm).1)

theorem auth_of_shells {name : String} {p : Param}
    (h : p ∈ Entries.values (authOf (shells default classes) name)) :
    ∃ c ∈ classes, ∃ g ∈ c.infos, p ∈ Entries.values g.auth := by
  obtain ⟨a, ha, rfl⟩ := List.mem_map.mp h
  rw [authOf_shells] at ha
  rcases Entries.mem_putAllNew ha with hnil | ha
  · exact absurd hnil List.not_mem_nil
  · obtain ⟨e, he, ha⟩ := List.mem_flatMap.mp ha
    obtain ⟨c, hc, hinfo⟩ := info_mem_of_entrant (List.mem_filter.mp he).1
    obtain ⟨p, hp, rfl⟩ := List.mem_map.mp ha
    exact ⟨c, hc, e.info, hinfo, hp⟩

/-- A description that entrants leave is one that was there or one of theirs. -/
theorem description_of_foldl {es : List Entrant} {d : Option Description} {x : Description}
    (h : es.foldl (fun d e => e.describe d) d = some x) :
    d = some x ∨ ∃ e ∈ es, e.info.description = some x := by
  induction es generalizing d with
  | nil => exact Or.inl h
  | cons e es ih =>
      rcases ih h with hfirst | ⟨e', he', hx⟩
      -- Whether the first or the last description counts, it is one of the two.
      · have hor : e.info.description = some x ∨ d = some x := by
          change e.describe d = some x at hfirst
          unfold Entrant.describe at hfirst
          split at hfirst
          · rcases Option.or_eq_some_iff.mp hfirst with hx | ⟨-, hx⟩
            · exact Or.inl hx
            · exact Or.inr hx
          · rcases Option.or_eq_some_iff.mp hfirst with hx | ⟨-, hx⟩
            · exact Or.inr hx
            · exact Or.inl hx
        rcases hor with hx | hx
        · exact Or.inr ⟨e, List.mem_cons_self, hx⟩
        · exact Or.inl hx
      · exact Or.inr ⟨e', List.mem_cons_of_mem _ he', hx⟩

theorem description_of_shells {e : String × Shell} (he : e ∈ shells default classes)
    {x : Description} (h : e.2.description = some x) :
    ∃ c ∈ classes, ∃ g ∈ c.infos, g.description = some x := by
  rw [← shellOf_of_mem he, description_shells] at h
  rcases description_of_foldl h with hnone | ⟨e', he', hx⟩
  · exact absurd hnone (by simp)
  · obtain ⟨c, hc, hinfo⟩ := info_mem_of_entrant (List.mem_filter.mp he').1
    exact ⟨c, hc, e'.info, hinfo, hx⟩

/-! ## The second pass -/

variable {objects : Entries (ClassModel MethodModel)}

/-- A completed class is a class whose methods are completed. -/
theorem mem_completed {c : ClassModel MethodModel}
    (h : c ∈ Entries.values (completed default objects)) :
    ∃ c₀ ∈ Entries.values objects,
      c = c₀.mapMethods (complete default (shells default (Entries.values objects))) := by
  have hvalues : Entries.values (completed default objects) = (Entries.values objects).map
      (·.mapMethods (complete default (shells default (Entries.values objects)))) :=
    Entries.values_mapValues _ _
  rw [hvalues] at h
  obtain ⟨c₀, hc₀, rfl⟩ := List.mem_map.mp h
  exact ⟨c₀, hc₀, rfl⟩

theorem auth_of_complete {m : MethodModel} {p : Param}
    (h : p ∈ Entries.values (complete default (shells default classes) m).group.auth) :
    p ∈ Entries.values m.group.auth ∨ ∃ c ∈ classes, ∃ g ∈ c.infos, p ∈ Entries.values g.auth := by
  obtain ⟨a, ha, rfl⟩ := List.mem_map.mp h
  rw [complete_auth] at ha
  rcases Entries.mem_putAllNew ha with ha | ha
  · exact Or.inl (List.mem_map_of_mem ha)
  · obtain ⟨p, hp, rfl⟩ := List.mem_map.mp ha
    exact Or.inr (auth_of_shells hp)

/-- What holds of all auth tags of some classes holds of them completed. -/
theorem auth_of_completed {P : Param → Prop}
    (hobjects : ∀ c ∈ Entries.values objects, ∀ g ∈ c.infos, ∀ p ∈ Entries.values g.auth, P p) :
    ∀ c ∈ Entries.values (completed default objects), ∀ g ∈ c.infos,
      ∀ p ∈ Entries.values g.auth, P p := by
  intro c hc g hg p hp
  obtain ⟨c₀, hc₀, rfl⟩ := mem_completed hc
  rcases List.mem_cons.mp hg with rfl | hg
  · exact hobjects c₀ hc₀ _ List.mem_cons_self p hp
  · rw [values_mapMethods, List.map_map] at hg
    obtain ⟨m, hm, rfl⟩ := List.mem_map.mp hg
    rcases auth_of_complete hp with hp | ⟨c, hc, g, hg, hp⟩
    · exact hobjects c₀ hc₀ _ (List.mem_cons_of_mem _ (List.mem_map_of_mem hm)) p hp
    · exact hobjects c hc g hg p hp

/-- Completing changes no description. -/
theorem descriptions_complete (c : ClassModel MethodModel) (all : Shells) :
    (c.mapMethods (complete default all)).descriptions = c.descriptions := by
  unfold ClassModel.descriptions ClassModel.infos
  rw [values_mapMethods, List.map_map, List.flatMap_map]
  simp only [List.filterMap_cons, List.filterMap_map]
  rfl

/-- The groups of classes: each shell with the methods of its name. -/
theorem groups_eq_map (default : String) (objects : Entries (ClassModel MethodModel)) :
    groups default objects
      = (shells default (Entries.values objects)).map fun e =>
          (e.1, ⟨e.1, e.2.description, e.2.auth,
            (allMethods (Entries.values (completed default objects))).filter
              fun m => m.group.groupName default = e.1⟩) := by
  unfold groups
  simp only
  rw [place_eq_map, unplaced, List.map_map]
  rfl

theorem mem_groups {g : MergedGroup MethodModel}
    (h : g ∈ Entries.values (groups default objects)) :
    (∀ x, g.description = some x →
        ∃ c ∈ Entries.values objects, ∃ i ∈ c.infos, i.description = some x) ∧
      ∀ m ∈ g.methods, ∃ c ∈ Entries.values objects, ∃ m₀ ∈ Entries.values c.methods,
        m.bag = m₀.bag := by
  rw [groups_eq_map, Entries.values, List.map_map] at h
  obtain ⟨e, he, rfl⟩ := List.mem_map.mp h
  refine ⟨fun x hx => description_of_shells he hx, fun m hm => ?_⟩
  obtain ⟨c, hc, hm⟩ := List.mem_flatMap.mp (List.mem_filter.mp hm).1
  obtain ⟨c₀, hc₀, rfl⟩ := mem_completed hc
  rw [values_mapMethods] at hm
  obtain ⟨m₀, hm₀, rfl⟩ := List.mem_map.mp hm
  exact ⟨c₀, hc₀, m₀, hm₀, rfl⟩

/-- The descriptions of merged groups are those of the classes. -/
theorem description_of_groups {g : MergedGroup MethodModel}
    (hg : g ∈ Entries.values (groups default objects)) {d : Description}
    (hd : d ∈ g.descriptions) : ∃ c ∈ Entries.values objects, d ∈ c.descriptions := by
  obtain ⟨hdescription, hmethods⟩ := mem_groups hg
  rcases List.mem_append.mp hd with hd | hd
  · obtain ⟨c, hc, i, hi, hx⟩ := hdescription d (Option.mem_toList.mp hd)
    exact ⟨c, hc, List.mem_append_left _ (List.mem_filterMap.mpr ⟨i, hi, hx⟩)⟩
  · obtain ⟨m, hm, hd⟩ := List.mem_flatMap.mp hd
    obtain ⟨c, hc, m₀, hm₀, hbag⟩ := hmethods m hm
    rw [hbag] at hd
    exact ⟨c, hc, List.mem_append_right _ (List.mem_flatMap.mpr ⟨m₀, hm₀, hd⟩)⟩

end Merge
end Routebook
