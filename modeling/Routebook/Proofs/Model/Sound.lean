/-
  Routebook.Proofs.Model.Sound

  What every model satisfies that was collected, although no type of a model
  says so: tables are keyed by what they hold, bags hold something under every
  kind they name, and whatever has a group has one with a name.

  Merging keeps it (`sound_complete`), and with it the default group of a
  merge has nothing to do (`groupName_of_sound`).
-/
import Routebook.Proofs.Each
import Routebook.Proofs.Merge.Stability

namespace Routebook

/-! ## Sound models -/

/-- Under the name of a kind stand tags of that kind, at least one. -/
structure Bag.Sound (b : Bag) : Prop where
  distinct : (Entries.keys b).Nodup
  kinds : Entries.Each (fun name tags => tags ≠ [] ∧ ∀ t ∈ tags, t.kind.name = name) b

instance (b : Bag) : Decidable b.Sound :=
  decidable_of_iff ((Entries.keys b).Nodup ∧
      ∀ e ∈ b, e.2 ≠ [] ∧ ∀ t ∈ e.2, t.kind.name = e.1)
    ⟨fun h => ⟨h.1, h.2⟩, fun h => ⟨h.1, h.2⟩⟩

/-- There is a group with a name, and auth tags stand under their own names. -/
structure GroupInfo.Sound (g : GroupInfo) : Prop where
  group : ∃ x ∈ g.group, x.groupName ≠ ""
  keyed : g.AuthKeyed
  distinct : (Entries.keys g.auth).Nodup

instance (g : GroupInfo) : Decidable g.Sound :=
  decidable_of_iff ((∃ x ∈ g.group, x.groupName ≠ "") ∧ g.AuthKeyed ∧
      (Entries.keys g.auth).Nodup)
    ⟨fun h => ⟨h.1, h.2.1, h.2.2⟩, fun h => ⟨h.1, h.2, h.3⟩⟩

/-- The kinds that say something of a group; no bag of a method holds them. -/
def groupKinds : List Kind := [.group, .description .groupDescription, .param .groupAuth]

/-- A method that may stand under a name. -/
structure MethodModel.Sound (name : String) (m : MethodModel) : Prop where
  name : m.name = name
  bag : m.bag.Sound
  free : ∀ k ∈ groupKinds, k.name ∉ Entries.keys m.bag
  group : m.group.Sound

instance (name : String) (m : MethodModel) : Decidable (m.Sound name) :=
  decidable_of_iff (m.name = name ∧ m.bag.Sound ∧
      (∀ k ∈ groupKinds, k.name ∉ Entries.keys m.bag) ∧ m.group.Sound)
    ⟨fun h => ⟨h.1, h.2.1, h.2.2.1, h.2.2.2⟩, fun h => ⟨h.1, h.2, h.3, h.4⟩⟩

/-- A property that may stand under a name. -/
structure PropertyModel.Sound (name : String) (p : PropertyModel) : Prop where
  name : p.name = name
  bag : p.bag.Sound

instance (name : String) (p : PropertyModel) : Decidable (p.Sound name) :=
  decidable_of_iff (p.name = name ∧ p.bag.Sound) ⟨fun h => ⟨h.1, h.2⟩, fun h => ⟨h.1, h.2⟩⟩

/-- Methods and properties stand under their own names, everything has a group. -/
structure ClassModel.Sound (c : ClassModel MethodModel) : Prop where
  group : c.group.Sound
  methods : Entries.Each MethodModel.Sound c.methods
  distinctMethods : (Entries.keys c.methods).Nodup
  properties : Entries.Each PropertyModel.Sound c.properties
  distinctProperties : (Entries.keys c.properties).Nodup

instance (c : ClassModel MethodModel) : Decidable c.Sound :=
  decidable_of_iff (c.group.Sound ∧ (∀ e ∈ c.methods, e.2.Sound e.1) ∧
      (Entries.keys c.methods).Nodup ∧ (∀ e ∈ c.properties, e.2.Sound e.1) ∧
      (Entries.keys c.properties).Nodup)
    ⟨fun h => ⟨h.1, h.2.1, h.2.2.1, h.2.2.2.1, h.2.2.2.2⟩, fun h => ⟨h.1, h.2, h.3, h.4, h.5⟩⟩

/-- A merged group that may stand under a name. -/
structure MergedGroup.Sound (name : String) (g : MergedGroup MethodModel) : Prop where
  name : g.name = name
  keyed : ∀ e ∈ g.auth, e.1 = e.2.name
  distinct : (Entries.keys g.auth).Nodup

/-! ## Groups with a name -/

namespace GroupInfo

/-- The default group does not count where there is a group with a name. -/
theorem groupName_of_sound {g : GroupInfo} (h : g.Sound) (default default' : String) :
    g.groupName default = g.groupName default' := by
  obtain ⟨x, hx, hne⟩ := h.group
  have hgroup : g.groupName? = some x.groupName := by
    rw [groupName?, Option.mem_def.mp hx]
    rfl
  simp only [groupName, hgroup, if_neg hne]

end GroupInfo

namespace Merge

variable {default default' : String}

theorem leavers_congr (home : String) {ms : List MethodModel}
    (h : ∀ m ∈ ms, m.group.groupName default = m.group.groupName default') :
    leavers default home ms = leavers default' home ms := by
  have hfilter := List.filter_congr (p := fun m => decide (m.group.groupName default ≠ home))
    (q := fun m => decide (m.group.groupName default' ≠ home)) (l := ms)
    fun m hm => by rw [h m hm]
  unfold leavers
  rw [hfilter]
  refine List.map_congr_left fun m hm => ?_
  rw [h m (List.mem_filter.mp hm).1]

/-- The first pass does not depend on the default group. -/
theorem shells_of_sound {classes : List (ClassModel MethodModel)} (h : ∀ c ∈ classes, c.Sound) :
    shells default classes = shells default' classes := by
  have hall : allEntrants default classes = allEntrants default' classes := by
    refine List.flatMap_congr fun c hc => ?_
    have hhome := GroupInfo.groupName_of_sound (h c hc).group default default'
    have hmethods : ∀ m ∈ Entries.values c.methods,
        m.group.groupName default = m.group.groupName default' := by
      intro m hm
      obtain ⟨e, he, rfl⟩ := List.mem_map.mp hm
      exact GroupInfo.groupName_of_sound ((h c hc).methods e he).group default default'
    simp only [entrants, hhome, leavers_congr _ hmethods]
  rw [shells_eq, shells_eq, hall]

/-! ## Completing -/

/-- A completed method stands under its name as before. -/
theorem sound_complete (all : Shells) {name : String} {m : MethodModel} (h : m.Sound name) :
    (complete default all m).Sound name := by
  refine ⟨h.name, h.bag, h.free, h.group.group, ?_, ?_⟩
  · intro e he
    rw [complete_auth] at he
    rcases Entries.mem_putAllNew he with he | he
    · exact h.group.keyed e he
    · obtain ⟨p, -, rfl⟩ := List.mem_map.mp he
      rfl
  · rw [complete_auth]
    exact Entries.nodup_keys_putAllNew _ h.group.distinct

end Merge

namespace Heap

open Merge

/-- All class models are sound. -/
def Sound (h : Heap) : Prop := ∀ id < h.models.length, (h.model id).Sound

end Heap
end Routebook
