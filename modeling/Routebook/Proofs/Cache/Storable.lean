/-
  Routebook.Proofs.Cache.Storable

  Models that a directory can keep: their numbers are finite, and their data
  stays within the limits of the reader, wherever merging puts their auth tags.
  Such a model comes back from its text (`decode_encode_of_storable`), and
  completed it is such a model still (`storable_completed`).
-/
import Routebook.Proofs.Cache.RoundTrip
import Routebook.Proofs.Merge.Origins
import Routebook.Proofs.Model.Sound

namespace Routebook

namespace Json

theorem fits_object_iff {dialect : Dialect} {depth : Nat} {fs : Entries Value} :
    dialect.fits depth (.object fs) = true ↔
      (dialect.maxDepth.all fun m => decide (depth < m)) = true ∧ (Entries.keys fs).Nodup ∧
        ∀ e ∈ fs, dialect.fits (depth + 1) e.2 = true := by
  have hfields : ∀ fs : Entries Value, Dialect.fitsFields dialect (depth + 1) fs = true ↔
      ∀ e ∈ fs, dialect.fits (depth + 1) e.2 = true := by
    intro fs
    induction fs with
    | nil => simp [Dialect.fitsFields]
    | cons e fs ih => rw [Dialect.fitsFields, Bool.and_eq_true, ih, List.forall_mem_cons]
  rw [Dialect.fits, Bool.and_eq_true, Bool.and_eq_true, hfields, decide_eq_true_eq, and_assoc]

end Json

/-- How deep the data of an auth tag lies in the data of a class, at most: that
of a method is deeper than that of the class itself. -/
def authDepth : Nat := 5

/-- A model that can be written into a text and read from it again. -/
structure ClassModel.Storable (c : ClassModel MethodModel) : Prop where
  finite : c.isFinite = true
  fits : Json.Dialect.stored.fits 0 (Model.classData c) = true
  auth : ∀ g ∈ c.infos, ∀ p ∈ Entries.values g.auth,
    Json.Dialect.stored.fits authDepth (Model.authData p) = true

instance (c : ClassModel MethodModel) : Decidable c.Storable :=
  decidable_of_iff (c.isFinite = true ∧ Json.Dialect.stored.fits 0 (Model.classData c) = true ∧
      ∀ g ∈ c.infos, ∀ p ∈ Entries.values g.auth,
        Json.Dialect.stored.fits authDepth (Model.authData p) = true)
    ⟨fun h => ⟨h.1, h.2.1, h.2.2⟩, fun h => ⟨h.1, h.2, h.3⟩⟩

namespace Cache

/-- A storable model comes back from its text. -/
theorem decode_encode_of_storable {c : ClassModel MethodModel} (hvalid : c.Valid)
    (h : c.Storable) : decode (encode c) = .ok (some c) :=
  decode_encode hvalid (read?_encode h.finite h.fits)

end Cache

namespace Merge

variable {default : String} {objects : Entries (ClassModel MethodModel)}

/-! ## Methods with other auth tags -/

section WithAuth

variable {m : MethodModel} {auth : Entries Param}

theorem valid_withAuth (h : m.Valid) (hauth : ∀ p ∈ Entries.values auth, p.Valid) :
    (m.withAuth auth).Valid :=
  ⟨h.bag, h.group.group, h.group.description, fun _ he => hauth _ (List.mem_map_of_mem he)⟩

theorem isFinite_withAuth (h : m.isFinite = true)
    (hauth : ∀ p ∈ Entries.values auth, p.isFinite = true) :
    (m.withAuth auth).isFinite = true := by
  simp only [MethodModel.isFinite, GroupInfo.isFinite, Bool.and_eq_true] at h ⊢
  refine ⟨h.1, h.2.1, List.all_eq_true.mpr fun e he => hauth _ (List.mem_map_of_mem he)⟩

theorem fits_withAuth {depth : Nat}
    (h : Json.Dialect.stored.fits depth (Model.methodData m) = true)
    (hd : (Entries.keys auth).Nodup) (hauth : ∀ p ∈ Entries.values auth,
      Json.Dialect.stored.fits (depth + 3) (Model.authData p) = true) :
    Json.Dialect.stored.fits depth (Model.methodData (m.withAuth auth)) = true := by
  simp only [Model.methodData, Model.groupData, Json.fits_object_iff, List.forall_mem_cons,
    Entries.keys_mapValues] at h ⊢
  obtain ⟨hdepth, hkeys, hname, hbag,
    ⟨hdepth', hkeys', hgroup, hdescription, ⟨hdepth'', -, -⟩, -⟩, -⟩ := h
  have hnil : ∀ depth, ∀ e ∈ ([] : Entries Value), Json.Dialect.stored.fits depth e.2 = true :=
    fun _ _ he => absurd he List.not_mem_nil
  refine ⟨hdepth, hkeys, hname, hbag, ⟨hdepth', hkeys', hgroup, hdescription,
    ⟨hdepth'', hd, fun e he => ?_⟩, hnil _⟩, hnil _⟩
  obtain ⟨a, ha, rfl⟩ := List.mem_map.mp he
  exact hauth _ (List.mem_map_of_mem ha)

end WithAuth

/-! ## Completed models -/

theorem mem_infos_of_method {c : ClassModel MethodModel} {e : String × MethodModel}
    (he : e ∈ c.methods) : e.2.group ∈ c.infos :=
  List.mem_cons_of_mem _ (List.mem_map_of_mem (List.mem_map_of_mem he))

theorem sound_completed (h : ∀ c ∈ Entries.values objects, c.Sound) :
    ∀ c ∈ Entries.values (completed default objects), c.Sound := by
  intro c hc
  obtain ⟨c₀, hc₀, rfl⟩ := mem_completed hc
  obtain ⟨hgroup, hmethods, hdistinct, hproperties, hdistinct'⟩ := h c₀ hc₀
  refine ⟨hgroup, Entries.each_mapValues hmethods fun name m hm => sound_complete _ hm, ?_,
    hproperties, hdistinct'⟩
  show (Entries.keys (Entries.mapValues _ _)).Nodup
  rwa [Entries.keys_mapValues]

theorem valid_auth {c : ClassModel MethodModel} (h : c.Valid) :
    ∀ g ∈ c.infos, ∀ p ∈ Entries.values g.auth, p.Valid := by
  intro g hg p hp
  obtain ⟨e, he, rfl⟩ := List.mem_map.mp hp
  rcases List.mem_cons.mp hg with rfl | hg
  · exact h.group.auth e he
  · rw [Entries.values, List.map_map] at hg
    obtain ⟨d, hd, rfl⟩ := List.mem_map.mp hg
    exact (h.methods d hd).group.auth e he

theorem valid_completed (h : ∀ c ∈ Entries.values objects, c.Valid) :
    ∀ c ∈ Entries.values (completed default objects), c.Valid := by
  have hauth := @auth_of_completed default objects Param.Valid fun c hc => valid_auth (h c hc)
  intro c hc
  obtain ⟨c₀, hc₀, rfl⟩ := mem_completed hc
  refine ⟨(h c₀ hc₀).group, fun e he => ?_, (h c₀ hc₀).properties⟩
  have hown := hauth _ hc _ (mem_infos_of_method he)
  obtain ⟨d, hd, rfl⟩ := List.mem_map.mp he
  exact valid_withAuth ((h c₀ hc₀).methods d hd) hown

theorem finite_auth {c : ClassModel MethodModel} (h : c.isFinite = true) :
    ∀ g ∈ c.infos, ∀ p ∈ Entries.values g.auth, p.isFinite = true := by
  simp only [ClassModel.isFinite, MethodModel.isFinite, GroupInfo.isFinite, Bool.and_eq_true,
    List.all_eq_true] at h
  intro g hg p hp
  obtain ⟨e, he, rfl⟩ := List.mem_map.mp hp
  rcases List.mem_cons.mp hg with rfl | hg
  · exact h.1.1.2 e he
  · rw [Entries.values, List.map_map] at hg
    obtain ⟨d, hd, rfl⟩ := List.mem_map.mp hg
    exact (h.1.2 d hd).2.2 e he

theorem finite_completed (h : ∀ c ∈ Entries.values objects, c.isFinite = true) :
    ∀ c ∈ Entries.values (completed default objects), c.isFinite = true := by
  have hauth := @auth_of_completed default objects (fun p => p.isFinite = true)
    fun c hc => finite_auth (h c hc)
  intro c hc
  obtain ⟨c₀, hc₀, rfl⟩ := mem_completed hc
  have hfinite := h c₀ hc₀
  rw [ClassModel.isFinite, Bool.and_eq_true, Bool.and_eq_true, List.all_eq_true] at hfinite ⊢
  refine ⟨⟨hfinite.1.1, fun e he => ?_⟩, hfinite.2⟩
  have hown := hauth _ hc _ (mem_infos_of_method he)
  obtain ⟨d, hd, rfl⟩ := List.mem_map.mp he
  exact isFinite_withAuth (hfinite.1.2 d hd) hown

/-- Storable models that are sound are storable when they are completed. -/
theorem storable_completed (hsound : ∀ c ∈ Entries.values objects, c.Sound)
    (h : ∀ c ∈ Entries.values objects, c.Storable) :
    ∀ c ∈ Entries.values (completed default objects), c.Storable := by
  have hauth := @auth_of_completed default objects _ fun c hc => (h c hc).auth
  intro c hc
  refine ⟨finite_completed (fun c hc => (h c hc).finite) c hc, ?_, hauth c hc⟩
  -- Completion changes only the auth tags of methods, and each of these comes from some class
  -- of the same merge (`auth_of_completed`).
  have hsound' := sound_completed hsound c hc
  obtain ⟨c₀, hc₀, rfl⟩ := mem_completed hc
  have hfits := (h c₀ hc₀).fits
  simp only [Model.classData, @Json.fits_object_iff _ _ (List.cons _ _), List.forall_mem_cons]
    at hfits ⊢
  obtain ⟨hdepth, hkeys, hname, hgroup, hmethods, hproperties, -⟩ := hfits
  refine ⟨hdepth, hkeys, hname, hgroup, ?_, hproperties,
    fun _ he => absurd he List.not_mem_nil⟩
  rw [Json.fits_object_iff] at hmethods ⊢
  refine ⟨hmethods.1, ?_, fun e he => ?_⟩
  · rw [Entries.keys_mapValues]
    exact hsound'.distinctMethods
  · obtain ⟨a, ha, rfl⟩ := List.mem_map.mp he
    have hown := hauth _ hc _ (mem_infos_of_method ha)
    have hdistinct := (hsound'.methods a ha).group.distinct
    obtain ⟨d, hd, rfl⟩ := List.mem_map.mp ha
    have hmethod := hmethods.2.2 (d.1, Model.methodData d.2) (List.mem_map_of_mem hd)
    exact fits_withAuth hmethod hdistinct hown

end Merge
end Routebook
