/-
  Routebook.Proofs.Merge.Stability

  Merging again what a merge has left behind changes nothing
  (`merge_merge`): no shared method, no class model, no group.

  The second merge differs from the first in one thing only.  A method that
  moved to another group has been given the auth tags of that group, so it now
  brings them before their first owners do.  What carries the proof is an
  invariant of the walk over the entrants of one group: next to the first
  run, the second one has either the same auth tags so far or all of them.
  It reaches all of them at the first completed method, in the order of the
  first run, because what a method lacks is added in that order
  (`Entries.putAllNew_filter`); from there on nothing is new.
-/
import Mathlib.Data.List.Forall2
import Routebook.Proofs.Merge.Completion

namespace Routebook

/-- Every auth tag stands under its own name. -/
def GroupInfo.AuthKeyed (g : GroupInfo) : Prop := ∀ e ∈ g.auth, e.1 = e.2.name

instance (g : GroupInfo) : Decidable g.AuthKeyed :=
  inferInstanceAs (Decidable (∀ e ∈ g.auth, e.1 = e.2.name))

namespace Merge

/-! ## Entrants before and after the second pass -/

/-- An entrant after the second pass: as it was, or with the auth tags of its
group that it lacked. -/
structure Backfilled (auths : String → Entries Param) (e e' : Entrant) : Prop where
  group : e'.group = e.group
  isClass : e'.isClass = e.isClass
  description : e'.info.description = e.info.description
  auth : e'.info.auth = e.info.auth ∨
    e.info.AuthKeyed ∧ e'.info.auth = e.info.auth.putAllNew (auths e.group)

variable {auths : String → Entries Param}

/-- What a completed entrant brings: its own tags, then the tags of its group
whose names are not among its own. -/
theorem Backfilled.auth_eq {e e' : Entrant} (h : Backfilled auths e e')
    (hd : (Entries.keys (auths e.group)).Nodup)
    (hk : ∀ a ∈ auths e.group, a.1 = a.2.name) :
    e'.auth = e.auth ∨
      e'.auth = e.auth ++ (auths e.group).filter fun a => decide (a.1 ∉ Entries.keys e.auth) := by
  rcases h.auth with hsame | ⟨hown, hmore⟩
  · left
    unfold Entrant.auth
    rw [hsame]
  · right
    -- The auth tags that were filled in stand under their own names, so they are taken as named.
    have hkeyed : ∀ a ∈ e'.info.auth, a.1 = a.2.name := by
      intro a ha
      rw [hmore] at ha
      rcases Entries.mem_putAllNew ha with ha | ha
      · exact hown a ha
      · exact hk a ha
    have hauth : e.auth = e.info.auth := named_values hown
    have hauth' : e'.auth = e'.info.auth := named_values hkeyed
    rw [hauth', hmore, hauth, Entries.putAllNew_eq_append_filter hd]

/-- The invariant of the walk over the entrants of one group: the completed
entrants have brought what the entrants themselves have, or everything. -/
theorem putAllNew_backfilled {whole : Entries Param} (hd : (Entries.keys whole).Nodup)
    (hk : ∀ a ∈ whole, a.1 = a.2.name) {es es' : List Entrant}
    (h : List.Forall₂ (Backfilled auths) es es') (hgroup : ∀ e ∈ es, auths e.group = whole)
    {m m' : Entries Param} (hrun : m.putAllNew (es.flatMap Entrant.auth) = whole)
    (hm : m' = m ∨ m' = whole) :
    m'.putAllNew (es'.flatMap Entrant.auth) = whole := by
  induction h generalizing m m' with
  | nil =>
      rcases hm with rfl | rfl
      · exact hrun
      · rfl
  | @cons e e' es es' hb _ ih =>
      have hauths : auths e.group = whole := hgroup e List.mem_cons_self
      have hown := hb.auth_eq (hauths ▸ hd) (hauths ▸ hk)
      rw [hauths] at hown
      rw [List.flatMap_cons, Entries.putAllNew_append] at hrun
      rw [List.flatMap_cons, Entries.putAllNew_append]
      -- Every name that the entrant brings is one of the whole.
      have hbrought : ∀ a ∈ e.auth, a.1 ∈ Entries.keys whole := by
        intro a ha
        rw [← hrun, Entries.mem_keys_putAllNew, Entries.mem_keys_putAllNew]
        exact Or.inl (Or.inr (Entries.mem_keys_of_mem ha))
      refine ih (fun d hd' => hgroup d (List.mem_cons_of_mem _ hd')) hrun ?_
      rcases hm with rfl | rfl
      · -- So far both runs agree; a completed entrant jumps to the whole.
        rcases hown with hsame | hmore
        · exact Or.inl (by rw [hsame])
        · right
          rw [hmore, Entries.putAllNew_append]
          refine Entries.putAllNew_filter (p := fun k => decide (k ∉ Entries.keys e.auth)) ?_ hd ?_
          · rw [← hrun]
            exact Entries.prefix_putAllNew _ _
          · intro key hkey
            have hmem : key ∈ Entries.keys e.auth := by simpa using hkey
            exact (Entries.mem_keys_putAllNew _ _ _).mpr (Or.inr hmem)
      · -- Nothing is new to the whole.
        right
        refine Entries.putAllNew_eq_self fun a ha => ?_
        rcases hown with hsame | hmore
        · exact hbrought a (hsame ▸ ha)
        · rw [hmore] at ha
          rcases List.mem_append.mp ha with ha | ha
          · exact hbrought a ha
          · exact Entries.mem_keys_of_mem (List.mem_filter.mp ha).1

theorem map_group_backfilled {es es' : List Entrant} (h : List.Forall₂ (Backfilled auths) es es') :
    es'.map Entrant.group = es.map Entrant.group := by
  induction h with
  | nil => rfl
  | cons hb _ ih => rw [List.map_cons, List.map_cons, hb.group, ih]

theorem foldl_describe_backfilled {es es' : List Entrant}
    (h : List.Forall₂ (Backfilled auths) es es') (d : Option Description) :
    es'.foldl (fun d e => e.describe d) d = es.foldl (fun d e => e.describe d) d := by
  induction h generalizing d with
  | nil => rfl
  | @cons e e' _ _ hb _ ih =>
      have hstep : e'.describe d = e.describe d := by
        unfold Entrant.describe
        rw [hb.isClass, hb.description]
      rw [List.foldl_cons, List.foldl_cons, hstep, ih]

/-- Entrants that differ by the auth tags of their groups alone make the same shells. -/
theorem enterEach_backfilled {es es' : List Entrant}
    (h : List.Forall₂ (Backfilled (authOf (enterEach [] es))) es es') :
    enterEach [] es' = enterEach [] es := by
  have hkeys : Entries.keys (enterEach [] es') = Entries.keys (enterEach [] es) := by
    rw [keys_enterEach [] es' List.nodup_nil, keys_enterEach [] es List.nodup_nil,
      map_group_backfilled h]
  refine shells_ext hkeys (nodup_keys_enterEach [] es' List.nodup_nil) fun name => ?_
  -- Each group is entered by its own entrants alone, so the groups are compared one by one.
  have hfilter : List.Forall₂ (Backfilled (authOf (enterEach [] es)))
      (es.filter fun e => e.group = name) (es'.filter fun e => e.group = name) :=
    List.rel_filter (fun _ _ hb => by simp [hb.group]) h
  have hauth : (shellOf (enterEach [] es') name).auth = (shellOf (enterEach [] es) name).auth := by
    rw [← authOf_eq, ← authOf_eq, authOf_enterEach es']
    refine putAllNew_backfilled (nodup_authOf_enterEach es name) (keyed_authOf_enterEach es name)
      hfilter (fun e he => ?_) (authOf_enterEach es name).symm (Or.inl rfl)
    rw [show e.group = name by simpa using (List.mem_filter.mp he).2]
  have hdesc : (shellOf (enterEach [] es') name).description
      = (shellOf (enterEach [] es) name).description := by
    rw [shellOf_enterEach, shellOf_enterEach, description_foldl_enter, description_foldl_enter]
    exact foldl_describe_backfilled hfilter _
  exact Shell.eq_of_parts hdesc hauth

/-! ## Classes before and after the second pass -/

/-- A method as it was, or completed by the shells `all`. -/
def MaybeComplete (default : String) (all : Shells) (m m' : MethodModel) : Prop :=
  m' = m ∨ m.group.AuthKeyed ∧ m' = complete default all m

variable {default : String}

theorem MaybeComplete.groupName_eq {all : Shells} {m m' : MethodModel}
    (h : MaybeComplete default all m m') :
    m'.group.groupName default = m.group.groupName default := by
  rcases h with rfl | ⟨-, rfl⟩ <;> rfl

theorem MaybeComplete.backfilled {es : List Entrant} {m m' : MethodModel} (name : String)
    (hname : m.group.groupName default = name)
    (h : MaybeComplete default (enterEach [] es) m m') :
    Backfilled (authOf (enterEach [] es)) ⟨name, false, m.group⟩ ⟨name, false, m'.group⟩ := by
  rcases h with rfl | ⟨hkeyed, rfl⟩
  · exact ⟨rfl, rfl, rfl, Or.inl rfl⟩
  · refine ⟨rfl, rfl, rfl, Or.inr ⟨hkeyed, ?_⟩⟩
    rw [complete_auth, hname, named_values (keyed_authOf_enterEach es name)]

theorem forall₂_leavers {es : List Entrant} (home : String) {ms ms' : List MethodModel}
    (h : List.Forall₂ (MaybeComplete default (enterEach [] es)) ms ms') :
    List.Forall₂ (Backfilled (authOf (enterEach [] es)))
      (leavers default home ms) (leavers default home ms') := by
  induction h with
  | nil => exact .nil
  | @cons m m' ms ms' hm _ ih =>
      have hname := hm.groupName_eq
      unfold leavers at ih ⊢
      -- Completion leaves the name of the group, so the same methods leave home.
      by_cases hhome : m.group.groupName default = home
      · rw [List.filter_cons_of_neg (by simpa using hhome),
          List.filter_cons_of_neg (by simpa using hname.trans hhome)]
        exact ih
      · rw [List.filter_cons_of_pos (by simpa using hhome),
          List.filter_cons_of_pos (by simpa using fun he => hhome (hname.symm.trans he))]
        refine .cons ?_ ih
        show Backfilled _ ⟨_, false, m.group⟩ ⟨m'.group.groupName default, false, m'.group⟩
        rw [hname]
        exact hm.backfilled _ rfl

/-- Classes whose methods are seen through two views of what stands for them. -/
theorem forall₂_allEntrants {μ : Type} {es : List Entrant} {v v' : μ → MethodModel}
    {held : List (ClassModel μ)}
    (h : ∀ id ∈ allMethods held, MaybeComplete default (enterEach [] es) (v id) (v' id)) :
    List.Forall₂ (Backfilled (authOf (enterEach [] es)))
      (allEntrants default (held.map (·.mapMethods v)))
      (allEntrants default (held.map (·.mapMethods v'))) := by
  induction held with
  | nil => exact .nil
  | cons c held ih =>
      have hc : ∀ id ∈ Entries.values c.methods,
          MaybeComplete default (enterEach [] es) (v id) (v' id) :=
        fun id hid => h id (List.mem_flatMap.mpr ⟨c, List.mem_cons_self, hid⟩)
      have hrest := ih fun id hid => by
        obtain ⟨d, hd, hid⟩ := List.mem_flatMap.mp hid
        exact h id (List.mem_flatMap.mpr ⟨d, List.mem_cons_of_mem _ hd, hid⟩)
      have hmethods : List.Forall₂ (MaybeComplete default (enterEach [] es))
          ((Entries.values c.methods).map v) ((Entries.values c.methods).map v') := by
        rw [List.forall₂_map_left_iff, List.forall₂_map_right_iff, List.forall₂_same]
        exact hc
      -- The class itself enters as it did, and its methods enter with what the first merge
      -- gave them.
      have hclass : List.Forall₂ (Backfilled (authOf (enterEach [] es)))
          (entrants default (c.mapMethods v)) (entrants default (c.mapMethods v')) := by
        refine .cons ⟨rfl, rfl, rfl, Or.inl rfl⟩ ?_
        rw [values_mapMethods, values_mapMethods]
        exact forall₂_leavers _ hmethods
      exact List.rel_append hclass hrest

end Merge

namespace Heap

open Merge

/-- The shells that the second merge makes are those of the first. -/
theorem shells_merge (h : Heap) (default : String) (ids : List ModelId)
    (hkeyed : ∀ id ∈ ids, ∀ m ∈ Entries.values (h.model id).methods, m.group.AuthKeyed) :
    Merge.shells default (ids.map (h.merge default ids).1.model)
      = Merge.shells default (ids.map h.model) := by
  have hmodels : ∀ g : Heap, (∀ id, g.held id = h.held id) →
      ids.map g.model = (ids.map h.held).map (·.mapMethods g.method) := by
    intro g hg
    rw [List.map_map]
    exact List.map_congr_left fun id _ => by simp only [model, Function.comp_apply, hg]
  rw [hmodels h fun _ => rfl, hmodels _ (held_merge h default ids), shells_eq, shells_eq]
  refine enterEach_backfilled (forall₂_allEntrants fun id hid => ?_)
  rw [merge_fst, method_completeAll]
  split
  · right
    refine ⟨?_, ?_⟩
    · obtain ⟨c, hc, hid⟩ := List.mem_flatMap.mp hid
      obtain ⟨cid, hcid, rfl⟩ := List.mem_map.mp hc
      refine hkeyed cid hcid _ ?_
      rw [model, values_mapMethods]
      exact List.mem_map_of_mem hid
    · rw [hmodels h fun _ => rfl, shells_eq]
  · exact Or.inl rfl

/-- Merging the same models again changes no model and no method, and it gives
the same groups: the same keys, descriptions, auth tags and methods, all in
the same order.  Of the auth tags of the methods it is asked that they stand
under their own names. -/
theorem merge_merge (h : Heap) (default : String) (ids : List ModelId)
    (hkeyed : ∀ id ∈ ids, ∀ m ∈ Entries.values (h.model id).methods, m.group.AuthKeyed) :
    (h.merge default ids).1.merge default ids = h.merge default ids := by
  have hshells := shells_merge h default ids hkeyed
  have hheap : ((h.merge default ids).1.merge default ids).1 = (h.merge default ids).1 := by
    rw [merge_fst (h.merge default ids).1, hshells, methodsOf_merge, merge_fst h,
      completeAll_completeAll]
  have hgroups : ((h.merge default ids).1.merge default ids).2 = (h.merge default ids).2 := by
    rw [merge_snd (h.merge default ids).1, hheap, hshells, methodsOf_merge, merge_snd h]
  exact Prod.ext hheap hgroups

/-- Two classes.  The first lies in `user` and has a method in `misc`, the
group of the second; that method has an auth tag of its own. -/
def movedHeap : Heap :=
  let auth (name about : String) : Param := ⟨name, [], "", about, .null, false, []⟩
  let info (name : String) (ps : List Param) : GroupInfo := ⟨some ⟨name⟩, none, named ps⟩
  ⟨[⟨"one", [], info "user" []⟩, ⟨"moved", [], info "misc" [auth "sign" "own"]⟩,
      ⟨"two", [], info "misc" []⟩],
    [⟨"app.First", info "user" [auth "token" "first"], [("one", 0), ("moved", 1)], []⟩,
      ⟨"app.Second", info "misc" [auth "tenant" "second", auth "sign" "late"], [("two", 2)], []⟩]⟩

theorem merge_merge_movedHeap :
    (∀ id ∈ [0, 1], ∀ m ∈ Entries.values (movedHeap.model id).methods, m.group.AuthKeyed) ∧
      (movedHeap.merge "default" [0, 1]).1.merge "default" [0, 1]
        = movedHeap.merge "default" [0, 1] := by
  have hkeyed : ∀ id ∈ [0, 1], ∀ m ∈ Entries.values (movedHeap.model id).methods,
      m.group.AuthKeyed := by decide
  exact ⟨hkeyed, merge_merge movedHeap "default" [0, 1] hkeyed⟩

/-- The first merge gives the methods of `misc` the auth tags they lack. -/
example : (movedHeap.merge "default" [0, 1]).1.methods.map (fun m => Entries.keys m.group.auth)
    = [["token"], ["sign", "tenant"], ["sign", "tenant"]] := by decide

end Heap
end Routebook
