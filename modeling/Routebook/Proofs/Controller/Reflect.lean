/-
  Routebook.Proofs.Controller.Reflect

  What is reported of a class is in normal form.  A hint is evaluated to the
  tags of something that a name is bound to, or to tags made on the spot, and
  the methods and properties of a class are picked from what the classes along
  its order of lookup hold.
-/
import Routebook.Controller.Reflect
import Routebook.Proofs.Controller.Tags

namespace Routebook

open Outcome

/-! ## Evaluating hints -/

namespace HintText

/-- What an expression stands for is in normal form. -/
def Meaning.Valid : Meaning → Prop
  | .bound b => b.Valid
  | _ => True

theorem Meaning.valid_tags {world : World} (hworld : world.Valid) {m : Meaning} (h : m.Valid) :
    AllValid (m.tags world) := by
  cases m with
  | bound b => exact Binding.valid_tags hworld h
  | _ => exact allValid_nil

theorem valid_callMeaning {f : Meaning} {items : List Meaning} {m : Meaning}
    (h : callMeaning f items = .ok m) : m.Valid := by
  unfold callMeaning at h
  split at h
  · split at h
    · exact Except.ok.inj h ▸ trivial
    · exact absurd h (by simp)
  · exact absurd h (by simp)
  · exact absurd h (by simp)
  · exact absurd h (by simp)
  · exact Except.ok.inj h ▸ trivial

theorem valid_subscriptMeaning {of : Meaning} {items : List Meaning} {m : Meaning}
    (h : subscriptMeaning of items = .ok m) : m.Valid := by
  unfold subscriptMeaning at h
  split at h
  all_goals first
    | exact Except.ok.inj h ▸ trivial
    | exact absurd h (by simp)

theorem valid_memberMeaning {world : World} (hworld : world.Valid) {of m : Meaning}
    {name : String} (h : memberMeaning world of name = .ok m) : m.Valid := by
  unfold memberMeaning at h
  split at h
  · split at h
    · exact Except.ok.inj h ▸ trivial
    · split at h
      · exact Except.ok.inj h ▸ trivial
      · exact absurd h (by simp)
  · split at h
    · rename_i id b hb
      obtain rfl := Except.ok.inj h
      -- What a class has under a name is a binding of the class or of one that it inherits from.
      unfold memberOf? at hb
      split at hb
      · exact absurd hb (by simp)
      · rename_i c hc
        obtain ⟨scope, hscope, hb⟩ := List.exists_of_findSome?_eq_some hb
        obtain ⟨owner, howner, rfl⟩ := List.mem_map.mp hscope
        have hvalid : owner.Valid := by
          rcases List.mem_cons.mp howner with rfl | howner
          · exact hworld.of_getElem? hc
          · obtain ⟨i, -, hi⟩ := List.mem_filterMap.mp howner
            exact hworld.of_getElem? hi
        exact Entries.Each.of_get? hvalid.bindings hb
    · exact absurd h (by simp)
  · exact Except.ok.inj h ▸ trivial
  · exact absurd h (by simp)

/-- An expression stands for something in normal form where names do. -/
theorem valid_eval {world : World} (hworld : world.Valid) {scopes : List (Entries Binding)}
    (hscopes : ∀ s ∈ scopes, Scope.Valid s) {typed : Bool} :
    ∀ (t : Term) {m : Meaning}, eval world scopes typed t = .ok m → m.Valid
  | .name n, m, h => by
      unfold eval at h
      split at h
      · exact Except.ok.inj h ▸ trivial
      · split at h
        · rename_i b hb
          exact Except.ok.inj h ▸ valid_lookup hscopes hb
        · exact absurd h (by simp)
  | .number n, m, h => by
      unfold eval at h
      exact Except.ok.inj h ▸ trivial
  | .string s, m, h => by
      unfold eval at h
      exact Except.ok.inj h ▸ trivial
  | .nothing, m, h => by
      unfold eval at h
      exact Except.ok.inj h ▸ trivial
  | .emptyObject, m, h => by
      unfold eval at h
      exact Except.ok.inj h ▸ trivial
  | .list items, m, h => by
      unfold eval at h
      obtain ⟨_, -, h⟩ := bind_ok_iff.mp h
      exact Except.ok.inj h ▸ trivial
  | .member of name, m, h => by
      unfold eval at h
      obtain ⟨_, -, h⟩ := bind_ok_iff.mp h
      exact valid_memberMeaning hworld h
  | .subscript of items, m, h => by
      unfold eval at h
      obtain ⟨_, -, h⟩ := bind_ok_iff.mp h
      obtain ⟨_, -, h⟩ := bind_ok_iff.mp h
      exact valid_subscriptMeaning h
  | .call of items, m, h => by
      unfold eval at h
      obtain ⟨_, -, h⟩ := bind_ok_iff.mp h
      obtain ⟨_, -, h⟩ := bind_ok_iff.mp h
      exact valid_callMeaning h
  | .quotient a b, m, h => by
      unfold eval at h
      obtain ⟨_, -, h⟩ := bind_ok_iff.mp h
      obtain ⟨_, -, h⟩ := bind_ok_iff.mp h
      split at h
      · split at h
        · exact absurd h (by simp)
        · exact Except.ok.inj h ▸ trivial
      · exact absurd h (by simp)
  | .either a b, m, h => by
      unfold eval at h
      obtain ⟨x, hx, h⟩ := bind_ok_iff.mp h
      have hfirst : x.Valid := valid_eval hworld hscopes a hx
      split at h
      · split at h
        · exact Except.ok.inj h ▸ hfirst
        · exact valid_eval hworld hscopes b h
      · exact Except.ok.inj h ▸ hfirst
  | .choose a condition b, m, h => by
      unfold eval at h
      obtain ⟨c, -, h⟩ := bind_ok_iff.mp h
      split at h
      · split at h
        · exact valid_eval hworld hscopes a h
        · exact valid_eval hworld hscopes b h
      · exact valid_eval hworld hscopes a h

theorem valid_passOver {r : Outcome (List Attached)} (hr : ∀ tags, r = .ok tags → AllValid tags)
    {tags : List Attached} (h : passOver r = .ok tags) : AllValid tags := by
  cases r with
  | ok tags' =>
      obtain rfl : tags' = tags := Except.ok.inj h
      exact hr _ rfl
  | error e =>
      unfold passOver at h
      split at h
      · rename_i heq
        cases heq
      · split at h
        · exact Except.ok.inj h ▸ allValid_nil
        · exact absurd h (by simp)

theorem valid_tags {world : World} (hworld : world.Valid) {own : Entries Binding}
    (hown : Scope.Valid own) {globals : Option (Entries Binding)}
    (hglobals : ∀ g ∈ globals, Scope.Valid g) {text : String} {tags : List Attached}
    (h : HintText.tags world own globals text = .ok tags) : AllValid tags := by
  unfold HintText.tags at h
  split at h
  · exact Except.ok.inj h ▸ allValid_nil
  · refine valid_passOver (fun tags h => ?_) h
    obtain ⟨m, hm, rfl⟩ := map_ok_iff.mp h
    have hscopes : ∀ s ∈ [own, globals.getD []], Scope.Valid s := by
      intro s hs
      rcases List.mem_cons.mp hs with rfl | hs
      · exact hown
      · obtain rfl := List.mem_singleton.mp hs
        cases globals with
        | none => exact Entries.each_nil
        | some g => exact hglobals g rfl
    exact Meaning.valid_tags hworld (valid_eval hworld hscopes _ hm)

end HintText

/-! ## Owners -/

/-- An owner reports tags in normal form only. -/
structure Owner.Valid (o : Owner) : Prop where
  bindings : Scope.Valid o.bindings
  hints : ∀ hints, o.hints = .ok hints → Entries.Each (fun _ tags => AllValid tags) hints

theorem Hinted.valid_tags {world : World} (hworld : world.Valid) {own : Entries Binding}
    (hown : Scope.Valid own) {globals : Option (Entries Binding)}
    (hglobals : ∀ g ∈ globals, Scope.Valid g) {hint : Hinted} (hhint : hint.Valid)
    {tags : List Attached} (h : hint.tags world own globals = .ok tags) : AllValid tags := by
  unfold Hinted.tags at h
  split at h
  · exact Except.ok.inj h ▸ hhint
  · split at h
    · exact Except.ok.inj h ▸ allValid_nil
    · refine HintText.valid_passOver (fun tags h => ?_) h
      obtain ⟨made, hmade, rfl⟩ := map_ok_iff.mp h
      split
      · exact TagSpec.valid_metadata hmade
      · exact allValid_nil
  · split at h
    · exact HintText.valid_tags hworld hown hglobals h
    · exact Except.ok.inj h ▸ allValid_nil

theorem Controller.valid_owners {world : World} (hworld : world.Valid) {globals : Globals}
    (hglobals : Entries.Each (fun _ scope => Scope.Valid scope) globals) {c : Controller}
    (hc : c.Valid) : ∀ o ∈ c.owners world globals, o.Valid := by
  intro o ho
  obtain ⟨d, hd, rfl⟩ := List.mem_map.mp ho
  have hvalid : d.Valid := by
    rcases List.mem_cons.mp hd with rfl | hd
    · exact hc
    · obtain ⟨i, -, hi⟩ := List.mem_filterMap.mp hd
      exact hworld.of_getElem? hi
  refine ⟨hvalid.bindings, fun hints h => ?_⟩
  refine forall_mem_of_mapM h fun e he entry hentry => ?_
  obtain ⟨tags, htags, rfl⟩ := map_ok_iff.mp hentry
  exact Hinted.valid_tags hworld hvalid.bindings
    (fun g hg => Entries.Each.of_get? hglobals hg) (hvalid.hints e he) htags

/-! ## Methods and properties -/

namespace Reflect

/-- The tags reported under each name are in normal form. -/
abbrev EachValid (m : Entries (List Attached)) : Prop :=
  Entries.Each (fun _ tags => AllValid tags) m

theorem valid_methodTags {b : Binding} (hb : b.Valid) {tags : List Attached}
    (h : methodTags? b = some tags) : AllValid tags := by
  cases b with
  | function own => exact Option.some.inj h ▸ hb
  | wrapped own => exact Option.some.inj h ▸ hb
  | _ => exact absurd h (by simp [methodTags?])

theorem valid_methodsFrom (publicOnly : Bool) (seen : List String) {owners : List Owner}
    (h : ∀ o ∈ owners, o.Valid) : EachValid (methodsFrom publicOnly seen owners) := by
  induction owners generalizing seen with
  | nil => exact Entries.each_nil
  | cons o rest ih =>
      refine Entries.each_append ?_ (ih _ fun o ho => h o (List.mem_cons_of_mem _ ho))
      intro e he
      obtain ⟨d, hd, he⟩ := List.mem_filterMap.mp he
      split at he
      · exact absurd he (by simp)
      · obtain ⟨tags, htags, rfl⟩ := Option.map_eq_some_iff.mp he
        exact valid_methodTags ((h o List.mem_cons_self).bindings d hd) htags

theorem valid_methods (publicOnly : Bool) {owners : List Owner} (h : ∀ o ∈ owners, o.Valid) :
    EachValid (methods publicOnly owners) := valid_methodsFrom publicOnly [] h

theorem valid_declared {o : Owner} (ho : o.Valid) {found : Entries (List Attached)}
    (h : declared o = .ok found) : EachValid found := by
  obtain ⟨hints, hhints, h⟩ := bind_ok_iff.mp h
  obtain rfl := Except.ok.inj h
  refine Entries.each_append ?_ (ho.hints hints hhints)
  intro e he
  obtain ⟨d, hd, he⟩ := List.mem_filterMap.mp he
  have hvalid := ho.bindings d hd
  split at he
  · rename_i tags hb
    obtain rfl := Option.some.inj he
    rw [hb] at hvalid
    exact hvalid
  · exact absurd he (by simp)

theorem valid_unseen (publicOnly : Bool) (seen : List String) {found : Entries (List Attached)}
    (h : EachValid found) : EachValid (unseen publicOnly seen found).2 := by
  induction found generalizing seen with
  | nil => exact h
  | cons e rest ih =>
      obtain ⟨name, tags⟩ := e
      have hrest : EachValid rest := fun e he => h e (List.mem_cons_of_mem _ he)
      unfold unseen
      split
      · exact ih seen hrest
      · have hmore := ih (seen ++ [name]) hrest
        -- A private name is passed over for the public, but it hides later ones all the same.
        show EachValid (if publicOnly && isPrivate name then _ else _)
        split
        · exact hmore
        · intro e he
          rcases List.mem_cons.mp he with rfl | he
          · exact h _ List.mem_cons_self
          · exact hmore e he

theorem valid_propertiesFrom {publicOnly : Bool} {seen : List String} {owners : List Owner}
    (howners : ∀ o ∈ owners, o.Valid) {found : Entries (List Attached)}
    (h : propertiesFrom publicOnly seen owners = .ok found) : EachValid found := by
  induction owners generalizing seen found with
  | nil =>
      obtain rfl := Except.ok.inj h
      exact Entries.each_nil
  | cons o rest ih =>
      obtain ⟨own, hown, h⟩ := bind_ok_iff.mp h
      obtain ⟨more, hmore, h⟩ := bind_ok_iff.mp h
      obtain rfl := Except.ok.inj h
      have hfound := valid_declared (howners o List.mem_cons_self) hown
      exact Entries.each_append (valid_unseen publicOnly seen hfound)
        (ih (fun o ho => howners o (List.mem_cons_of_mem _ ho)) hmore)

theorem valid_properties {publicOnly : Bool} {owners : List Owner}
    (howners : ∀ o ∈ owners, o.Valid) {found : Entries (List Attached)}
    (h : properties publicOnly owners = .ok found) : EachValid found :=
  valid_propertiesFrom howners h

end Reflect

end Routebook
