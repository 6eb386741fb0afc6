/-
  Routebook.Proofs.Controller.Declarations

  Which properties a class reports.  A class declares a name as a property, or
  else as an annotated attribute, and along the order of lookup the first class
  that declares a name decides what is reported under it (`declaration?`).

  Names that a class binds to anything else are not looked at.  So a property
  is reported although a class in front overrides it by a method or a plain
  value; the reported properties are those that the class has exactly if none
  of them is displaced in this way (`properties_bound_iff`).
-/
import Routebook.Proofs.Controller.Lookup

namespace Routebook

open Outcome

/-! ## Declarations -/

/-- What a class declares a name as. -/
inductive Declaration where
  | property (tags : List Attached)
  | attribute (tags : List Attached)

/-- The tags of what is declared. -/
def Declaration.tags : Declaration → List Attached
  | .property tags => tags
  | .attribute tags => tags

namespace Owner

/-- The annotated attributes, if their hints can be evaluated. -/
def attributes (o : Owner) : Entries (List Attached) := o.hints.toOption.getD []

/-- What a name is declared as: a property before an annotated attribute. -/
def declaration? (o : Owner) (name : String) : Option Declaration :=
  match Entries.get? name o.bindings with
  | some (.property tags) => some (.property tags)
  | _ => (Entries.get? name o.attributes).map .attribute

theorem declaration?_of_property {o : Owner} {name : String} {tags : List Attached}
    (h : Entries.get? name o.bindings = some (.property tags)) :
    o.declaration? name = some (.property tags) := by
  unfold declaration?
  rw [h]

theorem get?_of_declaration? {o : Owner} {name : String} {tags : List Attached}
    (h : o.declaration? name = some (.property tags)) :
    Entries.get? name o.bindings = some (.property tags) := by
  unfold declaration? at h
  split at h
  · rename_i hb
    rw [hb, Declaration.property.inj (Option.some.inj h)]
  · obtain ⟨own, -, hown⟩ := Option.map_eq_some_iff.mp h
    exact absurd hown (by simp)

end Owner

/-- A change of values that may drop entries looks up as the change of what is looked up. -/
theorem Entries.get?_filterMap {α β : Type} {f : α → Option β} {m : Entries α}
    (hd : (Entries.keys m).Nodup) (name : String) :
    Entries.get? name (m.filterMap fun e => (f e.2).map fun b => (e.1, b))
      = (Entries.get? name m).bind f := by
  induction m with
  | nil => rfl
  | cons e rest ih =>
      obtain ⟨key, a⟩ := e
      obtain ⟨hnew, hd⟩ := List.nodup_cons.mp hd
      rw [Entries.get?_cons]
      by_cases hkey : key = name
      · -- If the entry is dropped, no other one has its key.
        have hnone : Entries.get? name rest = none :=
          (Entries.get?_eq_none_iff _ _).mpr (hkey ▸ hnew)
        cases hf : f a <;> simp [hkey, hf, Entries.get?_cons, ih hd, hnone]
      · cases hf : f a <;> simp [hkey, hf, Entries.get?_cons, ih hd]

namespace Reflect

/-- What a name is declared as, by the first class that declares it. -/
def declaration? (owners : List Owner) (name : String) : Option Declaration :=
  owners.findSome? fun o => o.declaration? name

/-- The properties of a class are the names that are declared, each as it is declared first. -/
structure PropertiesOf (publicOnly : Bool) (owners : List Owner)
    (found : Entries (List Attached)) : Prop where
  entries : ∀ name tags, (name, tags) ∈ found ↔
    (∃ d, declaration? owners name = some d ∧ d.tags = tags) ∧ Shown publicOnly name
  once : (Entries.keys found).Nodup

/-- Every property object that is reported is what the class has under its name. -/
def Genuine (owners : List Owner) (found : Entries (List Attached)) : Prop :=
  ∀ name ∈ Entries.keys found, ∀ tags, declaration? owners name = some (.property tags) →
    bound? owners name = some (.property tags)

/-- Some class in front of the one with the property binds the name to something else, and
none of them declares it. -/
def Displaced (owners : List Owner) (name : String) : Prop :=
  ∃ before o after tags, owners = before ++ o :: after ∧
    Entries.get? name o.bindings = some (.property tags) ∧
    (∀ d ∈ before, d.declaration? name = none) ∧ ∃ d ∈ before, name ∈ Entries.keys d.bindings

theorem declaration?_cons (o : Owner) (rest : List Owner) (name : String) :
    declaration? (o :: rest) name = (o.declaration? name).or (declaration? rest name) := by
  unfold declaration?
  rw [List.findSome?_cons]
  cases o.declaration? name <;> rfl

/-! ## Properties of one class -/

/-- The tags of a binding that is a property. -/
def propertyTags? : Binding → Option (List Attached)
  | .property tags => some tags
  | _ => none

theorem declared_eq (o : Owner) :
    declared o = o.hints.map fun hints =>
      (o.bindings.filterMap fun e => (propertyTags? e.2).map fun tags => (e.1, tags)) ++ hints := by
  have hproperties : (fun e : String × Binding =>
        match e.2 with
        | .property tags => some (e.1, tags)
        | _ => none)
      = fun e => (propertyTags? e.2).map fun tags => (e.1, tags) := by
    funext ⟨name, b⟩
    cases b <;> rfl
  unfold declared
  rw [← hproperties]
  cases o.hints <;> rfl

section Declared

variable {publicOnly : Bool} {seen : List String} {found : Entries (List Attached)}

theorem exists_declared_iff (o : Owner) :
    (∃ found, declared o = .ok found) ↔ ∃ hints, o.hints = .ok hints := by
  rw [declared_eq]
  cases o.hints <;> simp [Except.map]

/-- Properties stand in front of the annotated attributes, so they are found first. -/
theorem get?_declared {o : Owner} (hd : (Entries.keys o.bindings).Nodup)
    (h : declared o = .ok found) (name : String) :
    Entries.get? name found = (o.declaration? name).map Declaration.tags := by
  obtain ⟨hints, hhints, rfl⟩ := map_ok_iff.mp (declared_eq o ▸ h)
  rw [Entries.get?_append, Entries.get?_filterMap hd]
  unfold Owner.declaration? Owner.attributes
  rw [hhints]
  cases Entries.get? name o.bindings with
  | none => simp [Except.toOption, Declaration.tags, Function.comp_def]
  | some b =>
      cases b <;> simp [propertyTags?, Except.toOption, Declaration.tags, Function.comp_def]

theorem unseen_cons_of_passed {name : String} (tags : List Attached)
    (h : name ∈ seen ∨ isReserved name = true) (rest : Entries (List Attached)) :
    unseen publicOnly seen ((name, tags) :: rest) = unseen publicOnly seen rest := by
  rw [unseen]
  exact if_pos (by simpa using h)

theorem unseen_cons_of_new {name : String} (tags : List Attached) (hseen : name ∉ seen)
    (hreserved : isReserved name = false) (rest : Entries (List Attached)) :
    unseen publicOnly seen ((name, tags) :: rest)
      = ((unseen publicOnly (seen ++ [name]) rest).1,
         if publicOnly && isPrivate name then (unseen publicOnly (seen ++ [name]) rest).2
         else (name, tags) :: (unseen publicOnly (seen ++ [name]) rest).2) := by
  rw [unseen]
  exact if_neg (by simp [hseen, hreserved])

/-- All names that are declared are seen afterwards, but for the reserved ones. -/
theorem mem_unseen_fst {name : String} (hname : isReserved name = false) :
    name ∈ (unseen publicOnly seen found).1 ↔ name ∈ seen ∨ name ∈ Entries.keys found := by
  induction found generalizing seen with
  | nil => simp [unseen, Entries.keys]
  | cons e rest ih =>
      obtain ⟨key, tags⟩ := e
      have hkeys : name ∈ Entries.keys ((key, tags) :: rest)
          ↔ name = key ∨ name ∈ Entries.keys rest := List.mem_cons
      rw [hkeys]
      by_cases hpassed : key ∈ seen ∨ isReserved key = true
      · rw [unseen_cons_of_passed tags hpassed, ih, or_left_comm]
        refine (or_iff_right_of_imp ?_).symm
        rintro rfl
        exact .inl (hpassed.resolve_right (by simp [hname]))
      · obtain ⟨hseen, hreserved⟩ := not_or.mp hpassed
        rw [unseen_cons_of_new tags hseen (by simpa using hreserved), ih, List.mem_append,
          List.mem_singleton, or_assoc]

/-- Reported is what is declared under a new name that may be reported. -/
theorem mem_unseen_snd {name : String} {tags : List Attached} :
    (name, tags) ∈ (unseen publicOnly seen found).2
      ↔ name ∉ seen ∧ Shown publicOnly name ∧ Entries.get? name found = some tags := by
  induction found generalizing seen with
  | nil => simp [unseen]
  | cons e rest ih =>
      obtain ⟨key, own⟩ := e
      rw [Entries.get?_cons]
      -- A name that is passed over was seen before or is reserved; both keep it out of the rest.
      by_cases hpassed : key ∈ seen ∨ isReserved key = true
      · rw [unseen_cons_of_passed own hpassed, ih]
        by_cases hkey : key = name
        · subst hkey
          refine iff_of_false ?_ ?_ <;>
            exact fun h => hpassed.elim h.1 (by simp [h.2.1.1])
        · rw [if_neg hkey]
      · obtain ⟨hseen, hreserved⟩ := not_or.mp hpassed
        have hopen : isReserved key = false := by simpa using hreserved
        rw [unseen_cons_of_new own hseen hopen]
        by_cases hkey : key = name
        · -- The rest cannot report the name again.
          subst hkey
          have hmore : (key, tags) ∉ (unseen publicOnly (seen ++ [key]) rest).2 :=
            fun h => (ih.mp h).1 (by simp)
          cases hhidden : publicOnly && isPrivate key with
          | true =>
              refine iff_of_false hmore fun h => ?_
              obtain ⟨hpublic, hprivate⟩ := Bool.and_eq_true_iff.mp hhidden
              exact absurd (h.2.1.2 hpublic) (by simp [hprivate])
          | false =>
              have hshown : Shown publicOnly key :=
                ⟨hopen, fun hpublic => by simpa [hpublic] using hhidden⟩
              simp [hmore, hseen, hshown, eq_comm]
        · have hmore : (name, tags) ∈ (unseen publicOnly (seen ++ [key]) rest).2
              ↔ name ∉ seen ∧ Shown publicOnly name ∧ Entries.get? name rest = some tags := by
            rw [ih]
            simp [Ne.symm hkey]
          rw [if_neg hkey, ← hmore]
          cases publicOnly && isPrivate key <;> simp [Ne.symm hkey]

theorem nodup_keys_unseen : (Entries.keys (unseen publicOnly seen found).2).Nodup := by
  induction found generalizing seen with
  | nil => exact List.nodup_nil
  | cons e rest ih =>
      obtain ⟨key, own⟩ := e
      by_cases hpassed : key ∈ seen ∨ isReserved key = true
      · rw [unseen_cons_of_passed own hpassed]
        exact ih
      · obtain ⟨hseen, hreserved⟩ := not_or.mp hpassed
        rw [unseen_cons_of_new own hseen (by simpa using hreserved)]
        dsimp only
        split
        · exact ih
        · refine List.nodup_cons.mpr ⟨fun hmem => ?_, ih⟩
          obtain ⟨e, he, rfl⟩ := List.mem_map.mp hmem
          exact (mem_unseen_snd.mp he).1 (by simp)

end Declared

/-! ## Properties along the order of lookup -/

section PropertiesFrom

variable {publicOnly : Bool} {owners : List Owner} {found : Entries (List Attached)}

theorem mem_propertiesFrom (hd : Distinct owners) {seen : List String}
    (h : propertiesFrom publicOnly seen owners = .ok found) {name : String}
    {tags : List Attached} :
    (name, tags) ∈ found ↔ name ∉ seen ∧ Shown publicOnly name ∧
      ∃ d, declaration? owners name = some d ∧ d.tags = tags := by
  induction owners generalizing seen found with
  | nil =>
      obtain rfl := Except.ok.inj h
      simp [declaration?]
  | cons o rest ih =>
      obtain ⟨ho, hrest⟩ := List.forall_mem_cons.mp hd
      obtain ⟨own, hown, h⟩ := bind_ok_iff.mp h
      obtain ⟨more, hmore, h⟩ := bind_ok_iff.mp h
      obtain rfl := Except.ok.inj h
      have hget := get?_declared ho hown name
      rw [List.mem_append, mem_unseen_snd, ih hrest hmore, declaration?_cons, hget]
      cases hdeclared : o.declaration? name with
      | some d =>
          -- The class decides the name, and from here on it counts as seen.
          rw [hdeclared] at hget
          have hkeys : name ∈ Entries.keys own := Entries.mem_keys_of_mem (Entries.mem_of_get? hget)
          constructor
          · rintro (⟨hseen, hshown, htags⟩ | ⟨hseen, hshown, -⟩)
            · exact ⟨hseen, hshown, d, rfl, Option.some.inj htags⟩
            · exact absurd ((mem_unseen_fst hshown.1).mpr (.inr hkeys)) hseen
          · rintro ⟨hseen, hshown, d', hd', rfl⟩
            obtain rfl : d = d' := Option.some.inj hd'
            exact .inl ⟨hseen, hshown, rfl⟩
      | none =>
          rw [hdeclared] at hget
          have hkeys : name ∉ Entries.keys own := (Entries.get?_eq_none_iff _ _).mp hget
          rw [Option.none_or]
          constructor
          · rintro (⟨-, -, htags⟩ | ⟨hseen, hshown, hlater⟩)
            · exact absurd htags (by simp)
            · exact ⟨fun hmem => hseen ((mem_unseen_fst hshown.1).mpr (.inl hmem)), hshown, hlater⟩
          · rintro ⟨hseen, hshown, hlater⟩
            refine .inr ⟨fun hmem => ?_, hshown, hlater⟩
            exact ((mem_unseen_fst hshown.1).mp hmem).elim hseen hkeys

theorem nodup_keys_propertiesFrom (hd : Distinct owners) {seen : List String}
    (h : propertiesFrom publicOnly seen owners = .ok found) : (Entries.keys found).Nodup := by
  induction owners generalizing seen found with
  | nil =>
      obtain rfl := Except.ok.inj h
      exact List.nodup_nil
  | cons o rest ih =>
      obtain ⟨-, hrest⟩ := List.forall_mem_cons.mp hd
      obtain ⟨own, hown, h⟩ := bind_ok_iff.mp h
      obtain ⟨more, hmore, h⟩ := bind_ok_iff.mp h
      obtain rfl := Except.ok.inj h
      rw [Entries.keys_append]
      refine List.nodup_append.mpr ⟨nodup_keys_unseen, ih hrest hmore, ?_⟩
      -- What the class itself binds is seen before the later classes are asked.
      rintro name hname _ hagain rfl
      obtain ⟨⟨_, tags⟩, he, rfl⟩ := List.mem_map.mp hname
      obtain ⟨e, hlater, heq⟩ := List.mem_map.mp hagain
      obtain ⟨-, hshown, htags⟩ := mem_unseen_snd.mp he
      have hkeys := Entries.mem_keys_of_mem (Entries.mem_of_get? htags)
      refine ((mem_propertiesFrom hrest hmore).mp hlater).1 ?_
      rw [heq]
      exact (mem_unseen_fst hshown.1).mpr (.inr hkeys)

/-- Only a hint that cannot be evaluated keeps the properties from being told. -/
theorem exists_propertiesFrom_iff (publicOnly : Bool) (seen : List String) :
    (∃ found, propertiesFrom publicOnly seen owners = .ok found)
      ↔ ∀ o ∈ owners, ∃ hints, o.hints = .ok hints := by
  induction owners generalizing seen with
  | nil => exact iff_of_true ⟨[], rfl⟩ nofun
  | cons o rest ih =>
      rw [List.forall_mem_cons]
      constructor
      · rintro ⟨found, h⟩
        obtain ⟨own, hown, h⟩ := bind_ok_iff.mp h
        obtain ⟨more, hmore, -⟩ := bind_ok_iff.mp h
        exact ⟨(exists_declared_iff o).mp ⟨own, hown⟩, (ih _).mp ⟨more, hmore⟩⟩
      · rintro ⟨hhints, hrest⟩
        obtain ⟨own, hown⟩ := (exists_declared_iff o).mpr hhints
        obtain ⟨more, hmore⟩ := (ih _).mpr hrest
        exact ⟨_, bind_ok_iff.mpr ⟨own, hown, bind_ok_iff.mpr ⟨more, hmore, rfl⟩⟩⟩

/-! ## Properties that the class has -/

theorem bound?_append (before after : List Owner) (name : String) :
    bound? (before ++ after) name = (bound? before name).or (bound? after name) := by
  unfold bound?
  exact List.findSome?_append

/-- A property is displaced exactly if it is reported though the class has something else. -/
theorem displaced_iff {name : String} : Displaced owners name ↔
    ∃ tags, declaration? owners name = some (.property tags) ∧
      bound? owners name ≠ some (.property tags) := by
  constructor
  · rintro ⟨before, o, after, tags, rfl, hown, hnone, d, hmem, hd⟩
    refine ⟨tags, List.findSome?_eq_some_iff.mpr
      ⟨before, o, after, rfl, Owner.declaration?_of_property hown, hnone⟩, fun hbound => ?_⟩
    obtain ⟨b, hb⟩ := Entries.exists_get?_of_mem_keys hd
    have hfront : (bound? before name).isSome = true :=
      List.findSome?_isSome_iff.mpr ⟨d, hmem, by rw [hb]; rfl⟩
    obtain ⟨b', hfirst⟩ := Option.isSome_iff_exists.mp hfront
    rw [bound?_append, hfirst, Option.some_or] at hbound
    rw [hbound] at hfirst
    -- Then a class in front would declare the name itself.
    obtain ⟨d', hmem', hd'⟩ := List.exists_of_findSome?_eq_some hfirst
    exact absurd (hnone d' hmem') (by simp [Owner.declaration?_of_property hd'])
  · rintro ⟨tags, hdeclared, hbound⟩
    obtain ⟨before, o, after, rfl, hown, hnone⟩ := List.findSome?_eq_some_iff.mp hdeclared
    have hget := Owner.get?_of_declaration? hown
    refine ⟨before, o, after, tags, rfl, hget, hnone, ?_⟩
    by_contra hno
    have hfront : bound? before name = none := by
      refine List.findSome?_eq_none_iff.mpr fun d hd => (Entries.get?_eq_none_iff _ _).mpr ?_
      exact fun hmem => hno ⟨d, hd, hmem⟩
    exact hbound (by rw [bound?_append, hfront, Option.none_or, bound?_cons, hget, Option.some_or])

/-- The properties of a class can be told unless a hint cannot be evaluated, and they are
the names that are declared, each as it is declared first.  The property objects among
them are those that the class has exactly if none of them is displaced. -/
theorem properties_bound_iff (publicOnly : Bool) (hd : Distinct owners) :
    ((∃ found, properties publicOnly owners = .ok found)
        ↔ ∀ o ∈ owners, ∃ hints, o.hints = .ok hints) ∧
      ∀ found, properties publicOnly owners = .ok found →
        PropertiesOf publicOnly owners found ∧
          (Genuine owners found ↔ ∀ name, Shown publicOnly name → ¬ Displaced owners name) := by
  refine ⟨exists_propertiesFrom_iff publicOnly [], fun found h => ?_⟩
  have hmem (name : String) (tags : List Attached) : (name, tags) ∈ found ↔
      (∃ d, declaration? owners name = some d ∧ d.tags = tags) ∧ Shown publicOnly name := by
    rw [mem_propertiesFrom hd h, and_comm (a := Shown publicOnly name)]
    simp
  refine ⟨⟨hmem, nodup_keys_propertiesFrom hd h⟩, ?_, ?_⟩
  · rintro hgenuine name hshown hdisplaced
    obtain ⟨tags, hdeclared, hbound⟩ := displaced_iff.mp hdisplaced
    have hreported := (hmem name tags).mpr ⟨⟨_, hdeclared, rfl⟩, hshown⟩
    exact hbound (hgenuine name (Entries.mem_keys_of_mem hreported) tags hdeclared)
  · intro hnone name hname tags hdeclared
    obtain ⟨⟨_, own⟩, he, rfl⟩ := List.mem_map.mp hname
    by_contra hbound
    exact hnone _ ((hmem _ own).mp he).2 (displaced_iff.mpr ⟨tags, hdeclared, hbound⟩)

/-- A class whose method overrides a property, and which has a property and two attributes. -/
def overridingOwners : List Owner :=
  [⟨[("title", .function []), ("size", .property [.bare "Di"])],
    .ok [("size", []), ("_raw", []), ("owner", [.bare "Context"])]⟩,
   ⟨[("title", .property []), ("owner", .property [])], .ok [("_raw", [.bare "Di"])]⟩]

theorem properties_bound_overridingOwners :
    Distinct overridingOwners ∧
      ∃ found, properties true overridingOwners = .ok found ∧
        PropertiesOf true overridingOwners found ∧
        (Genuine overridingOwners found
          ↔ ∀ name, Shown true name → ¬ Displaced overridingOwners name) := by
  have hd : Distinct overridingOwners := by
    unfold Distinct
    decide
  obtain ⟨hexists, hall⟩ := properties_bound_iff true hd
  have hhints : ∀ o ∈ overridingOwners, ∃ hints, o.hints = .ok hints := by
    simp [overridingOwners]
  obtain ⟨found, hfound⟩ := hexists.mpr hhints
  exact ⟨hd, found, hfound, hall found hfound⟩

/-- The overridden property is reported, although the class has a method of that name. -/
theorem not_genuine_overridingOwners :
    Distinct overridingOwners ∧ ∃ found, properties false overridingOwners = .ok found ∧
      ¬ Genuine overridingOwners found := by
  have hd : Distinct overridingOwners := by
    unfold Distinct
    decide
  have hhints : ∀ o ∈ overridingOwners, ∃ hints, o.hints = .ok hints := by
    simp [overridingOwners]
  obtain ⟨found, hfound⟩ := (exists_propertiesFrom_iff false []).mpr hhints
  refine ⟨hd, found, hfound, fun hgenuine => ?_⟩
  have hshown : Shown false "title" := ⟨by decide +kernel, nofun⟩
  have hreported : ("title", []) ∈ found :=
    (mem_propertiesFrom hd hfound).mpr ⟨List.not_mem_nil, hshown, .property [], rfl, rfl⟩
  have hbound := hgenuine "title" (Entries.mem_keys_of_mem hreported) [] rfl
  exact absurd hbound (by simp [bound?, overridingOwners, Entries.get?])

end PropertiesFrom

end Reflect

end Routebook
