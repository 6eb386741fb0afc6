/-
  Routebook.Proofs.Controller.Lookup

  Which methods a class has.  Along the order of lookup the first class that
  binds a name decides it, whatever it binds the name to (`bound?`).  The walk
  over the classes keeps a list of the names it has met, hidden and reserved
  ones too, and so it reports exactly the names under which this lookup finds a
  method (`methods_bound`): a method that is overridden by a method counts with
  the one that overrides it, and one that is overridden by anything else does
  not count.

  A class binds a name once.  That is so of all classes that class statements
  make (`ClassDecl.distinct_make`), whatever their bodies do.
-/
import Routebook.Controller.Reflect
import Routebook.Proofs.Controller.Statements

namespace Routebook

open Outcome

/-! ## Lookup -/

namespace Reflect

/-- What a name is bound to, by the first class that binds it. -/
def bound? (owners : List Owner) (name : String) : Option Binding :=
  owners.findSome? fun o => Entries.get? name o.bindings

/-- Where a name is found: the place of the first class that binds it, and the place of
the name in that class. -/
def place (name : String) : List Owner → Nat × Nat
  | [] => (0, 0)
  | o :: rest =>
    if name ∈ Entries.keys o.bindings then (0, (Entries.keys o.bindings).idxOf name)
    else ((place name rest).1 + 1, (place name rest).2)

/-- Every class binds a name once. -/
def Distinct (owners : List Owner) : Prop := ∀ o ∈ owners, (Entries.keys o.bindings).Nodup

/-- Whether a name may be reported: it is not reserved and not hidden from whom it is for. -/
def Shown (publicOnly : Bool) (name : String) : Prop :=
  isReserved name = false ∧ (publicOnly = true → isPrivate name = false)

/-- The methods of a class are the names under which it has a method, by class and then
in the order in which the class binds them. -/
structure MethodsOf (publicOnly : Bool) (owners : List Owner) (found : Entries (List Attached)) :
    Prop where
  entries : ∀ name tags, (name, tags) ∈ found ↔
    (bound? owners name = some (.function tags) ∨ bound? owners name = some (.wrapped tags)) ∧
      Shown publicOnly name
  once : (Entries.keys found).Nodup
  order : (Entries.keys found).Pairwise fun a b =>
    Prod.Lex (· < ·) (· < ·) (place a owners) (place b owners)

theorem isReported_iff {publicOnly : Bool} {name : String} :
    isReported publicOnly name = true ↔ Shown publicOnly name := by
  unfold isReported Shown
  cases publicOnly <;> simp

theorem methodTags?_eq_some_iff {b : Binding} {tags : List Attached} :
    methodTags? b = some tags ↔ b = .function tags ∨ b = .wrapped tags := by
  cases b <;> simp [methodTags?]

theorem bound?_cons (o : Owner) (rest : List Owner) (name : String) :
    bound? (o :: rest) name = (Entries.get? name o.bindings).or (bound? rest name) := by
  unfold bound?
  rw [List.findSome?_cons]
  cases Entries.get? name o.bindings <;> rfl

end Reflect

/-! ## Classes bind a name once -/

/-- Every class of a world binds a name once. -/
def World.Distinct (world : World) : Prop := ∀ c ∈ world, (Entries.keys c.bindings).Nodup

/-- The body of a class binds a name once, and so do the classes made so far. -/
structure Body.Distinct (body : Body) : Prop where
  world : body.world.Distinct
  bindings : (Entries.keys body.bindings).Nodup

theorem Body.Distinct.bind {body : Body} (h : body.Distinct) (name : String) (b : Binding) :
    (body.bind name b).Distinct :=
  ⟨h.world, Entries.nodup_keys_put name b h.bindings⟩

/-- Whatever a statement in the body of a class does, it binds a name in place of an old
one or behind all others. -/
theorem classInvariant_distinct (s : Surroundings) :
    ClassInvariant s World.Distinct Body.Distinct where
  start := fun _ hworld => ⟨hworld, List.nodup_nil⟩
  world := fun _ hbody => hbody.world
  bind := fun _ name b hbody _ => hbody.bind name b
  nest := fun body world name id hbody hworld => by
    have hkept : Body.Distinct { body with world := world } := ⟨hworld, hbody.bindings⟩
    exact hkept.bind name (.controller id)
  annotate := fun _ _ _ _ hbody _ => ⟨hbody.world, hbody.bindings⟩
  made := fun body _ _ _ _ _ hbody _ c hc => by
    rcases List.mem_append.mp hc with hc | hc
    · exact hbody.world c hc
    · obtain rfl := List.mem_singleton.mp hc
      exact hbody.bindings

/-- A class statement adds classes that bind a name once. -/
theorem ClassDecl.distinct_make {s : Surroundings} {lead : String} {around : Entries Binding}
    {world world' : World} {id : ClassId} (hworld : world.Distinct) (decl : ClassDecl)
    (h : decl.make s lead around world = .ok (world', id)) : world'.Distinct :=
  (classInvariant_distinct s).make hworld decl h

/-- So the classes along the order of lookup of a class bind a name once. -/
theorem Controller.distinct_owners {world : World} (hworld : world.Distinct) (globals : Globals)
    {c : Controller} (hc : c ∈ world) : Reflect.Distinct (c.owners world globals) := by
  intro o ho
  obtain ⟨d, hd, rfl⟩ := List.mem_map.mp ho
  rcases List.mem_cons.mp hd with rfl | hd
  · exact hworld d hc
  · obtain ⟨i, -, hi⟩ := List.mem_filterMap.mp hd
    exact hworld d (List.mem_of_getElem? hi)

namespace Reflect

/-! ## Methods of one class -/

section MethodsIn

variable {publicOnly : Bool} {seen : List String} {bindings : Entries Binding}

theorem mem_methodsIn (hd : (Entries.keys bindings).Nodup) {name : String}
    {tags : List Attached} :
    (name, tags) ∈ methodsIn publicOnly seen bindings ↔ name ∉ seen ∧ Shown publicOnly name ∧
      ∃ b, Entries.get? name bindings = some b ∧ methodTags? b = some tags := by
  unfold methodsIn
  rw [List.mem_filterMap]
  constructor
  · rintro ⟨⟨own, b⟩, hmem, he⟩
    split at he
    · exact absurd he (by simp)
    · rename_i hpassed
      obtain ⟨own_tags, htags, heq⟩ := Option.map_eq_some_iff.mp he
      obtain ⟨rfl, rfl⟩ := Prod.mk.inj heq
      simp only [Bool.or_eq_true, Bool.not_eq_true', not_or, Bool.not_eq_false] at hpassed
      exact ⟨by simpa using hpassed.1, isReported_iff.mp hpassed.2, b,
        Entries.get?_eq_some_of_mem hd hmem, htags⟩
  · rintro ⟨hseen, hshown, b, hb, htags⟩
    refine ⟨(name, b), Entries.mem_of_get? hb, ?_⟩
    have hreported := isReported_iff.mpr hshown
    simp [hseen, hreported, htags]

theorem keys_methodsIn_sublist (publicOnly : Bool) (seen : List String)
    (bindings : Entries Binding) :
    (Entries.keys (methodsIn publicOnly seen bindings)).Sublist (Entries.keys bindings) := by
  induction bindings with
  | nil => exact .slnil
  | cons e rest ih =>
      unfold methodsIn
      rw [List.filterMap_cons]
      split
      · exact ih.cons e.1
      · rename_i entry hentry
        -- What is reported of a binding stands under its own name.
        have hname : entry.1 = e.1 := by
          split at hentry
          · exact absurd hentry (by simp)
          · obtain ⟨tags, -, rfl⟩ := Option.map_eq_some_iff.mp hentry
            rfl
        show (entry.1 :: _).Sublist (e.1 :: _)
        rw [hname]
        exact ih.cons_cons e.1

end MethodsIn

/-! ## Methods along the order of lookup -/

section MethodsFrom

variable {publicOnly : Bool} {owners : List Owner}

theorem mem_methodsFrom (hd : Distinct owners) {seen : List String} {name : String}
    {tags : List Attached} :
    (name, tags) ∈ methodsFrom publicOnly seen owners ↔ name ∉ seen ∧ Shown publicOnly name ∧
      ∃ b, bound? owners name = some b ∧ methodTags? b = some tags := by
  induction owners generalizing seen with
  | nil => simp [methodsFrom, bound?]
  | cons o rest ih =>
      obtain ⟨ho, hrest⟩ := List.forall_mem_cons.mp hd
      rw [methodsFrom, List.mem_append, mem_methodsIn ho, ih hrest, bound?_cons]
      cases hown : Entries.get? name o.bindings with
      | some b =>
          -- The class decides the name, and from here on it counts as met.
          have hmet : name ∈ Entries.keys o.bindings :=
            Entries.mem_keys_of_mem (Entries.mem_of_get? hown)
          simp [hmet]
      | none =>
          have hnew : name ∉ Entries.keys o.bindings := (Entries.get?_eq_none_iff _ _).mp hown
          simp [hnew]

theorem notMem_seen_of_methodsFrom (hd : Distinct owners) {seen : List String} {name : String}
    (h : name ∈ Entries.keys (methodsFrom publicOnly seen owners)) : name ∉ seen := by
  obtain ⟨e, he, rfl⟩ := List.mem_map.mp h
  exact ((mem_methodsFrom hd).mp he).1

theorem place_of_mem {o : Owner} {name : String} (h : name ∈ Entries.keys o.bindings)
    (rest : List Owner) : place name (o :: rest) = (0, (Entries.keys o.bindings).idxOf name) :=
  if_pos h

theorem place_of_notMem {o : Owner} {name : String} (h : name ∉ Entries.keys o.bindings)
    (rest : List Owner) :
    place name (o :: rest) = ((place name rest).1 + 1, (place name rest).2) :=
  if_neg h

theorem pairwise_idxOf {names : List String} (hd : names.Nodup) :
    names.Pairwise fun a b => names.idxOf a < names.idxOf b := by
  rw [List.pairwise_iff_getElem]
  intro i j hi hj hij
  rw [hd.idxOf_getElem i hi, hd.idxOf_getElem j hj]
  exact hij

/-- Names are met in the order of their places. -/
theorem pairwise_methodsFrom (hd : Distinct owners) (seen : List String) :
    (Entries.keys (methodsFrom publicOnly seen owners)).Pairwise fun a b =>
      Prod.Lex (· < ·) (· < ·) (place a owners) (place b owners) := by
  induction owners generalizing seen with
  | nil => exact List.Pairwise.nil
  | cons o rest ih =>
      obtain ⟨ho, hrest⟩ := List.forall_mem_cons.mp hd
      have hsub := keys_methodsIn_sublist publicOnly seen o.bindings
      have hown : ∀ name ∈ Entries.keys (methodsIn publicOnly seen o.bindings),
          name ∈ Entries.keys o.bindings := fun name h => hsub.subset h
      have hlater : ∀ name ∈ Entries.keys
          (methodsFrom publicOnly (seen ++ Entries.keys o.bindings) rest),
          name ∉ Entries.keys o.bindings := fun name h hmet =>
        notMem_seen_of_methodsFrom hrest h (List.mem_append_right _ hmet)
      rw [methodsFrom, Entries.keys_append, List.pairwise_append]
      refine ⟨?_, ?_, ?_⟩
      · -- Names of the class itself stand in its own order.
        refine ((pairwise_idxOf ho).sublist hsub).imp_of_mem fun ha hb hlt => ?_
        rw [place_of_mem (hown _ ha), place_of_mem (hown _ hb)]
        exact .right 0 hlt
      -- Names of later classes keep their order, one class further on.
      · refine (ih hrest _).imp_of_mem fun ha hb hlt => ?_
        rw [place_of_notMem (hlater _ ha), place_of_notMem (hlater _ hb)]
        rcases Prod.lex_def.mp hlt with hlt | ⟨heq, hlt⟩
        · exact .left _ _ (Nat.succ_lt_succ hlt)
        · rw [heq]
          exact .right _ hlt
      -- Names of the class itself come before those of all later ones.
      · intro a ha b hb
        rw [place_of_mem (hown a ha), place_of_notMem (hlater b hb)]
        exact .left _ _ (Nat.succ_pos _)

/-- What is reported as a method of a class is what the class has under the name, for
every order of lookup. -/
theorem methods_bound (publicOnly : Bool) (hd : Distinct owners) :
    MethodsOf publicOnly owners (methods publicOnly owners) := by
  have hentries (name : String) (tags : List Attached) :
      (name, tags) ∈ methods publicOnly owners ↔
        (bound? owners name = some (.function tags) ∨ bound? owners name = some (.wrapped tags)) ∧
          Shown publicOnly name := by
    rw [methods, mem_methodsFrom hd]
    simp only [List.not_mem_nil, not_false_eq_true, true_and, methodTags?_eq_some_iff]
    constructor
    · rintro ⟨hshown, b, hb, rfl | rfl⟩
      · exact ⟨.inl hb, hshown⟩
      · exact ⟨.inr hb, hshown⟩
    · rintro ⟨hb | hb, hshown⟩
      · exact ⟨hshown, _, hb, .inl rfl⟩
      · exact ⟨hshown, _, hb, .inr rfl⟩
  have horder : (Entries.keys (methods publicOnly owners)).Pairwise fun a b =>
      Prod.Lex (· < ·) (· < ·) (place a owners) (place b owners) := pairwise_methodsFrom hd []
  refine ⟨hentries, horder.imp fun {a b} hlt heq => ?_, horder⟩
  subst heq
  rcases Prod.lex_def.mp hlt with hlt | ⟨-, hlt⟩ <;> exact Nat.lt_irrefl _ hlt

/-- Classes in which a method is overridden by a property, by a method and by nothing. -/
def shadowingOwners : List Owner :=
  [⟨[("list", .function []), ("count", .property []), ("_log", .wrapped [])], .ok []⟩,
   ⟨[("count", .function []), ("find", .wrapped [.bare "Api"]), ("list", .wrapped [])], .ok []⟩,
   ⟨[("_log", .function []), ("find", .other), ("__init__", .function []), ("drop", .function [])],
    .ok []⟩]

/-- The statement of the last of them. -/
def shadowedClass : ClassDecl :=
  .mk "Shadowed" [] []
    [.function "_log" [], .value "find", .function "__init__" [], .function "drop" []]

/-- The statement of the one below it. -/
def middleClass : ClassDecl :=
  .mk "Middle" ["Shadowed"] []
    [.function "count" [], .wrapped "find" [[.bare "Api"]], .wrapped "list" []]

/-- The statement of the first one. -/
def shadowingClass : ClassDecl :=
  .mk "Shadowing" ["Middle"] []
    [.function "list" [], .property "count" [], .wrapped "_log" []]

/-- The classes as they are made. -/
def shadowingWorld : World :=
  [⟨"m", "Shadowed", [], [],
      [("_log", .function []), ("find", .other), ("__init__", .function []),
       ("drop", .function [])], []⟩,
   ⟨"m", "Middle", [], [0],
      [("count", .function []), ("find", .wrapped [.bare "Api"]), ("list", .wrapped [])], []⟩,
   ⟨"m", "Shadowing", [], [1, 0],
      [("list", .function []), ("count", .property []), ("_log", .wrapped [])], []⟩]

/-- The statements are made one after the other, each with the class before it in sight. -/
theorem distinct_shadowingWorld : shadowingWorld.Distinct := by
  have hnone : World.Distinct [] := nofun
  have hfirst : shadowedClass.make ⟨"m", [], false⟩ "" [] [] = .ok (shadowingWorld.take 1, 0) := rfl
  have hsecond : middleClass.make ⟨"m", [("Shadowed", .controller 0)], false⟩ "" []
      (shadowingWorld.take 1) = .ok (shadowingWorld.take 2, 1) := rfl
  have hthird : shadowingClass.make ⟨"m", [("Middle", .controller 1)], false⟩ "" []
      (shadowingWorld.take 2) = .ok (shadowingWorld, 2) := rfl
  have hmade := shadowedClass.distinct_make hnone hfirst
  exact shadowingClass.distinct_make (middleClass.distinct_make hmade hsecond) hthird

theorem methods_bound_shadowingOwners :
    Distinct shadowingOwners ∧
      MethodsOf true shadowingOwners (methods true shadowingOwners) ∧
      Entries.keys (methods true shadowingOwners) = ["list", "find", "drop"] := by
  have hd : Distinct shadowingOwners :=
    Controller.distinct_owners distinct_shadowingWorld [] (List.mem_of_getElem? (i := 2) rfl)
  exact ⟨hd, methods_bound true hd, by decide +kernel⟩

end MethodsFrom

end Reflect

end Routebook
