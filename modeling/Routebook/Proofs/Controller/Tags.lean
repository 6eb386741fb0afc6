/-
  Routebook.Proofs.Controller.Tags

  All tags that classes hold are in normal form.  A tag is made only by reading
  its fields, so it starts in normal form; making a class, evaluating a hint
  and walking the classes above another one only pass tags on.  What is
  collected from a class is therefore a model in normal form (`valid_model`),
  for every class statement and every table of modules that was built from
  class statements.
-/
import Routebook.Controller.Collect
import Routebook.Proofs.Controller.Statements
import Routebook.Proofs.Each
import Routebook.Proofs.Model.RoundTrip
import Routebook.Proofs.Tag.Declared

namespace Routebook

open Outcome

/-! ## Tags in normal form -/

/-- What is attached is in normal form. -/
def Attached.Valid : Attached → Prop
  | .tag t => t.Valid
  | .bare _ => True

/-- All tags of a list are in normal form. -/
def AllValid (tags : List Attached) : Prop := ∀ a ∈ tags, a.Valid

/-- The tags of a binding are in normal form. -/
def Binding.Valid : Binding → Prop
  | .function tags => AllValid tags
  | .wrapped tags => AllValid tags
  | .property tags => AllValid tags
  | _ => True

/-- The tags of a hint that is settled are in normal form. -/
def Hinted.Valid : Hinted → Prop
  | .settled tags => AllValid tags
  | _ => True

/-- The bindings of a scope are in normal form. -/
def Scope.Valid (scope : Entries Binding) : Prop := Entries.Each (fun _ b => b.Valid) scope

/-- The tags of a class are in normal form. -/
structure Controller.Valid (c : Controller) : Prop where
  tags : AllValid c.tags
  bindings : Scope.Valid c.bindings
  hints : Entries.Each (fun _ hint => hint.Valid) c.hints

/-- The tags of all classes are in normal form. -/
def World.Valid (world : World) : Prop := ∀ c ∈ world, c.Valid

theorem allValid_nil : AllValid [] := fun _ h => absurd h List.not_mem_nil

theorem allValid_append {xs ys : List Attached} (hx : AllValid xs) (hy : AllValid ys) :
    AllValid (xs ++ ys) := fun a ha => (List.mem_append.mp ha).elim (hx a) (hy a)

theorem World.Valid.of_getElem? {world : World} (h : world.Valid) {id : ClassId} {c : Controller}
    (hc : world[id]? = some c) : c.Valid :=
  h c (List.mem_of_getElem? hc)

/-! ## Making tags -/

namespace TagSpec

theorem valid_make {kind : Kind} {data : Entries Value} {t : Tag}
    (h : Tag.make kind data = .ok t) : t.Valid :=
  Tag.valid_of_decodeFields (Tag.decodeFields_of_make h)

theorem valid_item {spec : TagSpec} {i : Item} (h : spec.item = .ok i) :
    ∀ a ∈ i.attached?, a.Valid := by
  intro a ha
  cases spec with
  | make kind data =>
      obtain ⟨t, ht, rfl⟩ := map_ok_iff.mp h
      obtain rfl : Attached.tag t = a := Option.some.inj ha
      unfold Tag.makeNamed at ht
      cases hk : Kind.ofName? kind with
      | none => simp [hk] at ht
      | some k =>
          simp only [hk] at ht
          exact valid_make ht
  | bare name =>
      obtain rfl := Except.ok.inj h
      obtain rfl : Attached.bare name = a := Option.some.inj ha
      trivial
  | plain v =>
      obtain rfl := Except.ok.inj h
      exact absurd ha (by simp [Item.attached?])

theorem valid_metadata {specs : List TagSpec} {tags : List Attached}
    (h : metadata specs = .ok tags) : AllValid tags := by
  obtain ⟨items, hitems, h⟩ := bind_ok_iff.mp h
  obtain rfl := Except.ok.inj h
  intro a ha
  obtain ⟨i, hi, ha⟩ := List.mem_filterMap.mp ha
  exact forall_mem_of_mapM (P := fun i => ∀ a ∈ i.attached?, a.Valid) hitems
    (fun _ _ _ h => valid_item h) i hi a ha

theorem attach_eq {i : Item} {a : Attached} (h : i.attach = .ok a) : i.attached? = some a := by
  cases i with
  | attached b =>
      unfold Item.attach at h
      split at h
      · rename_i heq
        cases heq
        split at h
        · exact congrArg some (Except.ok.inj h)
        · exact absurd h (by simp)
      · rename_i heq
        cases heq
  | plain v =>
      unfold Item.attach at h
      split at h
      · rename_i heq
        cases heq
      · split at h <;> exact absurd h (by simp)

theorem valid_stack {specs : List TagSpec} {tags : List Attached}
    (h : stack specs = .ok tags) : AllValid tags := by
  obtain ⟨items, hitems, h⟩ := bind_ok_iff.mp h
  have hmade : ∀ i ∈ items, ∀ a ∈ i.attached?, a.Valid :=
    forall_mem_of_mapM hitems fun _ _ _ h => valid_item h
  exact forall_mem_of_mapM h fun i hi a ha => hmade i hi a (attach_eq ha)

theorem valid_written {layers : List (List TagSpec)} {tags : List Attached}
    (h : written layers = .ok tags) : AllValid tags := by
  induction layers generalizing tags with
  | nil =>
      obtain rfl := Except.ok.inj h
      exact allValid_nil
  | cons specs rest ih =>
      obtain ⟨own, hown, h⟩ := bind_ok_iff.mp h
      obtain ⟨below, hbelow, h⟩ := bind_ok_iff.mp h
      obtain rfl := Except.ok.inj h
      exact allValid_append (valid_stack hown) (ih hbelow)

end TagSpec

/-! ## Names -/

theorem valid_builtin {name : String} {b : Binding} (h : builtin? name = some b) : b.Valid := by
  unfold builtin? at h
  split at h
  · obtain rfl := Option.some.inj h
    trivial
  · split at h
    · obtain rfl := Option.some.inj h
      trivial
    · exact absurd h (by simp)

theorem valid_lookup {scopes : List (Entries Binding)} {name : String} {b : Binding}
    (hscopes : ∀ s ∈ scopes, Scope.Valid s) (h : lookup? scopes name = some b) : b.Valid := by
  induction scopes with
  | nil => exact valid_builtin h
  | cons scope outer ih =>
      unfold lookup? at h
      split at h
      · rename_i b' hb
        obtain rfl := Option.some.inj h
        exact Entries.Each.of_get? (hscopes scope List.mem_cons_self) hb
      · exact ih (fun s hs => hscopes s (List.mem_cons_of_mem _ hs)) h

theorem Binding.valid_tags {world : World} (hworld : world.Valid) {b : Binding} (h : b.Valid) :
    AllValid (b.tags world) := by
  cases b with
  | controller id =>
      intro a ha
      cases hc : world[id]? with
      | none => simp [Binding.tags, hc] at ha
      | some c =>
          simp only [Binding.tags, hc, Option.map_some, Option.getD_some] at ha
          exact (hworld.of_getElem? hc).tags a ha
  | function tags => exact h
  | wrapped tags => exact h
  | property tags => exact h
  | foreign key => exact allValid_nil
  | module name => exact allValid_nil
  | other => exact allValid_nil

/-! ## Class statements -/

/-- The body of a class holds tags in normal form only. -/
structure Body.Valid (body : Body) : Prop where
  world : body.world.Valid
  bindings : Scope.Valid body.bindings
  hints : Entries.Each (fun _ hint => hint.Valid) body.hints

theorem Body.Valid.bind {body : Body} (h : body.Valid) (name : String) (b : Binding)
    (hb : b.Valid) : (body.bind name b).Valid :=
  ⟨h.world, Entries.each_put h.bindings hb, h.hints⟩

theorem Hint.valid_settle {hint : Hint} {s : Surroundings} {world : World} {own : Entries Binding}
    {hinted : Hinted} (hs : Scope.Valid s.globals) (hworld : world.Valid) (hown : Scope.Valid own)
    (h : hint.settle s world own = .ok hinted) : hinted.Valid := by
  have hmetadata : ∀ {specs : List TagSpec} {hinted : Hinted},
      (TagSpec.metadata specs).map Hinted.settled = .ok hinted → hinted.Valid := by
    intro specs hinted h
    obtain ⟨tags, htags, rfl⟩ := map_ok_iff.mp h
    exact TagSpec.valid_metadata htags
  have hnone : (Hinted.settled []).Valid := allValid_nil
  -- Only the metadata that a hint lists and the tags of what it names can carry tags.
  unfold Hint.settle at h
  split at h
  · exact Except.ok.inj h ▸ hnone
  · split at h
    · exact Except.ok.inj h ▸ hnone
    · exact absurd h (by simp)
  · split at h
    · exact Except.ok.inj h ▸ hnone
    · exact absurd h (by simp)
  · split at h
    · obtain rfl := Except.ok.inj h
      trivial
    · exact hmetadata h
  · split at h
    · obtain rfl := Except.ok.inj h
      trivial
    · obtain ⟨tags, -, rfl⟩ := map_ok_iff.mp h
      exact hnone
  · split at h
    · obtain rfl := Except.ok.inj h
      trivial
    · split at h
      · rename_i b hb
        obtain rfl := Except.ok.inj h
        have hscopes : ∀ scope ∈ [own, s.globals], Scope.Valid scope := by
          simpa using ⟨hown, hs⟩
        exact Binding.valid_tags hworld (valid_lookup hscopes hb)
      · exact absurd h (by simp)
  · obtain rfl := Except.ok.inj h
    split
    · exact hnone
    · trivial
  · obtain rfl := Except.ok.inj h
    split
    · exact hnone
    · trivial

/-- What a statement in the body of a class binds a name to is in normal form. -/
theorem Bindable.valid {s : Surroundings} {body : Body} {b : Binding} (hs : Scope.Valid s.globals)
    (hbody : Scope.Valid body.bindings) (h : Bindable s body b) : b.Valid := by
  cases h with
  | function h => exact TagSpec.valid_written h
  | wrapped h => exact TagSpec.valid_written h
  | property h => exact TagSpec.valid_written h
  | getterless => exact allValid_nil
  | other => trivial
  | same h =>
      have hscopes : ∀ scope ∈ [body.bindings, s.globals], Scope.Valid scope := by
        simpa using ⟨hbody, hs⟩
      exact valid_lookup hscopes h

theorem classInvariant_valid {s : Surroundings} (hs : Scope.Valid s.globals) :
    ClassInvariant s World.Valid Body.Valid where
  start := fun _ hworld => ⟨hworld, Entries.each_nil, Entries.each_nil⟩
  world := fun _ hbody => hbody.world
  bind := fun _ name b hbody hb => hbody.bind name b (hb.valid hs hbody.bindings)
  nest := fun body world name id hbody hworld => by
    have hkept : Body.Valid { body with world := world } := ⟨hworld, hbody.bindings, hbody.hints⟩
    exact hkept.bind name (.controller id) trivial
  annotate := fun _ _ _ _ hbody hsettle => by
    have hinted := Hint.valid_settle hs hbody.world hbody.bindings hsettle
    exact ⟨hbody.world, hbody.bindings, Entries.each_put hbody.hints hinted⟩
  made := fun body _ _ _ _ _ hbody htags c hc => by
    rcases List.mem_append.mp hc with hc | hc
    · exact hbody.world c hc
    · obtain rfl := List.mem_singleton.mp hc
      exact ⟨TagSpec.valid_written htags, hbody.bindings, hbody.hints⟩

/-- Making a class adds classes whose tags are in normal form. -/
theorem ClassDecl.valid_make {s : Surroundings} (hs : Scope.Valid s.globals) {lead : String}
    {around : Entries Binding} {world world' : World} {id : ClassId} (hworld : world.Valid)
    (decl : ClassDecl) (h : decl.make s lead around world = .ok (world', id)) : world'.Valid :=
  (classInvariant_valid hs).make hworld decl h

end Routebook
