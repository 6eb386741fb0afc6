/-
  Routebook.Proofs.Tag.Stacking

  Stacks of tags above one holder.  One stack is checked as a whole before it
  changes what the holder has (`annotate`), and stacks are put on one after
  the other, the last one first, until one is refused (`decorate`).  That is
  what the tags of several layers are (`layers_eq`), so they stand in the order
  written, and sorting them by kind keeps that order within each kind.

  A stack with something in it that is no tag of the catalog is refused, and
  attaches nothing.  That is an invalid tag but in two cases (`Obstructed`):
  where another tag of the stack breaks while it is made, and where the thing
  is a value holding an integer that cannot be written into the refusal.
-/
import Routebook.Controller.Define
import Routebook.Proofs.Controller.Collect
import Routebook.Proofs.Tag.Breakage

namespace Routebook

open Outcome

/-! ## Sorting -/

/-- Items by name: the names in the order of their first item, and under each name the
items of that name in their order. -/
structure SortedBy (nameOf : α → String) (items : List α) (bag : Entries (List α)) : Prop where
  names : Entries.keys bag = (items.map nameOf).eraseDups
  items : ∀ name, (Entries.get? name bag).getD [] = items.filter fun a => nameOf a = name

theorem Bag.sortedBy_group (nameOf : α → String) (items : List α) :
    SortedBy nameOf items (Bag.group nameOf items) :=
  ⟨keys_group nameOf items, getD_group nameOf items⟩

theorem Kind.ofName?_eq_none_iff {name : String} :
    Kind.ofName? name = none ↔ ∀ k : Kind, k.name ≠ name := by
  constructor
  · rintro hnone k rfl
    simp [Kind.ofName?_name] at hnone
  · intro h
    refine Option.eq_none_iff_forall_ne_some.mpr fun k hk => h k ?_
    simpa using List.find?_some hk

namespace TagSpec

/-! ## What may stand in a stack -/

/-- A tag whose kind is in the catalog. -/
def Item.Fits : Item → Prop
  | .attached a => ∃ k : Kind, k.name = a.kindName
  | .plain _ => False

/-- A plain value that holds an integer too long to be written. -/
def Item.Unwritable : Item → Prop
  | .attached _ => False
  | .plain v => v.hasLongInt = true

/-- Why a thing that does not fit is refused. -/
def Item.refusal : Item → Failure
  | .attached a => .tag (.unknownKind a.kindName)
  | .plain v => if v.hasLongInt then .badValue tooManyDigitsMessage else .tag (.notATag v.literal)

/-- A tag of the catalog is written. -/
def Writes (spec : TagSpec) (a : Attached) : Prop :=
  spec.item = .ok (.attached a) ∧ (Item.attached a).Fits

/-- Something is written that is no tag of the catalog. -/
def Foreign : TagSpec → Prop
  | .make kind _ => ∀ k : Kind, k.name ≠ kind
  | .bare kind => ∀ k : Kind, k.name ≠ kind
  | .plain _ => True

/-- A tag of the catalog is written with data that breaks its kind. -/
def Breaks : TagSpec → Prop
  | .make kind data => ∃ k : Kind, k.name = kind ∧ Tag.Breaks k data
  | _ => False

/-- Every stack holds nothing but tags of the catalog, and these are they. -/
def AllWritten (specs : List (List TagSpec)) (tags : List (List Attached)) : Prop :=
  List.Forall₂ (List.Forall₂ Writes) specs tags

theorem attach_of_fits {a : Attached} (h : (Item.attached a).Fits) :
    (Item.attached a).attach = .ok a := by
  obtain ⟨k, hk⟩ := h
  have hfound : Kind.ofName? a.kindName = some k := hk ▸ Kind.ofName?_name k
  simp only [Item.attach, hfound]

theorem attach_ok_of_fits {i : Item} (h : i.Fits) : ∃ a, i.attach = .ok a := by
  cases i with
  | attached a => exact ⟨a, attach_of_fits h⟩
  | plain v => exact absurd h id

theorem attach_of_not_fits {i : Item} (h : ¬ i.Fits) : i.attach = .error i.refusal := by
  cases i with
  | attached a =>
      have hnone : Kind.ofName? a.kindName = none :=
        Kind.ofName?_eq_none_iff.mpr fun k hk => h ⟨k, hk⟩
      simp only [Item.attach, Item.refusal, hnone]
  | plain v =>
      simp only [Item.attach, Item.refusal]
      cases v.hasLongInt <;> rfl

theorem attach_ok_iff {i : Item} {a : Attached} :
    i.attach = .ok a ↔ i = .attached a ∧ i.Fits := by
  constructor
  · intro h
    by_cases hfits : i.Fits
    · cases i with
      | attached b =>
          rw [attach_of_fits hfits] at h
          exact ⟨congrArg Item.attached (Except.ok.inj h), hfits⟩
      | plain v => exact absurd hfits id
    · exact absurd (attach_of_not_fits hfits ▸ h) nofun
  · rintro ⟨rfl, hfits⟩
    exact attach_of_fits hfits

theorem refusal_of_hasLongInt {v : Value} (h : v.hasLongInt = true) :
    (Item.plain v).refusal = .badValue tooManyDigitsMessage := if_pos h

/-- A refusal is an invalid tag exactly if it can be written. -/
theorem refusal_tag_iff (i : Item) : (∃ why, i.refusal = .tag why) ↔ ¬ i.Unwritable := by
  cases i with
  | attached a => exact iff_of_true ⟨_, rfl⟩ id
  | plain v =>
      simp only [Item.refusal, Item.Unwritable]
      cases v.hasLongInt with
      | false => exact iff_of_true ⟨_, rfl⟩ nofun
      | true => exact iff_of_false nofun fun hnot => hnot rfl

theorem not_fits_of_unwritable {i : Item} (h : i.Unwritable) : ¬ i.Fits := by
  cases i with
  | attached a => exact absurd h id
  | plain v => exact id

/-! ## One stack -/

section Stack

variable {specs : List TagSpec}

theorem stack_ok_iff {tags : List Attached} :
    stack specs = .ok tags ↔ List.Forall₂ Writes specs tags := by
  -- All are made before any is accepted, but each item depends on its own tag alone.
  refine bind_ok_iff.trans ?_
  simp only [mapM_ok_iff]
  induction specs generalizing tags with
  | nil =>
      constructor
      · rintro ⟨_, ⟨⟩, ⟨⟩⟩
        exact .nil
      · rintro ⟨⟩
        exact ⟨[], .nil, .nil⟩
  | cons spec specs ih =>
      constructor
      · rintro ⟨_, hmade, htags⟩
        cases hmade with
        | cons hitem hmade =>
            cases htags with
            | cons hattach htags =>
                obtain ⟨rfl, hfits⟩ := attach_ok_iff.mp hattach
                exact .cons ⟨hitem, hfits⟩ (ih.mp ⟨_, hmade, htags⟩)
      · intro h
        cases h with
        | cons hwrites hrest =>
            obtain ⟨items, hmade, htags⟩ := ih.mpr hrest
            exact ⟨_, .cons hwrites.1 hmade, .cons (attach_ok_iff.mpr ⟨rfl, hwrites.2⟩) htags⟩

theorem not_writes_of_foreign {spec : TagSpec} (h : spec.Foreign) (a : Attached) :
    ¬ spec.Writes a := by
  rintro ⟨hitem, k, hk⟩
  cases spec with
  | make kind data =>
      have hnone : Kind.ofName? kind = none := Kind.ofName?_eq_none_iff.mpr h
      simp [item, Tag.makeNamed, hnone, Except.map] at hitem
  | bare kind =>
      obtain rfl := Item.attached.inj (Except.ok.inj hitem)
      exact h k hk
  | plain v => exact absurd (Except.ok.inj hitem) nofun

/-- What cannot be made is an invalid tag, unless it breaks its kind. -/
theorem item_error_tag_iff {spec : TagSpec} {e : Failure} (h : spec.item = .error e) :
    (∃ why, e = .tag why) ↔ ¬ spec.Breaks := by
  cases spec with
  | make kind data =>
      have hmake : Tag.makeNamed kind data = .error e := by
        cases hmade : Tag.makeNamed kind data with
        | ok t => simp [item, hmade, Except.map] at h
        | error e' => simpa [item, hmade, Except.map] using h
      unfold Tag.makeNamed at hmake
      cases hk : Kind.ofName? kind with
      | none =>
          rw [hk] at hmake
          refine iff_of_true ⟨_, (Except.error.inj hmake).symm⟩ ?_
          rintro ⟨k, hname, -⟩
          exact Kind.ofName?_eq_none_iff.mp hk k hname
      | some k =>
          obtain rfl := Tag.name_of_ofName? hk
          rw [hk] at hmake
          -- Making a tag settles unless the data breaks the kind.
          have hsettled : Tag.Settled k.name (Tag.make k data) ↔ ∃ why, e = .tag why := by
            simp [Tag.Settled, show Tag.make k data = .error e from hmake]
          rw [← hsettled, Tag.settled_make_iff, Breaks]
          exact not_congr ⟨fun h => ⟨k, rfl, h⟩, fun ⟨l, hl, h⟩ => Kind.name_inj hl ▸ h⟩
  | bare kind => exact absurd h nofun
  | plain v => exact absurd h nofun

theorem item_of_breaks {spec : TagSpec} (h : spec.Breaks) : spec.item = .error .wrongType := by
  cases spec with
  | make kind data =>
      obtain ⟨k, rfl, hbreaks⟩ := h
      have hmake : Tag.makeNamed k.name data = .error .wrongType := by
        unfold Tag.makeNamed
        rw [Kind.ofName?_name]
        exact Tag.make_wrongType_iff.mpr hbreaks
      rw [item, hmake]
      rfl
  | bare kind => exact absurd h id
  | plain v => exact absurd h id

/-- Something other than an invalid tag ends the stack: the first of its tags that cannot
be made breaks its kind, or all are made and the first one that does not fit cannot be
written. -/
def Obstructed (specs : List TagSpec) : Prop :=
  (∃ before spec after, specs = before ++ spec :: after ∧
    (∀ made ∈ before, ∃ i, made.item = .ok i) ∧ spec.Breaks) ∨
  ∃ before i after, specs.mapM item = .ok (before ++ i :: after) ∧
    (∀ j ∈ before, j.Fits) ∧ i.Unwritable

theorem stack_error_of_obstructed (h : Obstructed specs) :
    ∃ e, stack specs = .error e ∧ ¬ ∃ why, e = .tag why := by
  rcases h with ⟨before, spec, after, hspecs, hbefore, hbreaks⟩ |
    ⟨before, i, after, hmade, hbefore, hi⟩
  · have hitems : specs.mapM item = .error .wrongType :=
      mapM_error_iff.mpr ⟨before, spec, after, hspecs, hbefore, item_of_breaks hbreaks⟩
    exact ⟨.wrongType, bind_error_iff.mpr (.inl hitems), nofun⟩
  · have hattach : (before ++ i :: after).mapM Item.attach = .error i.refusal :=
      mapM_error_iff.mpr ⟨before, i, after, rfl, fun j hj => attach_ok_of_fits (hbefore j hj),
        attach_of_not_fits (not_fits_of_unwritable hi)⟩
    exact ⟨i.refusal, bind_error_iff.mpr (.inr ⟨_, hmade, hattach⟩),
      fun hwhy => (refusal_tag_iff i).mp hwhy hi⟩

theorem obstructed_of_stack_error {e : Failure} (h : stack specs = .error e)
    (hother : ¬ ∃ why, e = .tag why) : Obstructed specs := by
  rcases bind_error_iff.mp h with hitems | ⟨items, hmade, hattach⟩
  · obtain ⟨before, spec, after, hspecs, hbefore, hspec⟩ := mapM_error_iff.mp hitems
    refine .inl ⟨before, spec, after, hspecs, hbefore, ?_⟩
    by_contra hbreaks
    exact hother ((item_error_tag_iff hspec).mpr hbreaks)
  · obtain ⟨before, i, after, rfl, hbefore, hi⟩ := mapM_error_iff.mp hattach
    refine .inr ⟨before, i, after, hmade, fun j hj => ?_, ?_⟩
    · obtain ⟨a, ha⟩ := hbefore j hj
      exact (attach_ok_iff.mp ha).2
    · by_contra hwritable
      have hfits : ¬ i.Fits := fun hfits => by
        obtain ⟨a, ha⟩ := attach_ok_of_fits hfits
        exact absurd (hi ▸ ha) nofun
      obtain rfl := Except.error.inj (attach_of_not_fits hfits ▸ hi)
      exact hother ((refusal_tag_iff i).mpr hwritable)

/-- A stack with something foreign in it is refused, with an invalid tag unless something
else ends it before. -/
theorem stack_refused (h : ∃ spec ∈ specs, spec.Foreign) :
    ∃ e, stack specs = .error e ∧ ((∃ why, e = .tag why) ↔ ¬ Obstructed specs) := by
  cases hstack : stack specs with
  | ok tags =>
      -- What is accepted as a whole has nothing foreign in it.
      obtain ⟨spec, hspec, hforeign⟩ := h
      have hwrites := stack_ok_iff.mp hstack
      obtain ⟨a, ha⟩ : ∃ a, spec.Writes a :=
        forall_mem_of_forall₂ (P := fun spec => ∃ a, spec.Writes a) hwrites.flip
          (fun a _ _ ha => ⟨a, ha⟩) spec hspec
      exact absurd ha (not_writes_of_foreign hforeign a)
  | error e =>
      refine ⟨e, rfl, ?_, ?_⟩
      · intro hwhy hobstructed
        obtain ⟨e', he', hother⟩ := stack_error_of_obstructed hobstructed
        obtain rfl := Except.error.inj (hstack.symm.trans he')
        exact hother hwhy
      · intro hfree
        by_contra hother
        exact hfree (obstructed_of_stack_error hstack hother)

end Stack

/-! ## Stacks above a holder -/

/-- What changes the tags of a holder and may be refused on the way. -/
abbrev Holding := ExceptT Failure (StateM (List Attached))

/-- One stack put above a holder: once all of it is accepted, its tags go in front. -/
def annotate (specs : List TagSpec) : Holding Unit := do
  let own ← ExceptT.mk (pure (stack specs))
  modify fun held => own ++ held

/-- Stacks put above a holder, the last one first, until one is refused. -/
def decorate : List (List TagSpec) → Holding Unit
  | [] => pure ()
  | specs :: rest => do
    decorate rest
    annotate specs

section Decorate

variable {specs : List (List TagSpec)} {tags : List (List Attached)}

theorem run_annotate_ok {specs : List TagSpec} {own : List Attached} (h : stack specs = .ok own)
    (held : List Attached) : (annotate specs).run.run held = (.ok (), own ++ held) := by
  unfold annotate
  rw [h]
  rfl

/-- A stack that is refused leaves the holder as it was. -/
theorem run_annotate_error {specs : List TagSpec} {e : Failure} (h : stack specs = .error e)
    (held : List Attached) : (annotate specs).run.run held = (.error e, held) := by
  unfold annotate
  rw [h]
  rfl

theorem run_decorate_cons_ok {rest : List (List TagSpec)} {held below : List Attached}
    (h : (decorate rest).run.run held = (.ok (), below)) (specs : List TagSpec) :
    (decorate (specs :: rest)).run.run held = (annotate specs).run.run below := by
  rw [decorate, ExceptT.run_bind, StateT.run_bind, h]
  rfl

theorem run_decorate_cons_error {rest : List (List TagSpec)} {held below : List Attached}
    {e : Failure} (h : (decorate rest).run.run held = (.error e, below)) (specs : List TagSpec) :
    (decorate (specs :: rest)).run.run held = (.error e, below) := by
  rw [decorate, ExceptT.run_bind, StateT.run_bind, h]
  rfl

/-- After a refusal no further stack is looked at. -/
theorem run_decorate_append_error {rest : List (List TagSpec)} {held below : List Attached}
    {e : Failure} (h : (decorate rest).run.run held = (.error e, below))
    (more : List (List TagSpec)) :
    (decorate (more ++ rest)).run.run held = (.error e, below) := by
  induction more with
  | nil => exact h
  | cons specs more ih => exact run_decorate_cons_error ih specs

/-- The tags of several layers are those of a holder that had none, once all are put on. -/
theorem layers_eq (specs : List (List TagSpec)) :
    layers specs
      = ((decorate specs).run.run []).1.map fun _ => ((decorate specs).run.run []).2 := by
  induction specs with
  | nil => rfl
  | cons own rest ih =>
      rw [layers, ih]
      obtain ⟨outcome, below, hrun⟩ : ∃ outcome below,
          (decorate rest).run.run [] = (outcome, below) := ⟨_, _, rfl⟩
      cases outcome with
      | error e =>
          rw [hrun, run_decorate_cons_error hrun]
          rfl
      | ok _ =>
          rw [hrun, run_decorate_cons_ok hrun]
          cases hown : stack own with
          | error e =>
              rw [run_annotate_error hown]
              rfl
          | ok own =>
              rw [run_annotate_ok hown]
              rfl

theorem run_decorate_of_allWritten (h : AllWritten specs tags) (held : List Attached) :
    (decorate specs).run.run held = (.ok (), tags.flatten ++ held) := by
  induction h with
  | nil => rfl
  | cons hown hrest ih =>
      rw [run_decorate_cons_ok ih, run_annotate_ok (stack_ok_iff.mpr hown), List.flatten_cons,
        List.append_assoc]

theorem layers_of_allWritten (h : AllWritten specs tags) : layers specs = .ok tags.flatten := by
  rw [layers_eq, run_decorate_of_allWritten h, List.append_nil]
  rfl

/-- Tags that are all made before any of them is attached stand in the same order. -/
theorem written_of_allWritten (h : AllWritten specs tags) : written specs = .ok tags.flatten := by
  induction h with
  | nil => rfl
  | cons hown hrest ih =>
      exact bind_ok_iff.mpr ⟨_, stack_ok_iff.mpr hown, bind_ok_iff.mpr ⟨_, ih, rfl⟩⟩

end Decorate

end TagSpec

/-! ## Holders -/

/-- The sorts of members that stacks of tags can stand above. -/
def Member.holders : List (String → List (List TagSpec) → Member) :=
  [.function, .wrapped, .property]

/-- A member under stacks is bound to something that has all their tags. -/
theorem Member.run_holder {specs : List (List TagSpec)} {tags : List Attached}
    (h : TagSpec.written specs = .ok tags) {m : String → List (List TagSpec) → Member}
    (hm : m ∈ Member.holders) (s : Surroundings) (path : String) (body : Body) (name : String) :
    ∃ b, (m name specs).run s path body = .ok (body.bind name b) ∧
      ∀ world, b.tags world = tags := by
  simp only [Member.holders, List.mem_cons, List.not_mem_nil, or_false] at hm
  rcases hm with rfl | rfl | rfl
  · exact ⟨.function tags, map_ok_iff.mpr ⟨tags, h, rfl⟩, fun _ => rfl⟩
  · exact ⟨.wrapped tags, map_ok_iff.mpr ⟨tags, h, rfl⟩, fun _ => rfl⟩
  · exact ⟨.property tags, map_ok_iff.mpr ⟨tags, h, rfl⟩, fun _ => rfl⟩

/-- Stacks above a class statement give the class their tags and change nothing else. -/
theorem ClassDecl.make_under {specs : List (List TagSpec)} {tags : List Attached}
    (h : TagSpec.written specs = .ok tags) {s : Surroundings} {lead : String}
    {around : Entries Binding} {world world' : World} {id : ClassId} {name : String}
    {bases : List String} {members : List Member}
    (hmade : (ClassDecl.mk name bases [] members).make s lead around world = .ok (world', id)) :
    ∃ before c, world' = before ++ [c] ∧ id = before.length ∧
      (ClassDecl.mk name bases specs members).make s lead around world
        = .ok (before ++ [{ c with tags := tags }], before.length) := by
  obtain ⟨none, -, hmade⟩ := bind_ok_iff.mp hmade
  obtain ⟨above, habove, hmade⟩ := bind_ok_iff.mp hmade
  obtain ⟨body, hbody, hmade⟩ := bind_ok_iff.mp hmade
  obtain ⟨ancestors, hancestors, hmade⟩ := bind_ok_iff.mp hmade
  obtain ⟨rfl, rfl⟩ := Prod.mk.inj (Except.ok.inj hmade)
  refine ⟨body.world, _, rfl, rfl, ?_⟩
  exact bind_ok_iff.mpr ⟨tags, h, bind_ok_iff.mpr ⟨above, habove, bind_ok_iff.mpr
    ⟨body, hbody, bind_ok_iff.mpr ⟨ancestors, hancestors, rfl⟩⟩⟩⟩

/-- The tags of a class that has just been made. -/
theorem Binding.tags_controller_append (before : World) (c : Controller) :
    (Binding.controller before.length).tags (before ++ [c]) = c.tags := by
  simp [Binding.tags]

namespace TagSpec

/-! ## The tags of a holder by kind -/

/-- A holder has the tags of all stacks in the order written, and reading them sorts them
by kind. -/
structure HeldInOrder (tags : List (List Attached)) (held : List Attached) : Prop where
  all : held = tags.flatten
  sorted : SortedBy Attached.kindName tags.flatten (Bag.group Attached.kindName held)

theorem heldInOrder {tags : List (List Attached)} {held : List Attached}
    (h : held = tags.flatten) : HeldInOrder tags held :=
  ⟨h, h ▸ Bag.sortedBy_group Attached.kindName tags.flatten⟩

/-- Stacks of catalog tags keep the order written, above whatever holder they stand.  A
stack with anything else in it that is put above them is refused, whatever stands further
up, and leaves the holder with the tags it has; what is raised is an invalid tag unless the
stack is obstructed. -/
theorem annotate_stacks {specs : List (List TagSpec)} {tags : List (List Attached)}
    (h : AllWritten specs tags) :
    layers specs = .ok tags.flatten ∧
      (∀ held, (decorate specs).run.run held = (.ok (), tags.flatten ++ held)) ∧
      (∀ m ∈ Member.holders, ∀ s path body name,
        ∃ b, (m name specs).run s path body = .ok (body.bind name b) ∧
          ∀ world, HeldInOrder tags (b.tags world)) ∧
      (∀ s lead around world world' id name bases members,
        (ClassDecl.mk name bases [] members).make s lead around world = .ok (world', id) →
        ∃ world'', (ClassDecl.mk name bases specs members).make s lead around world
            = .ok (world'', id) ∧ HeldInOrder tags ((Binding.controller id).tags world'')) ∧
      ∀ refused, (∃ spec ∈ refused, spec.Foreign) →
        ∃ e, ((∃ why, e = .tag why) ↔ ¬ Obstructed refused) ∧ ∀ more held,
          (decorate (more ++ refused :: specs)).run.run held
            = (.error e, tags.flatten ++ held) := by
  have hwritten := written_of_allWritten h
  refine ⟨layers_of_allWritten h, run_decorate_of_allWritten h, ?_, ?_, ?_⟩
  · intro m hm s path body name
    obtain ⟨b, hrun, htags⟩ := Member.run_holder hwritten hm s path body name
    exact ⟨b, hrun, fun world => heldInOrder (htags world)⟩
  · intro s lead around world world' id name bases members hclass
    obtain ⟨before, c, -, rfl, hunder⟩ := ClassDecl.make_under hwritten hclass
    exact ⟨_, hunder, heldInOrder (Binding.tags_controller_append before _)⟩
  · intro refused hforeign
    obtain ⟨e, hstack, hwhy⟩ := stack_refused hforeign
    refine ⟨e, hwhy, fun more held => ?_⟩
    -- The stacks below are put on first, and those further up are not reached.
    have hrun : (decorate (refused :: specs)).run.run held = (.error e, tags.flatten ++ held) := by
      rw [run_decorate_cons_ok (run_decorate_of_allWritten h held), run_annotate_error hstack]
    exact run_decorate_append_error hrun more

/-- A tag with nothing but a key. -/
def keyed (kind key : String) : TagSpec := .make kind [("key", .string key)]

/-- Two stacks of mixed kinds above a class and above a property, and above them a stack
whose second tag is of no known kind. -/
theorem annotate_stacks_mixedKinds :
    let specs := [[keyed "Di" "a", keyed "Context" "b"], [.bare "Api", keyed "Di" "c"]]
    let tags : List (List Attached) :=
      [[.tag (.di "a"), .tag (.context "b")], [.bare "Api", .tag (.di "c")]]
    let refused := [keyed "Di" "d", .bare "Ghost"]
    let s : Surroundings := ⟨"m", [], false⟩
    (∃ world, (ClassDecl.mk "A" [] specs []).make s "" [] [] = .ok (world, 0) ∧
      HeldInOrder tags ((Binding.controller 0).tags world)) ∧
    (∃ b, (Member.property "p" specs).run s "A" ⟨[], [], []⟩
        = .ok (Body.bind ⟨[], [], []⟩ "p" b) ∧ HeldInOrder tags (b.tags [])) ∧
    ∃ why, (decorate ([.plain .null] :: refused :: specs)).run.run []
      = (.error (.tag why), tags.flatten) := by
  intro specs tags refused s
  have hcatalog (k : Kind) (a : Attached) (h : a.kindName = k.name) : (Item.attached a).Fits :=
    ⟨k, h.symm⟩
  have hwritten : AllWritten specs tags :=
    .cons (.cons ⟨rfl, hcatalog .di _ rfl⟩ (.cons ⟨rfl, hcatalog .context _ rfl⟩ .nil))
      (.cons (.cons ⟨rfl, hcatalog .api _ rfl⟩ (.cons ⟨rfl, hcatalog .di _ rfl⟩ .nil)) .nil)
  obtain ⟨-, -, hmembers, hclass, hrefused⟩ := annotate_stacks hwritten
  refine ⟨?_, ?_, ?_⟩
  · exact hclass s "" [] [] _ 0 "A" [] [] rfl
  · obtain ⟨b, hrun, htags⟩ := hmembers .property (by simp [Member.holders]) s "A" ⟨[], [], []⟩ "p"
    exact ⟨b, hrun, htags []⟩
  · have hghost : (TagSpec.bare "Ghost").Foreign :=
      Kind.ofName?_eq_none_iff.mp (show Kind.ofName? "Ghost" = none by decide)
    obtain ⟨e, hwhy, hrun⟩ := hrefused refused ⟨_, by simp [refused], hghost⟩
    have hfree : ¬ Obstructed refused := by
      intro hobstructed
      obtain ⟨e', he', hother⟩ := stack_error_of_obstructed hobstructed
      obtain rfl : .tag (.unknownKind "Ghost") = e' := Except.error.inj he'
      exact hother ⟨_, rfl⟩
    obtain ⟨why, rfl⟩ := hwhy.mpr hfree
    exact ⟨why, hrun [[.plain .null]] []⟩

/-- An integer of one digit more than may be written. -/
def longInt : Value := .int (Nat.pow 10 Value.digitLimit : Nat)

/-- A value that is no tag is refused as an invalid tag, but for an integer too long to be
written. -/
theorem annotate_obstructed :
    (annotate [plain longInt]).run.run [] = (.error (.badValue tooManyDigitsMessage), []) ∧
      (annotate [plain .null, keyed "Di" "a"]).run.run []
        = (.error (.tag (.notATag "None")), []) := by
  have hlong : longInt.hasLongInt = true := by
    rw [longInt, Value.hasLongInt, Value.tooLong, Int.natAbs_natCast]
    exact decide_eq_true (Nat.le_refl _)
  have hfits : ¬ (Item.plain longInt).Fits := id
  have hattach : (Item.plain longInt).attach = .error (.badValue tooManyDigitsMessage) := by
    rw [attach_of_not_fits hfits, refusal_of_hasLongInt hlong]
  have hmade : [plain longInt].mapM item = .ok [.plain longInt] := rfl
  have hnone : ∀ j ∈ ([] : List Item), ∃ a, j.attach = .ok a := List.forall_mem_nil _
  have hstack : stack [plain longInt] = .error (.badValue tooManyDigitsMessage) :=
    bind_error_iff.mpr
      (.inr ⟨_, hmade, mapM_error_iff.mpr ⟨[], .plain longInt, [], rfl, hnone, hattach⟩⟩)
  exact ⟨run_annotate_error hstack [], rfl⟩

end TagSpec
end Routebook
