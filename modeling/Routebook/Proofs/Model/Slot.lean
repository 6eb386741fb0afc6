/-
  Routebook.Proofs.Model.Slot

  A tag among the data of a model.  The list it stands in may hold other tags,
  the bag other lists and the model other fields (`Slot`); as long as those
  can be read, reading the model is reading the tag and putting it where it
  was given (`Slot.property_around`, `Slot.method_around`).
-/
import Routebook.Model.Decode
import Routebook.Proofs.Checked

namespace Routebook

/-! ## Reading around one member -/

namespace Checked

variable {α β γ : Type}

theorem map_map (f : β → γ) (g : α → β) (x : Checked α) :
    f <$> g <$> x = (fun a => f (g a)) <$> x := by
  cases x <;> rfl

theorem ok_seq (f : α → β) (x : Checked α) : Checked.ok f <*> x = f <$> x := by
  cases x <;> rfl

theorem seq_map_ok (f : α → β → γ) (x : Checked α) (b : β) :
    (f <$> x) <*> ok b = (fun a => f a b) <$> x := by
  cases x <;> rfl

theorem under_map (f : α → β) (x : Checked α) (step : Step) :
    (f <$> x).under step = f <$> x.under step := by
  cases x <;> rfl

variable {read : Value → Checked α}

/-- Items that can all be read are read as a list. -/
theorem items_of_readable {vs : List Value} (h : ∀ v ∈ vs, ∃ a, read v = .ok a) (i : Int) :
    ∃ as, items read i vs = .ok as := by
  induction vs generalizing i with
  | nil => exact ⟨[], rfl⟩
  | cons v vs ih =>
      obtain ⟨a, ha⟩ := h v List.mem_cons_self
      obtain ⟨as, has⟩ := ih (fun w hw => h w (List.mem_cons_of_mem _ hw)) (i + 1)
      exact ⟨a :: as, by rw [items, ha, has]; rfl⟩

/-- Fields that can all be read are read as entries. -/
theorem fields_of_readable {fs : Entries Value} (h : ∀ e ∈ fs, ∃ a, read e.2 = .ok a) :
    ∃ m, fields read fs = .ok m := by
  induction fs with
  | nil => exact ⟨[], rfl⟩
  | cons e fs ih =>
      obtain ⟨a, ha⟩ := h e List.mem_cons_self
      obtain ⟨m, hm⟩ := ih fun d hd => h d (List.mem_cons_of_mem _ hd)
      exact ⟨(e.1, a) :: m, by rw [fields, ha, hm]; rfl⟩

/-- Reading a list is reading one item of it, if the others can be read. -/
theorem items_around {front back : List Value} (hfront : ∀ v ∈ front, ∃ a, read v = .ok a)
    (hback : ∀ v ∈ back, ∃ a, read v = .ok a) (i : Int) :
    ∃ as bs, as.length = front.length ∧ ∀ v, items read i (front ++ v :: back)
      = (fun a => as ++ a :: bs) <$> (read v).under (.index (i + front.length)) := by
  -- The place in the list moves with every item in front.
  induction front generalizing i with
  | nil =>
      obtain ⟨bs, hbs⟩ := items_of_readable hback (i + 1)
      refine ⟨[], bs, rfl, ?_⟩
      intro v
      rw [List.nil_append, items, hbs, List.length_nil, Int.natCast_zero, Int.add_zero]
      exact seq_map_ok _ _ _
  | cons w front ih =>
      obtain ⟨a, ha⟩ := hfront w List.mem_cons_self
      obtain ⟨as, bs, hlen, hrest⟩ := ih (fun u hu => hfront u (List.mem_cons_of_mem _ hu)) (i + 1)
      refine ⟨a :: as, bs, by rw [List.length_cons, List.length_cons, hlen], ?_⟩
      intro v
      have hplace : i + 1 + (front.length : Int) = i + ((w :: front).length : Int) := by
        rw [List.length_cons]
        omega
      rw [List.cons_append, items, ha, hrest v, hplace]
      exact (ok_seq _ _).trans (map_map _ _ _)

/-- Reading an object is reading one field of it, if the others can be read. -/
theorem fields_around {before after : Entries Value}
    (hbefore : ∀ e ∈ before, ∃ a, read e.2 = .ok a) (hafter : ∀ e ∈ after, ∃ a, read e.2 = .ok a)
    (key : String) :
    ∃ m n : Entries α, Entries.keys m = Entries.keys before ∧
      ∀ v, fields read (before ++ (key, v) :: after)
        = (fun a => m ++ (key, a) :: n) <$> (read v).under (.key key) := by
  induction before with
  | nil =>
      obtain ⟨n, hn⟩ := fields_of_readable hafter
      refine ⟨[], n, rfl, ?_⟩
      intro v
      rw [List.nil_append, fields, hn]
      exact seq_map_ok _ _ _
  | cons e before ih =>
      obtain ⟨a, ha⟩ := hbefore e List.mem_cons_self
      obtain ⟨m, n, hkeys, hrest⟩ := ih fun d hd => hbefore d (List.mem_cons_of_mem _ hd)
      refine ⟨(e.1, a) :: m, n, congrArg (e.1 :: ·) hkeys, ?_⟩
      intro v
      rw [List.cons_append, fields, ha, hrest v]
      exact (ok_seq _ _).trans (map_map _ _ _)

end Checked

/-! ## A slot for a tag -/

/-- A slot for a tag among the data of a model: a place in a list, the list in
its bag, and the bag among the fields. -/
structure Slot where
  /-- The name of the model. -/
  name : String
  /-- The name under which the list stands. -/
  key : String
  /-- What stands in the list before the tag. -/
  front : List Value
  /-- What stands in the list after the tag. -/
  back : List Value
  /-- The lists of the bag before this one. -/
  before : Entries Value
  /-- The lists of the bag after this one. -/
  after : Entries Value
  /-- The other fields of the model. -/
  others : Entries Value

namespace Slot

/-- The data of the bag with a value in the slot. -/
def annotations (s : Slot) (v : Value) : Value :=
  .object (s.before ++ (s.key, .array (s.front ++ v :: s.back)) :: s.after)

/-- The data of the model with a value in the slot. -/
def model (s : Slot) (v : Value) : Value :=
  .object (("name", .string s.name) :: ("annotations", s.annotations v) :: s.others)

/-- The tag in the slot of a bag. -/
def tag? (s : Slot) (bag : Bag) : Option Tag := Bag.tag? bag s.key s.front.length

/-- Everything around the slot can be read, and its list is the first of its name. -/
structure Readable (s : Slot) : Prop where
  front : ∀ v ∈ s.front, ∃ t, Model.anyTag v = .ok t
  back : ∀ v ∈ s.back, ∃ t, Model.anyTag v = .ok t
  before : ∀ e ∈ s.before, ∃ ts, Field.list Model.anyTag e.2 = .ok ts
  after : ∀ e ∈ s.after, ∃ ts, Field.list Model.anyTag e.2 = .ok ts
  first : s.key ∉ Entries.keys s.before
  group : ∃ g, Field.withDefault s.others "group_info" GroupInfo.empty Model.groupInfo = .ok g

/-- The tag of a value, seen from the model around it. -/
def reading (s : Slot) (v : Value) : Checked Tag :=
  (((Model.anyTag v).under (.index s.front.length)).under (.key s.key)).under (.key "annotations")

variable {s : Slot}

theorem tag?_around {as bs : List Tag} {m n : Bag} (hlen : as.length = s.front.length)
    (hkeys : Entries.keys m = Entries.keys s.before) (hfirst : s.key ∉ Entries.keys s.before)
    (t : Tag) : s.tag? (m ++ (s.key, as ++ t :: bs) :: n) = some t := by
  have hm : Entries.get? s.key m = none := by
    rw [Entries.get?_eq_none_iff, hkeys]
    exact hfirst
  have htags : Bag.tags (m ++ (s.key, as ++ t :: bs) :: n) s.key = as ++ t :: bs := by
    rw [Bag.tags, Entries.get?_append, hm, Option.none_or, Entries.get?_cons, if_pos rfl]
    rfl
  have hplace : (s.front.length : Int) ≥ 0 := Int.natCast_nonneg _
  simp only [tag?, Bag.tag?, htags, if_pos hplace, Int.toNat_natCast]
  rw [← hlen, List.getElem?_append_right (Nat.le_refl _), Nat.sub_self]
  rfl

/-- Reading a bag is reading the tag in the slot. -/
theorem bag_around (h : s.Readable) :
    ∃ holding : Tag → Bag, (∀ t, s.tag? (holding t) = some t) ∧
      ∀ v, (Model.bag (s.annotations v)).under (.key "annotations")
        = holding <$> s.reading v := by
  obtain ⟨as, bs, hlen, hitems⟩ := Checked.items_around h.front h.back 0
  obtain ⟨m, n, hkeys, hfields⟩ := Checked.fields_around h.before h.after s.key
  refine ⟨fun t => m ++ (s.key, as ++ t :: bs) :: n, tag?_around hlen hkeys h.first, ?_⟩
  intro v
  -- The slot is an item of a list, and the list is an entry of the bag.
  have hlist : Field.list Model.anyTag (.array (s.front ++ v :: s.back))
      = (fun t => as ++ t :: bs) <$> (Model.anyTag v).under (.index s.front.length) := by
    rw [← Int.zero_add (s.front.length : Int)]
    exact hitems v
  have hbag : Model.bag (s.annotations v) = (fun t => m ++ (s.key, as ++ t :: bs) :: n) <$>
      ((Model.anyTag v).under (.index s.front.length)).under (.key s.key) := by
    calc Model.bag (s.annotations v)
        = (fun ts => m ++ (s.key, ts) :: n) <$>
            (Field.list Model.anyTag (.array (s.front ++ v :: s.back))).under (.key s.key) :=
          hfields _
      _ = _ := by rw [hlist, Checked.under_map, Checked.map_map]
  rw [hbag, Checked.under_map]
  rfl

/-- Reading a property is reading the tag in a slot of it. -/
theorem property_around (h : s.Readable) :
    ∃ holding : Tag → PropertyModel, (∀ t, s.tag? (holding t).bag = some t) ∧
      ∀ v, Model.property (s.model v) = holding <$> s.reading v := by
  obtain ⟨holding, htag, hbag⟩ := bag_around h
  refine ⟨fun t => ⟨s.name, holding t⟩, htag, ?_⟩
  intro v
  calc Model.property (s.model v)
      = Checked.ok (PropertyModel.mk s.name) <*>
          (Model.bag (s.annotations v)).under (.key "annotations") := rfl
    _ = _ := by rw [hbag v, Checked.ok_seq, Checked.map_map]

/-- Reading a method is reading the tag in a slot of it. -/
theorem method_around (h : s.Readable) :
    ∃ holding : Tag → MethodModel, (∀ t, s.tag? (holding t).bag = some t) ∧
      ∀ v, Model.method (s.model v) = holding <$> s.reading v := by
  obtain ⟨holding, htag, hbag⟩ := bag_around h
  obtain ⟨g, hg⟩ := h.group
  refine ⟨fun t => ⟨s.name, holding t, g⟩, htag, ?_⟩
  intro v
  calc Model.method (s.model v)
      = Checked.ok (MethodModel.mk s.name) <*>
          (Model.bag (s.annotations v)).under (.key "annotations") <*>
          Field.withDefault s.others "group_info" GroupInfo.empty Model.groupInfo := rfl
    _ = _ := by rw [hbag v, hg, Checked.ok_seq, Checked.map_map, Checked.seq_map_ok]

end Slot
end Routebook
