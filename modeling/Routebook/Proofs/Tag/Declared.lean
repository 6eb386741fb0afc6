/-
  Routebook.Proofs.Tag.Declared

  The kind that the data of a tag may declare.  Reading compares it and does
  nothing else with it: data that declares the right kind is read as the data
  without it (`decodeFields_erase`), and data that declares another kind is
  never read as a tag (`declares_of_decodeFields`).  So building a tag from a
  mapping is reading its fields as part of something else
  (`build_of_kindField`).
-/
import Routebook.Proofs.Tag.RoundTrip
import Routebook.Tag.Build

namespace Routebook.Tag

variable {data : Entries Value}

/-! ## Declaring the right kind -/

theorem kindField_of_none {kind : Kind} (h : Entries.get? "kind" data = none) :
    kindField kind data = .ok () := by
  unfold kindField
  rw [h]

theorem kindField_of_name {kind : Kind}
    (h : Entries.get? "kind" data = some (.string kind.name)) : kindField kind data = .ok () := by
  unfold kindField
  rw [h]
  exact if_pos rfl

theorem kindField_erase (kind : Kind) (data : Entries Value) :
    kindField kind (Entries.erase "kind" data) = .ok () := by
  apply kindField_of_none
  rw [Entries.get?_erase, if_pos rfl]

/-- What is declared, if anything, is the name of the kind. -/
theorem get?_of_kindField {kind : Kind} (h : kindField kind data = .ok ()) :
    (Entries.get? "kind" data).getD (.string kind.name) = .string kind.name := by
  unfold kindField at h
  cases hget : Entries.get? "kind" data with
  | none => rfl
  | some v =>
      rw [hget] at h
      cases v with
      | string s =>
          by_cases hs : s = kind.name
          · rw [hs]
            rfl
          · exact absurd h (by simp [hs])
      | _ => exact absurd h (by simp)

/-! ## What the parts of a reading look at -/

section Congruences

variable {other : Entries Value}

theorem required_congr {α : Type} {name : String}
    (h : Entries.get? name other = Entries.get? name data) (read : Value → Checked α) :
    Field.required other name read = Field.required data name read := by
  unfold Field.required
  rw [h]

theorem withDefault_congr {α : Type} {name : String}
    (h : Entries.get? name other = Entries.get? name data) (default : α)
    (read : Value → Checked α) :
    Field.withDefault other name default read = Field.withDefault data name default read := by
  unfold Field.withDefault
  rw [h]

/-- Only the keys that are not known count, in their order. -/
theorem noOthers_congr {known : List String}
    (h : (other.filter fun e => !known.contains e.1) = data.filter fun e => !known.contains e.1) :
    Field.noOthers other known = Field.noOthers data known := by
  have hkeys : (Entries.keys other).filter (fun k => !known.contains k)
      = (Entries.keys data).filter fun k => !known.contains k := by
    rw [Entries.keys, Entries.keys, List.filter_map, List.filter_map]
    exact congrArg (List.map Prod.fst) h
  unfold Field.noOthers
  rw [hkeys]

/-- Rules are the given ones and the keys that are no fields. -/
theorem collectRules_congr
    (hgiven : Entries.get? "validate_rules" other = Entries.get? "validate_rules" data)
    (h : (other.filter fun e => !paramFields.contains e.1)
      = data.filter fun e => !paramFields.contains e.1) :
    collectRules other = collectRules data := by
  unfold collectRules
  rw [h, hgiven]

end Congruences

/-! ## Reading without the kind -/

theorem get?_erase_kind {name : String} (hname : name ≠ "kind") :
    Entries.get? name (Entries.erase "kind" data) = Entries.get? name data := by
  rw [Entries.get?_erase, if_neg hname]

theorem required_erase {α : Type} {name : String} (hname : name ≠ "kind")
    (read : Value → Checked α) :
    Field.required (Entries.erase "kind" data) name read = Field.required data name read :=
  required_congr (get?_erase_kind hname) read

theorem withDefault_erase {α : Type} {name : String} (hname : name ≠ "kind") (default : α)
    (read : Value → Checked α) :
    Field.withDefault (Entries.erase "kind" data) name default read
      = Field.withDefault data name default read :=
  withDefault_congr (get?_erase_kind hname) default read

/-- Keys that are filtered by a test which the kind does not pass. -/
theorem filter_erase {p : String → Bool} (hp : p "kind" = false) :
    (Entries.erase "kind" data).filter (fun e => p e.1) = data.filter fun e => p e.1 := by
  unfold Entries.erase
  rw [List.filter_filter]
  apply List.filter_congr
  intro e _
  by_cases he : e.1 = "kind"
  · simp [he, hp]
  · simp [he]

theorem noOthers_erase {known : List String} (hknown : "kind" ∈ known) :
    Field.noOthers (Entries.erase "kind" data) known = Field.noOthers data known :=
  noOthers_congr (filter_erase (p := fun k => !known.contains k) (by simpa using hknown))

theorem collectRules_erase : collectRules (Entries.erase "kind" data) = collectRules data :=
  collectRules_congr (get?_erase_kind (by decide))
    (filter_erase (p := fun k => !paramFields.contains k) (by decide))

/-- Data that declares the right kind is read as the data without the kind. -/
theorem decodeFields_erase {kind : Kind} (h : kindField kind data = .ok ()) :
    decodeFields kind (Entries.erase "kind" data) = decodeFields kind data := by
  have hsources : sourcesField (Entries.erase "kind" data) = sourcesField data := by
    simp (disch := decide) only [sourcesField, Entries.has_erase_of_ne, withDefault_erase]
  have hone : oneSourceKey (Entries.erase "kind" data) = oneSourceKey data := by
    simp (disch := decide) only [oneSourceKey, Entries.has_erase_of_ne]
  cases kind <;>
    simp (disch := decide) only [decodeFields, decodeApi, decodeDescription, decodeGroup,
      decodeParam, decodeMethod, decodeCircuitBreaker, decodeKey, decodeInjectParams,
      kindField_erase, h, required_erase, withDefault_erase, noOthers_erase, collectRules_erase,
      hsources, hone]

/-! ## Declaring another kind -/

theorem kindField_of_decodeFields {kind : Kind} {t : Tag} (h : decodeFields kind data = .ok t) :
    kindField kind data = .ok () := by
  cases kind <;>
    simp only [decodeFields, decodeApi, decodeDescription, decodeGroup, decodeParam,
      decodeMethod, decodeCircuitBreaker, decodeKey, decodeInjectParams, Checked.map_ok_iff,
      Checked.andThen_ok_iff, Checked.seqLeft_ok_iff, Checked.seqRight_ok_iff] at h
  case param k =>
      obtain ⟨p, ⟨rules, -, ⟨⟨⟨⟨⟩, hkind⟩, -⟩, -⟩⟩, -⟩ := h
      exact hkind
  all_goals
    obtain ⟨a, ⟨⟨⟨⟨⟩, hkind⟩, -⟩, -⟩, -⟩ := h
    exact hkind

/-- Whatever is read as a tag of a kind declares that kind, if it declares one. -/
theorem declares_of_decodeFields {kind : Kind} {t : Tag} {v : Value}
    (hv : Entries.get? "kind" data = some v) (h : decodeFields kind data = .ok t) :
    v = .string kind.name := by
  have hkind := get?_of_kindField (kindField_of_decodeFields h)
  rwa [hv, Option.getD_some] at hkind

/-! ## The constructor -/

/-- Without the reserved name, making a tag is reading its fields. -/
theorem make_of_unreserved {kind : Kind} (hself : Entries.has reservedKey data = false) :
    make kind data =
      match decodeFields kind data with
      | .ok t => .ok t
      | .faulty faults => .error (.tag (.fields kind faults))
      | .wrongType => .error .wrongType := by
  unfold make decode guarded
  rw [hself]
  rfl

theorem decodeFields_of_make {kind : Kind} {t : Tag} (h : make kind data = .ok t) :
    decodeFields kind data = .ok t := by
  cases hself : Entries.has reservedKey data with
  | true =>
      unfold make decode guarded at h
      rw [hself] at h
      exact absurd h nofun
  | false =>
      rw [make_of_unreserved hself] at h
      cases hread : decodeFields kind data with
      | ok t' =>
          rw [hread] at h
          exact congrArg Checked.ok (Except.ok.inj h)
      | _ =>
          rw [hread] at h
          exact absurd h nofun

/-! ## Building from a mapping -/

/-- Only a string equals a string. -/
theorem eq_string_of_same {v : Value} {s : String} (h : v.same (.string s) = true) :
    v = .string s := by
  cases v with
  | string w => simpa [Value.same, Value.sameWith] using h
  | _ => exact absurd h (by simp [Value.same, Value.sameWith, Value.number?])

theorem same_string (s : String) : (Value.string s).same (.string s) = true := by
  simp [Value.same, Value.sameWith]

/-- Building from data that declares the right kind, or none, is reading the
fields as part of something else: what is wrong with them is one fault. -/
theorem build_of_kindField {kind : Kind} (h : kindField kind data = .ok ())
    (hself : Entries.has reservedKey data = false) :
    build kind.name data =
      match decodeFields kind data with
      | .ok t => .ok t
      | .faulty faults => .error (.tag (.fields kind [.mk [] (.invalidTag kind faults)]))
      | .wrongType => .error .wrongType := by
  have hself' : Entries.has reservedKey (Entries.erase "kind" data) = false := by
    rw [Entries.has_erase_of_ne (by decide), hself]
  unfold build
  rw [Kind.ofName?_name]
  simp only [get?_of_kindField h, same_string, if_true]
  unfold decodeNested nested guarded
  rw [hself', decodeFields_erase h]
  cases decodeFields kind data <;> rfl

/-- From data that declares another kind nothing is built. -/
theorem build_of_otherKind {kind : Kind} {v : Value} (hv : Entries.get? "kind" data = some v)
    (hother : v ≠ .string kind.name) (t : Tag) : build kind.name data ≠ .ok t := by
  have hsame : v.same (.string kind.name) = false := by
    cases hs : v.same (.string kind.name) with
    | false => rfl
    | true => exact absurd (eq_string_of_same hs) hother
  unfold build
  rw [Kind.ofName?_name]
  simp only [hv, Option.getD_some, hsame, Bool.false_eq_true, if_false]
  split
  · exact nofun
  · exact nofun

end Routebook.Tag
