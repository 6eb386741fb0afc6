/-
  Routebook.Proofs.Tag.Redecoding

  Tags that were read are read again as they are.  The fields of a tag may be
  given with or without its kind, and the sources of a parameter under either
  of the two keys (`Tag.dump`); in every form building gives the tag back
  (`build_dump_of_make`).  So what reading does to given data, it does once.
-/
import Routebook.Proofs.Tag.Declared

namespace Routebook

/-- The key under which a parameter's sources are given. -/
inductive SourcesKey where
  /-- The name of the field. -/
  | field
  /-- The spelling without the underscore. -/
  | short
  deriving DecidableEq

/-- The spelling of a key. -/
def SourcesKey.name : SourcesKey → String
  | .field => "from_"
  | .short => "from"

namespace Tag

/-- The fields of a tag under the chosen key for sources. -/
def respelled (key : SourcesKey) (t : Tag) : Entries Value :=
  t.fields.map fun e => if e.1 = SourcesKey.field.name then (key.name, e.2) else e

/-- A tag as a mapping: its fields in order, with or without its kind. -/
def dump (key : SourcesKey) (named : Bool) (t : Tag) : Entries Value :=
  if named then t.respelled key else Entries.erase "kind" (t.respelled key)

/-! ## Respelled sources -/

theorem respelled_field (t : Tag) : t.respelled .field = t.fields := by
  apply map_eq_self
  intro e _
  split
  · next h => rw [← h]
  · rfl

/-- Only parameters have sources. -/
theorem respelled_of_no_sources {t : Tag} (key : SourcesKey) (h : ∀ k p, t ≠ .param k p) :
    t.respelled key = t.fields := by
  have hkey : ∀ e ∈ t.fields, e.1 ≠ SourcesKey.field.name := by
    cases t with
    | param k p => exact absurd rfl (h k p)
    | _ =>
        simp [fields, Api.fields, Description.fields, Group.fields, CircuitBreaker.fields,
          InjectParams.fields, SourcesKey.name]
  apply map_eq_self
  intro e he
  exact if_neg (hkey e he)

theorem respelled_param (kind : ParamKind) (p : Param) :
    respelled .short (.param kind p) =
      [("kind", .string kind.name), ("name", .string p.name),
       ("from", .array (p.sources.map fun s => .string s.name)), ("type", .string p.type),
       ("description", .string p.description), ("default", p.default),
       ("deprecated", .bool p.deprecated), ("validate_rules", .object p.rules)] := by
  simp [respelled, fields, Param.fields, SourcesKey.name]

theorem collectRules_short (kind : ParamKind) (p : Param) :
    collectRules (respelled .short (.param kind p))
      = .ok (p.rules.map fun e => (.string e.1, e.2)) := by
  have hgiven : Entries.get? "validate_rules" (respelled .short (.param kind p))
      = some (.object p.rules) := by
    simp [respelled_param, Entries.get?]
  have hnone : ((respelled .short (.param kind p)).filter fun e => !paramFields.contains e.1)
      = [] := by
    simp [respelled_param, paramFields]
  unfold collectRules
  rw [hgiven, hnone]
  show Checked.map _ (givenRules (.object p.rules)) = _
  rw [givenRules_object]
  rfl

/-- Sources under the other key are read as those under the name of the field. -/
theorem decodeParam_short (kind : ParamKind) {p : Param} (h : p.Valid) :
    decodeParam kind (respelled .short (.param kind p)) = .ok p := by
  unfold decodeParam
  rw [collectRules_short]
  show _ <* _ = _
  simp [respelled_param, kindField, sourcesField, oneSourceKey, Field.withDefault, Entries.get?,
    Entries.has, Field.string, Field.bool, Field.any, Kind.name, sourceList_names h.sources,
    checkRules_strings h.rules]

theorem decodeFields_respelled (key : SourcesKey) {t : Tag} (h : t.Valid) :
    decodeFields t.kind (t.respelled key) = .ok t := by
  cases key with
  | field =>
      rw [respelled_field]
      exact decodeFields_fields h
  | short =>
      cases t with
      | param k p => exact Checked.map_ok_iff.mpr ⟨p, decodeParam_short k h, rfl⟩
      | _ =>
          rw [respelled_of_no_sources _ (by simp)]
          exact decodeFields_fields h

/-! ## All forms of a dump -/

theorem get?_respelled (key : SourcesKey) {name : String} (t : Tag)
    (hname : name ≠ "from_" ∧ name ≠ "from") :
    Entries.get? name (t.respelled key) = Entries.get? name t.fields := by
  have hkey : key.name ≠ name := by
    cases key with
    | field => exact Ne.symm hname.1
    | short => exact Ne.symm hname.2
  unfold respelled
  -- Only the field of the sources changes its name.
  induction t.fields with
  | nil => rfl
  | cons e rest ih =>
      obtain ⟨k, v⟩ := e
      rw [List.map_cons, Entries.get?_cons]
      by_cases hk : k = SourcesKey.field.name
      · -- Neither spelling is the name that is looked up.
        have hne : k ≠ name := fun he => hname.1 (he ▸ hk)
        rw [if_pos hk, Entries.get?_cons, if_neg hkey, if_neg hne, ih]
      · rw [if_neg hk, Entries.get?_cons, ih]

theorem kindField_dump (key : SourcesKey) (named : Bool) (t : Tag) :
    kindField t.kind (t.dump key named) = .ok () := by
  cases named with
  | false => exact kindField_erase t.kind _
  | true =>
      apply kindField_of_name
      show Entries.get? "kind" (t.respelled key) = _
      rw [get?_respelled key t (by decide), get?_kind_fields]

theorem has_reservedKey_dump (key : SourcesKey) (named : Bool) (t : Tag) :
    Entries.has reservedKey (t.dump key named) = false := by
  have hfields : Entries.has reservedKey (t.respelled key) = false := by
    have hnot := has_reservedKey_fields t
    rwa [Entries.has, ← get?_respelled key t (by decide)] at hnot
  cases named with
  | false =>
      show Entries.has reservedKey (Entries.erase "kind" (t.respelled key)) = false
      rw [Entries.has_erase_of_ne (by decide), hfields]
  | true => exact hfields

theorem decodeFields_dump (key : SourcesKey) (named : Bool) {t : Tag} (h : t.Valid) :
    decodeFields t.kind (t.dump key named) = .ok t := by
  have hread := decodeFields_respelled key h
  cases named with
  | false =>
      show decodeFields t.kind (Entries.erase "kind" (t.respelled key)) = .ok t
      rw [decodeFields_erase (kindField_of_decodeFields hread), hread]
  | true => exact hread

/-- A tag in normal form is made, and built, from any form of its dump. -/
theorem make_dump (key : SourcesKey) (named : Bool) {t : Tag} (h : t.Valid) :
    make t.kind (t.dump key named) = .ok t := by
  rw [make_of_unreserved (has_reservedKey_dump key named t), decodeFields_dump key named h]

theorem build_dump (key : SourcesKey) (named : Bool) {t : Tag} (h : t.Valid) :
    build t.kind.name (t.dump key named) = .ok t := by
  rw [build_of_kindField (kindField_dump key named t) (has_reservedKey_dump key named t),
    decodeFields_dump key named h]

/-- A tag that a constructor has made is of the constructor's kind and in normal
form, and all forms of its dump give it back, built or made: with the same
fields, the same order of sources or verbs and the same rules in their order. -/
theorem build_dump_of_make {kind : Kind} {data : Entries Value} {t : Tag}
    (h : make kind data = .ok t) :
    t.kind = kind ∧ t.Valid ∧ ∀ key named,
      build t.kind.name (t.dump key named) = .ok t ∧ make t.kind (t.dump key named) = .ok t := by
  have hread : decodeFields kind data = .ok t := decodeFields_of_make h
  have hvalid : t.Valid := valid_of_decodeFields hread
  refine ⟨kind_of_decodeFields hread, hvalid, ?_⟩
  intro key named
  exact ⟨build_dump key named hvalid, make_dump key named hvalid⟩

/-- A parameter with sources in two cases and two rules, one of them a truth value. -/
theorem build_dump_of_make_limited :
    let data : Entries Value :=
      [("name", .string "id"), ("required", .bool true),
       ("from", .array [.string "get", .string "Post", .string "GET"]), ("lengthMax", .int 32)]
    let t : Tag := .param .param
      ⟨"id", [.get, .post], "", "", .null, false,
        [("required", .string "true"), ("lengthMax", .int 32)]⟩
    make (.param .param) data = .ok t ∧
      build "Param" (t.dump .short false) = .ok t ∧
        make (.param .param) (t.dump .field true) = .ok t := by
  intro data t
  have hmade : make (.param .param) data = .ok t := by rfl
  have hdump := (build_dump_of_make hmade).2.2
  exact ⟨hmade, (hdump .short false).1, (hdump .field true).2⟩

end Tag
end Routebook
