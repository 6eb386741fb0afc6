/-
  Routebook.Proofs.Tag.Agreement

  Three ways to a tag.  The fields of a tag go through its own constructor,
  through building from a mapping, or through a model that holds the mapping
  with its kind.  The reports differ in what they wrap around the faults of
  the fields; what is left of them (`Verdict`) does not (`verdicts_agree`).
-/
import Routebook.Proofs.Model.Slot
import Routebook.Proofs.Tag.Declared
import Routebook.Proofs.Tag.Faults

namespace Routebook

/-- What comes of the data of a tag: the tag, the faults of its fields at the
bottom of the report, or a plain type error. -/
inductive Verdict where
  | tag (t : Tag)
  | faults (fs : List Fault)
  | wrongType

namespace Verdict

/-- The verdict in an outcome, if it has one; `tag?` finds the tag in what came out. -/
def of? {α : Type} (tag? : α → Option Tag) : Outcome α → Option Verdict
  | .ok a => (tag? a).map .tag
  | .error (.tag (.fields _ fs)) => some (.faults (Fault.innermostAll fs))
  | .error (.data _ fs) => some (.faults (Fault.innermostAll fs))
  | .error .wrongType => some .wrongType
  | .error _ => none

/-- The verdict on fields that were read. -/
def ofFields : Checked Tag → Verdict
  | .ok t => .tag t
  | .faulty fs => .faults fs
  | .wrongType => .wrongType

end Verdict

namespace Tag

open Checked

variable {kind : Kind} {data : Entries Value}

/-! ## The constructor and building -/

theorem verdict_make (hself : Entries.has reservedKey data = false) :
    Verdict.of? some (make kind data) = some (Verdict.ofFields (decodeFields kind data)) := by
  have hplain : (decodeFields kind data).Plain := plain_decodeFields kind
  rw [make_of_unreserved hself]
  cases hread : decodeFields kind data with
  | faulty fs =>
      rw [hread] at hplain
      show some (Verdict.faults (Fault.innermostAll fs)) = _
      rw [Fault.innermostAll_of_plain hplain.2]
      rfl
  | _ => rfl

theorem verdict_build (hkind : kindField kind data = .ok ())
    (hself : Entries.has reservedKey data = false) :
    Verdict.of? some (build kind.name data) = some (Verdict.ofFields (decodeFields kind data)) := by
  have hplain : (decodeFields kind data).Plain := plain_decodeFields kind
  rw [build_of_kindField hkind hself]
  cases hread : decodeFields kind data with
  | faulty fs =>
      rw [hread] at hplain
      show some (Verdict.faults (Fault.innermostAll [.mk [] (.invalidTag kind fs)])) = _
      rw [Fault.innermostAll_singleton hplain.2]
      rfl
  | _ => rfl

/-! ## A model that holds the mapping -/

/-- A mapping whose kind stands somewhere among its fields is read as the rest. -/
theorem anyTag_of_kind {before after : Entries Value}
    (hkind : Entries.has "kind" (before ++ after) = false)
    (hself : Entries.has reservedKey (before ++ after) = false) :
    Model.anyTag (.object (before ++ ("kind", .string kind.name) :: after)) =
      match decodeFields kind (before ++ after) with
      | .faulty faults => .faulty [.mk [.key kind.name] (.invalidTag kind faults)]
      | other => other := by
  let whole : Entries Value := before ++ ("kind", .string kind.name) :: after
  -- The kind is found where it was put in, and taking it out leaves the rest.
  have hget : Entries.get? "kind" whole = some (.string kind.name) := by
    have hbefore : Entries.get? "kind" before = none := by
      rw [Entries.get?_eq_none_iff]
      intro hmem
      exact (Entries.has_eq_false_iff _ _).mp hkind
        (by rw [Entries.keys_append]; exact List.mem_append_left _ hmem)
    rw [Entries.get?_append, hbefore, Option.none_or, Entries.get?_cons, if_pos rfl]
  have herase : Entries.erase "kind" whole = before ++ after := by
    rw [← Entries.erase_eq_self hkind]
    simp [whole, Entries.erase]
  have hread : decodeFields kind whole = decodeFields kind (before ++ after) := by
    rw [← herase, decodeFields_erase (kindField_of_name hget)]
  have hwhole : Entries.has reservedKey whole = false := by
    have herased := Entries.has_erase_of_ne (show reservedKey ≠ "kind" by decide) whole
    rw [← herased, herase, hself]
  show Model.anyTag (.object whole) = _
  simp only [Model.anyTag, hget, Kind.ofName?_name, decodeNested, nested, guarded, hwhole,
    Bool.false_eq_true, if_false, hread]
  cases decodeFields kind (before ++ after) <;> rfl

/-- What a model that is read around a tag says of the tag. -/
theorem verdict_around {α : Type} {s : Slot} (bagOf : α → Bag) {holding : Tag → α}
    (hholding : ∀ t, s.tag? (bagOf (holding t)) = some t) (model : String)
    {before after : Entries Value} (hkind : Entries.has "kind" (before ++ after) = false)
    (hself : Entries.has reservedKey (before ++ after) = false) :
    Verdict.of? (fun a => s.tag? (bagOf a)) (Checked.toOutcome model
        (holding <$> s.reading (.object (before ++ ("kind", .string kind.name) :: after))))
      = some (Verdict.ofFields (decodeFields kind (before ++ after))) := by
  have hplain : (decodeFields kind (before ++ after)).Plain := plain_decodeFields kind
  rw [Slot.reading, anyTag_of_kind hkind hself]
  cases hread : decodeFields kind (before ++ after) with
  | ok t =>
      show (s.tag? (bagOf (holding t))).map Verdict.tag = some (.tag t)
      rw [hholding]
      rfl
  | faulty fs =>
      rw [hread] at hplain
      -- Whatever path leads to the tag, the faults at the bottom keep their own.
      show some (Verdict.faults (Fault.innermostAll [.mk _ (.invalidTag kind fs)])) = _
      rw [Fault.innermostAll_singleton hplain.2]
      rfl
  | wrongType => rfl

/-! ## Agreement -/

/-- The fields of a tag, given without its kind, come to the same verdict by
its own constructor, by building from them, and wherever in a model they stand
with the kind added; a verdict of faults has some.  Data that declares another
kind is never read as a tag. -/
theorem verdicts_agree (kind : Kind) :
    (∀ before after : Entries Value, Entries.has "kind" (before ++ after) = false →
      Entries.has reservedKey (before ++ after) = false →
      ∃ verdict, (∀ fs, verdict = .faults fs → fs ≠ []) ∧
        Verdict.of? some (make kind (before ++ after)) = some verdict ∧
        Verdict.of? some (build kind.name (before ++ after)) = some verdict ∧
        ∀ s : Slot, s.Readable →
          let data := s.model (.object (before ++ ("kind", .string kind.name) :: after))
          Verdict.of? (fun m => s.tag? m.bag)
              ((Model.property data).toOutcome "PropertyAnnotation") = some verdict ∧
            Verdict.of? (fun m => s.tag? m.bag)
              ((Model.method data).toOutcome "MethodAnnotation") = some verdict) ∧
    ∀ (data : Entries Value) (v : Value), Entries.get? "kind" data = some v →
      v ≠ .string kind.name → ∀ t, make kind data ≠ .ok t ∧ build kind.name data ≠ .ok t := by
  constructor
  · intro before after hkind hself
    have hplain : (decodeFields kind (before ++ after)).Plain := plain_decodeFields kind
    have hnone : kindField kind (before ++ after) = .ok () :=
      kindField_of_none (by simpa [Entries.has] using hkind)
    -- Each of them comes to the verdict on the fields themselves.
    refine ⟨Verdict.ofFields (decodeFields kind (before ++ after)), ?_, verdict_make hself,
      verdict_build hnone hself, ?_⟩
    · intro found hfound
      cases hread : decodeFields kind (before ++ after) with
      | faulty fs =>
          rw [hread] at hplain hfound
          exact Verdict.faults.inj hfound ▸ hplain.1
      | _ =>
          rw [hread] at hfound
          cases hfound
    · intro s hs data
      obtain ⟨asProperty, hproperty, hreadProperty⟩ := Slot.property_around hs
      obtain ⟨asMethod, hmethod, hreadMethod⟩ := Slot.method_around hs
      rw [hreadProperty, hreadMethod]
      exact ⟨verdict_around PropertyModel.bag hproperty _ hkind hself,
        verdict_around MethodModel.bag hmethod _ hkind hself⟩
  · intro data v hv hother t
    refine ⟨?_, build_of_otherKind hv hother t⟩
    intro hmade
    exact hother (declares_of_decodeFields hv (decodeFields_of_make hmade))

/-- A verb that there is not, in a list behind a tag that can be read. -/
theorem verdicts_agree_unknownVerb :
    let fields : Entries Value := [("allow", .array [.string "get", .string "nope"])]
    let slot : Slot :=
      ⟨"list", "Method", [.object [("kind", .string "Context"), ("key", .string "page")]], [],
        [("Di", .array [])], [], [("api_group", .string "shop")]⟩
    let data := slot.model (.object (fields ++ ("kind", .string "Method") :: []))
    let verdict := Verdict.faults
      [.mk [.key "allow"] (.refused (.unsupported "HTTP method" "NOPE" (Verb.all.map Verb.name)))]
    slot.Readable ∧ Verdict.of? some (make .method fields) = some verdict ∧
      Verdict.of? some (build "Method" fields) = some verdict ∧
      Verdict.of? (fun m => slot.tag? m.bag)
        ((Model.property data).toOutcome "PropertyAnnotation") = some verdict ∧
      make .method [("kind", .string "Api"), ("allow", .string "GET")] ≠ .ok (.method [.get]) := by
  intro fields slot data verdict
  have hreadable : slot.Readable := by
    refine ⟨?_, nofun, ?_, nofun, by decide, ⟨_, rfl⟩⟩
    · intro v hv
      obtain rfl := List.mem_singleton.mp hv
      exact ⟨.context "page", rfl⟩
    · intro e he
      obtain rfl := List.mem_singleton.mp he
      exact ⟨[], rfl⟩
  obtain ⟨hsame, hother⟩ := verdicts_agree .method
  obtain ⟨found, -, hmake, hbuild, hmodel⟩ := hsame fields [] rfl rfl
  have hfound : found = verdict := by
    have hmade : Verdict.of? some (make .method fields) = some verdict := by rfl
    exact Option.some.inj (hmake.symm.trans hmade)
  rw [hfound] at hmake hbuild hmodel
  exact ⟨hreadable, hmake, hbuild, (hmodel slot hreadable).1,
    (hother [("kind", .string "Api"), ("allow", .string "GET")] _ rfl (by simp [Kind.name]) _).1⟩

end Tag
end Routebook
