/-
  Routebook.Proofs.Tag.Faults

  The faults that reading the fields of a tag reports.  A reading that fails
  has at least one fault, and each of them is about a field: none reports the
  faults of a tag inside (`Checked.Plain`).  Reading combines readers in a few
  ways, and each of them keeps this, so it is shown of the readers for single
  fields and carried up to all kinds (`plain_decodeFields`).
-/
import Routebook.Tag.Decode

namespace Routebook

/-- Whether a cause reports the faults of a tag inside. -/
def Cause.isNested : Cause → Bool
  | .invalidTag _ _ => true
  | _ => false

mutual
/-- The faults at the bottom of a fault: those of the tag it reports, or itself. -/
def Fault.innermost : Fault → List Fault
  | .mk _ (.invalidTag _ faults) => Fault.innermostAll faults
  | .mk path cause => [.mk path cause]

/-- The faults at the bottom of some faults, in order. -/
def Fault.innermostAll : List Fault → List Fault
  | [] => []
  | f :: fs => f.innermost ++ Fault.innermostAll fs
end

theorem Fault.innermost_of_plain {f : Fault} (h : f.cause.isNested = false) :
    f.innermost = [f] := by
  obtain ⟨path, cause⟩ := f
  cases cause with
  | invalidTag kind faults => exact absurd h (by simp [Fault.cause, Cause.isNested])
  | _ => rfl

theorem Fault.innermostAll_of_plain {fs : List Fault} (h : ∀ f ∈ fs, f.cause.isNested = false) :
    Fault.innermostAll fs = fs := by
  induction fs with
  | nil => rfl
  | cons f fs ih =>
      rw [Fault.innermostAll, Fault.innermost_of_plain (h f List.mem_cons_self),
        ih fun g hg => h g (List.mem_cons_of_mem _ hg)]
      rfl

/-- A single fault that reports some faults of fields has them at its bottom. -/
theorem Fault.innermostAll_singleton {fs : List Fault} (h : ∀ f ∈ fs, f.cause.isNested = false)
    (path : List Step) (kind : Kind) :
    Fault.innermostAll [.mk path (.invalidTag kind fs)] = fs := by
  show Fault.innermostAll fs ++ [] = fs
  rw [List.append_nil, Fault.innermostAll_of_plain h]

namespace Checked

variable {α β : Type}

/-- A reading that fails has a fault, and all its faults are about fields. -/
def Plain : Checked α → Prop
  | .faulty faults => faults ≠ [] ∧ ∀ f ∈ faults, f.cause.isNested = false
  | _ => True

theorem plain_ok (a : α) : (ok a).Plain := trivial

theorem plain_faultAt (path : List Step) {cause : Cause} (h : cause.isNested = false) :
    (faulty [.mk path cause] : Checked α).Plain := by
  refine ⟨List.cons_ne_nil _ _, ?_⟩
  intro f hf
  rw [List.mem_singleton.mp hf]
  exact h

theorem plain_fault {cause : Cause} (h : cause.isNested = false) :
    (fault cause : Checked α).Plain := plain_faultAt [] h

/-! ## Combined readings -/

theorem Plain.map {x : Checked α} (hx : x.Plain) (f : α → β) : (f <$> x).Plain := by
  cases x with
  | faulty fs => exact hx
  | _ => trivial

theorem Plain.seq {f : Checked (α → β)} {x : Checked α} (hf : f.Plain) (hx : x.Plain) :
    (Checked.seq f x).Plain := by
  cases f with
  | wrongType => trivial
  | ok g =>
      cases x with
      | faulty fs => exact hx
      | _ => trivial
  | faulty fs =>
      cases x with
      | wrongType => trivial
      | ok a => exact hf
      | faulty gs =>
          refine ⟨fun h => hf.1 (List.append_eq_nil_iff.mp h).1, ?_⟩
          intro e he
          rcases List.mem_append.mp he with he | he
          · exact hf.2 e he
          · exact hx.2 e he

theorem Plain.seqRight {x : Checked α} {y : Checked β} (hx : x.Plain) (hy : y.Plain) :
    (x *> y).Plain :=
  (hx.map _).seq hy

theorem Plain.seqLeft {x : Checked α} {y : Checked β} (hx : x.Plain) (hy : y.Plain) :
    (x <* y).Plain :=
  (hx.map _).seq hy

theorem Plain.andThen {x : Checked α} {f : α → Checked β} (hx : x.Plain)
    (hf : ∀ a, (f a).Plain) : (x.andThen f).Plain := by
  cases x with
  | ok a => exact hf a
  | faulty fs => exact hx
  | wrongType => trivial

theorem Plain.under {x : Checked α} (hx : x.Plain) (step : Step) : (x.under step).Plain := by
  cases x with
  | faulty fs =>
      refine ⟨fun h => hx.1 (List.map_eq_nil_iff.mp h), ?_⟩
      intro f hf
      obtain ⟨⟨path, cause⟩, hg, rfl⟩ := List.mem_map.mp hf
      exact hx.2 (.mk path cause) hg
  | _ => trivial

end Checked

open Checked

namespace Field

variable {α : Type} {data : Entries Value} {read : Value → Checked α}

/-! ## Fields -/

theorem plain_required (name : String) (h : ∀ v, (read v).Plain) :
    (required data name read).Plain := by
  unfold required
  split
  · next v _ => exact (h v).under _
  · exact plain_faultAt _ rfl

theorem plain_withDefault (name : String) (default : α) (h : ∀ v, (read v).Plain) :
    (withDefault data name default read).Plain := by
  unfold withDefault
  split
  · next v _ => exact (h v).under _
  · trivial

theorem plain_noOthers (known : List String) : (noOthers data known).Plain := by
  unfold noOthers
  split
  · trivial
  · next others hne =>
      refine ⟨fun h => hne (List.map_eq_nil_iff.mp h), ?_⟩
      intro f hf
      obtain ⟨k, -, rfl⟩ := List.mem_map.mp hf
      rfl

theorem plain_string (v : Value) : (string v).Plain := by
  fun_cases string v with
  | case1 s => exact plain_ok s
  | case2 => exact plain_fault rfl

theorem plain_nonEmptyString (v : Value) : (nonEmptyString v).Plain := by
  fun_cases nonEmptyString v with
  | case2 s => exact plain_ok s
  | _ => exact plain_fault rfl

theorem plain_optionalString (v : Value) : (optionalString v).Plain := by
  fun_cases optionalString v with
  | case3 => exact plain_fault rfl
  | _ => exact plain_ok _

theorem plain_bool (v : Value) : (Field.bool v).Plain := by
  fun_cases Field.bool v with
  | case4 | case5 | case8 | case10 | case11 => exact plain_fault rfl
  | _ => exact plain_ok _

/-- A number is read, or there is one fault of the field itself. -/
theorem number_cases (v : Value) :
    (∃ x, number v = .ok x) ∨ ∃ cause, cause.isNested = false ∧ number v = .fault cause := by
  -- The cases are those of the definition, with its conversions left closed:
  -- opened at an integer they would be computed in units of `2^(-1074)`.
  fun_cases number v with
  | case4 | case6 | case7 => exact .inr ⟨_, rfl, rfl⟩
  | _ => exact .inl ⟨_, rfl⟩

theorem plain_number (v : Value) : (number v).Plain := by
  rcases number_cases v with ⟨x, hx⟩ | ⟨cause, hcause, hfault⟩
  · rw [hx]
    exact plain_ok x
  · rw [hfault]
    exact plain_fault hcause

theorem plain_positiveNumber (v : Value) : (positiveNumber v).Plain := by
  apply (plain_number v).andThen
  intro x
  split
  · trivial
  · exact plain_fault rfl

theorem plain_any (v : Value) : (any v).Plain := trivial

end Field

namespace Tag

open Routebook.Field

/-! ## Closed vocabularies -/

theorem plain_listedItems (v : Value) : (listedItems v).Plain := by
  unfold listedItems
  split
  · trivial
  · split <;> trivial

theorem plain_member {α : Type} (what : String) (allowed : List String)
    (ofName? : String → Option α) (v : Value) : (member what allowed ofName? v).Plain := by
  unfold member
  split
  · exact plain_fault rfl
  · simp only
    split
    · trivial
    · exact plain_fault rfl

theorem plain_members {α : Type} [BEq α] {read : Value → Checked α} (h : ∀ v, (read v).Plain)
    (acc : List α) (vs : List Value) : (members read acc vs).Plain := by
  induction vs generalizing acc with
  | nil => trivial
  | cons v vs ih => exact (h v).andThen fun a => ih _

theorem plain_sourceList (v : Value) : (sourceList v).Plain :=
  (plain_listedItems v).andThen fun vs => plain_members (plain_member _ _ _) [] vs

theorem plain_verbList (v : Value) : (verbList v).Plain := by
  apply Plain.andThen
  · exact (plain_listedItems v).andThen fun vs => plain_members (plain_member _ _ _) [] vs
  · intro verbs
    split
    · exact plain_fault rfl
    · trivial

/-! ## Rules -/

theorem plain_rulePair (position : Nat) (item : Value) : (rulePair position item).Plain := by
  unfold rulePair
  simp only
  split
  · trivial
  · split <;> trivial
  · exact plain_fault rfl

theorem plain_ruleSequence (acc : List (Value × Value)) (i : Nat) (items : List Value) :
    (ruleSequence acc i items).Plain := by
  induction items generalizing acc i with
  | nil => trivial
  | cons item rest ih => exact (plain_rulePair i item).andThen fun p => ih _ _

theorem plain_givenRules (v : Value) : (givenRules v).Plain := by
  unfold givenRules
  split
  · trivial
  · split
    · trivial
    · exact plain_ruleSequence _ _ _
    · exact plain_ruleSequence _ _ _
    · trivial

theorem plain_collectRules (data : Entries Value) : (collectRules data).Plain :=
  (plain_givenRules _).map _

theorem plain_checkRules (rules : List (Value × Value)) : (checkRules rules).Plain := by
  induction rules with
  | nil => trivial
  | cons r rules ih =>
      obtain ⟨k, v⟩ := r
      cases k with
      | string s => exact ((plain_ok (s, literalRule v)).map List.cons).seq ih
      | _ => exact ((plain_faultAt _ rfl).map List.cons).seq ih

/-! ## The kinds

Every kind applies its constructor to its fields from left to right, so each
proof below has one rule for each field that the kind reads. -/

variable {data : Entries Value}

theorem plain_kindField (kind : Kind) : (kindField kind data).Plain := by
  unfold kindField
  split
  · trivial
  · split
    · trivial
    · exact plain_faultAt _ rfl
  · exact plain_faultAt _ rfl

theorem plain_contentValue (v : Value) : (contentValue v).Plain := by
  unfold contentValue
  split
  · trivial
  · trivial
  · trivial
  · -- A value of no type that fits has a fault for each of the three.
    exact ⟨List.cons_ne_nil _ _, by simp [Fault.cause, Cause.isNested]⟩

theorem plain_contentType (v : Value) : (contentType v).Plain := by
  unfold contentType
  split
  · trivial
  · trivial
  · exact plain_fault rfl

theorem plain_sourcesField : (sourcesField data).Plain := by
  unfold sourcesField
  split <;> exact plain_withDefault _ _ plain_sourceList

theorem plain_oneSourceKey : (oneSourceKey data).Plain := by
  unfold oneSourceKey
  split
  · exact plain_faultAt _ rfl
  · trivial

theorem plain_decodeApi : (decodeApi data).Plain :=
  (plain_kindField _).seqRight
    ((((((plain_required _ plain_string).map _).seq (plain_required _ plain_string)).seq
      (plain_withDefault _ _ plain_string)).seq (plain_withDefault _ _ plain_string)).seq
      (plain_withDefault _ _ plain_bool))
    |>.seqLeft (plain_noOthers _)

theorem plain_decodeDescription (kind : DescriptionKind) : (decodeDescription kind data).Plain :=
  (plain_kindField _).seqRight
    (((plain_withDefault _ _ plain_contentValue).map _).seq
      (plain_withDefault _ _ plain_contentType))
    |>.seqLeft (plain_noOthers _)

theorem plain_decodeParam (kind : ParamKind) : (decodeParam kind data).Plain := by
  apply (plain_collectRules data).andThen
  intro rules
  have hname : (Field.required data "name" string).Plain := plain_required _ plain_string
  have hsources : (sourcesField data).Plain := plain_sourcesField
  exact (plain_kindField _).seqRight
    (((((((hname.map _).seq hsources).seq (plain_withDefault _ _ plain_string)).seq
      (plain_withDefault _ _ plain_string)).seq (plain_withDefault _ _ plain_any)).seq
      (plain_withDefault _ _ plain_bool)).seq (plain_checkRules rules))
    |>.seqLeft plain_oneSourceKey

theorem plain_decodeCircuitBreaker : (decodeCircuitBreaker data).Plain :=
  (plain_kindField _).seqRight
    (((plain_withDefault _ _ plain_positiveNumber).map _).seq
      (plain_withDefault _ _ plain_optionalString))
    |>.seqLeft (plain_noOthers _)

theorem plain_decodeKey (kind : Kind) : (decodeKey kind data).Plain :=
  ((plain_kindField _).seqRight (plain_required _ plain_nonEmptyString)).seqLeft (plain_noOthers _)

theorem plain_decodeInjectParams : (decodeInjectParams data).Plain :=
  (plain_kindField _).seqRight
    (((((plain_withDefault _ _ plain_string).map _).seq (plain_withDefault _ _ plain_bool)).seq
      (plain_withDefault _ _ plain_bool)).seq (plain_withDefault _ _ plain_bool))
    |>.seqLeft (plain_noOthers _)

/-- Whatever is wrong with the data of a tag is wrong with its fields. -/
theorem plain_decodeFields (kind : Kind) : (decodeFields kind data).Plain := by
  cases kind with
  | api => exact plain_decodeApi.map _
  | description k => exact (plain_decodeDescription k).map _
  | group =>
      exact (((plain_kindField _).seqRight
        ((plain_required _ plain_nonEmptyString).map _)).seqLeft (plain_noOthers _)).map _
  | param k => exact (plain_decodeParam k).map _
  | method =>
      exact (((plain_kindField _).seqRight
        (plain_required _ plain_verbList)).seqLeft (plain_noOthers _)).map _
  | circuitBreaker => exact plain_decodeCircuitBreaker.map _
  | context => exact (plain_decodeKey .context).map _
  | di => exact (plain_decodeKey .di).map _
  | injectParamsContext => exact plain_decodeInjectParams.map _

end Tag
end Routebook
