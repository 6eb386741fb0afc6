/-
  Routebook.Proofs.Tag.RoundTrip

  Tags read their own fields back.  Reading normalizes (`from_` and `allow`
  are put in upper case and lose repetitions, truth values among rules become
  words), so what it gives is in a normal form, `Tag.Valid`
  (`Tag.valid_of_decodeFields`); and a tag in that form is read back as it is
  (`Tag.decodeFields_fields`), whatever its kind.
-/
import Routebook.Proofs.Checked
import Routebook.Tag.Decode
import Routebook.Tag.Encode

namespace Routebook

/-! ## Normal forms -/

/-- A string, a list or an object: what a description may say. -/
def Value.isContent : Value → Bool
  | .string _ => true
  | .array _ => true
  | .object _ => true
  | _ => false

/-- A truth value. -/
def Value.isBool : Value → Bool
  | .bool _ => true
  | _ => false

/-- Sources stand once each, and no rule is a truth value. -/
structure Param.Valid (p : Param) : Prop where
  sources : p.sources.Nodup
  rules : ∀ e ∈ p.rules, e.2.isBool = false

instance (p : Param) : Decidable p.Valid :=
  decidable_of_iff (p.sources.Nodup ∧ ∀ e ∈ p.rules, e.2.isBool = false)
    ⟨fun h => ⟨h.1, h.2⟩, fun h => ⟨h.1, h.2⟩⟩

namespace Tag

/-- What every tag that was read satisfies. -/
def Valid : Tag → Prop
  | .api _ => True
  | .description _ d => d.value.isContent = true
  | .group g => g.groupName ≠ ""
  | .param _ p => p.Valid
  | .method allow => allow.Nodup ∧ allow ≠ []
  | .circuitBreaker b => b.timeout.isPositive = true
  | .context key => key ≠ ""
  | .di key => key ≠ ""
  | .injectParamsContext _ => True

instance : (t : Tag) → Decidable t.Valid
  | .api _ => inferInstanceAs (Decidable True)
  | .description _ d => inferInstanceAs (Decidable (d.value.isContent = true))
  | .group g => inferInstanceAs (Decidable (g.groupName ≠ ""))
  | .param _ p => inferInstanceAs (Decidable p.Valid)
  | .method allow => inferInstanceAs (Decidable (allow.Nodup ∧ allow ≠ []))
  | .circuitBreaker b => inferInstanceAs (Decidable (b.timeout.isPositive = true))
  | .context key => inferInstanceAs (Decidable (key ≠ ""))
  | .di key => inferInstanceAs (Decidable (key ≠ ""))
  | .injectParamsContext _ => inferInstanceAs (Decidable True)

/-! ## Closed vocabularies -/

section Members

variable {α : Type} [BEq α] [LawfulBEq α]

/-- Names of members that stand once each are read as these members. -/
theorem members_map {read : Value → Checked α} {write : α → Value}
    (h : ∀ a, read (write a) = .ok a) {acc as : List α} (hd : (acc ++ as).Nodup) :
    members read acc (as.map write) = .ok (acc ++ as) := by
  induction as generalizing acc with
  | nil => rw [List.append_nil]; rfl
  | cons a as ih =>
      -- The accumulator holds the members before this one, so it is none of them.
      have hnew : a ∉ acc := fun ha =>
        (List.nodup_append.mp hd).2.2 a ha a List.mem_cons_self rfl
      have hnext : acc ++ a :: as = acc ++ [a] ++ as := by simp
      rw [List.map_cons, members, h a]
      show members read (if acc.contains a then acc else acc ++ [a]) (as.map write) = _
      rw [if_neg (by simpa using hnew), hnext]
      exact ih (hnext ▸ hd)

/-- A member is added only if it is new. -/
theorem nodup_add {acc : List α} (hd : acc.Nodup) (a : α) :
    (if acc.contains a then acc else acc ++ [a]).Nodup := by
  split
  · exact hd
  · next hnew =>
      refine List.nodup_append.mpr ⟨hd, by simp, fun b hb c hc hbc => hnew ?_⟩
      rw [List.mem_singleton.mp hc] at hbc
      simpa [hbc] using hb

/-- Whatever the items, each member is kept once. -/
theorem nodup_of_members {read : Value → Checked α} {acc as : List α} {vs : List Value}
    (hd : acc.Nodup) (h : members read acc vs = .ok as) : as.Nodup := by
  induction vs generalizing acc with
  | nil => exact Checked.ok.inj h ▸ hd
  | cons v vs ih =>
      rw [members, Checked.andThen_ok_iff] at h
      obtain ⟨a, -, h⟩ := h
      exact ih (nodup_add hd a) h

end Members

theorem listedItems_array (vs : List Value) : listedItems (.array vs) = .ok vs := by
  cases vs <;> rfl

theorem member_name {α : Type} {what : String} {allowed : List String}
    {ofName? : String → Option α} {name : String} {a : α} (hupper : Text.upper name = name)
    (hname : ofName? name = some a) : member what allowed ofName? (.string name) = .ok a := by
  show (match ofName? (Text.upper name) with
    | some a => .ok a
    | none => .fault (.refused (.unsupported what (Text.upper name) allowed))) = Checked.ok a
  rw [hupper, hname]

theorem upper_sourceName (x : Source) : Text.upper x.name = x.name := by cases x <;> decide

theorem upper_verbName (x : Verb) : Text.upper x.name = x.name := by cases x <;> decide

theorem sourceList_names {sources : List Source} (hd : sources.Nodup) :
    sourceList (.array (sources.map fun s => .string s.name)) = .ok sources := by
  unfold sourceList
  rw [listedItems_array]
  exact members_map (fun s => member_name (upper_sourceName s) (Source.ofName?_name s)) hd

theorem verbList_names {verbs : List Verb} (hd : verbs.Nodup) (hne : verbs ≠ []) :
    verbList (.array (verbs.map fun v => .string v.name)) = .ok verbs := by
  have hread : members (member "HTTP method" (Verb.all.map Verb.name) Verb.ofName?) []
      (verbs.map fun v => .string v.name) = .ok verbs :=
    members_map (fun v => member_name (upper_verbName v) (Verb.ofName?_name v)) hd
  unfold verbList
  rw [listedItems_array]
  show (members _ [] _).andThen _ = _
  rw [hread]
  show (if verbs.isEmpty then Checked.fault (.refused .noVerb) else .ok verbs) = .ok verbs
  rw [if_neg (by simpa using hne)]

theorem nodup_of_sourceList {v : Value} {sources : List Source}
    (h : sourceList v = .ok sources) : sources.Nodup := by
  obtain ⟨vs, -, h⟩ := Checked.andThen_ok_iff.mp h
  exact nodup_of_members List.nodup_nil h

theorem valid_of_verbList {v : Value} {verbs : List Verb} (h : verbList v = .ok verbs) :
    verbs.Nodup ∧ verbs ≠ [] := by
  obtain ⟨found, hfound, h⟩ := Checked.andThen_ok_iff.mp h
  obtain ⟨vs, -, hmembers⟩ := Checked.andThen_ok_iff.mp hfound
  by_cases hne : found = []
  · subst hne
    exact absurd h (Checked.fault_ne_ok _ _)
  · rw [if_neg (by simpa using hne)] at h
    rw [← Checked.ok.inj h]
    exact ⟨nodup_of_members List.nodup_nil hmembers, hne⟩

/-! ## Rules -/

theorem isBool_literalRule (v : Value) : (literalRule v).isBool = false := by
  cases v <;> rfl

theorem literalRule_eq_self {v : Value} (h : v.isBool = false) : literalRule v = v := by
  cases v with
  | bool b => exact absurd h (by simp [Value.isBool])
  | _ => rfl

theorem givenRules_object (rules : Entries Value) :
    givenRules (.object rules) = .ok (rules.map fun e => (.string e.1, e.2)) := by
  cases rules <;> rfl

/-- Among its own fields a parameter has no key that is taken for a rule. -/
theorem collectRules_fields (kind : ParamKind) (p : Param) :
    collectRules (p.fields kind) = .ok (p.rules.map fun e => (.string e.1, e.2)) := by
  have hgiven : Entries.get? "validate_rules" (p.fields kind) = some (.object p.rules) := by
    simp [Param.fields, Entries.get?]
  have hnone : ((p.fields kind).filter fun e => !paramFields.contains e.1) = [] := by
    simp [Param.fields, paramFields]
  -- Rules under `validate_rules` come first, other keys behind them: there are none.
  unfold collectRules
  rw [hgiven, hnone]
  show Checked.map _ (givenRules (.object p.rules)) = _
  rw [givenRules_object]
  rfl

theorem checkRules_strings {rules : Entries Value} (h : ∀ e ∈ rules, e.2.isBool = false) :
    checkRules (rules.map fun e => (.string e.1, e.2)) = .ok rules := by
  induction rules with
  | nil => rfl
  | cons e rules ih =>
      rw [List.map_cons, checkRules, ih fun d hd => h d (List.mem_cons_of_mem _ hd),
        literalRule_eq_self (h e List.mem_cons_self)]
      rfl

theorem isBool_of_checkRules {given : List (Value × Value)} {rules : Entries Value}
    (h : checkRules given = .ok rules) : ∀ e ∈ rules, e.2.isBool = false := by
  induction given generalizing rules with
  | nil =>
      intro e he
      rw [← Checked.ok.inj h] at he
      exact absurd he List.not_mem_nil
  | cons kv given ih =>
      obtain ⟨k, v⟩ := kv
      unfold checkRules at h
      obtain ⟨f, rest, hthis, hrest, rfl⟩ := Checked.seq_eq_ok_iff.mp h
      cases k with
      | string key =>
          obtain rfl := Checked.ok.inj hthis
          intro e he
          rcases List.mem_cons.mp he with rfl | he
          · exact isBool_literalRule v
          · exact ih hrest e he
      | _ => exact absurd hthis (by simp [Checked.map])

/-! ## Reading the own fields back -/

theorem contentValue_of_isContent {v : Value} (h : v.isContent = true) :
    contentValue v = .ok v := by
  cases v with
  | string s => rfl
  | array items => rfl
  | object fields => rfl
  | _ => exact absurd h (by simp [Value.isContent])

theorem decodeApi_fields (a : Api) : decodeApi a.fields = .ok a := by
  simp [decodeApi, Api.fields, kindField, Field.withDefault, Entries.get?, Field.string,
    Field.bool, Field.noOthers, Entries.keys, Kind.name]

theorem decodeDescription_fields (kind : DescriptionKind) {d : Description}
    (h : d.value.isContent = true) : decodeDescription kind (d.fields kind) = .ok d := by
  have htype : contentType (.string d.type.name) = .ok d.type := by cases d.type <;> rfl
  simp [decodeDescription, Description.fields, kindField, Field.withDefault, Entries.get?,
    Field.noOthers, Entries.keys, Kind.name, contentValue_of_isContent h, htype]

theorem decodeGroup_fields {g : Group} (h : g.groupName ≠ "") : decodeGroup g.fields = .ok g := by
  simp [decodeGroup, Group.fields, kindField, Entries.get?, Field.nonEmptyString, Field.noOthers,
    Entries.keys, Kind.name, h]

theorem decodeParam_fields (kind : ParamKind) {p : Param} (h : p.Valid) :
    decodeParam kind (p.fields kind) = .ok p := by
  -- The rules are collected before any field is read.
  unfold decodeParam
  rw [collectRules_fields]
  show _ <* _ = _
  simp [Param.fields, kindField, sourcesField, oneSourceKey, Field.withDefault, Entries.get?,
    Entries.has, Field.string, Field.bool, Field.any, Kind.name, sourceList_names h.sources,
    checkRules_strings h.rules]

theorem positiveNumber_float {x : Double} (h : x.isPositive = true) :
    Field.positiveNumber (.float x) = .ok x := by
  show (if x.isPositive then Checked.ok x else .fault .notPositive) = .ok x
  rw [if_pos h]

theorem decodeCircuitBreaker_fields {b : CircuitBreaker} (h : b.timeout.isPositive = true) :
    decodeCircuitBreaker b.fields = .ok b := by
  -- Both fields are written, so no default comes in.
  have htimeout (default : Double) :
      Field.withDefault b.fields "timeout" default Field.positiveNumber = .ok b.timeout := by
    simp [CircuitBreaker.fields, Field.withDefault, Entries.get?, positiveNumber_float h]
  have haction : Field.withDefault b.fields "fail_action" none Field.optionalString
      = .ok b.failAction := by
    cases hb : b.failAction <;>
      simp [CircuitBreaker.fields, Field.withDefault, Entries.get?, Field.optionalString, hb]
  unfold decodeCircuitBreaker
  rw [htimeout, haction]
  simp [CircuitBreaker.fields, kindField, Entries.get?, Field.noOthers, Entries.keys, Kind.name]

theorem decodeInjectParams_fields (i : InjectParams) :
    decodeInjectParams i.fields = .ok i := by
  simp [decodeInjectParams, InjectParams.fields, kindField, Field.withDefault, Entries.get?,
    Field.string, Field.bool, Field.noOthers, Entries.keys, Kind.name]

theorem decodeMethod_fields {allow : List Verb} (h : Valid (.method allow)) :
    decodeMethod (fields (.method allow)) = .ok allow := by
  simp [decodeMethod, fields, kindField, Entries.get?, Field.noOthers, Entries.keys, Kind.name,
    verbList_names h.1 h.2]

theorem decodeKey_fields (kind : Kind) {key : String} (h : key ≠ "") :
    decodeKey kind [("kind", .string kind.name), ("key", .string key)] = .ok key := by
  simp [decodeKey, kindField, Entries.get?, Field.nonEmptyString, Field.noOthers, Entries.keys, h]

theorem decodeFields_fields {t : Tag} (h : t.Valid) : decodeFields t.kind t.fields = .ok t := by
  cases t with
  | api a => exact Checked.map_ok_iff.mpr ⟨a, decodeApi_fields a, rfl⟩
  | description k d => exact Checked.map_ok_iff.mpr ⟨d, decodeDescription_fields k h, rfl⟩
  | group g => exact Checked.map_ok_iff.mpr ⟨g, decodeGroup_fields h, rfl⟩
  | param k p => exact Checked.map_ok_iff.mpr ⟨p, decodeParam_fields k h, rfl⟩
  | method allow => exact Checked.map_ok_iff.mpr ⟨allow, decodeMethod_fields h, rfl⟩
  | circuitBreaker b => exact Checked.map_ok_iff.mpr ⟨b, decodeCircuitBreaker_fields h, rfl⟩
  | context key => exact Checked.map_ok_iff.mpr ⟨key, decodeKey_fields .context h, rfl⟩
  | di key => exact Checked.map_ok_iff.mpr ⟨key, decodeKey_fields .di h, rfl⟩
  | injectParamsContext i =>
      exact Checked.map_ok_iff.mpr ⟨i, decodeInjectParams_fields i, rfl⟩

theorem has_reservedKey_fields (t : Tag) : Entries.has reservedKey t.fields = false := by
  cases t <;>
    simp [fields, Api.fields, Description.fields, Group.fields, Param.fields,
      CircuitBreaker.fields, InjectParams.fields, Entries.has, Entries.get?, reservedKey]

theorem guarded_fields {α : Type} (read : Entries Value → Checked α) (t : Tag) :
    guarded read t.fields = read t.fields := by
  simp [guarded, has_reservedKey_fields]

/-- As part of something else the fields of a tag are read as they are alone. -/
theorem nested_fields {α : Type} {kind : Kind} {read : Entries Value → Checked α} (t : Tag) {a : α}
    (h : read t.fields = .ok a) : nested kind read t.fields = .ok a := by
  unfold nested
  rw [guarded_fields, h]

theorem get?_kind_fields (t : Tag) :
    Entries.get? "kind" t.fields = some (.string t.kind.name) := by
  cases t <;> rfl

/-! ## What reading gives -/

theorem guarded_ok {α : Type} {read : Entries Value → Checked α} {data : Entries Value} {a : α}
    (h : guarded read data = .ok a) : read data = .ok a := by
  unfold guarded at h
  cases hself : Entries.has reservedKey data with
  | true => simp [hself] at h
  | false => simpa [hself] using h

theorem nested_ok {α : Type} {kind : Kind} {read : Entries Value → Checked α}
    {data : Entries Value} {a : α} (h : nested kind read data = .ok a) : read data = .ok a := by
  unfold nested at h
  cases hread : guarded read data with
  | ok b => exact guarded_ok (by simpa [hread] using h)
  | faulty faults => simp [hread] at h
  | wrongType => simp [hread] at h

theorem kind_of_decodeFields {kind : Kind} {data : Entries Value} {t : Tag}
    (h : decodeFields kind data = .ok t) : t.kind = kind := by
  cases kind with
  | description k =>
      obtain ⟨d, -, rfl⟩ := Checked.map_ok_iff.mp h
      rfl
  | param k =>
      obtain ⟨p, -, rfl⟩ := Checked.map_ok_iff.mp h
      rfl
  | _ =>
      obtain ⟨x, -, rfl⟩ := Checked.map_ok_iff.mp h
      rfl

theorem isContent_of_contentValue {v w : Value} (h : contentValue v = .ok w) :
    w.isContent = true := by
  cases v with
  | string s => exact Checked.ok.inj h ▸ rfl
  | array items => exact Checked.ok.inj h ▸ rfl
  | object fields => exact Checked.ok.inj h ▸ rfl
  | _ => exact absurd h (by simp [contentValue])

theorem ne_empty_of_nonEmptyString {v : Value} {s : String} (h : Field.nonEmptyString v = .ok s) :
    s ≠ "" := by
  cases v with
  | string w =>
      by_cases hw : w = ""
      · subst hw
        exact absurd h (Checked.fault_ne_ok _ _)
      · rw [Field.nonEmptyString, if_neg hw] at h
        exact Checked.ok.inj h ▸ hw
  | _ => exact absurd h (Checked.fault_ne_ok _ _)

theorem isPositive_of_positiveNumber {v : Value} {x : Double}
    (h : Field.positiveNumber v = .ok x) : x.isPositive = true := by
  obtain ⟨y, -, h⟩ := Checked.andThen_ok_iff.mp h
  by_cases hy : y.isPositive = true
  · rw [if_pos hy] at h
    exact Checked.ok.inj h ▸ hy
  · rw [if_neg hy] at h
    exact absurd h (Checked.fault_ne_ok _ _)

theorem isPositive_ofRank {rank : Nat} (h : rank ≠ 0) :
    (Double.ofRank false rank).isPositive = true := by
  unfold Double.ofRank
  split
  · simp [Double.isPositive, h]
  · rfl

/-- Whole numbers above zero stay above zero when they are rounded. -/
theorem isPositive_ofRatio_one {n : Nat} (h : n ≠ 0) :
    (Double.ofRatio false n 1).isPositive = true := by
  apply isPositive_ofRank
  -- In units one has 1075 bits, so the scale of the rank alone is above zero.
  have hpow (k : Nat) (hk : 53 ≤ k) : 2 ^ 53 ≤ Nat.pow 2 k := Nat.pow_le_pow_right (by decide) hk
  have hunits : 2 ^ 53 ≤ Double.unitsInOne := hpow 1074 (by decide)
  have htop : 2 ^ 53 ≤ n * Double.unitsInOne / 1 := by
    rw [Nat.div_one]
    exact Nat.le_trans hunits (Nat.le_mul_of_pos_left _ (Nat.pos_of_ne_zero h))
  have hlog : 53 ≤ (n * Double.unitsInOne / 1).log2 := (Nat.le_log2 (by omega)).mpr htop
  have hscale : 0 < ((n * Double.unitsInOne / 1).log2 - 52) * Nat.pow 2 52 :=
    Nat.mul_pos (by omega) (by decide)
  exact Nat.ne_of_gt (Nat.add_pos_left hscale _)

theorem valid_of_decodeDescription {kind : DescriptionKind} {data : Entries Value}
    {d : Description} (h : decodeDescription kind data = .ok d) : d.value.isContent = true := by
  simp only [decodeDescription, Checked.seqLeft_ok_iff, Checked.seqRight_ok_iff,
    Checked.seq_ok_iff, Checked.map_ok_iff] at h
  obtain ⟨⟨-, f, type, ⟨value, hvalue, rfl⟩, -, rfl⟩, -⟩ := h
  rcases Field.withDefault_ok hvalue with rfl | ⟨v, hv⟩
  · rfl
  · exact isContent_of_contentValue hv

theorem valid_of_decodeParam {kind : ParamKind} {data : Entries Value} {p : Param}
    (h : decodeParam kind data = .ok p) : p.Valid := by
  simp only [decodeParam, Checked.andThen_ok_iff, Checked.seqLeft_ok_iff,
    Checked.seqRight_ok_iff, Checked.seq_ok_iff, Checked.map_ok_iff] at h
  -- The fields come one behind the other, the last one outermost.
  obtain ⟨given, -, ⟨⟨-, f, rules, hf, hrules, rfl⟩, -⟩⟩ := h
  obtain ⟨f, deprecated, hf, -, rfl⟩ := hf
  obtain ⟨f, default, hf, -, rfl⟩ := hf
  obtain ⟨f, description, hf, -, rfl⟩ := hf
  obtain ⟨f, type, hf, -, rfl⟩ := hf
  obtain ⟨f, sources, hf, hsources, rfl⟩ := hf
  obtain ⟨name, -, rfl⟩ := hf
  refine ⟨?_, isBool_of_checkRules hrules⟩
  -- Both spellings of the key are read by one reader, with nothing as default.
  have hlist : sources = [] ∨ ∃ v, sourceList v = .ok sources := by
    unfold sourcesField at hsources
    split at hsources <;> exact Field.withDefault_ok hsources
  rcases hlist with rfl | ⟨v, hv⟩
  · exact List.nodup_nil
  · exact nodup_of_sourceList hv

theorem valid_of_decodeCircuitBreaker {data : Entries Value} {b : CircuitBreaker}
    (h : decodeCircuitBreaker data = .ok b) : b.timeout.isPositive = true := by
  simp only [decodeCircuitBreaker, Checked.seqLeft_ok_iff, Checked.seqRight_ok_iff,
    Checked.seq_ok_iff, Checked.map_ok_iff] at h
  obtain ⟨⟨-, f, action, ⟨timeout, htimeout, rfl⟩, -, rfl⟩, -⟩ := h
  rcases Field.withDefault_ok htimeout with hdefault | ⟨v, hv⟩
  · show timeout.isPositive = true
    rw [hdefault]
    exact isPositive_ofRatio_one (by decide)
  · exact isPositive_of_positiveNumber hv

theorem ne_empty_of_decodeKey {kind : Kind} {data : Entries Value} {key : String}
    (h : decodeKey kind data = .ok key) : key ≠ "" := by
  simp only [decodeKey, Checked.seqLeft_ok_iff, Checked.seqRight_ok_iff,
    Field.required_ok_iff] at h
  obtain ⟨⟨-, v, -, hv⟩, -⟩ := h
  exact ne_empty_of_nonEmptyString hv

/-- Every tag that was read is in normal form. -/
theorem valid_of_decodeFields {kind : Kind} {data : Entries Value} {t : Tag}
    (h : decodeFields kind data = .ok t) : t.Valid := by
  -- A kind is valid by what its own field was read as; the kinds without one are always valid.
  cases kind with
  | api =>
      obtain ⟨a, -, rfl⟩ := Checked.map_ok_iff.mp h
      trivial
  | description k =>
      obtain ⟨d, hd, rfl⟩ := Checked.map_ok_iff.mp h
      exact valid_of_decodeDescription hd
  | group =>
      obtain ⟨g, hg, rfl⟩ := Checked.map_ok_iff.mp h
      simp only [decodeGroup, Checked.seqLeft_ok_iff, Checked.seqRight_ok_iff,
        Checked.map_ok_iff, Field.required_ok_iff] at hg
      obtain ⟨⟨-, name, ⟨v, -, hv⟩, rfl⟩, -⟩ := hg
      exact ne_empty_of_nonEmptyString hv
  | param k =>
      obtain ⟨p, hp, rfl⟩ := Checked.map_ok_iff.mp h
      exact valid_of_decodeParam hp
  | method =>
      obtain ⟨allow, hallow, rfl⟩ := Checked.map_ok_iff.mp h
      simp only [decodeMethod, Checked.seqLeft_ok_iff, Checked.seqRight_ok_iff,
        Field.required_ok_iff] at hallow
      obtain ⟨⟨-, v, -, hv⟩, -⟩ := hallow
      exact valid_of_verbList hv
  | circuitBreaker =>
      obtain ⟨b, hb, rfl⟩ := Checked.map_ok_iff.mp h
      exact valid_of_decodeCircuitBreaker hb
  | context =>
      obtain ⟨key, hkey, rfl⟩ := Checked.map_ok_iff.mp h
      exact ne_empty_of_decodeKey hkey
  | di =>
      obtain ⟨key, hkey, rfl⟩ := Checked.map_ok_iff.mp h
      exact ne_empty_of_decodeKey hkey
  | injectParamsContext =>
      obtain ⟨i, -, rfl⟩ := Checked.map_ok_iff.mp h
      trivial

end Tag
end Routebook
