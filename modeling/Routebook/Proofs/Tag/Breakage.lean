/-
  Routebook.Proofs.Tag.Breakage

  Data that breaks the reading of a tag.  Almost everything that can be wrong
  with the fields of a tag becomes a fault.  But lists and rules are gone
  through before their types are looked at, and a number cannot be gone
  through; nor can a list be the key of a rule, and no field may have the
  reserved name.  There the reading ends in a plain type error, and nowhere
  else (`decode_wrongType_iff`).

  So making a tag answers with a tag of its kind or with the faults of the
  data exactly if the data does not break the kind; and so does building one
  from a mapping, unless the mapping declares an integer, as its kind, that is
  too long to be written into the refusal (`settled_iff`).
-/
import Routebook.Proofs.Tag.Declared
import Routebook.Proofs.Tag.Faults

namespace Routebook

/-- A number other than zero; truth values count as one and zero. -/
def Value.IsNonzero (v : Value) : Prop := v.holds = true ∧ v.number?.isSome = true

instance (v : Value) : Decidable v.IsNonzero :=
  inferInstanceAs (Decidable (v.holds = true ∧ v.number?.isSome = true))

@[simp] theorem Value.hasLongInt_string (s : String) : (Value.string s).hasLongInt = false := by
  rw [Value.hasLongInt] <;> simp

namespace Tag

variable {data : Entries Value}

/-! ## Rules -/

/-- What stands for one rule in a list of rules: two things, of which the first can be a key. -/
def IsPair : Value → Prop
  | .string s => s.toList.length = 2
  | .array [key, _] => canBeKey key = true
  | .object fields => fields.length = 2
  | _ => False

/-- What cannot even be counted as one rule: no sequence at all, or two things of
which the first cannot be a key. -/
def BreaksPair : Value → Prop
  | .string _ => False
  | .array [key, _] => canBeKey key = false
  | .array _ => False
  | .object _ => False
  | _ => True

/-- Rules that can be gone through, each of them a pair. -/
def RulesReadable (v : Value) : Prop :=
  v.holds = false ∨ (∃ fields, v = .object fields) ∨
    ∃ items, v = .array items ∧ ∀ item ∈ items, IsPair item

/-- Rules that cannot be gone through, or not beyond pairs. -/
def RulesBreak (v : Value) : Prop :=
  v.IsNonzero ∨ ∃ before item after, v = .array (before ++ item :: after) ∧
    (∀ pair ∈ before, IsPair pair) ∧ BreaksPair item

/-- The rules that are given explicitly; null stands for none. -/
def rulesOf (data : Entries Value) : Value := (Entries.get? "validate_rules" data).getD .null

/-- The sources that are given, under whichever of the two keys counts. -/
def sourcesOf (data : Entries Value) : Option Value :=
  (Entries.get? "from" data).or (Entries.get? "from_" data)

/-- Fields at which the reading of a kind ends in a type error. -/
def FieldsBreak : Kind → Entries Value → Prop
  | .param _, data =>
    RulesBreak (rulesOf data) ∨ RulesReadable (rulesOf data) ∧ ∃ v ∈ sourcesOf data, v.IsNonzero
  | .method, data => ∃ v ∈ Entries.get? "allow" data, v.IsNonzero
  | _, _ => False

/-- Data that breaks the reading of a kind. -/
def Breaks (kind : Kind) (data : Entries Value) : Prop :=
  reservedKey ∈ Entries.keys data ∨ FieldsBreak kind data

theorem rulePair_wrongType_iff (i : Nat) (item : Value) :
    rulePair i item = .wrongType ↔ BreaksPair item := by
  cases item with
  | string s =>
      -- The characters of a text can be keys, so only their number matters.
      simp only [rulePair, BreaksPair]
      rcases s.toList with _ | ⟨a, _ | ⟨b, _ | ⟨c, rest⟩⟩⟩ <;> simp [canBeKey]
  | array items =>
      rcases items with _ | ⟨a, _ | ⟨b, _ | ⟨c, rest⟩⟩⟩ <;> simp [rulePair, BreaksPair]
  | object fields =>
      rcases fields with _ | ⟨a, _ | ⟨b, _ | ⟨c, rest⟩⟩⟩ <;> simp [rulePair, BreaksPair, canBeKey]
  | _ => simp [rulePair, BreaksPair]

theorem exists_rulePair_iff (i : Nat) (item : Value) :
    (∃ p, rulePair i item = .ok p) ↔ IsPair item := by
  cases item with
  | string s =>
      simp only [rulePair, IsPair]
      rcases s.toList with _ | ⟨a, _ | ⟨b, _ | ⟨c, rest⟩⟩⟩ <;> simp [canBeKey]
  | array items =>
      rcases items with _ | ⟨a, _ | ⟨b, _ | ⟨c, rest⟩⟩⟩ <;> simp [rulePair, IsPair]
      cases canBeKey a <;> simp
  | object fields =>
      rcases fields with _ | ⟨a, _ | ⟨b, _ | ⟨c, rest⟩⟩⟩ <;> simp [rulePair, IsPair, canBeKey]
  | _ => simp [rulePair, IsPair]

/-- The rules of a sequence are gone through up to the first one that is no pair. -/
theorem ruleSequence_wrongType_iff {acc : List (Value × Value)} {i : Nat} {items : List Value} :
    ruleSequence acc i items = .wrongType ↔ ∃ before item after,
      items = before ++ item :: after ∧ (∀ pair ∈ before, IsPair pair) ∧ BreaksPair item := by
  induction items generalizing acc i with
  | nil => simp [ruleSequence]
  | cons first rest ih =>
      rw [ruleSequence, Checked.andThen_wrongType_iff, rulePair_wrongType_iff]
      constructor
      · rintro (hbreak | ⟨p, hp, hrest⟩)
        · exact ⟨[], first, rest, rfl, nofun, hbreak⟩
        · obtain ⟨before, item, after, rfl, hpairs, hbreak⟩ := ih.mp hrest
          have hfirst : IsPair first := (exists_rulePair_iff i first).mp ⟨p, hp⟩
          exact ⟨first :: before, item, after, rfl, List.forall_mem_cons.mpr ⟨hfirst, hpairs⟩,
            hbreak⟩
      · rintro ⟨before, item, after, hitems, hpairs, hbreak⟩
        -- The first pair of the list is the one that breaks, or a good one before it.
        cases before with
        | nil =>
            obtain ⟨rfl, rfl⟩ := List.cons.inj hitems
            exact .inl hbreak
        | cons pair before =>
            obtain ⟨rfl, rfl⟩ := List.cons.inj hitems
            obtain ⟨hfirst, hpairs⟩ := List.forall_mem_cons.mp hpairs
            obtain ⟨p, hp⟩ := (exists_rulePair_iff i first).mpr hfirst
            exact .inr ⟨p, hp, ih.mpr ⟨before, item, after, rfl, hpairs, hbreak⟩⟩

theorem exists_ruleSequence_iff {acc : List (Value × Value)} {i : Nat} {items : List Value} :
    (∃ rules, ruleSequence acc i items = .ok rules) ↔ ∀ item ∈ items, IsPair item := by
  induction items generalizing acc i with
  | nil => simp [ruleSequence]
  | cons first rest ih =>
      simp only [ruleSequence, Checked.andThen_ok_iff, List.forall_mem_cons,
        ← exists_rulePair_iff i first]
      constructor
      · rintro ⟨rules, p, hp, hrest⟩
        exact ⟨⟨p, hp⟩, ih.mp ⟨rules, hrest⟩⟩
      · rintro ⟨⟨p, hp⟩, hpairs⟩
        obtain ⟨rules, hrest⟩ := ih.mpr hpairs
        exact ⟨rules, p, hp, hrest⟩

theorem givenRules_of_not_holds {v : Value} (h : v.holds = false) : givenRules v = .ok [] := by
  unfold givenRules
  rw [h]
  rfl

/-- A text is gone through by character: the first of them is one thing, not two. -/
theorem givenRules_string {s : String} (h : (Value.string s).holds = true) :
    ∃ faults, givenRules (.string s) = .faulty faults := by
  have hs : s ≠ "" := bne_iff_ne.mp h
  unfold givenRules
  simp only [h, Bool.not_true, Bool.false_eq_true, if_false]
  cases hchars : s.toList with
  | nil => exact absurd (String.toList_eq_nil_iff.mp hchars) hs
  | cons c rest =>
      refine ⟨[.mk [] (.refused (.notAPair 0 1))], ?_⟩
      simp [ruleSequence, rulePair, Checked.andThen, Checked.fault]

theorem givenRules_wrongType_iff {v : Value} : givenRules v = .wrongType ↔ RulesBreak v := by
  cases hv : v.holds with
  | false =>
      -- Null, zero and whatever is empty stand for no rules.
      rw [givenRules_of_not_holds hv]
      refine iff_of_false (by simp) ?_
      rintro (⟨hholds, -⟩ | ⟨before, item, after, rfl, -⟩)
      · exact Bool.false_ne_true (hv.symm.trans hholds)
      · simp [Value.holds] at hv
  | true =>
      cases v with
      | string s =>
          obtain ⟨faults, hfaults⟩ := givenRules_string hv
          simp [hfaults, RulesBreak, Value.IsNonzero, Value.number?]
      | array items =>
          simp [givenRules, hv, RulesBreak, Value.IsNonzero, Value.number?,
            ruleSequence_wrongType_iff]
      | null => exact absurd hv Bool.false_ne_true
      | _ => simp [givenRules, hv, RulesBreak, Value.IsNonzero, Value.number?]

theorem exists_givenRules_iff {v : Value} :
    (∃ rules, givenRules v = .ok rules) ↔ RulesReadable v := by
  cases hv : v.holds with
  | false => exact iff_of_true ⟨[], givenRules_of_not_holds hv⟩ (.inl hv)
  | true =>
      cases v with
      | string s =>
          obtain ⟨faults, hfaults⟩ := givenRules_string hv
          simp [hfaults, RulesReadable, hv]
      | array items => simp [givenRules, hv, RulesReadable, exists_ruleSequence_iff]
      | null => exact absurd hv Bool.false_ne_true
      | _ => simp [givenRules, hv, RulesReadable]

theorem collectRules_wrongType_iff :
    collectRules data = .wrongType ↔ RulesBreak (rulesOf data) :=
  Checked.map_wrongType_iff.trans givenRules_wrongType_iff

theorem exists_collectRules_iff :
    (∃ rules, collectRules data = .ok rules) ↔ RulesReadable (rulesOf data) := by
  refine Iff.trans ?_ exists_givenRules_iff
  constructor
  · rintro ⟨rules, hrules⟩
    obtain ⟨given, hgiven, -⟩ := Checked.map_ok_iff.mp hrules
    exact ⟨given, hgiven⟩
  · rintro ⟨given, hgiven⟩
    exact ⟨_, Checked.map_ok_iff.mpr ⟨given, hgiven, rfl⟩⟩

/-! ## Lists of sources and verbs -/

theorem listedItems_wrongType_iff {v : Value} : listedItems v = .wrongType ↔ v.IsNonzero := by
  cases hv : v.holds with
  | false => simp [listedItems, Value.IsNonzero, hv]
  | true =>
      cases v with
      | null => exact absurd hv Bool.false_ne_true
      | _ => simp [listedItems, Value.IsNonzero, Value.number?, hv]

theorem member_ne_wrongType {α : Type} {what : String} {allowed : List String}
    {ofName? : String → Option α} (v : Value) : member what allowed ofName? v ≠ .wrongType := by
  unfold member
  split
  · simp
  · simp only
    split <;> simp

theorem members_ne_wrongType {α : Type} [BEq α] {read : Value → Checked α}
    (hread : ∀ v, read v ≠ .wrongType) (acc : List α) (vs : List Value) :
    members read acc vs ≠ .wrongType := by
  induction vs generalizing acc with
  | nil => simp [members]
  | cons v vs ih => simp [members, hread, ih]

@[simp] theorem sourceList_wrongType_iff {v : Value} :
    sourceList v = .wrongType ↔ v.IsNonzero := by
  simp only [sourceList, Checked.andThen_wrongType_iff, listedItems_wrongType_iff,
    members_ne_wrongType member_ne_wrongType, and_false, exists_false, or_false]

@[simp] theorem verbList_wrongType_iff {v : Value} : verbList v = .wrongType ↔ v.IsNonzero := by
  have hverbs (verbs : List Verb) :
      (if verbs.isEmpty then Checked.fault (.refused .noVerb) else .ok verbs) ≠ .wrongType := by
    split <;> simp
  simp only [verbList, Checked.andThen_wrongType_iff, listedItems_wrongType_iff,
    members_ne_wrongType member_ne_wrongType, hverbs, and_false, exists_false, or_false]

theorem sourcesField_wrongType_iff :
    sourcesField data = .wrongType ↔ ∃ v ∈ sourcesOf data, v.IsNonzero := by
  unfold sourcesField sourcesOf Entries.has
  cases h : Entries.get? "from" data <;> simp [h]

/-! ## Fields that never break a reading -/

@[simp] theorem string_ne_wrongType (v : Value) : Field.string v ≠ .wrongType := by
  cases v <;> simp [Field.string]

@[simp] theorem nonEmptyString_ne_wrongType (v : Value) : Field.nonEmptyString v ≠ .wrongType := by
  unfold Field.nonEmptyString
  split
  · split <;> simp
  · simp

@[simp] theorem optionalString_ne_wrongType (v : Value) : Field.optionalString v ≠ .wrongType := by
  cases v <;> simp [Field.optionalString]

@[simp] theorem bool_ne_wrongType (v : Value) : Field.bool v ≠ .wrongType := by
  fun_cases Field.bool <;> simp

@[simp] theorem positiveNumber_ne_wrongType (v : Value) : Field.positiveNumber v ≠ .wrongType := by
  have hnumber : Field.number v ≠ .wrongType := by
    rcases Field.number_cases v with ⟨x, hx⟩ | ⟨cause, -, hfault⟩
    · simp [hx]
    · simp [hfault]
  have hpositive (x : Double) :
      (if x.isPositive then Checked.ok x else .fault .notPositive) ≠ .wrongType := by
    split <;> simp
  simp only [Field.positiveNumber, ne_eq, Checked.andThen_wrongType_iff, hnumber, hpositive,
    and_false, exists_false, or_false, not_false_eq_true]

@[simp] theorem any_ne_wrongType (v : Value) : Field.any v ≠ .wrongType := nofun

@[simp] theorem noOthers_ne_wrongType (data : Entries Value) (known : List String) :
    Field.noOthers data known ≠ .wrongType := by
  unfold Field.noOthers
  split <;> simp

@[simp] theorem kindField_ne_wrongType (kind : Kind) (data : Entries Value) :
    kindField kind data ≠ .wrongType := by
  fun_cases kindField <;> simp

@[simp] theorem contentValue_ne_wrongType (v : Value) : contentValue v ≠ .wrongType := by
  cases v <;> simp [contentValue]

@[simp] theorem contentType_ne_wrongType (v : Value) : contentType v ≠ .wrongType := by
  fun_cases contentType <;> simp

@[simp] theorem oneSourceKey_ne_wrongType (data : Entries Value) :
    oneSourceKey data ≠ .wrongType := by
  unfold oneSourceKey
  split <;> simp

@[simp] theorem checkRules_ne_wrongType (rules : List (Value × Value)) :
    checkRules rules ≠ .wrongType := by
  induction rules with
  | nil => simp [checkRules]
  | cons rule rest ih =>
      obtain ⟨k, v⟩ := rule
      intro h
      rcases Checked.seq_eq_wrongType_iff.mp h with hthis | hrest
      · have hkey := Checked.map_wrongType_iff.mp hthis
        cases k <;> simp at hkey
      · exact ih hrest

/-! ## Kinds -/

/-- Only lists of rules, sources and verbs can end the reading of a kind in a type error. -/
theorem decodeFields_wrongType_iff {kind : Kind} :
    decodeFields kind data = .wrongType ↔ FieldsBreak kind data := by
  cases kind with
  | param k =>
      -- Rules are collected first; if that fails, no other field is read.
      simp [decodeFields, decodeParam, FieldsBreak, collectRules_wrongType_iff,
        ← exists_collectRules_iff, sourcesField_wrongType_iff]
  | method => simp [decodeFields, decodeMethod, FieldsBreak]
  | _ =>
      simp [decodeFields, decodeApi, decodeDescription, decodeGroup, decodeCircuitBreaker,
        decodeKey, decodeInjectParams, FieldsBreak]

theorem guarded_wrongType_iff {α : Type} {read : Entries Value → Checked α} :
    guarded read data = .wrongType ↔ reservedKey ∈ Entries.keys data ∨ read data = .wrongType := by
  unfold guarded
  rw [← Entries.has_iff]
  cases Entries.has reservedKey data <;> simp

theorem nested_wrongType_iff {α : Type} {kind : Kind} {read : Entries Value → Checked α} :
    nested kind read data = .wrongType
      ↔ reservedKey ∈ Entries.keys data ∨ read data = .wrongType := by
  rw [← guarded_wrongType_iff]
  unfold nested
  cases guarded read data <;> simp

/-- Reading a kind ends in a type error exactly if the data breaks the kind. -/
theorem decode_wrongType_iff {kind : Kind} : decode kind data = .wrongType ↔ Breaks kind data :=
  guarded_wrongType_iff.trans (or_congr_right decodeFields_wrongType_iff)

/-- So does reading it as part of something else. -/
theorem decodeNested_wrongType_iff {kind : Kind} :
    decodeNested kind data = .wrongType ↔ Breaks kind data :=
  nested_wrongType_iff.trans (or_congr_right decodeFields_wrongType_iff)

/-- Which kind the data declares makes no difference to whether it breaks a kind. -/
theorem breaks_erase_kind {kind : Kind} :
    Breaks kind (Entries.erase "kind" data) ↔ Breaks kind data := by
  have hself : reservedKey ∈ Entries.keys (Entries.erase "kind" data)
      ↔ reservedKey ∈ Entries.keys data := by
    rw [← Entries.has_iff, ← Entries.has_iff, Entries.has_erase_of_ne (by decide)]
  have hfields : FieldsBreak kind (Entries.erase "kind" data) ↔ FieldsBreak kind data := by
    cases kind <;>
      simp (disch := decide) only [FieldsBreak, rulesOf, sourcesOf, Entries.get?_erase, if_neg]
  exact or_congr hself hfields

/-! ## Answers -/

/-- A tag of the named kind, or what is wrong with the data of the tag. -/
def Settled (name : String) (answer : Outcome Tag) : Prop :=
  (∃ t, answer = .ok t ∧ t.kind.name = name) ∨ ∃ why, answer = .error (.tag why)

theorem settled_refusal (name : String) (why : TagFailure) : Settled name (.error (.tag why)) :=
  .inr ⟨why, rfl⟩

theorem not_settled_wrongType (name : String) : ¬ Settled name (.error .wrongType) := by
  rintro (⟨t, ht, -⟩ | ⟨why, hwhy⟩)
  · exact absurd ht nofun
  · exact absurd hwhy nofun

theorem not_settled_badValue (name message : String) :
    ¬ Settled name (.error (.badValue message)) := by
  rintro (⟨t, ht, -⟩ | ⟨why, hwhy⟩)
  · exact absurd ht nofun
  · exact absurd hwhy nofun

/-- What reading a tag answers with. -/
def answerOf (kind : Kind) : Checked Tag → Outcome Tag
  | .ok t => .ok t
  | .faulty faults => .error (.tag (.fields kind faults))
  | .wrongType => .error .wrongType

/-- The kind that the data declares, or else the one that is asked for. -/
def declared (name : String) (data : Entries Value) : Value :=
  (Entries.get? "kind" data).getD (.string name)

theorem build_of_declared {kind : Kind} (h : declared kind.name data = .string kind.name) :
    build kind.name data = answerOf kind (decodeNested kind (Entries.erase "kind" data)) := by
  have hsame : (declared kind.name data).same (.string kind.name) = true := h ▸ same_string _
  unfold build
  rw [Kind.ofName?_name]
  exact if_pos hsame

theorem build_of_not_declared {kind : Kind} (h : declared kind.name data ≠ .string kind.name) :
    build kind.name data =
      if (declared kind.name data).hasLongInt then .error (.badValue tooManyDigitsMessage)
      else .error (.tag (.otherKind (declared kind.name data).text kind)) := by
  have hother : ¬ (declared kind.name data).same (.string kind.name) = true :=
    fun hsame => h (eq_string_of_same hsame)
  unfold build
  rw [Kind.ofName?_name]
  exact if_neg hother

theorem settled_answerOf_iff {kind : Kind} {read : Checked Tag}
    (hkind : ∀ t, read = .ok t → t.kind = kind) :
    Settled kind.name (answerOf kind read) ↔ read ≠ .wrongType := by
  cases read with
  | ok t => exact iff_of_true (.inl ⟨t, rfl, congrArg _ (hkind t rfl)⟩) nofun
  | faulty faults => exact iff_of_true (settled_refusal kind.name (.fields kind faults)) nofun
  | wrongType => exact iff_of_false (not_settled_wrongType _) fun hnot => hnot rfl

/-- The constructor of a kind answers unless the data breaks the kind. -/
theorem settled_make_iff {kind : Kind} :
    Settled kind.name (make kind data) ↔ ¬ Breaks kind data := by
  rw [← decode_wrongType_iff]
  exact settled_answerOf_iff fun t ht => kind_of_decodeFields (guarded_ok ht)

theorem make_wrongType_iff {kind : Kind} :
    make kind data = .error .wrongType ↔ Breaks kind data := by
  rw [← decode_wrongType_iff]
  unfold make
  cases decode kind data <;> simp

theorem settled_build_iff {kind : Kind} (h : declared kind.name data = .string kind.name) :
    Settled kind.name (build kind.name data) ↔ ¬ Breaks kind data := by
  rw [build_of_declared h, ← breaks_erase_kind, ← decodeNested_wrongType_iff]
  exact settled_answerOf_iff fun t ht => kind_of_decodeFields (nested_ok ht)

theorem build_of_breaks {kind : Kind} (hdeclared : declared kind.name data = .string kind.name)
    (h : Breaks kind data) : build kind.name data = .error .wrongType := by
  have hread := decodeNested_wrongType_iff.mpr (breaks_erase_kind.mpr h)
  rw [build_of_declared hdeclared, hread]
  rfl

theorem build_unknown {name : String} (h : Kind.ofName? name = none) :
    build name data = .error (.tag (.unknownKind name)) := by
  unfold build
  rw [h]

theorem name_of_ofName? {name : String} {kind : Kind} (h : Kind.ofName? name = some kind) :
    kind.name = name := by
  simpa using List.find?_some h

/-- Making a tag settles exactly if the data does not break the kind, and ends in a
plain type error otherwise.  Building one settles exactly if the declared kind can be
written and, where it is the right one, the data does not break the kind; otherwise it
ends in a type error or in the complaint about the integer that cannot be written. -/
theorem settled_iff (kind : Kind) (name : String) (data : Entries Value) :
    (Settled kind.name (make kind data) ↔ ¬ Breaks kind data) ∧
      (make kind data = .error .wrongType ↔ Breaks kind data) ∧
      (Settled name (build name data) ↔ ∀ kind, Kind.ofName? name = some kind →
        (declared name data).hasLongInt = false ∧
          (declared name data = .string name → ¬ Breaks kind data)) ∧
      (Settled name (build name data) ∨ build name data = .error .wrongType ∨
        build name data = .error (.badValue tooManyDigitsMessage)) := by
  refine ⟨settled_make_iff, make_wrongType_iff, ?_⟩
  cases hname : Kind.ofName? name with
  | none =>
      have hsettled : Settled name (build name data) :=
        build_unknown hname ▸ settled_refusal name _
      exact ⟨iff_of_true hsettled nofun, .inl hsettled⟩
  | some kind =>
      obtain rfl := name_of_ofName? hname
      simp only [Option.some.injEq, forall_eq']
      by_cases hdeclared : declared kind.name data = .string kind.name
      · refine ⟨?_, ?_⟩
        · rw [settled_build_iff hdeclared]
          simp [hdeclared]
        · rw [settled_build_iff hdeclared]
          rcases Classical.em (Breaks kind data) with hbreak | hbreak
          · exact .inr (.inl (build_of_breaks hdeclared hbreak))
          · exact .inl hbreak
      · -- Another kind is refused before any field is read, and the refusal names it.
        rw [build_of_not_declared hdeclared]
        cases hlong : (declared kind.name data).hasLongInt with
        | false =>
            have hsettled := settled_refusal kind.name
              (.otherKind (declared kind.name data).text kind)
            exact ⟨iff_of_true hsettled ⟨rfl, fun h => absurd h hdeclared⟩, .inl hsettled⟩
        | true =>
            exact ⟨iff_of_false (not_settled_badValue _ _) nofun, .inr (.inr rfl)⟩

/-- A number where the verbs should stand, though a field of the wrong type is a fault
everywhere else. -/
theorem not_settled_method_number :
    ¬ Settled "Method" (build "Method" [("allow", .int 5)]) ∧
      ¬ Settled "Method" (make .method [("allow", .int 5)]) ∧
      Settled "Method" (build "Method" [("allow", .null)]) := by
  have hbuild : build "Method" [("allow", .int 5)] = .error .wrongType := rfl
  have hmake : make .method [("allow", .int 5)] = .error .wrongType := rfl
  refine ⟨hbuild ▸ not_settled_wrongType _, hmake ▸ not_settled_wrongType _, ?_⟩
  exact .inr ⟨_, rfl⟩

end Tag
end Routebook
