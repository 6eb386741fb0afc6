/-
  Routebook.Proofs.Tag.Rules

  The rules of a parameter.  They come in two ways, under a key of their own
  and as keys that are no fields, and both are kept: the rules given under the
  key first, then the others, each in its old place if its name is there
  already (`effectiveRules`).  Only then truth values become words
  (`rules_kept`).

  Rules may be given in any form that can be gone through as pairs, and a key
  may be any scalar on the way.  What is kept in the end has strings for keys,
  and storing never removes a key, so they all were strings from the start
  (`foldl_putRule_eq_asRules`).
-/
import Routebook.Handbook.ParamTable
import Routebook.Proofs.Tag.Breakage

namespace Routebook

namespace Tag

/-! ## What is kept -/

/-- The rule that one item of a list stands for. -/
def pairOf? : Value → Option (String × Value)
  | .array [.string key, v] => some (key, v)
  | .string s =>
    match s.toList with
    | [a, b] => some (String.ofList [a], .string (String.ofList [b]))
    | _ => none
  | .object [(key, _), (word, _)] => some (key, .string word)
  | _ => none

/-- The rules that are given explicitly, if they are rules at all. -/
def given? (v : Value) : Option (Entries Value) :=
  if v.holds then
    match v with
    | .object fields => some fields
    | .array items => (items.mapM pairOf?).map Entries.ofPairs
    | _ => none
  else some []

/-- The given rules, updated by every key that is no field in the order of the data. -/
def effectiveRules (given data : Entries Value) : Entries Value :=
  Entries.putAll given (data.filter fun e => !paramFields.contains e.1)

/-- Truth values are kept as words, and anything else as it is. -/
inductive Kept : Value → Value → Prop where
  | yes : Kept (.bool true) (.string "true")
  | no : Kept (.bool false) (.string "false")
  | other {v : Value} (h : v.isBool = false) : Kept v v

theorem kept_literalRule (v : Value) : Kept v (literalRule v) := by
  cases v with
  | bool b =>
      cases b with
      | true => exact .yes
      | false => exact .no
  | _ => exact .other rfl

/-- The rule of a name says that the parameter must be given. -/
def Requires (rules : Entries Value) : Prop :=
  Entries.get? "required" rules = some (.bool true) ∨
    Entries.get? "required" rules = some (.string "true")

/-! ## Rules under strings -/

/-- Rules whose keys are strings, as rules under keys of any sort. -/
def asRules (m : Entries Value) : List (Value × Value) := m.map fun e => (.string e.1, e.2)

theorem cons_eq_asRules_iff {key v : Value} {rules : List (Value × Value)} {m : Entries Value} :
    (key, v) :: rules = asRules m ↔
      ∃ k rest, key = .string k ∧ rules = asRules rest ∧ m = (k, v) :: rest := by
  constructor
  · intro h
    cases m with
    | nil => exact absurd h (List.cons_ne_nil _ _)
    | cons e rest =>
        obtain ⟨he, hrest⟩ := List.cons.inj h
        obtain ⟨hkey, hv⟩ := Prod.mk.inj he
        exact ⟨e.1, rest, hkey, hrest, by rw [hv]⟩
  · rintro ⟨k, rest, rfl, rfl, rfl⟩
    rfl

theorem asRules_injective : Function.Injective asRules := by
  refine List.map_injective_iff.mpr fun d e h => ?_
  obtain ⟨hkey, hv⟩ := Prod.mk.inj h
  exact Prod.ext (Value.string.inj hkey) hv

/-- A string equals nothing but a string. -/
theorem eq_string_of_string_same {v : Value} {s : String} (h : (Value.string s).same v = true) :
    v = .string s := by
  cases v with
  | string w =>
      have hsame : s = w := by simpa [Value.same, Value.sameWith] using h
      rw [hsame]
  | _ => exact absurd h (by simp [Value.same, Value.sameWith])

/-- Where storing a rule leaves only strings as keys, there were only strings before, and
the rule is stored under one. -/
theorem putRule_eq_asRules {key value : Value} {acc : List (Value × Value)} {m : Entries Value}
    (h : putRule key value acc = asRules m) :
    ∃ k start, key = .string k ∧ acc = asRules start ∧ m = Entries.put k value start := by
  induction acc generalizing m with
  | nil =>
      obtain ⟨k, rest, rfl, hrest, rfl⟩ := cons_eq_asRules_iff.mp h
      obtain rfl := List.map_eq_nil_iff.mp hrest.symm
      exact ⟨k, [], rfl, rfl, rfl⟩
  | cons e acc ih =>
      obtain ⟨key₀, v₀⟩ := e
      rw [putRule] at h
      cases hsame : key₀.same key with
      | true =>
          -- The key that is there stays; it is a string, and so is what equals it.
          rw [if_pos hsame] at h
          obtain ⟨k, rest, rfl, rfl, rfl⟩ := cons_eq_asRules_iff.mp h
          obtain rfl := eq_string_of_string_same hsame
          exact ⟨k, (k, v₀) :: rest, rfl, rfl, (if_pos rfl).symm⟩
      | false =>
          rw [if_neg (by simp [hsame])] at h
          obtain ⟨k₀, rest, rfl, hrest, rfl⟩ := cons_eq_asRules_iff.mp h
          obtain ⟨k, start, rfl, rfl, rfl⟩ := ih hrest
          have hne : k₀ ≠ k := by
            rintro rfl
            exact absurd (same_string k₀) (by simp [hsame])
          exact ⟨k, (k₀, v₀) :: start, rfl, rfl, (if_neg hne).symm⟩

/-- Storing rules one after the other, if only strings are left as keys in the end. -/
theorem foldl_putRule_eq_asRules {rules acc : List (Value × Value)} {m : Entries Value}
    (h : rules.foldl (fun acc p => putRule p.1 p.2 acc) acc = asRules m) :
    ∃ more start, rules = asRules more ∧ acc = asRules start ∧ m = Entries.putAll start more := by
  induction rules generalizing acc with
  | nil => exact ⟨[], m, rfl, h, rfl⟩
  | cons p rules ih =>
      obtain ⟨more, start', rfl, hput, rfl⟩ := ih h
      obtain ⟨k, start, hkey, rfl, rfl⟩ := putRule_eq_asRules hput
      exact ⟨(k, p.2) :: more, start, cons_eq_asRules_iff.mpr ⟨k, more, hkey, rfl, rfl⟩, rfl, rfl⟩

/-- Rules that pass the check are under strings, and their truth values become words. -/
theorem checkRules_ok {rules : List (Value × Value)} {m : Entries Value}
    (h : checkRules rules = .ok m) :
    ∃ effective, rules = asRules effective ∧ m = Entries.mapValues literalRule effective := by
  induction rules generalizing m with
  | nil =>
      obtain rfl := Checked.ok.inj h
      exact ⟨[], rfl, rfl⟩
  | cons rule rest ih =>
      obtain ⟨key, v⟩ := rule
      obtain ⟨f, m', hthis, hrest, rfl⟩ := Checked.seq_eq_ok_iff.mp h
      obtain ⟨effective, rfl, rfl⟩ := ih hrest
      cases key with
      | string k =>
          obtain rfl := Checked.ok.inj hthis
          exact ⟨(k, v) :: effective, rfl, rfl⟩
      | _ => exact absurd hthis (by simp [Checked.map])

/-! ## Rules given explicitly -/

theorem rulePair_string_ok {i : Nat} {item v : Value} {k : String}
    (h : rulePair i item = .ok (.string k, v)) : pairOf? item = some (k, v) := by
  cases item with
  | string s =>
      -- Two characters are a pair of texts; any other number of them is none.
      simp only [rulePair] at h
      unfold pairOf?
      rcases hs : s.toList with _ | ⟨a, _ | ⟨b, _ | ⟨c, rest⟩⟩⟩ <;> simp_all [canBeKey]
  | array items =>
      rcases items with _ | ⟨a, _ | ⟨b, _ | ⟨c, rest⟩⟩⟩ <;> simp only [rulePair] at h
      case cons.cons.nil =>
        split at h
        · obtain ⟨rfl, rfl⟩ := Prod.mk.inj (Checked.ok.inj h)
          rfl
        · exact absurd h (by simp)
      all_goals exact absurd h (by simp [Checked.fault])
  | object fields =>
      rcases fields with _ | ⟨a, _ | ⟨b, _ | ⟨c, rest⟩⟩⟩ <;> simp [rulePair, canBeKey] at h
      obtain ⟨rfl, rfl⟩ := h
      rfl
  | _ => exact absurd h (by simp [rulePair])

/-- A sequence of rules is stored pair by pair. -/
theorem ruleSequence_ok {acc rules : List (Value × Value)} {i : Nat} {items : List Value}
    (h : ruleSequence acc i items = .ok rules) :
    ∃ pairs, List.Forall₂ (fun item p => ∃ j, rulePair j item = .ok p) items pairs ∧
      rules = pairs.foldl (fun acc p => putRule p.1 p.2 acc) acc := by
  induction items generalizing acc i with
  | nil => exact ⟨[], .nil, (Checked.ok.inj h).symm⟩
  | cons item items ih =>
      obtain ⟨p, hp, hrest⟩ := Checked.andThen_ok_iff.mp h
      obtain ⟨pairs, hpairs, rfl⟩ := ih hrest
      exact ⟨p :: pairs, .cons ⟨i, hp⟩ hpairs, rfl⟩

theorem mapM_pairOf?_of_asRules {items : List Value} {pairs : Entries Value}
    (h : List.Forall₂ (fun item p => ∃ j, rulePair j item = .ok p) items (asRules pairs)) :
    items.mapM pairOf? = some pairs := by
  induction pairs generalizing items with
  | nil =>
      cases h
      rfl
  | cons e pairs ih =>
      cases h with
      | cons hitem hrest =>
          obtain ⟨j, hitem⟩ := hitem
          rw [List.mapM_cons, rulePair_string_ok hitem, ih hrest]
          rfl

/-- Explicit rules that are all under strings are the rules that the value stands for. -/
theorem given?_of_asRules {v : Value} {given : Entries Value}
    (h : givenRules v = .ok (asRules given)) : given? v = some given := by
  cases hv : v.holds with
  | false =>
      -- Null, zero and whatever is empty stand for no rules.
      rw [givenRules_of_not_holds hv] at h
      obtain rfl := List.map_eq_nil_iff.mp (Checked.ok.inj h).symm
      unfold given?
      rw [hv]
      rfl
  | true =>
      unfold given?
      rw [if_pos hv]
      cases v with
      | null => exact absurd hv Bool.false_ne_true
      | string s =>
          obtain ⟨faults, hfaults⟩ := givenRules_string hv
          exact absurd (hfaults ▸ h) nofun
      | object fields =>
          rw [givenRules_object] at h
          exact congrArg some (asRules_injective (Checked.ok.inj h))
      | array items =>
          simp only [givenRules, hv, Bool.not_true, Bool.false_eq_true, if_false] at h
          obtain ⟨pairs, hpairs, hrules⟩ := ruleSequence_ok h
          obtain ⟨more, start, rfl, hstart, rfl⟩ := foldl_putRule_eq_asRules hrules.symm
          obtain rfl := List.map_eq_nil_iff.mp hstart.symm
          show (items.mapM pairOf?).map Entries.ofPairs = _
          rw [mapM_pairOf?_of_asRules hpairs]
          rfl
      | _ => exact absurd h (by simp [givenRules, hv])

/-- All rules together, if only strings are left as keys. -/
theorem collectRules_eq_asRules {data effective : Entries Value}
    (h : collectRules data = .ok (asRules effective)) :
    ∃ given, given? (rulesOf data) = some given ∧ effective = effectiveRules given data := by
  obtain ⟨rules, hrules, hall⟩ := Checked.map_ok_iff.mp h
  -- Storing the keys that are no fields is storing their pairs.
  have hfold : (asRules (data.filter fun e => !paramFields.contains e.1)).foldl
      (fun acc p => putRule p.1 p.2 acc) rules = asRules effective :=
    List.foldl_map.trans hall
  obtain ⟨more, given, hmore, rfl, rfl⟩ := foldl_putRule_eq_asRules hfold
  obtain rfl := asRules_injective hmore
  exact ⟨given, given?_of_asRules hrules, rfl⟩

/-- The rules of a parameter that was read. -/
theorem rules_of_decodeParam {kind : ParamKind} {data : Entries Value} {p : Param}
    (h : decodeParam kind data = .ok p) :
    ∃ given, given? (rulesOf data) = some given ∧
      p.rules = Entries.mapValues literalRule (effectiveRules given data) := by
  simp only [decodeParam, Checked.andThen_ok_iff, Checked.seqLeft_ok_iff,
    Checked.seqRight_ok_iff, Checked.seq_ok_iff, Checked.map_ok_iff] at h
  -- The fields come one behind the other, the last one outermost.
  obtain ⟨rules, hcollect, ⟨⟨-, f, checked, hf, hcheck, rfl⟩, -⟩⟩ := h
  obtain ⟨f, deprecated, ⟨f, default, ⟨f, description, ⟨f, type, ⟨f, sources, ⟨name, -, rfl⟩, -,
    rfl⟩, -, rfl⟩, -, rfl⟩, -, rfl⟩, -, rfl⟩ := hf
  obtain ⟨effective, rfl, rfl⟩ := checkRules_ok hcheck
  obtain ⟨given, hgiven, rfl⟩ := collectRules_eq_asRules hcollect
  exact ⟨given, hgiven, rfl⟩

theorem requires_iff (effective : Entries Value) :
    Entries.get? "required" (Entries.mapValues literalRule effective) = some (.string "true") ↔
      Requires effective := by
  rw [Entries.get?_mapValues]
  unfold Requires
  cases Entries.get? "required" effective with
  | none => simp
  | some v =>
      cases v with
      | bool b => cases b <;> simp [literalRule]
      | _ => simp [literalRule]

/-- A field never becomes a rule unless it is given as one. -/
theorem mem_given_of_field {given data : Entries Value} {key : String} (hfield : key ∈ paramFields)
    (h : key ∈ Entries.keys (effectiveRules given data)) : key ∈ Entries.keys given := by
  refine (Entries.mem_keys_putAll.mp h).resolve_right fun hextra => ?_
  obtain ⟨e, he, rfl⟩ := List.mem_map.mp hextra
  simpa [hfield] using (List.mem_filter.mp he).2

end Tag

/-! ## The mark in the table -/

namespace Handbook

/-- The text for the sources of a parameter. -/
def sourceCell (p : Param) : String :=
  if p.sources.isEmpty then "unrestricted" else ",".intercalate (p.sources.map Source.name)

/-- In every table that a parameter is in, its row says what the parameter is; between its
type and its description stands the mark exactly if the parameter must be given, and a dash
otherwise. -/
def Marks (p : Param) (required : Prop) : Prop :=
  ∀ before after, ∃ mark,
    paramTable (before ++ p :: after) = "\n".intercalate (tableHeader ++ before.map row ++
        ("| " ++ " | ".intercalate [p.name, sourceCell p, orElse p.type "default", mark,
          orElse p.description "-"] ++ " |") :: after.map row) ++ blockEnd ∧
      (mark = requiredMark ↔ required) ∧ (mark = "-" ↔ ¬ required)

theorem marks_of_iff {p : Param} {required : Prop} (h : isRequired p = true ↔ required) :
    Marks p required := by
  intro before after
  refine ⟨if isRequired p then requiredMark else "-", ?_, ?_, ?_⟩
  · have hrows : paramTable (before ++ p :: after) = "\n".intercalate (tableHeader ++
        (before ++ p :: after).map row) ++ blockEnd := if_neg (by simp)
    rw [hrows, List.map_append, List.map_cons, List.append_assoc]
    rfl
  · rw [← h]
    cases isRequired p <;> simp [requiredMark]
  · rw [← h]
    cases isRequired p <;> simp [requiredMark]

theorem isRequired_iff (p : Param) :
    isRequired p = true ↔ Entries.get? "required" p.rules = some (.string "true") := by
  unfold isRequired
  split
  · next h => simp [h]
  · next h => simpa using fun hget => h hget

end Handbook

namespace Tag

theorem decodeFields_of_build {kind : Kind} {data : Entries Value} {t : Tag}
    (h : build kind.name data = .ok t) : decodeFields kind data = .ok t := by
  -- Data that declares another kind is refused before it is read.
  have hdeclared : declared kind.name data = .string kind.name := by
    by_contra hother
    rw [build_of_not_declared hother] at h
    split at h <;> exact absurd h nofun
  have hkind : kindField kind data = .ok () := by
    cases hget : Entries.get? "kind" data with
    | none => exact kindField_of_none hget
    | some v =>
        rw [declared, hget] at hdeclared
        exact kindField_of_name (hget.trans (congrArg some hdeclared))
  rw [build_of_declared hdeclared] at h
  rw [← decodeFields_erase hkind]
  cases hread : decodeNested kind (Entries.erase "kind" data) with
  | ok t' =>
      rw [hread] at h
      obtain rfl := Except.ok.inj h
      exact nested_ok hread
  | _ =>
      rw [hread] at h
      exact absurd h nofun

/-- No rule of a parameter is lost, and none is made up.  Its rules are the given ones,
updated by the keys that are no fields, with truth values as words; so a field is a rule
only if it was given as one, and the table marks the parameter exactly if its rules say
that it must be given. -/
theorem rules_kept {kind : ParamKind} {data : Entries Value} {t : Tag}
    (h : make (.param kind) data = .ok t ∨ build kind.name data = .ok t) :
    ∃ p given, t = .param kind p ∧ given? (rulesOf data) = some given ∧
      List.Forall₂ (fun e rule => rule.1 = e.1 ∧ Kept e.2 rule.2) (effectiveRules given data)
        p.rules ∧
      (∀ key ∈ paramFields, key ∈ Entries.keys p.rules → key ∈ Entries.keys given) ∧
      Handbook.Marks p (Requires (effectiveRules given data)) := by
  have hbuilt : build (Kind.param kind).name data = .ok t →
      decodeFields (.param kind) data = .ok t := decodeFields_of_build
  have hread : decodeFields (.param kind) data = .ok t := h.elim decodeFields_of_make hbuilt
  obtain ⟨p, hp, rfl⟩ := Checked.map_ok_iff.mp hread
  obtain ⟨given, hgiven, hrules⟩ := rules_of_decodeParam hp
  refine ⟨p, given, rfl, hgiven, ?_, ?_, ?_⟩
  · rw [hrules, Entries.mapValues, List.forall₂_map_right_iff]
    exact List.forall₂_same.mpr fun e _ => ⟨rfl, kept_literalRule e.2⟩
  · intro key hfield hkey
    rw [hrules, Entries.keys_mapValues] at hkey
    exact mem_given_of_field hfield hkey
  · apply Handbook.marks_of_iff
    rw [Handbook.isRequired_iff, hrules]
    exact requires_iff _

/-- Rules of both ways: an extra one in the place of a given one, and a given one with the
name of a field. -/
theorem rules_kept_bothWays :
    let data : Entries Value :=
      [("size", .bool false), ("name", .string "id"), ("required", .bool true),
       ("validate_rules", .array [.array [.string "type", .int 2], .array [.string "size", .int 1],
         .string "ab"]), ("from_", .string "get")]
    let p : Param := ⟨"id", [.get], "", "", .null, false,
      [("type", .int 2), ("size", .string "false"), ("a", .string "b"),
       ("required", .string "true")]⟩
    make (.param .auth) data = .ok (.param .auth p) ∧
      ∃ given, given? (rulesOf data) = some given ∧
        List.Forall₂ (fun e rule => rule.1 = e.1 ∧ Kept e.2 rule.2) (effectiveRules given data)
          p.rules ∧ Handbook.Marks p (Requires (effectiveRules given data)) := by
  intro data p
  have hmade : make (.param .auth) data = .ok (.param .auth p) := by rfl
  obtain ⟨p', given, hp', hgiven, hkept, -, hmarks⟩ := rules_kept (.inl hmade)
  cases hp'
  exact ⟨hmade, given, hgiven, hkept, hmarks⟩

end Tag
end Routebook
