/-
  Routebook.Proofs.Settings.Overrides

  When a settings document is accepted, and what its settings are.  The
  settings follow from what is given for each name: the override, if one
  counts, or else what the document has (`Combined`).  Reading succeeds exactly
  if that is acceptable, and then every setting is the given one or its default
  (`decode_ok_iff`, `exists_fits_iff`).

  A document that is no mapping is refused only if it says more than nothing:
  an empty list, an empty text, a zero and a `false` count as a document that
  was left empty (`ofFileWith_shape`).
-/
import Routebook.Proofs.Checked
import Routebook.Proofs.Double.Decimal
import Routebook.Proofs.Entries
import Routebook.Proofs.Outcome
import Routebook.Proofs.Text.Utf8
import Routebook.Settings.File

namespace Routebook.Settings

open Yaml (Document Scalar)

/-! ## What each setting takes -/

/-- The text that a string or bytes spell. -/
inductive Spells : Datum → String → Prop
  | text (s : String) : Spells (.value (.string s)) s
  | bytes {data : List UInt8} {s : String} (h : Datum.spelled? data = some s) :
      Spells (.bytes data) s

/-- What counts as a truth value: one itself, zero or one, and a word for it. -/
inductive CountsAs : Datum → Bool → Prop
  | bool (b : Bool) : CountsAs (.value (.bool b)) b
  | int (b : Bool) : CountsAs (.value (.int (if b then 1 else 0))) b
  | float {x : Double} {b : Bool} (h : x.equalsInt (if b then 1 else 0) = true) :
      CountsAs (.value (.float x)) b
  | word {d : Datum} {s : String} {b : Bool} (hd : Spells d s) (hs : Field.boolOfWord? s = some b) :
      CountsAs d b

/-- The place that a path or a text names; null names none. -/
inductive Leads : Datum → Option Path → Prop
  | nowhere : Leads (.value .null) none
  | text (s : String) : Leads (.value (.string s)) (some (Path.ofText s))
  | located (p : Path) : Leads (.located p) (some p)

theorem string_ok_iff {d : Datum} {s : String} : d.string = .ok s ↔ Spells d s := by
  constructor
  · intro h
    rcases d with v | data | p | _
    · cases v with
      | string t =>
          obtain rfl := Checked.ok.inj h
          exact .text t
      | _ => exact absurd h nofun
    · cases hs : Datum.spelled? data with
      | some t =>
          simp only [Datum.string, hs] at h
          obtain rfl := Checked.ok.inj h
          exact .bytes hs
      | none =>
          simp only [Datum.string, hs] at h
          exact absurd h nofun
    · exact absurd h nofun
    · exact absurd h nofun
  · rintro (_ | hs)
    · rfl
    · simp [Datum.string, hs]

theorem path_ok_iff {d : Datum} {p? : Option Path} : d.path = .ok p? ↔ Leads d p? := by
  constructor
  · intro h
    rcases d with v | data | p | _
    · cases v with
      | null =>
          obtain rfl := Checked.ok.inj h
          exact .nowhere
      | string t =>
          obtain rfl := Checked.ok.inj h
          exact .text t
      | _ => exact absurd h nofun
    · exact absurd h nofun
    · obtain rfl := Checked.ok.inj h
      exact .located p
    · exact absurd h nofun
  · rintro (_ | _ | _) <;> rfl

/-- A number does not equal zero and one at once. -/
theorem not_equalsInt_one {x : Double} (h : x.equalsInt 0 = true) : x.equalsInt 1 = false := by
  rcases x with _ | _ | ⟨negative, rank⟩
  · rfl
  · rfl
  · simp only [Double.equalsInt, Int.natAbs_zero, Nat.zero_mul] at h ⊢
    split at h
    · next hzero =>
        have hone : 0 < (1 : Int).natAbs * Double.unitsInOne :=
          Nat.mul_pos Nat.one_pos Double.unitsInOne_pos
        have hne : ¬ ((1 : Int).natAbs * Double.unitsInOne == Double.units rank.val) = true := by
          rw [← eq_of_beq hzero]
          exact fun h => absurd (eq_of_beq h) (Nat.ne_of_gt hone)
        rw [if_neg hne]
    · exact absurd h nofun

theorem bool_word_iff {s : String} {b : Bool} :
    Field.bool (.string s) = .ok b ↔ Field.boolOfWord? s = some b := by
  cases hs : Field.boolOfWord? s <;> simp [Field.bool, hs]

theorem bool_int_iff {n : Int} {b : Bool} :
    Field.bool (.int n) = .ok b ↔ n = if b then 1 else 0 := by
  unfold Field.bool
  by_cases h0 : n = 0
  · cases b <;> simp [h0]
  · by_cases h1 : n = 1
    · cases b <;> simp [h1]
    · by_cases hw : Field.fitsWord n = true
      · cases b <;> simp [h0, h1, hw]
      · cases b <;> simp [h0, h1, hw]

theorem bool_float_iff {x : Double} {b : Bool} :
    Field.bool (.float x) = .ok b ↔ x.equalsInt (if b then 1 else 0) = true := by
  unfold Field.bool
  by_cases h0 : x.equalsInt 0 = true
  · have h1 : x.equalsInt 1 = false := not_equalsInt_one h0
    cases b <;> simp [h0, h1]
  · by_cases h1 : x.equalsInt 1 = true
    · cases b <;> simp [h0, h1]
    · cases b <;> simp [h0, h1]

theorem bool_ok_iff {d : Datum} {b : Bool} : d.bool = .ok b ↔ CountsAs d b := by
  constructor
  · intro h
    rcases d with v | data | p | _
    · cases v with
      | bool c =>
          obtain rfl := Checked.ok.inj h
          exact .bool c
      | int n =>
          obtain rfl := bool_int_iff.mp h
          exact .int b
      | float x => exact .float (bool_float_iff.mp h)
      | string s => exact .word (.text s) (bool_word_iff.mp h)
      | _ => exact absurd h nofun
    · cases hs : Datum.spelled? data with
      | some s =>
          simp only [Datum.bool, hs] at h
          exact .word (.bytes hs) (bool_word_iff.mp h)
      | none =>
          simp only [Datum.bool, hs] at h
          exact absurd h nofun
    · exact absurd h nofun
    · exact absurd h nofun
  -- A word counts by what it spells, be it a text or bytes.
  · rintro (_ | _ | hx | ⟨_ | hdata, hs⟩)
    · rfl
    · exact bool_int_iff.mpr rfl
    · exact bool_float_iff.mpr hx
    · exact bool_word_iff.mpr hs
    · simpa [Datum.bool, hdata] using bool_word_iff.mpr hs

/-! ## What settings are made of -/

/-- A setting is what is given for it, read as `R` says, or its default if nothing is. -/
inductive Taken {α : Type} (R : Datum → α → Prop) (fallback : α) : Option Datum → α → Prop
  | absent : Taken R fallback none fallback
  | given {d : Datum} {a : α} (h : R d a) : Taken R fallback (some d) a

/-- Each setting is the one that is given, or its default. -/
structure Fits (source : String → Option Datum) (s : Settings) : Prop where
  cache : Taken CountsAs default.cache (source "cache") s.cache
  defaultGroup : Taken Spells default.defaultGroup (source "default_group_name") s.defaultGroup
  namespaceLead :
    Taken Spells default.namespaceLead (source "controller_namespace_prefix") s.namespaceLead
  marker : Taken Spells default.marker (source "auto_generated_marker") s.marker
  cacheDirectory : Taken Leads default.cacheDirectory (source "cache_dir") s.cacheDirectory

/-- Only known settings are given. -/
def Known (source : String → Option Datum) : Prop :=
  ∀ name, (source name).isSome = true → name ∈ keys

/-- Only known settings are given, and each is given something that it takes. -/
structure Acceptable (source : String → Option Datum) : Prop where
  known : Known source
  cache : ∀ d, source "cache" = some d → ∃ b, CountsAs d b
  defaultGroup : ∀ d, source "default_group_name" = some d → ∃ s, Spells d s
  namespaceLead : ∀ d, source "controller_namespace_prefix" = some d → ∃ s, Spells d s
  marker : ∀ d, source "auto_generated_marker" = some d → ∃ s, Spells d s
  cacheDirectory : ∀ d, source "cache_dir" = some d → ∃ p?, Leads d p?

@[simp] theorem taken_none_iff {α : Type} {R : Datum → α → Prop} {fallback a : α} :
    Taken R fallback none a ↔ fallback = a := by
  constructor
  · rintro ⟨⟩
    rfl
  · rintro rfl
    exact .absent

@[simp] theorem taken_some_iff {α : Type} {R : Datum → α → Prop} {fallback a : α} {d : Datum} :
    Taken R fallback (some d) a ↔ R d a := by
  constructor
  · rintro (_ | h)
    exact h
  · exact .given

theorem exists_taken_iff {α : Type} {R : Datum → α → Prop} {fallback : α} {d? : Option Datum} :
    (∃ a, Taken R fallback d? a) ↔ ∀ d, d? = some d → ∃ a, R d a := by
  cases d? <;> simp

/-- There are settings for what is acceptable, and for nothing else. -/
theorem exists_fits_iff {source : String → Option Datum} :
    (∃ s, Known source ∧ Fits source s) ↔ Acceptable source := by
  constructor
  · rintro ⟨s, hknown, h⟩
    exact
      { known := hknown
        cache := exists_taken_iff.mp ⟨_, h.cache⟩
        defaultGroup := exists_taken_iff.mp ⟨_, h.defaultGroup⟩
        namespaceLead := exists_taken_iff.mp ⟨_, h.namespaceLead⟩
        marker := exists_taken_iff.mp ⟨_, h.marker⟩
        cacheDirectory := exists_taken_iff.mp ⟨_, h.cacheDirectory⟩ }
  · intro h
    obtain ⟨cache, hcache⟩ := exists_taken_iff.mpr h.cache
    obtain ⟨group, hgroup⟩ := exists_taken_iff.mpr h.defaultGroup
    obtain ⟨lead, hlead⟩ := exists_taken_iff.mpr h.namespaceLead
    obtain ⟨marker, hmarker⟩ := exists_taken_iff.mpr h.marker
    obtain ⟨directory, hdirectory⟩ := exists_taken_iff.mpr h.cacheDirectory
    exact ⟨⟨cache, group, lead, marker, directory⟩, h.known,
      ⟨hcache, hgroup, hlead, hmarker, hdirectory⟩⟩

/-! ## Reading settings -/

theorem withDefault_ok_iff {α : Type} {data : Entries Datum} {name : String} {fallback : α}
    {read : Datum → Checked α} {R : Datum → α → Prop} (hread : ∀ d a, read d = .ok a ↔ R d a)
    {a : α} : Field.withDefault data name fallback read = .ok a ↔
      Taken R fallback (Entries.get? name data) a := by
  unfold Field.withDefault
  cases Entries.get? name data with
  | none => simp
  | some d => simp [hread]

theorem noOthers_ok_iff {data : Entries Datum} {known : List String} :
    (∃ u, Field.noOthers data known = .ok u) ↔
      ∀ name, (Entries.get? name data).isSome = true → name ∈ known := by
  have hfilter : ((Entries.keys data).filter fun k => !known.contains k) = [] ↔
      ∀ name ∈ Entries.keys data, name ∈ known := by
    simp [List.filter_eq_nil_iff]
  have hkeys : (∀ name ∈ Entries.keys data, name ∈ known) ↔
      ∀ name, (Entries.get? name data).isSome = true → name ∈ known :=
    forall_congr' fun name => imp_congr_left (Entries.has_iff name data).symm
  rw [← hkeys, ← hfilter]
  unfold Field.noOthers
  split
  · next h => exact iff_of_true ⟨(), rfl⟩ h
  · next h => exact iff_of_false nofun h

/-- Settings are read from entries exactly if only known ones are given and they fit. -/
theorem decode_ok_iff {data : Entries Datum} {s : Settings} :
    decode data = .ok s ↔
      Known (fun name => Entries.get? name data) ∧ Fits (fun name => Entries.get? name data) s := by
  unfold decode
  simp only [Checked.seqLeft_ok_iff, Checked.seq_ok_iff, Checked.map_ok_iff,
    withDefault_ok_iff fun _ _ => bool_ok_iff, withDefault_ok_iff fun _ _ => string_ok_iff,
    withDefault_ok_iff fun _ _ => path_ok_iff, noOthers_ok_iff]
  constructor
  · rintro ⟨⟨_, directory, ⟨_, marker, ⟨_, lead, ⟨_, group, ⟨cache, hcache, rfl⟩, hgroup, rfl⟩,
      hlead, rfl⟩, hmarker, rfl⟩, hdirectory, rfl⟩, hknown⟩
    exact ⟨hknown, hcache, hgroup, hlead, hmarker, hdirectory⟩
  · rintro ⟨hknown, h⟩
    exact ⟨⟨_, _, ⟨_, _, ⟨_, _, ⟨_, _, ⟨_, h.cache, rfl⟩, h.defaultGroup, rfl⟩, h.namespaceLead,
      rfl⟩, h.marker, rfl⟩, h.cacheDirectory, rfl⟩, hknown⟩

theorem toOutcome_ok_iff {α : Type} {model : String} {x : Checked α} {a : α} :
    x.toOutcome model = .ok a ↔ x = .ok a := by
  cases x <;> simp [Checked.toOutcome]

/-! ## Overrides -/

/-- What is given for a name: the override, unless there is none or it is
null, and else what the document has. -/
def combined (overrides fields : Entries Datum) (name : String) : Option Datum :=
  ((Entries.get? name overrides).filter counts).or (Entries.get? name fields)

theorem get?_filter_counts {overrides : Entries Datum} (hd : (Entries.keys overrides).Nodup)
    (name : String) : Entries.get? name (overrides.filter fun o => counts o.2)
      = (Entries.get? name overrides).filter counts := by
  induction overrides with
  | nil => rfl
  | cons o overrides ih =>
      obtain ⟨key, d⟩ := o
      obtain ⟨hkey, hd⟩ := List.nodup_cons.mp hd
      have hrest := ih hd
      rw [List.filter_cons, Entries.get?_cons]
      by_cases hc : counts d = true
      · rw [if_pos hc, Entries.get?_cons]
        split
        · rw [Option.filter_some, if_pos hc]
        · exact hrest
      · rw [if_neg hc, hrest]
        split
        · next hname =>
            -- The key does not come again, so nothing is left under it.
            have hnone : Entries.get? name overrides = none :=
              (Entries.get?_eq_none_iff name overrides).mpr (hname ▸ hkey)
            rw [hnone, Option.filter_some, if_neg hc, Option.filter_none]
        · rfl

theorem nodup_keys_filter {overrides : Entries Datum} (hd : (Entries.keys overrides).Nodup) :
    (Entries.keys (overrides.filter fun o => counts o.2)).Nodup :=
  hd.sublist (List.filter_sublist.map Prod.fst)

theorem get?_overridden {overrides : Entries Datum} (hd : (Entries.keys overrides).Nodup)
    (fields : Entries Datum) (name : String) :
    Entries.get? name (overridden overrides fields) = combined overrides fields name := by
  unfold overridden combined
  rw [Entries.get?_putAll, Entries.get?_ofPairs_of_nodup name (nodup_keys_filter hd),
    get?_filter_counts hd]

theorem decode_overridden_iff {overrides : Entries Datum} (hd : (Entries.keys overrides).Nodup)
    {fields : Entries Datum} {s : Settings} :
    (decode (overridden overrides fields)).toOutcome modelName = .ok s ↔
      Known (combined overrides fields) ∧ Fits (combined overrides fields) s := by
  have hsource : (fun name => Entries.get? name (overridden overrides fields))
      = combined overrides fields := funext (get?_overridden hd fields)
  rw [toOutcome_ok_iff, decode_ok_iff, hsource]

/-! ## Documents -/

/-- The pairs of a mapping; a document that says null has none. -/
def pairs? : Document → Option (List (Scalar × Document))
  | .mapping pairs => some pairs
  | .scalar (.plain .null) => some []
  | _ => none

/-- Whether all keys are text. -/
def TextKeys (pairs : List (Scalar × Document)) : Prop :=
  ∀ p ∈ pairs, ∃ key, p.1 = .plain (.string key)

theorem keyFault?_eq_none_iff {k : Scalar} :
    keyFault? k = none ↔ ∃ key, k = .plain (.string key) := by
  constructor
  · intro h
    unfold keyFault? at h
    split at h
    · next key => exact ⟨key, rfl⟩
    · exact absurd h nofun
  · rintro ⟨key, rfl⟩
    rfl

theorem keyFaults_eq_nil_iff {pairs : List (Scalar × Document)} :
    (pairs.filterMap fun p => keyFault? p.1) = [] ↔ TextKeys pairs := by
  simp only [List.filterMap_eq_nil_iff, keyFault?_eq_none_iff, TextKeys]

/-- A mapping gives settings exactly if its keys are text and, with the
overrides in their places, known settings are given what they take. -/
theorem ofDocument_mapping_iff {name : String} {d : Document} {pairs : List (Scalar × Document)}
    (hpairs : pairs? d = some pairs) {overrides : Entries Datum}
    (hd : (Entries.keys overrides).Nodup) {s : Settings} :
    ofDocument name d overrides = .ok s ↔ TextKeys pairs ∧
      Known (combined overrides (fieldsOf pairs)) ∧
        Fits (combined overrides (fieldsOf pairs)) s := by
  have hempty : TextKeys ([] : List (Scalar × Document)) := fun _ hp => absurd hp List.not_mem_nil
  unfold pairs? at hpairs
  split at hpairs
  · next written =>
    obtain rfl := Option.some.inj hpairs
    cases written with
    | nil =>
        -- An empty mapping is read as what says nothing.
        exact (decode_overridden_iff hd).trans (and_iff_right hempty).symm
    | cons p rest =>
        unfold ofDocument
        rw [if_neg (by simp [Document.holds]), ← keyFaults_eq_nil_iff]
        simp only []
        split
        · next hnone => exact (decode_overridden_iff hd).trans (and_iff_right hnone).symm
        · next faults hsome => exact iff_of_false nofun fun h => hsome h.1
  · obtain rfl := Option.some.inj hpairs
    exact (decode_overridden_iff hd).trans (and_iff_right hempty).symm
  · exact absurd hpairs nofun

/-- A document that is no mapping and says nothing is read as an empty mapping. -/
theorem ofDocument_blank_iff {name : String} {d : Document} (hholds : d.holds = false)
    {overrides : Entries Datum} (hd : (Entries.keys overrides).Nodup) {s : Settings} :
    ofDocument name d overrides = .ok s ↔
      Known (combined overrides []) ∧ Fits (combined overrides []) s := by
  unfold ofDocument
  rw [if_pos (by rw [hholds]; rfl)]
  exact decode_overridden_iff hd

/-- The refusal of a document that is no mapping. -/
def refusal (name : String) : Failure := .badValue (name ++ ": expected a mapping of settings")

theorem toOutcome_ne_refusal {α : Type} {model name : String} {x : Checked α} :
    x.toOutcome model ≠ .error (refusal name) := by
  cases x with
  | ok a => exact nofun
  | faulty faults => exact fun h => absurd (Except.error.inj h) nofun
  | wrongType => exact fun h => absurd (Except.error.inj h) nofun

theorem ofDocument_refusal_iff {name : String} {d : Document} (hpairs : pairs? d = none)
    {overrides : Entries Datum} :
    ofDocument name d overrides = .error (refusal name) ↔ d.holds = true := by
  unfold ofDocument
  cases hholds : d.holds with
  | false => exact iff_of_false toOutcome_ne_refusal nofun
  | true =>
      refine iff_of_true ?_ rfl
      cases d with
      | mapping pairs => exact absurd hpairs nofun
      | scalar _ => rfl
      | list _ => rfl

theorem ofFileWith_eq {tree : Tree} {p : Path} {d : Document}
    (hdoc : (tree.readText p >>= Document.ofText) = .ok d) (overrides : Entries Datum) :
    ofFileWith tree p overrides = ofDocument p.text d overrides := by
  obtain ⟨text, htext, hd⟩ := Outcome.bind_ok_iff.mp hdoc
  unfold ofFileWith
  rw [htext]
  show (Document.ofText text >>= fun d => ofDocument p.text d overrides) = _
  rw [hd]
  rfl

/-- Settings of a file, by what its document is.  A mapping or a null gives
settings exactly if known settings are given what they take, overrides in
their places, and then each setting is the override, else the document's, else
the default.  Anything else is refused unless it says nothing, and then counts
as an empty mapping. -/
theorem ofFileWith_shape {tree : Tree} {p : Path} {d : Document} {overrides : Entries Datum}
    (hd : (Entries.keys overrides).Nodup)
    (hdoc : (tree.readText p >>= Document.ofText) = .ok d) :
    (∀ pairs, pairs? d = some pairs →
      ((∃ s, ofFileWith tree p overrides = .ok s) ↔
        TextKeys pairs ∧ Acceptable (combined overrides (fieldsOf pairs))) ∧
      ∀ s, ofFileWith tree p overrides = .ok s → Fits (combined overrides (fieldsOf pairs)) s) ∧
    (pairs? d = none →
      (ofFileWith tree p overrides = .error (refusal p.text) ↔ d.holds = true) ∧
      (d.holds = false → ∀ s, ofFileWith tree p overrides = .ok s ↔
        Known (combined overrides []) ∧ Fits (combined overrides []) s)) := by
  rw [ofFileWith_eq hdoc]
  refine ⟨fun pairs hpairs => ⟨?_, ?_⟩, fun hpairs => ⟨?_, ?_⟩⟩
  · simp only [ofDocument_mapping_iff hpairs hd, exists_and_left, ← exists_fits_iff]
  · intro s hs
    exact ((ofDocument_mapping_iff hpairs hd).mp hs).2.2
  · exact ofDocument_refusal_iff hpairs
  · exact fun hholds s => ofDocument_blank_iff hholds hd

/-! ### Two files -/

/-- A directory with a file of settings. -/
def settingsTree (text : String) : Tree := ⟨[], [(["settings.yaml"], .file (.bytes text.toUTF8))]⟩

/-- The file of settings. -/
def settingsPath : Path := ⟨.here, ["settings.yaml"]⟩

theorem readText_settingsTree {text : String} (h : '\r' ∉ text.toList) :
    (settingsTree text).readText settingsPath = .ok text := by
  have hread : (settingsTree text).read settingsPath = .ok (.bytes text.toUTF8) := rfl
  unfold Tree.readText
  rw [hread]
  show (Text.ofBytes text.toUTF8).mapError Failure.undecodable = .ok text
  rw [Text.ofBytes_toUTF8_of_not_mem h]
  rfl

/-- Settings with a bad truth value in them. -/
def shopText : String := "\x7b'cache': 'nonsense', 'default_group_name': 'shop'\x7d\n"

/-- The pairs of those settings. -/
def shopPairs : List (Scalar × Document) :=
  [(.plain (.string "cache"), .scalar (.plain (.string "nonsense"))),
   (.plain (.string "default_group_name"), .scalar (.plain (.string "shop")))]

/-- Overrides for the truth value, and for the group one that does not count. -/
def shopOverrides : Entries Datum :=
  [("cache", .value (.bool false)), ("default_group_name", .value .null)]

/-- Whether an outcome is a mapping with those pairs. -/
def isShop : Outcome Document → Bool
  | .ok (.mapping [(.plain (.string a), .scalar (.plain (.string b))),
      (.plain (.string c), .scalar (.plain (.string e)))]) =>
    a == "cache" && b == "nonsense" && c == "default_group_name" && e == "shop"
  | _ => false

theorem ofText_shopText : Document.ofText shopText = .ok (.mapping shopPairs) := by
  have h : isShop (Document.ofText shopText) = true := by decide +kernel
  unfold isShop at h
  split at h
  · next heq =>
      simp only [Bool.and_eq_true, beq_iff_eq] at h
      obtain ⟨⟨⟨rfl, rfl⟩, rfl⟩, rfl⟩ := h
      exact heq
  · exact absurd h Bool.false_ne_true

/-- The bad value is replaced and the group stays. -/
theorem ofFileWith_shape_shopText :
    (∃ s, ofFileWith (settingsTree shopText) settingsPath shopOverrides = .ok s) ∧
    ∀ s, ofFileWith (settingsTree shopText) settingsPath shopOverrides = .ok s →
      s.cache = false ∧ s.defaultGroup = "shop" ∧ s.marker = default.marker := by
  have hdoc : ((settingsTree shopText).readText settingsPath >>= Document.ofText)
      = .ok (.mapping shopPairs) := by
    have hline : '\r' ∉ shopText.toList := by decide
    exact Outcome.bind_ok_iff.mpr ⟨shopText, readText_settingsTree hline, ofText_shopText⟩
  have hkeys : (Entries.keys shopOverrides).Nodup := by decide
  obtain ⟨haccept, hfits⟩ := (ofFileWith_shape hkeys hdoc).1 shopPairs rfl
  have hknown : Known (combined shopOverrides (fieldsOf shopPairs)) := by
    intro name hname
    by_cases hc : "cache" = name
    · exact hc ▸ List.mem_cons_self
    · by_cases hg : "default_group_name" = name
      · exact hg ▸ List.mem_cons_of_mem _ List.mem_cons_self
      · simp [combined, shopOverrides, shopPairs, fieldsOf, Entries.get?, hc, hg] at hname
  refine ⟨haccept.mpr ⟨?_, ?_⟩, fun s hs => ?_⟩
  · intro p hp
    simp only [shopPairs, List.mem_cons, List.not_mem_nil, or_false] at hp
    rcases hp with rfl | rfl
    · exact ⟨_, rfl⟩
    · exact ⟨_, rfl⟩
  · exact exists_fits_iff.mp ⟨⟨false, "shop", default.namespaceLead, default.marker, none⟩, hknown,
      .given (.bool false), .given (.text "shop"), .absent, .absent, .absent⟩
  · have hs := hfits s hs
    have hcache : CountsAs (.value (.bool false)) s.cache := taken_some_iff.mp hs.cache
    have hgroup : Spells (.value (.string "shop")) s.defaultGroup :=
      taken_some_iff.mp hs.defaultGroup
    have hmarker : default.marker = s.marker := taken_none_iff.mp hs.marker
    exact ⟨(Checked.ok.inj (bool_ok_iff.mpr hcache)).symm,
      (Checked.ok.inj (string_ok_iff.mpr hgroup)).symm, hmarker.symm⟩

/-- Settings that are an empty list. -/
def listText : String := "[]\n"

/-- Whether an outcome is an empty list. -/
def isEmptyList : Outcome Document → Bool
  | .ok (.list []) => true
  | _ => false

theorem ofText_listText : Document.ofText listText = .ok (.list []) := by
  have h : isEmptyList (Document.ofText listText) = true := by decide +kernel
  unfold isEmptyList at h
  split at h
  · next heq => exact heq
  · exact absurd h Bool.false_ne_true

/-- An empty list is no mapping and is accepted all the same. -/
theorem ofFileWith_listText :
    ∃ d, ((settingsTree listText).readText settingsPath >>= Document.ofText) = .ok d ∧
      pairs? d = none ∧ ofFileWith (settingsTree listText) settingsPath [] = .ok default := by
  have hdoc : ((settingsTree listText).readText settingsPath >>= Document.ofText)
      = .ok (.list []) := by
    have hline : '\r' ∉ listText.toList := by decide
    exact Outcome.bind_ok_iff.mpr ⟨listText, readText_settingsTree hline, ofText_listText⟩
  have hread : ofDocument settingsPath.text (.list []) [] = .ok default := rfl
  exact ⟨.list [], hdoc, rfl, (ofFileWith_eq hdoc []).trans hread⟩

end Routebook.Settings
