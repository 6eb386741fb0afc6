/-
  Routebook.Proofs.Tag.Words

  Tags that list words: the sources of a parameter, under either of two keys,
  and the verbs of an action.  Such a list goes into the tag and nowhere else
  (`decodeFields_put`), and what is kept of it has one form, whatever the
  items it was given with (`words_normal`).

  The other fields are never taken apart here.  They are valid if some list,
  any list, makes a tag with them; then every list that may be given does, and
  the tag differs in its words alone (`Tag.relist`).
-/
import Mathlib.Data.Set.List
import Routebook.Proofs.Tag.Redecoding
import Routebook.Proofs.Tag.Rules
import Routebook.Proofs.Tag.Vocabulary

namespace Routebook

/-- A field that lists words of a closed vocabulary. -/
inductive WordField where
  /-- The sources of a parameter, under one of the two keys. -/
  | sources (kind : ParamKind) (key : SourcesKey)
  /-- The verbs of an action. -/
  | verbs

namespace WordField

/-- The kind of the tags with this field. -/
def kind : WordField → Kind
  | .sources kind _ => .param kind
  | .verbs => .method

/-- The key of the field. -/
def key : WordField → String
  | .sources _ key => key.name
  | .verbs => "allow"

/-- The words that may be listed. -/
def vocabulary : WordField → List String
  | .sources .. => Source.all.map Source.name
  | .verbs => Verb.all.map Verb.name

/-- The lists that may be given: of words of the vocabulary only, and of one
verb at least. -/
def Accepts (f : WordField) (items : List Value) : Prop :=
  (∀ v ∈ items, Tag.wordOf v ∈ f.vocabulary) ∧ (f = .verbs → items ≠ [])

/-- The words that are kept of a given value. -/
def wordsOf : WordField → Value → Checked (List String)
  | .sources .., v => List.map Source.name <$> Tag.sourceList v
  | .verbs, v => List.map Verb.name <$> Tag.verbList v

end WordField

namespace Tag

/-- The words that a tag lists: its sources or its verbs. -/
def words : Tag → List String
  | .param _ p => p.sources.map Source.name
  | .method allow => allow.map Verb.name
  | _ => []

/-- The tag with other words. -/
def relist (ws : List String) : Tag → Tag
  | .param kind p => .param kind { p with sources := ws.filterMap Source.ofName? }
  | .method _ => .method (ws.filterMap Verb.ofName?)
  | t => t

theorem filterMap_sourceNames (sources : List Source) :
    (sources.map Source.name).filterMap Source.ofName? = sources := by
  simp [List.filterMap_map, Source.ofName?_name]

theorem filterMap_verbNames (verbs : List Verb) :
    (verbs.map Verb.name).filterMap Verb.ofName? = verbs := by
  simp [List.filterMap_map, Verb.ofName?_name]

theorem relist_words (t : Tag) : t.relist t.words = t := by
  cases t with
  | param kind p => simp only [relist, words, filterMap_sourceNames]
  | method allow => simp only [relist, words, filterMap_verbNames]
  | _ => rfl

/-! ## What does not depend on the list -/

section Given

variable {data : Entries Value} {key : String}

theorem kindField_put (hkey : "kind" ≠ key) (kind : Kind) (v : Value) :
    kindField kind (Entries.put key v data) = kindField kind data := by
  unfold kindField
  rw [Entries.get?_put_of_ne v data hkey]

theorem required_put {α : Type} {name : String} (hname : name ≠ key) (v : Value)
    (read : Value → Checked α) :
    Field.required (Entries.put key v data) name read = Field.required data name read :=
  required_congr (Entries.get?_put_of_ne v data hname) read

theorem withDefault_put {α : Type} {name : String} (hname : name ≠ key) (v : Value) (default : α)
    (read : Value → Checked α) :
    Field.withDefault (Entries.put key v data) name default read
      = Field.withDefault data name default read :=
  withDefault_congr (Entries.get?_put_of_ne v data hname) default read

theorem noOthers_put {known : List String} (hkey : key ∈ known) (v : Value) :
    Field.noOthers (Entries.put key v data) known = Field.noOthers data known :=
  noOthers_congr
    (Entries.filter_put (p := fun k => !known.contains k) (by simpa using hkey) v data)

theorem collectRules_put (hkey : key ∈ paramFields) (hrules : "validate_rules" ≠ key) (v : Value) :
    collectRules (Entries.put key v data) = collectRules data :=
  collectRules_congr (Entries.get?_put_of_ne v data hrules)
    (Entries.filter_put (p := fun k => !paramFields.contains k) (by simpa using hkey) v data)

end Given

/-- The data of a param-like kind, with sources that are read already. -/
def paramWith (kind : ParamKind) (data : Entries Value) (sources : Checked (List Source)) :
    Checked Param :=
  (collectRules data).andThen fun rules =>
    kindField (.param kind) data *>
    (Param.mk <$> Field.required data "name" Field.string
      <*> sources
      <*> Field.withDefault data "type" "" Field.string
      <*> Field.withDefault data "description" "" Field.string
      <*> Field.withDefault data "default" .null Field.any
      <*> Field.withDefault data "deprecated" false Field.bool
      <*> checkRules rules)
    <* oneSourceKey data

section Sources

variable {kind : ParamKind} {data : Entries Value} {key : SourcesKey}

theorem decodeParam_eq_paramWith :
    decodeParam kind data = paramWith kind data (sourcesField data) := rfl

theorem oneSourceKey_put (v w : Value) :
    oneSourceKey (Entries.put key.name v data) = oneSourceKey (Entries.put key.name w data) := by
  unfold oneSourceKey
  simp only [Entries.has_put]

theorem paramWith_put (v w : Value) (sources : Checked (List Source)) :
    paramWith kind (Entries.put key.name v data) sources
      = paramWith kind (Entries.put key.name w data) sources := by
  unfold paramWith
  rw [oneSourceKey_put v w]
  cases key <;>
    simp (disch := decide) only [SourcesKey.name, collectRules_put, kindField_put, required_put,
      withDefault_put]

/-- The sources go into the parameter as they are and nowhere else. -/
theorem paramWith_ok {sources : Checked (List Source)} {p : Param}
    (h : paramWith kind data sources = .ok p) :
    oneSourceKey data = .ok () ∧ sources = .ok p.sources ∧
      ∀ others, paramWith kind data (.ok others) = .ok { p with sources := others } := by
  simp only [paramWith, Checked.andThen_ok_iff, Checked.seqLeft_ok_iff,
    Checked.seqRight_ok_iff, Checked.seq_ok_iff, Checked.map_ok_iff] at h
  -- The fields come one behind the other, the last one outermost.
  obtain ⟨given, hgiven, ⟨⟨⟨_, hkind⟩, f, rules, hf, hrules, rfl⟩, ⟨_, hone⟩⟩⟩ := h
  obtain ⟨f, deprecated, hf, hdeprecated, rfl⟩ := hf
  obtain ⟨f, default, hf, hdefault, rfl⟩ := hf
  obtain ⟨f, description, hf, hdescription, rfl⟩ := hf
  obtain ⟨f, type, hf, htype, rfl⟩ := hf
  obtain ⟨f, found, hf, hsources, rfl⟩ := hf
  obtain ⟨name, hname, rfl⟩ := hf
  refine ⟨hone, hsources, fun others => ?_⟩
  unfold paramWith Checked.andThen
  simp only [hgiven, hkind, hname, htype, hdescription, hdefault, hdeprecated, hrules, hone]
  rfl

/-- Where only one of the two keys is used, the sources are read from it. -/
theorem sourcesField_put {v : Value}
    (h : oneSourceKey (Entries.put key.name v data) = .ok ()) :
    sourcesField (Entries.put key.name v data) = (sourceList v).under (.key key.name) := by
  have hread : Field.withDefault (Entries.put key.name v data) key.name [] sourceList
      = (sourceList v).under (.key key.name) := by
    unfold Field.withDefault
    rw [Entries.get?_put_self]
  cases key with
  | short =>
      have hshort : Entries.has "from" (Entries.put "from" v data) = true := by
        simp [Entries.has_put]
      unfold sourcesField
      exact (if_pos hshort).trans hread
  | field =>
      -- The other key is not there: two keys would not have been accepted.
      have hfield : Entries.has "from_" (Entries.put "from_" v data) = true := by
        simp [Entries.has_put]
      have hshort : ¬ Entries.has "from" (Entries.put "from_" v data) = true := by
        intro hboth
        exact absurd h (by simp [oneSourceKey, SourcesKey.name, hboth, hfield])
      unfold sourcesField
      exact (if_neg hshort).trans hread

/-- What is read with one value for the sources is read with any other list of sources, with
these sources in place of the former. -/
theorem decodeParam_put {v : Value} {p : Param}
    (h : decodeParam kind (Entries.put key.name v data) = .ok p) :
    sourceList v = .ok p.sources ∧ ∀ w others, sourceList w = .ok others →
      decodeParam kind (Entries.put key.name w data) = .ok { p with sources := others } := by
  rw [decodeParam_eq_paramWith] at h
  obtain ⟨hone, hsources, hothers⟩ := paramWith_ok h
  rw [sourcesField_put hone, Checked.under_ok_iff] at hsources
  refine ⟨hsources, fun w others hw => ?_⟩
  have hone' : oneSourceKey (Entries.put key.name w data) = .ok () := oneSourceKey_put w v ▸ hone
  rw [decodeParam_eq_paramWith, sourcesField_put hone', hw, paramWith_put w v]
  exact hothers others

end Sources

theorem decodeMethod_put {data : Entries Value} {v : Value} {verbs : List Verb}
    (h : decodeMethod (Entries.put "allow" v data) = .ok verbs) :
    verbList v = .ok verbs ∧ ∀ w others, verbList w = .ok others →
      decodeMethod (Entries.put "allow" w data) = .ok others := by
  have hread (w : Value) : Field.required (Entries.put "allow" w data) "allow" verbList
      = (verbList w).under (.key "allow") := by
    unfold Field.required
    rw [Entries.get?_put_self]
  unfold decodeMethod at h ⊢
  simp (disch := decide) only [kindField_put, noOthers_put, hread, Checked.seqLeft_ok_iff,
    Checked.seqRight_ok_iff, Checked.under_ok_iff] at h ⊢
  obtain ⟨⟨hkind, hverbs⟩, hknown⟩ := h
  exact ⟨hverbs, fun w others hw => ⟨⟨hkind, hw⟩, hknown⟩⟩

/-- A tag is read with other words exactly as they say. -/
theorem decodeFields_put {f : WordField} {data : Entries Value} {v : Value} {t : Tag}
    (h : decodeFields f.kind (Entries.put f.key v data) = .ok t) :
    f.wordsOf v = .ok t.words ∧ ∀ w ws, f.wordsOf w = .ok ws →
      decodeFields f.kind (Entries.put f.key w data) = .ok (t.relist ws) := by
  cases f with
  | sources kind key =>
      obtain ⟨p, hp, rfl⟩ := Checked.map_ok_iff.mp h
      obtain ⟨hsources, hothers⟩ := decodeParam_put hp
      refine ⟨Checked.map_ok_iff.mpr ⟨p.sources, hsources, rfl⟩, fun w ws hw => ?_⟩
      obtain ⟨others, hread, rfl⟩ := Checked.map_ok_iff.mp hw
      refine Checked.map_ok_iff.mpr ⟨_, hothers w others hread, ?_⟩
      rw [relist, filterMap_sourceNames]
  | verbs =>
      obtain ⟨verbs, hverbs, rfl⟩ := Checked.map_ok_iff.mp h
      obtain ⟨hlist, hothers⟩ := decodeMethod_put hverbs
      refine ⟨Checked.map_ok_iff.mpr ⟨verbs, hlist, rfl⟩, fun w ws hw => ?_⟩
      obtain ⟨others, hread, rfl⟩ := Checked.map_ok_iff.mp hw
      refine Checked.map_ok_iff.mpr ⟨_, hothers w others hread, ?_⟩
      rw [relist, filterMap_verbNames]

/-! ## Both ways to a tag -/

section Ways

variable {kind : Kind} {data : Entries Value} {t : Tag}

theorem unreserved_of_make (h : make kind data = .ok t) :
    Entries.has reservedKey data = false := by
  by_contra hself
  have hbreaks : Breaks kind data := .inl ((Entries.has_iff _ _).mp (by simpa using hself))
  exact absurd (h.symm.trans (make_wrongType_iff.mpr hbreaks)) nofun

theorem unreserved_of_build (h : build kind.name data = .ok t) :
    Entries.has reservedKey data = false := by
  by_contra hself
  have hbreaks : Breaks kind data := .inl ((Entries.has_iff _ _).mp (by simpa using hself))
  have hdeclared : declared kind.name data = .string kind.name :=
    get?_of_kindField (kindField_of_decodeFields (decodeFields_of_build h))
  exact absurd (h.symm.trans (build_of_breaks hdeclared hbreaks)) nofun

/-- A tag is made, or built, exactly if its fields are read as this tag. -/
theorem way_ok_iff {way : Entries Value → Outcome Tag}
    (hway : way = make kind ∨ way = build kind.name) :
    way data = .ok t ↔ Entries.has reservedKey data = false ∧ decodeFields kind data = .ok t := by
  rcases hway with rfl | rfl
  · refine ⟨fun h => ⟨unreserved_of_make h, decodeFields_of_make h⟩, fun ⟨hself, hread⟩ => ?_⟩
    rw [make_of_unreserved hself, hread]
  · refine ⟨fun h => ⟨unreserved_of_build h, decodeFields_of_build h⟩, fun ⟨hself, hread⟩ => ?_⟩
    rw [build_of_kindField (kindField_of_decodeFields hread) hself, hread]

/-- What is accepted with some words is accepted with any other ones that may be listed. -/
theorem way_put {f : WordField} {way : Entries Value → Outcome Tag}
    (hway : way = make f.kind ∨ way = build f.kind.name) {v : Value}
    (h : way (Entries.put f.key v data) = .ok t) :
    f.wordsOf v = .ok t.words ∧ ∀ w ws, f.wordsOf w = .ok ws →
      way (Entries.put f.key w data) = .ok (t.relist ws) := by
  obtain ⟨hself, hread⟩ := (way_ok_iff hway).mp h
  obtain ⟨hwords, hothers⟩ := decodeFields_put hread
  have hself' (w : Value) : Entries.has reservedKey (Entries.put f.key w data) = false := by
    rw [Entries.has_put] at hself ⊢
    exact hself
  exact ⟨hwords, fun w ws hw => (way_ok_iff hway).mpr ⟨hself' w, hothers w ws hw⟩⟩

end Ways

/-! ## What is kept of a list -/

section Lists

variable {f : WordField} {items : List Value}

theorem exists_map_eq {α : Type} {name : α → String} {all : List α} {ws : List String}
    (h : ∀ w ∈ ws, w ∈ all.map name) : ∃ as : List α, as.map name = ws := by
  have hrange : ws ∈ Set.range (List.map name) := by
    rw [Set.range_list_map]
    intro w hw
    obtain ⟨a, -, ha⟩ := List.mem_map.mp (h w hw)
    exact ⟨a, ha⟩
  exact hrange

/-- A list is read exactly if it may be given, and its words are kept, each once. -/
theorem wordsOf_array_ok_iff {ws : List String} :
    f.wordsOf (.array items) = .ok ws ↔ f.Accepts items ∧ ws = (items.map wordOf).eraseDups := by
  have hexists {α : Type} {name : α → String} {all : List α}
      (h : ∀ v ∈ items, wordOf v ∈ all.map name) :
      ∃ as : List α, as.map name = (items.map wordOf).eraseDups := by
    have hwords : ∀ w ∈ (items.map wordOf).eraseDups, w ∈ all.map name := by
      intro w hw
      obtain ⟨v, hv, rfl⟩ := List.mem_map.mp (List.mem_eraseDups.mp hw)
      exact h v hv
    exact exists_map_eq hwords
  -- A list of verbs must not be empty; a list of sources may be.
  cases f with
  | sources kind key =>
      simp only [WordField.wordsOf, WordField.Accepts, WordField.vocabulary, Checked.map_ok_iff,
        sourceList_array_ok_iff]
      constructor
      · rintro ⟨sources, ⟨hwords, hnames⟩, rfl⟩
        exact ⟨⟨hwords, fun hverbs => absurd hverbs (by simp)⟩, hnames⟩
      · rintro ⟨⟨hwords, -⟩, rfl⟩
        obtain ⟨sources, hsources⟩ := hexists hwords
        exact ⟨sources, ⟨hwords, hsources⟩, hsources⟩
  | verbs =>
      simp only [WordField.wordsOf, WordField.Accepts, WordField.vocabulary, Checked.map_ok_iff,
        verbList_array_ok_iff]
      constructor
      · rintro ⟨verbs, ⟨hwords, hne, hnames⟩, rfl⟩
        exact ⟨⟨hwords, fun _ => hne⟩, hnames⟩
      · rintro ⟨⟨hwords, hne⟩, rfl⟩
        obtain ⟨verbs, hverbs⟩ := hexists hwords
        exact ⟨verbs, ⟨hwords, hne trivial, hverbs⟩, hverbs⟩

theorem nodup_of_wordsOf {v : Value} {ws : List String} (h : f.wordsOf v = .ok ws) : ws.Nodup := by
  cases f with
  | sources kind key =>
      obtain ⟨sources, hread, rfl⟩ := Checked.map_ok_iff.mp h
      exact (nodup_of_sourceList hread).map (name_injective Source.ofName?_name)
  | verbs =>
      obtain ⟨verbs, hread, rfl⟩ := Checked.map_ok_iff.mp h
      exact (valid_of_verbList hread).1.map (name_injective Verb.ofName?_name)

/-- The words of a vocabulary are in upper case. -/
theorem wordOf_of_mem_vocabulary {w : String} (h : w ∈ f.vocabulary) : wordOf (.string w) = w := by
  cases f with
  | sources kind key =>
      obtain ⟨s, -, rfl⟩ := List.mem_map.mp h
      exact upper_sourceName s
  | verbs =>
      obtain ⟨v, -, rfl⟩ := List.mem_map.mp h
      exact upper_verbName v

/-- Whether a list is accepted depends on the words alone that it would give. -/
theorem accepts_iff : f.Accepts items ↔ (∀ w ∈ (items.map wordOf).eraseDups, w ∈ f.vocabulary) ∧
    (f = .verbs → (items.map wordOf).eraseDups ≠ []) := by
  unfold WordField.Accepts
  simp only [List.mem_eraseDups, List.forall_mem_map, ne_eq, eraseDups_eq_nil_iff,
    List.map_eq_nil_iff]

/-- Lists that give the same words are read alike. -/
theorem wordsOf_of_same {ws : List String} (h : f.wordsOf (.array items) = .ok ws)
    {others : List Value} (hsame : (others.map wordOf).eraseDups = (items.map wordOf).eraseDups) :
    f.wordsOf (.array others) = .ok ws := by
  rw [wordsOf_array_ok_iff, accepts_iff] at h ⊢
  rw [hsame]
  exact h

/-- What is kept is kept when it is given again. -/
theorem wordsOf_kept {ws : List String} (h : f.wordsOf (.array items) = .ok ws) :
    f.wordsOf (.array (ws.map .string)) = .ok ws := by
  have hnodup : ws.Nodup := nodup_of_wordsOf h
  obtain ⟨haccepts, hws⟩ := wordsOf_array_ok_iff.mp h
  have hvocabulary : ∀ w ∈ ws, w ∈ f.vocabulary := hws ▸ (accepts_iff.mp haccepts).1
  have hwords : (ws.map Value.string).map wordOf = ws := by
    rw [List.map_map]
    exact map_eq_self fun w hw => wordOf_of_mem_vocabulary (hvocabulary w hw)
  apply wordsOf_of_same h
  rw [hwords, eraseDups_of_nodup hnodup, hws]

/-- A string that is a word may stand for the list that holds it. -/
theorem wordsOf_string {s : String} (h : wordOf (.string s) ∈ f.vocabulary) :
    f.wordsOf (.string s) = f.wordsOf (.array [.string s]) := by
  -- The empty text would be no list at all, but it is no word.
  have hne : s ≠ "" := by
    rintro rfl
    have hsource : wordOf (.string "") ∉ Source.all.map Source.name := by decide
    have hverb : wordOf (.string "") ∉ Verb.all.map Verb.name := by decide
    cases f with
    | sources kind key => exact hsource h
    | verbs => exact hverb h
  have hitems : listedItems (.string s) = listedItems (.array [.string s]) := by
    simp [listedItems, Value.holds, hne]
  cases f with
  | sources kind key => simp only [WordField.wordsOf, sourceList, hitems]
  | verbs => simp only [WordField.wordsOf, verbList, hitems]

end Lists

/-- Lists of sources and of verbs have one normal form.  Whatever the other fields, a list is
accepted exactly if the words of its items belong to the vocabulary, and verbs are not left out;
the tag then lists these words, each once, in the order of their first mention.  The tag is the
same when its words are given instead, when an item is replaced by a string with the same upper
case, when an item is repeated later on, and when a string is given that is the only item. -/
theorem words_normal (f : WordField) {way : Entries Value → Outcome Tag}
    (hway : way = make f.kind ∨ way = build f.kind.name) {data : Entries Value}
    (hdata : ∃ v t, way (Entries.put f.key v data) = .ok t) (items : List Value) :
    ((∃ t, way (Entries.put f.key (.array items) data) = .ok t) ↔ f.Accepts items) ∧
      ∀ t, way (Entries.put f.key (.array items) data) = .ok t →
        t.words = (items.map wordOf).eraseDups ∧
        way (Entries.put f.key (.array (t.words.map .string)) data) = .ok t ∧
        (∀ before v after s, items = before ++ v :: after → Text.upper s = wordOf v →
          way (Entries.put f.key (.array (before ++ .string s :: after)) data) = .ok t) ∧
        (∀ before v after, items = before ++ after → v ∈ before →
          way (Entries.put f.key (.array (before ++ v :: after)) data) = .ok t) ∧
        ∀ s, items = [.string s] → way (Entries.put f.key (.string s) data) = .ok t := by
  constructor
  · constructor
    · rintro ⟨t, ht⟩
      exact (wordsOf_array_ok_iff.mp (way_put hway ht).1).1
    · intro haccepts
      obtain ⟨v, t, ht⟩ := hdata
      have hwords := wordsOf_array_ok_iff.mpr ⟨haccepts, rfl⟩
      exact ⟨_, (way_put hway ht).2 _ _ hwords⟩
  intro t ht
  obtain ⟨hread, hothers⟩ := way_put hway ht
  obtain ⟨haccepts, hwords⟩ := wordsOf_array_ok_iff.mp hread
  -- Whatever is read as the same words gives the same tag.
  have hsame : ∀ v, f.wordsOf v = .ok t.words → way (Entries.put f.key v data) = .ok t := by
    intro v hv
    have htag := hothers v t.words hv
    rwa [relist_words] at htag
  refine ⟨hwords, hsame _ (wordsOf_kept hread), ?_, ?_, ?_⟩
  · rintro before v after s rfl hs
    apply hsame
    apply wordsOf_of_same hread
    have hword : wordOf (.string s) = wordOf v := hs
    simp only [List.map_append, List.map_cons, hword]
  · rintro before v after rfl hv
    apply hsame
    apply wordsOf_of_same hread
    simp only [List.map_append, List.map_cons]
    exact eraseDups_append_cons_of_mem (List.mem_map_of_mem hv) _
  · rintro s rfl
    apply hsame
    rw [wordsOf_string (haccepts.1 _ List.mem_cons_self), hread]

/-- A word given twice, and one that may as well be written with a long s. -/
theorem words_normal_longS :
    let f : WordField := .sources .auth .short
    let data : Entries Value := [("name", .string "id"), ("required", .bool true)]
    let t : Tag := .param .auth
      ⟨"id", [.get, .post], "", "", .null, false, [("required", .string "true")]⟩
    let items : List Value := [.string "get", .string "Post", .string "GET"]
    build "ApiAuth" (Entries.put f.key (.array items) data) = .ok t ∧
      f.Accepts items ∧ t.words = (items.map wordOf).eraseDups ∧
      build "ApiAuth" (Entries.put f.key (.array [.string "GET", .string "POST"]) data) = .ok t ∧
      build "ApiAuth"
        (Entries.put f.key (.array [.string "get", .string "poſt", .string "GET"]) data)
          = .ok t := by
  intro f data t items
  have hbuilt : build "ApiAuth" (Entries.put f.key (.array items) data) = .ok t := by rfl
  have hway : build "ApiAuth" = build f.kind.name := rfl
  have hlong : Text.upper "poſt" = "POST" := by decide +kernel
  have hpost : wordOf (.string "Post") = "POST" := by decide
  obtain ⟨haccepts, hnormal⟩ := words_normal f (.inr hway) ⟨_, t, hbuilt⟩ items
  obtain ⟨hwords, hagain, hreplaced, -⟩ := hnormal t hbuilt
  exact ⟨hbuilt, haccepts.mp ⟨t, hbuilt⟩, hwords, hagain,
    hreplaced [.string "get"] _ [.string "GET"] "poſt" rfl (hlong.trans hpost.symm)⟩

end Tag

end Routebook
