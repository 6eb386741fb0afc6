/-
  Routebook.Proofs.Tag.Vocabulary

  Lists of words from a closed vocabulary.  An item of any type stands for a
  word, its text in upper case (`wordOf`).  A list is read exactly if all its
  words belong to the vocabulary, and what is read are these words, each once,
  in the order of their first mention (`sourceList_array_ok_iff`,
  `verbList_array_ok_iff`).

  The items are gone through one by one with the members found so far, so the
  induction is on the items and says what is added to any such members
  (`members_ok_iff`).
-/
import Mathlib.Data.List.Nodup
import Routebook.Proofs.Entries
import Routebook.Proofs.Json.Lexeme
import Routebook.Proofs.Tag.RoundTrip

namespace Routebook.Tag

/-- The word that an item stands for, whatever its type. -/
def wordOf (v : Value) : String := Text.upper v.text

/-! ## Items that stand for no member -/

/-- A text that starts with a character that is no letter. -/
def StartsOdd (s : String) : Prop :=
  ∃ c cs, s.toList = c :: cs ∧ c.toNat < 0x80 ∧ c.toUpper.isUpper = false

theorem StartsOdd.upper {s : String} (h : StartsOdd s) :
    ∀ c ∈ (Text.upper s).toList.head?, c.isUpper = false := by
  obtain ⟨c, cs, hs, hascii, hodd⟩ := h
  intro d hd
  rw [Text.upper, String.toList_ofList, hs, List.flatMap_cons, Text.Upper.ofChar,
    if_pos hascii] at hd
  obtain rfl : c.toUpper = d := Option.some.inj hd
  exact hodd

theorem not_isUpper_of_isDigit {c : Char} (h : c.isDigit = true) :
    c.toNat < 0x80 ∧ c.toUpper.isUpper = false := by
  obtain ⟨hlow, hhigh⟩ := Json.isDigit_iff.mp h
  have hall : ∀ n < 58, 48 ≤ n → (Char.ofNat n).toUpper.isUpper = false := by decide
  have hodd := hall c.toNat (by omega) hlow
  rw [Char.ofNat_toNat] at hodd
  exact ⟨by omega, hodd⟩

theorem startsOdd_toString_int (n : Int) : StartsOdd (toString n) := by
  obtain ⟨c, ds, hdigits⟩ := List.exists_cons_of_ne_nil
    (List.ne_nil_of_length_pos (Nat.length_toDigits_pos (b := 10) (n := n.natAbs)))
  have hc : c.isDigit = true := Json.isDigit_of_mem_toDigits c (hdigits ▸ List.mem_cons_self)
  have htext := Json.toList_toString_int n
  rw [hdigits] at htext
  by_cases hneg : n < 0
  · rw [decide_eq_true hneg] at htext
    exact ⟨'-', c :: ds, htext, by decide⟩
  · rw [decide_eq_false hneg] at htext
    exact ⟨c, ds, htext, not_isUpper_of_isDigit hc⟩

/-- An integer that is too long stands in no text that starts with a letter. -/
theorem startsOdd_of_hasLongInt {v : Value} (h : v.hasLongInt = true) : StartsOdd v.text := by
  cases v with
  | int n => exact startsOdd_toString_int n
  | array items =>
      have htext : (Value.array items).text.toList
          = '[' :: (Value.literalItems items ++ "]").toList := by
        rw [Value.text, Value.literal] <;> simp
      exact ⟨'[', _, htext, by decide⟩
  | object fields =>
      have htext : (Value.object fields).text.toList
          = '\x7b' :: (Value.literalFields fields ++ "\x7d").toList := by
        rw [Value.text, Value.literal] <;> simp
      exact ⟨'\x7b', _, htext, by decide⟩
  | _ => exact absurd h (by simp [Value.hasLongInt])

/-! ## Names of members -/

section Names

variable {α : Type} {name : α → String} {all : List α}
  (hself : ∀ a, all.find? (fun b => name b == name a) = some a)

include hself

theorem find?_name_iff (s : String) (a : α) :
    all.find? (fun b => name b == s) = some a ↔ name a = s := by
  constructor
  · intro h
    have hfound := List.find?_some h
    exact eq_of_beq hfound
  · rintro rfl
    exact hself a

theorem name_injective : Function.Injective name := by
  intro a b h
  have ha := hself a
  rw [h, hself b] at ha
  exact (Option.some.inj ha).symm

theorem mem_names_iff (s : String) : s ∈ all.map name ↔ ∃ a, name a = s := by
  rw [List.mem_map]
  exact ⟨fun ⟨a, _, ha⟩ => ⟨a, ha⟩, fun ⟨a, ha⟩ => ⟨a, List.mem_of_find?_eq_some (hself a), ha⟩⟩

end Names

/-! ## Going through the items -/

section Members

variable {α : Type} {name : α → String}

/-- An item is read as the member whose name is its word. -/
theorem member_ok_iff {what : String} {allowed : List String} {ofName? : String → Option α}
    (hname : ∀ s a, ofName? s = some a ↔ name a = s)
    (hupper : ∀ a, ∃ c ∈ (name a).toList.head?, c.isUpper = true) {v : Value} {a : α} :
    member what allowed ofName? v = .ok a ↔ name a = wordOf v := by
  unfold member
  split
  · next hlong =>
      -- A number too long to be written starts with no letter, and every name does.
      refine iff_of_false (Checked.fault_ne_ok _ _) fun he => ?_
      obtain ⟨c, hc, hletter⟩ := hupper a
      rw [he] at hc
      exact absurd hletter (by simp [(startsOdd_of_hasLongInt hlong).upper c hc])
  · rw [← hname]
    show (match ofName? (wordOf v) with
      | some a => .ok a
      | none => .fault _) = Checked.ok a ↔ _
    cases ofName? (wordOf v) with
    | none => exact iff_of_false (Checked.fault_ne_ok _ _) nofun
    | some b => simp

variable [BEq α] [LawfulBEq α]

/-- Adding a member is adding its name, where it has not occurred. -/
theorem eraseDups_add (acc : List α) (a : α) (rest : List String) :
    ((if acc.contains a then acc else acc ++ [a]).map name ++ rest).eraseDups
      = (acc.map name ++ name a :: rest).eraseDups := by
  split
  · next hold =>
      have hmem : name a ∈ acc.map name := List.mem_map_of_mem (List.contains_iff_mem.mp hold)
      exact (eraseDups_append_cons_of_mem hmem rest).symm
  · rw [List.map_append, List.append_assoc]
    rfl

/-- The members read are those found so far and those the items stand for, each once. -/
theorem members_ok_iff {read : Value → Checked α} (hinj : Function.Injective name)
    (hread : ∀ v a, read v = .ok a ↔ name a = wordOf v) {vs : List Value} {acc as : List α}
    (hd : acc.Nodup) :
    members read acc vs = .ok as ↔
      (∀ v ∈ vs, ∃ a, name a = wordOf v) ∧
        as.map name = (acc.map name ++ vs.map wordOf).eraseDups := by
  induction vs generalizing acc with
  | nil =>
      have hkept : (acc.map name ++ [].map wordOf).eraseDups = acc.map name := by
        rw [List.map_nil, List.append_nil]
        exact eraseDups_of_nodup (hd.map hinj)
      rw [hkept, members, Checked.ok.injEq, hinj.list_map.eq_iff]
      simp [eq_comm]
  | cons v vs ih =>
      rw [members, Checked.andThen_ok_iff, List.forall_mem_cons, List.map_cons]
      -- Reading adds a member at the end unless it is there, as taking each word once does.
      constructor
      · rintro ⟨a, ha, h⟩
        rw [hread] at ha
        rw [ih (nodup_add hd a), eraseDups_add] at h
        exact ⟨⟨⟨a, ha⟩, h.1⟩, ha ▸ h.2⟩
      · rintro ⟨⟨⟨a, ha⟩, hvs⟩, h⟩
        refine ⟨a, (hread v a).mpr ha, (ih (nodup_add hd a)).mpr ⟨hvs, ?_⟩⟩
        rw [eraseDups_add, ha]
        exact h

/-- The members of a vocabulary that the items of a list name. -/
theorem members_names_ok_iff {all : List α}
    (hself : ∀ a, all.find? (fun b => name b == name a) = some a)
    (hupper : ∀ a, ∃ c ∈ (name a).toList.head?, c.isUpper = true) {what : String}
    {vs : List Value} {as : List α} :
    members (member what (all.map name) fun s => all.find? fun b => name b == s) [] vs = .ok as ↔
      (∀ v ∈ vs, wordOf v ∈ all.map name) ∧ as.map name = (vs.map wordOf).eraseDups := by
  have hread : ∀ v a, member what (all.map name) (fun s => all.find? fun b => name b == s) v = .ok a
      ↔ name a = wordOf v := fun _ _ => member_ok_iff (find?_name_iff hself) hupper
  rw [members_ok_iff (name_injective hself) hread List.nodup_nil]
  simp only [mem_names_iff hself]
  rfl

end Members

/-! ## The two vocabularies -/

theorem sourceList_array_ok_iff {vs : List Value} {sources : List Source} :
    sourceList (.array vs) = .ok sources ↔
      (∀ v ∈ vs, wordOf v ∈ Source.all.map Source.name) ∧
        sources.map Source.name = (vs.map wordOf).eraseDups := by
  have hupper : ∀ s : Source, ∃ c ∈ s.name.toList.head?, c.isUpper = true := by
    intro s
    cases s <;> exact ⟨_, rfl, rfl⟩
  unfold sourceList
  rw [listedItems_array]
  exact members_names_ok_iff Source.ofName?_name hupper

/-- Verbs are listed like sources, but there must be one. -/
theorem verbList_array_ok_iff {vs : List Value} {verbs : List Verb} :
    verbList (.array vs) = .ok verbs ↔
      (∀ v ∈ vs, wordOf v ∈ Verb.all.map Verb.name) ∧ vs ≠ [] ∧
        verbs.map Verb.name = (vs.map wordOf).eraseDups := by
  have hupper : ∀ v : Verb, ∃ c ∈ v.name.toList.head?, c.isUpper = true := by
    intro v
    cases v <;> exact ⟨_, rfl, rfl⟩
  unfold verbList
  rw [listedItems_array, Checked.andThen_ok_iff]
  constructor
  · rintro ⟨found, hfound, h⟩
    obtain ⟨hwords, hnames⟩ := (members_names_ok_iff Verb.ofName?_name hupper).mp hfound
    split at h
    · exact absurd h (Checked.fault_ne_ok _ _)
    · next hne =>
        obtain rfl := Checked.ok.inj h
        refine ⟨hwords, fun hempty => hne ?_, hnames⟩
        rw [hempty] at hnames
        simpa using hnames
  · rintro ⟨hwords, hne, hnames⟩
    refine ⟨verbs, (members_names_ok_iff Verb.ofName?_name hupper).mpr ⟨hwords, hnames⟩, ?_⟩
    obtain ⟨v, vs, rfl⟩ := List.exists_cons_of_ne_nil hne
    -- The list is not empty, for the first word is among the names of what was read.
    have hfirst : wordOf v ∈ verbs.map Verb.name := by
      rw [hnames, List.mem_eraseDups]
      exact List.mem_cons_self
    obtain ⟨verb, hverb, -⟩ := List.mem_map.mp hfirst
    rw [if_neg fun hempty => List.ne_nil_of_mem hverb (List.isEmpty_iff.mp hempty)]

end Routebook.Tag
