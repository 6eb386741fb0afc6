/-
  Routebook.Proofs.Json.Document

  What a reader answers stays within its limits (`fits_of_read?`): no integer
  is longer than the dialect admits, nothing is nested deeper, and no object
  has a key twice.  One token keeps this (`State.Fits.step`), so all tokens of
  a text do.

  Documents are written with names for the numbers that are not finite, so
  every value within the limits is read back from its layout
  (`read?_document`); what was read from some text is such a value.
-/
import Mathlib.Data.List.Induction
import Routebook.Proofs.Each
import Routebook.Proofs.Json.Stored

namespace Routebook.Json

section Limits

variable {dialect : Dialect}

/-! ## Tokens that fit -/

/-- An integer is not too long; nothing else is limited. -/
def Dialect.FitsToken (dialect : Dialect) : Token → Prop
  | .int n => dialect.AdmitsInt n
  | _ => True

theorem digitsValue_lt (ds : List Char) (h : ∀ c ∈ ds, c.isDigit = true) :
    Token.digitsValue ds < 10 ^ ds.length := by
  -- The last digit is the one that is added; those before it count tenfold.
  induction ds using List.reverseRecOn with
  | nil => decide
  | append_singleton ds c ih =>
      have hds := ih fun d hd => h d (List.mem_append_left _ hd)
      have hc : c.toNat - '0'.toNat < 10 := by
        have hdigit := isDigit_iff.mp (h c (List.mem_append_right _ List.mem_cons_self))
        have hzero : '0'.toNat = 48 := rfl
        omega
      rw [digitsValue_append, Nat.ofDigitChars_cons, Nat.ofDigitChars_nil, List.length_append,
        List.length_singleton, Nat.pow_succ]
      omega

/-- A number has no more digits than it is written with. -/
theorem admitsInt_of_length {whole : List Char} (hne : whole ≠ [])
    (hdigits : ∀ c ∈ whole, c.isDigit = true) (hlength : ∀ m ∈ dialect.maxDigits, whole.length ≤ m)
    {n : Int} (hn : n.natAbs = Token.digitsValue whole) : dialect.AdmitsInt n := by
  intro m hm
  have hpos : 0 < whole.length := List.length_pos_iff.mpr hne
  rw [hn]
  refine Nat.le_trans ?_ (hlength m hm)
  exact (Nat.length_toDigits_le_iff (by decide) hpos).mpr (digitsValue_lt whole hdigits)

theorem fits_numberWith {negative : Bool} {whole rest rest' : List Char} {t : Token}
    (hne : whole ≠ []) (hdigits : ∀ c ∈ whole, c.isDigit = true)
    (h : Token.numberWith dialect negative whole rest = some (t, rest')) :
    dialect.FitsToken t := by
  unfold Token.numberWith at h
  split at h
  · split at h
    · -- Without places and an exponent it is an integer, and not a long one.
      split at h
      · exact absurd h (by simp)
      · next hshort =>
          obtain ⟨rfl, -⟩ := Prod.mk.inj (Option.some.inj h)
          refine admitsInt_of_length hne hdigits (fun m hm => ?_) ?_
          · rw [show dialect.maxDigits = some m from hm] at hshort
            exact Nat.le_of_not_lt fun hlt => hshort (decide_eq_true hlt)
          · split <;> omega
    · obtain ⟨rfl, -⟩ := Prod.mk.inj (Option.some.inj h)
      trivial
  · obtain ⟨rfl, -⟩ := Prod.mk.inj (Option.some.inj h)
    trivial

theorem fits_number {negative : Bool} {cs rest : List Char} {t : Token}
    (h : Token.number dialect negative cs = some (t, rest)) : dialect.FitsToken t := by
  unfold Token.number at h
  split at h
  · exact fits_numberWith (List.cons_ne_nil _ _) isDigit_zero h
  · next c cs _ =>
      split at h
      · next hc =>
          rw [List.span_eq_takeWhile_dropWhile] at h
          refine fits_numberWith (List.cons_ne_nil _ _) (fun d hd => ?_) h
          rcases List.mem_cons.mp hd with rfl | hd
          · exact hc
          · exact List.all_eq_true.mp (List.all_takeWhile ..) d hd
      · exact absurd h (by simp)
  · exact absurd h (by simp)

theorem fits_first {cs rest : List Char} {t : Token}
    (h : Token.first dialect cs = some (t, rest)) : dialect.FitsToken t := by
  unfold Token.first at h
  split at h
  -- Only numbers are limited.
  case h_7 =>
    obtain ⟨r, -, hr⟩ := Option.map_eq_some_iff.mp h
    obtain ⟨rfl, -⟩ := Prod.mk.inj hr
    trivial
  case h_14 => exact fits_number h
  case h_15 => exact fits_number h
  all_goals
    obtain ⟨rfl, -⟩ := Prod.mk.inj (Option.some.inj h)
    trivial

theorem fits_all {fuel : Nat} {acc ts : List Token} {cs : List Char}
    (hacc : ∀ t ∈ acc, dialect.FitsToken t) (h : Token.all dialect fuel acc cs = some ts) :
    ∀ t ∈ ts, dialect.FitsToken t := by
  induction fuel generalizing acc cs with
  | zero => exact absurd h (by simp [Token.all])
  | succ fuel ih =>
      rw [Token.all] at h
      split at h
      · obtain rfl := Option.some.inj h
        exact fun t ht => hacc t (List.mem_reverse.mp ht)
      · split at h
        · next hfirst =>
            refine ih (fun t ht => ?_) h
            rcases List.mem_cons.mp ht with rfl | ht
            · exact fits_first hfirst
            · exact hacc t ht
        · exact absurd h (by simp)

/-! ## Values that fit -/

theorem fitsAll_iff (depth : Nat) (xs : List Value) :
    dialect.fitsAll depth xs = true ↔ ∀ x ∈ xs, dialect.fits depth x = true := by
  induction xs with
  | nil => simp [Dialect.fitsAll]
  | cons x xs ih => rw [Dialect.fitsAll, Bool.and_eq_true, ih, List.forall_mem_cons]

theorem fitsFields_iff (depth : Nat) (xs : Entries Value) :
    dialect.fitsFields depth xs = true ↔
      Entries.Each (fun _ x => dialect.fits depth x = true) xs := by
  induction xs with
  | nil => simp [Dialect.fitsFields, Entries.Each]
  | cons e xs ih =>
      obtain ⟨k, x⟩ := e
      rw [Dialect.fitsFields, Bool.and_eq_true, ih, Entries.Each, Entries.Each,
        List.forall_mem_cons]

/-- What a frame holds fits at the depth of its items. -/
def Frame.Fits (dialect : Dialect) (depth : Nat) : Frame → Prop
  | .array items => ∀ x ∈ items, dialect.fits depth x = true
  | .object fields _ =>
    (Entries.keys fields).Nodup ∧ Entries.Each (fun _ x => dialect.fits depth x = true) fields

/-- What is open fits, and not too much of it is open. -/
def FitsStack (dialect : Dialect) : List Frame → Prop
  | [] => True
  | f :: stack =>
    (∀ m ∈ dialect.maxDepth, stack.length < m) ∧ f.Fits dialect (stack.length + 1) ∧
      FitsStack dialect stack

/-- What was read so far fits. -/
def State.Fits (dialect : Dialect) : State → Prop
  | .value stack _ => FitsStack dialect stack
  | .key fields stack _ => FitsStack dialect (.object fields "" :: stack)
  | .colon fields k stack => FitsStack dialect (.object fields k :: stack)
  | .done v stack => dialect.fits stack.length v = true ∧ FitsStack dialect stack

theorem fits_array {depth : Nat} {items : List Value} (hdepth : ∀ m ∈ dialect.maxDepth, depth < m)
    (h : ∀ x ∈ items, dialect.fits (depth + 1) x = true) :
    dialect.fits depth (.array items) = true := by
  rw [Dialect.fits, Bool.and_eq_true]
  exact ⟨all_of_forall_mem hdepth, (fitsAll_iff _ _).mpr h⟩

theorem fits_object {depth : Nat} {fields : Entries Value}
    (hdepth : ∀ m ∈ dialect.maxDepth, depth < m) (hd : (Entries.keys fields).Nodup)
    (h : Entries.Each (fun _ x => dialect.fits (depth + 1) x = true) fields) :
    dialect.fits depth (.object fields) = true := by
  rw [Dialect.fits, Bool.and_eq_true, Bool.and_eq_true]
  exact ⟨⟨all_of_forall_mem hdepth, decide_eq_true hd⟩, (fitsFields_iff _ _).mpr h⟩

/-- Another item of the array that is open. -/
theorem FitsStack.item {v : Value} {items : List Value} {stack : List Frame}
    (hv : dialect.fits (stack.length + 1) v = true)
    (h : FitsStack dialect (.array items :: stack)) :
    FitsStack dialect (.array (v :: items) :: stack) :=
  ⟨h.1, List.forall_mem_cons.mpr ⟨hv, h.2.1⟩, h.2.2⟩

/-- Another field of the object that is open. -/
theorem FitsStack.field {v : Value} {fields : Entries Value} {k : String} {stack : List Frame}
    (hv : dialect.fits (stack.length + 1) v = true)
    (h : FitsStack dialect (.object fields k :: stack)) (l : String) :
    FitsStack dialect (.object (Entries.put k v fields) l :: stack) :=
  ⟨h.1, ⟨Entries.nodup_keys_put k v h.2.1.1, Entries.each_put h.2.1.2 hv⟩, h.2.2⟩

theorem FitsStack.push {f : Frame} {stack : List Frame} (hopen : State.mayOpen dialect stack = true)
    (hf : f.Fits dialect (stack.length + 1)) (h : FitsStack dialect stack) :
    FitsStack dialect (f :: stack) := by
  refine ⟨fun m hm => ?_, hf, h⟩
  rw [State.mayOpen, show dialect.maxDepth = some m from hm] at hopen
  exact of_decide_eq_true hopen

theorem fits_closeArray {items : List Value} {stack : List Frame}
    (h : FitsStack dialect (.array items :: stack)) :
    State.Fits dialect (.done (.array items.reverse) stack) :=
  ⟨fits_array h.1 fun x hx => h.2.1 x (List.mem_reverse.mp hx), h.2.2⟩

theorem fits_closeObject {fields : Entries Value} {k : String} {stack : List Frame}
    (h : FitsStack dialect (.object fields k :: stack)) :
    State.Fits dialect (.done (.object fields) stack) :=
  ⟨fits_object h.1 h.2.1.1 h.2.1.2, h.2.2⟩

theorem fits_scalar {t : Token} {v : Value} (ht : dialect.FitsToken t)
    (h : State.scalar? t = some v) (depth : Nat) : dialect.fits depth v = true := by
  cases t with
  | int n =>
      obtain rfl := Option.some.inj h
      rw [Dialect.fits]
      exact all_of_forall_mem ht
  | null | bool | float | string =>
      obtain rfl := Option.some.inj h
      rw [Dialect.fits] <;> simp
  | openArray | closeArray | openObject | closeObject | comma | colon =>
      exact absurd h (by simp [State.scalar?])

/-! ## What is read fits -/

/-- One token that fits keeps what was read within the limits. -/
theorem State.Fits.step {s s' : State} {t : Token} (hs : s.Fits dialect)
    (ht : dialect.FitsToken t) (h : State.step dialect s t = some s') : s'.Fits dialect := by
  unfold State.step at h
  split at h
  -- Something is opened.
  case h_1 =>
    split at h
    · next hopen =>
        obtain rfl := Option.some.inj h
        exact FitsStack.push hopen (fun x hx => absurd hx List.not_mem_nil) hs
    · exact absurd h (by simp)
  case h_2 =>
    split at h
    · next hopen =>
        obtain rfl := Option.some.inj h
        exact FitsStack.push hopen ⟨List.nodup_nil, Entries.each_nil⟩ hs
    · exact absurd h (by simp)
  -- A whole value is read.
  case h_4 =>
    obtain ⟨v, hv, rfl⟩ := Option.map_eq_some_iff.mp h
    exact ⟨fits_scalar ht hv _, hs⟩
  case h_12 => exact absurd h (by simp)
  all_goals obtain rfl := Option.some.inj h
  -- Something empty is closed, or a key is read.
  case h_3 => exact fits_closeArray hs
  case h_6 => exact fits_closeObject hs
  case h_5 => exact hs
  case h_7 => exact hs
  -- A value in something open is complete.
  case h_8 => exact hs.2.item hs.1
  case h_9 => exact fits_closeArray (hs.2.item hs.1)
  case h_10 => exact hs.2.field hs.1 ""
  case h_11 => exact fits_closeObject (hs.2.field hs.1 "")

theorem State.Fits.run {s s' : State} {ts : List Token} (hs : s.Fits dialect)
    (hts : ∀ t ∈ ts, dialect.FitsToken t) (h : State.run dialect s ts = some s') :
    s'.Fits dialect := by
  induction ts generalizing s with
  | nil => exact Option.some.inj h ▸ hs
  | cons t ts ih =>
      obtain ⟨ht, hts⟩ := List.forall_mem_cons.mp hts
      rw [State.run] at h
      split at h
      · next hstep => exact ih (hs.step ht hstep) hts h
      · exact absurd h (by simp)

/-- What a reader answers is within its limits. -/
theorem fits_of_read? {text : String} {v : Value} (h : read? dialect text = some v) :
    dialect.fits 0 v = true := by
  obtain ⟨ts, hts, h⟩ := Option.bind_eq_some_iff.mp h
  obtain ⟨s, hs, h⟩ := Option.bind_eq_some_iff.mp h
  have htokens : ∀ t ∈ ts, dialect.FitsToken t :=
    fits_all (fun t ht => absurd ht List.not_mem_nil) hts
  have hfits : s.Fits dialect := State.Fits.run (s := .start) trivial htokens hs
  -- Only a whole value with nothing open is an answer.
  unfold State.result? at h
  split at h
  · obtain rfl := Option.some.inj h
    exact hfits.1
  · exact absurd h (by simp)

end Limits

/-! ## Documents -/

/-- Documents give every number back. -/
theorem reads_document (dialect : Dialect) (x : Double) : Style.document.Reads dialect x := by
  cases x with
  | nan => exact ⟨fun _ _ => rfl, 'N', ['a', 'N'], rfl, by decide⟩
  | infinite negative =>
      cases negative with
      | true => exact ⟨fun _ _ => rfl, _, _, rfl, by decide⟩
      | false => exact ⟨fun _ _ => rfl, _, _, rfl, by decide⟩
  | finite negative rank => exact reads_finite .display dialect "" rfl

theorem separates_document : Style.document.Separates :=
  ⟨[' '], rfl, by simp [Token.isBlank]⟩

/-- A value that fits is read from its layout as it was. -/
theorem read?_document {dialect : Dialect} {v : Value} (h : dialect.fits 0 v = true) :
    read? dialect (print .document v) = some v := by
  have hadmits : Admits .document dialect 0 v :=
    admits_of_fits (fun x (_ : False → _) => reads_document dialect x) 0 v False.elim h
  rw [read?_print separates_document hadmits, collapsed_eq_self v (distinct_of_fits 0 v h)]

/-! ## Values without long integers -/

theorem admitsInt_of_not_tooLong {n : Int} (h : Value.tooLong n = false) :
    Dialect.document.AdmitsInt n := by
  intro m hm
  obtain rfl : Value.digitLimit = m := Option.some.inj hm
  have hpos : 0 < Value.digitLimit := Nat.succ_pos _
  have hlt : ¬ Nat.pow 10 Value.digitLimit ≤ n.natAbs := of_decide_eq_false h
  -- The limit is kept as it is: a power of that size is never computed.
  generalize Value.digitLimit = limit at hpos hlt ⊢
  exact (Nat.length_toDigits_le_iff (by decide) hpos).mpr (Nat.lt_of_not_le hlt)

mutual
/-- Without long integers and repeated keys a value fits, however deep it is nested. -/
theorem fits_of_distinct (depth : Nat) : ∀ v : Value, Distinct v → v.hasLongInt = false →
    Dialect.document.fits depth v = true
  | .null => fun _ _ => by rw [Dialect.fits] <;> simp
  | .bool _ => fun _ _ => by rw [Dialect.fits] <;> simp
  | .string _ => fun _ _ => by rw [Dialect.fits] <;> simp
  | .float _ => fun _ _ => by rw [Dialect.fits] <;> simp
  | .int n => by
      intro _ hshort
      rw [Value.hasLongInt] at hshort
      rw [Dialect.fits]
      exact all_of_forall_mem (admitsInt_of_not_tooLong hshort)
  | .array xs => by
      intro hd hshort
      rw [Distinct] at hd
      rw [Value.hasLongInt] at hshort
      rw [Dialect.fits, fitsAll_of_distinct (depth + 1) xs hd hshort]
      rfl
  | .object xs => by
      intro hd hshort
      rw [Distinct] at hd
      rw [Value.hasLongInt] at hshort
      rw [Dialect.fits, fitsFields_of_distinct (depth + 1) xs hd.2 hshort, decide_eq_true hd.1]
      rfl

theorem fitsAll_of_distinct (depth : Nat) : ∀ xs : List Value, DistinctAll xs →
    Value.anyLongInt xs = false → Dialect.document.fitsAll depth xs = true
  | [] => fun _ _ => by rw [Dialect.fitsAll]
  | x :: xs => by
      intro hd hshort
      rw [DistinctAll] at hd
      rw [Value.anyLongInt, Bool.or_eq_false_iff] at hshort
      rw [Dialect.fitsAll, fits_of_distinct depth x hd.1 hshort.1,
        fitsAll_of_distinct depth xs hd.2 hshort.2]
      rfl

theorem fitsFields_of_distinct (depth : Nat) : ∀ xs : List (String × Value), DistinctFields xs →
    Value.anyLongField xs = false → Dialect.document.fitsFields depth xs = true
  | [] => fun _ _ => by rw [Dialect.fitsFields]
  | (_, x) :: xs => by
      intro hd hshort
      rw [DistinctFields] at hd
      rw [Value.anyLongField, Bool.or_eq_false_iff] at hshort
      rw [Dialect.fitsFields, fits_of_distinct depth x hd.1 hshort.1,
        fitsFields_of_distinct depth xs hd.2 hshort.2]
      rfl
end

end Routebook.Json
