/-
  Routebook.Proofs.Json.Fractional

  Finite numbers in JSON texts.  `Fractional` describes the texts with a point
  or an exponent and the decimals they stand for; such a text is read as the
  number nearest to its decimal (`first_fractional`).  What a layout writes is
  of this form, and its decimal has the rank of the number it was written for
  (`fractional_write`), so every finite number is read back
  (`reads_stored`).
-/
import Routebook.Proofs.Double.Decimal
import Routebook.Proofs.Json.RoundTrip
import Routebook.Proofs.Value

namespace Routebook.Json

open Double (Decimal rankOfDecimal zeros digitCount)

/-! ## Texts with a point or an exponent -/

/-- A point with places, or nothing. -/
def pointChars (places : List Char) : List Char :=
  if places.isEmpty then [] else '.' :: places

/-- The mark of an exponent, its sign and its digits. -/
def exponentChars (negative : Bool) (ds : List Char) : List Char :=
  'e' :: (if negative then '-' else '+') :: ds

/-- An exponent as a power. -/
def signedValue (negative : Bool) (ds : List Char) : Int :=
  if negative then -(Token.digitsValue ds : Int) else Token.digitsValue ds

/-- The text of a number with a point or an exponent, without its sign, and
the decimal it stands for. -/
inductive Fractional : List Char → Nat → Int → Prop where
  | point {whole places : List Char} (hwhole : Whole whole) (hne : places ≠ [])
      (hplaces : ∀ c ∈ places, c.isDigit = true) :
      Fractional (whole ++ '.' :: places) (Token.digitsValue (whole ++ places))
        (-(places.length : Int))
  | exponent {whole places ds : List Char} (hwhole : Whole whole)
      (hplaces : ∀ c ∈ places, c.isDigit = true) (negative : Bool) (hne : ds ≠ [])
      (hds : ∀ c ∈ ds, c.isDigit = true) :
      Fractional (whole ++ (pointChars places ++ exponentChars negative ds))
        (Token.digitsValue (whole ++ places)) (signedValue negative ds - (places.length : Int))

theorem noDigit_cons {c : Char} (hc : c.isDigit = false) (rest : List Char) :
    NoDigit (c :: rest) := by
  intro d hd
  rw [← Option.some.inj hd]
  exact hc

theorem fraction_point {places rest : List Char} (hne : places ≠ [])
    (hplaces : ∀ c ∈ places, c.isDigit = true) (hrest : NoDigit rest) :
    Token.fraction ('.' :: (places ++ rest)) = (places, rest) := by
  unfold Token.fraction
  simp only [span_digits hplaces hrest]

theorem fraction_pointChars {places rest : List Char}
    (hplaces : ∀ c ∈ places, c.isDigit = true) (hrest : NoDigit rest)
    (hpoint : ∀ cs, rest ≠ '.' :: cs) :
    Token.fraction (pointChars places ++ rest) = (places, rest) := by
  cases places with
  | nil =>
      show Token.fraction rest = ([], rest)
      rw [Token.fraction]
      exact fun cs hcs => hpoint cs hcs
  | cons c cs => exact fraction_point (by simp) hplaces hrest

theorem exponent_exponentChars (negative : Bool) {ds rest : List Char} (hne : ds ≠ [])
    (hds : ∀ c ∈ ds, c.isDigit = true) (hrest : NoDigit rest) :
    Token.exponent (exponentChars negative ds ++ rest)
      = (some (signedValue negative ds), rest) := by
  have hspan := span_digits hds hrest
  cases negative with
  | true =>
      simp [Token.exponent, exponentChars, signedValue, hspan,
        -List.span_eq_takeWhile_dropWhile]
  | false =>
      simp [Token.exponent, exponentChars, signedValue, hspan,
        -List.span_eq_takeWhile_dropWhile]

/-- A number with a point or an exponent is read as the number nearest to its decimal. -/
theorem first_fractional (dialect : Dialect) (negative : Bool) {cs rest : List Char} {n : Nat}
    {power : Int} (h : Fractional cs n power) (hrest : Ends rest) :
    Token.first dialect (signChars negative ++ cs ++ rest)
      = some (.float (Double.ofDecimal negative n power), rest) := by
  cases h with
  | @point whole places hwhole hne hplaces =>
      -- The point ends the whole digits, and what follows ends the places.
      have hnext : NoDigit ('.' :: (places ++ rest)) := noDigit_cons (by decide) _
      have hchars : signChars negative ++ (whole ++ '.' :: places) ++ rest
          = signChars negative ++ whole ++ '.' :: (places ++ rest) := by simp
      obtain ⟨p, ps, rfl⟩ := List.exists_cons_of_ne_nil hne
      rw [hchars, first_whole dialect negative hwhole hnext, Token.numberWith,
        fraction_point hne hplaces hrest.noDigit]
      simp only [exponent_of_ends hrest]
      simp
  | @exponent whole places ds hwhole hplaces sign hne hds =>
      -- The mark of the exponent ends the digits before it, with or without a point.
      have hmark : NoDigit (exponentChars sign ds ++ rest) := noDigit_cons (by decide) _
      have hnext : NoDigit (pointChars places ++ (exponentChars sign ds ++ rest)) := by
        cases places with
        | nil => exact hmark
        | cons p ps => exact noDigit_cons (by decide) _
      have hpoint : ∀ r, exponentChars sign ds ++ rest ≠ '.' :: r := by
        intro r hr
        exact absurd (List.cons.inj hr).1 (by decide)
      have hchars : signChars negative ++ (whole ++ (pointChars places ++ exponentChars sign ds))
            ++ rest
          = signChars negative ++ whole ++
              (pointChars places ++ (exponentChars sign ds ++ rest)) := by simp
      rw [hchars, first_whole dialect negative hwhole hnext, Token.numberWith,
        fraction_pointChars hplaces hmark hpoint]
      cases places with
      | nil =>
          simp only [exponent_exponentChars sign hne hds hrest.noDigit]
          simp
      | cons p ps =>
          simp only [exponent_exponentChars sign hne hds hrest.noDigit]
          simp

/-! ## What a layout writes -/

theorem digitsValue_append (ds es : List Char) :
    Token.digitsValue (ds ++ es) = Nat.ofDigitChars 10 es (Token.digitsValue ds) := by
  rw [digitsValue_eq, digitsValue_eq, Nat.ofDigitChars_append]

theorem toList_zeros (k : Nat) : (zeros k).toList = List.replicate k '0' := String.toList_ofList

theorem digitsValue_zeros_append (k : Nat) (ds : List Char) :
    Token.digitsValue (List.replicate k '0' ++ ds) = Token.digitsValue ds := by
  rw [digitsValue_append, digitsValue_eq (List.replicate k '0'), Nat.ofDigitChars_replicate_zero,
    digitsValue_eq]
  rfl

theorem digitsValue_append_zeros (ds : List Char) (k : Nat) :
    Token.digitsValue (ds ++ List.replicate k '0') = Token.digitsValue ds * 10 ^ k := by
  rw [digitsValue_append, Nat.ofDigitChars_replicate_zero, Nat.mul_comm]

theorem isDigit_of_mem_zeros {k : Nat} : ∀ c ∈ List.replicate k '0', c.isDigit = true :=
  fun _ hc => List.eq_of_mem_replicate hc ▸ by decide

theorem isDigit_zero : ∀ c ∈ ['0'], c.isDigit = true := isDigit_of_mem_zeros (k := 1)

/-- The first digits of a number above zero, followed by other digits. -/
theorem whole_take_append {n w : Nat} (hn : n ≠ 0) (hw : w ≠ 0) {ds : List Char}
    (hds : ∀ c ∈ ds, c.isDigit = true) : Whole ((Nat.toDigits 10 n).take w ++ ds) := by
  obtain ⟨c, cs, hdigits, hne⟩ := toDigits_eq_cons hn
  obtain ⟨w, rfl⟩ := Nat.exists_eq_succ_of_ne_zero hw
  have hall : ∀ d ∈ c :: cs, d.isDigit = true := hdigits ▸ isDigit_of_mem_toDigits
  rw [hdigits]
  refine .other hne (hall c List.mem_cons_self) fun d hd => ?_
  rcases List.mem_append.mp hd with hd | hd
  · exact hall d (List.mem_cons_of_mem _ (List.mem_of_mem_take hd))
  · exact hds d hd

theorem whole_take {n w : Nat} (hn : n ≠ 0) (hw : w ≠ 0) : Whole ((Nat.toDigits 10 n).take w) := by
  have hnone : ∀ c ∈ ([] : List Char), c.isDigit = true := by simp
  have h := whole_take_append hn hw hnone
  rwa [List.append_nil] at h

theorem isDigit_of_mem_drop {n w : Nat} :
    ∀ c ∈ (Nat.toDigits 10 n).drop w, c.isDigit = true :=
  fun c hc => isDigit_of_mem_toDigits c (List.mem_of_mem_drop hc)

/-- All digits behind the point. -/
theorem fractional_small (n k : Nat) :
    Fractional ("0." ++ zeros k ++ String.ofList (Nat.toDigits 10 n)).toList n
      (-((k + digitCount n : Nat) : Int)) := by
  have hne : List.replicate k '0' ++ Nat.toDigits 10 n ≠ [] := by
    have : 0 < (Nat.toDigits 10 n).length := Nat.length_toDigits_pos
    intro h
    simp [List.append_eq_nil_iff] at h
  have h := Fractional.point .zero hne fun c hc =>
    (List.mem_append.mp hc).elim (isDigit_of_mem_zeros c) (isDigit_of_mem_toDigits c)
  -- Zeros in front of the digits count nothing, but they count as places.
  have hvalue : Token.digitsValue (['0'] ++ (List.replicate k '0' ++ Nat.toDigits 10 n)) = n := by
    rw [← List.append_assoc, ← List.replicate_one, List.replicate_append_replicate,
      digitsValue_zeros_append, digitsValue_toDigits]
  rw [hvalue, List.length_append, List.length_replicate] at h
  simpa [toList_zeros, digitCount] using h

/-- All digits before the point, with zeros up to it. -/
theorem fractional_large {n : Nat} (hn : n ≠ 0) (k : Nat) :
    Fractional (String.ofList (Nat.toDigits 10 n) ++ zeros k ++ ".0").toList (n * 10 ^ (k + 1))
      (-1) := by
  have hwhole : Whole (Nat.toDigits 10 n ++ List.replicate k '0') := by
    have h := whole_take_append (w := (Nat.toDigits 10 n).length) hn
      (Nat.ne_of_gt Nat.length_toDigits_pos) (isDigit_of_mem_zeros (k := k))
    rwa [List.take_length] at h
  have h := Fractional.point hwhole (List.cons_ne_nil '0' []) isDigit_zero
  -- The place behind the point is one more zero.
  have hvalue : Token.digitsValue (Nat.toDigits 10 n ++ List.replicate k '0' ++ ['0'])
      = n * 10 ^ (k + 1) := by
    rw [List.append_assoc, ← List.replicate_one, List.replicate_append_replicate,
      digitsValue_append_zeros, digitsValue_toDigits]
  rw [hvalue] at h
  simpa [toList_zeros] using h

/-- A point between the digits. -/
theorem fractional_split {n w : Nat} (hn : n ≠ 0) (hw : w ≠ 0) (hlt : w < digitCount n) :
    Fractional (String.ofList ((Nat.toDigits 10 n).take w) ++ "." ++
      String.ofList ((Nat.toDigits 10 n).drop w)).toList n (-((digitCount n - w : Nat) : Int)) := by
  have hne : (Nat.toDigits 10 n).drop w ≠ [] := by
    have : w < (Nat.toDigits 10 n).length := hlt
    intro h
    have hlen := List.drop_eq_nil_iff.mp h
    omega
  have h := Fractional.point (whole_take hn hw) hne isDigit_of_mem_drop
  rw [List.take_append_drop, digitsValue_toDigits, List.length_drop] at h
  simpa [digitCount] using h

theorem signedValue_zeros (lead : Int) (pad : Nat) :
    signedValue (decide (lead < 0)) (List.replicate pad '0' ++ Nat.toDigits 10 lead.natAbs)
      = lead := by
  unfold signedValue
  rw [digitsValue_zeros_append, digitsValue_toDigits]
  split
  · next h => have := of_decide_eq_true h; omega
  · next h => have := of_decide_eq_false (Bool.eq_false_iff.mpr h); omega

/-- One digit before the point, and an exponent. -/
theorem fractional_marked {n : Nat} (hn : n ≠ 0) (lead : Int) (width : Nat) :
    Fractional (String.ofList ((Nat.toDigits 10 n).take 1) ++
        (if (Nat.toDigits 10 n).length ≤ 1 then ""
          else "." ++ String.ofList ((Nat.toDigits 10 n).drop 1)) ++
        (if lead < 0 then "e-" else "e+") ++ zeros (width - (toString lead.natAbs).length) ++
        toString lead.natAbs).toList n
      (lead - ((digitCount n - 1 : Nat) : Int)) := by
  generalize width - (toString lead.natAbs).length = pad
  have hne : List.replicate pad '0' ++ Nat.toDigits 10 lead.natAbs ≠ [] := by
    have hpos : 0 < (Nat.toDigits 10 lead.natAbs).length := Nat.length_toDigits_pos
    intro h
    simp [List.append_eq_nil_iff] at h
  -- One digit before the point, the others behind it, and the exponent filled up with zeros,
  -- which do not change its value.
  have h := Fractional.exponent (whole_take hn (w := 1) (by decide))
    (isDigit_of_mem_drop (n := n) (w := 1)) (decide (lead < 0)) hne fun c hc =>
      (List.mem_append.mp hc).elim (isDigit_of_mem_zeros c) (isDigit_of_mem_toDigits c)
  rw [List.take_append_drop, digitsValue_toDigits, List.length_drop, signedValue_zeros] at h
  have hpoint : (if (Nat.toDigits 10 n).length ≤ 1 then ""
      else "." ++ String.ofList ((Nat.toDigits 10 n).drop 1)).toList
        = pointChars ((Nat.toDigits 10 n).drop 1) := by
    simp only [pointChars, List.isEmpty_iff, List.drop_eq_nil_iff]
    split
    · rfl
    · simp
  have hmark : (if lead < 0 then "e-" else "e+").toList
      = ['e', if decide (lead < 0) then '-' else '+'] := by
    by_cases hneg : lead < 0
    · simp [hneg]
    · simp [hneg]
  have htext : (toString lead.natAbs).toList = Nat.toDigits 10 lead.natAbs := by simp
  simp only [String.toList_append, String.toList_ofList, toList_zeros, hpoint, hmark, htext]
  simpa [exponentChars, digitCount] using h

/-- What a layout writes stands for a decimal with the same rank. -/
theorem fractional_write (layout : Double.Layout) {d : Decimal} (hd : d.digits ≠ 0) :
    ∃ n power, Fractional (d.write layout).toList n power ∧
      rankOfDecimal ⟨n, power⟩ = rankOfDecimal d := by
  obtain ⟨n, power⟩ := d
  have hcount : 0 < digitCount n := Nat.length_toDigits_pos
  unfold Decimal.write
  simp only
  rw [show (Nat.toDigits 10 n).length = digitCount n from rfl]
  generalize hlead : power + (digitCount n : Int) - 1 = lead
  -- The shapes that `Decimal.write` tells apart; each keeps the power of the digits.
  split
  · split
    · next hneg =>
        have hpower : -(((-lead).toNat - 1 + digitCount n : Nat) : Int) = power := by omega
        exact ⟨n, _, fractional_small n _, by rw [hpower]⟩
    · next hneg =>
        split
        · next hle =>
            -- Here the digits are longer by the zeros, and the power is smaller by as many.
            have hzeros : lead.toNat + 1 - digitCount n = power.toNat := by omega
            have hpower : (-1 : Int) = power - ((power.toNat + 1 : Nat) : Int) := by omega
            refine ⟨_, _, fractional_large hd _, ?_⟩
            rw [hzeros, hpower, Double.rankOfDecimal_shift]
        · next hgt =>
            have hpower : -((digitCount n - (lead.toNat + 1) : Nat) : Int) = power := by omega
            exact ⟨n, _, fractional_split hd (by omega) (Nat.lt_of_not_le hgt), by rw [hpower]⟩
  · have hpower : lead - ((digitCount n - 1 : Nat) : Int) = power := by omega
    exact ⟨n, _, fractional_marked hd lead _, by rw [hpower]⟩

/-! ## Finite numbers are read back -/

theorem Fractional.start {cs : List Char} {n : Nat} {power : Int} (h : Fractional cs n power)
    (negative : Bool) :
    ∃ c rest, signChars negative ++ cs = c :: rest ∧ Token.isBlank c = false := by
  have hstart {whole : List Char} (hwhole : Whole whole) (tail : List Char) :
      ∃ c rest, signChars negative ++ (whole ++ tail) = c :: rest ∧ Token.isBlank c = false := by
    obtain ⟨c, rest, hchars, hc⟩ := start_whole negative hwhole
    exact ⟨c, rest ++ tail, by rw [← List.append_assoc, hchars]; rfl, hc⟩
  cases h with
  | point hwhole _ _ => exact hstart hwhole _
  | exponent hwhole _ _ _ _ => exact hstart hwhole _

theorem toList_signed (negative : Bool) (s : String) :
    (if negative then "-" ++ s else s).toList = signChars negative ++ s.toList := by
  cases negative <;> simp [signChars]

/-- A finite number is written as a text that is read as this number. -/
theorem exists_fractional (layout : Double.Layout) (negative : Bool)
    (rank : Fin Double.rankBound) :
    ∃ text n power, (Double.finite negative rank).write? layout = some text ∧
      ∃ cs, text.toList = signChars negative ++ cs ∧ Fractional cs n power ∧
        Double.ofDecimal negative n power = .finite negative rank := by
  by_cases hzero : rank.val = 0
  · -- Zero has a text of its own.
    refine ⟨_, 0, -1, rfl, ['0', '.', '0'], ?_,
      .point .zero (List.cons_ne_nil '0' []) isDigit_zero, ?_⟩
    · rw [if_pos hzero, toList_signed]
      rfl
    · have hrank : rank = ⟨0, by decide⟩ := Fin.ext hzero
      rw [hrank]
      rfl
  · have hrank := Double.rankOfDecimal_shortest rank.val
    -- A decimal without digits has rank zero.
    have hdigits : (Double.shortest rank.val).digits ≠ 0 := by
      intro h
      rw [← hrank] at hzero
      refine hzero ?_
      have hd : Double.shortest rank.val = ⟨0, (Double.shortest rank.val).power⟩ := by rw [← h]
      rw [hd, Double.rankOfDecimal_zero]
    obtain ⟨n, power, hcs, hsame⟩ := fractional_write layout hdigits
    refine ⟨_, n, power, rfl, _, ?_, hcs, ?_⟩
    · rw [if_neg hzero, toList_signed]
    · exact Double.ofDecimal_of_rank negative (hsame.trans hrank) hzero rank.isLt

/-- Layouts give every finite number back, whatever stands for the others. -/
theorem reads_finite {style : Style} (layout : Double.Layout) (dialect : Dialect)
    {negative : Bool} {rank : Fin Double.rankBound} (other : String)
    (hstyle : style.float (.finite negative rank)
      = ((Double.finite negative rank).write? layout).getD other) :
    style.Reads dialect (.finite negative rank) := by
  obtain ⟨text, n, power, htext, cs, hcs, hfractional, hvalue⟩ :=
    exists_fractional layout negative rank
  have hfloat : (style.float (.finite negative rank)).toList = signChars negative ++ cs := by
    rw [hstyle, htext, ← hcs]
    rfl
  constructor
  · intro rest hrest
    rw [hfloat, first_fractional dialect negative hfractional hrest, hvalue]
  · rw [hfloat]
    exact hfractional.start negative

/-- Stored texts give every finite number back. -/
theorem reads_stored (indent : Option Nat) (dialect : Dialect) {x : Double}
    (hx : x.isFinite = true) : (Style.stored indent).Reads dialect x := by
  cases x with
  | nan => exact absurd hx (by decide)
  | infinite negative => exact absurd hx (by cases negative <;> decide)
  | finite negative rank => exact reads_finite .stored dialect "null" rfl

end Routebook.Json
