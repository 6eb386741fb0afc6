/-
  Routebook.Proofs.Json.Lexeme

  What is written for a string or an integer is read as one token.  A number
  ends where no digit, point or exponent can follow (`Ends`); in a printed
  text a value is always followed by such a place.
-/
import Mathlib.Data.List.TakeDrop
import Routebook.Json.Printer
import Routebook.Json.Token

namespace Routebook.Json

/-! ## Strings -/

/-- The four digits of an escaped control character. -/
theorem hexDigits_control (n : Nat) (h : n < 0x20) :
    List.replicate (4 - (Nat.toDigits 16 n).length) '0' ++ Nat.toDigits 16 n
      = ['0', '0', Nat.digitChar (n / 16), Nat.digitChar (n % 16)] := by
  revert n
  decide

theorem hex4?_control (n : Nat) (h : n < 0x20) :
    Token.hex4? '0' '0' (Nat.digitChar (n / 16)) (Nat.digitChar (n % 16)) = some n := by
  revert n
  decide

/-- A character of a string is read back from what is written for it. -/
theorem stringBody_escapedChar (acc : List Char) (c : Char) (rest : List Char) :
    Token.stringBody acc (escapedChar c ++ rest) = Token.stringBody (c :: acc) rest := by
  unfold escapedChar
  -- Seven characters have an escape of their own.
  split
  · next h => subst h; simp [Token.stringBody, Token.simpleEscape?]
  split
  · next h => subst h; simp [Token.stringBody, Token.simpleEscape?]
  split
  · next h => subst h; simp [Token.stringBody, Token.simpleEscape?]
  split
  · next h => subst h; simp [Token.stringBody, Token.simpleEscape?]
  split
  · next h => subst h; simp [Token.stringBody, Token.simpleEscape?]
  split
  · next h => subst h; simp [Token.stringBody, Token.simpleEscape?]
  split
  · next h => subst h; simp [Token.stringBody, Token.simpleEscape?]
  split
  · next hlow =>
      -- Other control characters are written as one unit, which is no half of a pair.
      have hhigh : Token.isHighHalf c.toNat = false := by
        simp only [Token.isHighHalf, Bool.and_eq_false_iff, decide_eq_false_iff_not]
        omega
      have hlow' : Token.isLowHalf c.toNat = false := by
        simp only [Token.isLowHalf, Bool.and_eq_false_iff, decide_eq_false_iff_not]
        omega
      simp only [List.append_assoc, hexDigits_control c.toNat hlow]
      simp [Token.stringBody, hex4?_control c.toNat hlow, hhigh, hlow', Char.ofNat_toNat]
  · next hquote hslash _ _ _ _ _ hlow =>
      -- Everything else stands for itself.
      rw [List.singleton_append, Token.stringBody]
      · rw [if_neg (by simp [hlow, hslash])]
      · exact hquote
      · exact fun _ _ _ _ _ h _ => hslash h
      · exact fun _ _ h _ => hslash h

theorem stringBody_flatMap (acc cs rest : List Char) :
    Token.stringBody acc (cs.flatMap escapedChar ++ '\x22' :: rest)
      = some (acc.reverse ++ cs, rest) := by
  induction cs generalizing acc with
  | nil => simp [Token.stringBody]
  | cons c cs ih =>
      rw [List.flatMap_cons, List.append_assoc, stringBody_escapedChar, ih]
      simp

/-- A string in quotes is read as that string. -/
theorem first_quoted (dialect : Dialect) (s : String) (rest : List Char) :
    Token.first dialect ((quoted s).toList ++ rest) = some (.string s, rest) := by
  have hchars : (quoted s).toList ++ rest
      = '\x22' :: (s.toList.flatMap escapedChar ++ '\x22' :: rest) := by
    simp [quoted]
  rw [hchars]
  show (Token.stringBody [] _).map _ = _
  rw [stringBody_flatMap]
  simp

/-! ## Whole numbers -/

theorem isDigit_iff {c : Char} : c.isDigit = true ↔ 48 ≤ c.toNat ∧ c.toNat ≤ 57 := by
  simp [Char.isDigit, UInt32.le_iff_toNat_le, ← Char.toNat_val]

/-- What follows is no digit. -/
def NoDigit (rest : List Char) : Prop := ∀ c ∈ rest.head?, c.isDigit = false

/-- What follows cannot belong to a number. -/
def Ends (rest : List Char) : Prop :=
  ∀ c ∈ rest.head?, c.isDigit = false ∧ c ≠ '.' ∧ c ≠ 'e' ∧ c ≠ 'E'

theorem Ends.noDigit {rest : List Char} (h : Ends rest) : NoDigit rest := fun c hc => (h c hc).1

theorem span_digits {ds rest : List Char} (hds : ∀ c ∈ ds, c.isDigit = true)
    (hrest : NoDigit rest) : (ds ++ rest).span Char.isDigit = (ds, rest) := by
  have hstop : rest.takeWhile Char.isDigit = [] ∧ rest.dropWhile Char.isDigit = rest := by
    cases rest with
    | nil => exact ⟨rfl, rfl⟩
    | cons c rest =>
        have hc : c.isDigit = false := hrest c rfl
        simp [hc]
  rw [List.span_eq_takeWhile_dropWhile, List.takeWhile_append_of_pos hds,
    List.dropWhile_append_of_pos hds, hstop.1, hstop.2, List.append_nil]

/-- The digits before a point: no zero stands in front of others. -/
inductive Whole : List Char → Prop where
  | zero : Whole ['0']
  | other {c : Char} {ds : List Char} (hne : c ≠ '0') (hc : c.isDigit = true)
      (hds : ∀ d ∈ ds, d.isDigit = true) : Whole (c :: ds)

theorem number_whole (dialect : Dialect) (negative : Bool) {whole rest : List Char}
    (hwhole : Whole whole) (hrest : NoDigit rest) :
    Token.number dialect negative (whole ++ rest)
      = Token.numberWith dialect negative whole rest := by
  cases hwhole with
  | zero => rfl
  | @other c ds hne hc hds =>
      rw [List.cons_append, Token.number]
      · rw [if_pos hc, span_digits hds hrest]
      · exact hne

theorem first_digit (dialect : Dialect) {c : Char} (hc : c.isDigit = true) (rest : List Char) :
    Token.first dialect (c :: rest) = Token.number dialect false (c :: rest) := by
  rw [Token.first]
  -- No digit starts another token.
  all_goals
    intro rest' h
    obtain ⟨rfl, -⟩ := List.cons.inj h
    exact absurd hc (by decide)

theorem first_minus_digit (dialect : Dialect) {c : Char} (hc : c.isDigit = true)
    (rest : List Char) :
    Token.first dialect ('-' :: c :: rest) = Token.number dialect true (c :: rest) := by
  rw [Token.first]
  intro rest' h
  obtain ⟨rfl, -⟩ := List.cons.inj h
  exact absurd hc (by decide)

theorem Whole.exists_cons {whole : List Char} (h : Whole whole) :
    ∃ c ds, whole = c :: ds ∧ c.isDigit = true := by
  cases h with
  | zero => exact ⟨'0', [], rfl, by decide⟩
  | other _ hc _ => exact ⟨_, _, rfl, hc⟩

/-- The characters of a sign. -/
def signChars (negative : Bool) : List Char := if negative then ['-'] else []

theorem first_whole (dialect : Dialect) (negative : Bool) {whole rest : List Char}
    (hwhole : Whole whole) (hrest : NoDigit rest) :
    Token.first dialect (signChars negative ++ whole ++ rest)
      = Token.numberWith dialect negative whole rest := by
  rw [← number_whole dialect negative hwhole hrest]
  obtain ⟨c, ds, rfl, hc⟩ := hwhole.exists_cons
  cases negative with
  | false => exact first_digit dialect hc _
  | true => exact first_minus_digit dialect hc _

/-! ## Integers -/

theorem digitsValue_eq (ds : List Char) : Token.digitsValue ds = Nat.ofDigitChars 10 ds 0 := by
  have hstep : (fun (n : Nat) (c : Char) => n * 10 + (c.toNat - 48))
      = fun n c => 10 * n + (c.toNat - '0'.toNat) := by
    funext n c
    rw [Nat.mul_comm]
    rfl
  rw [Token.digitsValue, hstep, Nat.ofDigitChars_eq_foldl]

theorem digitsValue_toDigits (n : Nat) : Token.digitsValue (Nat.toDigits 10 n) = n := by
  rw [digitsValue_eq, Nat.ofDigitChars_ten_toDigits]

theorem isDigit_of_mem_toDigits {n : Nat} : ∀ c ∈ Nat.toDigits 10 n, c.isDigit = true :=
  fun _ h => Nat.isDigit_of_mem_toDigits (by decide) (by decide) h

/-- The digits of a number above zero do not start with a zero. -/
theorem toDigits_eq_cons {n : Nat} (h : n ≠ 0) :
    ∃ c ds, Nat.toDigits 10 n = c :: ds ∧ c ≠ '0' := by
  induction n using Nat.strongRecOn with
  | ind n ih =>
      by_cases hlt : n < 10
      · -- A single digit, and only zero has the digit zero.
        refine ⟨n.digitChar, [], Nat.toDigits_of_lt_base hlt, ?_⟩
        have hall : ∀ m < 10, m ≠ 0 → m.digitChar ≠ '0' := by decide
        exact hall n hlt h
      · -- The first digit of a tenth is the first digit of the number.
        obtain ⟨c, ds, hdigits, hne⟩ := ih (n / 10) (by omega) (by omega)
        refine ⟨c, ds ++ [(n % 10).digitChar], ?_, hne⟩
        rw [Nat.toDigits_of_base_le (by decide) (by omega), hdigits]
        rfl

theorem whole_toDigits (n : Nat) : Whole (Nat.toDigits 10 n) := by
  by_cases h : n = 0
  · subst h
    exact .zero
  · obtain ⟨c, ds, hdigits, hne⟩ := toDigits_eq_cons h
    have hall := isDigit_of_mem_toDigits (n := n)
    rw [hdigits] at hall ⊢
    exact .other hne (hall c List.mem_cons_self) fun d hd => hall d (List.mem_cons_of_mem _ hd)

theorem fraction_of_ends {rest : List Char} (h : Ends rest) : Token.fraction rest = ([], rest) := by
  cases rest with
  | nil => rfl
  | cons c rest =>
      rw [Token.fraction]
      intro rest' he
      exact (h c rfl).2.1 (List.cons.inj he).1

theorem exponent_of_ends {rest : List Char} (h : Ends rest) :
    Token.exponent rest = (none, rest) := by
  cases rest with
  | nil => rfl
  | cons c rest =>
      have hmark : ¬ (c = 'e' || c = 'E') = true := by simp [(h c rfl).2.2]
      exact if_neg hmark

/-- An integer that is not too long for the reader. -/
def Dialect.AdmitsInt (dialect : Dialect) (n : Int) : Prop :=
  ∀ m ∈ dialect.maxDigits, (Nat.toDigits 10 n.natAbs).length ≤ m

theorem toList_toString_int (n : Int) :
    (toString n).toList = signChars (decide (n < 0)) ++ Nat.toDigits 10 n.natAbs := by
  rw [Int.toString_eq_repr, Int.repr_eq_if]
  by_cases hn : n < 0
  · have habs : (-n).toNat = n.natAbs := by omega
    simp [signChars, hn, Int.not_le.mpr hn, habs]
  · have habs : n.toNat = n.natAbs := by omega
    simp [signChars, hn, Int.not_lt.mp hn, habs]

theorem not_blank_of_isDigit {c : Char} (hc : c.isDigit = true) : Token.isBlank c = false := by
  cases hb : Token.isBlank c with
  | false => rfl
  | true =>
      simp only [Token.isBlank, Bool.or_eq_true, beq_iff_eq] at hb
      rcases hb with ((rfl | rfl) | rfl) | rfl <;> exact absurd hc (by decide)

/-- A number does not start with a blank. -/
theorem start_whole (negative : Bool) {whole : List Char} (hwhole : Whole whole) :
    ∃ c cs, signChars negative ++ whole = c :: cs ∧ Token.isBlank c = false := by
  obtain ⟨c, ds, rfl, hc⟩ := hwhole.exists_cons
  cases negative with
  | false => exact ⟨c, ds, rfl, not_blank_of_isDigit hc⟩
  | true => exact ⟨'-', c :: ds, rfl, by decide⟩

/-- An integer is read as that integer. -/
theorem first_int (dialect : Dialect) {n : Int} (hn : dialect.AdmitsInt n) {rest : List Char}
    (hrest : Ends rest) :
    Token.first dialect ((toString n).toList ++ rest) = some (.int n, rest) := by
  have hlimit : ¬ (dialect.maxDigits.map fun m =>
      decide (m < (Nat.toDigits 10 n.natAbs).length)).getD false = true := by
    cases hm : dialect.maxDigits with
    | none => simp
    | some m => simpa using hn m hm
  rw [toList_toString_int, first_whole dialect _ (whole_toDigits _) hrest.noDigit,
    Token.numberWith, fraction_of_ends hrest]
  simp only [exponent_of_ends hrest]
  rw [if_neg hlimit, digitsValue_toDigits]
  by_cases hneg : n < 0
  · have habs : -(n.natAbs : Int) = n := by omega
    rw [decide_eq_true hneg, if_pos rfl, habs]
  · have habs : (n.natAbs : Int) = n := by omega
    rw [decide_eq_false hneg, if_neg Bool.false_ne_true, habs]

end Routebook.Json
