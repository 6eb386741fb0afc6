/-
  Routebook.Proofs.Json.Printer

  What printed text is made of.  Numbers are digits and a few marks, and
  strings are escaped, so no carriage return is left in a stored text
  (`not_mem_print_stored`): it survives being read with single line ends.
-/
import Routebook.Json.Printer

namespace Routebook

namespace Double

/-! ## Numbers -/

/-- The characters that numbers are written with. -/
def isNumeral (c : Char) : Bool := c.isDigit || ['.', 'e', '+', '-'].contains c

/-- A text of such characters. -/
def Numeral (s : String) : Prop := ∀ c ∈ s.toList, isNumeral c = true

theorem Numeral.append {s t : String} (hs : Numeral s) (ht : Numeral t) : Numeral (s ++ t) := by
  intro c hc
  rw [String.toList_append, List.mem_append] at hc
  exact hc.elim (hs c) (ht c)

theorem numeral_ofList_digits {cs : List Char} {n : Nat} (h : ∀ c ∈ cs, c ∈ Nat.toDigits 10 n) :
    Numeral (String.ofList cs) := by
  intro c hc
  rw [String.toList_ofList] at hc
  have hdigit : c.isDigit = true :=
    Nat.isDigit_of_mem_toDigits (by decide) (by decide) (h c hc)
  simp [isNumeral, hdigit]

theorem numeral_repr (n : Nat) : Numeral n.repr := by
  rw [Nat.repr_eq_ofList_toDigits]
  exact numeral_ofList_digits fun _ h => h

theorem numeral_zeros (n : Nat) : Numeral (zeros n) := by
  intro c hc
  rw [zeros, String.toList_ofList] at hc
  rw [List.eq_of_mem_replicate hc]
  decide

theorem numeral_zero : Numeral "0.0" := by
  simp [Numeral, isNumeral, show '0'.isDigit = true from rfl]

theorem numeral_write (layout : Layout) (d : Decimal) : Numeral (d.write layout) := by
  have hall : Numeral (String.ofList (Nat.toDigits 10 d.digits)) :=
    numeral_ofList_digits fun _ h => h
  have htake (n : Nat) : Numeral (String.ofList ((Nat.toDigits 10 d.digits).take n)) :=
    numeral_ofList_digits fun _ h => List.mem_of_mem_take h
  have hdrop (n : Nat) : Numeral (String.ofList ((Nat.toDigits 10 d.digits).drop n)) :=
    numeral_ofList_digits fun _ h => List.mem_of_mem_drop h
  have hpoint : Numeral "." := by simp [Numeral, isNumeral]
  unfold Decimal.write
  simp only
  split
  · split
    · have hlead : Numeral "0." := by simp [Numeral, isNumeral]
      exact (hlead.append (numeral_zeros _)).append hall
    · split
      · have htail : Numeral ".0" := by simp [Numeral, isNumeral]
        exact (hall.append (numeral_zeros _)).append htail
      · exact ((htake _).append hpoint).append (hdrop _)
  -- With an exponent: a digit, the fraction if there is one, the mark, zeros and the exponent.
  · have hfraction (few : Prop) [Decidable few] : Numeral (if few then "" else
        "." ++ String.ofList ((Nat.toDigits 10 d.digits).drop 1)) := by
      split
      · simp [Numeral]
      · exact hpoint.append (hdrop 1)
    have hmark (negative : Prop) [Decidable negative] :
        Numeral (if negative then "e-" else "e+") := by
      split <;> simp [Numeral, isNumeral]
    exact ((((htake 1).append (hfraction _)).append (hmark _)).append (numeral_zeros _)).append
      (numeral_repr _)

theorem numeral_of_write? {layout : Layout} {x : Double} {s : String}
    (h : x.write? layout = some s) : Numeral s := by
  cases x with
  | finite negative rank =>
      obtain rfl := Option.some.inj h
      have hmagnitude :
          Numeral (if rank.val = 0 then "0.0" else (shortest rank.val).write layout) := by
        split
        · exact numeral_zero
        · exact numeral_write layout _
      split
      · exact Numeral.append (by simp [Numeral, isNumeral]) hmagnitude
      · exact hmagnitude
  | nan => exact absurd h (by simp [write?])
  | infinite negative => exact absurd h (by simp [write?])

end Double

namespace Json

/-! ## Strings -/

/-- Inside a string control characters are escaped. -/
theorem le_of_mem_escapedChar (c : Char) : ∀ d ∈ escapedChar c, 0x20 ≤ d.toNat := by
  have hhex : ∀ n < 0x20, (Nat.toDigits 16 n).all (fun d => decide (0x20 ≤ d.toNat)) = true := by
    decide
  unfold escapedChar
  -- Seven characters have escapes of their own; the others are written by number or as they are.
  iterate 7
    split
    · simp
  split
  · next hlow =>
      intro d hd
      rcases List.mem_append.mp hd with hd | hd
      · rcases List.mem_append.mp hd with hd | hd
        · exact (by simp : ∀ d ∈ ['\x5c', 'u'], 0x20 ≤ d.toNat) d hd
        · rw [List.eq_of_mem_replicate hd]
          simp
      · exact of_decide_eq_true (List.all_eq_true.mp (hhex c.toNat hlow) d hd)
  · next hlow =>
      intro d hd
      rw [List.mem_singleton.mp hd]
      exact Nat.le_of_not_lt hlow

theorem not_mem_quoted (s : String) : '\r' ∉ (quoted s).toList := by
  intro h
  rw [quoted, String.toList_ofList] at h
  rcases List.mem_append.mp h with h | h
  · rcases List.mem_append.mp h with h | h
    · exact absurd h (by decide)
    · obtain ⟨c, -, hc⟩ := List.mem_flatMap.mp h
      exact absurd (le_of_mem_escapedChar c _ hc) (by decide)
  · exact absurd h (by decide)

/-! ## Values -/

theorem not_mem_of_numeral {s : String} (h : Double.Numeral s) : '\r' ∉ s.toList :=
  fun hr => absurd (h _ hr) (by decide)

theorem not_mem_toString_int (n : Int) : '\r' ∉ (toString n).toList := by
  refine not_mem_of_numeral ?_
  rw [Int.toString_eq_repr, Int.repr_eq_if]
  split
  · exact Double.numeral_repr _
  · exact Double.Numeral.append (by simp [Double.Numeral, Double.isNumeral]) (Double.numeral_repr _)

theorem not_mem_lineBreak (style : Style) (level : Nat) :
    '\r' ∉ (style.lineBreak level).toList := by
  unfold Style.lineBreak
  split
  · decide
  · intro h
    rcases List.mem_append.mp (String.toList_append ▸ h) with h | h
    · exact absurd h (by decide)
    · rw [String.toList_ofList] at h
      exact absurd (List.eq_of_mem_replicate h) (by decide)

section Values

variable {style : Style}

mutual
/-- Only a style can bring a carriage return into a text. -/
theorem not_mem_write (hsep : '\r' ∉ style.keySeparator.toList)
    (hfloat : ∀ x, '\r' ∉ (style.float x).toList) (level : Nat) :
    ∀ v : Value, '\r' ∉ (write style level v).toList
  | .null => by rw [write]; decide
  | .bool b => by cases b <;> (rw [write]; decide)
  | .int n => by rw [write]; exact not_mem_toString_int n
  | .float x => by rw [write]; exact hfloat x
  | .string s => by rw [write]; exact not_mem_quoted s
  | .array [] => by rw [write]; decide
  | .array (x :: xs) => by
      have hx := not_mem_write hsep hfloat (level + 1) x
      have hxs := not_mem_writeItems hsep hfloat (level + 1) xs
      simp [write, hx, hxs, not_mem_lineBreak]
  | .object [] => by rw [write]; decide
  | .object ((k, x) :: xs) => by
      have hx := not_mem_write hsep hfloat (level + 1) x
      have hxs := not_mem_writeFields hsep hfloat (level + 1) xs
      simp [write, hx, hxs, hsep, not_mem_lineBreak, not_mem_quoted]

theorem not_mem_writeItems (hsep : '\r' ∉ style.keySeparator.toList)
    (hfloat : ∀ x, '\r' ∉ (style.float x).toList) (level : Nat) :
    ∀ xs : List Value, '\r' ∉ (writeItems style level xs).toList
  | [] => by rw [writeItems]; decide
  | x :: xs => by
      have hx := not_mem_write hsep hfloat level x
      have hxs := not_mem_writeItems hsep hfloat level xs
      simp [writeItems, hx, hxs, not_mem_lineBreak]

theorem not_mem_writeFields (hsep : '\r' ∉ style.keySeparator.toList)
    (hfloat : ∀ x, '\r' ∉ (style.float x).toList) (level : Nat) :
    ∀ xs : List (String × Value), '\r' ∉ (writeFields style level xs).toList
  | [] => by rw [writeFields]; decide
  | (k, x) :: xs => by
      have hx := not_mem_write hsep hfloat level x
      have hxs := not_mem_writeFields hsep hfloat level xs
      simp [writeFields, hx, hxs, hsep, not_mem_lineBreak, not_mem_quoted]
end

end Values

theorem not_mem_nullableFloat (x : Double) : '\r' ∉ (nullableFloat x).toList := by
  unfold nullableFloat
  cases hw : x.write? .stored with
  | none => decide
  | some s => exact not_mem_of_numeral (Double.numeral_of_write? hw)

/-- A stored text holds no carriage return. -/
theorem not_mem_print_stored (indent : Option Nat) (v : Value) :
    '\r' ∉ (print (.stored indent) v).toList := by
  refine not_mem_write ?_ not_mem_nullableFloat 0 v
  show '\r' ∉ (if indent.isSome then ": " else ":").toList
  split <;> decide

end Json
end Routebook
