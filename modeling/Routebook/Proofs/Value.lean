/-
  Routebook.Proofs.Value

  Finite values: no number inside is infinite or a NaN.  They are what
  `Value.finiteOnly` leaves as it is.
-/
import Routebook.Value

namespace Routebook.Value

mutual
/-- Every number inside is finite. -/
def isFinite : Value → Bool
  | .float x => x.isFinite
  | .array items => finiteAll items
  | .object fields => finiteFieldsAll fields
  | _ => true

/-- `isFinite` of every item. -/
def finiteAll : List Value → Bool
  | [] => true
  | x :: xs => isFinite x && finiteAll xs

/-- `isFinite` of every field. -/
def finiteFieldsAll : List (String × Value) → Bool
  | [] => true
  | (_, x) :: xs => isFinite x && finiteFieldsAll xs
end

@[simp] theorem isFinite_null : isFinite .null = true := by rw [isFinite] <;> simp

@[simp] theorem isFinite_bool (b : Bool) : isFinite (.bool b) = true := by rw [isFinite] <;> simp

@[simp] theorem isFinite_string (s : String) : isFinite (.string s) = true := by
  rw [isFinite] <;> simp

@[simp] theorem isFinite_float (x : Double) : isFinite (.float x) = x.isFinite := by rw [isFinite]

@[simp] theorem isFinite_array (items : List Value) :
    isFinite (.array items) = items.all isFinite := by
  rw [isFinite]
  induction items with
  | nil => rfl
  | cons x xs ih => rw [finiteAll, ih, List.all_cons]

@[simp] theorem isFinite_object (fields : List (String × Value)) :
    isFinite (.object fields) = fields.all fun e => isFinite e.2 := by
  rw [isFinite]
  induction fields with
  | nil => rfl
  | cons e fields ih => rw [finiteFieldsAll, ih, List.all_cons]

mutual
theorem finiteOnly_eq_self : ∀ v : Value, v.isFinite = true → v.finiteOnly = v
  | .null, _ => rfl
  | .bool _, _ => rfl
  | .int _, _ => rfl
  | .string _, _ => rfl
  | .float x, h => by
      have hx : x.isFinite = true := by simpa [isFinite] using h
      rw [finiteOnly, if_pos hx]
  | .array items, h => by
      rw [isFinite] at h
      rw [finiteOnly, finiteItems_eq_self items h]
  | .object fields, h => by
      rw [isFinite] at h
      rw [finiteOnly, finiteFields_eq_self fields h]

theorem finiteItems_eq_self : ∀ xs : List Value, finiteAll xs = true → finiteItems xs = xs
  | [], _ => rfl
  | x :: xs, h => by
      rw [finiteAll, Bool.and_eq_true] at h
      rw [finiteItems, finiteOnly_eq_self x h.1, finiteItems_eq_self xs h.2]

theorem finiteFields_eq_self :
    ∀ xs : List (String × Value), finiteFieldsAll xs = true → finiteFields xs = xs
  | [], _ => rfl
  | (k, x) :: xs, h => by
      rw [finiteFieldsAll, Bool.and_eq_true] at h
      rw [finiteFields, finiteOnly_eq_self x h.1, finiteFields_eq_self xs h.2]
end

end Routebook.Value
