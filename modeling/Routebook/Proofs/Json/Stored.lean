/-
  Routebook.Proofs.Json.Stored

  Stored texts are read back: every value whose numbers are finite and that
  stays within the reader's limits is read as it was written
  (`read?_stored`).
-/
import Routebook.Proofs.Json.Fractional

namespace Routebook.Json

/-! ## Values that fit -/

mutual
/-- Whether a value may be read inside `depth` arrays and objects: nothing is
nested too deep, no integer is too long, and no object repeats a key. -/
def Dialect.fits (dialect : Dialect) (depth : Nat) : Value → Bool
  | .int n => dialect.maxDigits.all fun m => decide ((Nat.toDigits 10 n.natAbs).length ≤ m)
  | .array xs =>
    (dialect.maxDepth.all fun m => decide (depth < m)) && Dialect.fitsAll dialect (depth + 1) xs
  | .object xs =>
    (dialect.maxDepth.all fun m => decide (depth < m)) && decide (Entries.keys xs).Nodup &&
      Dialect.fitsFields dialect (depth + 1) xs
  | _ => true

/-- `fits` for every item. -/
def Dialect.fitsAll (dialect : Dialect) (depth : Nat) : List Value → Bool
  | [] => true
  | x :: xs => Dialect.fits dialect depth x && Dialect.fitsAll dialect depth xs

/-- `fits` for every field. -/
def Dialect.fitsFields (dialect : Dialect) (depth : Nat) : List (String × Value) → Bool
  | [] => true
  | (_, x) :: xs => Dialect.fits dialect depth x && Dialect.fitsFields dialect depth xs
end

/-! ## What fits is admitted -/

theorem forall_mem_of_all {o : Option Nat} {p : Nat → Prop} [DecidablePred p]
    (h : (o.all fun m => decide (p m)) = true) : ∀ m ∈ o, p m := by
  intro m hm
  rw [show o = some m from hm] at h
  exact of_decide_eq_true h

theorem all_of_forall_mem {o : Option Nat} {p : Nat → Prop} [DecidablePred p]
    (h : ∀ m ∈ o, p m) : (o.all fun m => decide (p m)) = true :=
  (Option.all_eq_true ..).mpr fun m hm => decide_eq_true (h m hm)

section Admitted

variable {style : Style} {dialect : Dialect} {finite : Prop}

mutual
/-- Values that fit are admitted where a style gives their numbers back: all numbers, or the
finite ones if they hold no others. -/
theorem admits_of_fits (hfloat : ∀ x, (finite → x.isFinite = true) → style.Reads dialect x)
    (depth : Nat) :
    ∀ v : Value, (finite → v.isFinite = true) → dialect.fits depth v = true →
      Admits style dialect depth v
  | .null, _, _ => by rw [Admits] <;> simp
  | .bool _, _, _ => by rw [Admits] <;> simp
  | .string _, _, _ => by rw [Admits] <;> simp
  | .int n, _, hfits => by
      rw [Dialect.fits] at hfits
      rw [Admits]
      exact forall_mem_of_all hfits
  | .float x, hfinite, _ => by
      rw [Value.isFinite] at hfinite
      rw [Admits]
      exact hfloat x hfinite
  | .array xs, hfinite, hfits => by
      rw [Value.isFinite] at hfinite
      rw [Dialect.fits, Bool.and_eq_true] at hfits
      rw [Admits]
      exact ⟨forall_mem_of_all hfits.1, admitsAll_of_fits hfloat (depth + 1) xs hfinite hfits.2⟩
  | .object xs, hfinite, hfits => by
      rw [Value.isFinite] at hfinite
      rw [Dialect.fits, Bool.and_eq_true, Bool.and_eq_true] at hfits
      rw [Admits]
      exact ⟨forall_mem_of_all hfits.1.1,
        admitsFields_of_fits hfloat (depth + 1) xs hfinite hfits.2⟩

theorem admitsAll_of_fits (hfloat : ∀ x, (finite → x.isFinite = true) → style.Reads dialect x)
    (depth : Nat) :
    ∀ xs : List Value, (finite → Value.finiteAll xs = true) →
      Dialect.fitsAll dialect depth xs = true → AdmitsAll style dialect depth xs
  | [], _, _ => by simp [AdmitsAll]
  | x :: xs, hfinite, hfits => by
      rw [Value.finiteAll, Bool.and_eq_true] at hfinite
      rw [Dialect.fitsAll, Bool.and_eq_true] at hfits
      rw [AdmitsAll]
      exact ⟨admits_of_fits hfloat depth x (fun h => (hfinite h).1) hfits.1,
        admitsAll_of_fits hfloat depth xs (fun h => (hfinite h).2) hfits.2⟩

theorem admitsFields_of_fits (hfloat : ∀ x, (finite → x.isFinite = true) → style.Reads dialect x)
    (depth : Nat) :
    ∀ xs : List (String × Value), (finite → Value.finiteFieldsAll xs = true) →
      Dialect.fitsFields dialect depth xs = true → AdmitsFields style dialect depth xs
  | [], _, _ => by simp [AdmitsFields]
  | (_, x) :: xs, hfinite, hfits => by
      rw [Value.finiteFieldsAll, Bool.and_eq_true] at hfinite
      rw [Dialect.fitsFields, Bool.and_eq_true] at hfits
      rw [AdmitsFields]
      exact ⟨admits_of_fits hfloat depth x (fun h => (hfinite h).1) hfits.1,
        admitsFields_of_fits hfloat depth xs (fun h => (hfinite h).2) hfits.2⟩
end

end Admitted

section Stored

variable {indent : Option Nat} {dialect : Dialect}

mutual
/-- Values that fit repeat no key. -/
theorem distinct_of_fits (depth : Nat) : ∀ v : Value, dialect.fits depth v = true → Distinct v
  | .null, _ => by rw [Distinct] <;> simp
  | .bool _, _ => by rw [Distinct] <;> simp
  | .string _, _ => by rw [Distinct] <;> simp
  | .int _, _ => by rw [Distinct] <;> simp
  | .float _, _ => by rw [Distinct] <;> simp
  | .array xs, hfits => by
      rw [Dialect.fits, Bool.and_eq_true] at hfits
      rw [Distinct]
      exact distinctAll_of_fits (depth + 1) xs hfits.2
  | .object xs, hfits => by
      rw [Dialect.fits, Bool.and_eq_true, Bool.and_eq_true] at hfits
      rw [Distinct]
      exact ⟨of_decide_eq_true hfits.1.2, distinctFields_of_fits (depth + 1) xs hfits.2⟩

theorem distinctAll_of_fits (depth : Nat) :
    ∀ xs : List Value, Dialect.fitsAll dialect depth xs = true → DistinctAll xs
  | [], _ => by simp [DistinctAll]
  | x :: xs, hfits => by
      rw [Dialect.fitsAll, Bool.and_eq_true] at hfits
      rw [DistinctAll]
      exact ⟨distinct_of_fits depth x hfits.1, distinctAll_of_fits depth xs hfits.2⟩

theorem distinctFields_of_fits (depth : Nat) :
    ∀ xs : List (String × Value), Dialect.fitsFields dialect depth xs = true → DistinctFields xs
  | [], _ => by simp [DistinctFields]
  | (_, x) :: xs, hfits => by
      rw [Dialect.fitsFields, Bool.and_eq_true] at hfits
      rw [DistinctFields]
      exact ⟨distinct_of_fits depth x hfits.1, distinctFields_of_fits depth xs hfits.2⟩
end

theorem separates_stored : (Style.stored indent).Separates := by
  cases indent with
  | none => exact ⟨[], rfl, by simp⟩
  | some width => exact ⟨[' '], by simp [Style.stored], by simp [Token.isBlank]⟩

/-- A finite value that fits is read from its stored text as it was. -/
theorem read?_stored {v : Value} (hfinite : v.isFinite = true) (hfits : dialect.fits 0 v = true) :
    read? dialect (print (.stored indent) v) = some v := by
  have hadmits : Admits (.stored indent) dialect 0 v :=
    admits_of_fits (fun x hx => reads_stored indent dialect (hx trivial)) 0 v (fun _ => hfinite)
      hfits
  rw [read?_print separates_stored hadmits, collapsed_eq_self v (distinct_of_fits 0 v hfits)]

end Stored

end Routebook.Json
