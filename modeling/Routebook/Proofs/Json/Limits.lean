/-
  Routebook.Proofs.Json.Limits

  Stored texts and the limits of their reader.  A limit only ever refuses a
  text: what a limited reader answers, the one without limits answers too
  (`read?_of_limited`).  So whatever is read from a stored text, under
  whatever limits, is the value it was printed from, with null for numbers
  that are not finite and repeated keys merged (`eq_of_read?_stored`).
-/
import Routebook.Proofs.Json.Stored
import Routebook.Proofs.Value

namespace Routebook.Json

/-! ## A limited reader and an unlimited one -/

theorem numberWith_of_limited {dialect : Dialect} {negative : Bool} {whole rest : List Char}
    {r : Token × List Char} (h : Token.numberWith dialect negative whole rest = some r) :
    Token.numberWith .unlimited negative whole rest = some r := by
  unfold Token.numberWith at h ⊢
  split at h
  · split at h
    · split at h
      · exact absurd h (by simp)
      · exact h
    · exact h
  · exact h

theorem number_of_limited {dialect : Dialect} {negative : Bool} {cs : List Char}
    {r : Token × List Char} (h : Token.number dialect negative cs = some r) :
    Token.number .unlimited negative cs = some r := by
  unfold Token.number at h ⊢
  split at h
  · exact numberWith_of_limited h
  · split at h
    · rename_i hdigit
      rw [if_pos hdigit]
      exact numberWith_of_limited h
    · exact absurd h (by simp)
  · exact absurd h (by simp)

theorem first_of_limited {dialect : Dialect} {cs : List Char} {r : Token × List Char}
    (h : Token.first dialect cs = some r) : Token.first .unlimited cs = some r := by
  unfold Token.first at h ⊢
  split at h
  all_goals first
    | exact h
    | exact number_of_limited h

theorem all_of_limited {dialect : Dialect} {fuel : Nat} {acc : List Token} {cs : List Char}
    {ts : List Token} (h : Token.all dialect fuel acc cs = some ts) :
    Token.all .unlimited fuel acc cs = some ts := by
  induction fuel generalizing acc cs with
  | zero => exact absurd h (by simp [Token.all])
  | succ fuel ih =>
      unfold Token.all at h ⊢
      split at h
      · exact h
      · split at h
        · rename_i hfirst
          rw [first_of_limited hfirst]
          exact ih h
        · exact absurd h (by simp)

theorem step_of_limited {dialect : Dialect} {s s' : State} {t : Token}
    (h : State.step dialect s t = some s') : State.step .unlimited s t = some s' := by
  unfold State.step at h ⊢
  split at h
  · split at h
    · exact h
    · exact absurd h (by simp)
  · split at h
    · exact h
    · exact absurd h (by simp)
  all_goals exact h

theorem run_of_limited {dialect : Dialect} {s s' : State} {ts : List Token}
    (h : State.run dialect s ts = some s') : State.run .unlimited s ts = some s' := by
  induction ts generalizing s with
  | nil => exact h
  | cons t ts ih =>
      unfold State.run at h ⊢
      split at h
      · rename_i hstep
        rw [step_of_limited hstep]
        exact ih h
      · exact absurd h (by simp)

/-- What a limited reader answers is what the text says. -/
theorem read?_of_limited {dialect : Dialect} {text : String} {v : Value}
    (h : read? dialect text = some v) : read? .unlimited text = some v := by
  obtain ⟨ts, hts, h⟩ := Option.bind_eq_some_iff.mp h
  obtain ⟨s, hs, h⟩ := Option.bind_eq_some_iff.mp h
  refine Option.bind_eq_some_iff.mpr ⟨ts, all_of_limited hts, ?_⟩
  exact Option.bind_eq_some_iff.mpr ⟨s, run_of_limited hs, h⟩

/-! ## What is printed -/

section Stored

variable {indent : Option Nat}

theorem float_stored {x : Double} (h : x.isFinite = false) :
    (Style.stored indent).float x = "null" := by
  cases x with
  | finite negative rank => exact absurd h (by simp [Double.isFinite])
  | _ => rfl

mutual
/-- Numbers that are not finite are written as null. -/
theorem write_finiteOnly (level : Nat) :
    ∀ v : Value, write (.stored indent) level v.finiteOnly = write (.stored indent) level v
  | .null => by rw [Value.finiteOnly] <;> simp
  | .bool _ => by rw [Value.finiteOnly] <;> simp
  | .int _ => by rw [Value.finiteOnly] <;> simp
  | .string _ => by rw [Value.finiteOnly] <;> simp
  | .float x => by
      rw [Value.finiteOnly]
      cases hx : x.isFinite with
      | true => rw [if_pos rfl]
      | false =>
          rw [if_neg (by simp)]
          simp only [write, float_stored hx]
  | .array [] => by rw [Value.finiteOnly, Value.finiteItems]
  | .array (x :: xs) => by
      rw [Value.finiteOnly, Value.finiteItems, write, write, write_finiteOnly (level + 1) x,
        writeItems_finiteItems (level + 1) xs]
  | .object [] => by rw [Value.finiteOnly, Value.finiteFields]
  | .object ((k, x) :: xs) => by
      rw [Value.finiteOnly, Value.finiteFields, write, write, write_finiteOnly (level + 1) x,
        writeFields_finiteFields (level + 1) xs]

theorem writeItems_finiteItems (level : Nat) :
    ∀ xs : List Value, writeItems (.stored indent) level (Value.finiteItems xs)
      = writeItems (.stored indent) level xs
  | [] => by rw [Value.finiteItems]
  | x :: xs => by
      rw [Value.finiteItems, writeItems, writeItems, write_finiteOnly level x,
        writeItems_finiteItems level xs]

theorem writeFields_finiteFields (level : Nat) :
    ∀ xs : List (String × Value), writeFields (.stored indent) level (Value.finiteFields xs)
      = writeFields (.stored indent) level xs
  | [] => by rw [Value.finiteFields]
  | (k, x) :: xs => by
      rw [Value.finiteFields, writeFields, writeFields, write_finiteOnly level x,
        writeFields_finiteFields level xs]
end

mutual
/-- Without limits every number that may be written is read back. -/
theorem admits_finiteOnly (depth : Nat) :
    ∀ v : Value, Admits (.stored indent) .unlimited depth v.finiteOnly
  | .null => by rw [Value.finiteOnly, Admits] <;> simp
  | .bool _ => by rw [Value.finiteOnly, Admits] <;> simp
  | .string _ => by rw [Value.finiteOnly, Admits] <;> simp
  | .int n => by
      rw [Value.finiteOnly, Admits]
      · exact fun m hm => absurd hm (by simp [Dialect.unlimited])
      all_goals simp
  | .float x => by
      -- A number that is not finite is replaced by nothing; all others are read back.
      rw [Value.finiteOnly]
      cases hx : x.isFinite with
      | true =>
          rw [if_pos rfl, Admits]
          exact reads_stored indent _ hx
      | false => rw [if_neg (by simp), Admits] <;> simp
  | .array xs => by
      rw [Value.finiteOnly, Admits]
      exact ⟨fun m hm => absurd hm (by simp [Dialect.unlimited]),
        admitsAll_finiteItems (depth + 1) xs⟩
  | .object xs => by
      rw [Value.finiteOnly, Admits]
      exact ⟨fun m hm => absurd hm (by simp [Dialect.unlimited]),
        admitsFields_finiteFields (depth + 1) xs⟩

theorem admitsAll_finiteItems (depth : Nat) :
    ∀ xs : List Value, AdmitsAll (.stored indent) .unlimited depth (Value.finiteItems xs)
  | [] => by simp [Value.finiteItems, AdmitsAll]
  | x :: xs => by
      rw [Value.finiteItems, AdmitsAll]
      exact ⟨admits_finiteOnly depth x, admitsAll_finiteItems depth xs⟩

theorem admitsFields_finiteFields (depth : Nat) :
    ∀ xs : List (String × Value),
      AdmitsFields (.stored indent) .unlimited depth (Value.finiteFields xs)
  | [] => by simp [Value.finiteFields, AdmitsFields]
  | (k, x) :: xs => by
      rw [Value.finiteFields, AdmitsFields]
      exact ⟨admits_finiteOnly depth x, admitsFields_finiteFields depth xs⟩
end

/-- Whatever is read from a stored text is the value it was printed from, as
far as a text can say it. -/
theorem eq_of_read?_stored {dialect : Dialect} {v w : Value}
    (h : read? dialect (print (.stored indent) v) = some w) : w = collapsed v.finiteOnly := by
  have hprint : print (.stored indent) v = print (.stored indent) v.finiteOnly :=
    (write_finiteOnly 0 v).symm
  have hread : read? .unlimited (print (.stored indent) v.finiteOnly)
      = some (collapsed v.finiteOnly) := read?_print separates_stored (admits_finiteOnly 0 v)
  rw [hprint] at h
  exact Option.some.inj ((read?_of_limited h).symm.trans hread)

end Stored

end Routebook.Json
