/-
  Routebook.Checked

  The outcome of reading data: a value, the faults found, or a plain type
  error, which no report collects.  Outcomes are combined side by side: the
  faults of all parts are kept in order, and a type error in any part wins.
-/
import Routebook.Fault

namespace Routebook

/-- The outcome of reading data. -/
inductive Checked (α : Type u) where
  | ok (a : α)
  | faulty (faults : List Fault)
  | wrongType

namespace Checked

variable {α β : Type u}

/-- One fault at the place that is read. -/
def fault (cause : Cause) : Checked α := .faulty [.mk [] cause]

/-- Change the value. -/
protected def map (f : α → β) : Checked α → Checked β
  | .ok a => .ok (f a)
  | .faulty fs => .faulty fs
  | .wrongType => .wrongType

/-- Apply one outcome to another, keeping the faults of both. -/
protected def seq (f : Checked (α → β)) (x : Checked α) : Checked β :=
  match f, x with
  | .wrongType, _ => .wrongType
  | _, .wrongType => .wrongType
  | .ok f, .ok a => .ok (f a)
  | .ok _, .faulty fs => .faulty fs
  | .faulty fs, .ok _ => .faulty fs
  | .faulty fs, .faulty gs => .faulty (fs ++ gs)

/-- Go on with the value, if there is one. -/
protected def andThen (x : Checked α) (f : α → Checked β) : Checked β :=
  match x with
  | .ok a => f a
  | .faulty fs => .faulty fs
  | .wrongType => .wrongType

instance : Applicative Checked where
  pure := .ok
  map := Checked.map
  seq f x := Checked.seq f (x ())

/-- The same outcome seen from one step further out. -/
def under (step : Step) : Checked α → Checked α
  | .ok a => .ok a
  | .faulty fs => .faulty (fs.map (Fault.under step))
  | .wrongType => .wrongType

/-- The value, if there is one. -/
def toOption : Checked α → Option α
  | .ok a => some a
  | _ => none

/-- Read every item of a list under its index. -/
def items (read : Value → Checked α) : Int → List Value → Checked (List α)
  | _, [] => .ok []
  | i, v :: vs =>
    Checked.seq (Checked.map List.cons ((read v).under (.index i))) (items read (i + 1) vs)

/-- Read every field of an object under its key. -/
def fields (read : Value → Checked α) : List (String × Value) → Checked (Entries α)
  | [] => .ok []
  | (k, v) :: rest =>
    Checked.seq (Checked.map (fun a m => (k, a) :: m) ((read v).under (.key k))) (fields read rest)

/-! ## Laws of combining -/

@[simp] theorem seq_ok (f : α → β) (a : α) :
    Checked.seq (.ok f) (.ok a) = .ok (f a) := rfl

@[simp] theorem map_ok (f : α → β) (a : α) : Checked.map f (.ok a) = .ok (f a) := rfl

@[simp] theorem under_ok (step : Step) (a : α) : under step (.ok a) = .ok a := rfl

theorem seq_eq_ok_iff {f : Checked (α → β)} {x : Checked α} {b : β} :
    Checked.seq f x = .ok b ↔ ∃ g a, f = .ok g ∧ x = .ok a ∧ g a = b := by
  cases f <;> cases x <;> simp [Checked.seq]

end Checked

end Routebook
