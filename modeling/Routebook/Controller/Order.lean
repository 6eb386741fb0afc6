/-
  Routebook.Controller.Order

  The order in which the classes above a class are looked up: every class
  comes before the ones above it, bases keep the order in which they are
  written, and the orders of the bases are respected.
-/

namespace Routebook.Order

/-- Whether a class is held back by some sequence: it stands there, but not first. -/
def heldBack (c : Nat) (sequences : List (List Nat)) : Bool :=
  sequences.any fun s => (s.drop 1).contains c

/-- The first head of a sequence that nothing holds back. -/
def nextHead? (all : List (List Nat)) : List (List Nat) → Option Nat
  | [] => none
  | [] :: rest => nextHead? all rest
  | (c :: _) :: rest => if heldBack c all then nextHead? all rest else some c

/-- Take a class away from the front of every sequence. -/
def withoutHead (c : Nat) (sequences : List (List Nat)) : List (List Nat) :=
  (sequences.map fun s => if s.head? == some c then s.drop 1 else s).filter fun s => !s.isEmpty

/-- Join sequences into one that respects them all; `fuel` bounds its length. -/
def join : Nat → List (List Nat) → Option (List Nat)
  | 0, sequences => if sequences.all List.isEmpty then some [] else none
  | fuel + 1, sequences =>
    if sequences.all List.isEmpty then some []
    else
      match nextHead? sequences sequences with
      | none => none
      | some c => (join fuel (withoutHead c sequences)).map (c :: ·)

/-- The order above a class, from its bases and the orders of each of them. -/
def above (bases : List Nat) (orders : List (List Nat)) : Option (List Nat) :=
  let sequences := (orders ++ [bases]).filter fun s => !s.isEmpty
  -- Every step takes a head away, so the lengths together bound the steps.
  join (sequences.foldl (fun n s => n + s.length) 0) sequences

end Routebook.Order
