import AimChat.Lib.Run

/-! # Double-ended queues

The abstract queue: a list, put to and taken from at both ends, taking more than there is being the only
fault. -/

namespace AimChat.Deque

open Run

universe u

variable {α : Type u}

/-- An operation of a double-ended queue. -/
inductive Call (α : Type u)
  | pushBack (xs : List α)
  | pushFront (xs : List α)
  | popFront (n : Nat)
  | popBack (n : Nat)

/-- There is less than an operation takes. -/
inductive Underflow
  | popFront
  | popBack
  deriving DecidableEq, Repr

/-- One operation. -/
def step (l : List α) : Call α → Except Underflow (List α)
  | .pushBack xs => .ok (l ++ xs)
  | .pushFront xs => .ok (xs ++ l)
  | .popFront n => if n ≤ l.length then .ok (l.drop n) else .error .popFront
  | .popBack n => if n ≤ l.length then .ok (l.take (l.length - n)) else .error .popBack

end AimChat.Deque
