import P5136.Lib.FiniteMap

/-!
# Bounded queues

A queue of bounded capacity between a producer and a consumer, with the history of what was ever put into it. A producer that
must fill several queues at once reserves a place in each first; then putting the items in cannot fail. Nothing is put in when
one reservation fails.
-/

universe u v

/-- A bounded queue. `sent` is everything ever put in, oldest first, and `taken` the number of items the consumer has. -/
structure BoundedQueue (α : Type u) where
  capacity : Nat
  sent : List α
  taken : Nat
  held : Nat
  closed : Bool

namespace BoundedQueue

variable {α : Type u}

/-- The places that are neither full nor held for another producer. -/
def free (q : BoundedQueue α) : Nat := q.capacity - q.held - (q.sent.length - q.taken)

/-- An item can be put in, when some places are reserved already. -/
def accepts (q : BoundedQueue α) (reserved : Nat) : Bool := !q.closed && reserved < q.free

/-- Put an item in. -/
def push (q : BoundedQueue α) (a : α) : BoundedQueue α := { q with sent := q.sent ++ [a] }

@[simp] theorem push_sent (q : BoundedQueue α) (a : α) : (q.push a).sent = q.sent ++ [a] := rfl

end BoundedQueue
