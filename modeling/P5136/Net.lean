import Mathlib.Algebra.Ring.Int.Defs
import Mathlib.Algebra.Ring.Nat

/-!
# Standard types

The types of the standard library that the server's state is built from: checked machine integers, instants, IP addresses
and socket addresses. An unsigned machine integer is a natural number; where the source checks an addition for overflow, so
does `checkedAdd`, with the width of the source's type.
-/

namespace P5136

/-- `checked_add` of an unsigned integer of `w` bits: the sum, when it fits. -/
def checkedAdd (w a b : Nat) : Option Nat := if a + b < 2 ^ w then some (a + b) else none

/-- A checked sum is the sum, and fits. -/
theorem checkedAdd_eq_some {w a b c : Nat} : checkedAdd w a b = some c ↔ c = a + b ∧ a + b < 2 ^ w := by
  unfold checkedAdd
  split
  · simp_all [eq_comm]
  · simp_all

/-- `NonZero`: an unsigned integer of so many bits that is not zero. -/
structure NonZero (bits : Nat) where
  get : Nat
  ne_zero : get ≠ 0
  lt : get < 2 ^ bits
deriving DecidableEq

namespace NonZero

variable {bits : Nat}

/-- The first integers fit. -/
theorem one_lt_32 : 1 < 2 ^ 32 := by decide
theorem two_lt_32 : 2 < 2 ^ 32 := by decide
theorem one_lt_64 : 1 < 2 ^ 64 := by decide
theorem two_lt_64 : 2 < 2 ^ 64 := by decide

/-- `NonZero::new`: the integer, unless it is zero. -/
def new (value : Nat) : Option (NonZero bits) :=
  if h : value ≠ 0 ∧ value < 2 ^ bits then some ⟨value, h.1, h.2⟩ else none

/-- `get().checked_add(1).and_then(NonZero::new)`: the next integer, unless this is the last. -/
def next (n : NonZero bits) : Option (NonZero bits) :=
  if h : n.get + 1 < 2 ^ bits then some ⟨n.get + 1, Nat.succ_ne_zero _, h⟩ else none

/-- Integers with the same value are the same. -/
theorem ext_get {n m : NonZero bits} (h : n.get = m.get) : n = m := by
  cases n
  cases m
  simp only at h
  subst h
  rfl

/-- `NonZero::new` keeps the value. -/
theorem new_eq_some {value : Nat} {n : NonZero bits} : new value = some n ↔ n.get = value := by
  unfold new
  constructor
  · intro h
    split at h
    · cases h
      rfl
    · nomatch h
  · rintro rfl
    rw [dif_pos ⟨n.ne_zero, n.lt⟩]

/-- The next integer is one more. -/
theorem next_eq_some {n m : NonZero bits} : n.next = some m ↔ m.get = n.get + 1 := by
  unfold next
  constructor
  · intro h
    split at h
    · cases h
      rfl
    · nomatch h
  · intro h
    have hlt := m.lt
    rw [h] at hlt
    rw [dif_pos hlt]
    exact congrArg some (ext_get h.symm)

end NonZero

/-- A monotonic instant, in nanoseconds. -/
abbrev Instant := Nat

/-- A duration, in nanoseconds. -/
abbrev Duration := Nat

/-- The last instant the clock can represent: the largest signed 64-bit second and the last nanosecond in it. -/
def Instant.last : Instant := (2 ^ 63 - 1) * 10 ^ 9 + (10 ^ 9 - 1)

/-- `Instant::checked_add`: the later instant, when the clock can represent it. -/
def Instant.checkedAdd (t : Instant) (d : Duration) : Option Instant :=
  if t + d ≤ Instant.last then some (t + d) else none

/-- A checked later instant is the sum. -/
theorem Instant.checkedAdd_eq_some {t d t' : Nat} :
    Instant.checkedAdd t d = some t' ↔ t' = t + d ∧ t + d ≤ Instant.last := by
  unfold Instant.checkedAdd
  split
  · simp_all [eq_comm]
  · simp_all

/-- A duration of whole seconds. -/
def seconds (n : Nat) : Duration := n * 10 ^ 9

/-- A duration of whole milliseconds. -/
def milliseconds (n : Nat) : Duration := n * 10 ^ 6

/-- An IP address. -/
inductive IpAddr where
  | v4 (bits : BitVec 32)
  | v6 (bits : BitVec 128)
deriving DecidableEq

/-- `Ipv4Addr::UNSPECIFIED`. -/
def IpAddr.unspecified : IpAddr := .v4 0

/-- A socket address. The flow label and the scope of an IPv6 address take part in its equality. -/
inductive SocketAddr where
  | v4 (ip : BitVec 32) (port : UInt16)
  | v6 (ip : BitVec 128) (port : UInt16) (flowinfo scopeId : UInt32)
deriving DecidableEq

/-- The IP address of a socket address. -/
def SocketAddr.ip : SocketAddr → IpAddr
  | .v4 ip _ => .v4 ip
  | .v6 ip _ _ _ => .v6 ip

/-- The port of a socket address. -/
def SocketAddr.port : SocketAddr → UInt16
  | .v4 _ port => port
  | .v6 _ port _ _ => port

end P5136
