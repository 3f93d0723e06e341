import Mathlib.Logic.Basic

/-!
# Errors and panics

A call of a program that fails returns an error, which its caller handles, or panics: an assertion, an `expect` or an index
fails. Both end the call; they are kept apart so that a panic can be proved impossible.
-/

universe u

/-- How a call can fail: with an error of its own, or by a panic with a message. -/
inductive Fault (ε : Type u) where
  | error (e : ε)
  | panic (message : String)
deriving DecidableEq

namespace Fault

/-- The result is not a panic. -/
def Safe {ε α : Type u} (r : Except (Fault ε) α) : Prop := ∀ message, r ≠ .error (.panic message)

@[simp] theorem safe_ok {ε α : Type u} (a : α) : Safe (.ok a : Except (Fault ε) α) := by
  intro message h
  nomatch h

@[simp] theorem safe_error {ε α : Type u} (e : ε) : Safe (.error (.error e) : Except (Fault ε) α) := by
  intro message h
  nomatch h

/-- `expect`: the value that must be there, or a panic. -/
def expect {ε α : Type u} (value : Option α) (message : String) : Except (Fault ε) α :=
  match value with
  | some a => .ok a
  | none => .error (.panic message)

@[simp] theorem expect_some {ε α : Type u} (a : α) (message : String) :
    (expect (some a) message : Except (Fault ε) α) = .ok a := rfl

/-- An assertion: a panic where it does not hold. -/
def assert {ε : Type u} (p : Prop) [Decidable p] (message : String) : Except (Fault ε) PUnit :=
  if p then .ok ⟨⟩ else .error (.panic message)

theorem assert_of {ε : Type u} {p : Prop} [Decidable p] (h : p) (message : String) :
    (assert p message : Except (Fault ε) PUnit) = .ok ⟨⟩ := if_pos h

end Fault
