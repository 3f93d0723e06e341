import Mathlib.Data.List.Forall2

/-!
# Checks in order

A computation that may fail is a chain of steps of which the first failure is the result. Here, when such a chain succeeds,
and a check made at every element of a list.
-/

universe u v

namespace Checks

variable {ε : Type u} {α β : Type v}

/-- A chain succeeds when its first step does and the rest does with its value. -/
theorem bind_eq_ok {x : Except ε α} {f : α → Except ε β} {b : β} :
    (x >>= f) = .ok b ↔ ∃ a, x = .ok a ∧ f a = .ok b := by
  cases x with
  | error e => simp [bind, Except.bind]
  | ok a => simp [bind, Except.bind]

/-- A chain fails when its first step does, or the rest does with its value. -/
theorem bind_eq_error {x : Except ε α} {f : α → Except ε β} {e : ε} :
    (x >>= f) = .error e ↔ x = .error e ∨ ∃ a, x = .ok a ∧ f a = .error e := by
  cases x with
  | error e' => simp [bind, Except.bind]
  | ok a => simp [bind, Except.bind]

/-- A guard at the head of a chain. -/
def ensure (p : Prop) [Decidable p] (e : ε) : Except ε Unit := if p then .ok () else .error e

/-- A guard succeeds when its condition holds. -/
@[simp] theorem ensure_eq_ok {p : Prop} [Decidable p] {e : ε} {x : Unit} : ensure p e = .ok x ↔ p := by
  by_cases hp : p <;> simp [ensure, hp]

/-- A guard fails when its condition does not hold. -/
theorem ensure_eq_error {p : Prop} [Decidable p] {e e' : ε} : ensure p e = .error e' ↔ ¬p ∧ e = e' := by
  by_cases hp : p <;> simp [ensure, hp]

/-- A value that must be there. -/
def orElse (o : Option α) (e : ε) : Except ε α :=
  match o with
  | some a => .ok a
  | none => .error e

/-- It is there. -/
@[simp] theorem orElse_eq_ok {o : Option α} {e : ε} {a : α} : orElse o e = .ok a ↔ o = some a := by
  cases o <;> simp [orElse]

/-- It is not there. -/
theorem orElse_eq_error {o : Option α} {e e' : ε} : (orElse o e : Except ε α) = .error e' ↔ o = none ∧ e = e' := by
  cases o <;> simp [orElse]

/-- What succeeds does so whatever its failures are changed to. -/
theorem mapError_ok {ε' : Type*} (f : ε → ε') (a : α) : (Except.ok a : Except ε α).mapError f = .ok a := rfl

/-- A failure is changed. -/
theorem mapError_error {ε' : Type*} (f : ε → ε') (e : ε) : (Except.error e : Except ε α).mapError f = .error (f e) := rfl

/-- A failure that is changed was a failure. -/
theorem mapError_eq_ok {ε' : Type*} {f : ε → ε'} {x : Except ε α} {a : α} : x.mapError f = .ok a ↔ x = .ok a := by
  cases x <;> simp [mapError_ok, mapError_error]

/-- Make a check at every element of a list, in order. -/
def all (f : α → Except ε Unit) : List α → Except ε Unit
  | [] => .ok ()
  | a :: as => match f a with
    | .error e => .error e
    | .ok _ => all f as

/-- The checks succeed when every one does. -/
theorem all_eq_ok {f : α → Except ε Unit} {l : List α} {x : Unit} : all f l = .ok x ↔ ∀ a ∈ l, f a = .ok () := by
  induction l with
  | nil => simp [all]
  | cons a as ih =>
    cases h : f a with
    | error e => simp [all, h]
    | ok y => simp [all, h, ih]

/-- Compute at every element of a list, in order. -/
def traverse (f : α → Except ε β) : List α → Except ε (List β)
  | [] => .ok []
  | a :: as => match f a with
    | .error e => .error e
    | .ok b => match traverse f as with
      | .error e => .error e
      | .ok bs => .ok (b :: bs)

/-- The computations succeed when each yields the element of the result at its place. -/
theorem traverse_eq_ok {f : α → Except ε β} {l : List α} {bs : List β} :
    traverse f l = .ok bs ↔ List.Forall₂ (fun a b => f a = .ok b) l bs := by
  induction l generalizing bs with
  | nil => simp [traverse, eq_comm]
  | cons a as ih =>
    cases h : f a with
    | error e => simp [traverse, h, List.forall₂_cons_left_iff]
    | ok b =>
      cases h' : traverse f as with
      | error e =>
        simp only [traverse, h, h', reduceCtorEq, List.forall₂_cons_left_iff, Except.ok.injEq, false_iff]
        rintro ⟨b', bs', -, hbs, -⟩
        rw [← ih, h'] at hbs
        cases hbs
      | ok cs =>
        simp only [traverse, h, h', List.forall₂_cons_left_iff, Except.ok.injEq]
        constructor
        · rintro rfl
          exact ⟨b, cs, rfl, ih.1 h', rfl⟩
        · rintro ⟨b', bs', rfl, hbs, rfl⟩
          rw [← ih, h', Except.ok.injEq] at hbs
          rw [hbs]

/-- When each computation succeeds, all of them do. -/
theorem traverse_isOk {f : α → Except ε β} {l : List α} (h : ∀ a ∈ l, ∃ b, f a = .ok b) : ∃ bs, traverse f l = .ok bs := by
  induction l with
  | nil => exact ⟨[], rfl⟩
  | cons a as ih =>
    obtain ⟨b, hb⟩ := h a (List.mem_cons_self ..)
    obtain ⟨bs, hbs⟩ := ih (fun x hx => h x (List.mem_cons_of_mem _ hx))
    exact ⟨b :: bs, by simp only [traverse, hb, hbs]⟩

/-- Computations that all succeed yield their values. -/
theorem traverse_of_ok {f : α → Except ε β} {g : α → β} {l : List α} (h : ∀ a ∈ l, f a = .ok (g a)) :
    traverse f l = .ok (l.map g) := by
  rw [traverse_eq_ok, List.forall₂_map_right_iff, List.forall₂_same]
  exact h

/-! ## Failures that do not happen -/

/-- The computation does not fail with a failure of a certain kind. -/
def Avoids (bad : ε → Prop) (x : Except ε α) : Prop := ∀ e, x = .error e → ¬bad e

variable {bad : ε → Prop}

theorem avoids_ok (a : α) : Avoids bad (.ok a : Except ε α) := by
  rintro e ⟨⟩

theorem avoids_pure (a : α) : Avoids bad (pure a : Except ε α) := by
  rintro e ⟨⟩

theorem avoids_error {e : ε} (h : ¬bad e) : Avoids bad (.error e : Except ε α) := by
  rintro e' ⟨⟩
  exact h

/-- A chain avoids what its first step avoids, and the rest with every value that step returns. -/
theorem Avoids.bind {x : Except ε α} {f : α → Except ε β} (hx : Avoids bad x) (hf : ∀ a, x = .ok a → Avoids bad (f a)) :
    Avoids bad (x >>= f) := by
  intro e he
  rcases bind_eq_error.1 he with he | ⟨a, ha, he⟩
  · exact hx e he
  · exact hf a ha e he

/-- A guard avoids what its own failure is not. -/
theorem avoids_ensure {p : Prop} [Decidable p] {e : ε} (h : p ∨ ¬bad e) : Avoids bad (ensure p e) := by
  unfold ensure
  split
  · exact avoids_ok _
  · rename_i hp
    exact avoids_error (h.resolve_left hp)

/-- A value that is there, or whose absence is another failure. -/
theorem avoids_orElse {o : Option α} {e : ε} (h : o.isSome ∨ ¬bad e) : Avoids bad (orElse o e) := by
  cases o with
  | some a => exact avoids_ok a
  | none => exact avoids_error (h.resolve_left (by simp))

/-- A changed failure that is always another one. -/
theorem avoids_mapError {ε' : Type u} {x : Except ε' α} {f : ε' → ε} (h : ∀ e, ¬bad (f e)) : Avoids bad (x.mapError f) := by
  cases x with
  | ok a => exact avoids_ok a
  | error e => exact avoids_error (h e)

end Checks
