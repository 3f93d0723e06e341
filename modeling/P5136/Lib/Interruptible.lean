import P5136.Lib.Checks
import Mathlib.Logic.Relation

/-!
# Programs that may be cut short

A program on a stored state is a chain of atomic operations. It may be cut short before each of them and leaves the state it had
reached; run again, it starts from there. A program meets a specification when from every state with the precondition each of its
stops satisfies a crash condition, a failure leaves a state with a failure condition, and a value a state with the postcondition.
-/

universe u v

/-- A run of a program: the states before its operations, the state at its end, and how it ends. -/
structure Passage (σ ε α : Type u) where
  stops : List σ
  final : σ
  outcome : Except ε α

/-- A run can be found in a state: it was cut short there, or ended there. -/
def Passage.Visits {σ ε α : Type u} (p : Passage σ ε α) (t : σ) : Prop := t ∈ p.stops ∨ t = p.final

/-- A program on a state `σ` that fails with `ε` or returns `α`. -/
def Interruptible (σ ε α : Type u) : Type u := σ → Passage σ ε α

namespace Interruptible

variable {σ τ ε ε' α β : Type u}

/-- Return a value. -/
def ret (a : α) : Interruptible σ ε α := fun s => ⟨[], s, .ok a⟩

/-- One program after another. A failure of the first is the failure of both. -/
def andThen (c : Interruptible σ ε α) (k : α → Interruptible σ ε β) : Interruptible σ ε β := fun s =>
  match (c s).outcome with
  | .ok a => ⟨(c s).stops ++ (k a (c s).final).stops, (k a (c s).final).final, (k a (c s).final).outcome⟩
  | .error e => ⟨(c s).stops, (c s).final, .error e⟩

instance : Monad (Interruptible σ ε) where
  pure := ret
  bind := andThen

/-- One atomic operation. -/
def atomically (f : σ → σ) : Interruptible σ ε PUnit := fun s => ⟨[s], f s, .ok ⟨⟩⟩

/-- What is read of the state. -/
def reads (f : σ → Except ε α) : Interruptible σ ε α := fun s => ⟨[], s, f s⟩

/-- The state. -/
def get : Interruptible σ ε σ := reads .ok

/-- A result that does not touch the state. -/
def ofExcept (r : Except ε α) : Interruptible σ ε α := reads fun _ => r

/-- Fail. -/
def fail (e : ε) : Interruptible σ ε α := reads fun _ => .error e

/-- Fail unless a condition holds. -/
def require (p : Prop) [Decidable p] (e : ε) : Interruptible σ ε PUnit := reads fun _ => if p then .ok ⟨⟩ else .error e

/-- Change the failure. -/
def mapError (f : ε → ε') (c : Interruptible σ ε α) : Interruptible σ ε' α := fun s =>
  ⟨(c s).stops, (c s).final, (c s).outcome.mapError f⟩

/-- A program on a part of the state. -/
def within (get : σ → τ) (set : σ → τ → σ) (c : Interruptible τ ε α) : Interruptible σ ε α := fun s =>
  ⟨(c (get s)).stops.map (set s), set s (c (get s)).final, (c (get s)).outcome⟩

/-! ## Specifications -/

/-- From a state with the precondition `P` every stop satisfies `C`, a failure leaves a state with `E`, and a value one with
`Q`. -/
def Meets (C : σ → Prop) (E : ε → σ → Prop) (P : σ → Prop) (c : Interruptible σ ε α) (Q : α → σ → Prop) : Prop :=
  ∀ s, P s → (∀ t ∈ (c s).stops, C t) ∧
    match (c s).outcome with
    | .ok a => Q a (c s).final
    | .error e => E e (c s).final

section Rules

variable {C : σ → Prop} {E : ε → σ → Prop} {P P' : σ → Prop} {Q Q' : α → σ → Prop}

/-- A stronger precondition and a weaker postcondition. -/
theorem Meets.weaken {c : Interruptible σ ε α} (h : Meets C E P c Q) (hP : ∀ s, P' s → P s) (hQ : ∀ a s, Q a s → Q' a s) :
    Meets C E P' c Q' := by
  intro s hs
  obtain ⟨hstops, hend⟩ := h s (hP s hs)
  refine ⟨hstops, ?_⟩
  cases hout : (c s).outcome with
  | ok a =>
    rw [hout] at hend
    exact hQ a _ hend
  | error e =>
    rw [hout] at hend
    exact hend

/-- A program that is started in a known state. -/
theorem Meets.of_forall {c : Interruptible σ ε α} (h : ∀ s, P s → Meets C E (· = s) c Q) : Meets C E P c Q :=
  fun s hs => h s hs s rfl

/-- A value is returned. -/
theorem meets_pure {a : α} (h : ∀ s, P s → Q a s) : Meets C E P (pure a) Q :=
  fun s hs => ⟨fun _ ht => absurd ht List.not_mem_nil, h s hs⟩

/-- Two programs in a row. -/
theorem Meets.bind {R : β → σ → Prop} {c : Interruptible σ ε β} {k : β → Interruptible σ ε α} (hc : Meets C E P c R)
    (hk : ∀ b, Meets C E (R b) (k b) Q) : Meets C E P (c >>= k) Q := by
  intro s hs
  obtain ⟨hstops, hend⟩ := hc s hs
  change (∀ t ∈ (andThen c k s).stops, C t) ∧ _
  change _ ∧ match (andThen c k s).outcome with
    | .ok a => Q a (andThen c k s).final
    | .error e => E e (andThen c k s).final
  unfold andThen
  cases hout : (c s).outcome with
  | ok b =>
    rw [hout] at hend
    obtain ⟨hstops', hend'⟩ := hk b _ hend
    refine ⟨fun t ht => ?_, hend'⟩
    rcases List.mem_append.1 ht with ht | ht
    · exact hstops t ht
    · exact hstops' t ht
  | error e =>
    rw [hout] at hend
    exact ⟨hstops, hend⟩

/-- An atomic operation: it may be cut short before. -/
theorem meets_atomically {f : σ → σ} {Q : PUnit → σ → Prop} (h : ∀ s, P s → C s ∧ Q ⟨⟩ (f s)) :
    Meets C E P (atomically f) Q := by
  intro s hs
  obtain ⟨hstop, hend⟩ := h s hs
  refine ⟨fun t ht => ?_, hend⟩
  rw [List.mem_singleton.1 ht]
  exact hstop

/-- What is read. -/
theorem meets_reads {f : σ → Except ε α} (hok : ∀ s a, P s → f s = .ok a → Q a s) (herror : ∀ s e, P s → f s = .error e → E e s) :
    Meets C E P (reads f) Q := by
  intro s hs
  refine ⟨fun _ ht => absurd ht List.not_mem_nil, ?_⟩
  change match f s with
    | .ok a => Q a s
    | .error e => E e s
  cases hf : f s with
  | ok a => exact hok s a hs hf
  | error e => exact herror s e hs hf

/-- A result that does not touch the state, where failures keep the precondition. -/
theorem meets_ofExcept {r : Except ε α} (herror : ∀ s e, P s → r = .error e → E e s) :
    Meets C E P (ofExcept r) (fun a s => P s ∧ r = .ok a) :=
  meets_reads (fun _ _ hs hr => ⟨hs, hr⟩) herror

/-- A failure. -/
theorem meets_fail {e : ε} (h : ∀ s, P s → E e s) : Meets C E P (fail e) Q := by
  refine meets_reads (fun s a _ hf => ?_) (fun s e' hs hf => ?_)
  · cases hf
  · cases hf
    exact h s hs

/-- A guard. -/
theorem meets_require {p : Prop} [Decidable p] {e : ε} (h : ∀ s, P s → ¬p → E e s) :
    Meets C E P (require p e) (fun _ s => P s ∧ p) := by
  by_cases hp : p
  · exact meets_reads (fun s _ hs _ => ⟨hs, hp⟩) (fun s e' _ hf => by rw [if_pos hp] at hf; cases hf)
  · refine meets_reads (fun s a _ hf => ?_) (fun s e' hs hf => ?_)
    · rw [if_neg hp] at hf
      cases hf
    · rw [if_neg hp] at hf
      cases hf
      exact h s hs hp

/-- A changed failure. -/
theorem Meets.mapError {f : ε → ε'} {E' : ε' → σ → Prop} {c : Interruptible σ ε α} (h : Meets C (fun e => E' (f e)) P c Q) :
    Meets C E' P (mapError f c) Q := by
  intro s hs
  obtain ⟨hstops, hend⟩ := h s hs
  refine ⟨hstops, ?_⟩
  change match (c s).outcome.mapError f with
    | .ok a => Q a (c s).final
    | .error e => E' e (c s).final
  cases hout : (c s).outcome with
  | ok a =>
    rw [hout] at hend
    exact hend
  | error e =>
    rw [hout] at hend
    exact hend

/-- A program on a part of the state: what it does to the part is done to the whole. -/
theorem meets_within {get : σ → τ} {set : σ → τ → σ} {c : Interruptible τ ε α}
    (h : ∀ s, P s → Meets (fun t => C (set s t)) (fun e t => E e (set s t)) (· = get s) c (fun a t => Q a (set s t))) :
    Meets C E P (within get set c) Q := by
  intro s hs
  obtain ⟨hstops, hend⟩ := h s hs (get s) rfl
  refine ⟨fun t ht => ?_, hend⟩
  obtain ⟨part, hpart, rfl⟩ := List.mem_map.1 ht
  exact hstops part hpart

/-- The state is read first. -/
theorem meets_getThen {k : σ → Interruptible σ ε α} {s : σ} (h : Meets C E (· = s) (k s) Q) :
    Meets C E (· = s) (get >>= k) Q := by
  refine Meets.bind (R := fun a t => t = s ∧ a = s) (meets_reads ?_ ?_) fun a => Meets.of_forall ?_
  · rintro t a rfl ha
    cases ha
    exact ⟨rfl, rfl⟩
  · rintro t e - ha
    cases ha
  · rintro t ⟨rfl, rfl⟩
    exact h

/-- A program that meets a specification is found only in states with the crash condition, where failures and values leave one. -/
theorem Meets.visits {c : Interruptible σ ε α} {s t : σ} (h : Meets C E P c Q) (hE : ∀ e s, E e s → C s)
    (hQ : ∀ a s, Q a s → C s) (hs : P s) (ht : (c s).Visits t) : C t := by
  obtain ⟨hstops, hend⟩ := h s hs
  rcases ht with ht | rfl
  · exact hstops t ht
  · cases hout : (c s).outcome with
    | ok a =>
      rw [hout] at hend
      exact hQ a _ hend
    | error e =>
      rw [hout] at hend
      exact hE e _ hend

end Rules

/-! ## Running again -/

/-- A state that runs of some programs lead to, each cut short or not. -/
def Reruns {ι : Type v} (programs : ι → Interruptible σ ε α) : σ → σ → Prop :=
  Relation.ReflTransGen fun s t => ∃ i, (programs i s).Visits t

/-- A relation that is reflexive and transitive where an invariant holds, and that each program keeps wherever it is cut short,
holds after all runs. -/
theorem Reruns.keeps {ι : Type v} {programs : ι → Interruptible σ ε α} {I : σ → Prop} {R : σ → σ → Prop}
    (hrefl : ∀ s, I s → R s s) (htrans : ∀ s t w, R s t → R t w → R s w) (hI : ∀ s t, R s t → I t)
    (hstep : ∀ i s t, I s → (programs i s).Visits t → R s t) {s t : σ} (hs : I s) (h : Reruns programs s t) : R s t := by
  induction h with
  | refl => exact hrefl s hs
  | tail _ hlast ih =>
    obtain ⟨i, hvisit⟩ := hlast
    exact htrans _ _ _ ih (hstep i _ _ (hI _ _ ih) hvisit)

end Interruptible
