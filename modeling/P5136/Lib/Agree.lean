import Mathlib.Data.List.Forall2
import P5136.Lib.Format

/-!
# Calls that agree

Two calls on one state type agree along a relation of their results when from every state they both fail, or both return
related results and leave the same state. Agreement composes, so that two programs written apart are compared step by step.
-/

universe u

namespace Act

variable {σ ε ε' α α' β β' γ : Type u}

/-- From every state both calls fail, or both return related results and leave the same state. -/
def Agree (R : α → α' → Prop) (c : Act σ ε α) (c' : Act σ ε' α') : Prop :=
  ∀ s, (∀ a t, c s = (.ok a, t) → ∃ a', R a a' ∧ c' s = (.ok a', t)) ∧
    (∀ a' t, c' s = (.ok a', t) → ∃ a, R a a' ∧ c s = (.ok a, t))

/-- Grouping three calls either way is the same call. -/
theorem bind_assoc (c : Act σ ε α) (k : α → Act σ ε β) (l : β → Act σ ε γ) :
    (c >>= k) >>= l = c >>= fun a => k a >>= l := by
  funext s
  change andThen (andThen c k) l s = andThen c (fun a => andThen (k a) l) s
  unfold andThen
  rcases c s with ⟨r, t⟩
  cases r <;> rfl

/-- Calls that return the same agree. -/
theorem Agree.of_iff {c : Act σ ε α} {c' : Act σ ε' α} (h : ∀ s a t, c s = (.ok a, t) ↔ c' s = (.ok a, t)) :
    Agree Eq c c' := by
  intro s
  refine ⟨fun a t ha => ⟨a, rfl, (h s a t).1 ha⟩, fun a t ha => ⟨a, rfl, (h s a t).2 ha⟩⟩

/-- Related values agree. -/
theorem agree_pure {R : α → α' → Prop} {a : α} {a' : α'} (h : R a a') :
    Agree R (pure a : Act σ ε α) (pure a' : Act σ ε' α') := by
  intro s
  constructor
  · intro b t hb
    obtain ⟨rfl, rfl⟩ := pure_eq_ok.1 hb
    exact ⟨a', h, rfl⟩
  · intro b t hb
    obtain ⟨rfl, rfl⟩ := pure_eq_ok.1 hb
    exact ⟨a, h, rfl⟩

/-- Failures agree. -/
theorem agree_fail {R : α → α' → Prop} (e : ε) (e' : ε') : Agree R (fail e : Act σ ε α) (fail e' : Act σ ε' α') := by
  intro s
  constructor
  · intro b t hb
    simp at hb
  · intro b t hb
    simp at hb

/-- Guards on equivalent conditions agree. -/
theorem agree_require {p q : Prop} [Decidable p] [Decidable q] (h : p ↔ q) (e : ε) (e' : ε') :
    Agree Eq (require p e : Act σ ε PUnit) (require q e') := by
  refine Agree.of_iff fun s a t => ?_
  rw [require_eq_ok, require_eq_ok, h]

/-- Lifted results that are equal when they are there agree. -/
theorem agree_ofExcept {r : Except ε α} {r' : Except ε' α} (h : ∀ a, r = .ok a ↔ r' = .ok a) :
    Agree Eq (ofExcept r : Act σ ε α) (ofExcept r') := by
  refine Agree.of_iff fun s a t => ?_
  rw [ofExcept_eq_ok, ofExcept_eq_ok, h]

/-- The same change of the state agrees with itself. -/
theorem agree_modify (f : σ → σ) : Agree Eq (modify f : Act σ ε PUnit) (modify f : Act σ ε' PUnit) := by
  refine Agree.of_iff fun s a t => ?_
  rw [modify_eq_ok, modify_eq_ok]

/-- Calls that agree, followed by calls that agree on related values. -/
theorem Agree.bind {R : α → α' → Prop} {S : β → β' → Prop} {c : Act σ ε α} {c' : Act σ ε' α'} {k : α → Act σ ε β}
    {k' : α' → Act σ ε' β'} (hc : Agree R c c') (hk : ∀ a a', R a a' → Agree S (k a) (k' a')) :
    Agree S (c >>= k) (c' >>= k') := by
  intro s
  constructor
  · intro b t hb
    obtain ⟨a, u, ha, hb⟩ := bind_eq_ok.1 hb
    obtain ⟨a', hR, ha'⟩ := (hc s).1 a u ha
    obtain ⟨b', hS, hb'⟩ := (hk a a' hR u).1 b t hb
    exact ⟨b', hS, bind_eq_ok.2 ⟨a', u, ha', hb'⟩⟩
  · intro b' t hb'
    obtain ⟨a', u, ha', hb'⟩ := bind_eq_ok.1 hb'
    obtain ⟨a, hR, ha⟩ := (hc s).2 a' u ha'
    obtain ⟨b, hS, hb⟩ := (hk a a' hR u).2 b' t hb'
    exact ⟨b, hS, bind_eq_ok.2 ⟨a, u, ha, hb⟩⟩

/-- Calls that agree on equal values, followed by calls that agree. -/
theorem Agree.bind_eq {S : β → β' → Prop} {c : Act σ ε α} {c' : Act σ ε' α} {k : α → Act σ ε β} {k' : α → Act σ ε' β'}
    (hc : Agree Eq c c') (hk : ∀ a, Agree S (k a) (k' a)) : Agree S (c >>= k) (c' >>= k') :=
  hc.bind fun a _ h => h ▸ hk a

/-- Changing the failure of the second call keeps agreement. -/
theorem Agree.mapError_right {R : α → α' → Prop} {c : Act σ ε α} {c' : Act σ ε' α'} {ε'' : Type u} (h : Agree R c c')
    (f : ε' → ε'') : Agree R c (mapError f c') := by
  intro s
  constructor
  · intro a t ha
    obtain ⟨a', hR, ha'⟩ := (h s).1 a t ha
    exact ⟨a', hR, mapError_eq_ok.2 ha'⟩
  · intro a' t ha'
    exact (h s).2 a' t (mapError_eq_ok.1 ha')

/-- Taking a number of symbols agrees with itself. -/
theorem agree_takeOr {δ : Type u} (length : Nat) (e : Cursor δ → ε) (e' : Cursor δ → ε') :
    Agree Eq (Cursor.takeOr length e) (Cursor.takeOr length e') := by
  refine Agree.of_iff fun c a t => ?_
  unfold Cursor.takeOr
  split <;> simp

/-- Readings in a row agree. -/
theorem agree_collect {δ : Type u} {dec : Act (Cursor δ) ε α} {dec' : Act (Cursor δ) ε' α} (h : Agree Eq dec dec')
    (count : Nat) : Agree Eq (Format.collect dec count) (Format.collect dec' count) := by
  induction count with
  | zero => exact agree_pure rfl
  | succ count ih => exact h.bind_eq fun a => ih.bind_eq fun as => agree_pure rfl

/-- Readings in a row with a state carried along agree, value by value. -/
theorem agree_times {δ κ : Type u} {R : α → α' → Prop} {step : κ → Act (Cursor δ) ε (α × κ)}
    {step' : κ → Act (Cursor δ) ε' (α' × κ)} (h : ∀ k, Agree (fun p q => R p.1 q.1 ∧ p.2 = q.2) (step k) (step' k))
    (count : Nat) (k : κ) :
    Agree (fun p q => List.Forall₂ R p.1 q.1 ∧ p.2 = q.2) (Format.times step count k) (Format.times step' count k) := by
  induction count generalizing k with
  | zero => exact agree_pure ⟨List.Forall₂.nil, rfl⟩
  | succ count ih =>
    refine (h k).bind ?_
    rintro ⟨a, k₁⟩ ⟨a', k₂⟩ ⟨ha, rfl⟩
    refine (ih k₁).bind ?_
    rintro ⟨as, k₂⟩ ⟨as', k₃⟩ ⟨has, rfl⟩
    exact agree_pure ⟨List.Forall₂.cons ha has, rfl⟩

/-- Writing every element agrees. -/
theorem agree_writeAll {δ : Type u} {f : α → Act (List δ) ε PUnit} {f' : α → Act (List δ) ε' PUnit}
    (h : ∀ a, Agree Eq (f a) (f' a)) (as : List α) : Agree Eq (Format.writeAll f as) (Format.writeAll f' as) := by
  induction as with
  | nil => exact agree_pure rfl
  | cons a as ih => exact (h a).bind_eq fun _ => ih

end Act
