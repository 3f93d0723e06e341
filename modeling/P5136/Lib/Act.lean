import P5136.Lib.Fault

/-!
# Calls on a mutable state

A call reads and changes a state and returns a value or a failure. A failure keeps the state the call had reached: nothing is
rolled back. A call that is atomic leaves the state as it was when it fails; the rules here say which compositions are atomic.
What a call that returns a value did is read off by inverting it bind by bind.
-/

universe u

/-- A call on a state `σ` that fails with `ε` or returns `α`, with the state it leaves in either case. -/
def Act (σ ε α : Type u) : Type u := σ → Except ε α × σ

namespace Act

variable {σ ε ε' α β : Type u}

/-- Return a value. -/
def ret (a : α) : Act σ ε α := fun s => (.ok a, s)

/-- One call after another. A failure of the first is the failure of both. -/
def andThen (c : Act σ ε α) (k : α → Act σ ε β) : Act σ ε β := fun s =>
  match c s with
  | (.ok a, t) => k a t
  | (.error e, t) => (.error e, t)

instance : Monad (Act σ ε) where
  pure := ret
  bind := andThen

/-- The current state. -/
def get : Act σ ε σ := fun s => (.ok s, s)

/-- Change the state. -/
def modify (f : σ → σ) : Act σ ε PUnit := fun s => (.ok ⟨⟩, f s)

/-- Fail. -/
def fail (e : ε) : Act σ ε α := fun s => (.error e, s)

/-- A result that does not touch the state. -/
def ofExcept (r : Except ε α) : Act σ ε α := fun s => (r, s)

/-- Change the failure. -/
def mapError (f : ε → ε') (c : Act σ ε α) : Act σ ε' α := fun s => ((c s).1.mapError f, (c s).2)

/-- What a reader of the state computes, or its failure. -/
def reads (f : σ → Except ε α) : Act σ ε α := fun s => (f s, s)

/-- Fail unless a condition holds. -/
def require (p : Prop) [Decidable p] (e : ε) : Act σ ε PUnit := fun s => (if p then .ok ⟨⟩ else .error e, s)

/-- Another call when the first fails, from the state that it had reached. -/
def recover (c : Act σ ε α) (handler : ε → Act σ ε α) : Act σ ε α := fun s =>
  match c s with
  | (.ok a, t) => (.ok a, t)
  | (.error e, t) => handler e t

/-! ## What a call that returns has done -/

/-- A returned value leaves the state. -/
@[simp] theorem pure_eq_ok {a b : α} {s t : σ} : (pure a : Act σ ε α) s = (.ok b, t) ↔ b = a ∧ s = t := by
  constructor
  · intro h
    cases h
    exact ⟨rfl, rfl⟩
  · rintro ⟨rfl, rfl⟩
    rfl

/-- A composition returns when the first call returns and the second does from there. -/
theorem bind_eq_ok {c : Act σ ε α} {k : α → Act σ ε β} {s t : σ} {b : β} :
    (c >>= k) s = (.ok b, t) ↔ ∃ a u, c s = (.ok a, u) ∧ k a u = (.ok b, t) := by
  change andThen c k s = _ ↔ _
  unfold andThen
  rcases hc : c s with ⟨r, u⟩
  cases r with
  | ok a => simp [and_assoc]
  | error e => simp

/-- Behind a call that returns, a composition goes on. -/
theorem bind_of_ok {c : Act σ ε α} {k : α → Act σ ε β} {s t : σ} {a : α} (h : c s = (.ok a, t)) : (c >>= k) s = k a t := by
  change andThen c k s = _
  rw [andThen, h]

/-- Reading the state returns it. -/
@[simp] theorem get_eq_ok {s t u : σ} : (get : Act σ ε σ) s = (.ok u, t) ↔ s = u ∧ s = t := by
  simp [get]

/-- A change of the state always returns. -/
@[simp] theorem modify_eq_ok {f : σ → σ} {s t : σ} {x : PUnit} : (modify f : Act σ ε PUnit) s = (.ok x, t) ↔ t = f s := by
  simp [modify, eq_comm]

/-- A failure does not return. -/
@[simp] theorem fail_eq_ok {e : ε} {a : α} {s t : σ} : (fail e : Act σ ε α) s = (.ok a, t) ↔ False := by
  simp [fail]

/-- A lifted result returns what it holds. -/
@[simp] theorem ofExcept_eq_ok {r : Except ε α} {a : α} {s t : σ} :
    (ofExcept r : Act σ ε α) s = (.ok a, t) ↔ r = .ok a ∧ s = t := by
  simp [ofExcept]

/-- A reader returns what it computes. -/
@[simp] theorem reads_eq_ok {f : σ → Except ε α} {a : α} {s t : σ} :
    (reads f : Act σ ε α) s = (.ok a, t) ↔ f s = .ok a ∧ s = t := by
  simp [reads]

/-- A guard returns when its condition holds. -/
@[simp] theorem require_eq_ok {p : Prop} [Decidable p] {e : ε} {x : PUnit} {s t : σ} :
    (require p e : Act σ ε PUnit) s = (.ok x, t) ↔ p ∧ s = t := by
  by_cases hp : p <;> simp [require, hp]

/-- A changed failure does not touch what is returned. -/
@[simp] theorem mapError_eq_ok {f : ε → ε'} {c : Act σ ε α} {a : α} {s t : σ} :
    mapError f c s = (.ok a, t) ↔ c s = (.ok a, t) := by
  unfold mapError
  rcases hc : c s with ⟨r, u⟩
  cases r with
  | ok b =>
    change (Except.ok b, u) = (.ok a, t) ↔ _
    simp
  | error e =>
    change (Except.error (f e), u) = (.ok a, t) ↔ _
    simp

/-- A recovered call returns when it returns itself, or the handler of its failure does. -/
theorem recover_eq_ok {c : Act σ ε α} {handler : ε → Act σ ε α} {a : α} {s t : σ} :
    recover c handler s = (.ok a, t) ↔ c s = (.ok a, t) ∨ ∃ e u, c s = (.error e, u) ∧ handler e u = (.ok a, t) := by
  unfold recover
  rcases hc : c s with ⟨r, u⟩
  cases r with
  | ok b => simp
  | error e => simp [and_assoc]

/-! ## What a call returns -/

/-- Whatever a call returns is of a kind. -/
def Returns (c : Act σ ε α) (P : α → Prop) : Prop := ∀ s a t, c s = (.ok a, t) → P a

/-- A value returned is of its kind. -/
theorem returns_pure {P : α → Prop} {a : α} (h : P a) : Returns (pure a : Act σ ε α) P := by
  intro s b t hb
  rw [(pure_eq_ok.1 hb).1]
  exact h

/-- Nothing is known of what a call returns. -/
theorem returns_any (c : Act σ ε α) : Returns c (fun _ => True) := fun _ _ _ _ => trivial

/-- Behind a guard its condition holds. -/
theorem returns_require (p : Prop) [Decidable p] (e : ε) : Returns (require p e : Act σ ε PUnit) (fun _ => p) := by
  intro s x t h
  exact (require_eq_ok.1 h).1

/-- A composition returns what its second call does, for every value the first returns. -/
theorem Returns.bind {P : α → Prop} {Q : β → Prop} {c : Act σ ε α} {k : α → Act σ ε β} (hc : Returns c P)
    (hk : ∀ a, P a → Returns (k a) Q) : Returns (c >>= k) Q := by
  intro s b t h
  obtain ⟨a, u, ha, hb⟩ := bind_eq_ok.1 h
  exact hk a (hc s a u ha) u b t hb

/-! ## Atomic calls -/

/-- A call that fails leaves the state as it was. -/
def Atomic (c : Act σ ε α) : Prop := ∀ s e t, c s = (.error e, t) → t = s

/-- A call leaves the state as it was, whether it fails or not. -/
def ReadOnly (c : Act σ ε α) : Prop := ∀ s, (c s).2 = s

/-- A call never fails. -/
def Total (c : Act σ ε α) : Prop := ∀ s, ∃ a t, c s = (.ok a, t)

/-- A call that changes nothing is atomic. -/
theorem ReadOnly.eq_of {c : Act σ ε α} (h : ReadOnly c) {s t : σ} {r : Except ε α} (hc : c s = (r, t)) : t = s := by
  have hsame := h s
  rw [hc] at hsame
  exact hsame

theorem ReadOnly.atomic {c : Act σ ε α} (h : ReadOnly c) : Atomic c := by
  intro s e t hc
  have hs := h s
  rw [hc] at hs
  exact hs

/-- A call that does not fail is atomic. -/
theorem Total.atomic {c : Act σ ε α} (h : Total c) : Atomic c := by
  intro s e t hc
  obtain ⟨a, u, ha⟩ := h s
  rw [ha] at hc
  cases hc

/-- A composition fails when the first call does, or the second from where the first returned. -/
theorem bind_eq_error {c : Act σ ε α} {k : α → Act σ ε β} {s t : σ} {e : ε} :
    (c >>= k) s = (.error e, t) ↔ c s = (.error e, t) ∨ ∃ a u, c s = (.ok a, u) ∧ k a u = (.error e, t) := by
  change andThen c k s = _ ↔ _
  unfold andThen
  rcases hc : c s with ⟨r, u⟩
  cases r with
  | ok a => simp [and_assoc]
  | error e => simp

/-- What follows a call that changes nothing decides whether the whole is atomic. -/
theorem ReadOnly.bind {c : Act σ ε α} {k : α → Act σ ε β} (hc : ReadOnly c)
    (hk : ∀ s a, c s = (.ok a, s) → ∀ e t, k a s = (.error e, t) → t = s) : Atomic (c >>= k) := by
  intro s e t h
  rcases bind_eq_error.1 h with h | ⟨a, u, ha, hk'⟩
  · exact hc.atomic s e t h
  · have hu : u = s := by
      have := hc s
      rwa [ha] at this
    subst hu
    exact hk u a ha e t hk'

/-- A call that changes nothing, then an atomic one. -/
theorem ReadOnly.bind_atomic {c : Act σ ε α} {k : α → Act σ ε β} (hc : ReadOnly c) (hk : ∀ a, Atomic (k a)) :
    Atomic (c >>= k) :=
  hc.bind (fun s a _ e t h => hk a s e t h)

/-- An atomic call, then one that cannot fail any more. -/
theorem Atomic.bind_total {c : Act σ ε α} {k : α → Act σ ε β} (hc : Atomic c) (hk : ∀ a, Total (k a)) :
    Atomic (c >>= k) := by
  intro s e t h
  rcases bind_eq_error.1 h with h | ⟨a, u, -, hk'⟩
  · exact hc s e t h
  · obtain ⟨b, v, hb⟩ := hk a u
    rw [hb] at hk'
    cases hk'

/-- Changing the failure keeps a call atomic. -/
theorem Atomic.mapError {f : ε → ε'} {c : Act σ ε α} (h : Atomic c) : Atomic (mapError f c) := by
  intro s e t hc
  unfold Act.mapError at hc
  rcases hcs : c s with ⟨r, u⟩
  rw [hcs] at hc
  cases r with
  | ok a => cases hc
  | error e' =>
    cases hc
    exact h s e' u hcs

/-- Calls that change nothing compose. -/
theorem ReadOnly.andThen {c : Act σ ε α} {k : α → Act σ ε β} (hc : ReadOnly c) (hk : ∀ a, ReadOnly (k a)) :
    ReadOnly (c >>= k) := by
  intro s
  change (Act.andThen c k s).2 = s
  unfold Act.andThen
  have hs := hc s
  rcases hcs : c s with ⟨r, u⟩
  rw [hcs] at hs
  simp only at hs
  subst hs
  cases r with
  | ok a => exact hk a u
  | error e => rfl

/-- Calls that do not fail compose. -/
theorem Total.andThen {c : Act σ ε α} {k : α → Act σ ε β} (hc : Total c) (hk : ∀ a, Total (k a)) : Total (c >>= k) := by
  intro s
  obtain ⟨a, t, ha⟩ := hc s
  obtain ⟨b, u, hb⟩ := hk a t
  exact ⟨b, u, bind_eq_ok.2 ⟨a, t, ha, hb⟩⟩

theorem readOnly_pure (a : α) : ReadOnly (pure a : Act σ ε α) := fun _ => rfl
theorem readOnly_get : ReadOnly (get : Act σ ε σ) := fun _ => rfl
theorem readOnly_fail (e : ε) : ReadOnly (fail e : Act σ ε α) := fun _ => rfl
theorem readOnly_ofExcept (r : Except ε α) : ReadOnly (ofExcept r : Act σ ε α) := fun _ => rfl
theorem readOnly_reads (f : σ → Except ε α) : ReadOnly (reads f : Act σ ε α) := fun _ => rfl
theorem readOnly_require (p : Prop) [Decidable p] (e : ε) : ReadOnly (require p e : Act σ ε PUnit) := fun _ => rfl
theorem total_pure (a : α) : Total (pure a : Act σ ε α) := fun s => ⟨a, s, rfl⟩
theorem total_modify (f : σ → σ) : Total (modify f : Act σ ε PUnit) := fun s => ⟨⟨⟩, f s, rfl⟩

/-! ## What a call does to the state -/

/-- Whatever its result, a call leads to a state that stands in a relation to where it began. -/
def Leads (R : σ → σ → Prop) (c : Act σ ε α) : Prop := ∀ s, R s (c s).2

/-- Calls compose along a relation that is transitive. -/
theorem Leads.bind {R : σ → σ → Prop} (hR : ∀ a b c, R a b → R b c → R a c) {c : Act σ ε α} {k : α → Act σ ε β}
    (hc : Leads R c) (hk : ∀ a, Leads R (k a)) : Leads R (c >>= k) := by
  intro s
  change R s (Act.andThen c k s).2
  unfold Act.andThen
  have hs := hc s
  rcases hcs : c s with ⟨r, u⟩
  rw [hcs] at hs
  cases r with
  | ok a => exact hR s u _ hs (hk a u)
  | error e => exact hs

/-- A call that changes nothing leads along a reflexive relation. -/
theorem ReadOnly.leads {R : σ → σ → Prop} (hR : ∀ a, R a a) {c : Act σ ε α} (h : ReadOnly c) : Leads R c := by
  intro s
  rw [h s]
  exact hR s

/-- A change of the state leads to the changed state. -/
theorem leads_modify {R : σ → σ → Prop} {f : σ → σ} (h : ∀ s, R s (f s)) : Leads R (modify f : Act σ ε PUnit) := h

/-- From the states of a kind, a call leads to a state that stands in a relation to where it began. -/
def LeadsFrom (P : σ → Prop) (R : σ → σ → Prop) (c : Act σ ε α) : Prop := ∀ s, P s → R s (c s).2

theorem Leads.from {P : σ → Prop} {R : σ → σ → Prop} {c : Act σ ε α} (h : Leads R c) : LeadsFrom P R c := fun s _ => h s

theorem LeadsFrom.leads {R : σ → σ → Prop} {c : Act σ ε α} (h : LeadsFrom (fun _ => True) R c) : Leads R c :=
  fun s => h s trivial

/-- Fewer states to begin from. -/
theorem LeadsFrom.mono {P Q : σ → Prop} {R : σ → σ → Prop} {c : Act σ ε α} (h : LeadsFrom Q R c) (hPQ : ∀ s, P s → Q s) :
    LeadsFrom P R c := fun s hs => h s (hPQ s hs)

/-- A call from the states of a kind, then any. -/
theorem LeadsFrom.bind {P : σ → Prop} {R : σ → σ → Prop} (hR : ∀ a b c, R a b → R b c → R a c) {c : Act σ ε α}
    {k : α → Act σ ε β} (hc : LeadsFrom P R c) (hk : ∀ a, Leads R (k a)) : LeadsFrom P R (c >>= k) := by
  intro s hP
  change R s (Act.andThen c k s).2
  unfold Act.andThen
  have hs := hc s hP
  rcases hcs : c s with ⟨r, u⟩
  rw [hcs] at hs
  cases r with
  | ok a => exact hR s u _ hs (hk a u)
  | error e => exact hs

/-- A call, then one from the states in which it may return, with what it returns there. -/
theorem Leads.behind {R : σ → σ → Prop} (hR : ∀ a b c, R a b → R b c → R a c) {Q : α → σ → Prop} {c : Act σ ε α}
    {k : α → Act σ ε β} (hc : Leads R c) (hQ : ∀ s a t, c s = (.ok a, t) → Q a t) (hk : ∀ a, LeadsFrom (Q a) R (k a)) :
    Leads R (c >>= k) := by
  intro s
  change R s (Act.andThen c k s).2
  unfold Act.andThen
  have hs := hc s
  have hQs := hQ s
  rcases hcs : c s with ⟨r, u⟩
  rw [hcs] at hs hQs
  cases r with
  | ok a => exact hR s u _ hs (hk a u (hQs a u rfl))
  | error e => exact hs

/-- A call that changes nothing, then one from the states in which it returns what it does. -/
theorem ReadOnly.leadsFrom {P : σ → Prop} {R : σ → σ → Prop} (hR : ∀ a, R a a) {c : Act σ ε α} {k : α → Act σ ε β}
    (hc : ReadOnly c) (hk : ∀ a, LeadsFrom (fun s => P s ∧ c s = (.ok a, s)) R (k a)) : LeadsFrom P R (c >>= k) := by
  intro s hP
  change R s (Act.andThen c k s).2
  unfold Act.andThen
  have hs := hc s
  rcases hcs : c s with ⟨r, u⟩
  rw [hcs] at hs
  obtain rfl : u = s := hs
  cases r with
  | ok a => exact hk a u ⟨hP, hcs⟩
  | error e => exact hR u

/-- A call that changes nothing can be passed over. -/
theorem ReadOnly.skip {P : σ → Prop} {R : σ → σ → Prop} (hR : ∀ a, R a a) {c : Act σ ε α} {k : α → Act σ ε β}
    (hc : ReadOnly c) (hk : ∀ a, LeadsFrom P R (k a)) : LeadsFrom P R (c >>= k) :=
  hc.leadsFrom hR (fun a => (hk a).mono (fun _ hs => hs.1))

/-- A change of the state from the states of a kind. -/
theorem leadsFrom_modify {P : σ → Prop} {R : σ → σ → Prop} {f : σ → σ} (h : ∀ s, P s → R s (f s)) :
    LeadsFrom P R (modify f : Act σ ε PUnit) := h

/-- A recovered call leads where the call and the handlers of its failures do. -/
theorem Leads.recover {R : σ → σ → Prop} (hR : ∀ a b c, R a b → R b c → R a c) {c : Act σ ε α} {handler : ε → Act σ ε α}
    (hc : Leads R c) (hh : ∀ e, Leads R (handler e)) : Leads R (recover c handler) := by
  intro s
  unfold Act.recover
  have hs := hc s
  rcases hcs : c s with ⟨r, u⟩
  rw [hcs] at hs
  cases r with
  | ok a => exact hs
  | error e => exact hR s u _ hs (hh e u)

/-- Changing the failure does not change where a call leads. -/
theorem Leads.mapError {R : σ → σ → Prop} {f : ε → ε'} {c : Act σ ε α} (h : Leads R c) : Leads R (mapError f c) := h

end Act
