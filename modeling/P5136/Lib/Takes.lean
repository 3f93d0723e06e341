import P5136.Lib.Format

/-!
# What calls take from a stream

A state presents a stream of symbols. A call takes some symbols when it returns wherever the stream goes on with them, and stops
behind them; it rejects some symbols when it fails there. Calls that take symbols compose, and so a reader of a record takes
what its fields take, in order.
-/

universe u

section

variable {σ ε α β γ : Type u} (presents : σ → List β → Prop)

/-- A call takes some symbols and returns a value. -/
def Takes (call : Act σ ε α) (out : List β) (a : α) : Prop :=
  ∀ s rest, presents s (out ++ rest) → ∃ t, call s = (.ok a, t) ∧ presents t rest

/-- A call fails at some symbols. -/
def Rejects (call : Act σ ε α) (out : List β) (e : ε) : Prop :=
  ∀ s rest, presents s (out ++ rest) → (call s).1 = .error e

end

variable {σ ε ε' α β γ : Type u} {presents : σ → List β → Prop}

namespace Takes

theorem pure (a : α) : Takes presents (Pure.pure a : Act σ ε α) [] a := by
  intro s rest hs
  exact ⟨s, rfl, hs⟩

theorem ofExcept {r : Except ε α} {a : α} (h : r = .ok a) : Takes presents (Act.ofExcept r) [] a := by
  intro s rest hs
  exact ⟨s, Act.ofExcept_eq_ok.2 ⟨h, rfl⟩, hs⟩

theorem require {p : Prop} [Decidable p] {e : ε} (h : p) : Takes presents (Act.require p e) [] ⟨⟩ := by
  intro s rest hs
  exact ⟨s, Act.require_eq_ok.2 ⟨h, rfl⟩, hs⟩

/-- One call after another takes the symbols of both. -/
theorem bind {call : Act σ ε α} {k : α → Act σ ε γ} {out out' : List β} {a : α} {c : γ} (h : Takes presents call out a)
    (h' : Takes presents (k a) out' c) : Takes presents (call >>= k) (out ++ out') c := by
  intro s rest hs
  rw [List.append_assoc] at hs
  obtain ⟨t, ht, hpt⟩ := h s (out' ++ rest) hs
  obtain ⟨u, hu, hpu⟩ := h' t rest hpt
  exact ⟨u, Act.bind_eq_ok.2 ⟨a, t, ht, hu⟩, hpu⟩

/-- A call that takes nothing before another. -/
theorem bind_nil {call : Act σ ε α} {k : α → Act σ ε γ} {out : List β} {a : α} {c : γ} (h : Takes presents call [] a)
    (h' : Takes presents (k a) out c) : Takes presents (call >>= k) out c := h.bind h'

/-- A call that takes nothing behind another. -/
theorem bind_end {call : Act σ ε α} {k : α → Act σ ε γ} {out : List β} {a : α} {c : γ} (h : Takes presents call out a)
    (h' : Takes presents (k a) [] c) : Takes presents (call >>= k) out c := by
  have hb := h.bind h'
  rwa [List.append_nil] at hb

/-- A value at the end. -/
theorem map {call : Act σ ε α} {f : α → γ} {out : List β} {a : α} (h : Takes presents call out a) :
    Takes presents (call >>= fun a => Pure.pure (f a)) out (f a) := h.bind_end (Takes.pure (f a))

/-- A failure behind what was taken. -/
theorem bind_rejects {call : Act σ ε α} {k : α → Act σ ε γ} {out out' : List β} {a : α} {e : ε}
    (h : Takes presents call out a) (h' : Rejects presents (k a) out' e) : Rejects presents (call >>= k) (out ++ out') e := by
  intro s rest hs
  rw [List.append_assoc] at hs
  obtain ⟨t, ht, hpt⟩ := h s (out' ++ rest) hs
  have he := h' t rest hpt
  rcases hk : k a t with ⟨r, u⟩
  rw [hk] at he
  simp only at he
  subst he
  rw [Act.bind_eq_error.2 (.inr ⟨a, t, ht, hk⟩)]

/-- A failure behind a call that takes nothing. -/
theorem nil_bind_rejects {call : Act σ ε α} {k : α → Act σ ε γ} {out : List β} {a : α} {e : ε} (h : Takes presents call [] a)
    (h' : Rejects presents (k a) out e) : Rejects presents (call >>= k) out e := h.bind_rejects h'

end Takes

namespace Rejects

/-- A condition that does not hold. -/
theorem require {p : Prop} [Decidable p] {e : ε} (h : ¬p) (out : List β) :
    Rejects presents (Act.require p e : Act σ ε PUnit) out e := by
  intro s rest _
  simp [Act.require, h]

/-- What fails first fails the whole. -/
theorem bind {call : Act σ ε α} {k : α → Act σ ε γ} {out : List β} {e : ε} (h : Rejects presents call out e) :
    Rejects presents (call >>= k) out e := by
  intro s rest hs
  have he := h s rest hs
  rcases hc : call s with ⟨r, t⟩
  rw [hc] at he
  simp only at he
  subst he
  rw [Act.bind_eq_error.2 (.inl hc)]

end Rejects

/-! ## Cursors -/

namespace Cursor

/-- A cursor presents what is left. -/
def Presents (c : Cursor β) (left : List β) : Prop := ∃ before, c = .between before left

/-- A reader takes the spellings of its format. -/
theorem takes_of_reads {dec : Act (Cursor β) ε α} {F : Format α β} (h : Format.Reads dec F) {out : List β} {a : α}
    (hF : F a out) : Takes Presents dec out a := by
  rintro c rest ⟨before, rfl⟩
  exact ⟨_, (h before _ a _).2 ⟨out, rest, rfl, hF, rfl⟩, _, rfl⟩

end Cursor

/-! ## What writers append, cursors take -/

namespace Cursor

/-- What a loop of a writer appends, as many readings in a row take. -/
theorem appends_writeAll {f : γ → Act (List β) ε' PUnit} {dec : Act (Cursor β) ε γ} (as : List γ)
    (h : ∀ a ∈ as, Format.Appends (f a) (fun _ out => Takes Presents dec out a)) :
    Format.Appends (Format.writeAll f as) (fun _ out => Takes Presents (Format.collect dec as.length) out as) := by
  induction as with
  | nil =>
    refine (Format.writes_pure _).appends.mono ?_
    rintro x out ⟨-, rfl⟩
    exact Takes.pure _
  | cons a as ih =>
    refine ((h a List.mem_cons_self).bind fun _ => ih fun a ha => h a (List.mem_cons_of_mem _ ha)).mono ?_
    rintro x out ⟨-, o₁, o₂, h₁, h₂, rfl⟩
    exact h₁.bind h₂.map

/-- What a loop of a writer with a state appends, as many readings in a row take. -/
theorem appends_writeFrom {κ : Type u} {f : γ → κ → Act (List β) ε' κ} {step : κ → Act (Cursor β) ε (γ × κ)} (as : List γ) (k : κ)
    (h : ∀ a ∈ as, ∀ k, Format.Appends (f a k) (fun k' out => Takes Presents (step k) out (a, k'))) :
    Format.Appends (Format.writeFrom f as k)
      (fun k' out => Takes Presents (Format.times step as.length k) out (as, k')) := by
  induction as generalizing k with
  | nil =>
    refine (Format.writes_pure _).appends.mono ?_
    rintro k' out ⟨rfl, rfl⟩
    exact Takes.pure _
  | cons a as ih =>
    refine ((h a List.mem_cons_self k).bind fun k => ih k fun a ha => h a (List.mem_cons_of_mem _ ha)).mono ?_
    rintro k' out ⟨k₁, o₁, o₂, h₁, h₂, rfl⟩
    exact h₁.bind (h₂.bind_end (Takes.pure _))

end Cursor
