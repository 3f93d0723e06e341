import Mathlib.Order.Basic

/-!
# Worklists

A worklist starts with some nodes. It takes a pending node, in whatever order, and unless the node was visited before, visits it
and makes its successors pending. When nothing is left to visit, what was visited is the closure of what it started with.
-/

universe u

namespace Worklist

variable {α : Type u} {roots : α → Prop} {next : α → α → Prop}

/-- The least set of nodes that has the roots and, with a node, its successors. -/
inductive Closure (roots : α → Prop) (next : α → α → Prop) : α → Prop where
  | root {a : α} (h : roots a) : Closure roots next a
  | step {a b : α} (h : Closure roots next a) (hnext : next a b) : Closure roots next b

/-- The closure is contained in every set that has the roots and is closed under successors. -/
theorem Closure.least {p : α → Prop} (hroots : ∀ a, roots a → p a) (hnext : ∀ a b, p a → next a b → p b) {a : α}
    (h : Closure roots next a) : p a := by
  induction h with
  | root h => exact hroots _ h
  | step _ hstep ih => exact hnext _ _ ih hstep

/-- What a worklist keeps between two turns: nothing outside the closure is pending or visited, and no root and no successor of a
visited node was lost. -/
structure Keeps (roots : α → Prop) (next : α → α → Prop) (pending visited : α → Prop) : Prop where
  reached : ∀ a, pending a ∨ visited a → Closure roots next a
  rooted : ∀ a, roots a → pending a ∨ visited a
  closed : ∀ a b, visited a → next a b → pending b ∨ visited b

/-- A worklist starts with the roots, and nothing visited. -/
theorem Keeps.start : Keeps roots next roots (fun _ => False) where
  reached := by
    rintro a (h | h)
    · exact .root h
    · exact h.elim
  rooted := fun _ h => .inl h
  closed := fun _ _ h => h.elim

/-- Pending nodes that were visited may be dropped. -/
theorem Keeps.drop {pending pending' visited : α → Prop} (h : Keeps roots next pending visited)
    (hless : ∀ a, pending' a → pending a) (hdropped : ∀ a, pending a → pending' a ∨ visited a) :
    Keeps roots next pending' visited where
  reached := fun a ha => h.reached a (ha.imp_left (hless a))
  rooted := fun a ha => (h.rooted a ha).elim (hdropped a) .inr
  closed := fun a b ha hb => (h.closed a b ha hb).elim (hdropped b) .inr

/-- A turn visits a pending node, and makes its successors pending. -/
theorem Keeps.visit {pending pending' visited visited' : α → Prop} {a : α} (h : Keeps roots next pending visited)
    (ha : pending a) (hvisited : ∀ b, visited' b ↔ b = a ∨ visited b) (hnext : ∀ b, next a b → pending' b)
    (hless : ∀ b, pending' b → pending b ∨ next a b) (hkept : ∀ b, pending b → pending' b ∨ b = a) :
    Keeps roots next pending' visited' where
  reached := by
    intro b hb
    have hclosure := h.reached a (.inl ha)
    rcases hb with hb | hb
    · rcases hless b hb with hb | hb
      · exact h.reached b (.inl hb)
      · exact .step hclosure hb
    · rcases (hvisited b).1 hb with rfl | hb
      · exact hclosure
      · exact h.reached b (.inr hb)
  rooted := by
    intro b hb
    rw [hvisited]
    rcases h.rooted b hb with hb | hb
    · exact (hkept b hb).imp_right .inl
    · exact .inr (.inr hb)
  closed := by
    intro b c hb hc
    rw [hvisited]
    rcases (hvisited b).1 hb with rfl | hb
    · exact .inl (hnext c hc)
    · rcases h.closed b c hb hc with hc | hc
      · exact (hkept c hc).imp_right .inl
      · exact .inr (.inr hc)

/-- When nothing pending is left to visit, the closure was visited. -/
theorem Keeps.visited_iff {pending visited : α → Prop} (h : Keeps roots next pending visited)
    (hdone : ∀ a, pending a → visited a) (a : α) : visited a ↔ Closure roots next a := by
  constructor
  · exact fun ha => h.reached a (.inr ha)
  · intro ha
    refine ha.least (fun b hb => (h.rooted b hb).elim (hdone b) id) fun b c hb hc => ?_
    exact (h.closed b c hb hc).elim (hdone c) id

end Worklist
