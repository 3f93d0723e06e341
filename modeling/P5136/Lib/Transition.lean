import Mathlib.Logic.Relation

/-!
# Labelled transitions, paths and runs

A system moves between states by labelled steps. A path is a sequence of steps between two states with the list of its
labels; a run is a path from an initial state. An invariant of the steps is an invariant of every run; a property of the
labels so far and the state they led to is proved by induction on the run.
-/

universe u v

namespace Transition

variable {σ : Type u} {ι : Type v}

/-- `Path step s ls t`: steps labelled `ls`, in order, lead from `s` to `t`. -/
inductive Path (step : σ → ι → σ → Prop) : σ → List ι → σ → Prop
  | nil (s : σ) : Path step s [] s
  | snoc {s t u : σ} {ls : List ι} {l : ι} : Path step s ls t → step t l u → Path step s (ls ++ [l]) u

/-- `Reachable init step s`: a run from an initial state ends in `s`. -/
def Reachable (init : σ → Prop) (step : σ → ι → σ → Prop) (s : σ) : Prop :=
  ∃ s₀ ls, init s₀ ∧ Path step s₀ ls s

variable {step : σ → ι → σ → Prop} {init : σ → Prop}

/-- A path of one step. -/
theorem Path.single {s t : σ} {l : ι} (h : step s l t) : Path step s [l] t :=
  (Path.nil s).snoc h

/-- Paths compose. -/
theorem Path.trans {s t u : σ} {ls ms : List ι} (h : Path step s ls t) (h' : Path step t ms u) :
    Path step s (ls ++ ms) u := by
  induction h' with
  | nil => simpa using h
  | snoc _ hs ih => rw [← List.append_assoc]; exact ih.snoc hs

/-- A path of steps of one kind is one of steps of a wider kind. -/
theorem Path.mono {step' : σ → ι → σ → Prop} (h : ∀ s l t, step s l t → step' s l t) {s t : σ} {ls : List ι}
    (hp : Path step s ls t) : Path step' s ls t := by
  induction hp with
  | nil => exact .nil _
  | snoc _ hs ih => exact ih.snoc (h _ _ _ hs)

/-- What every step keeps, every path keeps. -/
theorem Path.keeps {I : σ → Prop} (hI : ∀ s l t, I s → step s l t → I t) {s t : σ} {ls : List ι}
    (h : Path step s ls t) (hs : I s) : I t := by
  induction h with
  | nil => exact hs
  | snoc _ hst ih => exact hI _ _ _ ih hst

/-- A path that begins with a step. -/
theorem Path.cons {s t u : σ} {l : ι} {ls : List ι} (h : step s l t) (h' : Path step t ls u) : Path step s (l :: ls) u :=
  (Path.single h).trans h'

/-- What the labels of a path make of its first state, where a label makes at most one state of a state. -/
theorem Path.of_foldlM {next : σ → ι → Option σ} {ls : List ι} {s t : σ} (h : ls.foldlM next s = some t) :
    Path (fun s l t => next s l = some t) s ls t := by
  induction ls generalizing s with
  | nil =>
    cases h
    exact .nil t
  | cons l ls ih =>
    rw [List.foldlM_cons] at h
    obtain ⟨u, hu, hrest⟩ := Option.bind_eq_some_iff.1 h
    exact .cons hu (ih hrest)

/-- Somewhere on the path from `s₀` to `t` a step was made of which `P` holds, with the labels before it, and every label since
then satisfies `G`. -/
def Passed (step : σ → ι → σ → Prop) (s₀ : σ) (ls : List ι) (t : σ) (P : List ι → σ → ι → σ → Prop) (G : ι → Prop) : Prop :=
  ∃ before s l s' after, ls = before ++ l :: after ∧ Path step s₀ before s ∧ step s l s' ∧ Path step s' after t ∧
    P before s l s' ∧ ∀ m ∈ after, G m

/-- The step has just been made. -/
theorem Passed.of_step {s₀ s t : σ} {ls : List ι} {l : ι} {P : List ι → σ → ι → σ → Prop} {G : ι → Prop}
    (h : Path step s₀ ls s) (hs : step s l t) (hP : P ls s l t) : Passed step s₀ (ls ++ [l]) t P G :=
  ⟨ls, s, l, t, [], rfl, h, hs, .nil t, hP, by simp⟩

/-- Another step is made. -/
theorem Passed.snoc {s₀ s t : σ} {ls : List ι} {l : ι} {P : List ι → σ → ι → σ → Prop} {G : ι → Prop}
    (h : Passed step s₀ ls s P G) (hs : step s l t) (hG : G l) : Passed step s₀ (ls ++ [l]) t P G := by
  obtain ⟨before, u, m, u', after, rfl, hbefore, hu, hafter, hP, hall⟩ := h
  refine ⟨before, u, m, u', after ++ [l], by simp, hbefore, hu, hafter.snoc hs, hP, fun n hn => ?_⟩
  rcases List.mem_append.1 hn with hn | hn
  · exact hall n hn
  · exact List.mem_singleton.1 hn ▸ hG

/-- What the steps of a system emit, when they keep an invariant `I`: everything emitted so far is in the `Past` of the state,
and stands in the relation `R` to everything a step emits. -/
structure Ledger {α : Type*} (step : σ → ι → σ → Prop) (emit : ι → List α) (I : σ → Prop) (Past : σ → α → Prop)
    (R : α → α → Prop) : Prop where
  keep : ∀ s l t, I s → step s l t → I t
  past : ∀ s l t a, I s → step s l t → Past s a → Past t a
  record : ∀ s l t a, I s → step s l t → a ∈ emit l → Past t a
  related : ∀ s l t a b, I s → step s l t → Past s a → b ∈ emit l → R a b
  single : ∀ s l t, I s → step s l t → (emit l).Pairwise R

/-- Along a path, everything emitted is in the past of its end, and stands in the relation to everything emitted later. -/
theorem Path.pairwise_emitted {α : Type*} {emit : ι → List α} {I : σ → Prop} {Past : σ → α → Prop} {R : α → α → Prop}
    (hL : Ledger step emit I Past R) {s t : σ} {ls : List ι} (h : Path step s ls t) (hs : I s) :
    (ls.flatMap emit).Pairwise R ∧ ∀ a ∈ ls.flatMap emit, Past t a := by
  induction h with
  | nil => exact ⟨List.Pairwise.nil, fun a ha => by cases ha⟩
  | snoc hp hst ih =>
    have hI := hp.keeps hL.keep hs
    obtain ⟨h1, h2⟩ := ih
    refine ⟨?_, ?_⟩
    · rw [List.flatMap_append]
      refine List.pairwise_append.2 ⟨h1, ?_, ?_⟩
      · simpa using hL.single _ _ _ hI hst
      · intro a ha b hb
        exact hL.related _ _ _ a b hI hst (h2 a ha) (by simpa using hb)
    · intro a ha
      rw [List.flatMap_append] at ha
      rcases List.mem_append.1 ha with ha | ha
      · exact hL.past _ _ _ a hI hst (h2 a ha)
      · exact hL.record _ _ _ a hI hst (by simpa using ha)

/-- An initial state is reachable. -/
theorem Reachable.of_init {s : σ} (h : init s) : Reachable init step s :=
  ⟨s, [], h, Path.nil s⟩

/-- A step from a reachable state leads to a reachable state. -/
theorem Reachable.snoc {s t : σ} {l : ι} (h : Reachable init step s) (hs : step s l t) : Reachable init step t := by
  obtain ⟨s₀, ls, h0, hp⟩ := h
  exact ⟨s₀, ls ++ [l], h0, hp.snoc hs⟩

/-- An invariant that holds initially and is kept by every step holds of every reachable state. -/
theorem Reachable.invariant {I : σ → Prop} (h0 : ∀ s, init s → I s) (hI : ∀ s l t, I s → step s l t → I t) {s : σ}
    (h : Reachable init step s) : I s := by
  obtain ⟨s₀, ls, hi, hp⟩ := h
  exact hp.keeps hI (h0 _ hi)

end Transition
