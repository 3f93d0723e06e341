import P5136.Identity.Binding

/-!
# The operation gate of a generation

One gate for each generation: the word that says whether it is open, frozen by a transfer or retired, and the number of
operations admitted and not yet ended. Gates are shared, so they live in an arena and are named by their place in it.
-/

namespace P5136

/-- The id of a channel transfer, which is also the word of the gate it froze. -/
structure MigrationTransferId where
  get : Nat
deriving DecidableEq

/-- The gate of one generation. Its word and its count are 64-bit. -/
structure IdentityOperationGate where
  activatedUdpEpoch : Nat
  activeOperations : Nat
  state : Nat
deriving DecidableEq

namespace IdentityOperationGate

/-- `OPEN`. -/
def opened : Nat := 0

/-- `RETIRED`, the largest 64-bit word. -/
def retired : Nat := 2 ^ 64 - 1

/-- `shared`: a new gate, open and without operations. -/
def shared (activatedUdpEpoch : Nat) : IdentityOperationGate where
  activatedUdpEpoch := activatedUdpEpoch
  activeOperations := 0
  state := opened

/-- The gate is open to new operations. -/
def IsOpen (g : IdentityOperationGate) : Prop := g.state = opened

/-- The gate has retired. -/
def IsRetired (g : IdentityOperationGate) : Prop := g.state = retired

instance (g : IdentityOperationGate) : Decidable g.IsOpen := inferInstanceAs (Decidable (g.state = opened))

instance (g : IdentityOperationGate) : Decidable g.IsRetired := inferInstanceAs (Decidable (g.state = retired))

/-- `increment`: count one more operation. -/
def increment (g : IdentityOperationGate) : Except IdentityError Unit × IdentityOperationGate :=
  match checkedAdd 64 g.activeOperations 1 with
  | none => (.error .operationCountExhausted, g)
  | some next => (.ok (), { g with activeOperations := next })

/-- `release`: count one operation less, but never below zero. -/
def release (g : IdentityOperationGate) : IdentityOperationGate := { g with activeOperations := g.activeOperations - 1 }

/-- The check of the word in `try_admit`. -/
def admissionError (g : IdentityOperationGate) : Option IdentityError :=
  if g.IsOpen then none
  else if g.IsRetired then some .operationGenerationRetired
  else some .operationAdmissionClosed

/-- `try_admit`: count a new operation, when the gate is open. The word is checked again after counting. -/
def tryAdmit (g : IdentityOperationGate) : Except IdentityError Unit × IdentityOperationGate :=
  match g.admissionError with
  | some e => (.error e, g)
  | none =>
    match g.increment with
    | (.error e, g') => (.error e, g')
    | (.ok (), g') =>
      match g'.admissionError with
      | some e => (.error e, g'.release)
      | none => (.ok (), g')

/-- `freeze`: close an open gate for the transfer. -/
def freeze (g : IdentityOperationGate) (transferId : MigrationTransferId) : Bool × IdentityOperationGate :=
  if g.IsOpen then (true, { g with state := transferId.get }) else (false, g)

/-- `reopen_exact`: open the gate again, when this transfer froze it. -/
def reopenExact (g : IdentityOperationGate) (transferId : MigrationTransferId) : Bool × IdentityOperationGate :=
  if g.state = transferId.get then (true, { g with state := opened }) else (false, g)

def isFrozenBy (g : IdentityOperationGate) (transferId : MigrationTransferId) : Bool := g.state = transferId.get

/-- `is_drained`: no operation is admitted. -/
def isDrained (g : IdentityOperationGate) : Bool := g.activeOperations = 0

/-- `retire_exact`: retire a drained gate that this transfer froze. -/
def retireExact (g : IdentityOperationGate) (transferId : MigrationTransferId) : Bool × IdentityOperationGate :=
  if !g.isDrained then (false, g)
  else if g.state = transferId.get then (true, { g with state := retired })
  else (false, g)

/-- `retire_drained`: retire a drained gate, whatever its word. -/
def retireDrained (g : IdentityOperationGate) : Bool × IdentityOperationGate :=
  if !g.isDrained then (false, g) else (true, { g with state := retired })

/-- An open gate is not retired. -/
theorem opened_ne_retired : opened ≠ retired := by decide

/-- What an admission can do: refuse and change nothing, or count one more at an open gate. -/
theorem tryAdmit_cases (g : IdentityOperationGate) :
    (∃ e, g.tryAdmit = (.error e, g)) ∨
    (g.IsOpen ∧ g.tryAdmit = (.ok (), { g with activeOperations := g.activeOperations + 1 })) := by
  unfold tryAdmit admissionError
  by_cases ho : g.IsOpen
  · simp only [ho, if_true, increment]
    cases hc : checkedAdd 64 g.activeOperations 1 with
    | none => exact Or.inl ⟨_, rfl⟩
    | some next =>
      obtain ⟨rfl, -⟩ := checkedAdd_eq_some.1 hc
      refine Or.inr ⟨trivial, ?_⟩
      have ho' : ({ g with activeOperations := g.activeOperations + 1 } : IdentityOperationGate).IsOpen := ho
      simp only [ho', if_true]
  · left
    simp only [ho, if_false]
    by_cases hr : g.IsRetired
    · simp only [hr, if_true]
      exact ⟨_, rfl⟩
    · simp only [hr, if_false]
      exact ⟨_, rfl⟩

end IdentityOperationGate

/-! ## The arena -/

/-- The name of a gate. Two references are the same gate exactly when they have the same name. -/
abbrev GateId := Nat

/-- The gates made so far, by name. -/
structure GateArena where
  gate : GateId → IdentityOperationGate
  next : GateId

namespace GateArena

/-- The arena with no gate. -/
def empty : GateArena where
  gate := fun _ => .shared 0
  next := 0

/-- Make a gate. -/
def alloc (a : GateArena) (g : IdentityOperationGate) : GateArena where
  gate := Function.update a.gate a.next g
  next := a.next + 1

/-- Change a gate. -/
def set (a : GateArena) (id : GateId) (g : IdentityOperationGate) : GateArena :=
  { a with gate := Function.update a.gate id g }

/-- The gate after a change: the new one at its name, the old one elsewhere. -/
theorem gate_set (a : GateArena) (id id' : GateId) (g : IdentityOperationGate) :
    (a.set id g).gate id' = if id' = id then g else a.gate id' := by
  simp [set, Function.update_apply]

/-- The gate after making one: the new one at the next name, the old one elsewhere. -/
theorem gate_alloc (a : GateArena) (id' : GateId) (g : IdentityOperationGate) :
    (a.alloc g).gate id' = if id' = a.next then g else a.gate id' := by
  simp [alloc, Function.update_apply]

end GateArena

end P5136
