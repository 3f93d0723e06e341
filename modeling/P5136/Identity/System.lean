import P5136.Identity.Releases
import P5136.Identity.Transfers

/-!
# The registry among its leases

The actor that owns the registry, the leases it has handed out, the tickets and candidates of migrations under way, and the
commit capability while one is held. The actor makes one call at a time. A lease is retained and dropped by other tasks at any
moment, also while a commit capability is held: a retain checks the word of its gate, counts, and checks again, and these are
steps of their own. What the actor does to a gate within one call is one step, since a drained gate has no lease left that
could move its count.
-/

namespace P5136

/-- How far a retain that is under way has come. -/
inductive RetainPhase where
  | checked
  | counted
deriving DecidableEq

/-- A lease that is not dropped, with the retains of it that are under way. They borrow it, so it is not dropped before they
end. -/
structure LiveLease where
  lease : IdentityOperationLease
  retaining : List RetainPhase
deriving DecidableEq

/-- What a live lease adds to the count of its gate: itself and the retains that have counted. -/
def LiveLease.weight (l : LiveLease) : Nat := 1 + l.retaining.count .counted

/-- What the live leases add to the count of a gate. -/
def liveAt (leases : List LiveLease) (id : GateId) : Nat :=
  ((leases.filter (fun l => l.lease.gate = id)).map LiveLease.weight).sum

/-- The registry with everything it has handed out. `tickets` holds every ticket minted so far: nothing revokes one. -/
structure IdentitySystem where
  registry : IdentityRegistry
  leases : List LiveLease
  tickets : List MigrationPreflight
  candidates : List MigrationCandidate
  commit : Option IdentityMigrationCommit

/-- The value of a successful result. -/
def okList {ε α : Type} : Except ε α → List α
  | .ok a => [a]
  | .error _ => []

/-- A call of the actor with its result, or a step of a lease. -/
inductive IdentityEvent where
  | ensureKnown (nickname : String)
  | claim (session : SessionId) (sourceIp : IpAddr) (nickname : String) (epoch : Nat)
      (result : Except (Fault IdentityError) IdentityBinding)
  | admission (session : SessionId) (result : Except IdentityError IdentityOperationLease)
  | admitUdp (userNo : UserNo) (arrivalEpoch : Nat) (result : Except IdentityError IdentityOperationLease)
  | beginMigration (session : SessionId) (channel : ChannelBinding) (token : MigrationToken) (now : Instant)
      (result : Except IdentityError MigrationPermit)
  | preflight (destination : SessionId) (ip : IpAddr) (userNo : UserNo) (channelId : UInt16) (token : MigrationToken)
      (now : Instant) (result : Except (Fault IdentityError) MigrationPreflight)
  | prepare (ticket : MigrationPreflight) (now : Instant) (result : Except (Fault IdentityError) MigrationCandidate)
  | lock (ticket : MigrationPreflight) (candidate : MigrationCandidate) (now : Instant)
      (result : Except (Fault IdentityError) IdentityMigrationCommit)
  | commit (guard : IdentityMigrationCommit) (result : Except (Fault IdentityError) MigrationCompletion)
  | dropCommit
  | abort (ticket : MigrationPreflight) (result : Bool)
  | complete (destination : SessionId) (ip : IpAddr) (userNo : UserNo) (channelId : UInt16) (token : MigrationToken)
      (now : Instant) (result : Except (Fault IdentityError) MigrationCompletion)
  | completePreflighted (ticket : MigrationPreflight) (now : Instant)
      (result : Except (Fault IdentityError) MigrationCompletion)
  | disconnect (session : SessionId) (now : Instant) (outcome : DisconnectOutcome)
  | expire (now : Instant) (released : List ReleasedIdentity)
  | collect (released : List ReleasedIdentity)
  | drain (released : List ReleasedIdentity)
  | retaining
  | retained (lease : IdentityOperationLease)
  | dropped (lease : IdentityOperationLease)

namespace IdentityEvent

/-- The lease that the event yields. -/
def minted : IdentityEvent → List IdentityOperationLease
  | .admission _ result => okList result
  | .admitUdp _ _ result => okList result
  | .retained lease => [lease]
  | _ => []

/-- The migration that the event completes. -/
def completed : IdentityEvent → List MigrationCompletion
  | .commit _ result => okList result
  | .complete _ _ _ _ _ _ result => okList result
  | .completePreflighted _ _ result => okList result
  | _ => []

/-- The generations that are over after the event: those of the identities it returns as released, and the one that a published
generation replaced. -/
def ended : IdentityEvent → List IdentityGeneration
  | .disconnect _ _ outcome => outcome.releasedNow.map (·.generation)
  | .expire _ released => released.map (·.generation)
  | .collect released => released.map (·.generation)
  | .drain released => released.map (·.generation)
  | .commit _ result => (okList result).map (·.previousBinding.generation)
  | .complete _ _ _ _ _ _ result => (okList result).map (·.previousBinding.generation)
  | .completePreflighted _ _ result => (okList result).map (·.previousBinding.generation)
  | _ => []

end IdentityEvent

namespace IdentitySystem

/-- The start: an empty registry that has handed out nothing. -/
def Init (s : IdentitySystem) : Prop := s = ⟨.new, [], [], [], none⟩

/-- The leases after an admission with this result. -/
def withMinted (leases : List LiveLease) (result : Except IdentityError IdentityOperationLease) : List LiveLease :=
  leases ++ (okList result).map (fun lease => ⟨lease, []⟩)

/-- One step: a call of the actor, which needs the registry that a held commit capability borrows, or a step of a lease. -/
inductive Step (U : Unicode) : IdentitySystem → IdentityEvent → IdentitySystem → Prop where
  | ensureKnown {s : IdentitySystem} (nickname : String) : s.commit = none →
      Step U s (.ensureKnown nickname) { s with registry := (s.registry.ensureKnownUserNo U nickname).2 }
  | claim {s : IdentitySystem} (session : SessionId) (ip : IpAddr) (nickname : String) (epoch : Nat) : s.commit = none →
      Step U s (.claim session ip nickname epoch (s.registry.claimAt U session ip nickname epoch).1)
        { s with registry := (s.registry.claimAt U session ip nickname epoch).2 }
  | admission {s : IdentitySystem} (session : SessionId) : s.commit = none →
      Step U s (.admission session (s.registry.admitOperation U session).1)
        { s with
          registry := (s.registry.admitOperation U session).2
          leases := withMinted s.leases (s.registry.admitOperation U session).1 }
  | admitUdp {s : IdentitySystem} (u : UserNo) (epoch : Nat) : s.commit = none →
      Step U s (.admitUdp u epoch (s.registry.admitUdpOperation u epoch).1)
        { s with
          registry := (s.registry.admitUdpOperation u epoch).2
          leases := withMinted s.leases (s.registry.admitUdpOperation u epoch).1 }
  | beginMigration {s : IdentitySystem} (session : SessionId) (channel : ChannelBinding) (token : MigrationToken)
      (now : Instant) : s.commit = none →
      Step U s (.beginMigration session channel token now (s.registry.beginMigration U session channel token now).1)
        { s with registry := (s.registry.beginMigration U session channel token now).2 }
  | preflight {s : IdentitySystem} (d : SessionId) (ip : IpAddr) (u : UserNo) (ch : UInt16) (tok : MigrationToken)
      (now : Instant) : s.commit = none →
      Step U s (.preflight d ip u ch tok now (s.registry.preflightMigration d ip u ch tok now).1)
        { s with
          registry := (s.registry.preflightMigration d ip u ch tok now).2
          tickets := s.tickets ++ okList (s.registry.preflightMigration d ip u ch tok now).1 }
  | prepare {s : IdentitySystem} (t : MigrationPreflight) (now : Instant) (reserved : Bool) : s.commit = none →
      t ∈ s.tickets → Step U s (.prepare t now (s.registry.preparePreflightedMigration t now reserved).1)
        { s with
          registry := (s.registry.preparePreflightedMigration t now reserved).2
          candidates := s.candidates ++ okList (s.registry.preparePreflightedMigration t now reserved).1 }
  | lock {s : IdentitySystem} (t : MigrationPreflight) (pre post : List MigrationCandidate) (c : MigrationCandidate)
      (now : Instant) : s.commit = none → t ∈ s.tickets → s.candidates = pre ++ c :: post →
      Step U s (.lock t c now (s.registry.lockPreparedMigration t c now).1)
        { s with
          registry := (s.registry.lockPreparedMigration t c now).2
          candidates := pre ++ post
          commit := (okList (s.registry.lockPreparedMigration t c now).1).head? }
  | commit {s : IdentitySystem} (g : IdentityMigrationCommit) (epoch : Nat) : s.commit = some g →
      Step U s (.commit g (s.registry.commitMigration g epoch).1)
        { s with registry := (s.registry.commitMigration g epoch).2, commit := none }
  | dropCommit {s : IdentitySystem} (g : IdentityMigrationCommit) : s.commit = some g →
      Step U s .dropCommit { s with registry := s.registry.dropCommit g, commit := none }
  | abort {s : IdentitySystem} (t : MigrationPreflight) : s.commit = none → t ∈ s.tickets →
      Step U s (.abort t (s.registry.abortPreflightedMigration t).1)
        { s with registry := (s.registry.abortPreflightedMigration t).2 }
  | complete {s : IdentitySystem} (d : SessionId) (ip : IpAddr) (u : UserNo) (ch : UInt16) (tok : MigrationToken)
      (now : Instant) (reserved : Bool) : s.commit = none →
      Step U s (.complete d ip u ch tok now (s.registry.completeMigration d ip u ch tok now reserved).1)
        { s with
          registry := (s.registry.completeMigration d ip u ch tok now reserved).2
          tickets := s.tickets ++ okList (s.registry.preflightMigration d ip u ch tok now).1 }
  | completePreflighted {s : IdentitySystem} (t : MigrationPreflight) (now : Instant) (reserved : Bool) (epoch : Nat) :
      s.commit = none → t ∈ s.tickets →
      Step U s
        (.completePreflighted t now (s.registry.completePreflightedMigrationAtUdpEpoch t now reserved epoch).1)
        { s with registry := (s.registry.completePreflightedMigrationAtUdpEpoch t now reserved epoch).2 }
  | disconnect {s : IdentitySystem} (session : SessionId) (now : Instant) : s.commit = none →
      Step U s (.disconnect session now (s.registry.disconnect U session now).1)
        { s with registry := (s.registry.disconnect U session now).2 }
  | expire {s : IdentitySystem} (now : Instant) : s.commit = none →
      Step U s (.expire now (s.registry.expireMigrations now).1)
        { s with registry := (s.registry.expireMigrations now).2 }
  | collect {s : IdentitySystem} : s.commit = none →
      Step U s (.collect s.registry.collectDrainedReleases.1)
        { s with registry := s.registry.collectDrainedReleases.2 }
  | drain {s : IdentitySystem} : s.commit = none →
      Step U s (.drain s.registry.drainActive.1) { s with registry := s.registry.drainActive.2 }
  /-- A retain finds that the generation has not retired. -/
  | retainCheck {s : IdentitySystem} (pre post : List LiveLease) (l : LiveLease) : s.leases = pre ++ l :: post →
      ¬(s.registry.gate l.lease.gate).IsRetired →
      Step U s .retaining { s with leases := pre ++ { l with retaining := .checked :: l.retaining } :: post }
  /-- The retain counts. -/
  | retainCount {s : IdentitySystem} (pre post : List LiveLease) (l : LiveLease) (ps qs : List RetainPhase)
      (g : IdentityOperationGate) : s.leases = pre ++ l :: post → l.retaining = ps ++ .checked :: qs →
      (s.registry.gate l.lease.gate).increment = (.ok (), g) →
      Step U s .retaining { s with
        registry := s.registry.setGate l.lease.gate g
        leases := pre ++ { l with retaining := ps ++ .counted :: qs } :: post }
  /-- The retain cannot count and fails. -/
  | retainExhausted {s : IdentitySystem} (pre post : List LiveLease) (l : LiveLease) (ps qs : List RetainPhase)
      (e : IdentityError) (g : IdentityOperationGate) : s.leases = pre ++ l :: post → l.retaining = ps ++ .checked :: qs →
      (s.registry.gate l.lease.gate).increment = (.error e, g) →
      Step U s .retaining { s with
        registry := s.registry.setGate l.lease.gate g
        leases := pre ++ { l with retaining := ps ++ qs } :: post }
  /-- The retain finds that the generation has retired after all, and fails. -/
  | retainRetired {s : IdentitySystem} (pre post : List LiveLease) (l : LiveLease) (ps qs : List RetainPhase) :
      s.leases = pre ++ l :: post → l.retaining = ps ++ .counted :: qs → (s.registry.gate l.lease.gate).IsRetired →
      Step U s .retaining { s with
        registry := s.registry.setGate l.lease.gate (s.registry.gate l.lease.gate).release
        leases := pre ++ { l with retaining := ps ++ qs } :: post }
  /-- The retain yields a lease of the same generation. -/
  | retained {s : IdentitySystem} (pre post : List LiveLease) (l : LiveLease) (ps qs : List RetainPhase) :
      s.leases = pre ++ l :: post → l.retaining = ps ++ .counted :: qs → ¬(s.registry.gate l.lease.gate).IsRetired →
      Step U s (.retained l.lease)
        { s with leases := pre ++ { l with retaining := ps ++ qs } :: (post ++ [⟨l.lease, []⟩]) }
  /-- A lease that no retain borrows is dropped. -/
  | dropped {s : IdentitySystem} (pre post : List LiveLease) (l : LiveLease) : s.leases = pre ++ l :: post →
      l.retaining = [] →
      Step U s (.dropped l.lease) { s with
        registry := s.registry.setGate l.lease.gate (s.registry.gate l.lease.gate).release
        leases := pre ++ post }

/-- The states a run of the registry among its leases can be in. -/
def Reachable (U : Unicode) : IdentitySystem → Prop := Transition.Reachable Init (Step U)

end IdentitySystem

end P5136
