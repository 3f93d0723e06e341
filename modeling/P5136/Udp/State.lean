import P5136.Identity.Binding
import P5136.Lib.FiniteMap

/-!
# UDP endpoint binding state

The endpoint tables of the two UDP transports, the mirror of the active identities and the reconnect barrier of each. Every
operation returns its result and the state it leaves, also when it fails.
-/

namespace P5136

/-- The two UDP transports. -/
inductive UdpTransport where
  | game
  | p2p
deriving DecidableEq

/-- The endpoint of a user on one transport, and the generation it was bound under. -/
structure UdpEndpointBinding where
  endpoint : SocketAddr
  routeHash : UInt32
  generation : IdentityGeneration
  directP2p : Bool
deriving DecidableEq

inductive UdpEndpointBindStatus where
  | bound
  | refreshed
  | advancedGeneration
deriving DecidableEq

structure UdpIngressBinding where
  identity : IdentityBinding
  endpoint : UdpEndpointBinding
  status : UdpEndpointBindStatus
deriving DecidableEq

structure CurrentUdpEndpoint where
  identity : IdentityBinding
  endpoint : UdpEndpointBinding
deriving DecidableEq

inductive UdpEndpointStateError where
  | zeroAccountId
  | inactiveAccount (accountId : Nat)
  | activeIdentityCapacity (maximum : Nat)
  | invalidSourceEndpoint (endpoint : SocketAddr)
  | sourceIpMismatch (accountId : Nat) (expected received : IpAddr)
  | endpointMismatch (transport : UdpTransport) (accountId generation : Nat) (bound attempted : SocketAddr)
  | staleGeneration (transport : UdpTransport) (accountId attemptedGeneration currentGeneration : Nat)
  | ingressPredatesReconnect (transport : UdpTransport) (accountId arrivalEpoch boundaryEpoch : Nat)
deriving DecidableEq

/-! ## One endpoint table -/

/-- The bindings of one transport, by user number. -/
structure GenerationEndpointTable where
  bindings : FiniteMap UserNo UdpEndpointBinding

inductive TableBindError where
  | endpointMismatch (current : UdpEndpointBinding)
  | staleGeneration (current attempted : IdentityGeneration)
deriving DecidableEq

namespace GenerationEndpointTable

/-- The table with no binding. -/
def empty : GenerationEndpointTable := ⟨∅⟩

/-- `bind`: the first endpoint wins within a generation; the same endpoint may refresh its route hash; a later generation
replaces the binding. -/
def bind (t : GenerationEndpointTable) (userNo : UserNo) (candidate : UdpEndpointBinding) :
    Except TableBindError (UdpEndpointBindStatus × UdpEndpointBinding) × GenerationEndpointTable :=
  match t.bindings.lookup userNo with
  | none => (.ok (.bound, candidate), ⟨t.bindings.insert userNo candidate⟩)
  | some current =>
    if current.generation.get > candidate.generation.get then
      (.error (.staleGeneration current.generation candidate.generation), t)
    else if current.generation = candidate.generation ∧ current.endpoint ≠ candidate.endpoint then
      (.error (.endpointMismatch current), t)
    else if current.generation = candidate.generation then
      (.ok (.refreshed, candidate), ⟨t.bindings.insert userNo candidate⟩)
    else
      (.ok (.advancedGeneration, candidate), ⟨t.bindings.insert userNo candidate⟩)

/-- `get_authorized`: the binding of the user, when it was bound under this generation. -/
def getAuthorized (t : GenerationEndpointTable) (userNo : UserNo) (generation : IdentityGeneration) :
    Option UdpEndpointBinding :=
  (t.bindings.lookup userNo).filter (fun binding => binding.generation = generation)

/-- `release`: forget the binding of the user, when it was bound under this generation. -/
def release (t : GenerationEndpointTable) (userNo : UserNo) (generation : IdentityGeneration) : GenerationEndpointTable :=
  if (t.bindings.lookup userNo).any (fun binding => binding.generation = generation) then
    ⟨t.bindings.erase userNo⟩
  else t

end GenerationEndpointTable

/-! ## The state -/

/-- The mirror of an active identity, with the arrival epoch its last reconnect put up as a barrier. -/
structure UdpActiveIdentity where
  generation : IdentityGeneration
  sourceIp : IpAddr
  reconnectBoundaryEpoch : Option Nat
deriving DecidableEq

/-- `ActiveIdentity::from`: a fresh mirror has no barrier. -/
def UdpActiveIdentity.ofBinding (identity : IdentityBinding) : UdpActiveIdentity where
  generation := identity.generation
  sourceIp := identity.sourceIp
  reconnectBoundaryEpoch := none

/-- The state of the UDP service: the active identities, at most a fixed number of them, and the two tables. -/
structure UdpEndpointState where
  active : FiniteMap UserNo UdpActiveIdentity
  maximumActiveIdentities : Nat
  game : GenerationEndpointTable
  p2p : GenerationEndpointTable

namespace UdpEndpointState

/-- `with_max_active_identities`: the empty state. -/
def withMaxActiveIdentities (maximum : Nat) : UdpEndpointState where
  active := ∅
  maximumActiveIdentities := maximum
  game := .empty
  p2p := .empty

/-- `table`: the table of a transport. -/
def table (s : UdpEndpointState) : UdpTransport → GenerationEndpointTable
  | .game => s.game
  | .p2p => s.p2p

/-- `table_mut`: replace the table of a transport. -/
def setTable (s : UdpEndpointState) (t : GenerationEndpointTable) : UdpTransport → UdpEndpointState
  | .game => { s with game := t }
  | .p2p => { s with p2p := t }

def mapTableError (transport : UdpTransport) (userNo : UserNo) (attempted : SocketAddr) :
    TableBindError → UdpEndpointStateError
  | .endpointMismatch current =>
    .endpointMismatch transport userNo.get current.generation.get current.endpoint attempted
  | .staleGeneration current attemptedGeneration =>
    .staleGeneration transport userNo.get attemptedGeneration.get current.get

/-- `bind_authorized_ingress_at`: bind the source of an ingress to the identity, when the identity is the active generation
from its own address and the ingress follows the reconnect barrier. -/
def bindAuthorizedIngressAt (s : UdpEndpointState) (transport : UdpTransport) (identity : IdentityBinding)
    (source : SocketAddr) (routeHash : UInt32) (arrivalEpoch : Nat) :
    Except UdpEndpointStateError UdpIngressBinding × UdpEndpointState :=
  let accountId := identity.userNo.get
  if source.port = 0 then (.error (.invalidSourceEndpoint source), s)
  else match s.active.lookup identity.userNo with
  | none => (.error (.inactiveAccount accountId), s)
  | some active =>
    if active.generation ≠ identity.generation then
      (.error (.staleGeneration transport accountId identity.generation.get active.generation.get), s)
    else if identity.sourceIp ≠ active.sourceIp then
      (.error (.sourceIpMismatch accountId active.sourceIp identity.sourceIp), s)
    else match active.reconnectBoundaryEpoch.filter (fun boundary => arrivalEpoch ≤ boundary) with
    | some boundaryEpoch => (.error (.ingressPredatesReconnect transport accountId arrivalEpoch boundaryEpoch), s)
    | none =>
      if source.ip ≠ active.sourceIp then
        (.error (.sourceIpMismatch accountId active.sourceIp source.ip), s)
      else
        let candidate : UdpEndpointBinding :=
          { endpoint := source, routeHash := routeHash, generation := identity.generation, directP2p := false }
        match (s.table transport).bind identity.userNo candidate with
        | (.error error, _) => (.error (mapTableError transport identity.userNo source error), s)
        | (.ok (status, endpoint), t) => (.ok ⟨identity, endpoint, status⟩, s.setTable t transport)

/-- `authorize_rebind`: clear both endpoints of the exact active generation and put up an arrival-epoch barrier. A barrier
that is not higher than the one in place is ignored. -/
def authorizeRebind (s : UdpEndpointState) (identity : IdentityBinding) (boundaryEpoch : Nat) :
    Except UdpEndpointStateError Unit × UdpEndpointState :=
  let accountId := identity.userNo.get
  match s.active.lookup identity.userNo with
  | none => (.error (.inactiveAccount accountId), s)
  | some active =>
    if active.generation ≠ identity.generation then
      (.error (.staleGeneration .game accountId identity.generation.get active.generation.get), s)
    else if active.sourceIp ≠ identity.sourceIp then
      (.error (.sourceIpMismatch accountId active.sourceIp identity.sourceIp), s)
    else if active.reconnectBoundaryEpoch.any (fun current => boundaryEpoch ≤ current) then (.ok (), s)
    else
      (.ok (), { s with
        active := s.active.insert identity.userNo { active with reconnectBoundaryEpoch := some boundaryEpoch }
        game := s.game.release identity.userNo identity.generation
        p2p := s.p2p.release identity.userNo identity.generation })

/-- `current_authorized_target`: the endpoint of the identity, when both belong to the active generation and address. -/
def currentAuthorizedTarget (s : UdpEndpointState) (transport : UdpTransport) (identity : IdentityBinding) :
    Option CurrentUdpEndpoint :=
  match s.active.lookup identity.userNo with
  | none => none
  | some active =>
    if active.generation ≠ identity.generation ∨ active.sourceIp ≠ identity.sourceIp then none
    else match (s.table transport).getAuthorized identity.userNo identity.generation with
    | none => none
    | some endpoint =>
      if endpoint.generation ≠ identity.generation ∨ endpoint.endpoint.ip ≠ identity.sourceIp then none
      else some ⟨identity, endpoint⟩

/-- `advance_identity`: activate the identity or move it to a later generation, within the capacity. A stale advance is
ignored. -/
def advanceIdentity (s : UdpEndpointState) (identity : IdentityBinding) :
    Except UdpEndpointStateError Unit × UdpEndpointState :=
  let install : Except UdpEndpointStateError Unit × UdpEndpointState :=
    if (s.active.lookup identity.userNo).isNone ∧ s.active.size ≥ s.maximumActiveIdentities then
      (.error (.activeIdentityCapacity s.maximumActiveIdentities), s)
    else (.ok (), { s with active := s.active.insert identity.userNo (.ofBinding identity) })
  match s.active.lookup identity.userNo with
  | none => install
  | some current =>
    if current.generation.get > identity.generation.get then (.ok (), s)
    else if current.generation = identity.generation then
      if current.sourceIp ≠ identity.sourceIp then
        (.error (.sourceIpMismatch identity.userNo.get current.sourceIp identity.sourceIp), s)
      else (.ok (), s)
    else install

/-- `remove_released_identity`: forget the identity and both routes, when the released generation is the active one. -/
def removeReleasedIdentity (s : UdpEndpointState) (identity : ReleasedIdentity) : UdpEndpointState :=
  if (s.active.lookup identity.userNo).any (fun active => active.generation = identity.generation) then
    { s with
      active := s.active.erase identity.userNo
      game := s.game.release identity.userNo identity.generation
      p2p := s.p2p.release identity.userNo identity.generation }
  else s

/-- `clear`: forget everything but the capacity. -/
def clear (s : UdpEndpointState) : UdpEndpointState := { s with active := ∅, game := .empty, p2p := .empty }

end UdpEndpointState

end P5136
