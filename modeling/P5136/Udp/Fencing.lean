import P5136.Lib.Transition
import P5136.Udp.State

/-!
# First endpoint wins, and reconnect fencing

Statements about runs of the UDP endpoint state. Each operation has one lemma that says everything it can do; what holds
along a path of operations is read off those.

The reconnect barrier lives in the active entry of the user: it is gone once that entry is removed, by a release or by
`clear`, and an advance that activates the same generation again starts without it. A release is checked against the active
generation only, not against the source address.
-/

namespace P5136

open FiniteMap

/-- An operation on the UDP endpoint state. -/
inductive UdpCall where
  | advanceIdentity (identity : IdentityBinding)
  | bindAuthorizedIngressAt (transport : UdpTransport) (identity : IdentityBinding) (source : SocketAddr)
      (routeHash : UInt32) (arrivalEpoch : Nat)
  | authorizeRebind (identity : IdentityBinding) (boundaryEpoch : Nat)
  | removeReleasedIdentity (identity : ReleasedIdentity)
  | clear

namespace UdpEndpointState

/-- The state an operation leaves. -/
def apply (s : UdpEndpointState) : UdpCall → UdpEndpointState
  | .advanceIdentity identity => (s.advanceIdentity identity).2
  | .bindAuthorizedIngressAt transport identity source routeHash arrivalEpoch =>
    (s.bindAuthorizedIngressAt transport identity source routeHash arrivalEpoch).2
  | .authorizeRebind identity boundaryEpoch => (s.authorizeRebind identity boundaryEpoch).2
  | .removeReleasedIdentity identity => s.removeReleasedIdentity identity
  | .clear => s.clear

/-- One operation, as a step. -/
def Step (s : UdpEndpointState) (call : UdpCall) (s' : UdpEndpointState) : Prop := s' = s.apply call

/-- The states of a service with this capacity. -/
def Reachable (maximum : Nat) : UdpEndpointState → Prop :=
  Transition.Reachable (fun s => s = withMaxActiveIdentities maximum) Step

end UdpEndpointState

/-! ## What one operation does -/

namespace GenerationEndpointTable

/-- A bind fails and changes nothing, or installs the candidate over a binding that is older or has its endpoint. -/
theorem bind_cases (t : GenerationEndpointTable) (u : UserNo) (c : UdpEndpointBinding) :
    (∃ e, t.bind u c = (.error e, t)) ∨
    (∃ status, t.bind u c = (.ok (status, c), ⟨t.bindings.insert u c⟩) ∧
      ∀ b, t.bindings.lookup u = some b → b.generation = c.generation → b.endpoint = c.endpoint) := by
  unfold bind
  split
  · rename_i hn
    exact Or.inr ⟨_, rfl, fun b hb => by simp [hn] at hb⟩
  · rename_i current hcur
    split
    · exact Or.inl ⟨_, rfl⟩
    · split
      · exact Or.inl ⟨_, rfl⟩
      · rename_i _ hne
        have hkeep : ∀ b, t.bindings.lookup u = some b → b.generation = c.generation → b.endpoint = c.endpoint := by
          intro b hb hg
          rw [hcur] at hb
          cases hb
          by_contra h
          exact hne ⟨hg, h⟩
        split
        · exact Or.inr ⟨_, rfl, hkeep⟩
        · exact Or.inr ⟨_, rfl, hkeep⟩

/-- A release forgets the binding of its user and generation and no other. -/
theorem lookup_release (t : GenerationEndpointTable) (u v : UserNo) (g : IdentityGeneration) :
    (t.release u g).bindings.lookup v =
      if v = u ∧ (t.bindings.lookup u).any (fun b => b.generation = g) then none else t.bindings.lookup v := by
  unfold release
  split
  · rename_i h
    simp [lookup_erase, h]
  · rename_i h
    simp [h]

/-- A release at another user keeps the binding. -/
theorem lookup_release_ne (t : GenerationEndpointTable) {u v : UserNo} (g : IdentityGeneration) (h : v ≠ u) :
    (t.release u g).bindings.lookup v = t.bindings.lookup v := by
  simp [lookup_release, h]

end GenerationEndpointTable

namespace UdpEndpointState

@[simp] theorem active_setTable (s : UdpEndpointState) (t : GenerationEndpointTable) (tr : UdpTransport) :
    (s.setTable t tr).active = s.active := by
  cases tr <;> rfl

theorem table_setTable (s : UdpEndpointState) (t : GenerationEndpointTable) (tr tr' : UdpTransport) :
    (s.setTable t tr).table tr' = if tr' = tr then t else s.table tr' := by
  cases tr <;> cases tr' <;> rfl

/-- An ingress is refused and changes nothing, or its identity is the active generation from its own address, the source is
that address with a port, the ingress follows the barrier, and only the binding of the user on the transport changes. -/
theorem bindAuthorizedIngressAt_cases (s : UdpEndpointState) (tr : UdpTransport) (id : IdentityBinding) (src : SocketAddr)
    (rh : UInt32) (ep : Nat) :
    (∃ e, s.bindAuthorizedIngressAt tr id src rh ep = (.error e, s)) ∨
    (∃ a c out, s.bindAuthorizedIngressAt tr id src rh ep =
        (.ok out, s.setTable ⟨(s.table tr).bindings.insert id.userNo c⟩ tr) ∧
      s.active.lookup id.userNo = some a ∧ a.generation = id.generation ∧ id.sourceIp = a.sourceIp ∧
      src.ip = a.sourceIp ∧ src.port ≠ 0 ∧ (∀ b, a.reconnectBoundaryEpoch = some b → b < ep) ∧
      c.endpoint = src ∧ c.generation = id.generation ∧
      ∀ b, (s.table tr).bindings.lookup id.userNo = some b → b.generation = c.generation → b.endpoint = c.endpoint) := by
  unfold bindAuthorizedIngressAt
  simp only
  split
  · exact Or.inl ⟨_, rfl⟩
  rename_i hport
  split
  · exact Or.inl ⟨_, rfl⟩
  rename_i a ha
  split
  · exact Or.inl ⟨_, rfl⟩
  rename_i hgen
  split
  · exact Or.inl ⟨_, rfl⟩
  rename_i hip
  split
  · exact Or.inl ⟨_, rfl⟩
  rename_i hbar
  split
  · exact Or.inl ⟨_, rfl⟩
  rename_i hsrc
  rcases GenerationEndpointTable.bind_cases (s.table tr) id.userNo
    { endpoint := src, routeHash := rh, generation := id.generation, directP2p := false } with ⟨e, he⟩ | ⟨st, hst, hk⟩
  · rw [he]
    exact Or.inl ⟨_, rfl⟩
  · rw [hst]
    refine Or.inr ⟨a, _, _, rfl, ha, not_not.1 hgen, not_not.1 hip, not_not.1 hsrc, hport, ?_, rfl, rfl, hk⟩
    intro b hb
    simp only [hb, Option.filter_some, decide_eq_true_eq] at hbar
    by_contra hle
    rw [if_pos (by omega)] at hbar
    cases hbar

/-- A rebind is refused and changes nothing, is ignored because the barrier in place is at least as high, or raises the
barrier of the active generation and releases both of its routes. -/
theorem authorizeRebind_cases (s : UdpEndpointState) (id : IdentityBinding) (e : Nat) :
    (∃ err, s.authorizeRebind id e = (.error err, s)) ∨
    (∃ a, s.active.lookup id.userNo = some a ∧ a.generation = id.generation ∧ a.sourceIp = id.sourceIp ∧
      ((∃ b, a.reconnectBoundaryEpoch = some b ∧ e ≤ b ∧ s.authorizeRebind id e = (.ok (), s)) ∨
       ((∀ b, a.reconnectBoundaryEpoch = some b → b < e) ∧ s.authorizeRebind id e = (.ok (), { s with
          active := s.active.insert id.userNo { a with reconnectBoundaryEpoch := some e }
          game := s.game.release id.userNo id.generation
          p2p := s.p2p.release id.userNo id.generation })))) := by
  unfold authorizeRebind
  simp only
  split
  · exact Or.inl ⟨_, rfl⟩
  rename_i a ha
  split
  · exact Or.inl ⟨_, rfl⟩
  rename_i hgen
  split
  · exact Or.inl ⟨_, rfl⟩
  rename_i hip
  refine Or.inr ⟨a, ha, not_not.1 hgen, not_not.1 hip, ?_⟩
  split
  · rename_i hany
    obtain ⟨b, hb, hle⟩ := (Option.any_eq_true _ _).1 hany
    exact Or.inl ⟨b, hb, of_decide_eq_true hle, rfl⟩
  · rename_i hany
    refine Or.inr ⟨fun b hb => ?_, rfl⟩
    by_contra hle
    exact hany ((Option.any_eq_true _ _).2 ⟨b, hb, by simp; omega⟩)

/-- An advance changes nothing, or activates its identity without a barrier: one the map does not hold yet, or a later
generation of one it holds. -/
theorem advanceIdentity_cases (s : UdpEndpointState) (id : IdentityBinding) :
    (∃ r, s.advanceIdentity id = (r, s)) ∨
    (s.advanceIdentity id = (.ok (), { s with active := s.active.insert id.userNo (.ofBinding id) }) ∧
      ∀ a, s.active.lookup id.userNo = some a → a.generation.get < id.generation.get) := by
  unfold advanceIdentity
  simp only
  split
  · rename_i hn
    split
    · exact Or.inl ⟨_, rfl⟩
    · exact Or.inr ⟨rfl, fun a ha => by simp [hn] at ha⟩
  · rename_i cur hcur
    split
    · exact Or.inl ⟨_, rfl⟩
    rename_i hlt
    split
    · split
      · exact Or.inl ⟨_, rfl⟩
      · exact Or.inl ⟨_, rfl⟩
    rename_i hne
    split
    · exact Or.inl ⟨_, rfl⟩
    · refine Or.inr ⟨rfl, fun a ha => ?_⟩
      rw [hcur] at ha
      cases ha
      have : cur.generation.get ≠ id.generation.get := fun h => hne (by cases hc : cur.generation; cases hi : id.generation; simp_all)
      omega

/-- A release changes nothing, or its generation is the active one, which it removes with both of its routes. -/
theorem removeReleasedIdentity_cases (s : UdpEndpointState) (id : ReleasedIdentity) :
    s.removeReleasedIdentity id = s ∨
    (∃ a, s.active.lookup id.userNo = some a ∧ a.generation = id.generation ∧
      s.removeReleasedIdentity id = { s with
        active := s.active.erase id.userNo
        game := s.game.release id.userNo id.generation
        p2p := s.p2p.release id.userNo id.generation }) := by
  unfold removeReleasedIdentity
  split
  · rename_i h
    obtain ⟨a, ha, hg⟩ := (Option.any_eq_true _ _).1 h
    exact Or.inr ⟨a, ha, of_decide_eq_true hg, rfl⟩
  · exact Or.inl rfl

/-! ## Targets -/

/-- A target belongs to the active entry of its user: the generation, the source address and the address of the endpoint. -/
theorem currentAuthorizedTarget_active {s : UdpEndpointState} {tr : UdpTransport} {id : IdentityBinding}
    {target : CurrentUdpEndpoint} (h : s.currentAuthorizedTarget tr id = some target) :
    target.identity = id ∧ ∃ a, s.active.lookup id.userNo = some a ∧ a.generation = id.generation ∧
      a.sourceIp = id.sourceIp ∧ target.endpoint.generation = a.generation ∧ target.endpoint.endpoint.ip = a.sourceIp := by
  unfold currentAuthorizedTarget at h
  split at h
  · nomatch h
  rename_i a ha
  split at h
  · nomatch h
  rename_i hact
  obtain ⟨hgen, hip⟩ := not_or.1 hact
  split at h
  · nomatch h
  rename_i b hb
  split at h
  · nomatch h
  rename_i hend
  obtain ⟨hbg, hbip⟩ := not_or.1 hend
  cases h
  refine ⟨rfl, a, ha, not_not.1 hgen, not_not.1 hip, ?_, ?_⟩
  · exact (not_not.1 hbg).trans (not_not.1 hgen).symm
  · exact (not_not.1 hbip).trans (not_not.1 hip).symm

/-! ## First endpoint wins -/

/-- An operation that moves the user: an advance, a rebind or a release of the user that changes the state, or a clear. -/
def Moves (s : UdpEndpointState) (u : UserNo) : UdpCall → Prop
  | .advanceIdentity id => id.userNo = u ∧ (s.advanceIdentity id).2 ≠ s
  | .authorizeRebind id e => id.userNo = u ∧ (s.authorizeRebind id e).2 ≠ s
  | .removeReleasedIdentity id => id.userNo = u ∧ s.removeReleasedIdentity id ≠ s
  | .bindAuthorizedIngressAt .. => False
  | .clear => True

/-- The user is bound to the endpoint on the transport, under its active generation. -/
def BoundTo (s : UdpEndpointState) (u : UserNo) (tr : UdpTransport) (g : IdentityGeneration) (ep : SocketAddr) : Prop :=
  (∃ a, s.active.lookup u = some a ∧ a.generation = g) ∧
    ∃ b, (s.table tr).bindings.lookup u = some b ∧ b.generation = g ∧ b.endpoint = ep

namespace FencingAux

/-- What another user's rebind does to the tables does not touch this user. -/
theorem lookup_table_release {s : UdpEndpointState} {A : FiniteMap UserNo UdpActiveIdentity} {u v : UserNo}
    {g : IdentityGeneration} (h : v ≠ u) (tr : UdpTransport) :
    (({ s with active := A, game := s.game.release u g, p2p := s.p2p.release u g } : UdpEndpointState).table tr).bindings.lookup
      v = (s.table tr).bindings.lookup v := by
  cases tr
  · exact GenerationEndpointTable.lookup_release_ne _ _ h
  · exact GenerationEndpointTable.lookup_release_ne _ _ h

/-- An endpoint bound under the active generation survives every operation that does not move its user. -/
theorem boundTo_step {s t : UdpEndpointState} {call : UdpCall} {u : UserNo} {tr : UdpTransport} {g : IdentityGeneration}
    {ep : SocketAddr} (hb : s.BoundTo u tr g ep) (hm : ¬s.Moves u call) (hs : Step s call t) : t.BoundTo u tr g ep := by
  have hst : t = s.apply call := hs
  subst hst
  obtain ⟨⟨a, ha, hag⟩, b, hbl, hbg, hbe⟩ := hb
  cases call with
  | advanceIdentity id =>
    by_cases hu : id.userNo = u
    · have : s.apply (.advanceIdentity id) = s := not_not.1 fun h => hm ⟨hu, h⟩
      rw [this]
      exact ⟨⟨a, ha, hag⟩, b, hbl, hbg, hbe⟩
    · rcases s.advanceIdentity_cases id with ⟨r, hr⟩ | ⟨hr, -⟩
      · simp only [apply, hr]
        exact ⟨⟨a, ha, hag⟩, b, hbl, hbg, hbe⟩
      · simp only [apply, hr]
        refine ⟨⟨a, ?_, hag⟩, b, ?_, hbg, hbe⟩
        · rw [lookup_insert, if_neg (Ne.symm hu)]
          exact ha
        · cases tr <;> exact hbl
  | bindAuthorizedIngressAt tr' id src rh n =>
    rcases s.bindAuthorizedIngressAt_cases tr' id src rh n with ⟨e, he⟩ | ⟨a', c, out, hr, ha', hg', -, -, -, -, hce, hcg, hk⟩
    · simp only [apply, he]
      exact ⟨⟨a, ha, hag⟩, b, hbl, hbg, hbe⟩
    · simp only [apply, hr]
      refine ⟨⟨a, by simpa using ha, hag⟩, ?_⟩
      rw [table_setTable]
      split
      · rename_i htr
        subst htr
        simp only [lookup_insert]
        split
        · rename_i hu
          subst hu
          -- the first endpoint wins: the new binding is of the same generation, so it has the same endpoint
          have haa : a' = a := by
            rw [ha] at ha'
            exact (Option.some.inj ha').symm
          have hgc : c.generation = g := hcg.trans (hg'.symm.trans (haa ▸ hag))
          exact ⟨c, rfl, hgc, (hk b hbl (hbg.trans hgc.symm)).symm.trans hbe⟩
        · exact ⟨b, hbl, hbg, hbe⟩
      · exact ⟨b, hbl, hbg, hbe⟩
  | authorizeRebind id e =>
    by_cases hu : id.userNo = u
    · have : s.apply (.authorizeRebind id e) = s := not_not.1 fun h => hm ⟨hu, h⟩
      rw [this]
      exact ⟨⟨a, ha, hag⟩, b, hbl, hbg, hbe⟩
    · rcases s.authorizeRebind_cases id e with ⟨err, hr⟩ | ⟨a', -, -, -, ⟨b', -, -, hr⟩ | ⟨-, hr⟩⟩
      · simp only [apply, hr]
        exact ⟨⟨a, ha, hag⟩, b, hbl, hbg, hbe⟩
      · simp only [apply, hr]
        exact ⟨⟨a, ha, hag⟩, b, hbl, hbg, hbe⟩
      · simp only [apply, hr]
        refine ⟨⟨a, ?_, hag⟩, b, ?_, hbg, hbe⟩
        · rw [lookup_insert, if_neg (Ne.symm hu)]
          exact ha
        · rw [lookup_table_release (Ne.symm hu)]
          exact hbl
  | removeReleasedIdentity id =>
    by_cases hu : id.userNo = u
    · have : s.apply (.removeReleasedIdentity id) = s := not_not.1 fun h => hm ⟨hu, h⟩
      rw [this]
      exact ⟨⟨a, ha, hag⟩, b, hbl, hbg, hbe⟩
    · rcases s.removeReleasedIdentity_cases id with hr | ⟨a', -, -, hr⟩
      · simp only [apply, hr]
        exact ⟨⟨a, ha, hag⟩, b, hbl, hbg, hbe⟩
      · simp only [apply, hr]
        refine ⟨⟨a, ?_, hag⟩, b, ?_, hbg, hbe⟩
        · rw [lookup_erase, if_neg (Ne.symm hu)]
          exact ha
        · rw [lookup_table_release (Ne.symm hu)]
          exact hbl
  | clear => exact absurd trivial hm

end FencingAux

/-- Along a path that never moves the user, an endpoint bound under the active generation stays. -/
theorem boundTo_path {s t : UdpEndpointState} {calls : List UdpCall} {u : UserNo} {tr : UdpTransport}
    {g : IdentityGeneration} {ep : SocketAddr}
    (h : Transition.Path (fun s call t => Step s call t ∧ ¬s.Moves u call) s calls t) (hb : s.BoundTo u tr g ep) :
    t.BoundTo u tr g ep :=
  h.keeps (I := fun s => s.BoundTo u tr g ep) (fun _ _ _ hI hst => FencingAux.boundTo_step hI hst.2 hst.1) hb

/-! ## The reconnect barrier -/

/-- An operation that activates the generation of the user anew: an advance to it that changes the state. -/
def Activates (s : UdpEndpointState) (u : UserNo) (g : IdentityGeneration) : UdpCall → Prop
  | .advanceIdentity id => id.userNo = u ∧ id.generation = g ∧ (s.advanceIdentity id).2 ≠ s
  | _ => False

/-- Where the generation of the user is active, its barrier is at least `e`. -/
def Barred (s : UdpEndpointState) (u : UserNo) (g : IdentityGeneration) (e : Nat) : Prop :=
  ∀ a, s.active.lookup u = some a → a.generation = g → ∃ b, a.reconnectBoundaryEpoch = some b ∧ e ≤ b

/-- An accepted rebind leaves its barrier, or a higher one. -/
theorem barred_authorizeRebind {s : UdpEndpointState} {id : IdentityBinding} {e : Nat}
    (h : (s.authorizeRebind id e).1 = .ok ()) : (s.authorizeRebind id e).2.Barred id.userNo id.generation e := by
  rcases s.authorizeRebind_cases id e with ⟨err, hr⟩ | ⟨a, ha, -, -, ⟨b, hb, hle, hr⟩ | ⟨-, hr⟩⟩
  · simp [hr] at h
  · intro a' ha' _
    rw [hr] at ha'
    cases ha.symm.trans ha'
    exact ⟨b, hb, hle⟩
  · intro a' ha' _
    rw [hr] at ha'
    simp only [lookup_insert, if_true, Option.some.injEq] at ha'
    subst ha'
    exact ⟨e, rfl, le_refl e⟩

namespace FencingAux

/-- A barrier is only raised while its generation stays active, and it is not lost unless the generation is activated anew. -/
theorem barred_step {s t : UdpEndpointState} {call : UdpCall} {u : UserNo} {g : IdentityGeneration} {e : Nat}
    (hb : s.Barred u g e) (hm : ¬s.Activates u g call) (hs : Step s call t) : t.Barred u g e := by
  have hst : t = s.apply call := hs
  subst hst
  cases call with
  | advanceIdentity id =>
    rcases s.advanceIdentity_cases id with ⟨r, hr⟩ | ⟨hr, hlt⟩
    · simpa only [apply, hr] using hb
    · intro a ha hg
      simp only [apply, hr, lookup_insert] at ha
      split at ha
      · rename_i hu
        cases ha
        refine absurd ⟨hu.symm, hg, fun hsame => ?_⟩ hm
        -- an advance that changes nothing would have found its own generation active, which is not a later one
        rw [hr] at hsame
        have hl : s.active.lookup id.userNo = some (.ofBinding id) := by
          rw [← congrArg active hsame]
          simp
        exact absurd (hlt _ hl) (lt_irrefl _)
      · exact hb a ha hg
  | bindAuthorizedIngressAt tr' id src rh n =>
    rcases s.bindAuthorizedIngressAt_cases tr' id src rh n with ⟨err, hr⟩ | ⟨a', c, out, hr, -⟩
    · simpa only [apply, hr] using hb
    · intro a ha hg
      simp only [apply, hr, active_setTable] at ha
      exact hb a ha hg
  | authorizeRebind id n =>
    rcases s.authorizeRebind_cases id n with ⟨err, hr⟩ | ⟨a', ha', hg', -, ⟨b', -, -, hr⟩ | ⟨hlow, hr⟩⟩
    · simpa only [apply, hr] using hb
    · simpa only [apply, hr] using hb
    · intro a ha hg
      simp only [apply, hr, lookup_insert] at ha
      split at ha
      · rename_i hu
        subst hu
        cases ha
        obtain ⟨b, hbb, hle⟩ := hb a' ha' hg
        exact ⟨n, rfl, le_of_lt (lt_of_le_of_lt hle (hlow b hbb))⟩
      · exact hb a ha hg
  | removeReleasedIdentity id =>
    rcases s.removeReleasedIdentity_cases id with hr | ⟨a', -, -, hr⟩
    · simpa only [apply, hr] using hb
    · intro a ha hg
      simp only [apply, hr, lookup_erase] at ha
      split at ha
      · nomatch ha
      · exact hb a ha hg
  | clear =>
    intro a ha _
    simp only [apply, clear, AList.lookup_empty] at ha
    nomatch ha

/-- Behind a barrier, an ingress that does not follow it is refused and changes nothing. -/
theorem refused_of_barred {s : UdpEndpointState} {u : UserNo} {g : IdentityGeneration} {e : Nat} (hb : s.Barred u g e)
    {tr : UdpTransport} {id : IdentityBinding} {src : SocketAddr} {rh : UInt32} {n : Nat} (hu : id.userNo = u)
    (hg : id.generation = g) (hn : n ≤ e) : ∃ err, s.bindAuthorizedIngressAt tr id src rh n = (.error err, s) := by
  rcases s.bindAuthorizedIngressAt_cases tr id src rh n with h | ⟨a, c, out, -, ha, hag, -, -, -, hlow, -⟩
  · exact h
  · obtain ⟨b, hbb, hle⟩ := hb a (hu ▸ ha) (hag.trans hg)
    have := hlow b hbb
    omega

end FencingAux

/-- Along a path that never activates the generation anew, a barrier stays. -/
theorem barred_path {s t : UdpEndpointState} {calls : List UdpCall} {u : UserNo} {g : IdentityGeneration} {e : Nat}
    (h : Transition.Path (fun s call t => Step s call t ∧ ¬s.Activates u g call) s calls t) (hb : s.Barred u g e) :
    t.Barred u g e :=
  h.keeps (I := fun s => s.Barred u g e) (fun _ _ _ hI hst => FencingAux.barred_step hI hst.2 hst.1) hb

/-! ## What the state refuses -/

/-- An ingress from port zero, an ingress or a rebind that does not carry the generation and the address of the active entry,
or a release that does not carry its generation. -/
def Foreign (s : UdpEndpointState) : UdpCall → Prop
  | .bindAuthorizedIngressAt _ id src _ _ =>
    src.port = 0 ∨ ∀ a, s.active.lookup id.userNo = some a →
      a.generation ≠ id.generation ∨ a.sourceIp ≠ id.sourceIp ∨ a.sourceIp ≠ src.ip
  | .authorizeRebind id _ =>
    ∀ a, s.active.lookup id.userNo = some a → a.generation ≠ id.generation ∨ a.sourceIp ≠ id.sourceIp
  | .removeReleasedIdentity id => ∀ a, s.active.lookup id.userNo = some a → a.generation ≠ id.generation
  | .advanceIdentity _ => False
  | .clear => False

/-- A foreign operation changes nothing. -/
theorem apply_foreign {s : UdpEndpointState} {call : UdpCall} (h : s.Foreign call) : s.apply call = s := by
  cases call with
  | advanceIdentity id => exact h.elim
  | clear => exact h.elim
  | bindAuthorizedIngressAt tr id src rh n =>
    rcases s.bindAuthorizedIngressAt_cases tr id src rh n with ⟨e, hr⟩ | ⟨a, c, out, -, ha, hg, hip, hsrc, hport, -⟩
    · simp only [apply, hr]
    · rcases h with h | h
      · exact absurd h hport
      · rcases h a ha with h | h | h
        · exact absurd hg h
        · exact absurd hip.symm h
        · exact absurd hsrc.symm h
  | authorizeRebind id e =>
    rcases s.authorizeRebind_cases id e with ⟨err, hr⟩ | ⟨a, ha, hg, hip, -⟩
    · simp only [apply, hr]
    · rcases h a ha with h | h
      · exact absurd hg h
      · exact absurd hip h
  | removeReleasedIdentity id =>
    rcases s.removeReleasedIdentity_cases id with hr | ⟨a, ha, hg, -⟩
    · exact hr
    · exact absurd hg (h a ha)

/-! ## The fencing of a state -/

/-- What the endpoint state promises from a state on, whatever operations follow. -/
structure Fencing (s : UdpEndpointState) : Prop where
  /-- A target has the generation and the source address of the active entry of its user. -/
  target : ∀ tr id target, s.currentAuthorizedTarget tr id = some target →
    ∃ a, s.active.lookup target.identity.userNo = some a ∧ target.endpoint.generation = a.generation ∧
      target.identity.generation = a.generation ∧ target.identity.sourceIp = a.sourceIp ∧
      target.endpoint.endpoint.ip = a.sourceIp
  /-- An endpoint bound under the active generation stays until its user is moved. -/
  firstEndpointWins : ∀ u tr g ep calls t, s.BoundTo u tr g ep →
    Transition.Path (fun s call t => Step s call t ∧ ¬s.Moves u call) s calls t → t.BoundTo u tr g ep
  /-- After an accepted rebind, and until its generation is activated anew, no ingress up to its epoch is bound, on either
  transport, whatever rebinds follow. -/
  barrier : ∀ id e calls t, (s.authorizeRebind id e).1 = .ok () →
    Transition.Path (fun s call t => Step s call t ∧ ¬s.Activates id.userNo id.generation call) (s.authorizeRebind id e).2
      calls t →
    ∀ tr id' src rh n, id'.userNo = id.userNo → id'.generation = id.generation → n ≤ e →
      ∃ err, t.bindAuthorizedIngressAt tr id' src rh n = (.error err, t)
  /-- A foreign operation changes nothing. -/
  refuses : ∀ call, s.Foreign call → s.apply call = s

/-- Every state of the endpoint service, reached by whatever operations, fences its endpoints. -/
theorem fencing (s : UdpEndpointState) : s.Fencing where
  target := by
    intro tr id target h
    obtain ⟨rfl, a, ha, hg, hip, heg, hep⟩ := currentAuthorizedTarget_active h
    exact ⟨a, ha, heg, hg.symm, hip.symm, hep⟩
  firstEndpointWins := fun _ _ _ _ _ _ hb hp => boundTo_path hp hb
  barrier := by
    intro id e calls t hr hp tr id' src rh n hu hg hn
    exact FencingAux.refused_of_barred (barred_path hp (barred_authorizeRebind hr)) hu hg hn
  refuses := fun _ h => apply_foreign h

namespace FencingAux

/-- A player, for the runs below. -/
def player : IdentityBinding where
  nickname := "rider"
  userNo := ⟨1, Nat.one_ne_zero, NonZero.one_lt_32⟩
  generation := ⟨1⟩
  owner := ⟨1⟩
  sourceIp := .v4 1
  channel := none

/-- The source of the player's datagrams. -/
def playerSource : SocketAddr := .v4 1 40000

/-- The state in which the player is active and nothing is bound. -/
def playing : UdpEndpointState := ((withMaxActiveIdentities 1).advanceIdentity player).2

/-- The stamp of a release of the player's generation, from another address. -/
def foreignRelease : ReleasedIdentity where
  nickname := "rider"
  userNo := ⟨1, Nat.one_ne_zero, NonZero.one_lt_32⟩
  generation := ⟨1⟩
  sourceIp := .v4 2
  channel := none

/-- The state in which the player is active again, in the next generation, with the binding of the first one still in the
table. -/
def playingAgain : UdpEndpointState :=
  ((playing.bindAuthorizedIngressAt .game player playerSource 0 0).2.advanceIdentity { player with generation := ⟨2⟩ }).2

/-- The player's datagrams from another port. -/
def otherSource : SocketAddr := .v4 1 40001

end FencingAux

/-- The barrier does not outlive the active entry: after `clear` and an advance to the same generation, an ingress from
before the rebind is bound. A release is honoured whatever source address it carries. And a binding goes with `clear`, or
with the first ingress of a later generation. -/
theorem fencing_for_ever_false :
    Reachable 1 FencingAux.playing ∧
    (FencingAux.playing.authorizeRebind FencingAux.player 5).1 = .ok () ∧
    (∃ t out, Transition.Path Step (FencingAux.playing.authorizeRebind FencingAux.player 5).2
        [.clear, .advanceIdentity FencingAux.player] t ∧
      (t.bindAuthorizedIngressAt .game FencingAux.player FencingAux.playerSource 0 3).1 = .ok out) ∧
    FencingAux.foreignRelease.sourceIp ≠ FencingAux.player.sourceIp ∧
    FencingAux.playing.removeReleasedIdentity FencingAux.foreignRelease ≠ FencingAux.playing ∧
    (FencingAux.playingAgain.game.bindings.lookup FencingAux.player.userNo).map (·.endpoint) =
      some FencingAux.playerSource ∧
    (FencingAux.playingAgain.clear.game.bindings.lookup FencingAux.player.userNo).isNone ∧
    ((FencingAux.playingAgain.bindAuthorizedIngressAt .game { FencingAux.player with generation := ⟨2⟩ }
        FencingAux.otherSource 0 0).2.game.bindings.lookup FencingAux.player.userNo).map (·.endpoint) =
      some FencingAux.otherSource := by
  refine ⟨?_, by decide, ⟨_, _, ((Transition.Path.nil _).snoc rfl).snoc rfl, rfl⟩, by decide, ?_, by decide, by decide,
    by decide⟩
  · have h0 : Reachable 1 (withMaxActiveIdentities 1) := Transition.Reachable.of_init rfl
    exact Transition.Reachable.snoc h0 (l := .advanceIdentity FencingAux.player) rfl
  · intro h
    have := congrArg (fun s => (s.active.lookup FencingAux.player.userNo).isSome) h
    exact absurd this (by decide)

end UdpEndpointState

end P5136
