import P5136.Identity.Migration
import P5136.Lib.Transition

/-!
# The invariant of the registry, and its edits

Every operation of the registry is a run of a few edits: a nickname becomes known, an identity logs in, a permit is granted, a
source is frozen or reopened, a generation is made, an identity is published, disowned, deferred or retired. The edits say
with their guards all that an operation can do to the registry; the invariant is proved once for each edit.
-/

namespace P5136

namespace IdentityRegistry

open IdentityOperationGate FiniteMap List

/-! ## The invariant -/

/-- The two name tables are each other's inverse, and every key is the canonical form of its nickname. -/
structure NamesOk (U : Unicode) (r : IdentityRegistry) : Prop where
  canonical : ∀ key known, r.knownByName.lookup key = some known → canonicalNicknameKey U known.nickname = key
  name_of_known : ∀ key known, r.knownByName.lookup key = some known → r.nameByUserNo.lookup known.userNo = some key
  known_of_name : ∀ u key, r.nameByUserNo.lookup u = some key → ∃ known, r.knownByName.lookup key = some known ∧ known.userNo = u
  userNo_lt : ∀ u key, r.nameByUserNo.lookup u = some key → u.get < r.nextUserNo

/-- What holds of one active identity: it is known, its generation and its gate exist, the session that owns it is bound to
exactly it, its permit is its own, and its gate is frozen exactly by the transfer in progress. -/
structure ActiveOk (r : IdentityRegistry) (key : String) (a : ActiveIdentity) : Prop where
  known : r.knownByName.lookup key = some a.known
  generation_pos : 0 < a.generation.get
  generation_lt : a.generation.get < r.nextGeneration
  gate_lt : a.operationGate < r.gates.next
  bound : ∀ s, a.owner = some s → r.sessionBindings.lookup s = some (identityBinding a s)
  permit : ∀ p, a.permit = some p → p.sourceGeneration = a.generation ∧ p.userNo = a.known.userNo ∧ p.sourceIp = a.ownerIp ∧
    ∀ s, a.owner = some s → s = p.sourceSession
  frozen : ∀ t, a.transferInProgress = some t → (r.gate a.operationGate).state = t.get ∧ t.get ≠ 0 ∧
    t.get < r.nextTransferId ∧ a.permit.isSome
  opened : a.transferInProgress = none → (r.gate a.operationGate).state = opened

/-- What holds of one deferred release: its nickname is known and not active, and its gate has not retired. -/
structure DeferredOk (r : IdentityRegistry) (d : DeferredRelease) : Prop where
  known : r.knownByName.lookup d.canonicalNickname = some ⟨d.identity.nickname, d.identity.userNo⟩
  inactive : r.activeByName.lookup d.canonicalNickname = none
  generation_lt : d.identity.generation.get < r.nextGeneration
  gate_lt : d.operationGate < r.gates.next
  state_ne : (r.gate d.operationGate).state ≠ retired

/-- Two deferred releases share nothing. -/
def Apart (d e : DeferredRelease) : Prop :=
  d.canonicalNickname ≠ e.canonicalNickname ∧ d.identity.generation ≠ e.identity.generation ∧
    d.operationGate ≠ e.operationGate

/-- The invariant. -/
structure WellFormed (U : Unicode) (r : IdentityRegistry) : Prop where
  names : r.NamesOk U
  active : ∀ key a, r.activeByName.lookup key = some a → r.ActiveOk key a
  generation_inj : ∀ k a k' a', r.activeByName.lookup k = some a → r.activeByName.lookup k' = some a' →
    a.generation = a'.generation → k = k'
  gate_inj : ∀ k a k' a', r.activeByName.lookup k = some a → r.activeByName.lookup k' = some a' →
    a.operationGate = a'.operationGate → k = k'
  deferred : ∀ d ∈ r.deferredReleases, r.DeferredOk d
  apart : r.deferredReleases.Pairwise Apart
  deferred_ne : ∀ d ∈ r.deferredReleases, ∀ k a, r.activeByName.lookup k = some a →
    d.identity.generation ≠ a.generation ∧ d.operationGate ≠ a.operationGate
  userNo_pos : 0 < r.nextUserNo
  generation_pos : 0 < r.nextGeneration
  transferId_pos : 0 < r.nextTransferId
  transferId_lt : r.nextTransferId < 2 ^ 64

/-- The registry without any identity is well formed. -/
theorem wellFormed_new (U : Unicode) : WellFormed U new where
  names := by constructor <;> intros <;> simp_all [new]
  active := by intros; simp_all [new]
  generation_inj := by intros; simp_all [new]
  gate_inj := by intros; simp_all [new]
  deferred := by simp [new]
  apart := Pairwise.nil
  deferred_ne := by simp [new]
  userNo_pos := Nat.one_pos
  generation_pos := Nat.one_pos
  transferId_pos := Nat.one_pos
  transferId_lt := by decide

@[simp] theorem gate_setGate (r : IdentityRegistry) (i j : GateId) (g : IdentityOperationGate) :
    (r.setGate i g).gate j = if j = i then g else r.gate j :=
  GateArena.gate_set r.gates i j g

/-- An owner owns one identity only: the binding of its session names the generation. -/
theorem WellFormed.owner_inj {U : Unicode} {r : IdentityRegistry} (h : r.WellFormed U) {k k' : String}
    {a a' : ActiveIdentity} {s : SessionId} (ha : r.activeByName.lookup k = some a)
    (ha' : r.activeByName.lookup k' = some a') (ho : a.owner = some s) (ho' : a'.owner = some s) : k = k' := by
  have hb := (h.active k a ha).bound s ho
  have hb' := (h.active k' a' ha').bound s ho'
  have heq : identityBinding a s = identityBinding a' s := Option.some.inj (hb.symm.trans hb')
  exact h.generation_inj k a k' a' ha ha' (congrArg IdentityBinding.generation heq)

/-- The key of an active identity is the canonical form of its nickname. -/
theorem WellFormed.canonical_active {U : Unicode} {r : IdentityRegistry} (h : r.WellFormed U) {k : String}
    {a : ActiveIdentity} (ha : r.activeByName.lookup k = some a) : canonicalNicknameKey U a.known.nickname = k :=
  h.names.canonical k a.known (h.active k a ha).known

/-- A frozen gate is neither open nor retired. -/
theorem WellFormed.transfer_word {U : Unicode} {r : IdentityRegistry} (h : r.WellFormed U) {k : String} {a : ActiveIdentity}
    {t : MigrationTransferId} (ha : r.activeByName.lookup k = some a) (ht : a.transferInProgress = some t) :
    t.get ≠ opened ∧ t.get ≠ retired := by
  obtain ⟨-, h0, hlt, -⟩ := (h.active k a ha).frozen t ht
  have := h.transferId_lt
  refine ⟨h0, ?_⟩
  unfold retired
  omega

/-! ## The edits -/

/-- The identity a commit publishes in place of `a`. -/
def publishedIdentity (a : ActiveIdentity) (binding : IdentityBinding) (next : GateId) : ActiveIdentity :=
  { a with
    generation := binding.generation
    owner := some binding.owner
    ownerIp := binding.sourceIp
    channel := binding.channel
    permit := none
    transferInProgress := none
    operationGate := next }

/-- The identity a claim installs. -/
def claimedIdentity (r : IdentityRegistry) (known : KnownIdentity) (session : SessionId) (sourceIp : IpAddr) :
    ActiveIdentity where
  known := known
  generation := ⟨r.nextGeneration⟩
  owner := some session
  ownerIp := sourceIp
  channel := none
  permit := none
  transferInProgress := none
  operationGate := r.gates.next

/-- What an edit is to the world outside the registry. -/
inductive EditLabel where
  | quiet
  | granted (permit : MigrationPermit)
  | expired
  | unbound (session : SessionId)
  | admitted (gate : GateId)
  | froze (transferId : MigrationTransferId)
  | released (identity : ReleasedIdentity)
  | published (identity : ReleasedIdentity)

/-- One edit of the registry. -/
inductive Edit (U : Unicode) : IdentityRegistry → EditLabel → IdentityRegistry → Prop where
  /-- A nickname becomes known, under the next user number. -/
  | know {r : IdentityRegistry} (key : String) (known : KnownIdentity) : r.knownByName.lookup key = none →
      canonicalNicknameKey U known.nickname = key → known.userNo.get = r.nextUserNo →
      Edit U r .quiet { r with
        knownByName := r.knownByName.insert key known
        nameByUserNo := r.nameByUserNo.insert known.userNo key
        nextUserNo := r.nextUserNo + 1 }
  /-- A number is used up. -/
  | burn {r : IdentityRegistry} (u g t : Nat) : r.nextTransferId + t < 2 ^ 64 →
      Edit U r .quiet { r with
        nextUserNo := r.nextUserNo + u, nextGeneration := r.nextGeneration + g, nextTransferId := r.nextTransferId + t }
  /-- A session without an identity takes a known nickname that is neither active nor deferred. -/
  | login {r : IdentityRegistry} (key : String) (known : KnownIdentity) (session : SessionId) (sourceIp : IpAddr)
      (epoch : Nat) : r.knownByName.lookup key = some known → r.sessionBindings.lookup session = none →
      r.activeByName.lookup key = none → (∀ d ∈ r.deferredReleases, d.canonicalNickname ≠ key) →
      Edit U r .quiet { r with
        gates := r.gates.alloc (.shared epoch)
        activeByName := r.activeByName.insert key (r.claimedIdentity known session sourceIp)
        sessionBindings := r.sessionBindings.insert session
          (identityBinding (r.claimedIdentity known session sourceIp) session)
        nextGeneration := r.nextGeneration + 1 }
  /-- The owner of an identity that is not frozen gets a permit for it. -/
  | grant {r : IdentityRegistry} (key : String) (a : ActiveIdentity) (p : MigrationPermit) :
      r.activeByName.lookup key = some a → a.transferInProgress = none → a.owner = some p.sourceSession →
      p.sourceGeneration = a.generation → p.userNo = a.known.userNo → p.sourceIp = a.ownerIp →
      Edit U r (.granted p) { r with activeByName := r.activeByName.insert key { a with permit := some p } }
  /-- A new transfer freezes the gate of an identity with a permit. -/
  | freeze {r : IdentityRegistry} (key : String) (a : ActiveIdentity) : r.activeByName.lookup key = some a →
      a.permit.isSome → (r.gate a.operationGate).IsOpen → r.nextTransferId + 1 < 2 ^ 64 →
      Edit U r (.froze ⟨r.nextTransferId⟩)
        { r.setGate a.operationGate { r.gate a.operationGate with state := r.nextTransferId } with
          activeByName := r.activeByName.insert key { a with transferInProgress := some ⟨r.nextTransferId⟩ }
          nextTransferId := r.nextTransferId + 1 }
  /-- The gate a transfer froze is opened again. -/
  | reopen {r : IdentityRegistry} (key : String) (a : ActiveIdentity) (t : MigrationTransferId) :
      r.activeByName.lookup key = some a → a.transferInProgress = some t →
      Edit U r .quiet
        { r.setGate a.operationGate { r.gate a.operationGate with state := opened } with
          activeByName := r.activeByName.insert key { a with transferInProgress := none } }
  /-- A generation and its gate are made, for a candidate. -/
  | make {r : IdentityRegistry} (epoch : Nat) :
      Edit U r .quiet { r with gates := r.gates.alloc (.shared epoch), nextGeneration := r.nextGeneration + 1 }
  /-- An operation is admitted at the gate of an identity that is not frozen. -/
  | admission {r : IdentityRegistry} (key : String) (a : ActiveIdentity) : r.activeByName.lookup key = some a →
      Edit U r (.admitted a.operationGate) (r.setGate a.operationGate
        { r.gate a.operationGate with activeOperations := (r.gate a.operationGate).activeOperations + 1 })
  /-- A session that owns no identity loses its binding. -/
  | unbind {r : IdentityRegistry} (session : SessionId) :
      (∀ k a, r.activeByName.lookup k = some a → a.owner ≠ some session) →
      Edit U r (.unbound session) { r with sessionBindings := r.sessionBindings.erase session }
  /-- An identity with a permit loses its owner. -/
  | disown {r : IdentityRegistry} (key : String) (a : ActiveIdentity) : r.activeByName.lookup key = some a →
      a.permit.isSome → Edit U r .quiet { r with activeByName := r.activeByName.insert key { a with owner := none } }
  /-- A permit is dropped from an identity that is not frozen. -/
  | expire {r : IdentityRegistry} (key : String) (a : ActiveIdentity) : r.activeByName.lookup key = some a →
      a.transferInProgress = none →
      Edit U r .expired { r with activeByName := r.activeByName.insert key { a with permit := none } }
  /-- An identity stops being active and waits for its release. -/
  | defer {r : IdentityRegistry} (key : String) (a : ActiveIdentity) : r.activeByName.lookup key = some a →
      Edit U r .quiet { r with
        activeByName := r.activeByName.erase key
        deferredReleases := r.deferredReleases ++ [⟨key, releasedIdentity a, a.operationGate⟩] }
  /-- A drained generation that waited is retired. -/
  | retire {r : IdentityRegistry} (pre post : List DeferredRelease) (d : DeferredRelease) :
      r.deferredReleases = pre ++ d :: post → (r.gate d.operationGate).activeOperations = 0 →
      Edit U r (.released d.identity)
        { r.setGate d.operationGate { r.gate d.operationGate with state := retired } with
          deferredReleases := pre ++ post }
  /-- A made generation replaces a frozen and drained one, whose gate retires. -/
  | publish {r : IdentityRegistry} (key : String) (a : ActiveIdentity) (t : MigrationTransferId) (binding : IdentityBinding)
      (next : GateId) (epoch : Nat) : r.activeByName.lookup key = some a → a.transferInProgress = some t →
      (r.gate a.operationGate).activeOperations = 0 → r.sessionBindings.lookup binding.owner = none →
      binding.nickname = a.known.nickname → binding.userNo = a.known.userNo →
      0 < binding.generation.get → binding.generation.get < r.nextGeneration →
      (∀ k b, r.activeByName.lookup k = some b → b.generation ≠ binding.generation ∧ b.operationGate ≠ next) →
      (∀ d ∈ r.deferredReleases, d.identity.generation ≠ binding.generation ∧ d.operationGate ≠ next) →
      next < r.gates.next → (r.gate next).IsOpen → (r.gate next).activeOperations = 0 →
      Edit U r (.published (releasedIdentity a))
        { (r.setGate next { r.gate next with activatedUdpEpoch := epoch }).setGate a.operationGate
            { r.gate a.operationGate with state := retired } with
          activeByName := r.activeByName.insert key (publishedIdentity a binding next)
          sessionBindings := r.sessionBindings.insert binding.owner binding }

/-! ## The edits keep the invariant -/

namespace WellFormedAux

/-- An active identity stays in order when its gate keeps its word and its owner its binding. -/
theorem activeOk_mono {r r' : IdentityRegistry} {k : String} {a : ActiveIdentity} (h : r.ActiveOk k a)
    (hk : r'.knownByName.lookup k = r.knownByName.lookup k) (hg : r.nextGeneration ≤ r'.nextGeneration)
    (hn : r.gates.next ≤ r'.gates.next) (ht : r.nextTransferId ≤ r'.nextTransferId)
    (hs : ∀ s, a.owner = some s → r'.sessionBindings.lookup s = r.sessionBindings.lookup s)
    (hw : (r'.gate a.operationGate).state = (r.gate a.operationGate).state) : r'.ActiveOk k a where
  known := hk ▸ h.known
  generation_pos := h.generation_pos
  generation_lt := lt_of_lt_of_le h.generation_lt hg
  gate_lt := lt_of_lt_of_le h.gate_lt hn
  bound := fun s ho => (hs s ho).trans (h.bound s ho)
  permit := h.permit
  frozen := by
    intro t hta
    obtain ⟨h1, h2, h3, h4⟩ := h.frozen t hta
    exact ⟨hw.trans h1, h2, lt_of_lt_of_le h3 ht, h4⟩
  opened := fun hta => hw.trans (h.opened hta)

/-- A deferred release stays in order when its nickname stays inactive and its gate keeps its word. -/
theorem deferredOk_mono {r r' : IdentityRegistry} {d : DeferredRelease} (h : r.DeferredOk d)
    (hk : r'.knownByName.lookup d.canonicalNickname = r.knownByName.lookup d.canonicalNickname)
    (hi : r'.activeByName.lookup d.canonicalNickname = none) (hg : r.nextGeneration ≤ r'.nextGeneration)
    (hn : r.gates.next ≤ r'.gates.next) (hw : (r'.gate d.operationGate).state = (r.gate d.operationGate).state) :
    r'.DeferredOk d where
  known := hk ▸ h.known
  inactive := hi
  generation_lt := lt_of_lt_of_le h.generation_lt hg
  gate_lt := lt_of_lt_of_le h.gate_lt hn
  state_ne := hw ▸ h.state_ne

/-- An identity changed in place, within its generation: the invariant is kept when the changed identity is in order. -/
theorem wellFormed_modify {U : Unicode} {r r' : IdentityRegistry} (h : r.WellFormed U) {key : String}
    {a a' : ActiveIdentity} (ha : r.activeByName.lookup key = some a) (hact : r'.activeByName = r.activeByName.insert key a')
    (hgen : a'.generation = a.generation) (hgate : a'.operationGate = a.operationGate)
    (hnames : r'.knownByName = r.knownByName ∧ r'.nameByUserNo = r.nameByUserNo ∧ r'.nextUserNo = r.nextUserNo)
    (hs : r'.sessionBindings = r.sessionBindings) (hd : r'.deferredReleases = r.deferredReleases)
    (hg : r'.nextGeneration = r.nextGeneration) (hn : r'.gates.next = r.gates.next)
    (ht : r.nextTransferId ≤ r'.nextTransferId ∧ r'.nextTransferId < 2 ^ 64)
    (hw : ∀ id, id ≠ a.operationGate → r'.gate id = r.gate id) (hok : r'.ActiveOk key a') : r'.WellFormed U := by
  obtain ⟨hk1, hk2, hk3⟩ := hnames
  -- every identity after the change was there before, under the same generation and gate
  have hold : ∀ k b, r'.activeByName.lookup k = some b → ∃ b₀, r.activeByName.lookup k = some b₀ ∧
      b.generation = b₀.generation ∧ b.operationGate = b₀.operationGate ∧ (k ≠ key → b = b₀) := by
    intro k b hb
    rw [hact, lookup_insert] at hb
    split at hb
    · rename_i hkk
      subst hkk
      cases hb
      exact ⟨a, ha, hgen, hgate, fun hne => absurd rfl hne⟩
    · exact ⟨b, hb, rfl, rfl, fun _ => rfl⟩
  refine ⟨⟨?_, ?_, ?_, ?_⟩, ?_, ?_, ?_, ?_, hd ▸ h.apart, ?_, hk3 ▸ h.userNo_pos, hg ▸ h.generation_pos,
    lt_of_lt_of_le h.transferId_pos ht.1, ht.2⟩
  · exact hk1 ▸ h.names.canonical
  · rw [hk1, hk2]
    exact h.names.name_of_known
  · rw [hk1, hk2]
    exact h.names.known_of_name
  · rw [hk2, hk3]
    exact h.names.userNo_lt
  · intro k b hb
    by_cases hkk : k = key
    · subst hkk
      rw [hact, lookup_insert, if_pos rfl] at hb
      cases hb
      exact hok
    · obtain ⟨b₀, hb₀, -, hgb, hbb⟩ := hold k b hb
      have hbb := hbb hkk
      subst hbb
      refine activeOk_mono (h.active k b hb₀) (by rw [hk1]) (le_of_eq hg.symm) (le_of_eq hn.symm) ht.1 (fun s _ => by rw [hs]) ?_
      rw [hw _ (fun hne => hkk (h.gate_inj k b key a hb₀ ha hne))]
  · intro k b k' b' hb hb' heq
    obtain ⟨b₀, hb₀, hgb, -⟩ := hold k b hb
    obtain ⟨b₀', hb₀', hgb', -⟩ := hold k' b' hb'
    exact h.generation_inj k b₀ k' b₀' hb₀ hb₀' (hgb.symm.trans (heq.trans hgb'))
  · intro k b k' b' hb hb' heq
    obtain ⟨b₀, hb₀, -, hgb, -⟩ := hold k b hb
    obtain ⟨b₀', hb₀', -, hgb', -⟩ := hold k' b' hb'
    exact h.gate_inj k b₀ k' b₀' hb₀ hb₀' (hgb.symm.trans (heq.trans hgb'))
  · intro d hdm
    rw [hd] at hdm
    have hdo := h.deferred d hdm
    refine deferredOk_mono hdo (by rw [hk1]) ?_ (le_of_eq hg.symm) (le_of_eq hn.symm) ?_
    · rw [hact, lookup_insert, if_neg]
      · exact hdo.inactive
      · rintro rfl
        rw [hdo.inactive] at ha
        cases ha
    · rw [hw _ (h.deferred_ne d hdm key a ha).2]
  · intro d hdm k b hb
    rw [hd] at hdm
    obtain ⟨b₀, hb₀, hgb, hgt, -⟩ := hold k b hb
    rw [hgb, hgt]
    exact h.deferred_ne d hdm k b₀ hb₀

/-- Adding a generation under a key that is not active, with a gate of its own. -/
theorem wellFormed_login {U : Unicode} {r : IdentityRegistry} (h : r.WellFormed U) {key : String} {known : KnownIdentity}
    {session : SessionId} {sourceIp : IpAddr} {epoch : Nat} (hk : r.knownByName.lookup key = some known)
    (hs : r.sessionBindings.lookup session = none) (hna : r.activeByName.lookup key = none)
    (hnd : ∀ d ∈ r.deferredReleases, d.canonicalNickname ≠ key) :
    WellFormed U { r with
      gates := r.gates.alloc (.shared epoch)
      activeByName := r.activeByName.insert key (r.claimedIdentity known session sourceIp)
      sessionBindings := r.sessionBindings.insert session
        (identityBinding (r.claimedIdentity known session sourceIp) session)
      nextGeneration := r.nextGeneration + 1 } := by
  have hnew : ∀ id, id < r.gates.next → (r.gates.alloc (.shared epoch)).gate id = r.gates.gate id := by
    intro id hid
    rw [GateArena.gate_alloc, if_neg (Nat.ne_of_lt hid)]
  refine ⟨⟨h.names.canonical, h.names.name_of_known, h.names.known_of_name, h.names.userNo_lt⟩, ?_, ?_, ?_, ?_, h.apart, ?_,
    h.userNo_pos, Nat.succ_pos _, h.transferId_pos, h.transferId_lt⟩
  · intro k b hb
    simp only [lookup_insert] at hb
    split at hb
    · rename_i hkk
      subst hkk
      cases hb
      exact {
        known := hk
        generation_pos := h.generation_pos
        generation_lt := Nat.lt_succ_self _
        gate_lt := Nat.lt_succ_self _
        bound := by
          intro s ho
          cases ho
          simp
        permit := by
          intro p hp
          cases hp
        frozen := by
          intro t ht
          cases ht
        opened := by
          intro _
          simp only [claimedIdentity, gate, GateArena.gate_alloc, if_true]
          rfl }
    · refine activeOk_mono (h.active k b hb) rfl (Nat.le_succ _) (Nat.le_succ _) (le_refl _) ?_ ?_
      · intro s ho
        simp only [lookup_insert]
        rw [if_neg]
        rintro rfl
        rw [(h.active k b hb).bound s ho] at hs
        cases hs
      · exact congrArg state (hnew _ (h.active k b hb).gate_lt)
  · intro k b k' b' hb hb' heq
    simp only [lookup_insert] at hb hb'
    split at hb <;> split at hb'
    · simp_all
    · cases hb
      have := (h.active k' b' hb').generation_lt
      rw [← heq] at this
      exact absurd this (lt_irrefl _)
    · cases hb'
      have := (h.active k b hb).generation_lt
      rw [heq] at this
      exact absurd this (lt_irrefl _)
    · exact h.generation_inj k b k' b' hb hb' heq
  · intro k b k' b' hb hb' heq
    simp only [lookup_insert] at hb hb'
    split at hb <;> split at hb'
    · simp_all
    · cases hb
      have := (h.active k' b' hb').gate_lt
      rw [← heq] at this
      exact absurd this (lt_irrefl _)
    · cases hb'
      have := (h.active k b hb).gate_lt
      rw [heq] at this
      exact absurd this (lt_irrefl _)
    · exact h.gate_inj k b k' b' hb hb' heq
  · intro d hd
    have hdo := h.deferred d hd
    refine deferredOk_mono hdo rfl ?_ (Nat.le_succ _) (Nat.le_succ _) ?_
    · simp only [lookup_insert]
      rw [if_neg (hnd d hd)]
      exact hdo.inactive
    · exact congrArg state (hnew _ hdo.gate_lt)
  · intro d hd k b hb
    have hdo := h.deferred d hd
    simp only [lookup_insert] at hb
    split at hb
    · cases hb
      refine ⟨fun heq => ?_, fun heq => ?_⟩
      · have := hdo.generation_lt
        rw [heq] at this
        exact absurd this (lt_irrefl _)
      · have := hdo.gate_lt
        rw [heq] at this
        exact absurd this (lt_irrefl _)
    · exact h.deferred_ne d hd k b hb

/-- An edit that leaves the active identities and the deferred releases, with their owners' bindings and the words of their
gates, keeps the invariant. -/
theorem wellFormed_frame {U : Unicode} {r r' : IdentityRegistry} (h : r.WellFormed U) (hnames : r'.NamesOk U)
    (hk : ∀ k known, r.knownByName.lookup k = some known → r'.knownByName.lookup k = some known)
    (hact : r'.activeByName = r.activeByName) (hd : r'.deferredReleases = r.deferredReleases)
    (hs : ∀ k a s, r.activeByName.lookup k = some a → a.owner = some s →
      r'.sessionBindings.lookup s = r.sessionBindings.lookup s)
    (hu : r.nextUserNo ≤ r'.nextUserNo) (hg : r.nextGeneration ≤ r'.nextGeneration)
    (ht : r.nextTransferId ≤ r'.nextTransferId) (htb : r'.nextTransferId < 2 ^ 64) (hn : r.gates.next ≤ r'.gates.next)
    (hw : ∀ id, id < r.gates.next → (r'.gate id).state = (r.gate id).state) : r'.WellFormed U where
  names := hnames
  active := by
    intro k a ha
    rw [hact] at ha
    have hok := h.active k a ha
    exact activeOk_mono hok ((hk k a.known hok.known).trans hok.known.symm) hg hn ht (fun s ho => hs k a s ha ho)
      (hw _ hok.gate_lt)
  generation_inj := hact ▸ h.generation_inj
  gate_inj := hact ▸ h.gate_inj
  deferred := by
    intro d hdm
    rw [hd] at hdm
    have hok := h.deferred d hdm
    exact deferredOk_mono hok ((hk _ _ hok.known).trans hok.known.symm) (hact ▸ hok.inactive) hg hn (hw _ hok.gate_lt)
  apart := hd ▸ h.apart
  deferred_ne := by
    rw [hd, hact]
    exact h.deferred_ne
  userNo_pos := lt_of_lt_of_le h.userNo_pos hu
  generation_pos := lt_of_lt_of_le h.generation_pos hg
  transferId_pos := lt_of_lt_of_le h.transferId_pos ht
  transferId_lt := htb

/-- The name tables after a nickname becomes known under the next user number. -/
theorem namesOk_know {U : Unicode} {r : IdentityRegistry} (h : r.NamesOk U) {key : String} {known : KnownIdentity}
    (hnew : r.knownByName.lookup key = none) (hcan : canonicalNicknameKey U known.nickname = key)
    (hu : known.userNo.get = r.nextUserNo) :
    NamesOk U { r with
      knownByName := r.knownByName.insert key known
      nameByUserNo := r.nameByUserNo.insert known.userNo key
      nextUserNo := r.nextUserNo + 1 } := by
  -- the next user number has no name yet
  have hfree : ∀ k, r.nameByUserNo.lookup known.userNo ≠ some k := by
    intro k hc
    have := h.userNo_lt _ _ hc
    omega
  refine ⟨?_, ?_, ?_, ?_⟩
  · intro k kn hl
    simp only [lookup_insert] at hl
    split at hl
    · cases hl
      rename_i hkk
      exact hcan.trans hkk.symm
    · exact h.canonical k kn hl
  · intro k kn hl
    simp only [lookup_insert] at hl ⊢
    split at hl
    · cases hl
      rename_i hkk
      rw [if_pos rfl, hkk]
    · have hname := h.name_of_known k kn hl
      rw [if_neg, hname]
      intro hc
      exact hfree k (hc ▸ hname)
  · intro u k hl
    simp only [lookup_insert] at hl ⊢
    split at hl
    · cases hl
      rename_i huu
      exact ⟨known, by simp, huu.symm⟩
    · obtain ⟨kn, hkn, hknu⟩ := h.known_of_name u k hl
      refine ⟨kn, ?_, hknu⟩
      rw [if_neg, hkn]
      rintro rfl
      rw [hnew] at hkn
      cases hkn
  · intro u k hl
    simp only [lookup_insert] at hl
    split at hl
    · rename_i huu
      rw [huu, hu]
      exact Nat.lt_succ_self _
    · exact Nat.lt_succ_of_lt (h.userNo_lt u k hl)

/-- An active identity that waits for its release: the invariant is kept. -/
theorem wellFormed_defer {U : Unicode} {r : IdentityRegistry} (h : r.WellFormed U) {key : String} {a : ActiveIdentity}
    (ha : r.activeByName.lookup key = some a) :
    WellFormed U { r with
      activeByName := r.activeByName.erase key
      deferredReleases := r.deferredReleases ++ [⟨key, releasedIdentity a, a.operationGate⟩] } := by
  have hold : ∀ k b, (r.activeByName.erase key).lookup k = some b → k ≠ key ∧ r.activeByName.lookup k = some b := by
    intro k b hb
    rw [lookup_erase] at hb
    split at hb
    · cases hb
    · rename_i hkk
      exact ⟨hkk, hb⟩
  refine ⟨⟨h.names.canonical, h.names.name_of_known, h.names.known_of_name, h.names.userNo_lt⟩, ?_, ?_, ?_, ?_, ?_, ?_,
    h.userNo_pos, h.generation_pos, h.transferId_pos, h.transferId_lt⟩
  · intro k b hb
    exact activeOk_mono (h.active k b (hold k b hb).2) rfl (le_refl _) (le_refl _) (le_refl _) (fun _ _ => rfl) rfl
  · intro k b k' b' hb hb' heq
    exact h.generation_inj k b k' b' (hold k b hb).2 (hold k' b' hb').2 heq
  · intro k b k' b' hb hb' heq
    exact h.gate_inj k b k' b' (hold k b hb).2 (hold k' b' hb').2 heq
  · intro d hd
    rcases mem_append.1 hd with hd | hd
    · have hok := h.deferred d hd
      refine deferredOk_mono hok rfl ?_ (le_refl _) (le_refl _) rfl
      simp only [lookup_erase]
      split
      · rfl
      · exact hok.inactive
    · cases mem_singleton.1 hd
      have hok := h.active key a ha
      refine ⟨hok.known, by simp, hok.generation_lt, hok.gate_lt, ?_⟩
      show (r.gate a.operationGate).state ≠ retired
      cases ht : a.transferInProgress with
      | none => rw [hok.opened ht]; exact opened_ne_retired
      | some t => rw [(hok.frozen t ht).1]; exact (h.transfer_word ha ht).2
  · refine pairwise_append.2 ⟨h.apart, pairwise_singleton _ _, ?_⟩
    intro d hd e he
    cases mem_singleton.1 he
    refine ⟨?_, h.deferred_ne d hd key a ha⟩
    rintro rfl
    rw [(h.deferred d hd).inactive] at ha
    cases ha
  · intro d hd k b hb
    obtain ⟨hkk, hb⟩ := hold k b hb
    rcases mem_append.1 hd with hd | hd
    · exact h.deferred_ne d hd k b hb
    · cases mem_singleton.1 hd
      exact ⟨fun heq => hkk (h.generation_inj key a k b ha hb heq).symm, fun heq => hkk (h.gate_inj key a k b ha hb heq).symm⟩

/-- A deferred release that retires: the invariant is kept. -/
theorem wellFormed_retire {U : Unicode} {r : IdentityRegistry} (h : r.WellFormed U) {pre post : List DeferredRelease}
    {d : DeferredRelease} (hd : r.deferredReleases = pre ++ d :: post) :
    WellFormed U { r.setGate d.operationGate { r.gate d.operationGate with state := retired } with
      deferredReleases := pre ++ post } := by
  have hapart := h.apart
  rw [hd] at hapart
  have hmem : d ∈ r.deferredReleases := by simp [hd]
  have hsub : ∀ e ∈ pre ++ post, e ∈ r.deferredReleases ∧ e.operationGate ≠ d.operationGate := by
    intro e he
    refine ⟨by rw [hd]; simp only [mem_append, mem_cons] at he ⊢; tauto, ?_⟩
    obtain ⟨-, h2, h3⟩ := pairwise_append.1 hapart
    rcases mem_append.1 he with he | he
    · exact (h3 e he d mem_cons_self).2.2
    · exact ((pairwise_cons.1 h2).1 e he).2.2.symm
  refine ⟨⟨h.names.canonical, h.names.name_of_known, h.names.known_of_name, h.names.userNo_lt⟩, ?_, h.generation_inj,
    h.gate_inj, ?_, ?_, ?_, h.userNo_pos, h.generation_pos, h.transferId_pos, h.transferId_lt⟩
  · intro k b hb
    refine activeOk_mono (h.active k b hb) rfl (le_refl _) (le_refl _) (le_refl _) (fun _ _ => rfl) ?_
    have hne : b.operationGate ≠ d.operationGate := (h.deferred_ne d hmem k b hb).2.symm
    show ((r.setGate _ _).gate b.operationGate).state = _
    rw [gate_setGate, if_neg hne]
  · intro e he
    obtain ⟨hem, hne⟩ := hsub e he
    refine deferredOk_mono (h.deferred e hem) rfl (h.deferred e hem).inactive (le_refl _) (le_refl _) ?_
    show ((r.setGate _ _).gate e.operationGate).state = _
    rw [gate_setGate, if_neg hne]
  · exact hapart.sublist (Sublist.append_left (sublist_cons_self d post) pre)
  · intro e he k b hb
    exact h.deferred_ne e (hsub e he).1 k b hb

/-- A made generation that replaces a frozen one: the invariant is kept. -/
theorem wellFormed_publish {U : Unicode} {r : IdentityRegistry} (h : r.WellFormed U) {key : String} {a : ActiveIdentity}
    {binding : IdentityBinding} {next : GateId} {epoch : Nat} (ha : r.activeByName.lookup key = some a)
    (hs : r.sessionBindings.lookup binding.owner = none)
    (hnick : binding.nickname = a.known.nickname) (huser : binding.userNo = a.known.userNo)
    (hpos : 0 < binding.generation.get) (hlt : binding.generation.get < r.nextGeneration)
    (hfresh : ∀ k b, r.activeByName.lookup k = some b → b.generation ≠ binding.generation ∧ b.operationGate ≠ next)
    (hdfresh : ∀ d ∈ r.deferredReleases, d.identity.generation ≠ binding.generation ∧ d.operationGate ≠ next)
    (hnext : next < r.gates.next) (hopen : (r.gate next).IsOpen) :
    WellFormed U { (r.setGate next { r.gate next with activatedUdpEpoch := epoch }).setGate a.operationGate
        { r.gate a.operationGate with state := retired } with
      activeByName := r.activeByName.insert key (publishedIdentity a binding next)
      sessionBindings := r.sessionBindings.insert binding.owner binding } := by
  have hgate : ∀ id, id ≠ a.operationGate →
      (((r.setGate next { r.gate next with activatedUdpEpoch := epoch }).setGate a.operationGate
        { r.gate a.operationGate with state := retired }).gate id).state = (r.gate id).state := by
    intro id hid
    rw [gate_setGate, if_neg hid, gate_setGate]
    split
    · rename_i hin
      rw [hin]
    · rfl
  refine ⟨⟨h.names.canonical, h.names.name_of_known, h.names.known_of_name, h.names.userNo_lt⟩, ?_, ?_, ?_, ?_, h.apart, ?_,
    h.userNo_pos, h.generation_pos, h.transferId_pos, h.transferId_lt⟩
  · intro k b hb
    simp only [lookup_insert] at hb
    split at hb
    · rename_i hkk
      subst hkk
      cases hb
      exact {
        known := (h.active k a ha).known
        generation_pos := hpos
        generation_lt := hlt
        gate_lt := hnext
        bound := by
          intro s ho
          cases ho
          have heq : identityBinding (publishedIdentity a binding next) binding.owner = binding := by
            cases binding
            simp only [identityBinding, publishedIdentity] at hnick huser ⊢
            rw [hnick, huser]
          simp [heq]
        permit := by
          intro p hp
          cases hp
        frozen := by
          intro t ht
          cases ht
        opened := fun _ => (hgate next (hfresh k a ha).2.symm).trans hopen }
    · rename_i hkk
      refine activeOk_mono (h.active k b hb) rfl (le_refl _) (le_refl _) (le_refl _) ?_ ?_
      · intro s ho
        simp only [lookup_insert]
        rw [if_neg]
        rintro rfl
        rw [(h.active k b hb).bound _ ho] at hs
        cases hs
      · exact hgate _ (fun hc => hkk (h.gate_inj k b key a hb ha hc))
  · intro k b k' b' hb hb' heq
    simp only [lookup_insert] at hb hb'
    split at hb <;> split at hb'
    · simp_all
    · cases hb
      exact absurd heq.symm (hfresh k' b' hb').1
    · cases hb'
      exact absurd heq (hfresh k b hb).1
    · exact h.generation_inj k b k' b' hb hb' heq
  · intro k b k' b' hb hb' heq
    simp only [lookup_insert] at hb hb'
    split at hb <;> split at hb'
    · simp_all
    · cases hb
      exact absurd heq.symm (hfresh k' b' hb').2
    · cases hb'
      exact absurd heq (hfresh k b hb).2
    · exact h.gate_inj k b k' b' hb hb' heq
  · intro d hd
    have hok := h.deferred d hd
    refine deferredOk_mono hok rfl ?_ (le_refl _) (le_refl _) (hgate _ (h.deferred_ne d hd key a ha).2)
    simp only [lookup_insert]
    rw [if_neg]
    · exact hok.inactive
    · rintro rfl
      rw [hok.inactive] at ha
      cases ha
  · intro d hd k b hb
    simp only [lookup_insert] at hb
    split at hb
    · cases hb
      exact hdfresh d hd
    · exact h.deferred_ne d hd k b hb

end WellFormedAux

open WellFormedAux in
/-- Every edit keeps the invariant. -/
theorem Edit.wellFormed {U : Unicode} {r r' : IdentityRegistry} {l : EditLabel} (e : Edit U r l r') (h : r.WellFormed U) :
    r'.WellFormed U := by
  cases e with
  | know key known hnew hcan hu =>
    refine wellFormed_frame h (namesOk_know h.names hnew hcan hu) ?_ rfl rfl (fun _ _ _ _ _ => rfl) (Nat.le_succ _)
      (le_refl _) (le_refl _) h.transferId_lt (le_refl _) (fun _ _ => rfl)
    intro k kn hk
    simp only [lookup_insert]
    rw [if_neg, hk]
    rintro rfl
    rw [hnew] at hk
    cases hk
  | burn u g t ht =>
    refine wellFormed_frame h ⟨h.names.canonical, h.names.name_of_known, h.names.known_of_name, ?_⟩ (fun _ _ hk => hk) rfl rfl
      (fun _ _ _ _ _ => rfl) (Nat.le_add_right _ _) (Nat.le_add_right _ _) (Nat.le_add_right _ _) ht (le_refl _)
      (fun _ _ => rfl)
    intro v k hv
    exact lt_of_lt_of_le (h.names.userNo_lt v k hv) (Nat.le_add_right _ _)
  | login key known session sourceIp epoch hk hs hna hnd => exact wellFormed_login h hk hs hna hnd
  | grant key a p ha hnt ho hgen hu hip =>
    have hok := h.active key a ha
    refine wellFormed_modify h ha rfl rfl rfl ⟨rfl, rfl, rfl⟩ rfl rfl rfl rfl ⟨le_refl _, h.transferId_lt⟩ (fun _ _ => rfl) ?_
    refine ⟨hok.known, hok.generation_pos, hok.generation_lt, hok.gate_lt, hok.bound, ?_, ?_, hok.opened⟩
    · intro q hq
      cases hq
      refine ⟨hgen, hu, hip, fun s hs => ?_⟩
      have hs : a.owner = some s := hs
      rw [ho] at hs
      exact (Option.some.inj hs).symm
    · intro t ht
      have ht : a.transferInProgress = some t := ht
      rw [hnt] at ht
      cases ht
  | freeze key a ha hp hopen ht =>
    have hok := h.active key a ha
    refine wellFormed_modify h ha rfl rfl rfl ⟨rfl, rfl, rfl⟩ rfl rfl rfl rfl ⟨Nat.le_succ _, ht⟩ ?_ ?_
    · intro id hid
      show (r.setGate _ _).gate id = _
      rw [gate_setGate, if_neg hid]
    · refine ⟨hok.known, hok.generation_pos, hok.generation_lt, hok.gate_lt, hok.bound, hok.permit, ?_, ?_⟩
      · intro t ht'
        cases ht'
        refine ⟨?_, Nat.ne_of_gt h.transferId_pos, Nat.lt_succ_self _, hp⟩
        show ((r.setGate _ _).gate a.operationGate).state = _
        rw [gate_setGate, if_pos rfl]
      · intro ht'
        cases ht'
  | reopen key a t ha hta =>
    have hok := h.active key a ha
    refine wellFormed_modify h ha rfl rfl rfl ⟨rfl, rfl, rfl⟩ rfl rfl rfl rfl ⟨le_refl _, h.transferId_lt⟩ ?_ ?_
    · intro id hid
      show (r.setGate _ _).gate id = _
      rw [gate_setGate, if_neg hid]
    · refine ⟨hok.known, hok.generation_pos, hok.generation_lt, hok.gate_lt, hok.bound, hok.permit, ?_, ?_⟩
      · intro t' ht'
        cases ht'
      · intro _
        show ((r.setGate _ _).gate a.operationGate).state = _
        rw [gate_setGate, if_pos rfl]
  | make epoch =>
    refine wellFormed_frame h ⟨h.names.canonical, h.names.name_of_known, h.names.known_of_name, h.names.userNo_lt⟩
      (fun _ _ hk => hk) rfl rfl (fun _ _ _ _ _ => rfl) (le_refl _) (Nat.le_succ _) (le_refl _) h.transferId_lt
      (Nat.le_succ _) ?_
    intro id hid
    show ((r.gates.alloc _).gate id).state = _
    rw [GateArena.gate_alloc, if_neg (Nat.ne_of_lt hid)]
    rfl
  | admission key a ha =>
    refine wellFormed_frame h ⟨h.names.canonical, h.names.name_of_known, h.names.known_of_name, h.names.userNo_lt⟩
      (fun _ _ hk => hk) rfl rfl (fun _ _ _ _ _ => rfl) (le_refl _) (le_refl _) (le_refl _) h.transferId_lt
      (le_refl _) ?_
    intro id _
    rw [gate_setGate]
    split
    · rename_i hid
      rw [hid]
    · rfl
  | unbind session hown =>
    refine wellFormed_frame h ⟨h.names.canonical, h.names.name_of_known, h.names.known_of_name, h.names.userNo_lt⟩
      (fun _ _ hk => hk) rfl rfl ?_ (le_refl _) (le_refl _) (le_refl _) h.transferId_lt (le_refl _) (fun _ _ => rfl)
    intro k a s ha ho
    show (r.sessionBindings.erase session).lookup s = _
    rw [lookup_erase, if_neg]
    rintro rfl
    exact hown k a ha ho
  | disown key a ha hp =>
    have hok := h.active key a ha
    refine wellFormed_modify h ha rfl rfl rfl ⟨rfl, rfl, rfl⟩ rfl rfl rfl rfl ⟨le_refl _, h.transferId_lt⟩ (fun _ _ => rfl) ?_
    refine ⟨hok.known, hok.generation_pos, hok.generation_lt, hok.gate_lt, ?_, ?_, hok.frozen, hok.opened⟩
    · intro s hs
      cases hs
    · intro p hp'
      obtain ⟨h1, h2, h3, -⟩ := hok.permit p hp'
      refine ⟨h1, h2, h3, fun s hs => ?_⟩
      cases hs
  | expire key a ha hnt =>
    have hok := h.active key a ha
    refine wellFormed_modify h ha rfl rfl rfl ⟨rfl, rfl, rfl⟩ rfl rfl rfl rfl ⟨le_refl _, h.transferId_lt⟩ (fun _ _ => rfl) ?_
    refine ⟨hok.known, hok.generation_pos, hok.generation_lt, hok.gate_lt, hok.bound, ?_, ?_, hok.opened⟩
    · intro p hp
      cases hp
    · intro t ht
      have ht : a.transferInProgress = some t := ht
      rw [hnt] at ht
      cases ht
  | defer key a ha => exact wellFormed_defer h ha
  | retire pre post d hd hc => exact wellFormed_retire h hd
  | publish key a t binding next epoch ha hta hc hs hnick huser hpos hlt hfresh hdfresh hnext hopen hcount =>
    exact wellFormed_publish h ha hs hnick huser hpos hlt hfresh hdfresh hnext hopen

end IdentityRegistry

end P5136
