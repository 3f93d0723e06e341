import P5136.Identity.Effects

/-!
# What the releasing operations do to the registry

A disconnect, the expiry of permits, the collection of drained releases and the drain at shutdown, as runs of edits with the
identities they released. An identity without an owner always keeps its permit; between the two loops of the expiry sweep that
holds except for the keys the second loop will remove.
-/

namespace P5136

open IdentityOperationGate FiniteMap

/-- The identity that a disconnect released. -/
def DisconnectOutcome.releasedNow : DisconnectOutcome → List ReleasedIdentity
  | .released identity => [identity]
  | _ => []

namespace IdentityRegistry

/-! ## One release -/

/-- What an identity that leaves the active ones becomes, as edits: it waits, and is released at once when it is drained. -/
theorem releaseOrDefer_edits {U : Unicode} {L : Licence} {r : IdentityRegistry} {key : String} {a : ActiveIdentity}
    (ha : r.activeByName.lookup key = some a) :
    (({ r with activeByName := r.activeByName.erase key }).releaseOrDefer key a).1 = true ∧
      Edits U L r [releasedIdentity a] (({ r with activeByName := r.activeByName.erase key }).releaseOrDefer key a).2 ∨
    (({ r with activeByName := r.activeByName.erase key }).releaseOrDefer key a).1 = false ∧
      Edits U L r [] (({ r with activeByName := r.activeByName.erase key }).releaseOrDefer key a).2 := by
  have hdef := Edit.defer (U := U) key a ha
  unfold releaseOrDefer retireDrained
  by_cases hc : (r.gate a.operationGate).activeOperations = 0
  · left
    have hdr : (IdentityRegistry.gate { r with activeByName := r.activeByName.erase key } a.operationGate).isDrained =
        true := decide_eq_true hc
    simp only [hdr, Bool.not_true, Bool.false_eq_true, if_false]
    refine ⟨trivial, ?_⟩
    have hret := Edit.retire (U := U) (r := { r with
      activeByName := r.activeByName.erase key
      deferredReleases := r.deferredReleases ++ [⟨key, releasedIdentity a, a.operationGate⟩] }) r.deferredReleases []
      ⟨key, releasedIdentity a, a.operationGate⟩ rfl hc
    have hrun := Edits.release (Edits.single (L := L) hdef) hret
    simp only [List.append_nil] at hrun
    exact hrun
  · right
    have hdr : (IdentityRegistry.gate { r with activeByName := r.activeByName.erase key } a.operationGate).isDrained =
        false := decide_eq_false hc
    simp only [hdr, Bool.not_false, if_true]
    refine ⟨trivial, ?_⟩
    rw [setGate_self]
    exact Edits.single hdef

/-- An identity leaves the active ones: its gate is reopened when it was frozen, and it is released or waits. -/
def leave (r : IdentityRegistry) (key : String) (a : ActiveIdentity) : Bool × IdentityRegistry :=
  (({ r with activeByName := r.activeByName.erase key }).reopenTransfer a).2.releaseOrDefer key a

/-- Leaving, as edits. -/
theorem leave_edits {U : Unicode} {L : Licence} {r : IdentityRegistry} (h : r.WellFormed U) {key : String}
    {a : ActiveIdentity} (ha : r.activeByName.lookup key = some a) :
    (r.leave key a).1 = true ∧ Edits U L r [releasedIdentity a] (r.leave key a).2 ∨
    (r.leave key a).1 = false ∧ Edits U L r [] (r.leave key a).2 := by
  cases ht : a.transferInProgress with
  | none =>
    have heq : r.leave key a = ({ r with activeByName := r.activeByName.erase key }).releaseOrDefer key a := by
      unfold leave reopenTransfer
      rw [ht]
    rw [heq]
    exact releaseOrDefer_edits ha
  | some t =>
    -- the identity is reopened in place, and then leaves
    have hre := Edit.reopen (U := U) key a t ha ht
    have ha' : (r.activeByName.insert key { a with transferInProgress := none }).lookup key =
        some { a with transferInProgress := none } := by simp
    have hword := ((h.active key a ha).frozen t ht).1
    have heq : r.leave key a = ({ r.setGate a.operationGate { r.gate a.operationGate with
        state := opened } with
        activeByName := (r.activeByName.insert key { a with transferInProgress := none }).erase key }).releaseOrDefer key
          { a with transferInProgress := none } := by
      rw [erase_insert]
      unfold leave reopenTransfer
      rw [ht]
      have hg : (IdentityRegistry.gate { r with activeByName := r.activeByName.erase key } a.operationGate).state = t.get :=
        hword
      simp only [reopenExact, hg, if_true]
      rfl
    rw [heq]
    rcases releaseOrDefer_edits (U := U) (L := L) (r := { r.setGate a.operationGate { r.gate a.operationGate with
        state := opened } with
        activeByName := r.activeByName.insert key { a with transferInProgress := none } }) ha' with ⟨h1, h2⟩ | ⟨h1, h2⟩
    · exact Or.inl ⟨h1, (Edits.single hre).trans h2⟩
    · exact Or.inr ⟨h1, (Edits.single hre).trans h2⟩

/-- A release leaves the active identities. -/
theorem releaseOrDefer_active (r : IdentityRegistry) (key : String) (a : ActiveIdentity) :
    (r.releaseOrDefer key a).2.activeByName = r.activeByName := by
  unfold releaseOrDefer
  split
  · rfl
  · rfl

/-- Leaving touches no session. -/
theorem leave_sessions (r : IdentityRegistry) (bindings : FiniteMap SessionId IdentityBinding) (key : String)
    (a : ActiveIdentity) : ({ r with sessionBindings := bindings }).leave key a =
      ((r.leave key a).1, { (r.leave key a).2 with sessionBindings := bindings }) := by
  have hrel : ∀ r : IdentityRegistry, ({ r with sessionBindings := bindings }).releaseOrDefer key a =
      ((r.releaseOrDefer key a).1, { (r.releaseOrDefer key a).2 with sessionBindings := bindings }) := by
    intro r
    unfold releaseOrDefer
    have hgate : ({ r with sessionBindings := bindings }).gate a.operationGate = r.gate a.operationGate := rfl
    simp only [hgate]
    cases (r.gate a.operationGate).retireDrained with
    | mk retired g =>
      cases retired
      · rfl
      · rfl
  have hre : (({ r with sessionBindings := bindings, activeByName := r.activeByName.erase key }).reopenTransfer a).2 =
      { (({ r with activeByName := r.activeByName.erase key }).reopenTransfer a).2 with sessionBindings := bindings } := by
    unfold reopenTransfer
    cases a.transferInProgress with
    | none => rfl
    | some t => rfl
  exact (congrArg (fun s => IdentityRegistry.releaseOrDefer s key a) hre).trans (hrel _)

/-- Leaving removes the identity from the active ones. -/
theorem leave_active (r : IdentityRegistry) (key : String) (a : ActiveIdentity) :
    (r.leave key a).2.activeByName = r.activeByName.erase key := by
  unfold leave
  rw [releaseOrDefer_active]
  unfold reopenTransfer
  cases a.transferInProgress with
  | none => rfl
  | some t => rfl

/-- Reopening the gate of an active identity succeeds exactly when a transfer has frozen it. -/
theorem reopenTransfer_eq {U : Unicode} {r : IdentityRegistry} (h : r.WellFormed U) {key : String} {a : ActiveIdentity}
    (ha : r.activeByName.lookup key = some a) :
    (a.transferInProgress = none ∧ r.reopenTransfer a = (false, r)) ∨
    ∃ t, a.transferInProgress = some t ∧ r.reopenTransfer a = (true, r.setGate a.operationGate
      { r.gate a.operationGate with state := opened }) := by
  unfold reopenTransfer
  cases ht : a.transferInProgress with
  | none => exact Or.inl ⟨rfl, rfl⟩
  | some t =>
    have hword := ((h.active key a ha).frozen t ht).1
    refine Or.inr ⟨t, rfl, ?_⟩
    simp only [reopenExact, hword, if_true]

/-! ## Disconnecting -/

/-- A disconnect is a run of edits that releases what its outcome says. -/
theorem disconnect_edits {U : Unicode} {r : IdentityRegistry} (h : r.WellFormed U) (session : SessionId) (now : Instant) :
    Edits U (.unbinding (· = session)) r (r.disconnect U session now).1.releasedNow (r.disconnect U session now).2 := by
  -- a session that owns nothing loses its binding
  have hunbind : ∀ (r : IdentityRegistry), (∀ k a, r.activeByName.lookup k = some a → a.owner ≠ some session) →
      ∀ {r₀ : IdentityRegistry} {is : List ReleasedIdentity}, Edits U (.unbinding (· = session)) r₀ is r →
      Edits U (.unbinding (· = session)) r₀ is { r with sessionBindings := r.sessionBindings.erase session } :=
    fun r hown _ _ he => he.silent (Edit.unbind session hown) rfl rfl
  unfold disconnect
  cases hs : r.sessionBindings.lookup session with
  | none => exact Edits.refl r
  | some b =>
    simp only
    -- an identity the session owns has the binding of the session
    have hbound : ∀ k a, r.activeByName.lookup k = some a → a.owner = some session →
        k = canonicalNicknameKey U b.nickname ∧ a.generation = b.generation := by
      intro k a ha ho
      have hb := (h.active k a ha).bound session ho
      rw [hs] at hb
      cases Option.some.inj hb
      exact ⟨(h.canonical_active ha).symm, rfl⟩
    cases ha : r.activeByName.lookup (canonicalNicknameKey U b.nickname) with
    | none =>
      refine hunbind r ?_ (Edits.refl r)
      intro k a hka ho
      rw [(hbound k a hka ho).1, ha] at hka
      cases hka
    | some a =>
      simp only
      split
      · rename_i hno
        refine hunbind r ?_ (Edits.refl r)
        intro k a' hka ho
        obtain ⟨hk, hg⟩ := hbound k a' hka ho
        rw [hk, ha] at hka
        cases hka
        rcases hno with hno | hno
        · exact hno ho
        · exact hno hg
      · rename_i hyes
        obtain ⟨ho, -⟩ := not_or.1 hyes
        have ho := not_not.1 ho
        have hother : ∀ k a', r.activeByName.lookup k = some a' → k ≠ canonicalNicknameKey U b.nickname →
            a'.owner ≠ some session := fun k a' hka hne ho' => hne (hbound k a' hka ho').1
        split
        · -- the permit keeps the identity, without its owner
          rename_i p hp
          have hsome : a.permit.isSome := by
            cases hpa : a.permit with
            | none => simp [hpa] at hp
            | some q => rfl
          refine hunbind _ ?_ (Edits.single (Edit.disown _ a ha hsome))
          intro k a' hka ho'
          simp only [lookup_insert] at hka
          split at hka
          · cases hka
            cases ho'
          · rename_i hne
            exact hother k a' hka hne ho'
        · -- the identity leaves: it is reopened first when it was frozen
          generalize hx : releaseOrDefer _ _ a = x
          obtain rfl := hx.symm.trans
            (leave_sessions r (r.sessionBindings.erase session) (canonicalNicknameKey U b.nickname) a)
          have hses : (r.leave (canonicalNicknameKey U b.nickname) a).2.sessionBindings = r.sessionBindings := by
            have := congrArg (fun y => y.2.sessionBindings)
              (leave_sessions r r.sessionBindings (canonicalNicknameKey U b.nickname) a)
            exact this
          have hnone : ∀ k a', (r.leave (canonicalNicknameKey U b.nickname) a).2.activeByName.lookup k = some a' →
              a'.owner ≠ some session := by
            intro k a' hka
            rw [leave_active, lookup_erase] at hka
            split at hka
            · cases hka
            · rename_i hne
              exact hother k a' hka hne
          rcases leave_edits (L := .unbinding (· = session)) h ha with ⟨h1, h2⟩ | ⟨h1, h2⟩
          · rw [h1, ← hses]
            exact hunbind _ hnone h2
          · rw [h1, ← hses]
            exact hunbind _ hnone h2

/-! ## Permits of identities without an owner -/

/-- An identity without an owner has a permit, except under these keys. -/
def PermittedExcept (keys : List String) (r : IdentityRegistry) : Prop :=
  ∀ k a, r.activeByName.lookup k = some a → a.owner = none → a.permit = none → k ∈ keys

/-- An edit that drops no permit leaves every identity without an owner its permit. -/
theorem Edit.permitted {U : Unicode} {r r' : IdentityRegistry} {l : EditLabel} (e : Edit U r l r') (hl : l ≠ .expired)
    {keys : List String} (h : r.PermittedExcept keys) : r'.PermittedExcept keys := by
  -- an identity changed in place needs its own argument, every other one is as before
  have hinsert : ∀ (key : String) (a' : ActiveIdentity), (a'.owner = none → a'.permit = none → key ∈ keys) →
      ∀ k a, (r.activeByName.insert key a').lookup k = some a → a.owner = none → a.permit = none → k ∈ keys := by
    intro key a' ha' k a hk ho hp
    rw [lookup_insert] at hk
    split at hk
    · rename_i hkk
      cases hk
      exact hkk ▸ ha' ho hp
    · exact h k a hk ho hp
  cases e with
  | know => exact h
  | burn => exact h
  | login key known session sourceIp epoch _ _ _ _ => exact hinsert key _ (fun ho => by cases ho)
  | grant key a p _ _ _ _ _ _ => exact hinsert key _ (fun _ hp => by cases hp)
  | freeze key a ha _ _ _ => exact hinsert key _ (h key a ha)
  | reopen key a t ha _ => exact hinsert key _ (h key a ha)
  | make => exact h
  | admission => exact h
  | unbind => exact h
  | disown key a _ hp =>
    refine hinsert key _ (fun _ hnp => ?_)
    have hnp : a.permit = none := hnp
    rw [hnp] at hp
    cases hp
  | expire => exact absurd rfl hl
  | defer key a ha =>
    intro k b hk ho hp
    rw [lookup_erase] at hk
    split at hk
    · cases hk
    · exact h k b hk ho hp
  | retire => exact h
  | publish key a t binding next epoch _ _ _ _ _ _ _ _ _ _ _ _ _ => exact hinsert key _ (fun ho => by cases ho)

/-- A run in which no permit lapses leaves every identity without an owner its permit. -/
theorem Edits.permitted {U : Unicode} {L : Licence} {r r' : IdentityRegistry} {is : List ReleasedIdentity}
    (h : Edits U L r is r') (hL : ¬L.lapses) {keys : List String} (hp : r.PermittedExcept keys) :
    r'.PermittedExcept keys := by
  induction h with
  | refl => exact hp
  | snoc _ hl he ih =>
    refine he.permitted ?_ ih
    rintro rfl
    exact hL hl

/-! ## The expiry sweep -/

/-- The first loop at one identity: edits that drop its permit when it is due; an identity that is left without owner and
permit is kept for the second loop. -/
theorem expirePermit_edits {U : Unicode} (now : Instant) {keys : List String} {r : IdentityRegistry} (h : r.WellFormed U)
    (hp : r.PermittedExcept keys) (key : String) :
    Edits U .lapsing r [] (expirePermit now (keys, r) key).2 ∧
      (expirePermit now (keys, r) key).2.PermittedExcept (expirePermit now (keys, r) key).1 := by
  unfold expirePermit
  simp only
  cases ha : r.activeByName.lookup key with
  | none => exact ⟨Edits.refl r, hp⟩
  | some a =>
    simp only
    split
    · have hperm : ∀ (r' : IdentityRegistry) (a' : ActiveIdentity), r'.activeByName = r.activeByName.insert key a' →
          a'.owner = a.owner → r'.PermittedExcept (if a.owner.isNone then keys ++ [key] else keys) := by
        intro r' a' hr' ho' k b hk ho hpb
        rw [hr', lookup_insert] at hk
        split at hk
        · rename_i hkk
          cases hk
          have : a.owner.isNone := by rw [← ho', ho]; rfl
          simp [this, hkk]
        · have := hp k b hk ho hpb
          split
          · exact List.mem_append_left _ this
          · exact this
      rcases reopenTransfer_eq h ha with ⟨hnt, he⟩ | ⟨t, ht, he⟩
      · rw [he]
        refine ⟨?_, hperm _ _ rfl rfl⟩
        have hex := Edit.expire (U := U) key a ha hnt
        exact (Edits.refl r).silent hex trivial rfl
      · rw [he]
        refine ⟨?_, hperm _ _ rfl rfl⟩
        have hre := Edit.reopen (U := U) key a t ha ht
        have ha' : (r.activeByName.insert key { a with transferInProgress := none }).lookup key =
            some { a with transferInProgress := none } := by simp
        have hex := Edit.expire (U := U) (r := { r.setGate a.operationGate
          { r.gate a.operationGate with state := opened } with
            activeByName := r.activeByName.insert key { a with transferInProgress := none } }) key _ ha' rfl
        have hrun := (Edits.single (L := .lapsing) hre).silent hex trivial rfl
        rw [AList.insert_insert] at hrun
        exact hrun
    · exact ⟨Edits.refl r, hp⟩

/-- The first loop. -/
theorem foldl_expirePermit_edits {U : Unicode} (now : Instant) (ks : List String) :
    ∀ (keys : List String) {r : IdentityRegistry}, r.WellFormed U → r.PermittedExcept keys →
      Edits U .lapsing r [] (ks.foldl (expirePermit now) (keys, r)).2 ∧
      (ks.foldl (expirePermit now) (keys, r)).2.PermittedExcept (ks.foldl (expirePermit now) (keys, r)).1 := by
  induction ks with
  | nil => exact fun _ _ _ hp => ⟨Edits.refl _, hp⟩
  | cons k ks ih =>
    intro keys r h hp
    obtain ⟨h1, h2⟩ := expirePermit_edits now h hp k
    obtain ⟨h3, h4⟩ := ih (expirePermit now (keys, r) k).1 (h1.wellFormed h) h2
    exact ⟨h1.trans h3, h4⟩

/-- The second loop at one key. -/
theorem expireKey_edits {U : Unicode} (released : List ReleasedIdentity) {r : IdentityRegistry} {key : String}
    {keys : List String} (hp : r.PermittedExcept (key :: keys)) :
    ∃ is, (expireKey (released, r) key).1 = released ++ is ∧ Edits U .lapsing r is (expireKey (released, r) key).2 ∧
      (expireKey (released, r) key).2.PermittedExcept keys := by
  unfold expireKey
  simp only
  cases ha : r.activeByName.lookup key with
  | none =>
    refine ⟨[], (List.append_nil _).symm, Edits.refl r, ?_⟩
    intro k b hk ho hpb
    rcases List.mem_cons.1 (hp k b hk ho hpb) with rfl | hmem
    · rw [ha] at hk
      cases hk
    · exact hmem
  | some a =>
    simp only
    have hleft : ∀ r' : IdentityRegistry, r'.activeByName = r.activeByName.erase key → r'.PermittedExcept keys := by
      intro r' hr' k b hk ho hpb
      rw [hr', lookup_erase] at hk
      split at hk
      · cases hk
      · rename_i hne
        rcases List.mem_cons.1 (hp k b hk ho hpb) with hkk | hmem
        · exact absurd hkk hne
        · exact hmem
    have hact := releaseOrDefer_active { r with activeByName := r.activeByName.erase key } key a
    rcases releaseOrDefer_edits (U := U) (L := .lapsing) ha with ⟨h1, h2⟩ | ⟨h1, h2⟩
    · generalize ({ r with activeByName := r.activeByName.erase key }).releaseOrDefer key a = x at h1 h2 hact
      obtain ⟨b, r'⟩ := x
      simp only at h1 h2 hact
      subst h1
      exact ⟨[releasedIdentity a], rfl, h2, hleft r' hact⟩
    · generalize ({ r with activeByName := r.activeByName.erase key }).releaseOrDefer key a = x at h1 h2 hact
      obtain ⟨b, r'⟩ := x
      simp only at h1 h2 hact
      subst h1
      exact ⟨[], (List.append_nil _).symm, h2, hleft r' hact⟩

/-- The second loop. -/
theorem foldl_expireKey_edits {U : Unicode} (keys : List String) :
    ∀ (released : List ReleasedIdentity) {r : IdentityRegistry}, r.PermittedExcept keys →
      ∃ is, (keys.foldl expireKey (released, r)).1 = released ++ is ∧
        Edits U .lapsing r is (keys.foldl expireKey (released, r)).2 ∧
        (keys.foldl expireKey (released, r)).2.PermittedExcept [] := by
  induction keys with
  | nil => exact fun _ _ hp => ⟨[], (List.append_nil _).symm, Edits.refl _, hp⟩
  | cons k keys ih =>
    intro released r hp
    obtain ⟨is, h1, h2, h3⟩ := expireKey_edits (U := U) released hp
    obtain ⟨js, h4, h5, h6⟩ := ih (expireKey (released, r) k).1 h3
    refine ⟨is ++ js, ?_, h2.trans h5, h6⟩
    rw [← List.append_assoc, ← h1]
    exact h4

/-- The expiry sweep is a run of edits that releases the identities it returns, and leaves every identity without an owner a
permit. -/
theorem expireMigrations_edits {U : Unicode} {r : IdentityRegistry} (h : r.WellFormed U) (hp : r.PermittedExcept [])
    (now : Instant) : Edits U .lapsing r (r.expireMigrations now).1 (r.expireMigrations now).2 ∧
      (r.expireMigrations now).2.PermittedExcept [] := by
  unfold expireMigrations
  obtain ⟨h1, h2⟩ := foldl_expirePermit_edits now r.activeByName.keys [] h hp
  obtain ⟨is, h3, h4, h5⟩ := foldl_expireKey_edits (U := U)
    (r.activeByName.keys.foldl (expirePermit now) ([], r)).1 [] h2
  refine ⟨?_, h5⟩
  have hrun := h1.trans h4
  rw [List.nil_append] at hrun h3
  show Edits U .lapsing r (List.foldl expireKey ([], _) _).1 _
  rw [h3]
  exact hrun

/-! ## Collecting and draining -/

/-- The collection at one deferred release. -/
theorem collectDeferred_edits {U : Unicode} {L : Licence} (released : List ReleasedIdentity) {r : IdentityRegistry}
    {kept : List DeferredRelease} (pending : List DeferredRelease) (d : DeferredRelease) (hk : r.deferredReleases = kept) :
    ∃ is kept', (collectDeferred (released, r) d).1 = released ++ is ∧
      (collectDeferred (released, r) d).2.deferredReleases = kept' ∧
      (collectDeferred (released, r) d).2.activeByName = r.activeByName ∧
      Edits U L { r with deferredReleases := kept ++ d :: pending } is
        { (collectDeferred (released, r) d).2 with deferredReleases := kept' ++ pending } := by
  unfold collectDeferred retireDrained
  by_cases hc : (r.gate d.operationGate).activeOperations = 0
  · have hdr : (r.gate d.operationGate).isDrained = true := decide_eq_true hc
    simp only [hdr, Bool.not_true, Bool.false_eq_true, if_false]
    refine ⟨[d.identity], kept, rfl, hk, rfl, ?_⟩
    have hret := Edit.retire (U := U) (r := { r with deferredReleases := kept ++ d :: pending }) kept pending d rfl hc
    exact Edits.release (Edits.refl _) hret
  · have hdr : (r.gate d.operationGate).isDrained = false := decide_eq_false hc
    simp only [hdr, Bool.not_false, if_true]
    refine ⟨[], kept ++ [d], (List.append_nil _).symm, by rw [hk], rfl, ?_⟩
    rw [setGate_self, List.append_assoc]
    exact Edits.refl _

/-- The collection over the pending releases. -/
theorem foldl_collectDeferred_edits {U : Unicode} {L : Licence} (pending : List DeferredRelease) :
    ∀ (released : List ReleasedIdentity) (r : IdentityRegistry),
      ∃ is, (pending.foldl collectDeferred (released, r)).1 = released ++ is ∧
        (pending.foldl collectDeferred (released, r)).2.activeByName = r.activeByName ∧
        Edits U L { r with deferredReleases := r.deferredReleases ++ pending } is
          (pending.foldl collectDeferred (released, r)).2 := by
  induction pending with
  | nil =>
    intro released r
    refine ⟨[], (List.append_nil _).symm, rfl, ?_⟩
    rw [List.append_nil]
    exact Edits.refl _
  | cons d pending ih =>
    intro released r
    obtain ⟨is, kept', h1, h2, h3, h4⟩ := collectDeferred_edits (U := U) (L := L) (r := r) released pending d rfl
    obtain ⟨js, h5, h6, h7⟩ := ih (collectDeferred (released, r) d).1 (collectDeferred (released, r) d).2
    refine ⟨is ++ js, ?_, h6.trans h3, ?_⟩
    · rw [← List.append_assoc, ← h1]
      exact h5
    · rw [h2] at h7
      exact h4.trans h7

/-- The collection is a run of edits that releases the identities it returns, in some order. -/
theorem collectDrainedReleases_edits {U : Unicode} {L : Licence} (r : IdentityRegistry) :
    ∃ is, (r.collectDrainedReleases).1.Perm is ∧ Edits U L r is r.collectDrainedReleases.2 ∧
      r.collectDrainedReleases.2.activeByName = r.activeByName := by
  unfold collectDrainedReleases
  obtain ⟨is, h1, h2, h3⟩ := foldl_collectDeferred_edits (U := U) (L := L) r.deferredReleases []
    { r with deferredReleases := [] }
  refine ⟨is, ?_, ?_, h2⟩
  · rw [List.nil_append] at h1
    rw [← h1]
    exact List.mergeSort_perm _ _
  · simp only [List.nil_append] at h3
    exact h3

/-- Deferring the active identities one after the other. -/
theorem defer_all_edits {U : Unicode} {L : Licence} (es : List (Σ _ : String, ActiveIdentity)) :
    ∀ {r : IdentityRegistry}, r.activeByName.entries = es →
      Edits U L r [] { r with
        activeByName := ∅
        deferredReleases := r.deferredReleases ++ es.map (fun e => ⟨e.1, releasedIdentity e.2, e.2.operationGate⟩) } := by
  induction es with
  | nil =>
    intro r he
    have hem : r.activeByName = ∅ := AList.ext he
    rw [← hem]
    simp only [List.map_nil, List.append_nil]
    exact Edits.refl r
  | cons e es ih =>
    intro r he
    obtain ⟨k, a⟩ := e
    have hlk : r.activeByName.lookup k = some a := by
      rw [lookup_eq_some_iff, he]
      exact List.mem_cons_self
    have her : (r.activeByName.erase k).entries = es := by
      show List.kerase k r.activeByName.entries = es
      rw [he]
      exact List.kerase_cons_eq rfl
    have hrun := (Edits.single (L := L) (Edit.defer (U := U) k a hlk)).trans (ih (r := { r with
      activeByName := r.activeByName.erase k
      deferredReleases := r.deferredReleases ++ [⟨k, releasedIdentity a, a.operationGate⟩] }) her)
    simp only [List.append_assoc, List.singleton_append] at hrun
    exact hrun

/-- Unbinding the sessions one after the other, when no identity is active. -/
theorem unbind_all_edits {U : Unicode} (es : List (Σ _ : SessionId, IdentityBinding)) :
    ∀ {r : IdentityRegistry}, r.sessionBindings.entries = es → r.activeByName = ∅ →
      Edits U (.unbinding fun _ => True) r [] { r with sessionBindings := ∅ } := by
  induction es with
  | nil =>
    intro r he _
    have hem : r.sessionBindings = ∅ := AList.ext he
    rw [← hem]
    exact Edits.refl r
  | cons e es ih =>
    intro r he hact
    obtain ⟨session, b⟩ := e
    have her : (r.sessionBindings.erase session).entries = es := by
      show List.kerase session r.sessionBindings.entries = es
      rw [he]
      exact List.kerase_cons_eq rfl
    have hun := Edit.unbind (U := U) (r := r) session (by
      intro k a ha
      rw [hact, AList.lookup_empty] at ha
      cases ha)
    exact ((Edits.refl (L := .unbinding fun _ => True) r).silent hun trivial rfl).trans
      (ih (r := { r with sessionBindings := r.sessionBindings.erase session }) her hact)

/-- The drain at shutdown is a run of edits that releases the identities it returns, in some order, and leaves none active. -/
theorem drainActive_edits {U : Unicode} (r : IdentityRegistry) :
    ∃ is, r.drainActive.1.Perm is ∧ Edits U (.unbinding fun _ => True) r is r.drainActive.2 ∧ r.drainActive.2.activeByName = ∅ := by
  unfold drainActive
  obtain ⟨is, h1, h2, h3⟩ := collectDrainedReleases_edits (U := U) (L := .unbinding fun _ => True) { r with
    sessionBindings := ∅
    activeByName := ∅
    deferredReleases := r.deferredReleases ++
      r.activeByName.entries.map (fun e => ⟨e.1, releasedIdentity e.2, e.2.operationGate⟩) }
  refine ⟨is, h1, ?_, h3⟩
  have hdef := defer_all_edits (U := U) (L := .unbinding fun _ => True) r.activeByName.entries (r := r) rfl
  have hun := unbind_all_edits (U := U) r.sessionBindings.entries (r := { r with
    activeByName := ∅
    deferredReleases := r.deferredReleases ++
      r.activeByName.entries.map (fun e => ⟨e.1, releasedIdentity e.2, e.2.operationGate⟩) }) rfl rfl
  exact (hdef.trans hun).trans h2

end IdentityRegistry

end P5136
