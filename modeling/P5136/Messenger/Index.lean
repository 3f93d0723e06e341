import P5136.Messenger.Hub

/-!
# The indexes of the messenger hub

The hub keeps two pairs of maps that must be inverse to each other: the endpoint of a session and the session of an identity,
and the members of a room and the rooms of an identity. Here, what each change of the hub does to them.
-/

namespace P5136

open FiniteMap List Option

/-- The stamps match exactly when all of their parts are equal. -/
theorem identityStampMatches_iff {left right : MessengerIdentity} :
    identityStampMatches left right = true ↔
      left.key = right.key ∧ left.userNo = right.userNo ∧ left.generation = right.generation ∧ left.sourceIp = right.sourceIp := by
  simp [identityStampMatches, and_assoc]

/-- Identities with matching stamps have the same key. -/
theorem key_of_identityStampMatches {left right : MessengerIdentity} (h : identityStampMatches left right = true) :
    left.key = right.key :=
  (identityStampMatches_iff.1 h).1

namespace MessengerHub

/-- The endpoints of the sessions and the sessions of the identities are mutually inverse, and within their limit. -/
structure SessionsIndexed (hub : MessengerHub) : Prop where
  session : ∀ session endpoint, hub.endpointsBySession.lookup session = some endpoint →
    hub.sessionByIdentity.lookup endpoint.identity.key = some session
  endpoint : ∀ key session, hub.sessionByIdentity.lookup key = some session →
    ∃ endpoint, hub.endpointsBySession.lookup session = some endpoint ∧ endpoint.identity.key = key
  bounded : hub.endpointsBySession.size ≤ hub.limits.maxSessions

/-- The index has the room among the rooms of the key. -/
def InIndex (hub : MessengerHub) (key : String) (roomId : MessengerRoomId) : Prop :=
  ∃ ids, hub.roomsByIdentity.lookup key = some ids ∧ (ids.lookup roomId).isSome

/-- The room has a member with the key. -/
def IsMember (hub : MessengerHub) (key : String) (roomId : MessengerRoomId) : Prop :=
  ∃ room, hub.rooms.lookup roomId = some room ∧ key ∈ room.members.map (·.key)

/-- The index of the rooms is exactly the inverse of membership; every room has one or two members with distinct keys; the
limits hold; and the next room is numbered above all rooms. -/
structure RoomsIndexed (hub : MessengerHub) : Prop where
  inverse : ∀ key roomId, hub.InIndex key roomId ↔ hub.IsMember key roomId
  nonempty : ∀ key ids, hub.roomsByIdentity.lookup key = some ids → ids.size ≠ 0
  members : ∀ roomId room, hub.rooms.lookup roomId = some room →
    (room.members.length = 1 ∨ room.members.length = 2) ∧ (room.members.map (·.key)).Nodup
  bounded : hub.rooms.size ≤ hub.limits.maxRooms
  boundedOf : ∀ key, hub.roomCountOf key ≤ hub.limits.maxRoomsPerIdentity
  fresh : ∀ roomId room next, hub.rooms.lookup roomId = some room → hub.nextRoomId = some next → roomId.get < next.get

/-- What the rooms know does not depend on the sessions. -/
theorem RoomsIndexed.congr {hub hub' : MessengerHub} (h : hub.RoomsIndexed) (hrooms : hub'.rooms = hub.rooms)
    (hindex : hub'.roomsByIdentity = hub.roomsByIdentity) (hnext : hub'.nextRoomId = hub.nextRoomId)
    (hlimits : hub'.limits = hub.limits) : hub'.RoomsIndexed := by
  cases hub
  cases hub'
  simp only at hrooms hindex hnext hlimits
  subst hrooms hindex hnext hlimits
  exact ⟨h.inverse, h.nonempty, h.members, h.bounded, h.boundedOf, h.fresh⟩

/-- What the sessions know does not depend on the rooms. -/
theorem SessionsIndexed.congr {hub hub' : MessengerHub} (h : hub.SessionsIndexed)
    (hendpoints : hub'.endpointsBySession = hub.endpointsBySession)
    (hsessions : hub'.sessionByIdentity = hub.sessionByIdentity) (hlimits : hub'.limits = hub.limits) :
    hub'.SessionsIndexed := by
  cases hub
  cases hub'
  simp only at hendpoints hsessions hlimits
  subst hendpoints hsessions hlimits
  exact ⟨h.session, h.endpoint, h.bounded⟩

/-! ## Sessions -/

namespace IndexAux

/-- An endpoint of another key is not the one that an installation replaces, and the other way round. -/
theorem lookup_replaced {hub : MessengerHub} (h : hub.SessionsIndexed) (key : String) (s : MessengerSessionId)
    (e : MessengerEndpoint) :
    ((hub.sessionByIdentity.lookup key).elim hub.endpointsBySession hub.endpointsBySession.erase).lookup s = some e ↔
      hub.endpointsBySession.lookup s = some e ∧ e.identity.key ≠ key := by
  cases hp : hub.sessionByIdentity.lookup key with
  | none =>
    refine ⟨fun he => ⟨he, fun hk => ?_⟩, fun he => he.1⟩
    have := h.session s e he
    rw [hk, hp] at this
    cases this
  | some previous =>
    obtain ⟨e', he', hk'⟩ := h.endpoint _ _ hp
    change AList.lookup s (hub.endpointsBySession.erase previous) = some e ↔ _
    rw [lookup_erase]
    constructor
    · intro he
      split at he
      · cases he
      · rename_i hne
        refine ⟨he, fun hk => hne ?_⟩
        have := h.session s e he
        rw [hk, hp] at this
        exact (some.inj this).symm
    · rintro ⟨he, hk⟩
      rw [if_neg]
      · exact he
      · rintro rfl
        rw [he'] at he
        cases he
        exact hk hk'

/-- After an installation: the new endpoint, and those of other keys. -/
theorem lookup_installEndpoint {hub : MessengerHub} (h : hub.SessionsIndexed) {session : MessengerSessionId}
    {active : MessengerIdentity} {chatType : Nat} (s : MessengerSessionId) (e : MessengerEndpoint) :
    (hub.installEndpoint session active chatType (hub.sessionByIdentity.lookup active.key)).endpointsBySession.lookup s = some e ↔
      (s = session ∧ e = ⟨active, chatType⟩) ∨
        (s ≠ session ∧ hub.endpointsBySession.lookup s = some e ∧ e.identity.key ≠ active.key) := by
  have hr := lookup_replaced h active.key s e
  unfold MessengerHub.installEndpoint
  simp only [lookup_insert]
  by_cases hs : s = session
  · simp [hs, eq_comm]
  · rw [if_neg hs]
    cases hp : hub.sessionByIdentity.lookup active.key with
    | none =>
      rw [hp] at hr
      simp only [hs, false_and, ne_eq, not_false_eq_true, true_and, false_or]
      exact hr
    | some previous =>
      rw [hp] at hr
      simp only [hs, false_and, ne_eq, not_false_eq_true, true_and, false_or]
      exact hr

end IndexAux

/-- Installing the endpoint of a new session, in the place of the one its identity had, within the limit. -/
theorem SessionsIndexed.installEndpoint {hub : MessengerHub} (h : hub.SessionsIndexed) {session : MessengerSessionId}
    {active : MessengerIdentity} (chatType : Nat) (hnew : hub.endpointsBySession.lookup session = none)
    (hroom : hub.sessionByIdentity.lookup active.key = none → hub.endpointsBySession.size < hub.limits.maxSessions) :
    (hub.installEndpoint session active chatType (hub.sessionByIdentity.lookup active.key)).SessionsIndexed := by
  have hsessions : ∀ key, (hub.installEndpoint session active chatType
      (hub.sessionByIdentity.lookup active.key)).sessionByIdentity.lookup key =
        if key = active.key then some session else hub.sessionByIdentity.lookup key :=
    fun key => lookup_insert ..
  constructor
  · intro s e he
    rw [hsessions]
    rcases (IndexAux.lookup_installEndpoint h s e).1 he with ⟨rfl, rfl⟩ | ⟨-, he, hk⟩
    · rw [if_pos rfl]
    · rw [if_neg hk]
      exact h.session s e he
  · intro key s hs
    rw [hsessions] at hs
    split at hs
    · rename_i hk
      cases hs
      exact ⟨⟨active, chatType⟩, (IndexAux.lookup_installEndpoint h _ _).2 (Or.inl ⟨rfl, rfl⟩), hk.symm⟩
    · rename_i hk
      obtain ⟨e, he, rfl⟩ := h.endpoint key s hs
      refine ⟨e, (IndexAux.lookup_installEndpoint h _ _).2 (Or.inr ⟨?_, he, hk⟩), rfl⟩
      rintro rfl
      rw [hnew] at he
      cases he
  · have hb := h.bounded
    unfold MessengerHub.installEndpoint
    simp only [size_insert]
    cases hp : hub.sessionByIdentity.lookup active.key with
    | none =>
      have := hroom hp
      simp only [hnew, isSome_none, Bool.false_eq_true, if_false]
      omega
    | some previous =>
      obtain ⟨e', he', -⟩ := h.endpoint _ _ hp
      have hpos := size_pos (m := hub.endpointsBySession) (k := previous) (by rw [he']; rfl)
      simp only [lookup_erase, hnew, ite_self, isSome_none, Bool.false_eq_true, if_false, size_erase,
        he', isSome_some, if_true]
      omega

/-- Dropping the endpoint of a session, with the session of its identity. -/
theorem SessionsIndexed.dropEndpoint {hub : MessengerHub} (h : hub.SessionsIndexed) {session : MessengerSessionId}
    {endpoint : MessengerEndpoint} (he : hub.endpointsBySession.lookup session = some endpoint) :
    (hub.dropEndpoint session endpoint.identity.key).SessionsIndexed := by
  have hs := h.session session endpoint he
  have hendpoints : ∀ s, (hub.dropEndpoint session endpoint.identity.key).endpointsBySession.lookup s =
      if s = session then none else hub.endpointsBySession.lookup s := fun s => lookup_erase ..
  have hsessions : ∀ key, (hub.dropEndpoint session endpoint.identity.key).sessionByIdentity.lookup key =
      if key = endpoint.identity.key then none else hub.sessionByIdentity.lookup key := by
    intro key
    unfold MessengerHub.dropEndpoint
    rw [if_pos hs]
    exact lookup_erase ..
  constructor
  · intro s e hse
    rw [hendpoints] at hse
    split at hse
    · cases hse
    · rename_i hne
      have hes := h.session s e hse
      rw [hsessions, if_neg, hes]
      intro hk
      rw [hk, hs] at hes
      exact hne (some.inj hes).symm
  · intro key s hks
    rw [hsessions] at hks
    split at hks
    · cases hks
    · rename_i hne
      obtain ⟨e, hse, rfl⟩ := h.endpoint key s hks
      refine ⟨e, ?_, rfl⟩
      rw [hendpoints, if_neg, hse]
      rintro rfl
      rw [he] at hse
      cases hse
      exact hne rfl
  · exact le_trans (size_erase_le _ _) h.bounded

/-- Replacing the identity of an endpoint by one with the same key. -/
theorem SessionsIndexed.advanceEndpoint {hub : MessengerHub} (h : hub.SessionsIndexed) {previous next : MessengerIdentity}
    (hkey : previous.key = next.key) : (hub.advanceEndpoint previous next).1.SessionsIndexed := by
  unfold MessengerHub.advanceEndpoint
  split
  · exact h
  · rename_i session hsession
    split
    · exact h
    · rename_i endpoint hendpoint
      split
      · rename_i hstamp
        have hk : endpoint.identity.key = next.key := (key_of_identityStampMatches hstamp).trans hkey
        constructor
        · intro s e hse
          change AList.lookup s (hub.endpointsBySession.insert session _) = some e at hse
          change hub.sessionByIdentity.lookup e.identity.key = some s
          rw [lookup_insert] at hse
          split at hse
          · rename_i hs
            cases hse
            rw [hs]
            change hub.sessionByIdentity.lookup next.key = some session
            rw [← hk]
            exact h.session session endpoint hendpoint
          · exact h.session s e hse
        · intro key s hks
          change ∃ e, AList.lookup s (hub.endpointsBySession.insert session _) = some e ∧ _
          obtain ⟨e, hse, rfl⟩ := h.endpoint key s hks
          rw [lookup_insert]
          by_cases hs : s = session
          · subst hs
            rw [hendpoint] at hse
            cases hse
            exact ⟨_, by rw [if_pos rfl], hk.symm⟩
          · exact ⟨e, by rw [if_neg hs, hse], rfl⟩
        · change size (hub.endpointsBySession.insert session _) ≤ hub.limits.maxSessions
          rw [size_insert, hendpoint]
          exact h.bounded
      · exact h

/-! ## Rooms -/

namespace IndexAux

/-- Adding a room to the rooms of a key. -/
theorem inIndex_indexRoom (hub : MessengerHub) (key k : String) (roomId i : MessengerRoomId) :
    (hub.indexRoom key roomId).InIndex k i ↔ (k = key ∧ i = roomId) ∨ hub.InIndex k i := by
  unfold InIndex indexRoom
  simp only [lookup_insert]
  by_cases hk : k = key
  · subst hk
    simp only [if_pos, some.injEq, exists_eq_left', true_and, lookup_insert]
    by_cases hi : i = roomId
    · simp [hi]
    · cases hl : hub.roomsByIdentity.lookup k with
      | none => simp [hi]
      | some ids => simp [hi]
  · simp [hk]

/-- Adding a room to the rooms of one key makes its number of rooms one more at most, and changes no other. -/
theorem roomCountOf_indexRoom (hub : MessengerHub) (key k : String) (roomId : MessengerRoomId) :
    (hub.indexRoom key roomId).roomCountOf k ≤ hub.roomCountOf k + if k = key then 1 else 0 := by
  unfold roomCountOf indexRoom
  simp only [lookup_insert]
  by_cases hk : k = key
  · subst hk
    simp only [if_pos, map_some, getD_some, size_insert]
    cases hl : hub.roomsByIdentity.lookup k with
    | none =>
      have h0 : size (∅ : MessengerRoomIds) = 0 := rfl
      simp [h0]
    | some ids =>
      simp only [getD_some, map_some]
      split <;> omega
  · simp [hk]

/-- No key is left with an empty set of rooms. -/
theorem nonempty_indexRoom {hub : MessengerHub} (h : ∀ k ids, hub.roomsByIdentity.lookup k = some ids → ids.size ≠ 0)
    (key : String) (roomId : MessengerRoomId) (k : String) (ids : MessengerRoomIds)
    (hk : (hub.indexRoom key roomId).roomsByIdentity.lookup k = some ids) : ids.size ≠ 0 := by
  unfold indexRoom at hk
  simp only [lookup_insert] at hk
  split at hk
  · cases hk
    have := size_pos (m := ((hub.roomsByIdentity.lookup key).getD ∅).insert roomId ()) (k := roomId) (by simp)
    omega
  · exact h k ids hk

variable (hub : MessengerHub) (roomId : MessengerRoomId)

/-- Indexing a room under the keys of its members. -/
theorem inIndex_foldl (members : List MessengerIdentity) (k : String) (i : MessengerRoomId) :
    (members.foldl (fun hub member => hub.indexRoom member.key roomId) hub).InIndex k i ↔
      (k ∈ members.map (·.key) ∧ i = roomId) ∨ hub.InIndex k i := by
  induction members generalizing hub with
  | nil => simp
  | cons member members ih =>
    rw [foldl_cons, ih, inIndex_indexRoom, map_cons, mem_cons]
    tauto

/-- Indexing a room under distinct keys makes the number of rooms of each one more at most. -/
theorem roomCountOf_foldl (members : List MessengerIdentity) (hnodup : (members.map (·.key)).Nodup) (k : String) :
    (members.foldl (fun hub member => hub.indexRoom member.key roomId) hub).roomCountOf k ≤
      hub.roomCountOf k + if k ∈ members.map (·.key) then 1 else 0 := by
  induction members generalizing hub with
  | nil => simp
  | cons member members ih =>
    rw [map_cons, nodup_cons] at hnodup
    have h1 := ih (hub.indexRoom member.key roomId) hnodup.2
    have h2 := roomCountOf_indexRoom hub member.key k roomId
    rw [foldl_cons]
    by_cases hk : k = member.key
    · subst hk
      rw [if_neg hnodup.1] at h1
      simp only [if_pos, map_cons, mem_cons, true_or] at h2 ⊢
      omega
    · simp only [hk, if_false, map_cons, mem_cons, false_or] at h2 ⊢
      omega

/-- Indexing a room leaves no key with an empty set. -/
theorem nonempty_foldl (h : ∀ k ids, hub.roomsByIdentity.lookup k = some ids → ids.size ≠ 0)
    (members : List MessengerIdentity) (k : String) (ids : MessengerRoomIds)
    (hk : (members.foldl (fun hub member => hub.indexRoom member.key roomId) hub).roomsByIdentity.lookup k = some ids) :
    ids.size ≠ 0 := by
  induction members generalizing hub with
  | nil => exact h k ids hk
  | cons member members ih => exact ih (hub.indexRoom member.key roomId) (nonempty_indexRoom h member.key roomId) hk

/-- Indexing a room changes nothing but the index. -/
theorem foldl_indexRoom (members : List MessengerIdentity) :
    ∃ index, members.foldl (fun hub member => hub.indexRoom member.key roomId) hub = { hub with roomsByIdentity := index } := by
  induction members generalizing hub with
  | nil => exact ⟨hub.roomsByIdentity, rfl⟩
  | cons member members ih =>
    obtain ⟨index, hi⟩ := ih (hub.indexRoom member.key roomId)
    exact ⟨index, hi⟩

end IndexAux

/-- Putting a room changes nothing but the rooms and the index. -/
theorem insertRoom_eq (hub : MessengerHub) (roomId : MessengerRoomId) (members : List MessengerIdentity) :
    ∃ index, hub.insertRoom roomId members =
      { hub with rooms := hub.rooms.insert roomId ⟨members⟩, roomsByIdentity := index } :=
  IndexAux.foldl_indexRoom _ roomId members

/-- A room is a member's of after an insertion when it is the new one, or was before. -/
theorem isMember_insert (hub hub' : MessengerHub) {roomId : MessengerRoomId} {members : List MessengerIdentity}
    (hrooms : hub'.rooms = hub.rooms.insert roomId ⟨members⟩) (k : String) (i : MessengerRoomId) :
    hub'.IsMember k i ↔ if i = roomId then k ∈ members.map (·.key) else hub.IsMember k i := by
  unfold IsMember
  rw [hrooms]
  simp only [lookup_insert]
  split <;> simp

/-- Putting a room of one or two members with distinct keys under a new number, within the limits. -/
theorem RoomsIndexed.insertRoom {hub : MessengerHub} (h : hub.RoomsIndexed) {roomId : MessengerRoomId}
    {members : List MessengerIdentity} (hnew : hub.rooms.lookup roomId = none)
    (hlength : members.length = 1 ∨ members.length = 2) (hnodup : (members.map (·.key)).Nodup)
    (hrooms : hub.rooms.size < hub.limits.maxRooms)
    (hcount : ∀ member ∈ members, hub.roomCountOf member.key < hub.limits.maxRoomsPerIdentity)
    (hnext : ∀ next, hub.nextRoomId = some next → roomId.get < next.get) : (hub.insertRoom roomId members).RoomsIndexed := by
  obtain ⟨index, hi⟩ := insertRoom_eq hub roomId members
  have hmember := isMember_insert hub (hub.insertRoom roomId members) (by rw [hi])
  constructor
  · intro k i
    rw [hmember]
    refine (IndexAux.inIndex_foldl _ roomId members k i).trans ?_
    change (k ∈ members.map (·.key) ∧ i = roomId) ∨ hub.InIndex k i ↔ _
    rw [h.inverse]
    by_cases hir : i = roomId
    · subst hir
      have hno : ¬hub.IsMember k i := by
        rintro ⟨room, hl, -⟩
        rw [hnew] at hl
        cases hl
      simp [hno]
    · simp [hir]
  · intro k ids hk
    exact IndexAux.nonempty_foldl { hub with rooms := hub.rooms.insert roomId ⟨members⟩ } roomId h.nonempty members k ids hk
  · intro i room hl
    rw [hi] at hl
    change AList.lookup i (hub.rooms.insert roomId ⟨members⟩) = some room at hl
    rw [lookup_insert] at hl
    split at hl
    · cases hl
      exact ⟨hlength, hnodup⟩
    · exact h.members i room hl
  · rw [hi]
    change size (hub.rooms.insert roomId ⟨members⟩) ≤ hub.limits.maxRooms
    rw [size_insert, hnew]
    simp only [isSome_none, Bool.false_eq_true, if_false]
    omega
  · intro k
    have hc := IndexAux.roomCountOf_foldl { hub with rooms := hub.rooms.insert roomId ⟨members⟩ } roomId members hnodup k
    have hb := h.boundedOf k
    rw [hi]
    change _ ≤ hub.limits.maxRoomsPerIdentity
    rw [← hi]
    refine le_trans hc ?_
    change hub.roomCountOf k + _ ≤ _
    split
    · rename_i hk
      obtain ⟨member, hm, rfl⟩ := mem_map.1 hk
      exact hcount member hm
    · exact hb
  · intro i room next hl hn
    rw [hi] at hl hn
    change AList.lookup i (hub.rooms.insert roomId ⟨members⟩) = some room at hl
    change hub.nextRoomId = some next at hn
    rw [lookup_insert] at hl
    split at hl
    · rename_i hir
      rw [hir]
      exact hnext next hn
    · exact h.fresh i room next hl hn

/-- The number that is allocated is new, and below the next one. -/
theorem RoomsIndexed.allocate {hub : MessengerHub} (h : hub.RoomsIndexed) {value : MessengerRoomId}
    (hvalue : hub.nextRoomId = some value) :
    ({ hub with nextRoomId := value.next } : MessengerHub).RoomsIndexed ∧ hub.rooms.lookup value = none ∧
      ∀ next, value.next = some next → value.get < next.get := by
  have hnext : ∀ next, value.next = some next → value.get < next.get := by
    intro next hn
    rw [NonZero.next_eq_some.1 hn]
    omega
  refine ⟨⟨h.inverse, h.nonempty, h.members, h.bounded, h.boundedOf, ?_⟩, ?_, hnext⟩
  · intro i room next hl hn
    have h1 := h.fresh i room value hl hvalue
    have h2 := hnext next hn
    omega
  · cases hl : hub.rooms.lookup value with
    | none => rfl
    | some room =>
      have := h.fresh value room value hl hvalue
      omega

/-- After the removal of a room from the rooms of a key. -/
theorem inIndex_removeInverseRoom (hub : MessengerHub) (key k : String) (roomId i : MessengerRoomId) :
    (hub.removeInverseRoom key roomId).InIndex k i ↔ hub.InIndex k i ∧ ¬(k = key ∧ i = roomId) := by
  unfold removeInverseRoom
  cases hl : hub.roomsByIdentity.lookup key with
  | none =>
    simp only
    constructor
    · rintro ⟨ids, hids, hi⟩
      refine ⟨⟨ids, hids, hi⟩, ?_⟩
      rintro ⟨rfl, -⟩
      rw [hl] at hids
      cases hids
    · exact fun h => h.1
  | some rooms =>
    have hlookup : ∀ j, (AList.lookup j (AList.erase roomId rooms)).isSome ↔ (rooms.lookup j).isSome ∧ j ≠ roomId := by
      intro j
      rw [lookup_erase]
      by_cases hj : j = roomId <;> simp [hj]
    have hold : ∀ j, hub.InIndex key j ↔ (rooms.lookup j).isSome := by
      intro j
      simp [InIndex, hl]
    simp only
    by_cases hk : k = key
    · subst hk
      rw [hold]
      split
      · rename_i hempty
        have hnone := size_eq_zero_iff.1 hempty
        have hi := hlookup i
        rw [hnone i] at hi
        simp only [InIndex, lookup_erase, if_pos, true_and]
        simp only [isSome_none, Bool.false_eq_true, false_iff] at hi
        simp [hi]
      · simp only [InIndex, lookup_insert, if_pos, some.injEq, exists_eq_left', hlookup, true_and]
    · split <;> simp [InIndex, hk]

/-- The removal changes nothing but the index, leaves no key with an empty set, and gives no key more rooms. -/
theorem removeInverseRoom_index (hub : MessengerHub) (h : ∀ k ids, hub.roomsByIdentity.lookup k = some ids → ids.size ≠ 0)
    (key : String) (roomId : MessengerRoomId) :
    ∃ index, hub.removeInverseRoom key roomId = { hub with roomsByIdentity := index } ∧
      (∀ k ids, index.lookup k = some ids → ids.size ≠ 0) ∧
      ∀ k, (hub.removeInverseRoom key roomId).roomCountOf k ≤ hub.roomCountOf k := by
  unfold removeInverseRoom
  cases hl : hub.roomsByIdentity.lookup key with
  | none => exact ⟨hub.roomsByIdentity, rfl, h, fun k => le_refl _⟩
  | some rooms =>
    have hle := size_erase_le rooms roomId
    simp only
    split
    · refine ⟨hub.roomsByIdentity.erase key, rfl, ?_, ?_⟩
      · intro k ids hk
        rw [lookup_erase] at hk
        split at hk
        · cases hk
        · exact h k ids hk
      · intro k
        unfold roomCountOf
        simp only [lookup_erase]
        split <;> simp
    · rename_i hne
      refine ⟨hub.roomsByIdentity.insert key (AList.erase roomId rooms), rfl, ?_, ?_⟩
      · intro k ids hk
        rw [lookup_insert] at hk
        split at hk
        · cases hk
          exact hne
        · exact h k ids hk
      · intro k
        unfold roomCountOf
        simp only [lookup_insert]
        split
        · rename_i hk
          subst hk
          simpa [hl] using hle
        · exact le_refl _

/-- The removal of a room from the rooms of a key changes nothing but the index. -/
theorem removeInverseRoom_eq (hub : MessengerHub) (key : String) (roomId : MessengerRoomId) :
    ∃ index, hub.removeInverseRoom key roomId = { hub with roomsByIdentity := index } := by
  unfold removeInverseRoom
  split
  · exact ⟨hub.roomsByIdentity, rfl⟩
  · simp only
    split
    · exact ⟨_, rfl⟩
    · exact ⟨_, rfl⟩

/-- The rooms when a member has left one: that room with the remaining members, when there are any, and the others. -/
theorem lookup_leaveRoom (hub : MessengerHub) (key : String) (roomId : MessengerRoomId) (remaining : List MessengerIdentity)
    (i : MessengerRoomId) (r : MessengerRoom) :
    (hub.leaveRoom key roomId remaining).rooms.lookup i = some r ↔
      (i = roomId ∧ r = ⟨remaining⟩ ∧ remaining ≠ []) ∨ (i ≠ roomId ∧ hub.rooms.lookup i = some r) := by
  obtain ⟨index, hindex⟩ := removeInverseRoom_eq { hub with rooms := hub.rooms.insert roomId ⟨remaining⟩ } key roomId
  unfold leaveRoom
  simp only [hindex]
  by_cases hempty : remaining = []
  · subst hempty
    simp only [isEmpty_nil, if_true, lookup_erase, lookup_insert]
    by_cases hi : i = roomId <;> simp [hi]
  · have he : remaining.isEmpty = false := by simpa using hempty
    simp only [he, Bool.false_eq_true, if_false, lookup_insert]
    by_cases hi : i = roomId
    · simp [hi, hempty, eq_comm]
    · simp [hi]

/-- Leaving a room changes neither the limits nor the numbers of the rooms, and the index as the removal does. -/
theorem leaveRoom_shape (hub : MessengerHub) (key : String) (roomId : MessengerRoomId) (remaining : List MessengerIdentity) :
    (hub.leaveRoom key roomId remaining).roomsByIdentity =
        (removeInverseRoom { hub with rooms := hub.rooms.insert roomId ⟨remaining⟩ } key roomId).roomsByIdentity ∧
      (hub.leaveRoom key roomId remaining).limits = hub.limits ∧
      (hub.leaveRoom key roomId remaining).nextRoomId = hub.nextRoomId := by
  obtain ⟨index, hindex⟩ := removeInverseRoom_eq { hub with rooms := hub.rooms.insert roomId ⟨remaining⟩ } key roomId
  unfold leaveRoom
  simp only [hindex]
  split <;> exact ⟨rfl, rfl, rfl⟩

/-- A member leaves a room: the room keeps the members with another key, and goes when there are none. -/
theorem RoomsIndexed.leaveRoom {hub : MessengerHub} (h : hub.RoomsIndexed) {roomId : MessengerRoomId} {room : MessengerRoom}
    (hroom : hub.rooms.lookup roomId = some room) (key : String) :
    (hub.leaveRoom key roomId (room.members.filter (fun member => member.key ≠ key))).RoomsIndexed := by
  generalize hremaining : room.members.filter (fun member => member.key ≠ key) = remaining
  obtain ⟨hlength, hnodup⟩ := h.members roomId room hroom
  have hsub : remaining.Sublist room.members := by
    rw [← hremaining]
    exact filter_sublist
  have hkeys : ∀ k, k ∈ remaining.map (·.key) ↔ k ∈ room.members.map (·.key) ∧ k ≠ key := by
    intro k
    rw [← hremaining]
    simp only [List.mem_map, mem_filter, decide_eq_true_eq]
    constructor
    · rintro ⟨m, ⟨hm, hne⟩, rfl⟩
      exact ⟨⟨m, hm, rfl⟩, hne⟩
    · rintro ⟨⟨m, hm, rfl⟩, hne⟩
      exact ⟨m, ⟨hm, hne⟩, rfl⟩
  obtain ⟨index, hindex, hnonempty, hcount⟩ :=
    removeInverseRoom_index { hub with rooms := hub.rooms.insert roomId ⟨remaining⟩ } h.nonempty key roomId
  have hin := inIndex_removeInverseRoom { hub with rooms := hub.rooms.insert roomId ⟨remaining⟩ } key
  have hrooms := lookup_leaveRoom hub key roomId remaining
  have hshape := leaveRoom_shape hub key roomId remaining
  rw [hindex] at hshape
  have hmember : ∀ k i, (hub.leaveRoom key roomId remaining).IsMember k i ↔ hub.IsMember k i ∧ ¬(k = key ∧ i = roomId) := by
    intro k i
    unfold IsMember
    simp only [hrooms]
    constructor
    · rintro ⟨r, ⟨rfl, rfl, -⟩ | ⟨hi, hr⟩, hk⟩
      · obtain ⟨hk, hne⟩ := (hkeys k).1 hk
        exact ⟨⟨room, hroom, hk⟩, fun hc => hne hc.1⟩
      · exact ⟨⟨r, hr, hk⟩, fun hc => hi hc.2⟩
    · rintro ⟨⟨r, hr, hk⟩, hne⟩
      by_cases hi : i = roomId
      · subst hi
        rw [hroom] at hr
        cases hr
        have hk' := (hkeys k).2 ⟨hk, fun hc => hne ⟨hc, rfl⟩⟩
        refine ⟨⟨remaining⟩, Or.inl ⟨rfl, rfl, ?_⟩, hk'⟩
        rintro rfl
        cases hk'
      · exact ⟨r, Or.inr ⟨hi, hr⟩, hk⟩
  constructor
  · intro k i
    rw [hmember, ← h.inverse]
    refine Iff.trans ?_ (hin k roomId i)
    unfold InIndex
    rw [hshape.1, hindex]
  · intro k ids hk
    rw [hshape.1] at hk
    exact hnonempty k ids hk
  · intro i r hr
    rcases (hrooms i r).1 hr with ⟨-, rfl, hne⟩ | ⟨-, hr⟩
    · refine ⟨?_, (hsub.map _).nodup hnodup⟩
      have h1 := hsub.length_le
      have h2 := length_pos_iff.2 hne
      simp only
      omega
    · exact h.members i r hr
  · rw [hshape.2.1]
    refine le_trans ?_ h.bounded
    refine size_le_of_lookup ?_
    intro i hi
    obtain ⟨r, hr⟩ := isSome_iff_exists.1 hi
    rcases (hrooms i r).1 hr with ⟨rfl, -, -⟩ | ⟨-, hr⟩
    · rw [hroom]
      rfl
    · rw [hr]
      rfl
  · intro k
    rw [hshape.2.1]
    refine le_trans ?_ (h.boundedOf k)
    have hk := hcount k
    unfold roomCountOf at hk ⊢
    rw [hindex] at hk
    rw [hshape.1]
    exact hk
  · intro i r next hr hn
    rw [hshape.2.2] at hn
    rcases (hrooms i r).1 hr with ⟨rfl, -, -⟩ | ⟨-, hr⟩
    · exact h.fresh i room next hroom hn
    · exact h.fresh i r next hr hn

/-! ## Identities -/

namespace IndexAux

/-- Among members with distinct keys, those that do not carry the stamp are those with another key, once one of them does. -/
theorem filter_stamp {members : List MessengerIdentity} (hnodup : (members.map (·.key)).Nodup) {identity : MessengerIdentity}
    (h : ∃ member ∈ members, identityStampMatches member identity = true) :
    members.filter (fun member => ¬identityStampMatches member identity) =
      members.filter (fun member => member.key ≠ identity.key) := by
  obtain ⟨carrier, hc, hstamp⟩ := h
  refine filter_congr fun member hm => ?_
  have hiff : identityStampMatches member identity = true ↔ member.key = identity.key := by
    refine ⟨key_of_identityStampMatches, fun hk => ?_⟩
    have := inj_on_of_nodup_map hnodup hm hc (hk.trans (key_of_identityStampMatches hstamp).symm)
    rw [this]
    exact hstamp
  simp only [hiff, ne_eq]

/-- Among members with distinct keys, erasing the first that carries the stamp leaves those with another key. -/
theorem eraseIdx_stamp {members : List MessengerIdentity} (hnodup : (members.map (·.key)).Nodup) {identity : MessengerIdentity}
    {index : Nat} (h : members.findIdx? (fun member => identityStampMatches member identity) = some index) :
    members.eraseIdx index = members.filter (fun member => member.key ≠ identity.key) := by
  obtain ⟨hlt, hstamp, -⟩ := findIdx?_eq_some_iff_getElem.1 h
  have hk := key_of_identityStampMatches hstamp
  have hnd : members.Nodup := hnodup.of_map
  rw [← Nodup.erase_getElem hnd index hlt, Nodup.erase_eq_filter hnd]
  refine filter_congr fun member hm => ?_
  have hiff : member = members[index] ↔ member.key = identity.key := by
    constructor
    · rintro rfl
      exact hk
    · intro hkm
      exact inj_on_of_nodup_map hnodup hm (getElem_mem hlt) (hkm.trans hk.symm)
  rw [Bool.eq_iff_iff]
  simp [hiff]

end IndexAux

/-- Moving a membership to the next generation changes no key. -/
theorem RoomsIndexed.advanceMember {previous next : MessengerIdentity} (hkey : previous.key = next.key)
    {progress : MessengerHub × Nat} (h : progress.1.RoomsIndexed) (roomId : MessengerRoomId) :
    (MessengerHub.advanceMember previous next progress roomId).1.RoomsIndexed := by
  unfold MessengerHub.advanceMember
  split
  · exact h
  · rename_i room hroom
    split
    · exact h
    · rename_i index hindex
      obtain ⟨hlt, hstamp, -⟩ := findIdx?_eq_some_iff_getElem.1 hindex
      have hk : (room.members[index]).key = next.key := (key_of_identityStampMatches hstamp).trans hkey
      have hkeys : (room.members.set index next).map (·.key) = room.members.map (·.key) := by
        have hlt' : index < (room.members.map (·.key)).length := by simpa using hlt
        have hget : (room.members.map (·.key))[index] = next.key := by
          rw [getElem_map]
          exact hk
        rw [map_set, ← hget, set_getElem_self]
      obtain ⟨hlength, hnodup⟩ := h.members roomId room hroom
      have hmember := isMember_insert progress.1
        { progress.1 with rooms := progress.1.rooms.insert roomId ⟨room.members.set index next⟩ } rfl
      refine ⟨?_, h.nonempty, ?_, ?_, h.boundedOf, ?_⟩
      · intro k i
        refine (h.inverse k i).trans ?_
        rw [hmember, hkeys]
        split
        · rename_i hi
          subst hi
          simp [IsMember, hroom]
        · rfl
      · intro i r hr
        change AList.lookup i (progress.1.rooms.insert roomId _) = some r at hr
        rw [lookup_insert] at hr
        split at hr
        · cases hr
          rw [hkeys, length_set]
          exact ⟨hlength, hnodup⟩
        · exact h.members i r hr
      · change size (progress.1.rooms.insert roomId _) ≤ _
        rw [size_insert, hroom]
        exact h.bounded
      · intro i r n hr hn
        change AList.lookup i (progress.1.rooms.insert roomId _) = some r at hr
        rw [lookup_insert] at hr
        split at hr
        · rename_i hi
          subst hi
          exact h.fresh i room n hroom hn
        · exact h.fresh i r n hr hn

/-- Removing an identity from one room. -/
theorem RoomsIndexed.removeFromRoom {identity : MessengerIdentity} {progress : RoomRemoval}
    (h : progress.hub.RoomsIndexed) (roomId : MessengerRoomId) :
    (MessengerHub.removeFromRoom identity progress roomId).hub.RoomsIndexed := by
  unfold MessengerHub.removeFromRoom
  split
  · exact h
  · rename_i room hroom
    simp only
    split
    · exact h
    · rename_i hremoved
      have hsome : ∃ member ∈ room.members, identityStampMatches member identity = true := by
        by_contra hno
        push Not at hno
        refine hremoved ?_
        rw [filter_eq_self.2 (fun member hm => by simpa using hno member hm), Nat.sub_self]
      change (progress.hub.leaveRoom identity.key roomId _).RoomsIndexed
      rw [IndexAux.filter_stamp (h.members roomId room hroom).2 hsome]
      exact h.leaveRoom hroom identity.key

/-- What a list of steps keeps. -/
theorem foldl_keeps {α β : Type} {P : β → Prop} {f : β → α → β} (hf : ∀ b a, P b → P (f b a)) (l : List α) {b : β} (h : P b) :
    P (l.foldl f b) := by
  induction l generalizing b with
  | nil => exact h
  | cons a l ih => exact ih (hf b a h)

/-- Removing an identity from its rooms. -/
theorem RoomsIndexed.removeIdentityFromRooms {hub : MessengerHub} (h : hub.RoomsIndexed) (identity : MessengerIdentity) :
    (hub.removeIdentityFromRooms identity).hub.RoomsIndexed :=
  foldl_keeps (P := fun progress : RoomRemoval => progress.hub.RoomsIndexed) (fun _ roomId hp => hp.removeFromRoom roomId) _ h

/-- Moving the memberships of an identity to its next generation. -/
theorem RoomsIndexed.advanceMembers {hub : MessengerHub} (h : hub.RoomsIndexed) {previous next : MessengerIdentity}
    (hkey : previous.key = next.key) (roomIds : List MessengerRoomId) (n : Nat) :
    (roomIds.foldl (MessengerHub.advanceMember previous next) (hub, n)).1.RoomsIndexed :=
  foldl_keeps (P := fun progress : MessengerHub × Nat => progress.1.RoomsIndexed)
    (fun _ roomId hp => RoomsIndexed.advanceMember hkey hp roomId) _ h

/-! ## What each part of the hub does not touch -/

/-- What calls about rooms leave as it is: the sessions and the limits. -/
def SameSessions (hub hub' : MessengerHub) : Prop :=
  hub'.endpointsBySession = hub.endpointsBySession ∧ hub'.sessionByIdentity = hub.sessionByIdentity ∧ hub'.limits = hub.limits

/-- What calls about sessions leave as it is: the rooms, their index and their numbers, and the limits. -/
def SameRooms (hub hub' : MessengerHub) : Prop :=
  hub'.rooms = hub.rooms ∧ hub'.roomsByIdentity = hub.roomsByIdentity ∧ hub'.nextRoomId = hub.nextRoomId ∧
    hub'.limits = hub.limits

theorem SameSessions.trans {a b c : MessengerHub} (h : a.SameSessions b) (h' : b.SameSessions c) : a.SameSessions c :=
  ⟨h'.1.trans h.1, h'.2.1.trans h.2.1, h'.2.2.trans h.2.2⟩

theorem SameSessions.indexed {hub hub' : MessengerHub} (h : hub.SameSessions hub') (hs : hub.SessionsIndexed) :
    hub'.SessionsIndexed :=
  hs.congr h.1 h.2.1 h.2.2

theorem SameRooms.indexed {hub hub' : MessengerHub} (h : hub.SameRooms hub') (hr : hub.RoomsIndexed) : hub'.RoomsIndexed :=
  hr.congr h.1 h.2.1 h.2.2.1 h.2.2.2

theorem sameSessions_insertRoom (hub : MessengerHub) (roomId : MessengerRoomId) (members : List MessengerIdentity) :
    hub.SameSessions (hub.insertRoom roomId members) := by
  obtain ⟨index, hi⟩ := insertRoom_eq hub roomId members
  rw [hi]
  exact ⟨rfl, rfl, rfl⟩

theorem sameSessions_leaveRoom (hub : MessengerHub) (key : String) (roomId : MessengerRoomId)
    (remaining : List MessengerIdentity) : hub.SameSessions (hub.leaveRoom key roomId remaining) := by
  have hinverse : ∀ hub : MessengerHub, hub.SameSessions (hub.removeInverseRoom key roomId) := by
    intro hub
    unfold removeInverseRoom
    split
    · exact ⟨rfl, rfl, rfl⟩
    · simp only
      split <;> exact ⟨rfl, rfl, rfl⟩
  unfold leaveRoom
  simp only
  split
  · exact hinverse { hub with rooms := hub.rooms.insert roomId ⟨remaining⟩ }
  · exact hinverse { hub with rooms := hub.rooms.insert roomId ⟨remaining⟩ }

theorem sameSessions_removeIdentityFromRooms (hub : MessengerHub) (identity : MessengerIdentity) :
    hub.SameSessions (hub.removeIdentityFromRooms identity).hub := by
  refine foldl_keeps (P := fun progress : RoomRemoval => hub.SameSessions progress.hub) ?_ _ ⟨rfl, rfl, rfl⟩
  intro progress roomId h
  unfold removeFromRoom
  split
  · exact h
  · simp only
    split
    · exact h
    · exact h.trans (sameSessions_leaveRoom ..)

theorem sameSessions_advanceMembers (hub : MessengerHub) (previous next : MessengerIdentity) (roomIds : List MessengerRoomId)
    (n : Nat) : hub.SameSessions (roomIds.foldl (advanceMember previous next) (hub, n)).1 := by
  refine foldl_keeps (P := fun progress : MessengerHub × Nat => hub.SameSessions progress.1) ?_ _ ⟨rfl, rfl, rfl⟩
  intro progress roomId h
  unfold advanceMember
  split
  · exact h
  · split
    · exact h
    · exact h.trans ⟨rfl, rfl, rfl⟩

theorem sameRooms_advanceEndpoint (hub : MessengerHub) (previous next : MessengerIdentity) :
    hub.SameRooms (hub.advanceEndpoint previous next).1 := by
  unfold advanceEndpoint
  split
  · exact ⟨rfl, rfl, rfl, rfl⟩
  · split
    · exact ⟨rfl, rfl, rfl, rfl⟩
    · split <;> exact ⟨rfl, rfl, rfl, rfl⟩

end MessengerHub

end P5136
