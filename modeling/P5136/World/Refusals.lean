import P5136.World.Atomic

/-!
# What a refused command leaves

A lobby or race command that fails leaves the world as it was. Only the start of a race is different: unless a queue was missing,
its session is told that not all are ready, whatever the reason was.
-/

namespace P5136

namespace World

open Act

variable {U : Unicode} {w w' : World} {session : SessionId}

/-- The packets that refuse a start. -/
def startRefusal : OutboundBatch := [.startRoomReply .notAllReady]

/-- A session was told something, and nothing else happened. -/
structure Notified (session : SessionId) (batch : OutboundBatch) (w w' : World) : Prop where
  /-- Everything but the sessions is as it was. -/
  rest : w' = { w with sessions := w'.sessions }
  /-- The queue of the session has one batch more, and everything else of the sessions is as it was. -/
  sessions : ∀ other, w'.sessions.lookup other = (w.sessions.lookup other).map fun state =>
    if other = session then { state with outbound := state.outbound.map (·.push batch) } else state

theorem notified_published (w : World) (session : SessionId) (batch : OutboundBatch) :
    Notified session batch w (w.published [(session, batch)]) where
  rest := rfl
  sessions other := by
    change (pushTo w.sessions (session, batch)).lookup other = _
    unfold pushTo
    by_cases h : other = session
    · subst h
      cases hs : w.sessions.lookup other with
      | none => simp [hs]
      | some state => simp
    · cases hs : w.sessions.lookup session with
      | none => simp [h]
      | some state => simp [h]

/-- A start that fails is told to its session, unless a queue was missing. -/
theorem startCommand_error {identity : IdentityBinding} {plan : StartRoomPlan} {draw : Nat} {e : Fault LobbyError}
    (h : startCommand session identity plan draw w = (.error e, w')) :
    w' = w ∨ ∃ error, e = .error error ∧ (∀ s, error ≠ .outboundUnavailable s) ∧ Notified session startRefusal w w' := by
  unfold startCommand recover at h
  rcases hstart : startRoom identity plan draw w with ⟨r, t⟩
  rw [hstart] at h
  cases r with
  | ok outcome => cases h
  | error refused =>
    obtain rfl := atomic_startRoom identity plan draw w refused t hstart
    cases refused with
    | panic message =>
      cases h
      exact .inl rfl
    | error error =>
      by_cases hqueue : ∃ s, error = .outboundUnavailable s
      · obtain ⟨s, rfl⟩ := hqueue
        cases h
        exact .inl rfl
      · have hother : ∀ s, error ≠ .outboundUnavailable s := fun s heq => hqueue ⟨s, heq⟩
        have hrejected : (publishStartRejection session >>= fun _ => Act.fail (.error error) : LobbyAct LobbyCommandOutcome) t =
            (.error e, w') := by
          cases error with
          | outboundUnavailable s => exact absurd rfl (hother s)
          | _ => exact h
        rcases bind_eq_error.1 hrejected with hreserve | ⟨_, u, hpublished, hfailed⟩
        · -- the refusal itself finds no queue
          refine .inl ?_
          rcases bind_eq_error.1 hreserve with hnone | ⟨_, s, -, hpublish⟩
          · exact (readOnly_reserveOutbound _).eq_of hnone
          · cases hpublish
        · obtain ⟨_, s, hreserved, hpublish⟩ := bind_eq_ok.1 hpublished
          obtain rfl := (readOnly_reserveOutbound _).eq_of hreserved
          obtain rfl := modify_eq_ok.1 hpublish
          cases hfailed
          exact .inr ⟨error, rfl, hother, notified_published _ session startRefusal⟩

/-- What a refused lobby or race command leaves. -/
structure RefusalLaw (U : Unicode) (w : World) (session : SessionId) : Prop where
  /-- A refused lobby command changes nothing, or it is a start that is told to be refused. -/
  lobby : ∀ payload e w', lobbyCommand U session payload w = (.error e, w') →
    w' = w ∨ ∃ plan draw error, payload = .startRoom plan draw ∧ e = .error (.lobby error) ∧
      (∀ s, error ≠ .outboundUnavailable s) ∧ Notified session startRefusal w w'
  /-- A refused race command changes nothing. -/
  race : ∀ items payload now tick e w', raceCommand U items session payload now tick w = (.error e, w') → w' = w

/-- Refused commands obey their law, in every world. -/
theorem commands_refused_cleanly (U : Unicode) (w : World) (session : SessionId) : RefusalLaw U w session where
  lobby payload e w' h := by
    rcases bind_eq_error.1 h with hidentity | ⟨identity, u, hidentity, hdispatch⟩
    · exact .inl ((readOnly_authorizedIdentity U session).eq_of hidentity)
    · obtain rfl := (readOnly_authorizedIdentity U session).eq_of hidentity
      have hstate : (lobbyDispatch U session identity payload u).2 = w' := congrArg Prod.snd hdispatch
      have hresult : (lobbyDispatch U session identity payload u).1.mapError (liftFault .lobby) = .error e :=
        congrArg Prod.fst hdispatch
      rcases hcall : lobbyDispatch U session identity payload u with ⟨r, t⟩
      rw [hcall] at hstate hresult
      obtain rfl : t = w' := hstate
      cases r with
      | ok outcome => cases hresult
      | error refused =>
        obtain rfl : liftFault .lobby refused = e := Except.error.inj hresult
        by_cases hstart : ∃ plan draw, payload = .startRoom plan draw
        · obtain ⟨plan, draw, rfl⟩ := hstart
          have hstarted : startCommand session identity (u.livePlan plan) draw u = (.error refused, t) := hcall
          rcases startCommand_error hstarted with hsame | ⟨error, rfl, hother, hnotified⟩
          · exact .inl hsame
          · exact .inr ⟨plan, draw, error, rfl, rfl, hother, hnotified⟩
        · exact .inl (atomic_lobbyDispatch U session identity payload (fun plan draw heq => hstart ⟨plan, draw, heq⟩) u refused t
            hcall)
  race items payload now tick e w' h := atomic_raceCommand U items session payload now tick w e w' h

namespace RefusalsAux

/-- A player in a room, with a session. -/
def inside (room : ProtocolRoomState) : World :=
  { loneWorld with
    identities := { loneWorld.identities with sessionBindings := AList.insert ⟨1⟩ loneIdentity ∅ }
    protocolRooms := AList.insert ⟨1⟩ room ∅ }

/-- Items that are never given. -/
def noItems : ItemService where
  selectAward _ _ _ _ _ := .error .weightTotalOverflow
  startItem _ _ := none

/-- A start without a track to choose. -/
def start : LobbyCommandPayload := .startRoom ⟨[], none, 0, 4096⟩ 0

/-- A pickup. -/
def pickUp : RaceCommandPayload :=
  .gameSlot ⟨List.replicate 64 0, 0, 0, .synthesizeItemPickup, .itemPickup ⟨.type1, 3, 100, 1⟩⟩

theorem start_refused : (lobbyCommand .ascii ⟨1⟩ start (inside loneRoom)).1 = .error (.error (.lobby .missingTrackCandidates)) := by
  decide +kernel

theorem pickUp_refused : (raceCommand .ascii noItems ⟨1⟩ pickUp 0 0 (inside (loneRace 2))).1 =
    .error (.error (.race (.itemProbability .weightTotalOverflow))) := by
  decide +kernel

end RefusalsAux

open RefusalsAux in
/-- A start that finds no track is told to its session; a pickup that gets past the bucket and finds no item changes nothing. -/
theorem commands_refused_cleanly_start :
    Notified ⟨1⟩ startRefusal (inside loneRoom) (lobbyCommand .ascii ⟨1⟩ start (inside loneRoom)).2 ∧
      (raceCommand .ascii noItems ⟨1⟩ pickUp 0 0 (inside (loneRace 2))).1 =
        .error (.error (.race (.itemProbability .weightTotalOverflow))) ∧
      (raceCommand .ascii noItems ⟨1⟩ pickUp 0 0 (inside (loneRace 2))).2 = inside (loneRace 2) := by
  have hstart := commands_refused_cleanly .ascii (inside loneRoom) ⟨1⟩
  have hpickUp := commands_refused_cleanly .ascii (inside (loneRace 2)) ⟨1⟩
  refine ⟨?_, pickUp_refused, hpickUp.race noItems pickUp 0 0 _ _ (Prod.ext pickUp_refused rfl)⟩
  rcases hstart.lobby start _ _ (Prod.ext start_refused rfl) with hsame | ⟨-, -, -, -, -, -, hnotified⟩
  · -- the session has been told something
    exact absurd (congrArg (fun w => (w.queue ⟨1⟩).map fun queue => queue.sent.length) hsame) (by decide +kernel)
  · exact hnotified

end World

end P5136
