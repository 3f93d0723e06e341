import P5136.Race.RankingLaw
import P5136.World.Loading

/-!
# The course of a room

What a room is for: who sits in it, which race it is in, how far the loading and the settlement of the race are. How packets,
queues and looks change is left out. The steps here are all that may happen to a room; that the commands of the world take no
others is shown elsewhere.
-/

namespace P5136

open FrozenRaceRoster List Function

/-- A participant of a race, without its result. -/
structure Entrant where
  identity : IdentityBinding
  playerId : Int
  observer : Bool
  team : Nat
deriving DecidableEq

/-- A frozen participant as an entrant. -/
def FrozenRaceParticipant.entrant (participant : FrozenRaceParticipant) : Entrant where
  identity := participant.identity
  playerId := participant.playerId
  observer := participant.observer
  team := participant.team

/-- Who takes part in a race. -/
structure RaceField where
  fence : RaceFence
  entrants : List Entrant
  ais : List (Int × Nat)
deriving DecidableEq

/-- A frozen roster as the field of its race. -/
def FrozenRaceRoster.field (roster : FrozenRaceRoster) : RaceField where
  fence := roster.fence
  entrants := roster.participants.map FrozenRaceParticipant.entrant
  ais := roster.ais.map (fun ai => (ai.playerId, ai.team))

namespace RaceField

variable (field : RaceField)

/-- The human racers. -/
def racers : List Entrant := field.entrants.filter (fun entrant => !entrant.observer)

/-- The racers, human and AI, with their teams. -/
def racing : List (Int × Nat) := field.racers.map (fun entrant => (entrant.playerId, entrant.team)) ++ field.ais

/-- The stamps of the participants. -/
def stamps : Finset FrozenParticipantStamp :=
  (field.entrants.map (fun entrant => FrozenParticipantStamp.of entrant.identity)).toFinset

end RaceField

theorem racers_field (roster : FrozenRaceRoster) :
    roster.field.racers = roster.racers.map FrozenRaceParticipant.entrant := by
  unfold RaceField.racers field racers
  rw [filter_map]
  rfl

/-- The field of a roster has its racers. -/
theorem racing_field (roster : FrozenRaceRoster) : roster.field.racing = roster.racing := by
  unfold RaceField.racing racing
  rw [racers_field, map_map]
  rfl

/-- The field of a roster has its stamps. -/
theorem stamps_field (roster : FrozenRaceRoster) : roster.field.stamps = World.rosterStamps roster := by
  unfold RaceField.stamps World.rosterStamps field
  rw [map_map]
  rfl

/-- How far a settlement is: there is none, it awaits its deadline, or it takes no more finishes, with the ranking it keeps. -/
inductive Outcome where
  | none
  | awaiting
  | closed (ranking : Option SettlementRanking)
deriving DecidableEq

/-- The outcome of a finalization. -/
def SettlementFinalization.outcome : SettlementFinalization → Outcome
  | .awaitingDeadline => .awaiting
  | .persisting ranking _ => .closed (some ranking)
  | .ready ranking _ _ => .closed (some ranking)
  | .failed deadLetter => .closed deadLetter.ranking

/-- What a room is for. -/
structure Course where
  gameType : Nat
  seats : MemberId → Option (UserNo × Nat)
  ais : MemberId → Option Nat
  phase : RoomPhase
  fence : Option RaceFence
  field : Option RaceField
  finishTimes : FiniteMap Int Nat
  outcome : Outcome
  handshake : LoadingHandshake

namespace ProtocolRoomState

variable (room : ProtocolRoomState)

/-- The seats of a room: who sits at a member id, and in which team. -/
def seats (id : MemberId) : Option (UserNo × Nat) := (room.membersById id).map (fun member => (member.userNo, member.player.team))

/-- The AIs of a room with their teams. -/
def aiTeams (id : MemberId) : Option Nat := (room.aisById id).map (·.team)

/-- The outcome of a room. -/
def outcome : Outcome :=
  match room.raceProgress.settlement with
  | none => .none
  | some settlement => settlement.finalization.outcome

/-- The course of a room. -/
def course : Course where
  gameType := room.settings.gameType
  seats := room.seats
  ais := room.aiTeams
  phase := room.phase
  fence := room.raceFence
  field := room.frozenRace.map field
  finishTimes := room.raceProgress.finishTimes
  outcome := room.outcome
  handshake := room.loadingHandshake

end ProtocolRoomState

namespace Course

/-! ## Steps -/

/-- An empty room. -/
def fresh (gameType : Nat) : Course where
  gameType := gameType
  seats := fun _ => none
  ais := fun _ => none
  phase := .lobby
  fence := none
  field := none
  finishTimes := ∅
  outcome := .none
  handshake := .dormant

/-- A room back in its lobby. -/
def inLobby (c : Course) : Course :=
  { c with phase := .lobby, fence := none, field := none, finishTimes := ∅, outcome := .none, handshake := .dormant }

/-- A room with another racer at a member id, or none. -/
def withSeat (c : Course) (id : MemberId) (user : Option (UserNo × Nat)) : Course :=
  { c with seats := update c.seats id user }

/-- A room with another AI at a member id, or none. -/
def withAi (c : Course) (id : MemberId) (team : Option Nat) : Course := { c with ais := update c.ais id team }

/-- A member id that nobody has. -/
structure Vacant (c : Course) (id : MemberId) : Prop where
  seat : c.seats id = none
  ai : c.ais id = none

/-- What may happen to a room besides what loads a race. -/
inductive Quiet : Course → Course → Prop where
  /-- A racer enters a room in its lobby. -/
  | entered {c : Course} {id : MemberId} {user : UserNo × Nat} : c.phase = .lobby → c.Vacant id →
      FitsTeam c.gameType user.2 → Quiet c (c.withSeat id (some user))
  /-- A racer leaves. -/
  | left {c : Course} (id : MemberId) : Quiet c (c.withSeat id none)
  /-- A racer changes its team in the lobby. -/
  | moved {c : Course} {id : MemberId} {userNo : UserNo} {team team' : Nat} : c.phase = .lobby →
      c.seats id = some (userNo, team) → FitsTeam c.gameType team' →
      Quiet c (c.withSeat id (some (userNo, team')))
  /-- An AI is added in the lobby. -/
  | aiAdded {c : Course} {id : MemberId} {team : Nat} : c.phase = .lobby → c.Vacant id → FitsTeam c.gameType team →
      Quiet c (c.withAi id (some team))
  /-- An AI is removed in the lobby. -/
  | aiRemoved {c : Course} (id : MemberId) : c.phase = .lobby → Quiet c (c.withAi id none)
  /-- The first finish begins the settlement. -/
  | finishedFirst {c : Course} (id : Int) (time : Nat) : c.phase = .running →
      Quiet c { c with phase := .settling, finishTimes := c.finishTimes.insert id time, outcome := .awaiting }
  /-- A later finish is recorded while the settlement awaits its deadline. -/
  | finishedLater {c : Course} (id : Int) (time : Nat) : c.phase = .settling → (∀ ranking, c.outcome ≠ .closed ranking) →
      Quiet c { c with finishTimes := c.finishTimes.insert id time }
  /-- A race that nobody runs any more settles. -/
  | abandoned {c : Course} : c.phase = .running → Quiet c { c with phase := .settling, outcome := .awaiting }
  /-- The ranking is made. -/
  | planned {c : Course} {ranking : SettlementRanking} : c.outcome = .awaiting →
      (∀ field, c.field = some field → Rankable c.gameType field.racing →
        ranking = rankingOf c.gameType field.racing c.finishTimes) →
      Quiet c { c with outcome := .closed (some ranking) }
  /-- The ranking cannot be made. -/
  | unplanned {c : Course} : c.outcome = .awaiting → Quiet c { c with outcome := .closed none }
  /-- The results are told, and the room goes back to its lobby. -/
  | finalized {c : Course} {ranking : SettlementRanking} : c.outcome = .closed (some ranking) → Quiet c c.inLobby

/-- The roster that a start freezes: of each seat and each AI there is one racer, and there is a human one. -/
structure Freezes (c : Course) (field : RaceField) : Prop where
  racers : ∃ ids : List MemberId, ids.Nodup ∧ ids ≠ [] ∧ (∀ id, id ∈ ids ↔ (c.seats id).isSome) ∧
    Forall₂ (fun id (entrant : Entrant) => entrant.playerId = id.val ∧
      (c.seats id).map Prod.snd = some entrant.team) ids field.racers
  ais : ∃ ids : List MemberId, ids.Nodup ∧ (∀ id, id ∈ ids ↔ (c.ais id).isSome) ∧
    Forall₂ (fun id (ai : Int × Nat) => ai.1 = id.val ∧ c.ais id = some ai.2) ids field.ais

/-- What loads a race. -/
inductive LoadingEvent where
  /-- A race is frozen. -/
  | started (field : RaceField)
  /-- A participant arms the handshake. -/
  | armed (identity : IdentityBinding) (deadline : Instant)
  /-- A participant is ready for the race of an epoch. -/
  | marked (identity : IdentityBinding) (epoch : GlobalRaceEpoch)
  /-- A heartbeat finds these participants there. -/
  | checked (active : Finset FrozenParticipantStamp) (now : Instant)
  /-- The race runs. -/
  | began (now : Instant)
  /-- The race is called off. -/
  | aborted
deriving DecidableEq

/-- How the loading of a race goes on. -/
inductive Loads : LoadingEvent → Course → Course → Prop where
  | started {c : Course} {field : RaceField} : c.phase = .lobby → c.Freezes field →
      Loads (.started field) c
        { c with phase := .loading, fence := some field.fence, field := some field, finishTimes := ∅, outcome := .none,
                 handshake := .dormant }
  | armed {c : Course} {field : RaceField} {identity : IdentityBinding} {deadline : Instant} : c.phase = .loading →
      c.field = some field → identity ∈ field.entrants.map (·.identity) → c.handshake = .dormant →
      Loads (.armed identity deadline) c { c with handshake := .awaiting field.stamps ∅ deadline }
  | marked {c : Course} {field : RaceField} {identity : IdentityBinding} {epoch : GlobalRaceEpoch}
      {expected ready : Finset FrozenParticipantStamp} {deadline : Instant} : c.phase = .loading → c.field = some field →
      c.fence.map (·.raceEpoch) = some epoch → field.fence.raceEpoch = epoch → identity ∈ field.entrants.map (·.identity) →
      c.handshake = .awaiting expected ready deadline → FrozenParticipantStamp.of identity ∈ expected →
      Loads (.marked identity epoch) c
        { c with handshake := .awaiting expected (insert (FrozenParticipantStamp.of identity) ready) deadline }
  | checked {c : Course} {active : Finset FrozenParticipantStamp} {now : Instant} : c.phase = .loading →
      Loads (.checked active now) c { c with handshake := c.handshake.reconciled active now }
  | began {c : Course} {now : Instant} : c.phase = .loading → c.handshake.startDue now = true →
      Loads (.began now) c { c with phase := .running, handshake := .dormant }
  | aborted {c : Course} : c.phase = .loading → Loads .aborted c c.inLobby

/-! ## What holds of every room -/

/-- A field stands for the seats of a race: it can be ranked, has a human racer, and who is still seated is one of its racers. -/
structure Carries (c : Course) (field : RaceField) : Prop where
  rankable : Rankable c.gameType field.racing
  human : field.racers ≠ []
  seated : ∀ id user, c.seats id = some user →
    ∃ entrant ∈ field.racers, entrant.playerId = id.val ∧ entrant.team = user.2

/-- What holds of a room in every run. -/
structure Sound (c : Course) : Prop where
  teams : ∀ id user, c.seats id = some user → FitsTeam c.gameType user.2
  aiTeams : ∀ id team, c.ais id = some team → FitsTeam c.gameType team
  apart : ∀ id user, c.seats id = some user → c.ais id = none
  idle : c.phase = .lobby → c.fence = none ∧ c.field = none
  racing : c.phase ≠ .lobby → ∃ field, c.field = some field ∧ c.fence = some field.fence ∧ c.Carries field
  settling : c.outcome ≠ .none → c.phase = .settling
  loading : c.handshake ≠ .dormant → c.phase = .loading
  ranked : ∀ ranking field, c.outcome = .closed (some ranking) → c.field = some field →
    ranking = rankingOf c.gameType field.racing c.finishTimes

variable {c c' : Course} {id : MemberId} {field : RaceField}

theorem sound_fresh (gameType : Nat) : (fresh gameType).Sound where
  teams := by
    rintro id user ⟨⟩
  aiTeams := by
    rintro id team ⟨⟩
  apart := by
    rintro id user ⟨⟩
  idle := fun _ => ⟨rfl, rfl⟩
  racing := fun h => absurd rfl h
  settling := fun h => absurd rfl h
  loading := fun h => absurd rfl h
  ranked := by
    rintro ranking field ⟨⟩

/-- A room that goes back to its lobby. -/
theorem Sound.inLobby (h : c.Sound) : c.inLobby.Sound where
  teams := h.teams
  aiTeams := h.aiTeams
  apart := h.apart
  idle := fun _ => ⟨rfl, rfl⟩
  racing := fun hphase => absurd rfl hphase
  settling := fun houtcome => absurd rfl houtcome
  loading := fun hhandshake => absurd rfl hhandshake
  ranked := by
    rintro ranking field ⟨⟩

theorem seats_update {seats : MemberId → Option (UserNo × Nat)} {id i : MemberId} {user user' : UserNo × Nat}
    (h : update seats id (some user) i = some user') : i = id ∧ user' = user ∨ i ≠ id ∧ seats i = some user' := by
  rw [update_apply] at h
  by_cases hid : i = id
  · rw [if_pos hid] at h
    exact .inl ⟨hid, (Option.some.inj h).symm⟩
  · rw [if_neg hid] at h
    exact .inr ⟨hid, h⟩

theorem seats_left {seats : MemberId → Option (UserNo × Nat)} {id i : MemberId} {user : UserNo × Nat}
    (h : update seats id none i = some user) : seats i = some user := by
  rw [update_apply] at h
  by_cases hid : i = id
  · rw [if_pos hid] at h
    exact absurd h (by simp)
  · rwa [if_neg hid] at h

/-- New seats in a lobby. -/
theorem Sound.ofSeats (h : c.Sound) (hlobby : c.phase = .lobby) {seats : MemberId → Option (UserNo × Nat)}
    {ais : MemberId → Option Nat} (hteams : ∀ id user, seats id = some user → FitsTeam c.gameType user.2)
    (hais : ∀ id team, ais id = some team → FitsTeam c.gameType team)
    (hapart : ∀ id user, seats id = some user → ais id = none) : Sound { c with seats := seats, ais := ais } where
  teams := hteams
  aiTeams := hais
  apart := hapart
  idle := h.idle
  racing := fun hphase => absurd hlobby hphase
  settling := h.settling
  loading := h.loading
  ranked := h.ranked

/-- A race that goes on with other times and another outcome. -/
theorem Sound.ofSettling (h : c.Sound) (hphase : c.phase = .running ∨ c.phase = .settling) {finishTimes : FiniteMap Int Nat}
    {outcome : Outcome} (hranked : ∀ ranking field, outcome = .closed (some ranking) → c.field = some field →
      ranking = rankingOf c.gameType field.racing finishTimes) :
    Sound { c with phase := .settling, finishTimes := finishTimes, outcome := outcome } where
  teams := h.teams
  aiTeams := h.aiTeams
  apart := h.apart
  idle := by
    rintro ⟨⟩
  racing := by
    intro _
    have hrace : c.phase ≠ .lobby := by
      rcases hphase with hrun | hsettle
      · rw [hrun]
        simp
      · rw [hsettle]
        simp
    obtain ⟨field, hfield, hfence, hcarries⟩ := h.racing hrace
    exact ⟨field, hfield, hfence, hcarries.rankable, hcarries.human, hcarries.seated⟩
  settling := fun _ => rfl
  loading := by
    intro hhandshake
    have hload := h.loading hhandshake
    rcases hphase with hrun | hsettle
    · rw [hrun] at hload
      exact absurd hload (by simp)
    · rw [hsettle] at hload
      exact absurd hload (by simp)
  ranked := hranked

/-- What may happen to a room keeps it sound. -/
theorem Sound.quiet (h : c.Sound) (hstep : Quiet c c') : c'.Sound := by
  cases hstep with
  | entered hlobby hvacant hteam =>
    refine h.ofSeats hlobby ?_ h.aiTeams ?_
    · intro i user' hseat
      rcases seats_update hseat with ⟨rfl, rfl⟩ | ⟨-, hold⟩
      · exact hteam
      · exact h.teams i user' hold
    · intro i user' hseat
      rcases seats_update hseat with ⟨rfl, -⟩ | ⟨-, hold⟩
      · exact hvacant.ai
      · exact h.apart i user' hold
  | left id =>
    refine ⟨fun i user hseat => h.teams i user (seats_left hseat), h.aiTeams, fun i user hseat => h.apart i user (seats_left hseat),
      h.idle, ?_, h.settling, h.loading, h.ranked⟩
    intro hphase
    obtain ⟨field, hfield, hfence, hcarries⟩ := h.racing hphase
    exact ⟨field, hfield, hfence, hcarries.rankable, hcarries.human, fun i user hseat => hcarries.seated i user (seats_left hseat)⟩
  | moved hlobby hseat hteam =>
    refine h.ofSeats hlobby ?_ h.aiTeams ?_
    · intro i user' hnew
      rcases seats_update hnew with ⟨rfl, rfl⟩ | ⟨-, hold⟩
      · exact hteam
      · exact h.teams i user' hold
    · intro i user' hnew
      rcases seats_update hnew with ⟨rfl, -⟩ | ⟨-, hold⟩
      · exact h.apart _ _ hseat
      · exact h.apart i user' hold
  | @aiAdded id team hlobby hvacant hteam =>
    refine h.ofSeats hlobby h.teams ?_ ?_
    · intro i team' hai
      rw [update_apply] at hai
      by_cases hid : i = id
      · rw [if_pos hid] at hai
        exact Option.some.inj hai ▸ hteam
      · rw [if_neg hid] at hai
        exact h.aiTeams i team' hai
    · intro i user hseat
      rw [update_apply, if_neg ?_]
      · exact h.apart i user hseat
      · rintro rfl
        rw [hvacant.seat] at hseat
        exact absurd hseat (by simp)
  | aiRemoved id hlobby =>
    refine h.ofSeats hlobby h.teams ?_ ?_
    · intro i team' hai
      rw [update_apply] at hai
      by_cases hid : i = id
      · rw [if_pos hid] at hai
        exact absurd hai (by simp)
      · rw [if_neg hid] at hai
        exact h.aiTeams i team' hai
    · intro i user hseat
      rw [update_apply]
      by_cases hid : i = id
      · rw [if_pos hid]
      · rw [if_neg hid]
        exact h.apart i user hseat
  | finishedFirst id time hrun =>
    refine h.ofSettling (.inl hrun) ?_
    rintro ranking field ⟨⟩
  | finishedLater id time hsettle hopen =>
    have hsound : Sound { c with phase := .settling, finishTimes := c.finishTimes.insert id time } :=
      h.ofSettling (.inr hsettle) (fun ranking _ hclosed => absurd hclosed (hopen (some ranking)))
    rw [← hsettle] at hsound
    exact hsound
  | abandoned hrun =>
    refine h.ofSettling (.inl hrun) ?_
    rintro ranking field ⟨⟩
  | @planned ranking hawaiting hranking =>
    have hsettle := h.settling (by rw [hawaiting]; simp)
    have hsound : Sound { c with phase := .settling, outcome := .closed (some ranking) } := h.ofSettling (.inr hsettle) (by
      rintro ranking' field ⟨⟩ hfield
      obtain ⟨field', hfield', -, hcarries⟩ := h.racing (by rw [hsettle]; simp)
      obtain rfl := Option.some.inj (hfield.symm.trans hfield')
      exact hranking field hfield hcarries.rankable)
    rw [← hsettle] at hsound
    exact hsound
  | unplanned hawaiting =>
    have hsettle := h.settling (by rw [hawaiting]; simp)
    have hsound : Sound { c with phase := .settling, outcome := .closed none } := h.ofSettling (.inr hsettle) (by
      rintro ranking field ⟨⟩)
    rw [← hsettle] at hsound
    exact hsound
  | finalized _ => exact h.inLobby

/-! ## Frozen races -/

theorem forall₂_left {α β : Type} {R : α → β → Prop} {as : List α} {bs : List β} (h : Forall₂ R as bs) {b : β}
    (hb : b ∈ bs) : ∃ a ∈ as, R a b := by
  induction h with
  | nil => exact absurd hb (by simp)
  | cons hr _ ih =>
    rcases mem_cons.1 hb with rfl | hb
    · exact ⟨_, mem_cons_self .., hr⟩
    · obtain ⟨a, ha, hr'⟩ := ih hb
      exact ⟨a, mem_cons_of_mem _ ha, hr'⟩

theorem forall₂_map_eq {α β γ : Type} {f : α → γ} {g : β → γ} {as : List α} {bs : List β}
    (h : Forall₂ (fun a b => g b = f a) as bs) : bs.map g = as.map f := by
  induction h with
  | nil => rfl
  | cons hr _ ih => rw [map_cons, map_cons, hr, ih]

/-- The number of a member id is between zero and seven. -/
theorem memberId_fits (id : MemberId) : (0 : Int) ≤ id.val ∧ (id.val : Int) < 8 := by
  have := id.isLt
  omega

/-- The roster that a start freezes can be ranked, and carries the seats. -/
theorem Freezes.carries (hfreezes : c.Freezes field) (h : c.Sound) : c.Carries field := by
  obtain ⟨ids, hidsNodup, hidsNe, hids, hracers⟩ := hfreezes.racers
  obtain ⟨aiIds, hnodup, haiIds, hais⟩ := hfreezes.ais
  have hracerIds : field.racers.map (·.playerId) = ids.map (fun id => (id.val : Int)) :=
    forall₂_map_eq (hracers.imp (fun _ _ hr => hr.1))
  have haiIdsEq : field.ais.map Prod.fst = aiIds.map (fun id => (id.val : Int)) :=
    forall₂_map_eq (hais.imp (fun _ _ hr => hr.1))
  have hinj : Injective (fun id : MemberId => (id.val : Int)) := by
    intro a b hab
    exact Fin.ext (Int.ofNat.inj hab)
  have hne : field.racers ≠ [] := by
    intro hnil
    rw [hnil, map_nil] at hracerIds
    exact hidsNe (map_eq_nil_iff.1 hracerIds.symm)
  have hfst : field.racing.map Prod.fst = field.racers.map (·.playerId) ++ field.ais.map Prod.fst := by
    unfold RaceField.racing
    rw [map_append, map_map]
    rfl
  refine ⟨⟨?_, ?_, ?_, ?_⟩, hne, ?_⟩
  · intro hnil
    have hmap := hfst
    rw [hnil, map_nil] at hmap
    exact hne (map_eq_nil_iff.1 (append_eq_nil_iff.1 hmap.symm).1)
  · rw [hfst, hracerIds, haiIdsEq, ← map_append]
    refine Nodup.map hinj (nodup_append.2 ⟨hidsNodup, hnodup, ?_⟩)
    rintro id hid _ hid' rfl
    obtain ⟨user, hseat⟩ := Option.isSome_iff_exists.1 ((hids id).1 hid)
    have hai := (haiIds id).1 hid'
    rw [h.apart id user hseat] at hai
    exact absurd hai (by simp)
  · intro racer hracer
    rcases mem_append.1 hracer with hhuman | hai
    · obtain ⟨entrant, hentrant, rfl⟩ := mem_map.1 hhuman
      obtain ⟨id, -, hid, -⟩ := forall₂_left hracers hentrant
      rw [show ((entrant.playerId, entrant.team) : Int × Nat).1 = entrant.playerId from rfl, hid]
      exact memberId_fits id
    · obtain ⟨id, -, hid, -⟩ := forall₂_left hais hai
      rw [hid]
      exact memberId_fits id
  · intro racer hracer
    rcases mem_append.1 hracer with hhuman | hai
    · obtain ⟨entrant, hentrant, rfl⟩ := mem_map.1 hhuman
      obtain ⟨id, -, -, hseat⟩ := forall₂_left hracers hentrant
      obtain ⟨user, huser, hteam⟩ := Option.map_eq_some_iff.1 hseat
      exact hteam ▸ h.teams id user huser
    · obtain ⟨id, -, -, hteam⟩ := forall₂_left hais hai
      exact h.aiTeams id _ hteam
  · intro id user hseat
    have hid : id ∈ ids := (hids id).2 (by rw [hseat]; rfl)
    obtain ⟨entrant, hentrant, hplayer, huser⟩ := forall₂_left hracers.flip hid
    rw [hseat, Option.map_some] at huser
    exact ⟨entrant, hentrant, hplayer, (Option.some.inj huser).symm⟩

/-- A race that loads with another handshake. -/
theorem Sound.ofHandshake (h : c.Sound) (hphase : c.phase = .loading) (handshake : LoadingHandshake) :
    Sound { c with handshake := handshake } where
  teams := h.teams
  aiTeams := h.aiTeams
  apart := h.apart
  idle := h.idle
  racing := by
    intro hrace
    obtain ⟨field, hfield, hfence, hcarries⟩ := h.racing hrace
    exact ⟨field, hfield, hfence, hcarries.rankable, hcarries.human, hcarries.seated⟩
  settling := h.settling
  loading := fun _ => hphase
  ranked := h.ranked

/-- The loading of a race keeps its room sound. -/
theorem Sound.loads (h : c.Sound) {event : LoadingEvent} (hstep : Loads event c c') : c'.Sound := by
  cases hstep with
  | @started _ field hlobby hfreezes =>
    have hcarries := hfreezes.carries h
    refine ⟨h.teams, h.aiTeams, h.apart, ?_, ?_, ?_, ?_, ?_⟩
    · rintro ⟨⟩
    · intro _
      exact ⟨field, rfl, rfl, hcarries.rankable, hcarries.human, hcarries.seated⟩
    · exact fun houtcome => absurd rfl houtcome
    · exact fun hhandshake => absurd rfl hhandshake
    · rintro ranking field' ⟨⟩
  | armed hphase _ _ _ => exact h.ofHandshake hphase _
  | marked hphase _ _ _ _ _ _ => exact h.ofHandshake hphase _
  | checked hphase => exact h.ofHandshake hphase _
  | began hphase _ =>
    refine ⟨h.teams, h.aiTeams, h.apart, ?_, ?_, ?_, ?_, h.ranked⟩
    · rintro ⟨⟩
    · intro _
      obtain ⟨field, hfield, hfence, hcarries⟩ := h.racing (by rw [hphase]; simp)
      exact ⟨field, hfield, hfence, hcarries.rankable, hcarries.human, hcarries.seated⟩
    · intro houtcome
      have hsettle := h.settling houtcome
      rw [hphase] at hsettle
      exact absurd hsettle (by simp)
    · exact fun hhandshake => absurd rfl hhandshake
  | aborted _ => exact h.inLobby

end Course

end P5136
