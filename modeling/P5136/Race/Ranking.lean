import P5136.World.Errors

/-!
# Rankings and results

The ranking that a settlement freezes, the rewards it plans from that, and the packets that tell the result once every reward
is durable.
-/

namespace P5136

open Checks

/-- `FINAL_STAGE_TICK_LEAD`. -/
def finalStageTickLead : Nat := 6000

/-- `TEAM_POINTS_BY_RANK`. -/
def teamPointsByRank : List Int := [10, 8, 6, 5, 4, 3, 2, 1]

/-- The finish time of a racer that did not finish: the largest 32-bit number. -/
def noFinishTime : Nat := 2 ^ 32 - 1

def raceTeamFromWire (team : Nat) : Except RaceError RoomTeam :=
  if team = 1 then .ok .red else if team = 2 then .ok .blue else .error (.invalidFrozenTeam team)

/-! ## The ranking -/

/-- A racer with its finish time, for the ranking. -/
structure RankedRacer where
  finishTime : Nat
  playerId : Int
  team : Nat
deriving DecidableEq

/-- The order of a ranking: by time, then by player id. -/
def RankedRacer.before (a b : RankedRacer) : Bool :=
  a.finishTime < b.finishTime || (a.finishTime = b.finishTime && a.playerId ≤ b.playerId)

/-- The racers of a roster with their finish times, in the order of the ranking. -/
def rankedRacers (frozen : FrozenRaceRoster) (finishTimes : FiniteMap Int Nat) : List RankedRacer :=
  ((frozen.racers.map (fun participant => (participant.playerId, participant.team)) ++
      frozen.ais.map (fun participant => (participant.playerId, participant.team))).map (fun racer =>
    { finishTime := (finishTimes.lookup racer.1).getD noFinishTime, playerId := racer.1, team := racer.2 })).mergeSort
    RankedRacer.before

/-- The result of the racer at a rank. -/
def rankedResult (teamMode : Bool) (racerCount rank : Nat) (racer : RankedRacer) :
    Except RaceError (Int × RankedRaceResult) := do
  let team ← (if teamMode then (raceTeamFromWire racer.team).map some else .ok none)
  let points ← (if teamMode ∧ racer.finishTime ≠ noFinishTime then
      orElse teamPointsByRank[rank]? (.invalidSettlementRoster racerCount)
    else .ok 0)
  .ok (racer.playerId, { finishTime := racer.finishTime, rank := rank, team := team, teamPoints := points })

/-- The points of a team. -/
def teamScore (results : List (Int × RankedRaceResult)) (team : RoomTeam) : Int :=
  ((results.filter (fun entry => entry.2.team = some team)).map (·.2.teamPoints)).sum

/-- The team that wins: the better score in a speed race, the team of the first racer in an item race or on a tie. -/
def winningTeam (gameType : Nat) (results : List (Int × RankedRaceResult)) : Except RaceError (Option RoomTeam) := do
  let first ← orElse results.head? (.invalidSettlementRoster 0)
  let firstTeam ← orElse first.2.team (.settlementInvariant "team-mode winner has no frozen team")
  if gameType = 3 then
    .ok (some (if teamScore results .blue < teamScore results .red then .red
      else if teamScore results .red < teamScore results .blue then .blue else firstTeam))
  else if gameType = 4 then .ok (some firstTeam)
  else .error (.settlementInvariant "team-mode ranking has a non-team game type")

def settlementRanking (room : ProtocolRoomState) : Except RaceError SettlementRanking := do
  let frozen ← orElse room.frozenRace (.settlementInvariant "settlement ranking has no frozen race roster")
  let racers := rankedRacers frozen room.raceProgress.finishTimes
  ensure (1 ≤ racers.length ∧ racers.length ≤ roomSlotCount) (.invalidSettlementRoster racers.length)
  let results ← Checks.traverse (fun entry : RankedRacer × Nat =>
    rankedResult room.settings.teamMode racers.length entry.2 entry.1) racers.zipIdx
  let winner ← (if room.settings.teamMode then winningTeam room.settings.gameType results else .ok none)
  .ok
    { winningTeam := winner
      byPlayerId := results.foldl (fun byPlayerId entry => byPlayerId.insert entry.1 entry.2) ∅ }

/-! ## The rewards -/

/-- The planned reward of a racer. `rolls` are the two random numbers that are drawn for it. -/
def plannedReward (U : Unicode) (ranking : SettlementRanking) (humanCount : Nat) (now : Instant) (rolls : Int → Nat × Nat)
    (participant : FrozenRaceParticipant) : Except RaceError RewardPersistenceEntry := do
  let ranked ← orElse (ranking.byPlayerId.lookup participant.playerId) (.invalidSettlementRoster humanCount)
  ensure (0 ≤ ranked.rank) (.invalidSettlementRoster humanCount)
  let proposed ← (timeRewardFromRolls ranked.rank.toNat (rolls participant.playerId).1
    (rolls participant.playerId).2).mapError (fun reason => .rewardSampling participant.playerId reason)
  .ok
    { userNo := participant.identity.userNo
      nickname := participant.nickname
      canonicalNickname := canonicalNicknameKey U participant.nickname
      playerId := participant.playerId
      proposedReward := proposed
      status := .queued now 0 }

def planRewardPersistence (U : Unicode) (room : ProtocolRoomState) (now : Instant) (rolls : Int → Nat × Nat) :
    Except RaceError (SettlementRanking × List RewardPersistenceEntry) := do
  let ranking ← settlementRanking room
  let frozen ← orElse room.frozenRace (.invalidSettlementRoster 0)
  ensure (1 ≤ frozen.racers.length ∧ frozen.racers.length ≤ roomSlotCount)
    (.invalidSettlementRoster frozen.racers.length)
  let rewards ← Checks.traverse (plannedReward U ranking frozen.racers.length now rolls) frozen.racers
  .ok (ranking, rewards)

/-! ## The result packets -/

/-- The result of a human racer. -/
def humanResult (teamMode : Bool) (ranking : SettlementRanking) (participant : FrozenRaceParticipant) :
    Except RaceError HumanRaceResult := do
  let ranked ← orElse (ranking.byPlayerId.lookup participant.playerId)
    (.settlementInvariant "human result is missing from frozen ranking")
  let snapshot ← orElse participant.result
    (.settlementInvariant "human racer has no result admission snapshot")
  let economy ← orElse snapshot.economy.applied? .rewardsNotDurable
  .ok
    { playerId := participant.playerId
      finishTime := ranked.finishTime
      kartId := snapshot.kartId
      rank := ranked.rank
      currentRp := economy.currentRp
      earnedRp := economy.earnedRp
      earnedLucci := economy.earnedLucci
      currentLucci := economy.currentLucci
      team := if teamMode then ranked.team else none
      teamPoints := ranked.teamPoints
      characterId := snapshot.characterId
      clubMarkLogo := snapshot.clubMarkLogo }

/-- The result of an AI. -/
def aiResult (teamMode : Bool) (ranking : SettlementRanking) (participant : FrozenAiRaceParticipant) :
    Except RaceError AiRaceResult := do
  let ranked ← orElse (ranking.byPlayerId.lookup participant.playerId)
    (.settlementInvariant "AI result is missing from frozen ranking")
  .ok
    { playerId := participant.playerId
      finishTime := ranked.finishTime
      kartId := participant.kartId
      rank := ranked.rank
      team := if teamMode then ranked.team else none
      teamPoints := ranked.teamPoints }

def serializeSettlementResult (room : ProtocolRoomState) (ranking : SettlementRanking) : Except RaceError Packet := do
  let frozen ← orElse room.frozenRace (.settlementInvariant "Settling room has no frozen race roster")
  let humans ← Checks.traverse (humanResult room.settings.teamMode ranking) frozen.racers
  let ais ← Checks.traverse (aiResult room.settings.teamMode ranking) frozen.ais
  (serializeGameResult { winningTeam := ranking.winningTeam, humans := humans, ais := ais }).mapError .resultProtocol

/-- `settlement_packets`: the final stage, the next stage and the result. -/
def settlementPackets (room : ProtocolRoomState) (ranking : SettlementRanking) : Except RaceError (List Packet) := do
  let settlement ← orElse room.raceProgress.settlement
    (.settlementInvariant "Settling room has no settlement timing")
  let result ← serializeSettlementResult room ranking
  .ok [.gameControl .finalStage ((settlement.endTick + finalStageTickLead) % 2 ^ 32), .nextStage room.settings.gameType,
    result]

end P5136
