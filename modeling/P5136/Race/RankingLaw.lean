import Mathlib.Data.Prod.Lex
import P5136.Lib.Ranked
import P5136.Race.Ranking

/-!
# What a ranking is

The racers of a race in the order of their times, and of their ids where times agree; the points of their teams, and the team
that wins. The largest 32-bit number is the time of a racer that did not finish, also when it was recorded.
-/

namespace P5136

open Checks

/-! ## The racers -/

/-- The game types that are played in teams. -/
def isTeamMode (gameType : Nat) : Bool := gameType = 3 || gameType = 4

theorem teamMode_eq (settings : RoomSettings) : settings.teamMode = isTeamMode settings.gameType := rfl

/-- The racers of a roster, human and AI, with their teams. -/
def FrozenRaceRoster.racing (roster : FrozenRaceRoster) : List (Int × Nat) :=
  roster.racers.map (fun participant => (participant.playerId, participant.team)) ++
    roster.ais.map (fun participant => (participant.playerId, participant.team))

/-- A team that a racer may have: one of the two in team races, any otherwise. -/
def FitsTeam (gameType team : Nat) : Prop := isTeamMode gameType = true → team = 1 ∨ team = 2

/-- Racers that can be ranked: there is one, their ids are distinct and in range, and in team races each is in a team. -/
structure Rankable (gameType : Nat) (racing : List (Int × Nat)) : Prop where
  nonempty : racing ≠ []
  nodup : (racing.map Prod.fst).Nodup
  ids : ∀ racer ∈ racing, 0 ≤ racer.1 ∧ racer.1 < 8
  teams : ∀ racer ∈ racing, FitsTeam gameType racer.2

/-- A racer with its time. -/
def timed (finishTimes : FiniteMap Int Nat) (racer : Int × Nat) : RankedRacer where
  finishTime := (finishTimes.lookup racer.1).getD noFinishTime
  playerId := racer.1
  team := racer.2

/-- A racer has finished: a time is recorded that is not the one of those who did not. -/
def Finished (finishTimes : FiniteMap Int Nat) (id : Int) : Prop := ∃ time, finishTimes.lookup id = some time ∧ time ≠ noFinishTime

/-- Eight ids are the most. -/
theorem Rankable.length_le {gameType : Nat} {racing : List (Int × Nat)} (h : Rankable gameType racing) : racing.length ≤ 8 := by
  have hsub : racing.map Prod.fst ⊆ (List.range 8).map Int.ofNat := by
    intro id hid
    obtain ⟨racer, hracer, rfl⟩ := List.mem_map.1 hid
    obtain ⟨hlow, hhigh⟩ := h.ids racer hracer
    exact List.mem_map.2 ⟨racer.1.toNat, List.mem_range.2 (by omega), by simp [hlow]⟩
  have hlength := (List.subperm_of_subset h.nodup hsub).length_le
  simpa using hlength

/-- The order of the racers does not matter. -/
theorem Rankable.perm {gameType : Nat} {racing racing' : List (Int × Nat)} (h : Rankable gameType racing)
    (hperm : racing.Perm racing') : Rankable gameType racing' where
  nonempty := by
    intro hnil
    rw [hnil] at hperm
    exact h.nonempty hperm.eq_nil
  nodup := (hperm.map Prod.fst).nodup_iff.1 h.nodup
  ids := fun racer hracer => h.ids racer (hperm.mem_iff.2 hracer)
  teams := fun racer hracer => h.teams racer (hperm.mem_iff.2 hracer)

/-! ## The order of a race -/

/-- What racers are ordered by. -/
def RankedRacer.key (racer : RankedRacer) : ℕ ×ₗ ℤ := toLex (racer.finishTime, racer.playerId)

theorem RankedRacer.before_eq : RankedRacer.before = fun a b => decide (a.key ≤ b.key) := by
  funext a b
  rw [Bool.eq_iff_iff]
  simp [before, key, Prod.Lex.toLex_le_toLex]

theorem RankedRacer.key_lt {a b : RankedRacer} :
    a.key < b.key ↔ a.finishTime < b.finishTime ∨ a.finishTime = b.finishTime ∧ a.playerId < b.playerId := by
  simp [key, Prod.Lex.toLex_lt_toLex]

/-- The racers of a race in the order of the ranking. -/
def raceOrder (racing : List (Int × Nat)) (finishTimes : FiniteMap Int Nat) : List RankedRacer :=
  Ranked.sort RankedRacer.key (racing.map (timed finishTimes))

theorem rankedRacers_eq (frozen : FrozenRaceRoster) (finishTimes : FiniteMap Int Nat) :
    rankedRacers frozen finishTimes = raceOrder frozen.racing finishTimes := by
  rw [rankedRacers, RankedRacer.before_eq]
  rfl

section Order

variable {gameType : Nat} {racing : List (Int × Nat)} (finishTimes : FiniteMap Int Nat)

theorem raceOrder_perm (racing : List (Int × Nat)) : (raceOrder racing finishTimes).Perm (racing.map (timed finishTimes)) :=
  Ranked.perm _ _

theorem length_raceOrder (racing : List (Int × Nat)) : (raceOrder racing finishTimes).length = racing.length := by
  rw [(raceOrder_perm finishTimes racing).length_eq, List.length_map]

theorem playerIds_raceOrder (racing : List (Int × Nat)) :
    ((raceOrder racing finishTimes).map (·.playerId)).Perm (racing.map Prod.fst) := by
  have hperm := (raceOrder_perm finishTimes racing).map (·.playerId)
  rw [List.map_map] at hperm
  exact hperm

theorem Rankable.nodup_raceOrder (h : Rankable gameType racing) : ((raceOrder racing finishTimes).map (·.playerId)).Nodup :=
  (playerIds_raceOrder finishTimes racing).nodup_iff.2 h.nodup

/-- The keys of the racers are distinct. -/
theorem Rankable.nodup_keys (h : Rankable gameType racing) : ((racing.map (timed finishTimes)).map RankedRacer.key).Nodup := by
  refine List.Nodup.of_map (fun key => (ofLex key).2) ?_
  rw [List.map_map, List.map_map]
  exact h.nodup

/-- The keys go up strictly. -/
theorem Rankable.raceOrder_pairwise (h : Rankable gameType racing) :
    (raceOrder racing finishTimes).Pairwise (fun a b => a.key < b.key) := Ranked.pairwise_lt _ (h.nodup_keys finishTimes)

/-- Each racer of the order is one of the race, with its time. -/
theorem mem_raceOrder {racing : List (Int × Nat)} {racer : RankedRacer} :
    racer ∈ raceOrder racing finishTimes ↔ ∃ source ∈ racing, timed finishTimes source = racer := by
  rw [(raceOrder_perm finishTimes racing).mem_iff, List.mem_map]

/-- The order does not depend on the one the racers are listed in. -/
theorem Rankable.raceOrder_congr {racing' : List (Int × Nat)} (h : Rankable gameType racing) (hperm : racing.Perm racing') :
    raceOrder racing finishTimes = raceOrder racing' finishTimes :=
  Ranked.sort_congr _ (hperm.map _) (h.nodup_keys finishTimes)

end Order

/-! ## Results -/

/-- The team that a wire number names. -/
def wireTeam (team : Nat) : Option RoomTeam := if team = 1 then some .red else if team = 2 then some .blue else none

/-- The points of a racer at a rank: those of the rank, or none when it did not finish. -/
def pointsAt (rank : Nat) (racer : RankedRacer) : Int :=
  if racer.finishTime = noFinishTime then 0 else teamPointsByRank[rank]?.getD 0

/-- The result of a racer at a rank. -/
def resultAt (teamMode : Bool) (rank : Nat) (racer : RankedRacer) : RankedRaceResult where
  finishTime := racer.finishTime
  rank := rank
  team := if teamMode then wireTeam racer.team else none
  teamPoints := if teamMode then pointsAt rank racer else 0

/-- The points of a team. -/
def teamSum (order : List RankedRacer) (team : RoomTeam) : Int :=
  ((order.zipIdx.filter (fun entry => wireTeam entry.1.team = some team)).map (fun entry => pointsAt entry.2 entry.1)).sum

/-- The team of the first racer. -/
def firstTeam (order : List RankedRacer) : Option RoomTeam := order.head?.bind (fun racer => wireTeam racer.team)

/-- The results of the racers of an order. -/
def resultsOf (teamMode : Bool) (order : List RankedRacer) : List (Int × RankedRaceResult) :=
  order.zipIdx.map (fun entry => (entry.1.playerId, resultAt teamMode entry.2 entry.1))

/-- The team that wins: in a speed race that with more points, and on a tie or in an item race that of the first racer. -/
def winnerOf (gameType : Nat) (order : List RankedRacer) : Option RoomTeam :=
  if gameType = 3 then
    if teamSum order .blue < teamSum order .red then some .red
    else if teamSum order .red < teamSum order .blue then some .blue
    else firstTeam order
  else if gameType = 4 then firstTeam order
  else none

/-- The ranking of a race. -/
def rankingOf (gameType : Nat) (racing : List (Int × Nat)) (finishTimes : FiniteMap Int Nat) : SettlementRanking where
  winningTeam := winnerOf gameType (raceOrder racing finishTimes)
  byPlayerId := (resultsOf (isTeamMode gameType) (raceOrder racing finishTimes)).foldl
    (fun byPlayerId entry => byPlayerId.insert entry.1 entry.2) ∅

theorem rankedResult_eq {teamMode : Bool} {racerCount rank : Nat} {racer : RankedRacer} (hrank : rank < 8)
    (hteam : teamMode = true → racer.team = 1 ∨ racer.team = 2) :
    rankedResult teamMode racerCount rank racer = .ok (racer.playerId, resultAt teamMode rank racer) := by
  have hpoints : teamPointsByRank[rank]? = some (teamPointsByRank[rank]?.getD 0) := by
    have hlength : rank < teamPointsByRank.length := hrank
    rw [List.getElem?_eq_getElem hlength]
    rfl
  unfold rankedResult resultAt
  rcases teamMode with _ | _
  · rfl
  · by_cases hfinish : racer.finishTime = noFinishTime
    · rcases hteam rfl with h1 | h2
      · simp [raceTeamFromWire, wireTeam, h1, pointsAt, hfinish, bind, Except.bind, Except.map]
      · simp [raceTeamFromWire, wireTeam, h2, pointsAt, hfinish, bind, Except.bind, Except.map]
    · rcases hteam rfl with h1 | h2
      · rw [hpoints]
        simp [raceTeamFromWire, wireTeam, h1, pointsAt, hfinish, bind, Except.bind, Except.map, orElse]
      · rw [hpoints]
        simp [raceTeamFromWire, wireTeam, h2, pointsAt, hfinish, bind, Except.bind, Except.map, orElse]

theorem teamScore_resultsOf (order : List RankedRacer) (team : RoomTeam) :
    teamScore (resultsOf true order) team = teamSum order team := by
  unfold teamScore teamSum resultsOf
  rw [List.filter_map, List.map_map]
  rfl

theorem winnerOf_of_not_teamMode {gameType : Nat} (h : isTeamMode gameType = false) (order : List RankedRacer) :
    winnerOf gameType order = none := by
  simp only [isTeamMode, Bool.or_eq_false_iff, decide_eq_false_iff_not] at h
  rw [winnerOf, if_neg h.1, if_neg h.2]

theorem winningTeam_resultsOf {gameType : Nat} (h : isTeamMode gameType = true) {order : List RankedRacer} (hsome : order ≠ [])
    (hteams : ∀ racer ∈ order, racer.team = 1 ∨ racer.team = 2) :
    winningTeam gameType (resultsOf true order) = .ok (winnerOf gameType order) := by
  obtain ⟨first, rest, rfl⟩ := List.exists_cons_of_ne_nil hsome
  obtain ⟨team, hteam⟩ : ∃ team, wireTeam first.team = some team := by
    rcases hteams first (List.mem_cons_self ..) with h1 | h2
    · exact ⟨.red, by simp [wireTeam, h1]⟩
    · exact ⟨.blue, by simp [wireTeam, h2]⟩
  have hfirst : orElse (resultsOf true (first :: rest)).head? (RaceError.invalidSettlementRoster 0) =
      .ok (first.playerId, resultAt true 0 first) := rfl
  have hfirstTeam : firstTeam (first :: rest) = some team := hteam
  have hresultTeam : (resultAt true 0 first).team = some team := hteam
  unfold winningTeam winnerOf
  rw [hfirst]
  refine bind_eq_ok.2 ⟨_, rfl, ?_⟩
  rw [hresultTeam]
  refine bind_eq_ok.2 ⟨team, rfl, ?_⟩
  rw [teamScore_resultsOf, teamScore_resultsOf, hfirstTeam]
  by_cases hspeed : gameType = 3
  · rw [if_pos hspeed, if_pos hspeed]
    split
    · rfl
    · split <;> rfl
  · rw [if_neg hspeed, if_neg hspeed]
    have hitem : gameType = 4 := by
      simpa [isTeamMode, hspeed] using h
    rw [if_pos hitem, if_pos hitem]

/-- Racers that can be ranked are ranked. -/
theorem settlementRanking_eq {room : ProtocolRoomState} {frozen : FrozenRaceRoster} (hfrozen : room.frozenRace = some frozen)
    (h : Rankable room.settings.gameType frozen.racing) :
    settlementRanking room = .ok (rankingOf room.settings.gameType frozen.racing room.raceProgress.finishTimes) := by
  generalize horder : raceOrder frozen.racing room.raceProgress.finishTimes = order
  have hlength : order.length = frozen.racing.length := horder ▸ length_raceOrder _ _
  have hle := h.length_le
  have hpos : 0 < frozen.racing.length := List.length_pos_iff.2 h.nonempty
  have hteams : isTeamMode room.settings.gameType = true → ∀ racer ∈ order, racer.team = 1 ∨ racer.team = 2 := by
    intro hmode racer hracer
    rw [← horder] at hracer
    obtain ⟨source, hsource, rfl⟩ := (mem_raceOrder _).1 hracer
    exact h.teams source hsource hmode
  have hresults : Checks.traverse (fun entry : RankedRacer × Nat =>
      rankedResult (isTeamMode room.settings.gameType) order.length entry.2 entry.1) order.zipIdx =
      .ok (resultsOf (isTeamMode room.settings.gameType) order) := by
    refine traverse_eq_ok.2 (List.forall₂_map_right_iff.2 (List.forall₂_same.2 ?_))
    rintro ⟨racer, rank⟩ hentry
    obtain ⟨-, hrank, hget⟩ := List.mem_zipIdx hentry
    refine rankedResult_eq (by omega) ?_
    intro hmode
    exact hteams hmode racer (hget ▸ List.getElem_mem _)
  have hwinner : (if isTeamMode room.settings.gameType = true then
        winningTeam room.settings.gameType (resultsOf (isTeamMode room.settings.gameType) order)
      else .ok none) = .ok (winnerOf room.settings.gameType order) := by
    rcases hmode : isTeamMode room.settings.gameType with _ | _
    · rw [if_neg (by simp), winnerOf_of_not_teamMode hmode]
    · rw [if_pos rfl]
      exact winningTeam_resultsOf hmode (by rw [← List.length_pos_iff]; omega) (hteams hmode)
  have hcount : 1 ≤ order.length ∧ order.length ≤ roomSlotCount := by
    unfold roomSlotCount
    omega
  subst horder
  unfold settlementRanking rankingOf
  simp only [hfrozen, rankedRacers_eq, orElse, teamMode_eq]
  refine bind_eq_ok.2 ⟨frozen, rfl, bind_eq_ok.2 ⟨(), ensure_eq_ok.2 hcount, ?_⟩⟩
  exact bind_eq_ok.2 ⟨_, hresults, bind_eq_ok.2 ⟨_, hwinner, rfl⟩⟩

/-! ## What a ranking says -/

section Says

variable {gameType : Nat} {racing : List (Int × Nat)} {finishTimes : FiniteMap Int Nat}

theorem mem_resultsOf {teamMode : Bool} {order : List RankedRacer} {id : Int} {result : RankedRaceResult} :
    (id, result) ∈ resultsOf teamMode order ↔
      ∃ rank racer, order[rank]? = some racer ∧ racer.playerId = id ∧ resultAt teamMode rank racer = result := by
  unfold resultsOf
  rw [List.mem_map]
  constructor
  · rintro ⟨⟨racer, rank⟩, hentry, heq⟩
    obtain ⟨hid, hresult⟩ := Prod.mk.inj heq
    exact ⟨rank, racer, List.mk_mem_zipIdx_iff_getElem?.1 hentry, hid, hresult⟩
  · rintro ⟨rank, racer, hget, rfl, rfl⟩
    exact ⟨(racer, rank), List.mk_mem_zipIdx_iff_getElem?.2 hget, rfl⟩

theorem map_fst_resultsOf (teamMode : Bool) (order : List RankedRacer) :
    (resultsOf teamMode order).map Prod.fst = order.map (·.playerId) := by
  have hfst : order.zipIdx.map Prod.fst = order := List.zipIdx_map_fst 0 order
  unfold resultsOf
  rw [List.map_map]
  conv_rhs => rw [← hfst, List.map_map]
  rfl

/-- The result of an id is that of the racer with it, at its rank in the order. -/
theorem Rankable.lookup_rankingOf (h : Rankable gameType racing) {id : Int} {result : RankedRaceResult} :
    (rankingOf gameType racing finishTimes).byPlayerId.lookup id = some result ↔
      ∃ rank racer, (raceOrder racing finishTimes)[rank]? = some racer ∧ racer.playerId = id ∧
        resultAt (isTeamMode gameType) rank racer = result := by
  have hnodup : ((resultsOf (isTeamMode gameType) (raceOrder racing finishTimes)).map Prod.fst).Nodup := by
    rw [map_fst_resultsOf]
    exact h.nodup_raceOrder finishTimes
  unfold rankingOf
  rw [FiniteMap.lookup_foldl_insert hnodup, mem_resultsOf]
  simp

/-- Each racer of the order has the result of its rank. -/
theorem Rankable.lookup_of_getElem? (h : Rankable gameType racing) {rank : Nat} {racer : RankedRacer}
    (hget : (raceOrder racing finishTimes)[rank]? = some racer) :
    (rankingOf gameType racing finishTimes).byPlayerId.lookup racer.playerId =
      some (resultAt (isTeamMode gameType) rank racer) :=
  h.lookup_rankingOf.2 ⟨rank, racer, hget, rfl, rfl⟩

/-- The points that the racers of a team have in a ranking. -/
def teamTotal (ranking : SettlementRanking) (racing : List (Int × Nat)) (team : RoomTeam) : Int :=
  ((racing.filter (fun racer => wireTeam racer.2 = some team)).map (fun racer =>
    ((ranking.byPlayerId.lookup racer.1).map (·.teamPoints)).getD 0)).sum

theorem Rankable.teamSum_eq (h : Rankable gameType racing) (hmode : isTeamMode gameType = true) (team : RoomTeam) :
    teamSum (raceOrder racing finishTimes) team = teamTotal (rankingOf gameType racing finishTimes) racing team := by
  have hpoints : ∀ entry ∈ (raceOrder racing finishTimes).zipIdx, pointsAt entry.2 entry.1 =
      (((rankingOf gameType racing finishTimes).byPlayerId.lookup entry.1.playerId).map (·.teamPoints)).getD 0 := by
    rintro ⟨racer, rank⟩ hentry
    rw [h.lookup_of_getElem? (List.mk_mem_zipIdx_iff_getElem?.1 hentry), hmode]
    rfl
  have hfst : ((raceOrder racing finishTimes).zipIdx.filter (fun entry => wireTeam entry.1.team = some team)).map Prod.fst =
      (raceOrder racing finishTimes).filter (fun racer => wireTeam racer.team = some team) := by
    conv_rhs => rw [← List.zipIdx_map_fst 0 (raceOrder racing finishTimes), List.filter_map]
    rfl
  have hsum : teamSum (raceOrder racing finishTimes) team =
      (((raceOrder racing finishTimes).filter (fun racer => wireTeam racer.team = some team)).map (fun racer =>
        (((rankingOf gameType racing finishTimes).byPlayerId.lookup racer.playerId).map (·.teamPoints)).getD 0)).sum := by
    rw [← hfst, List.map_map, teamSum]
    refine congrArg List.sum (List.map_congr_left ?_)
    intro entry hentry
    exact hpoints entry (List.mem_of_mem_filter hentry)
  have hperm := ((raceOrder_perm finishTimes racing).filter (fun racer => decide (wireTeam racer.team = some team))).map
    (fun racer => (((rankingOf gameType racing finishTimes).byPlayerId.lookup racer.playerId).map (·.teamPoints)).getD 0)
  rw [hsum, hperm.sum_eq, List.filter_map, List.map_map]
  rfl

/-- The law of a ranking of racers with recorded times. -/
structure RankingLaw (gameType : Nat) (racing : List (Int × Nat)) (finishTimes : FiniteMap Int Nat)
    (ranking : SettlementRanking) : Prop where
  /-- Exactly the racers have results. -/
  racers : ∀ id, (∃ result, ranking.byPlayerId.lookup id = some result) ↔ id ∈ racing.map Prod.fst
  /-- The ranks are the numbers below that of the racers. -/
  ranks : ∀ rank : Int, (∃ id result, ranking.byPlayerId.lookup id = some result ∧ result.rank = rank) ↔
    0 ≤ rank ∧ rank < racing.length
  /-- A result has the recorded time, or the mark of a racer that did not finish. -/
  times : ∀ id result, ranking.byPlayerId.lookup id = some result →
    result.finishTime = (finishTimes.lookup id).getD noFinishTime
  /-- The ranks go by time and then by id. -/
  order : ∀ a b ra rb, ranking.byPlayerId.lookup a = some ra → ranking.byPlayerId.lookup b = some rb →
    (ra.rank < rb.rank ↔ ra.finishTime < rb.finishTime ∨ ra.finishTime = rb.finishTime ∧ a < b)
  /-- Who did not finish comes last. -/
  last : ∀ a b ra rb, ranking.byPlayerId.lookup a = some ra → ranking.byPlayerId.lookup b = some rb →
    Finished finishTimes a → ¬Finished finishTimes b → ra.rank < rb.rank
  /-- In team races a racer is of its team. -/
  teams : ∀ racer ∈ racing, ∀ result, ranking.byPlayerId.lookup racer.1 = some result →
    result.team = if isTeamMode gameType then wireTeam racer.2 else none
  /-- In team races a racer that finished has the points of its rank. -/
  points : ∀ id result, ranking.byPlayerId.lookup id = some result → isTeamMode gameType = true → Finished finishTimes id →
    teamPointsByRank[result.rank.toNat]? = some result.teamPoints
  /-- Others have none. -/
  noPoints : ∀ id result, ranking.byPlayerId.lookup id = some result →
    (isTeamMode gameType = false ∨ ¬Finished finishTimes id) → result.teamPoints = 0
  /-- The team with more points wins a speed race; on a tie, and in an item race, that of the first racer. -/
  winner : ∀ racer ∈ racing, ∀ result, ranking.byPlayerId.lookup racer.1 = some result → result.rank = 0 →
    ranking.winningTeam =
      if gameType = 3 then
        if teamTotal ranking racing .blue < teamTotal ranking racing .red then some .red
        else if teamTotal ranking racing .red < teamTotal ranking racing .blue then some .blue
        else wireTeam racer.2
      else if gameType = 4 then wireTeam racer.2
      else none

/-- The times are 32-bit numbers. -/
def TimesFit (finishTimes : FiniteMap Int Nat) : Prop := ∀ id time, finishTimes.lookup id = some time → time ≤ noFinishTime

theorem not_finished {id : Int} (h : ¬Finished finishTimes id) : (finishTimes.lookup id).getD noFinishTime = noFinishTime := by
  rcases htime : finishTimes.lookup id with _ | time
  · rfl
  · by_cases hsame : time = noFinishTime
    · rw [hsame]
      rfl
    · exact absurd ⟨time, htime, hsame⟩ h

theorem Finished.ne {id : Int} (h : Finished finishTimes id) : (finishTimes.lookup id).getD noFinishTime ≠ noFinishTime := by
  obtain ⟨time, htime, hne⟩ := h
  rw [htime]
  exact hne

/-- The racer of a result in the order, with its source. -/
theorem Rankable.racer_of_lookup (h : Rankable gameType racing) {id : Int} {result : RankedRaceResult}
    (hlookup : (rankingOf gameType racing finishTimes).byPlayerId.lookup id = some result) :
    ∃ (rank : Nat) (source : Int × Nat), source ∈ racing ∧ source.1 = id ∧
      (raceOrder racing finishTimes)[rank]? = some (timed finishTimes source) ∧
      resultAt (isTeamMode gameType) rank (timed finishTimes source) = result := by
  obtain ⟨rank, racer, hget, hid, hresult⟩ := h.lookup_rankingOf.1 hlookup
  obtain ⟨source, hsource, rfl⟩ := (mem_raceOrder finishTimes).1 (List.mem_of_getElem? hget)
  exact ⟨rank, source, hsource, hid, hget, hresult⟩

/-- Ranks go by keys. -/
theorem Rankable.rank_lt (h : Rankable gameType racing) {i j : Nat} {a b : RankedRacer}
    (ha : (raceOrder racing finishTimes)[i]? = some a) (hb : (raceOrder racing finishTimes)[j]? = some b) :
    i < j ↔ a.key < b.key := by
  have hsorted := h.raceOrder_pairwise finishTimes
  obtain ⟨hi, rfl⟩ := List.getElem?_eq_some_iff.1 ha
  obtain ⟨hj, rfl⟩ := List.getElem?_eq_some_iff.1 hb
  rw [List.pairwise_iff_getElem] at hsorted
  constructor
  · exact hsorted i j hi hj
  · intro hkey
    rcases Nat.lt_trichotomy i j with hlt | rfl | hlt
    · exact hlt
    · exact absurd hkey (lt_irrefl _)
    · exact absurd hkey (lt_asymm (hsorted j i hj hi hlt))

theorem Rankable.law_racers (h : Rankable gameType racing) (id : Int) :
    (∃ result, (rankingOf gameType racing finishTimes).byPlayerId.lookup id = some result) ↔ id ∈ racing.map Prod.fst := by
  constructor
  · rintro ⟨result, hlookup⟩
    obtain ⟨-, source, hsource, rfl, -⟩ := h.racer_of_lookup hlookup
    exact List.mem_map_of_mem hsource
  · intro hid
    have hmem := (playerIds_raceOrder finishTimes racing).mem_iff.2 hid
    obtain ⟨racer, hracer, rfl⟩ := List.mem_map.1 hmem
    obtain ⟨rank, hget⟩ := List.getElem?_of_mem hracer
    exact ⟨_, h.lookup_of_getElem? hget⟩

theorem Rankable.law_ranks (h : Rankable gameType racing) (rank : Int) :
    (∃ id result, (rankingOf gameType racing finishTimes).byPlayerId.lookup id = some result ∧ result.rank = rank) ↔
      0 ≤ rank ∧ rank < racing.length := by
  have hlength := length_raceOrder finishTimes racing
  constructor
  · rintro ⟨id, result, hlookup, rfl⟩
    obtain ⟨place, source, -, -, hget, rfl⟩ := h.racer_of_lookup hlookup
    obtain ⟨hlt, -⟩ := List.getElem?_eq_some_iff.1 hget
    change 0 ≤ (place : Int) ∧ (place : Int) < _
    omega
  · rintro ⟨hlow, hhigh⟩
    have hlt : rank.toNat < (raceOrder racing finishTimes).length := by omega
    refine ⟨_, _, h.lookup_of_getElem? (List.getElem?_eq_getElem hlt), ?_⟩
    change (rank.toNat : Int) = rank
    omega

theorem Rankable.law_order (h : Rankable gameType racing) {a b : Int} {ra rb : RankedRaceResult}
    (ha : (rankingOf gameType racing finishTimes).byPlayerId.lookup a = some ra)
    (hb : (rankingOf gameType racing finishTimes).byPlayerId.lookup b = some rb) :
    ra.rank < rb.rank ↔ ra.finishTime < rb.finishTime ∨ ra.finishTime = rb.finishTime ∧ a < b := by
  obtain ⟨i, sourceA, -, rfl, hgetA, rfl⟩ := h.racer_of_lookup ha
  obtain ⟨j, sourceB, -, rfl, hgetB, rfl⟩ := h.racer_of_lookup hb
  change ((i : Int) < j) ↔ _
  rw [Int.ofNat_lt, h.rank_lt hgetA hgetB, RankedRacer.key_lt]
  rfl

theorem Rankable.law_times (h : Rankable gameType racing) {id : Int} {result : RankedRaceResult}
    (hlookup : (rankingOf gameType racing finishTimes).byPlayerId.lookup id = some result) :
    result.finishTime = (finishTimes.lookup id).getD noFinishTime := by
  obtain ⟨_, source, -, rfl, -, rfl⟩ := h.racer_of_lookup hlookup
  rfl

theorem Rankable.law_last (h : Rankable gameType racing) (hfit : TimesFit finishTimes) {a b : Int} {ra rb : RankedRaceResult}
    (ha : (rankingOf gameType racing finishTimes).byPlayerId.lookup a = some ra)
    (hb : (rankingOf gameType racing finishTimes).byPlayerId.lookup b = some rb)
    (hfinished : Finished finishTimes a) (hnot : ¬Finished finishTimes b) : ra.rank < rb.rank := by
  obtain ⟨time, htime, hne⟩ := hfinished
  have hle := hfit a time htime
  refine (h.law_order ha hb).2 (.inl ?_)
  rw [h.law_times ha, h.law_times hb, not_finished hnot, htime]
  exact lt_of_le_of_ne hle hne

theorem Rankable.law_points (h : Rankable gameType racing) {id : Int} {result : RankedRaceResult}
    (hlookup : (rankingOf gameType racing finishTimes).byPlayerId.lookup id = some result) :
    (isTeamMode gameType = true → Finished finishTimes id → teamPointsByRank[result.rank.toNat]? = some result.teamPoints) ∧
      ((isTeamMode gameType = false ∨ ¬Finished finishTimes id) → result.teamPoints = 0) := by
  obtain ⟨rank, source, -, rfl, hget, rfl⟩ := h.racer_of_lookup hlookup
  obtain ⟨hlt, -⟩ := List.getElem?_eq_some_iff.1 hget
  have hrank : rank < teamPointsByRank.length := by
    have hlength := length_raceOrder finishTimes racing
    have hle := h.length_le
    change rank < 8
    omega
  constructor
  · intro hmode hfinished
    have hpoints : pointsAt rank (timed finishTimes source) = teamPointsByRank[rank]?.getD 0 := if_neg hfinished.ne
    change teamPointsByRank[rank]? = some (if isTeamMode gameType = true then pointsAt rank (timed finishTimes source) else 0)
    rw [if_pos hmode, hpoints, List.getElem?_eq_getElem hrank]
    rfl
  · intro hcase
    change (if isTeamMode gameType = true then pointsAt rank (timed finishTimes source) else 0) = 0
    rcases hcase with hmode | hnot
    · rw [if_neg (by simp [hmode])]
    · have hpoints : pointsAt rank (timed finishTimes source) = 0 := if_pos (not_finished hnot)
      rw [hpoints, ite_self]

theorem Rankable.law_winner (h : Rankable gameType racing) {racer : Int × Nat} {result : RankedRaceResult}
    (hracer : racer ∈ racing) (hlookup : (rankingOf gameType racing finishTimes).byPlayerId.lookup racer.1 = some result)
    (hfirst : result.rank = 0) :
    (rankingOf gameType racing finishTimes).winningTeam =
      if gameType = 3 then
        if teamTotal (rankingOf gameType racing finishTimes) racing .blue <
            teamTotal (rankingOf gameType racing finishTimes) racing .red then some .red
        else if teamTotal (rankingOf gameType racing finishTimes) racing .red <
            teamTotal (rankingOf gameType racing finishTimes) racing .blue then some .blue
        else wireTeam racer.2
      else if gameType = 4 then wireTeam racer.2
      else none := by
  obtain ⟨rank, source, hsource, hid, hget, rfl⟩ := h.racer_of_lookup hlookup
  obtain rfl : rank = 0 := by
    change (rank : Int) = 0 at hfirst
    omega
  obtain rfl : source = racer := List.inj_on_of_nodup_map h.nodup hsource hracer hid
  have hteam : firstTeam (raceOrder racing finishTimes) = wireTeam source.2 := by
    rw [firstTeam, List.head?_eq_getElem?, hget]
    rfl
  change winnerOf gameType (raceOrder racing finishTimes) = _
  unfold winnerOf
  rw [hteam]
  by_cases hspeed : gameType = 3
  · have hmode : isTeamMode gameType = true := by simp [isTeamMode, hspeed]
    rw [if_pos hspeed, if_pos hspeed, h.teamSum_eq hmode, h.teamSum_eq hmode]
  · rw [if_neg hspeed, if_neg hspeed]

/-- The ranking of racers that can be ranked obeys the law. -/
theorem Rankable.law (h : Rankable gameType racing) (hfit : TimesFit finishTimes) :
    RankingLaw gameType racing finishTimes (rankingOf gameType racing finishTimes) where
  racers := h.law_racers
  ranks := h.law_ranks
  times := fun _ _ => h.law_times
  order := fun _ _ _ _ => h.law_order
  last := fun _ _ _ _ => h.law_last hfit
  teams := by
    intro racer hracer result hlookup
    obtain ⟨rank, source, hsource, hid, -, rfl⟩ := h.racer_of_lookup hlookup
    obtain rfl : source = racer := List.inj_on_of_nodup_map h.nodup hsource hracer hid
    rfl
  points := fun _ _ hlookup => (h.law_points hlookup).1
  noPoints := fun _ _ hlookup => (h.law_points hlookup).2
  winner := fun _ hracer _ => h.law_winner hracer

/-- The ranking does not depend on the order that the racers are listed in. -/
theorem Rankable.rankingOf_congr {racing' : List (Int × Nat)} (h : Rankable gameType racing) (hperm : racing.Perm racing') :
    rankingOf gameType racing finishTimes = rankingOf gameType racing' finishTimes := by
  unfold rankingOf
  rw [h.raceOrder_congr finishTimes hperm]

end Says

/-! ## Rewards -/

/-- The rolls are within their bounds. -/
def RollsFit (rolls : Int → Nat × Nat) : Prop :=
  ∀ id, (rolls id).1 ≤ maxTimeRewardRpRoll ∧ (rolls id).2 ≤ maxTimeRewardLucciRoll

theorem timeRewardFromRolls_isOk {rank rpRoll lucciRoll : Nat} (hrp : rpRoll ≤ maxTimeRewardRpRoll)
    (hlucci : lucciRoll ≤ maxTimeRewardLucciRoll) : ∃ reward, timeRewardFromRolls rank rpRoll lucciRoll = .ok reward := by
  unfold timeRewardFromRolls
  rw [if_neg (by omega), if_neg (by omega)]
  exact ⟨_, rfl⟩

/-- The rewards of racers that can be ranked are planned, when one of them is human. -/
theorem planRewardPersistence_isOk (U : Unicode) {room : ProtocolRoomState} {frozen : FrozenRaceRoster} (now : Instant)
    {rolls : Int → Nat × Nat} (hfrozen : room.frozenRace = some frozen) (h : Rankable room.settings.gameType frozen.racing)
    (hhuman : frozen.racers ≠ []) (hrolls : RollsFit rolls) :
    ∃ rewards, planRewardPersistence U room now rolls =
      .ok (rankingOf room.settings.gameType frozen.racing room.raceProgress.finishTimes, rewards) := by
  have hcount : 1 ≤ frozen.racers.length ∧ frozen.racers.length ≤ roomSlotCount := by
    have hle := h.length_le
    have hpos := List.length_pos_iff.2 hhuman
    unfold FrozenRaceRoster.racing at hle
    rw [List.length_append, List.length_map] at hle
    unfold roomSlotCount
    omega
  have hplanned : ∀ participant ∈ frozen.racers, ∃ reward, plannedReward U
      (rankingOf room.settings.gameType frozen.racing room.raceProgress.finishTimes) frozen.racers.length now rolls participant =
        .ok reward := by
    intro participant hparticipant
    have hid : participant.playerId ∈ frozen.racing.map Prod.fst := by
      refine List.mem_map.2 ⟨(participant.playerId, participant.team), List.mem_append_left _ ?_, rfl⟩
      exact List.mem_map_of_mem hparticipant
    obtain ⟨result, hlookup⟩ := (h.law_racers participant.playerId).2 hid
    obtain ⟨hrank, -⟩ := (h.law_ranks result.rank).1 ⟨_, _, hlookup, rfl⟩
    obtain ⟨reward, hreward⟩ : ∃ reward, timeRewardFromRolls result.rank.toNat (rolls participant.playerId).1
        (rolls participant.playerId).2 = .ok reward :=
      timeRewardFromRolls_isOk (hrolls participant.playerId).1 (hrolls participant.playerId).2
    refine ⟨_, bind_eq_ok.2 ⟨result, orElse_eq_ok.2 hlookup, bind_eq_ok.2 ⟨(), ensure_eq_ok.2 hrank,
      bind_eq_ok.2 ⟨reward, ?_, rfl⟩⟩⟩⟩
    rw [hreward]
    rfl
  obtain ⟨rewards, hrewards⟩ := traverse_isOk hplanned
  refine ⟨rewards, bind_eq_ok.2 ⟨_, settlementRanking_eq hfrozen h, bind_eq_ok.2 ⟨frozen, ?_, ?_⟩⟩⟩
  · exact orElse_eq_ok.2 hfrozen
  · exact bind_eq_ok.2 ⟨(), ensure_eq_ok.2 hcount, bind_eq_ok.2 ⟨rewards, hrewards, rfl⟩⟩

end P5136
