import P5136.Room.Moves

/-!
# The lobby after a race

Who is still in a room after a race starts the next one in the order of the results, and the best of the winning side leads the
lobby, unless an observer does.
-/

namespace P5136

open List

/-- The ranks of a ranking tell its racers apart. -/
def SettlementRanking.Distinct (ranking : SettlementRanking) : Prop :=
  ∀ a b ra rb, ranking.byPlayerId.lookup a = some ra → ranking.byPlayerId.lookup b = some rb → ra.rank = rb.rank → a = b

/-- The ranking of racers that can be ranked has distinct ranks. -/
theorem Rankable.distinct {gameType : Nat} {racing : List (Int × Nat)} {finishTimes : FiniteMap Int Nat}
    (h : Rankable gameType racing) : (rankingOf gameType racing finishTimes).Distinct := by
  intro a b ra rb ha hb hrank
  have hab := (h.law_order ha hb).not.1 (by omega)
  have hba := (h.law_order hb ha).not.1 (by omega)
  omega

namespace ProtocolRoomState

variable (room : ProtocolRoomState) (ranking : SettlementRanking)

/-- A human that is still there and is on the winning side. -/
def Eligible (id : MemberId) : Prop :=
  (room.membersById id).isSome ∧ ∃ result, ranking.byPlayerId.lookup (id.val : Int) = some result ∧
    ∀ team, ranking.winningTeam = some team → result.team = some team

/-- An observer that is there is the master. -/
def ObserverLeads : Prop := 8 ≤ room.roomMaster ∧ (room.memberByPlayerId room.roomMaster).isSome

/-- The lobby that follows on a ranking. -/
structure NextLobby (next : ProtocolRoomState) : Prop where
  /-- Who was there is there. -/
  members : ∀ id, (next.membersById id).map (·.userNo) = (room.membersById id).map (·.userNo)
  /-- The places on the grid are the numbers below that of the humans. -/
  grid : ∀ place : Int, (∃ id member, next.membersById id = some member ∧ member.player.ranking = place) ↔
    0 ≤ place ∧ place < room.members.length
  /-- The places go by the results. -/
  order : ∀ a b memberA memberB ra rb, next.membersById a = some memberA → next.membersById b = some memberB →
    ranking.byPlayerId.lookup (a.val : Int) = some ra → ranking.byPlayerId.lookup (b.val : Int) = some rb →
    (memberA.player.ranking < memberB.player.ranking ↔ ra.rank < rb.rank)
  /-- An observer stays the master. -/
  observer : room.ObserverLeads → next.roomMaster = room.roomMaster
  /-- Else the best of the winning side becomes the master. -/
  master : ¬room.ObserverLeads → ∀ id, room.Eligible ranking id →
    (∀ id' result result', room.Eligible ranking id' → ranking.byPlayerId.lookup (id.val : Int) = some result →
      ranking.byPlayerId.lookup (id'.val : Int) = some result' → result.rank ≤ result'.rank) →
    next.roomMaster = id.val
  /-- Else the master stays. -/
  unchanged : ¬room.ObserverLeads → (∀ id, ¬room.Eligible ranking id) → next.roomMaster = room.roomMaster

variable {room ranking}

/-! ## The grid -/

/-- The ids by rank are sorted by the ranks and the ids. -/
theorem inOrder_eq (ranked : List (Int × MemberId)) :
    inOrder ranked = (Ranked.sort (fun entry => (toLex entry : ℤ ×ₗ MemberId)) ranked).map Prod.snd := by
  have hbefore : (fun a b : Int × MemberId => decide (a.1 < b.1) || (decide (a.1 = b.1) && decide (a.2 ≤ b.2))) =
      fun a b => decide ((toLex a : ℤ ×ₗ MemberId) ≤ toLex b) := by
    funext a b
    rw [Bool.eq_iff_iff]
    simp [Prod.Lex.le_iff]
  unfold inOrder Ranked.sort
  rw [← hbefore]

variable (room ranking) in
/-- The racers that are still there, with their ranks. -/
def finishers : List (Int × MemberId) :=
  room.members.filterMap (fun entry =>
    (ranking.byPlayerId.lookup (entry.1.val : Int)).map (fun result => (result.rank, entry.1)))

theorem mem_finishers {rank : Int} {id : MemberId} :
    (rank, id) ∈ room.finishers ranking ↔
      (room.membersById id).isSome ∧ ∃ result, ranking.byPlayerId.lookup (id.val : Int) = some result ∧ result.rank = rank := by
  unfold finishers
  rw [mem_filterMap]
  constructor
  · rintro ⟨⟨i, member⟩, hmember, hmap⟩
    obtain ⟨result, hlookup, heq⟩ := Option.map_eq_some_iff.1 hmap
    obtain ⟨rfl, rfl⟩ := Prod.mk.inj heq
    exact ⟨Option.isSome_iff_exists.2 ⟨member, mem_members.1 hmember⟩, result, hlookup, rfl⟩
  · rintro ⟨hsome, result, hlookup, rfl⟩
    obtain ⟨member, hmember⟩ := Option.isSome_iff_exists.1 hsome
    exact ⟨(id, member), mem_members.2 hmember, by rw [hlookup]; rfl⟩

/-- When everybody has a result, the racers that are still there are the members. -/
theorem ids_finishers (hseated : ∀ id, (room.membersById id).isSome → (ranking.byPlayerId.lookup (id.val : Int)).isSome) :
    (room.finishers ranking).map Prod.snd = room.members.map Prod.fst := by
  unfold finishers
  rw [map_filterMap, ← filterMap_eq_map]
  refine filterMap_congr ?_
  rintro ⟨id, member⟩ hmember
  have hsome := hseated id (Option.isSome_iff_exists.2 ⟨member, mem_members.1 hmember⟩)
  obtain ⟨result, hresult⟩ := Option.isSome_iff_exists.1 hsome
  simp [hresult]

/-- The grid is made of the members. -/
theorem perm_grid (hseated : ∀ id, (room.membersById id).isSome → (ranking.byPlayerId.lookup (id.val : Int)).isSome) :
    (inOrder (room.finishers ranking)).Perm (room.members.map Prod.fst) := by
  rw [inOrder_eq, ← ids_finishers hseated]
  exact (Ranked.perm (fun entry => (toLex entry : ℤ ×ₗ MemberId)) (room.finishers ranking)).map Prod.snd

theorem mem_grid (hseated : ∀ id, (room.membersById id).isSome → (ranking.byPlayerId.lookup (id.val : Int)).isSome)
    {id : MemberId} : id ∈ inOrder (room.finishers ranking) ↔ (room.membersById id).isSome := by
  rw [(perm_grid hseated).mem_iff, mem_map, Option.isSome_iff_exists]
  constructor
  · rintro ⟨⟨i, member⟩, hmember, rfl⟩
    exact ⟨member, mem_members.1 hmember⟩
  · rintro ⟨member, hmember⟩
    exact ⟨(id, member), mem_members.2 hmember, rfl⟩

/-- The racers that are still there are told apart by their ids. -/
theorem nodup_finishers (hseated : ∀ id, (room.membersById id).isSome → (ranking.byPlayerId.lookup (id.val : Int)).isSome) :
    ((room.finishers ranking).map Prod.snd).Nodup := by
  rw [ids_finishers hseated]
  exact nodup_occupied room.membersById

/-- The places on the grid go by the ranks. -/
theorem place_lt_iff (hseated : ∀ id, (room.membersById id).isSome → (ranking.byPlayerId.lookup (id.val : Int)).isSome)
    (hdistinct : ranking.Distinct) {a b : MemberId} {ra rb : RankedRaceResult} (hroomA : (room.membersById a).isSome)
    (hroomB : (room.membersById b).isSome) (ha : ranking.byPlayerId.lookup (a.val : Int) = some ra)
    (hb : ranking.byPlayerId.lookup (b.val : Int) = some rb) :
    (inOrder (room.finishers ranking)).idxOf a < (inOrder (room.finishers ranking)).idxOf b ↔ ra.rank < rb.rank := by
  have hids := nodup_finishers hseated
  have hkeys : ((room.finishers ranking).map (fun entry => (toLex entry : ℤ ×ₗ MemberId))).Nodup :=
    (Nodup.of_map Prod.snd hids).map toLex.injective
  have hlt := Ranked.idxOf_map_lt (fun entry => (toLex entry : ℤ ×ₗ MemberId)) hids (mem_finishers.2 ⟨hroomA, ra, ha, rfl⟩)
    (mem_finishers.2 ⟨hroomB, rb, hb, rfl⟩) hkeys
  rw [inOrder_eq]
  refine hlt.trans ?_
  rw [Prod.Lex.toLex_lt_toLex]
  constructor
  · rintro (hrank | ⟨hrank, hid⟩)
    · exact hrank
    · -- equal ranks are of one racer
      have hsame := hdistinct _ _ ra rb ha hb hrank
      have hval : a.val = b.val := by exact_mod_cast hsame
      exact absurd hid (by rw [Fin.ext hval]; exact lt_irrefl b)
  · exact Or.inl

/-! ## The master -/

/-- The members that may lead, with the keys they are chosen by. -/
def leaders (room : ProtocolRoomState) (ranking : SettlementRanking) : List (Int × Nat × Int) :=
  room.members.filterMap (fun entry =>
    match ranking.byPlayerId.lookup (entry.1.val : Int) with
    | none => none
    | some ranked =>
      if ranking.winningTeam.any (fun winningTeam => ranked.team ≠ some winningTeam) then none
      else some (ranked.rank, ranked.finishTime, (entry.1.val : Int)))

theorem mem_leaders {entry : Int × Nat × Int} :
    entry ∈ room.leaders ranking ↔ ∃ id result, room.Eligible ranking id ∧
      ranking.byPlayerId.lookup (id.val : Int) = some result ∧ entry = (result.rank, result.finishTime, (id.val : Int)) := by
  unfold leaders
  rw [mem_filterMap]
  constructor
  · rintro ⟨⟨id, member⟩, hmember, hmap⟩
    dsimp only at hmap
    split at hmap
    · cases hmap
    · rename_i result hresult
      split at hmap
      · cases hmap
      · rename_i hteam
        refine ⟨id, result, ⟨Option.isSome_iff_exists.2 ⟨member, mem_members.1 hmember⟩, result, hresult, ?_⟩, hresult,
          (Option.some.inj hmap).symm⟩
        intro team hwinner
        rw [hwinner] at hteam
        simpa using hteam
  · rintro ⟨id, result, ⟨hsome, result', hresult', hteam⟩, hresult, rfl⟩
    obtain rfl := Option.some.inj (hresult'.symm.trans hresult)
    obtain ⟨member, hmember⟩ := Option.isSome_iff_exists.1 hsome
    refine ⟨(id, member), mem_members.2 hmember, ?_⟩
    dsimp only
    rw [hresult]
    dsimp only
    rw [if_neg]
    intro hany
    obtain ⟨team, hwinner, hne⟩ := (Option.any_eq_true _ _).1 hany
    exact absurd (hteam team hwinner) (of_decide_eq_true hne)

/-- The master is the first by rank, time and id. -/
theorem nextLobbyMaster_eq : room.nextLobbyMaster ranking =
    ((Ranked.sort (fun entry : Int × Nat × Int => (toLex (entry.1, toLex entry.2) : ℤ ×ₗ ℕ ×ₗ ℤ)) (room.leaders ranking)).head?).map
      (·.2.2) := by
  have hbefore : (fun a b : Int × Nat × Int =>
      decide (a.1 < b.1) || (decide (a.1 = b.1) && (decide (a.2.1 < b.2.1) || (decide (a.2.1 = b.2.1) && decide (a.2.2 ≤ b.2.2))))) =
      fun a b => decide ((toLex (a.1, toLex a.2) : ℤ ×ₗ ℕ ×ₗ ℤ) ≤ toLex (b.1, toLex b.2)) := by
    funext a b
    rw [Bool.eq_iff_iff]
    simp [Prod.Lex.le_iff]
  unfold nextLobbyMaster Ranked.sort leaders
  rewrite [← hbefore]
  rfl

/-- The best member that may lead is chosen. -/
theorem nextLobbyMaster_best (hdistinct : ranking.Distinct) {id : MemberId} (hid : room.Eligible ranking id)
    (hbest : ∀ id' result result', room.Eligible ranking id' → ranking.byPlayerId.lookup (id.val : Int) = some result →
      ranking.byPlayerId.lookup (id'.val : Int) = some result' → result.rank ≤ result'.rank) :
    room.nextLobbyMaster ranking = some (id.val : Int) := by
  obtain ⟨result, hresult, -⟩ := hid.2
  have hmem := mem_leaders.2 ⟨id, result, hid, hresult, rfl⟩
  rw [nextLobbyMaster_eq]
  cases hhead : (Ranked.sort (fun entry : Int × Nat × Int => (toLex (entry.1, toLex entry.2) : ℤ ×ₗ ℕ ×ₗ ℤ))
    (room.leaders ranking)).head? with
  | none =>
    rw [(Ranked.head?_eq_none _).1 hhead] at hmem
    cases hmem
  | some entry =>
    obtain ⟨hentry, hleast⟩ := Ranked.head_le _ hhead
    obtain ⟨first, resultFirst, hfirst, hlookup, rfl⟩ := mem_leaders.1 hentry
    -- the first has a rank that is not above, and so the same one
    have hle : resultFirst.rank ≤ result.rank := by
      rcases Prod.Lex.toLex_le_toLex.1 (hleast _ hmem) with hlt | ⟨hsame, -⟩
      · exact le_of_lt hlt
      · exact le_of_eq hsame
    have hsame := hdistinct _ _ _ _ hlookup hresult (le_antisymm hle (hbest first result resultFirst hfirst hresult hlookup))
    exact congrArg some hsame

/-- Nobody is chosen when nobody may lead. -/
theorem nextLobbyMaster_none (hnone : ∀ id, ¬room.Eligible ranking id) : room.nextLobbyMaster ranking = none := by
  rw [nextLobbyMaster_eq, Option.map_eq_none_iff, Ranked.head?_eq_none]
  refine eq_nil_iff_forall_not_mem.2 fun entry hentry => ?_
  obtain ⟨id, -, hid, -⟩ := mem_leaders.1 hentry
  exact hnone id hid

/-! ## The next lobby -/

variable (room ranking) in
/-- The room that a race leaves. -/
def nextLobby : ProtocolRoomState := ((room.applyNextGridRanking ranking).applyNextLobbyMaster ranking).backToLobby

/-- Only the master is another one. -/
theorem applyNextLobbyMaster_eq :
    room.applyNextLobbyMaster ranking = { room with roomMaster := (room.applyNextLobbyMaster ranking).roomMaster } := by
  unfold applyNextLobbyMaster
  split
  · rfl
  · split
    · rfl
    · rfl

theorem membersById_nextLobby (hseated : ∀ id, (room.membersById id).isSome → (ranking.byPlayerId.lookup (id.val : Int)).isSome)
    (id : MemberId) : (room.nextLobby ranking).membersById id = (room.membersById id).map (fun member =>
      { member with player := { member.player with
          ranking := (inOrder (room.finishers ranking)).idxOf id
          playerType := PlayerSlotState.notReady.wire } }) := by
  unfold nextLobby backToLobby
  rw [applyNextLobbyMaster_eq]
  change Option.map _ (Option.map _ (room.membersById id)) = _
  cases hmember : room.membersById id with
  | none => rfl
  | some member =>
    have hplace : id ∈ inOrder (room.finishers ranking) := (mem_grid hseated).2 (by rw [hmember]; rfl)
    unfold finishers at hplace
    rw [Option.map_some, Option.map_some, if_pos hplace]
    rfl

/-- Ranking the members leaves them in their places. -/
theorem ids_rankBy (order : List MemberId) : (room.rankBy order).members.map Prod.fst = room.members.map Prod.fst := by
  unfold members rankBy
  rw [map_filterMap, map_filterMap]
  refine filterMap_congr fun id _ => ?_
  dsimp only
  rw [Option.map_map, Option.map_map, Option.map_map]
  rfl

theorem leaders_rankBy (order : List MemberId) : (room.rankBy order).leaders ranking = room.leaders ranking := by
  have hids := congrArg (filterMap fun id : MemberId =>
    match ranking.byPlayerId.lookup (id.val : Int) with
    | none => none
    | some ranked =>
      if ranking.winningTeam.any (fun winningTeam => ranked.team ≠ some winningTeam) then none
      else some (ranked.rank, ranked.finishTime, (id.val : Int))) (room.ids_rankBy order)
  rw [filterMap_map, filterMap_map] at hids
  exact hids

theorem memberByPlayerId_rankBy (order : List MemberId) (playerId : Int) :
    ((room.rankBy order).memberByPlayerId playerId).isSome = (room.memberByPlayerId playerId).isSome := by
  unfold memberByPlayerId
  split
  · exact Option.isSome_map
  · rfl

theorem roomMaster_applyNextLobbyMaster : (room.applyNextLobbyMaster ranking).roomMaster =
    if 8 ≤ room.roomMaster ∧ (room.memberByPlayerId room.roomMaster).isSome then room.roomMaster
    else (room.nextLobbyMaster ranking).getD room.roomMaster := by
  unfold applyNextLobbyMaster
  split
  · rfl
  · split
    · rename_i master hsome
      rw [hsome]
      rfl
    · rename_i hnone
      rw [hnone]
      rfl

theorem roomMaster_nextLobby : (room.nextLobby ranking).roomMaster =
    if 8 ≤ room.roomMaster ∧ (room.memberByPlayerId room.roomMaster).isSome then room.roomMaster
    else (room.nextLobbyMaster ranking).getD room.roomMaster := by
  have hranked : (room.applyNextGridRanking ranking).nextLobbyMaster ranking = room.nextLobbyMaster ranking := by
    rw [nextLobbyMaster_eq, nextLobbyMaster_eq]
    unfold applyNextGridRanking
    rw [leaders_rankBy]
  have hmaster : (room.applyNextGridRanking ranking).roomMaster = room.roomMaster := rfl
  have hthere : ((room.applyNextGridRanking ranking).memberByPlayerId room.roomMaster).isSome =
      (room.memberByPlayerId room.roomMaster).isSome := memberByPlayerId_rankBy _ _
  change ((room.applyNextGridRanking ranking).applyNextLobbyMaster ranking).roomMaster = _
  rw [roomMaster_applyNextLobbyMaster, hranked, hmaster, hthere]

/-- The room that a race leaves is the next lobby, when everybody has a result. -/
theorem nextLobby_follows (hseated : ∀ id, (room.membersById id).isSome → (ranking.byPlayerId.lookup (id.val : Int)).isSome)
    (hdistinct : ranking.Distinct) : room.NextLobby ranking (room.nextLobby ranking) where
  members id := by
    rw [membersById_nextLobby hseated, Option.map_map]
    rfl
  grid place := by
    have hperm := perm_grid hseated
    have hlength : (inOrder (room.finishers ranking)).length = room.members.length := by
      rw [hperm.length_eq, length_map]
    have hnodup : (inOrder (room.finishers ranking)).Nodup := hperm.nodup_iff.2 (nodup_occupied room.membersById)
    constructor
    · rintro ⟨id, member, hmember, rfl⟩
      rw [membersById_nextLobby hseated] at hmember
      obtain ⟨old, hold, rfl⟩ := Option.map_eq_some_iff.1 hmember
      have hlt := idxOf_lt_length_iff.2 ((mem_grid hseated).2 (by rw [hold]; rfl : (room.membersById id).isSome))
      dsimp only
      omega
    · rintro ⟨hlow, hhigh⟩
      have hlt : place.toNat < (inOrder (room.finishers ranking)).length := by omega
      obtain ⟨member, hmember⟩ := Option.isSome_iff_exists.1 ((mem_grid hseated).1 (getElem_mem hlt))
      refine ⟨_, _, by rw [membersById_nextLobby hseated, hmember]; rfl, ?_⟩
      dsimp only
      rw [hnodup.idxOf_getElem]
      omega
  order a b memberA memberB ra rb hmemberA hmemberB ha hb := by
    rw [membersById_nextLobby hseated] at hmemberA hmemberB
    obtain ⟨oldA, holdA, rfl⟩ := Option.map_eq_some_iff.1 hmemberA
    obtain ⟨oldB, holdB, rfl⟩ := Option.map_eq_some_iff.1 hmemberB
    dsimp only
    rw [Int.ofNat_lt]
    exact place_lt_iff hseated hdistinct (by rw [holdA]; rfl) (by rw [holdB]; rfl) ha hb
  observer hleads := by
    rw [roomMaster_nextLobby]
    exact if_pos hleads
  master hnot id hid hbest := by
    rw [roomMaster_nextLobby, nextLobbyMaster_best hdistinct hid hbest]
    exact if_neg hnot
  unchanged hnot hnone := by
    rw [roomMaster_nextLobby, nextLobbyMaster_none hnone]
    exact if_neg hnot

end ProtocolRoomState

end P5136
