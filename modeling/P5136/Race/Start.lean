import P5136.Room.View
import P5136.World.Errors

/-!
# Starting a race

The concrete track that a random selector stands for, and the roster that a race freezes.
-/

namespace P5136

/-- `P5136_RANDOM_TRACK_SELECTORS`. -/
def randomTrackSelectors : List Nat := [0, 1, 3, 4, 5, 6, 7, 8, 23, 30, 33, 40]

def isRandomTrackSelector (track : Nat) : Bool := track ∈ randomTrackSelectors

/-! ## Tracks -/

/-- The concrete tracks among the candidates, in order and each once. -/
def concreteCandidates (candidates : List Nat) : List Nat :=
  ((candidates.filter (fun track => !isRandomTrackSelector track)).mergeSort (· ≤ ·)).dedup

namespace ProtocolRoomState

variable (room : ProtocolRoomState)

/-- The pool of a selector: the history of another pool is forgotten. -/
def enterTrackPool (pool : Nat × Nat) : ProtocolRoomState :=
  if room.randomTrackPool = some pool then room
  else { room with randomTrackPool := some pool, randomTracksUsed := [], lastRandomTrack := none }

/-- The tracks of the history that are still candidates, unless all candidates were used. -/
def tracksUsedOf (candidates : List Nat) : List Nat :=
  let used := room.randomTracksUsed.filter (fun track => track ∈ candidates)
  if candidates.length ≤ used.length then [] else used

/-- The tracks to draw from: those not used, without the last one when there is another. -/
def tracksAvailable (candidates used : List Nat) : List Nat :=
  let available := candidates.filter (fun track => track ∉ used)
  let available := match room.lastRandomTrack with
    | some last => if 1 < available.length then available.filter (fun track => track ≠ last) else available
    | none => available
  if available = [] then candidates else available

/-- `select_concrete_track`: the track of a race and the room with its history. `draw` is the random number. -/
def selectConcreteTrack (candidates : List Nat) (draw : Nat) : Except LobbyError (Nat × ProtocolRoomState) :=
  if !isRandomTrackSelector room.settings.track then
    .ok (room.settings.track, { room with randomTrackPool := none, randomTracksUsed := [], lastRandomTrack := none })
  else
    let candidates := concreteCandidates candidates
    if candidates = [] then .error .missingTrackCandidates
    else
      let next := room.enterTrackPool (if room.settings.gameType = 2 ∨ room.settings.gameType = 4 then 1 else 0,
        room.settings.track)
      let used := next.tracksUsedOf candidates
      let available := next.tracksAvailable candidates used
      let selected := available.getD (draw % available.length) 0
      .ok (selected, { next with randomTracksUsed := used ++ [selected], lastRandomTrack := some selected })

/-! ## The roster -/

/-- A frozen racer. -/
def freezeRacer (identity : IdentityBinding) (id : MemberId) (member : ProtocolRoomMember) : FrozenRaceParticipant where
  identity := identity
  nickname := member.player.nickname
  playerId := id.val
  observer := false
  team := member.player.team
  result := some
    { kartId := snapshotU16 member.player.riderItemSnapshot 4
      floaterCodes := member.floaterCodes
      characterId := snapshotU16 member.player.riderItemSnapshot 0
      clubMarkLogo := member.player.clubMarkLogo
      economy := .pending }

/-- A frozen observer. -/
def freezeObserver (identity : IdentityBinding) (id : ObserverId) (member : ProtocolRoomMember) : FrozenRaceParticipant where
  identity := identity
  nickname := member.player.nickname
  playerId := observerPlayerId id
  observer := true
  team := 0
  result := none

/-- `freeze_race_roster`, with the identity that is active for a user. -/
def freezeRaceRoster (activeIdentity : UserNo → Option IdentityBinding) (fence : RaceFence) (concreteTrack : Nat) :
    Except LobbyError FrozenRaceRoster := do
  let racers ← Checks.traverse (fun entry : MemberId × ProtocolRoomMember =>
    match activeIdentity entry.2.userNo with
    | none => .error (.inactiveRosterMember entry.2.userNo.get)
    | some identity => .ok (freezeRacer identity entry.1 entry.2)) room.members
  let watchers ← Checks.traverse (fun entry : ObserverId × ProtocolRoomMember =>
    match activeIdentity entry.2.userNo with
    | none => .error (.inactiveRosterMember entry.2.userNo.get)
    | some identity => .ok (freezeObserver identity entry.1 entry.2)) room.watchers
  .ok
    { fence := fence
      concreteTrack := concreteTrack
      participants := racers ++ watchers
      ais := room.ais.map (fun entry => { playerId := entry.1.val, team := entry.2.team, kartId := entry.2.kart }) }

end ProtocolRoomState

end P5136
