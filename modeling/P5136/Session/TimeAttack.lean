import P5136.Identity.Binding
import P5136.Lib.Checks
import P5136.Lib.FiniteMap

/-!
# Time attacks in a session

A session starts and finishes time attacks. The attempt it runs is in the session; the balance, the selected track and the records
are in the stored profile, which other requests write too. A request checks what the World says of the identity, writes the
profile, and checks the identity again before it changes the session. A request that fails ends the session.
-/

namespace P5136

namespace Session

/-- `P5136_FALLBACK_TRACK_ID`. -/
def fallbackTrackId : Nat := 0x34ca03f6

/-- `DEFAULT_RP`. -/
def defaultRp : Nat := 20000000

/-- The errors of the requests here; the texts of the World, the store and the physics are not looked at. -/
inductive SessionError where
  | world (text : String)
  | profileJob (text : String)
  | store (text : String)
  | physics (text : String)
  | profileNotBound
  | profileIdentityFenceChanged (expectedOwner : SessionId) (expectedUserNo : UserNo)
      (expectedGeneration : IdentityGeneration) (actualOwner : SessionId) (actualUserNo : UserNo)
      (actualGeneration : IdentityGeneration)
  | timeAttackInsufficientLucci (required available : Nat)
  | timeAttackFinishWithoutStart
  | timeAttackLucciOverflow
deriving DecidableEq

/-! ## Requests -/

structure StartTimeAttackRequest where
  startToken : Int
  requestedTrack : Nat
  speedType : Nat
  gameType : Nat
  kartId : Nat
  flyingPetId : Nat
  startType : Nat
  attackType : Nat
  modeType : Nat
deriving DecidableEq

def StartTimeAttackRequest.entryFee (request : StartTimeAttackRequest) : Nat := if request.modeType = 1 then 1000 else 0

/-- The track that a request asks for. -/
def StartTimeAttackRequest.track (request : StartTimeAttackRequest) : Nat :=
  if request.requestedTrack = 0 then fallbackTrackId else request.requestedTrack

structure FinishTimeAttackRequest where
  resultType : Int
  rewardType : Nat
  raceTime : Nat
deriving DecidableEq

structure TimeReward where
  earnedRp : Nat
  earnedLucci : Nat
deriving DecidableEq

def finishReward : (rewardType : Nat) → TimeReward
  | 0 => ⟨10, 20⟩
  | 1 => ⟨20, 50⟩
  | _ => ⟨0, 0⟩

structure StartChallengerRequest where
  stageId : Nat
  stageContext : Nat
  gameType : Nat
  kartId : Nat
  secondaryEquipmentId : Nat
  producerFlag : Nat
deriving DecidableEq

/-! ## Profiles -/

/-- What time attacks read and write of a profile. -/
structure TimeAttackProfile where
  lucci : Nat
  koin : Nat
  rp : Nat
  time : Nat
  track : Nat
  speedType : Nat
  gameType : Nat
  attackType : Nat
  timeAttackRecords : FiniteMap Nat Nat

/-- What another request does to a profile; only the end of a time attack writes its records. -/
structure ProfileUpdate where
  apply : TimeAttackProfile → TimeAttackProfile
  records : ∀ profile, (apply profile).timeAttackRecords = profile.timeAttackRecords

/-- The mutation of `select_track_rank`. -/
def selectTrackRank (track : Nat) : ProfileUpdate := ⟨fun profile => { profile with track := track }, fun _ => rfl⟩

/-- The mutation of `decrement_lucci`. -/
def decrementLucci (amount : Nat) : ProfileUpdate :=
  ⟨fun profile => { profile with lucci := profile.lucci - amount }, fun _ => rfl⟩

/-- The mutation of `start_time_attack`. -/
def startTimeAttack (request : StartTimeAttackRequest) (track : Nat) (profile : TimeAttackProfile) :
    Except SessionError (Unit × TimeAttackProfile) :=
  if profile.lucci < request.entryFee then .error (.timeAttackInsufficientLucci request.entryFee profile.lucci)
  else .ok ((), { profile with
    lucci := profile.lucci - request.entryFee
    speedType := request.speedType
    gameType := request.gameType
    attackType := request.attackType
    track := track })

structure AppliedTimeReward where
  currentRp : Nat
  earnedRp : Nat
  earnedLucci : Nat
  currentLucci : Nat
deriving DecidableEq

/-- The records with the time of a finished attempt. -/
def recordTime (track raceTime : Nat) (records : FiniteMap Nat Nat) : FiniteMap Nat Nat :=
  if raceTime ≠ 0 then
    records.insert track (match records.lookup track with
      | some best => min best raceTime
      | none => raceTime)
  else records

/-- The mutation of `finish_time_attack`. -/
def finishTimeAttack (request : FinishTimeAttackRequest) (track : Nat) (profile : TimeAttackProfile) :
    Except SessionError (AppliedTimeReward × TimeAttackProfile) :=
  let reward := finishReward request.rewardType
  let currentLucci := profile.lucci + reward.earnedLucci
  if currentLucci < 2 ^ 32 then
    .ok (⟨defaultRp, reward.earnedRp, reward.earnedLucci, currentLucci⟩, { profile with
      time := request.raceTime
      rp := defaultRp
      lucci := currentLucci
      timeAttackRecords := recordTime track request.raceTime profile.timeAttackRecords })
  else .error .timeAttackLucciOverflow

/-! ## The session -/

structure ActiveTimeAttack where
  request : StartTimeAttackRequest
  track : Nat
deriving DecidableEq

structure BoundProfile where
  identity : IdentityBinding
  profile : TimeAttackProfile

structure SessionContext where
  profile : Option BoundProfile
  activeTimeAttack : Option ActiveTimeAttack
  activeChallenger : Option StartChallengerRequest

namespace SessionContext

/-- A session as it begins. -/
def initial : SessionContext := ⟨none, none, none⟩

def boundProfileFor (context : SessionContext) (identity : IdentityBinding) : Except SessionError BoundProfile :=
  Checks.orElse (context.profile.filter fun bound =>
    bound.identity.owner = identity.owner ∧ bound.identity.userNo = identity.userNo ∧
      bound.identity.generation = identity.generation) .profileNotBound

def bindProfile (context : SessionContext) (identity : IdentityBinding) (profile : TimeAttackProfile) : SessionContext :=
  let bindingUnchanged := (context.profile.filter fun bound => bound.identity = identity).isSome
  { profile := some ⟨identity, profile⟩
    activeTimeAttack := if bindingUnchanged then context.activeTimeAttack else none
    activeChallenger := if bindingUnchanged then context.activeChallenger else none }

def beginTimeAttack (context : SessionContext) (request : StartTimeAttackRequest) (track : Nat) : SessionContext :=
  { context with activeTimeAttack := some ⟨request, track⟩ }

def completeTimeAttack (context : SessionContext) : SessionContext := { context with activeTimeAttack := none }

end SessionContext

def ensureIdentityFence (expected actual : IdentityBinding) : Except SessionError Unit :=
  if expected = actual then .ok ()
  else .error (.profileIdentityFenceChanged expected.owner expected.userNo expected.generation actual.owner actual.userNo
    actual.generation)

/-- What becomes of a write of a profile: it is published, published without being confirmed, or not published. -/
inductive WriteOutcome where
  | durable
  | uncertain (text : String)
  | failed (text : String)
deriving DecidableEq

/-- What a request meets outside the session: what the World says of the identity before and after the write, whether the stage is
entered and the job admitted, what becomes of the write, and the physics of the kart. -/
structure Surroundings where
  before : Except SessionError IdentityBinding
  stage : Except SessionError Unit
  admission : Except SessionError Unit
  write : WriteOutcome
  after : Except SessionError IdentityBinding
  physics : StartTimeAttackRequest → TimeAttackProfile → Except SessionError (List UInt8)

/-- The stored profiles by their keys, and the session. -/
structure ProfileSession where
  store : String → TimeAttackProfile
  context : SessionContext

/-- The replies to the requests. -/
inductive SessionReply where
  | startTimeAttack (startToken : Int) (physics : List UInt8) (lucci koin track : Nat)
  | finishTimeAttack (resultType : Int) (attackType rewardType trainingLevel : Nat)
  | trackRank (track : Nat)
  | startChallenger (request : StartChallengerRequest)
  | completeChallenger (stageType endType : Nat)
  | none
deriving DecidableEq

/-- A request that was handled: the session after it, whether it published a profile, and its reply. -/
structure Handled where
  session : ProfileSession
  published : Bool
  reply : Except SessionError SessionReply

/-- A profile transaction: the store after it, whether it published a profile, and its result. -/
structure Transacted (α : Type) where
  store : String → TimeAttackProfile
  published : Bool
  result : Except SessionError (α × TimeAttackProfile)

/-- `transaction`, with `committed_profile_transaction` behind it. -/
def transaction {α : Type} (store : String → TimeAttackProfile) (key : String) (write : WriteOutcome)
    (mutation : TimeAttackProfile → Except SessionError (α × TimeAttackProfile)) : Transacted α :=
  match mutation (store key), write with
  | .error error, .durable => ⟨store, false, .error error⟩
  | .error _, .uncertain text => ⟨store, false, .error (.store text)⟩
  | .error _, .failed text => ⟨store, false, .error (.store text)⟩
  | .ok (value, profile), .durable => ⟨Function.update store key profile, true, .ok (value, profile)⟩
  | .ok (_, profile), .uncertain text => ⟨Function.update store key profile, true, .error (.store text)⟩
  | .ok _, .failed text => ⟨store, false, .error (.store text)⟩

section

variable (U : Unicode)

/-- A request that checks something, writes the profile of the identity, and goes on. -/
def writing {α : Type} (s : ProfileSession) (write : WriteOutcome) (checked : Except SessionError IdentityBinding)
    (mutation : TimeAttackProfile → Except SessionError (α × TimeAttackProfile))
    (rest : IdentityBinding → α → TimeAttackProfile → Except SessionError (SessionContext × SessionReply)) : Handled :=
  match checked with
  | .error error => ⟨s, false, .error error⟩
  | .ok before =>
    let written := transaction s.store (canonicalNicknameKey U before.nickname) write mutation
    match written.result with
    | .error error => ⟨⟨written.store, s.context⟩, written.published, .error error⟩
    | .ok (value, profile) =>
      match rest before value profile with
      | .error error => ⟨⟨written.store, s.context⟩, written.published, .error error⟩
      | .ok (context, reply) => ⟨⟨written.store, context⟩, written.published, .ok reply⟩

def handleStartTimeAttack (s : ProfileSession) (around : Surroundings) (request : StartTimeAttackRequest) : Handled :=
  writing U s around.write
    (do
      let before ← around.before
      let _ ← s.context.boundProfileFor before
      around.stage
      around.admission
      pure before)
    (startTimeAttack request request.track)
    fun before _ profile => do
      let after ← around.after
      ensureIdentityFence before after
      let physics ← around.physics request profile
      pure ((s.context.bindProfile after profile).beginTimeAttack request request.track,
        .startTimeAttack request.startToken physics profile.lucci profile.koin request.track)

/-- `handle_finish_time_attack`, with the active attempt. -/
def finishActiveTimeAttack (s : ProfileSession) (around : Surroundings) (request : FinishTimeAttackRequest)
    (active : ActiveTimeAttack) : Handled :=
  writing U s around.write
    (do
      let before ← around.before
      let _ ← s.context.boundProfileFor before
      around.admission
      pure before)
    (finishTimeAttack request active.track)
    fun before _ profile => do
      let after ← around.after
      ensureIdentityFence before after
      pure ((s.context.bindProfile after profile).completeTimeAttack,
        .finishTimeAttack request.resultType active.request.attackType request.rewardType 1)

def handleFinishTimeAttack (s : ProfileSession) (around : Surroundings) (request : FinishTimeAttackRequest) : Handled :=
  match s.context.activeTimeAttack with
  | none => ⟨s, false, .error .timeAttackFinishWithoutStart⟩
  | some active => finishActiveTimeAttack U s around request active

/-- A request that updates the profile and binds it again: `get_track_rank_admitted`, `decrement_lucci_admitted` and the like. -/
def handleProfileUpdate (s : ProfileSession) (around : Surroundings) (update : ProfileUpdate) (reply : SessionReply) : Handled :=
  writing U s around.write
    (do
      let before ← around.before
      let _ ← s.context.boundProfileFor before
      around.stage
      around.admission
      pure before)
    (fun profile => .ok ((), update.apply profile))
    fun before _ profile => do
      let after ← around.after
      ensureIdentityFence before after
      let _ ← s.context.boundProfileFor after
      pure (s.context.bindProfile after profile, reply)

/-- A login or a move into a channel: what the World claims for the session is bound with its profile. -/
def handleRebind (s : ProfileSession) (around : Surroundings) : Handled :=
  let rest : Except SessionError SessionContext := do
    let claimed ← around.before
    around.admission
    let after ← around.after
    ensureIdentityFence claimed after
    pure (s.context.bindProfile after (s.store (canonicalNicknameKey U claimed.nickname)))
  match rest with
  | .error error => ⟨s, false, .error error⟩
  | .ok context => ⟨⟨s.store, context⟩, false, .ok .none⟩

def handleStartChallenger (s : ProfileSession) (around : Surroundings) (request : StartChallengerRequest) : Handled :=
  let checked : Except SessionError Unit := do
    let identity ← around.before
    let _ ← s.context.boundProfileFor identity
    around.stage
  match checked with
  | .error error => ⟨s, false, .error error⟩
  | .ok () => ⟨⟨s.store, { s.context with activeChallenger := some request }⟩, false, .ok (.startChallenger request)⟩

def handleCompleteChallenger (s : ProfileSession) (around : Surroundings) (stageType endType : Nat) : Handled :=
  let checked : Except SessionError Unit := do
    let identity ← around.before
    let _ ← s.context.boundProfileFor identity
    pure ()
  match checked with
  | .error error => ⟨s, false, .error error⟩
  | .ok () =>
    ⟨⟨s.store, { s.context with activeChallenger := none }⟩, false, .ok (.completeChallenger stageType endType)⟩

/-- The requests of a session. -/
inductive SessionRequest where
  | startTimeAttack (request : StartTimeAttackRequest)
  | finishTimeAttack (request : FinishTimeAttackRequest)
  | getTrackRank (track : Nat)
  | decLucci (amount : Nat)
  | startChallenger (request : StartChallengerRequest)
  | completeChallenger (stageType endType : Nat)
  | updateProfile (update : ProfileUpdate)
  | rebind

/-- A session handles a request. -/
def handle (s : ProfileSession) (around : Surroundings) : SessionRequest → Handled
  | .startTimeAttack request => handleStartTimeAttack U s around request
  | .finishTimeAttack request => handleFinishTimeAttack U s around request
  | .getTrackRank track => handleProfileUpdate U s around (selectTrackRank track) (.trackRank track)
  | .decLucci amount => handleProfileUpdate U s around (decrementLucci amount) .none
  | .startChallenger request => handleStartChallenger s around request
  | .completeChallenger stageType endType => handleCompleteChallenger s around stageType endType
  | .updateProfile update => handleProfileUpdate U s around update .none
  | .rebind => handleRebind U s around

end

end Session

end P5136
