import P5136.Lib.Slot
import P5136.Session.TimeAttack

/-!
# What time attacks cost and earn

In a run of a session every finished attempt that is credited was started before under the same identity, was not replaced since,
and is credited once. A request that does not publish a profile changes none.
-/

namespace P5136

namespace Session

open Checks Except

/-! ## One request -/

section

variable {U : Unicode} {α : Type} {s : ProfileSession} {write : WriteOutcome} {checked : Except SessionError IdentityBinding}
variable {mutation : TimeAttackProfile → Except SessionError (α × TimeAttackProfile)}
variable {rest : IdentityBinding → α → TimeAttackProfile → Except SessionError (SessionContext × SessionReply)}

/-- How a request that writes a profile ends: without publishing one, with a failure behind the publication, or with a reply. -/
inductive Written (U : Unicode) (s : ProfileSession) (write : WriteOutcome) (checked : Except SessionError IdentityBinding)
    (mutation : TimeAttackProfile → Except SessionError (α × TimeAttackProfile))
    (rest : IdentityBinding → α → TimeAttackProfile → Except SessionError (SessionContext × SessionReply)) :
    Handled → Prop where
  | unpublished (error : SessionError) : Written U s write checked mutation rest ⟨s, false, .error error⟩
  | failed {before : IdentityBinding} {value : α} {profile : TimeAttackProfile} (error : SessionError)
      (hchecked : checked = .ok before)
      (hmutation : mutation (s.store (canonicalNicknameKey U before.nickname)) = .ok (value, profile))
      (hwhy : (∃ text, write = .uncertain text) ∨ write = .durable ∧ rest before value profile = .error error) :
      Written U s write checked mutation rest
        ⟨⟨Function.update s.store (canonicalNicknameKey U before.nickname) profile, s.context⟩, true, .error error⟩
  | replied {before : IdentityBinding} {value : α} {profile : TimeAttackProfile} {context : SessionContext}
      {reply : SessionReply} (hchecked : checked = .ok before)
      (hmutation : mutation (s.store (canonicalNicknameKey U before.nickname)) = .ok (value, profile))
      (hwrite : write = .durable) (hrest : rest before value profile = .ok (context, reply)) :
      Written U s write checked mutation rest
        ⟨⟨Function.update s.store (canonicalNicknameKey U before.nickname) profile, context⟩, true, .ok reply⟩

/-- A request that writes a profile ends in one of these ways. -/
theorem writing_written : Written U s write checked mutation rest (writing U s write checked mutation rest) := by
  unfold writing
  cases hchecked : checked with
  | error error => exact .unpublished error
  | ok before =>
    dsimp only
    unfold transaction
    cases hmutation : mutation (s.store (canonicalNicknameKey U before.nickname)) with
    | error error => cases write <;> exact .unpublished _
    | ok result =>
      obtain ⟨value, profile⟩ := result
      cases hwrite : write with
      | failed text => exact .unpublished _
      | uncertain text => exact .failed _ rfl hmutation (.inl ⟨text, rfl⟩)
      | durable =>
        dsimp only
        cases hrest : rest before value profile with
        | error error => exact .failed _ rfl hmutation (.inr ⟨rfl, hrest⟩)
        | ok result => exact .replied rfl hmutation rfl hrest

variable {handled : Handled}

/-- A request that is answered made its checks, published what the mutation made, and did the rest. -/
theorem Written.of_ok (h : Written U s write checked mutation rest handled) (hok : handled.reply.isOk = true) :
    ∃ before value profile context reply, checked = .ok before ∧
      mutation (s.store (canonicalNicknameKey U before.nickname)) = .ok (value, profile) ∧
      rest before value profile = .ok (context, reply) ∧
      handled = ⟨⟨Function.update s.store (canonicalNicknameKey U before.nickname) profile, context⟩, true, .ok reply⟩ := by
  cases h with
  | unpublished error => cases hok
  | failed error hchecked hmutation hwhy => cases hok
  | replied hchecked hmutation hwrite hrest => exact ⟨_, _, _, _, _, hchecked, hmutation, hrest, rfl⟩

/-- A request that publishes a profile made its checks, and publishes what the mutation made. -/
theorem Written.of_published (h : Written U s write checked mutation rest handled) (hpublished : handled.published = true) :
    ∃ before value profile, checked = .ok before ∧
      mutation (s.store (canonicalNicknameKey U before.nickname)) = .ok (value, profile) ∧
      handled.session.store = Function.update s.store (canonicalNicknameKey U before.nickname) profile ∧
      (handled.reply.isOk = false → (∃ text, write = .uncertain text) ∨ ∃ error, rest before value profile = .error error) := by
  cases h with
  | unpublished error => cases hpublished
  | failed error hchecked hmutation hwhy =>
    exact ⟨_, _, _, hchecked, hmutation, rfl, fun _ => hwhy.imp_right fun h => ⟨error, h.2⟩⟩
  | replied hchecked hmutation hwrite hrest => exact ⟨_, _, _, hchecked, hmutation, rfl, fun h => by cases h⟩

/-- A request that publishes no profile changes nothing, and fails. -/
theorem Written.of_not_published (h : Written U s write checked mutation rest handled) (hpublished : handled.published = false) :
    handled.session = s ∧ handled.reply.isOk = false := by
  cases h with
  | unpublished error => exact ⟨rfl, rfl⟩
  | failed error hchecked hmutation hwhy => cases hpublished
  | replied hchecked hmutation hwrite hrest => cases hpublished

end

section

variable {U : Unicode} {context : SessionContext} {identity : IdentityBinding}

/-- Bindings that `bound_profile_for` does not tell apart. -/
def SameBinding (a b : IdentityBinding) : Prop := a.owner = b.owner ∧ a.userNo = b.userNo ∧ a.generation = b.generation

/-- A bound profile is the one of the context, under the same binding. -/
theorem boundProfileFor_eq_ok {bound : BoundProfile} :
    context.boundProfileFor identity = .ok bound ↔ context.profile = some bound ∧ SameBinding bound.identity identity := by
  unfold SessionContext.boundProfileFor SameBinding
  rw [orElse_eq_ok, Option.filter_eq_some_iff, decide_eq_true_iff]

/-- The fence holds when the identities are the same. -/
theorem ensureIdentityFence_eq_ok {expected actual : IdentityBinding} {x : Unit} :
    ensureIdentityFence expected actual = .ok x ↔ expected = actual := by
  unfold ensureIdentityFence
  split <;> simp_all

/-- The attempt of a session, and the binding it was started under. -/
def SessionContext.attempt (context : SessionContext) : Option (IdentityBinding × ActiveTimeAttack) :=
  context.activeTimeAttack.bind fun active => context.profile.map fun bound => (bound.identity, active)

/-- Binding a profile keeps the attempt, or drops it. -/
theorem attempt_bindProfile (profile : TimeAttackProfile) :
    (context.bindProfile identity profile).attempt = context.attempt ∨
      (context.bindProfile identity profile).attempt = none := by
  unfold SessionContext.attempt SessionContext.bindProfile
  by_cases hunchanged : (context.profile.filter fun bound => bound.identity = identity).isSome = true
  · left
    obtain ⟨bound, hbound⟩ := Option.isSome_iff_exists.1 hunchanged
    obtain ⟨hprofile, hidentity⟩ := Option.filter_eq_some_iff.1 hbound
    obtain rfl : bound.identity = identity := of_decide_eq_true hidentity
    dsimp only
    rw [if_pos hunchanged, hprofile]
    rfl
  · right
    simp only [hunchanged, Bool.false_eq_true, if_false, Option.bind_none]

end

/-! ## Runs -/

/-- A request in a run, with the session that handles it and what it meets. -/
structure SessionStep where
  before : ProfileSession
  around : Surroundings
  request : SessionRequest

/-- What becomes of it. -/
def SessionStep.handled (U : Unicode) (step : SessionStep) : Handled := handle U step.before step.around step.request

/-- The requests of a session so far, and the session after them; it ends with the first that fails. In between others may write the
profiles. -/
inductive Run (U : Unicode) (store : String → TimeAttackProfile) : List SessionStep → ProfileSession → Prop where
  | start : Run U store [] ⟨store, .initial⟩
  | next {past : List SessionStep} {s : ProfileSession} (h : Run U store past s)
      (halive : ∀ step ∈ past, (step.handled U).reply.isOk = true) (around : Surroundings) (request : SessionRequest) :
      Run U store (past ++ [⟨s, around, request⟩]) (handle U s around request).session
  | elsewhere {past : List SessionStep} {s : ProfileSession} (h : Run U store past s) (key : String) (update : ProfileUpdate) :
      Run U store past { s with store := Function.update s.store key (update.apply (s.store key)) }

section

variable (U : Unicode)

/-- An attempt is started, under a binding. -/
def SessionStep.Started (step : SessionStep) (binding : IdentityBinding) (attempt : ActiveTimeAttack) : Prop :=
  ∃ request, step.request = .startTimeAttack request ∧ (step.handled U).reply.isOk = true ∧
    step.around.before = .ok binding ∧ attempt = ⟨request, request.track⟩

/-- A finished attempt is credited: its profile is published, whether or not the request fails behind that. -/
def SessionStep.Credited (step : SessionStep) (binding : IdentityBinding) (attempt : ActiveTimeAttack) : Prop :=
  ∃ request, step.request = .finishTimeAttack request ∧ (step.handled U).published = true ∧
    step.around.before = .ok binding ∧ step.before.context.activeTimeAttack = some attempt

end

/-! ## What a request does to the attempt -/

section

variable {U : Unicode} {s : ProfileSession} {around : Surroundings}

/-- The checks before a write say who writes. -/
theorem checked_eq_ok {tail : IdentityBinding → Except SessionError IdentityBinding} {before : IdentityBinding}
    (htail : ∀ identity, tail identity = .ok before → identity = before)
    (h : (do
      let identity ← around.before
      let _ ← s.context.boundProfileFor identity
      tail identity) = .ok before) :
    around.before = .ok before ∧ ∃ bound, s.context.profile = some bound ∧ SameBinding bound.identity before := by
  obtain ⟨identity, hidentity, h⟩ := bind_eq_ok.1 h
  obtain ⟨bound, hbound, h⟩ := bind_eq_ok.1 h
  obtain rfl := htail identity h
  obtain ⟨hprofile, hsame⟩ := boundProfileFor_eq_ok.1 hbound
  exact ⟨hidentity, bound, hprofile, hsame⟩

/-- A start that is answered leaves its attempt, under the identity it was accepted for. -/
theorem attempt_of_start {request : StartTimeAttackRequest}
    (h : (handleStartTimeAttack U s around request).reply.isOk = true) :
    ∃ identity, around.before = .ok identity ∧
      (handleStartTimeAttack U s around request).session.context.attempt = some (identity, ⟨request, request.track⟩) := by
  have hwritten : Written U s around.write _ (startTimeAttack request request.track) _
      (handleStartTimeAttack U s around request) := writing_written
  obtain ⟨before, value, profile, context, reply, hchecked, -, hrest, hhandled⟩ := hwritten.of_ok h
  obtain ⟨hbefore, -⟩ := checked_eq_ok (fun identity hidentity => by
    obtain ⟨_, -, hidentity⟩ := bind_eq_ok.1 hidentity
    obtain ⟨_, -, hidentity⟩ := bind_eq_ok.1 hidentity
    exact ok.inj hidentity) hchecked
  obtain ⟨after, -, hrest⟩ := bind_eq_ok.1 hrest
  obtain ⟨_, hfence, hrest⟩ := bind_eq_ok.1 hrest
  obtain ⟨physics, -, hrest⟩ := bind_eq_ok.1 hrest
  obtain ⟨rfl, -⟩ := Prod.mk.inj (ok.inj hrest)
  obtain rfl := ensureIdentityFence_eq_ok.1 hfence
  refine ⟨before, hbefore, ?_⟩
  rw [hhandled]
  rfl

/-- A finish that publishes a profile ends the attempt of the session, under the binding it was started under. -/
theorem attempt_of_finish {request : FinishTimeAttackRequest}
    (h : (handleFinishTimeAttack U s around request).published = true) :
    ∃ active bound identity, s.context.activeTimeAttack = some active ∧ s.context.profile = some bound ∧
      around.before = .ok identity ∧ SameBinding bound.identity identity ∧
      ((handleFinishTimeAttack U s around request).reply.isOk = true →
        (handleFinishTimeAttack U s around request).session.context.attempt = none) := by
  cases hactive : s.context.activeTimeAttack with
  | none =>
    unfold handleFinishTimeAttack at h
    rw [hactive] at h
    cases h
  | some active =>
    have hfinish : handleFinishTimeAttack U s around request = finishActiveTimeAttack U s around request active := by
      unfold handleFinishTimeAttack
      rw [hactive]
    have hwritten : Written U s around.write _ (finishTimeAttack request active.track) _
        (finishActiveTimeAttack U s around request active) := writing_written
    rw [hfinish] at h ⊢
    obtain ⟨identity, value, profile, hchecked, -⟩ := hwritten.of_published h
    obtain ⟨hbefore, bound, hprofile, hsame⟩ := checked_eq_ok (fun identity hidentity => by
      obtain ⟨_, -, hidentity⟩ := bind_eq_ok.1 hidentity
      exact ok.inj hidentity) hchecked
    refine ⟨active, bound, identity, rfl, hprofile, hbefore, hsame, fun hok => ?_⟩
    obtain ⟨before, value, profile, context, reply, -, -, hrest, hhandled⟩ := hwritten.of_ok hok
    obtain ⟨after, -, hrest⟩ := bind_eq_ok.1 hrest
    obtain ⟨_, -, hrest⟩ := bind_eq_ok.1 hrest
    obtain ⟨rfl, -⟩ := Prod.mk.inj (ok.inj hrest)
    rw [hhandled]
    rfl

/-- A finish that publishes no profile changes nothing, and fails. -/
theorem unpublished_of_finish {request : FinishTimeAttackRequest}
    (h : (handleFinishTimeAttack U s around request).published = false) :
    (handleFinishTimeAttack U s around request).session = s ∧
      (handleFinishTimeAttack U s around request).reply.isOk = false := by
  cases hactive : s.context.activeTimeAttack with
  | none =>
    unfold handleFinishTimeAttack
    rw [hactive]
    exact ⟨rfl, rfl⟩
  | some active =>
    have hfinish : handleFinishTimeAttack U s around request = finishActiveTimeAttack U s around request active := by
      unfold handleFinishTimeAttack
      rw [hactive]
    have hwritten : Written U s around.write _ (finishTimeAttack request active.track) _
        (finishActiveTimeAttack U s around request active) := writing_written
    rw [hfinish] at h ⊢
    exact hwritten.of_not_published h

/-- A request that updates the profile keeps the attempt, or drops it. -/
theorem attempt_of_update {update : ProfileUpdate} {reply : SessionReply}
    (h : (handleProfileUpdate U s around update reply).reply.isOk = true) :
    (handleProfileUpdate U s around update reply).session.context.attempt = s.context.attempt ∨
      (handleProfileUpdate U s around update reply).session.context.attempt = none := by
  have hwritten : Written U s around.write _ _ _ (handleProfileUpdate U s around update reply) := writing_written
  obtain ⟨before, value, profile, context, reply', -, -, hrest, hhandled⟩ := hwritten.of_ok h
  obtain ⟨after, -, hrest⟩ := bind_eq_ok.1 hrest
  obtain ⟨_, -, hrest⟩ := bind_eq_ok.1 hrest
  obtain ⟨_, -, hrest⟩ := bind_eq_ok.1 hrest
  obtain ⟨rfl, -⟩ := Prod.mk.inj (ok.inj hrest)
  rw [hhandled]
  exact attempt_bindProfile profile

/-- So does a login or a move into a channel. -/
theorem attempt_of_rebind :
    (handleRebind U s around).session.context.attempt = s.context.attempt ∨
      (handleRebind U s around).session.context.attempt = none := by
  unfold handleRebind
  dsimp only
  split
  · exact .inl rfl
  · rename_i context hrest
    obtain ⟨claimed, -, hrest⟩ := bind_eq_ok.1 hrest
    obtain ⟨_, -, hrest⟩ := bind_eq_ok.1 hrest
    obtain ⟨after, -, hrest⟩ := bind_eq_ok.1 hrest
    obtain ⟨_, -, hrest⟩ := bind_eq_ok.1 hrest
    obtain rfl := ok.inj hrest
    exact attempt_bindProfile _

/-- Challenges keep the attempt. -/
theorem attempt_of_startChallenger {request : StartChallengerRequest} :
    (handleStartChallenger s around request).session.context.attempt = s.context.attempt := by
  unfold handleStartChallenger
  dsimp only
  split <;> rfl

/-- So does their end. -/
theorem attempt_of_completeChallenger {stageType endType : Nat} :
    (handleCompleteChallenger s around stageType endType).session.context.attempt = s.context.attempt := by
  unfold handleCompleteChallenger
  dsimp only
  split <;> rfl

end

/-! ## Starts and credits -/

section

variable {U : Unicode} {store : String → TimeAttackProfile} {past : List SessionStep} {s : ProfileSession}

/-- What a request does to the slot of the attempt: an accepted start fills it, a credited finish takes what it holds, and any
other request keeps it or clears it. -/
def Tells (U : Unicode) (step : SessionStep) : Slot.Event (IdentityBinding × ActiveTimeAttack) → Prop
  | .put started => step.Started U started.1 started.2
  | .take held => ∃ identity, step.Credited U identity held.2 ∧ SameBinding held.1 identity
  | .clear => (∀ binding attempt, ¬step.Started U binding attempt) ∧ ∀ binding attempt, ¬step.Credited U binding attempt
  | .idle => (∀ binding attempt, ¬step.Started U binding attempt) ∧ ∀ binding attempt, ¬step.Credited U binding attempt

/-- A request that is no start and no finish starts and credits nothing. -/
theorem not_started_credited {step : SessionStep} (hstart : ∀ request, step.request ≠ .startTimeAttack request)
    (hfinish : ∀ request, step.request ≠ .finishTimeAttack request) :
    (∀ binding attempt, ¬step.Started U binding attempt) ∧ ∀ binding attempt, ¬step.Credited U binding attempt :=
  ⟨fun _ _ ⟨request, h, _⟩ => hstart request h, fun _ _ ⟨request, h, _⟩ => hfinish request h⟩

/-- What a request does, when the slot holds the attempt of the session: it tells an event, and behind it the slot holds the attempt
again, unless the request failed. -/
theorem tells_step (around : Surroundings) (request : SessionRequest)
    {events : List (Slot.Event (IdentityBinding × ActiveTimeAttack))} (hslot : Slot.Run events s.context.attempt) :
    ∃ event held, Slot.Run (events ++ [event]) held ∧ Tells U ⟨s, around, request⟩ event ∧
      ((handle U s around request).reply.isOk = true → (handle U s around request).session.context.attempt = held) := by
  -- a request that keeps the attempt or drops it
  have hother (hstart : ∀ r, request ≠ .startTimeAttack r) (hfinish : ∀ r, request ≠ .finishTimeAttack r)
      (h : (handle U s around request).reply.isOk = true →
        (handle U s around request).session.context.attempt = s.context.attempt ∨
          (handle U s around request).session.context.attempt = none) :
      ∃ event held, Slot.Run (events ++ [event]) held ∧ Tells U ⟨s, around, request⟩ event ∧
        ((handle U s around request).reply.isOk = true → (handle U s around request).session.context.attempt = held) := by
    by_cases hok : (handle U s around request).reply.isOk = true
    · rcases h hok with hkept | hdropped
      · exact ⟨.idle, _, hslot.idle, not_started_credited hstart hfinish, fun _ => hkept⟩
      · exact ⟨.clear, _, hslot.clear, not_started_credited hstart hfinish, fun _ => hdropped⟩
    · exact ⟨.idle, _, hslot.idle, not_started_credited hstart hfinish, fun h => absurd h hok⟩
  cases request with
  | startTimeAttack request =>
    by_cases hok : (handle U s around (.startTimeAttack request)).reply.isOk = true
    · obtain ⟨identity, hbefore, hattempt⟩ := attempt_of_start hok
      exact ⟨.put (identity, ⟨request, request.track⟩), _, hslot.put _, ⟨request, rfl, hok, hbefore, rfl⟩, fun _ => hattempt⟩
    · refine ⟨.idle, _, hslot.idle, ⟨fun binding attempt hstarted => ?_, fun binding attempt hcredited => ?_⟩,
        fun h => absurd h hok⟩
      · obtain ⟨_, -, hok', -⟩ := hstarted
        exact hok hok'
      · obtain ⟨_, hrequest, -⟩ := hcredited
        cases hrequest
  | finishTimeAttack request =>
    by_cases hpublished : (handle U s around (.finishTimeAttack request)).published = true
    · obtain ⟨active, bound, identity, hactive, hprofile, hbefore, hsame, hnone⟩ := attempt_of_finish hpublished
      have hattempt : s.context.attempt = some (bound.identity, active) := by
        unfold SessionContext.attempt
        rw [hactive, hprofile]
        rfl
      rw [hattempt] at hslot
      exact ⟨.take (bound.identity, active), none, hslot.take, ⟨identity, ⟨request, rfl, hpublished, hbefore, hactive⟩, hsame⟩,
        hnone⟩
    · have hfailed := (unpublished_of_finish (Bool.eq_false_iff.2 hpublished)).2
      refine ⟨.idle, _, hslot.idle, ⟨fun binding attempt hstarted => ?_, fun binding attempt hcredited => ?_⟩,
        fun h => by rw [handle, hfailed] at h; cases h⟩
      · obtain ⟨_, hrequest, -⟩ := hstarted
        cases hrequest
      · obtain ⟨_, -, hpublished', -⟩ := hcredited
        exact hpublished hpublished'
  | getTrackRank track => exact hother (by simp) (by simp) attempt_of_update
  | decLucci amount => exact hother (by simp) (by simp) attempt_of_update
  | startChallenger request => exact hother (by simp) (by simp) fun _ => .inl attempt_of_startChallenger
  | completeChallenger stageType endType => exact hother (by simp) (by simp) fun _ => .inl attempt_of_completeChallenger
  | updateProfile update => exact hother (by simp) (by simp) attempt_of_update
  | rebind => exact hother (by simp) (by simp) fun _ => attempt_of_rebind

/-- The requests of a run tell what happened to a slot that, unless the last of them failed, holds the attempt of the session. -/
theorem Run.slot (h : Run U store past s) :
    ∃ events held, Slot.Run events held ∧ List.Forall₂ (Tells U) past events ∧
      ((∀ step ∈ past, (step.handled U).reply.isOk = true) → s.context.attempt = held) := by
  induction h with
  | start => exact ⟨[], none, .start, .nil, fun _ => rfl⟩
  | next h halive around request ih =>
    obtain ⟨events, held, hslot, htells, hattempt⟩ := ih
    obtain rfl := hattempt halive
    obtain ⟨event, held, hslot', htell, hheld⟩ := tells_step around request hslot
    refine ⟨events ++ [event], held, hslot', List.rel_append htells (.cons htell .nil), fun hok => hheld ?_⟩
    exact hok _ (List.mem_append_right _ (List.mem_singleton_self _))
  | elsewhere h key update ih => exact ih

/-! ## Profiles -/

/-- What a start does to the profiles: when it publishes one, the balance of the identity covered the fee and is less by it, and
nothing but the fields of the start is changed; otherwise nothing is changed, and the request fails. A request that fails although it
published fails behind the publication. -/
structure StartAccounts (U : Unicode) (step : SessionStep) (request : StartTimeAttackRequest) : Prop where
  charged : (step.handled U).published = true → ∃ identity, step.around.before = .ok identity ∧
    request.entryFee ≤ (step.before.store (canonicalNicknameKey U identity.nickname)).lucci ∧
    (step.handled U).session.store = Function.update step.before.store (canonicalNicknameKey U identity.nickname)
      { step.before.store (canonicalNicknameKey U identity.nickname) with
        lucci := (step.before.store (canonicalNicknameKey U identity.nickname)).lucci - request.entryFee
        speedType := request.speedType
        gameType := request.gameType
        attackType := request.attackType
        track := request.track }
  unchanged : (step.handled U).published = false →
    (step.handled U).session.store = step.before.store ∧ (step.handled U).reply.isOk = false
  late : (step.handled U).published = true → (step.handled U).reply.isOk = false →
    (∃ text, step.around.write = .uncertain text) ∨ step.around.after ≠ step.around.before ∨
      ∃ profile error, step.around.physics request profile = .error error

/-- What a finish does to the profiles: when it publishes one, there was an attempt, and the identity gets the reward and, unless the
time is zero, its best time on the track of the attempt; otherwise nothing is changed, and the request fails. -/
structure FinishAccounts (U : Unicode) (step : SessionStep) (request : FinishTimeAttackRequest) : Prop where
  credited : (step.handled U).published = true → ∃ identity attempt, step.around.before = .ok identity ∧
    step.before.context.activeTimeAttack = some attempt ∧
    (step.handled U).session.store = Function.update step.before.store (canonicalNicknameKey U identity.nickname)
      { step.before.store (canonicalNicknameKey U identity.nickname) with
        time := request.raceTime
        rp := defaultRp
        lucci := (step.before.store (canonicalNicknameKey U identity.nickname)).lucci +
          (finishReward request.rewardType).earnedLucci
        timeAttackRecords := recordTime attempt.track request.raceTime
          (step.before.store (canonicalNicknameKey U identity.nickname)).timeAttackRecords }
  unchanged : (step.handled U).published = false →
    (step.handled U).session.store = step.before.store ∧ (step.handled U).reply.isOk = false
  late : (step.handled U).published = true → (step.handled U).reply.isOk = false →
    (∃ text, step.around.write = .uncertain text) ∨ step.around.after ≠ step.around.before

/-- A start that was charged covered the fee. -/
theorem startTimeAttack_eq_ok {request : StartTimeAttackRequest} {track : Nat} {profile : TimeAttackProfile}
    {result : Unit × TimeAttackProfile} (h : startTimeAttack request track profile = .ok result) :
    request.entryFee ≤ profile.lucci ∧ result.2 = { profile with
      lucci := profile.lucci - request.entryFee
      speedType := request.speedType
      gameType := request.gameType
      attackType := request.attackType
      track := track } := by
  unfold startTimeAttack at h
  split at h
  · cases h
  · rename_i hcovered
    obtain rfl := ok.inj h
    exact ⟨Nat.le_of_not_lt hcovered, rfl⟩

/-- A finish that was credited adds the reward and the time. -/
theorem finishTimeAttack_eq_ok {request : FinishTimeAttackRequest} {track : Nat} {profile : TimeAttackProfile}
    {result : AppliedTimeReward × TimeAttackProfile} (h : finishTimeAttack request track profile = .ok result) :
    result.2 = { profile with
      time := request.raceTime
      rp := defaultRp
      lucci := profile.lucci + (finishReward request.rewardType).earnedLucci
      timeAttackRecords := recordTime track request.raceTime profile.timeAttackRecords } := by
  unfold finishTimeAttack at h
  dsimp only at h
  split at h
  · obtain rfl := ok.inj h
    rfl
  · cases h

/-- The fence fails when the identity is not the one before. -/
theorem after_ne_before {around : Surroundings} {before : IdentityBinding} {α : Type}
    {tail : IdentityBinding → Except SessionError α} {error : SessionError} (hbefore : around.before = .ok before)
    (h : (do
      let after ← around.after
      ensureIdentityFence before after
      tail after) = .error error) :
    around.after ≠ around.before ∨ tail before = .error error := by
  rcases bind_eq_error.1 h with hafter | ⟨after, hafter, h⟩
  · left
    rw [hafter, hbefore]
    exact nofun
  · by_cases hsame : before = after
    · subst hsame
      rcases bind_eq_error.1 h with hfence | ⟨_, -, h⟩
      · rw [ensureIdentityFence, if_pos rfl] at hfence
        cases hfence
      · exact .inr h
    · left
      rw [hafter, hbefore]
      exact fun heq => hsame (ok.inj heq).symm

/-- Every start keeps its accounts. -/
theorem startAccounts {step : SessionStep} {request : StartTimeAttackRequest} (hrequest : step.request = .startTimeAttack request) :
    StartAccounts U step request := by
  have hhandled : step.handled U = handleStartTimeAttack U step.before step.around request := by
    unfold SessionStep.handled
    rw [hrequest]
    rfl
  have hwritten : Written U step.before step.around.write _ (startTimeAttack request request.track) _
      (handleStartTimeAttack U step.before step.around request) := writing_written
  rw [← hhandled] at hwritten
  have hwho {before : IdentityBinding} (hchecked : (do
      let before ← step.around.before
      let _ ← step.before.context.boundProfileFor before
      step.around.stage
      step.around.admission
      pure before) = .ok before) : step.around.before = .ok before :=
    (checked_eq_ok (fun identity hidentity => by
      obtain ⟨_, -, hidentity⟩ := bind_eq_ok.1 hidentity
      obtain ⟨_, -, hidentity⟩ := bind_eq_ok.1 hidentity
      exact ok.inj hidentity) hchecked).1
  constructor
  · intro hpublished
    obtain ⟨before, value, profile, hchecked, hmutation, hstore, -⟩ := hwritten.of_published hpublished
    obtain ⟨hcovered, hprofile⟩ := startTimeAttack_eq_ok hmutation
    refine ⟨before, hwho hchecked, hcovered, ?_⟩
    rw [hstore, show profile = _ from hprofile]
  · intro hpublished
    obtain ⟨hsession, hfailed⟩ := hwritten.of_not_published hpublished
    exact ⟨by rw [hsession], hfailed⟩
  · intro hpublished hfailed
    obtain ⟨before, value, profile, hchecked, -, -, hwhy⟩ := hwritten.of_published hpublished
    rcases hwhy hfailed with huncertain | ⟨error, herror⟩
    · exact .inl huncertain
    · rcases after_ne_before (hwho hchecked) herror with hafter | hrest
      · exact .inr (.inl hafter)
      · rcases bind_eq_error.1 hrest with hphysics | ⟨_, -, hpure⟩
        · exact .inr (.inr ⟨profile, error, hphysics⟩)
        · cases hpure

/-- Every finish keeps its accounts. -/
theorem finishAccounts {step : SessionStep} {request : FinishTimeAttackRequest}
    (hrequest : step.request = .finishTimeAttack request) : FinishAccounts U step request := by
  have hhandled : step.handled U = handleFinishTimeAttack U step.before step.around request := by
    unfold SessionStep.handled
    rw [hrequest]
    rfl
  have hwritten (hpublished : (step.handled U).published = true) : ∃ active,
      step.before.context.activeTimeAttack = some active ∧
        step.handled U = finishActiveTimeAttack U step.before step.around request active := by
    rw [hhandled] at hpublished ⊢
    obtain ⟨active, -, -, hactive, -⟩ := attempt_of_finish hpublished
    refine ⟨active, hactive, ?_⟩
    unfold handleFinishTimeAttack
    rw [hactive]
  have hwho {before : IdentityBinding} (hchecked : (do
      let before ← step.around.before
      let _ ← step.before.context.boundProfileFor before
      step.around.admission
      pure before) = .ok before) : step.around.before = .ok before :=
    (checked_eq_ok (fun identity hidentity => by
      obtain ⟨_, -, hidentity⟩ := bind_eq_ok.1 hidentity
      exact ok.inj hidentity) hchecked).1
  constructor
  · intro hpublished
    obtain ⟨active, hactive, hfinish⟩ := hwritten hpublished
    have hwritten : Written U step.before step.around.write _ (finishTimeAttack request active.track) _
        (finishActiveTimeAttack U step.before step.around request active) := writing_written
    rw [← hfinish] at hwritten
    obtain ⟨before, value, profile, hchecked, hmutation, hstore, -⟩ := hwritten.of_published hpublished
    refine ⟨before, active, hwho hchecked, hactive, ?_⟩
    rw [hstore, show profile = _ from finishTimeAttack_eq_ok hmutation]
  · intro hpublished
    rw [hhandled] at hpublished ⊢
    obtain ⟨hsession, hfailed⟩ := unpublished_of_finish hpublished
    exact ⟨by rw [hsession], hfailed⟩
  · intro hpublished hfailed
    obtain ⟨active, hactive, hfinish⟩ := hwritten hpublished
    have hwritten : Written U step.before step.around.write _ (finishTimeAttack request active.track) _
        (finishActiveTimeAttack U step.before step.around request active) := writing_written
    rw [← hfinish] at hwritten
    obtain ⟨before, value, profile, hchecked, -, -, hwhy⟩ := hwritten.of_published hpublished
    rcases hwhy hfailed with huncertain | ⟨error, herror⟩
    · exact .inl huncertain
    · rcases after_ne_before (hwho hchecked) herror with hafter | hrest
      · exact .inr hafter
      · cases hrest

/-! ## Records -/

/-- The time that a request records for a profile on a track: that of a credited finish of an attempt there, unless it is zero. -/
def recordedTime (U : Unicode) (key : String) (track : Nat) (step : SessionStep) : Option Nat :=
  match step.request, step.before.context.activeTimeAttack, step.around.before with
  | .finishTimeAttack request, some attempt, .ok identity =>
    if (step.handled U).published = true ∧ canonicalNicknameKey U identity.nickname = key ∧ attempt.track = track ∧
      request.raceTime ≠ 0 then some request.raceTime else none
  | _, _, _ => none

/-- A best time with another one. -/
def improve (best : Option Nat) : Option Nat → Option Nat
  | none => best
  | some time => some (match best with
    | some best => min best time
    | none => time)

/-- The least of some times with another one behind them. -/
theorem min?_concat (times : List Nat) (time : Nat) : (times ++ [time]).min? = improve times.min? (some time) := by
  cases times with
  | nil => rfl
  | cons first times =>
    rw [List.cons_append, List.min?_cons', List.min?_cons', List.foldl_append]
    rfl

/-- The records after a finish. -/
theorem lookup_recordTime (records : FiniteMap Nat Nat) (track other raceTime : Nat) :
    (recordTime track raceTime records).lookup other =
      improve (records.lookup other) (if track = other ∧ raceTime ≠ 0 then some raceTime else none) := by
  unfold recordTime
  by_cases hzero : raceTime = 0
  · simp [hzero, improve]
  · rw [if_pos hzero, FiniteMap.lookup_insert]
    by_cases htrack : other = track
    · subst htrack
      rw [if_pos rfl, if_pos ⟨rfl, hzero⟩]
      rfl
    · rw [if_neg htrack, if_neg fun h => htrack h.1.symm]
      rfl

/-- A request that is no finish leaves the records of all profiles. -/
theorem records_of_written {α : Type} {write : WriteOutcome} {checked : Except SessionError IdentityBinding}
    {mutation : TimeAttackProfile → Except SessionError (α × TimeAttackProfile)}
    {rest : IdentityBinding → α → TimeAttackProfile → Except SessionError (SessionContext × SessionReply)}
    (hkeeps : ∀ profile result, mutation profile = .ok result → result.2.timeAttackRecords = profile.timeAttackRecords)
    (key : String) : ((writing U s write checked mutation rest).session.store key).timeAttackRecords =
      (s.store key).timeAttackRecords := by
  have hwritten : Written U s write checked mutation rest (writing U s write checked mutation rest) := writing_written
  cases hpublished : (writing U s write checked mutation rest).published with
  | false => rw [(hwritten.of_not_published hpublished).1]
  | true =>
    obtain ⟨before, value, profile, -, hmutation, hstore, -⟩ := hwritten.of_published hpublished
    rw [hstore]
    by_cases hkey : key = canonicalNicknameKey U before.nickname
    · subst hkey
      rw [Function.update_self]
      exact hkeeps _ _ hmutation
    · rw [Function.update_of_ne hkey]

/-- What a request does to the records. -/
theorem records_of_handle (step : SessionStep) (key : String) (track : Nat) :
    ((step.handled U).session.store key).timeAttackRecords.lookup track =
      improve ((step.before.store key).timeAttackRecords.lookup track) (recordedTime U key track step) := by
  have hupdate (update : ProfileUpdate) (reply : SessionReply) (key : String) :
      ((handleProfileUpdate U step.before step.around update reply).session.store key).timeAttackRecords =
        (step.before.store key).timeAttackRecords := by
    refine records_of_written (fun profile result h => ?_) key
    obtain rfl := ok.inj h
    exact update.records profile
  have hother (hrequest : ∀ request, step.request ≠ .finishTimeAttack request)
      (h : ((step.handled U).session.store key).timeAttackRecords = (step.before.store key).timeAttackRecords) :
      ((step.handled U).session.store key).timeAttackRecords.lookup track =
        improve ((step.before.store key).timeAttackRecords.lookup track) (recordedTime U key track step) := by
    have hnone : recordedTime U key track step = none := by
      unfold recordedTime
      split
      · rename_i request _ _ hfinish _ _
        exact absurd hfinish (hrequest request)
      · rfl
    rw [hnone, h]
    rfl
  cases hrequest : step.request with
  | finishTimeAttack request =>
    have haccounts := finishAccounts (U := U) hrequest
    cases hpublished : (step.handled U).published with
    | false =>
      have hnone : recordedTime U key track step = none := by
        unfold recordedTime
        split
        · exact if_neg fun h => by rw [hpublished] at h; cases h.1
        · rfl
      rw [hnone, (haccounts.unchanged hpublished).1]
      rfl
    | true =>
      obtain ⟨identity, attempt, hbefore, hattempt, hstore⟩ := haccounts.credited hpublished
      have htime : recordedTime U key track step =
          if canonicalNicknameKey U identity.nickname = key ∧ attempt.track = track ∧ request.raceTime ≠ 0 then
            some request.raceTime else none := by
        unfold recordedTime
        rw [hrequest, hattempt, hbefore]
        simp only [hpublished, true_and]
      rw [hstore, htime]
      by_cases hkey : key = canonicalNicknameKey U identity.nickname
      · subst hkey
        simp only [Function.update_self, true_and]
        exact lookup_recordTime _ _ _ _
      · rw [Function.update_of_ne hkey, if_neg fun h => hkey h.1.symm]
        rfl
  | startTimeAttack request =>
    refine hother (by simp [hrequest]) ?_
    unfold SessionStep.handled
    rw [hrequest]
    refine records_of_written (fun profile result h => ?_) key
    rw [(startTimeAttack_eq_ok h).2]
  | getTrackRank track =>
    refine hother (by simp [hrequest]) ?_
    unfold SessionStep.handled
    rw [hrequest]
    exact hupdate _ _ key
  | decLucci amount =>
    refine hother (by simp [hrequest]) ?_
    unfold SessionStep.handled
    rw [hrequest]
    exact hupdate _ _ key
  | updateProfile update =>
    refine hother (by simp [hrequest]) ?_
    unfold SessionStep.handled
    rw [hrequest]
    exact hupdate _ _ key
  | startChallenger request =>
    refine hother (by simp [hrequest]) ?_
    unfold SessionStep.handled
    rw [hrequest, handle, handleStartChallenger]
    dsimp only
    split <;> rfl
  | completeChallenger stageType endType =>
    refine hother (by simp [hrequest]) ?_
    unfold SessionStep.handled
    rw [hrequest, handle, handleCompleteChallenger]
    dsimp only
    split <;> rfl
  | rebind =>
    refine hother (by simp [hrequest]) ?_
    unfold SessionStep.handled
    rw [hrequest, handle, handleRebind]
    split <;> rfl

/-- The times that the requests of a run record for a profile on a track. -/
def recordedTimes (U : Unicode) (key : String) (track : Nat) (past : List SessionStep) : List Nat :=
  past.filterMap (recordedTime U key track)

/-- A stored record is the least of the one at first and the times recorded since. -/
theorem Run.records (h : Run U store past s) (key : String) (track : Nat) :
    (s.store key).timeAttackRecords.lookup track =
      (((store key).timeAttackRecords.lookup track).toList ++ recordedTimes U key track past).min? := by
  induction h with
  | start =>
    unfold recordedTimes
    rw [List.filterMap_nil, List.append_nil]
    cases (store key).timeAttackRecords.lookup track <;> rfl
  | @next past s h halive around request ih =>
    have hstep := records_of_handle (U := U) ⟨s, around, request⟩ key track
    refine hstep.trans ?_
    unfold recordedTimes at ih ⊢
    rw [List.filterMap_append, ← List.append_assoc, ih]
    cases hrecorded : recordedTime U key track ⟨s, around, request⟩ with
    | none => simp [improve, hrecorded]
    | some time =>
      rw [List.filterMap_cons_some hrecorded, List.filterMap_nil]
      exact (min?_concat _ _).symm
  | elsewhere h other update ih =>
    rw [← ih]
    dsimp only
    by_cases hkey : key = other
    · subst hkey
      rw [Function.update_self, update.records]
    · rw [Function.update_of_ne hkey]

/-! ## The law -/

/-- What is true of the requests of a run, and of the session after them. -/
structure TimeAttackLaw (U : Unicode) (store : String → TimeAttackProfile) (past : List SessionStep) (s : ProfileSession) :
    Prop where
  /-- Every credited finish has a start of its own: an earlier one that was accepted under the same binding, for the same attempt,
  with no other start accepted and no other finish credited in between. -/
  matched : ∃ start : Nat → Nat,
    Set.InjOn start {j : Nat | ∃ step binding attempt, past[j]? = some step ∧ step.Credited U binding attempt} ∧
      ∀ (j : Nat) (step : SessionStep) (binding : IdentityBinding) (attempt : ActiveTimeAttack), past[j]? = some step →
        step.Credited U binding attempt → start j < j ∧
          (∃ first accepted, past[start j]? = some first ∧ first.Started U accepted attempt ∧ SameBinding accepted binding) ∧
          ∀ (k : Nat) (between : SessionStep), start j < k → k < j → past[k]? = some between →
            (∀ b a, ¬between.Started U b a) ∧ ∀ b a, ¬between.Credited U b a
  starts : ∀ step ∈ past, ∀ request, step.request = .startTimeAttack request → StartAccounts U step request
  finishes : ∀ step ∈ past, ∀ request, step.request = .finishTimeAttack request → FinishAccounts U step request
  records : ∀ key track, (s.store key).timeAttackRecords.lookup track =
    (((store key).timeAttackRecords.lookup track).toList ++ recordedTimes U key track past).min?

/-- The events that requests tell are told by the requests at the same places. -/
theorem tells_getElem? {events : List (Slot.Event (IdentityBinding × ActiveTimeAttack))}
    (h : List.Forall₂ (Tells U) past events) {j : Nat} {step : SessionStep} (hj : past[j]? = some step) :
    ∃ event, events[j]? = some event ∧ Tells U step event := by
  obtain ⟨hlt, rfl⟩ := List.getElem?_eq_some_iff.1 hj
  have hlt' : j < events.length := h.length_eq ▸ hlt
  exact ⟨events[j], List.getElem?_eq_getElem hlt', (List.forall₂_iff_get.1 h).2 j hlt hlt'⟩

/-- A credited finish takes its attempt. -/
theorem take_of_credited {step : SessionStep} {binding : IdentityBinding} {attempt : ActiveTimeAttack}
    {event : Slot.Event (IdentityBinding × ActiveTimeAttack)} (hcredited : step.Credited U binding attempt)
    (htells : Tells U step event) : ∃ accepted, event = .take (accepted, attempt) ∧ SameBinding accepted binding := by
  obtain ⟨request, hrequest, hpublished, hbefore, hattempt⟩ := hcredited
  cases event with
  | put started =>
    obtain ⟨_, hrequest', -⟩ := htells
    rw [hrequest] at hrequest'
    cases hrequest'
  | take held =>
    obtain ⟨identity, ⟨_, -, -, hidentity, hheld⟩, hsame⟩ := htells
    obtain rfl := ok.inj (hbefore.symm.trans hidentity)
    obtain rfl := Option.some.inj (hattempt.symm.trans hheld)
    exact ⟨held.1, rfl, hsame⟩
  | clear => exact absurd ⟨request, hrequest, hpublished, hbefore, hattempt⟩ (htells.2 binding attempt)
  | idle => exact absurd ⟨request, hrequest, hpublished, hbefore, hattempt⟩ (htells.2 binding attempt)

/-- Every run of a session keeps the accounts of its time attacks. -/
theorem timeAttack_law (h : Run U store past s) : TimeAttackLaw U store past s where
  matched := by
    obtain ⟨events, held, hslot, htells, -⟩ := h.slot
    obtain ⟨start, hinj, hstart⟩ := hslot.matching
    refine ⟨start, ?_, ?_⟩
    · refine hinj.mono ?_
      rintro j ⟨step, binding, attempt, hj, hcredited⟩
      obtain ⟨event, hevent, htell⟩ := tells_getElem? htells hj
      obtain ⟨accepted, rfl, -⟩ := take_of_credited hcredited htell
      exact ⟨_, hevent⟩
    · intro j step binding attempt hj hcredited
      obtain ⟨event, hevent, htell⟩ := tells_getElem? htells hj
      obtain ⟨accepted, rfl, hsame⟩ := take_of_credited hcredited htell
      obtain ⟨hlt, hput, hidle⟩ := hstart j _ hevent
      refine ⟨hlt, ?_, ?_⟩
      · have hlength : start j < past.length := by
          rw [htells.length_eq]
          exact (List.getElem?_eq_some_iff.1 hput).1
        obtain ⟨event', hevent', htell'⟩ := tells_getElem? htells (List.getElem?_eq_getElem hlength)
        obtain rfl := Option.some.inj (hput.symm.trans hevent')
        exact ⟨_, accepted, List.getElem?_eq_getElem hlength, htell', hsame⟩
      · intro k between hk hkj hbetween
        obtain ⟨event', hevent', htell'⟩ := tells_getElem? htells hbetween
        obtain rfl := Option.some.inj ((hidle k hk hkj).symm.trans hevent')
        exact htell'
  starts := fun _ _ _ hrequest => startAccounts hrequest
  finishes := fun _ _ _ hrequest => finishAccounts hrequest
  records := h.records

end

/-! ## Failures behind a publication -/

/-- A start or a finish that fails changes no stored profile. -/
def FailuresChangeNothing (U : Unicode) (step : SessionStep) : Prop :=
  ((∃ request, step.request = .startTimeAttack request) ∨ ∃ request, step.request = .finishTimeAttack request) →
    (step.handled U).reply.isOk = false → (step.handled U).session.store = step.before.store

/-- `debug_assert_eq!(profile.profile.rider.track, active.track)`: the profile that a finish publishes has the track of the attempt
selected. -/
def TrackSelected (U : Unicode) (step : SessionStep) : Prop := ∀ binding attempt, step.Credited U binding attempt →
  ((step.handled U).session.store (canonicalNicknameKey U binding.nickname)).track = attempt.track

namespace TimeAttackSample

/-- An identity. -/
def rider : IdentityBinding := ⟨"rider", ⟨1, Nat.one_ne_zero, NonZero.one_lt_32⟩, ⟨1⟩, ⟨1⟩, .unspecified, none⟩

/-- Profiles with as much as an attempt costs. -/
def store : String → TimeAttackProfile := fun _ => ⟨1000, 0, 0, 0, 0, 0, 0, 0, ∅⟩

/-- Nothing fails. -/
def calm : Surroundings := ⟨.ok rider, .ok (), .ok (), .durable, .ok rider, fun _ _ => .ok []⟩

/-- The World stops while a profile is written. -/
def stopping : Surroundings := { calm with after := .error (.world "stopped") }

/-- A start that costs a fee. -/
def start : StartTimeAttackRequest := ⟨0, 1, 7, 0, 1, 0, 0, 0, 1⟩

/-- The end of the attempt. -/
def finish : FinishTimeAttackRequest := ⟨2, 1, 101731⟩

/-- The session behind the login. -/
def bound : ProfileSession := (handle .ascii ⟨store, .initial⟩ calm .rebind).session

/-- The session behind the start. -/
def started : ProfileSession := (handle .ascii bound calm (.startTimeAttack start)).session

/-- The session behind the selection of another track. -/
def elsewhere : ProfileSession := (handle .ascii started calm (.getTrackRank 2)).session

/-- A login, a start and a finish. -/
def past : List SessionStep :=
  [⟨⟨store, .initial⟩, calm, .rebind⟩, ⟨bound, calm, .startTimeAttack start⟩, ⟨started, calm, .finishTimeAttack finish⟩]

end TimeAttackSample

open TimeAttackSample

/-- The law for a login, a start and a finish. -/
theorem timeAttack_law_sample :
    TimeAttackLaw .ascii store past (handle .ascii started calm (.finishTimeAttack finish)).session :=
  timeAttack_law (.next (.next (.next .start (by simp) calm .rebind) (by decide +kernel) calm (.startTimeAttack start))
    (by decide +kernel) calm (.finishTimeAttack finish))

/-- The fee of a start is gone when the World stops behind the publication, and another track that is selected before a finish stays
selected. -/
theorem timeAttack_false :
    (¬∀ past s, Run .ascii store past s → ∀ step ∈ past, FailuresChangeNothing .ascii step) ∧
      ¬∀ past s, Run .ascii store past s → ∀ step ∈ past, TrackSelected .ascii step := by
  have hbound : Run .ascii store [⟨⟨store, .initial⟩, calm, .rebind⟩] bound := .next .start (by simp) calm .rebind
  constructor
  · intro h
    have hrun := Run.next hbound (by decide +kernel) stopping (.startTimeAttack start)
    have hsame := h _ _ hrun ⟨bound, stopping, .startTimeAttack start⟩ (by simp) (.inl ⟨start, rfl⟩) (by decide +kernel)
    have hlucci := congrArg (fun store : String → TimeAttackProfile => (store "rider").lucci) hsame
    revert hlucci
    decide +kernel
  · intro h
    have hstarted := Run.next hbound (by decide +kernel) calm (.startTimeAttack start)
    have helsewhere := Run.next hstarted (by decide +kernel) calm (.getTrackRank 2)
    have hrun := Run.next helsewhere (by decide +kernel) calm (.finishTimeAttack finish)
    have htrack := h _ _ hrun ⟨elsewhere, calm, .finishTimeAttack finish⟩ (by simp [elsewhere, started, bound]) rider
      ⟨start, start.track⟩ ⟨finish, rfl, by decide +kernel, rfl, by decide +kernel⟩
    revert htrack
    decide +kernel

end Session

end P5136
