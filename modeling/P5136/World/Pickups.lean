import P5136.Lib.TokenBucket
import P5136.World.Atomic

/-!
# The admission of item pickups

Each racer of a race has a bucket of pickups and a record of what was picked up at the tick of the last one. An admission takes a
token; it is kept when the award went out, and else the racer's bucket and record stay as they were.
-/

namespace P5136

open Act List

/-! ## One admission -/

/-- What a pickup is known by at its tick. -/
def ItemPickup.key (self : ItemPickup) : ItemPickupKind × Nat := (self.kind, self.objectId)

/-- The forward step from a tick to another, as the source computes it. -/
def tickStep (tick next : Nat) : Nat := (next + 2 ^ 32 - tick) % 2 ^ 32

namespace ItemPickupReplayState

/-- The bucket of a replay state. -/
def bucket (self : ItemPickupReplayState) : TokenBucket.Bucket := ⟨self.tokens, self.lastRefillAt⟩

/-- A replay state that is kept: a token is missing, the refill is not ahead of the time, and the tick is a 32-bit number. -/
structure Kept (state : ItemPickupReplayState) (now : Instant) : Prop where
  tokens : state.tokens < itemPickupBucketCapacity
  refill : state.lastRefillAt ≤ now
  tick : state.lastOperationTick < 2 ^ 32

end ItemPickupReplayState

theorem ItemPickupReplayState.Kept.of_later {state : ItemPickupReplayState} {t now : Instant} (h : state.Kept t) (hle : t ≤ now) :
    state.Kept now :=
  ⟨h.tokens, Nat.le_trans h.refill hle, h.tick⟩

/-- A replay state that can be refilled: its tokens are in range, and it carries nothing when it is full. -/
structure ItemPickupReplayState.Ready (state : ItemPickupReplayState) (now : Instant) : Prop where
  tokens : state.tokens ≤ itemPickupBucketCapacity
  refill : state.lastRefillAt ≤ now
  full : state.tokens = itemPickupBucketCapacity → state.lastRefillAt = now

theorem ItemPickupReplayState.Kept.ready {state : ItemPickupReplayState} {now : Instant} (h : state.Kept now) : state.Ready now :=
  ⟨Nat.le_of_lt h.tokens, h.refill, fun hfull => absurd hfull (Nat.ne_of_lt h.tokens)⟩

section Admissions

variable {state : Option ItemPickupReplayState} {start next : ItemPickupReplayState} {now : Instant} {playerId : Int}
  {pickup : ItemPickup}

theorem eq_of_pickupReplayState {s : ItemPickupReplayState} (h : pickupReplayState (some s) now playerId pickup = .ok start) :
    s = start := by
  unfold pickupReplayState at h
  simp only [] at h
  split at h
  · exact absurd h (by simp)
  · split at h
    · exact absurd h (by simp)
    · exact Except.ok.inj h

theorem step_of_pickupReplayState {s : ItemPickupReplayState}
    (h : pickupReplayState (some s) now playerId pickup = .ok start) :
    (tickStep s.lastOperationTick pickup.operationTick = 0 → pickup.key ∉ s.objectsSeenAtTick) ∧
      tickStep s.lastOperationTick pickup.operationTick < 2 ^ 31 := by
  unfold pickupReplayState at h
  simp only [] at h
  split at h
  · exact absurd h (by simp)
  · rename_i hdup
    split at h
    · exact absurd h (by simp)
    · rename_i hstale
      refine ⟨fun hzero hseen => hdup ⟨hzero, hseen⟩, ?_⟩
      exact Nat.lt_of_not_le hstale

/-- A pickup starts from a state that can be refilled, and was not seen at its tick. -/
theorem ready_of_pickupReplayState (hstate : ∀ s ∈ state, s.Kept now)
    (h : pickupReplayState state now playerId pickup = .ok start) :
    start.Ready now ∧ (start.lastOperationTick = pickup.operationTick → pickup.key ∉ start.objectsSeenAtTick) := by
  rcases state with _ | s
  · obtain rfl := Except.ok.inj h
    exact ⟨⟨Nat.le_refl _, Nat.le_refl _, fun _ => rfl⟩, fun _ => Finset.notMem_empty _⟩
  · have hkept := hstate s rfl
    obtain ⟨hnew, -⟩ := step_of_pickupReplayState h
    obtain rfl := eq_of_pickupReplayState h
    refine ⟨hkept.ready, ?_⟩
    intro hsame
    refine hnew ?_
    rw [hsame, tickStep]
    omega

theorem ItemPickupReplayState.refilled_record (state : ItemPickupReplayState) (now : Instant) :
    (state.refilled now).lastOperationTick = state.lastOperationTick ∧
      (state.refilled now).objectsSeenAtTick = state.objectsSeenAtTick := by
  unfold refilled
  by_cases hzero : (now - state.lastRefillAt) / itemPickupRefillInterval = 0
  · rw [if_pos hzero]
    exact ⟨rfl, rfl⟩
  · rw [if_neg hzero]
    simp only []
    split
    · exact ⟨rfl, rfl⟩
    · exact ⟨rfl, rfl⟩

/-- A refill keeps to the rules of a bucket. -/
theorem ItemPickupReplayState.Ready.refilled (h : start.Ready now) :
    TokenBucket.Refilled itemPickupBucketCapacity itemPickupRefillInterval start.bucket now (start.refilled now).bucket := by
  have hinterval : 0 < itemPickupRefillInterval := by decide
  unfold ItemPickupReplayState.refilled
  by_cases hzero : (now - start.lastRefillAt) / itemPickupRefillInterval = 0
  · rw [if_pos hzero]
    exact .keep h.tokens h.refill h.full ((Nat.div_eq_zero_iff_lt hinterval).1 hzero)
  · rw [if_neg hzero]
    by_cases hmany : itemPickupBucketCapacity - start.tokens ≤ (now - start.lastRefillAt) / itemPickupRefillInterval
    · simp only [Nat.min_eq_right hmany, Nat.add_sub_cancel' h.tokens, if_true]
      exact .fill hinterval hmany
    · have hless := Nat.lt_of_not_le hmany
      have hroom : ¬ start.tokens + (now - start.lastRefillAt) / itemPickupRefillInterval = itemPickupBucketCapacity := by
        have htokens := h.tokens
        omega
      simp only [Nat.min_eq_left (Nat.le_of_lt hless), if_neg hroom]
      have hearned : start.lastRefillAt + (now - start.lastRefillAt) / itemPickupRefillInterval * itemPickupRefillInterval ≤
          now := Nat.add_le_of_le_sub' h.refill (Nat.div_mul_le_self _ _)
      -- the sum is a time before now, so the clock can represent it; should it not, the rest is forgotten
      refine .earn hinterval hless ?_ ?_
      · rw [Nat.mul_comm] at hearned ⊢
        unfold Instant.checkedAdd
        split
        · exact Nat.le_refl _
        · exact hearned
      · rw [Nat.mul_comm] at hearned
        unfold Instant.checkedAdd
        split
        · exact hearned
        · exact Nat.le_refl _

/-- What an admission did. -/
structure Admitted (state : Option ItemPickupReplayState) (pickup : ItemPickup) (now : Instant) (next : ItemPickupReplayState) :
    Prop where
  taken : ∃ b, TokenBucket.Refilled itemPickupBucketCapacity itemPickupRefillInterval
    ((state.map ItemPickupReplayState.bucket).getD ⟨itemPickupBucketCapacity, now⟩) now b ∧ b.tokens ≠ 0 ∧ next.bucket = b.taken
  kept : next.Kept now
  tick : next.lastOperationTick = pickup.operationTick
  seen : pickup.key ∈ next.objectsSeenAtTick
  step : ∀ s ∈ state, tickStep s.lastOperationTick pickup.operationTick < 2 ^ 31 ∧
    (tickStep s.lastOperationTick pickup.operationTick = 0 →
      pickup.key ∉ s.objectsSeenAtTick ∧ s.objectsSeenAtTick ⊆ next.objectsSeenAtTick)

/-- An admission keeps to the rules of the bucket and of the record. -/
theorem admitted_of_prepare (hstate : ∀ s ∈ state, s.Kept now) (htick : pickup.operationTick < 2 ^ 32)
    (h : prepareItemPickupAdmission state now playerId pickup = .ok next) : Admitted state pickup now next := by
  obtain ⟨start, hstart, h⟩ := Checks.bind_eq_ok.1 h
  obtain ⟨_, htokens, h⟩ := Checks.bind_eq_ok.1 h
  obtain rfl := Except.ok.inj h
  rw [Checks.ensure_eq_ok] at htokens
  have hrefilled := (ready_of_pickupReplayState hstate hstart).1.refilled
  obtain ⟨htick', hseen'⟩ := start.refilled_record now
  refine ⟨⟨(start.refilled now).bucket, ?_, htokens, rfl⟩, ?_, rfl, ?_, ?_⟩
  · rcases state with _ | s
    · obtain rfl := Except.ok.inj hstart
      exact hrefilled
    · obtain rfl := eq_of_pickupReplayState hstart
      exact hrefilled
  · refine ⟨?_, hrefilled.last_le, htick⟩
    have hle := hrefilled.tokens_le
    simp only [ItemPickupReplayState.bucket] at hle
    simp only []
    omega
  · simp only [ItemPickup.key]
    by_cases hsame : (start.refilled now).lastOperationTick = pickup.operationTick
    · rw [if_pos hsame]
      exact Finset.mem_insert_self _ _
    · rw [if_neg hsame]
      exact Finset.mem_singleton_self _
  · rintro s hs
    rw [Option.mem_def] at hs
    subst hs
    have hkept := hstate s rfl
    obtain ⟨hnew, hforward⟩ := step_of_pickupReplayState hstart
    obtain rfl := eq_of_pickupReplayState hstart
    refine ⟨hforward, ?_⟩
    intro hzero
    refine ⟨hnew hzero, ?_⟩
    have hsame : (s.refilled now).lastOperationTick = pickup.operationTick := by
      have hlow := hkept.tick
      unfold tickStep at hzero
      rw [htick']
      omega
    simp only [hsame, if_true, hseen']
    exact Finset.subset_insert _ _

end Admissions

/-! ## Runs of admissions -/

/-- Admissions of a racer, each with its time. -/
inductive AdmissionRun : Option ItemPickupReplayState → Instant → List (Instant × ItemPickup) → Option ItemPickupReplayState → Prop
  where
  | nil (state : Option ItemPickupReplayState) (t : Instant) : AdmissionRun state t [] state
  | cons {state last : Option ItemPickupReplayState} {next : ItemPickupReplayState} {t now : Instant} {pickup : ItemPickup}
      {rest : List (Instant × ItemPickup)} : t ≤ now → Admitted state pickup now next → AdmissionRun (some next) now rest last →
      AdmissionRun state t ((now, pickup) :: rest) last

/-- The forward steps from a tick along pickups. -/
def tickSteps : Nat → List (Instant × ItemPickup) → List Nat
  | _, [] => []
  | tick, p :: rest => tickStep tick p.2.operationTick :: tickSteps p.2.operationTick rest

/-- The tick of the last pickup. -/
def lastTick (tick : Nat) (l : List (Instant × ItemPickup)) : Nat := (l.getLast?.map (·.2.operationTick)).getD tick

/-- A step leads on to its tick. -/
theorem tick_add {tick next : Nat} (htick : tick < 2 ^ 32) (hnext : next < 2 ^ 32) (sum : Nat) :
    (tick + (tickStep tick next + sum)) % 2 ^ 32 = (next + sum) % 2 ^ 32 := by
  unfold tickStep
  omega

/-- Steps away from a tick and back to it are whole rounds. -/
theorem tick_round {tick middle sum : Nat} (htick : tick < 2 ^ 32) (hsum : (tick + sum) % 2 ^ 32 = middle) :
    2 ^ 32 ∣ sum + tickStep middle tick := by
  unfold tickStep
  omega

theorem lastTick_cons (tick : Nat) (p : Instant × ItemPickup) (l : List (Instant × ItemPickup)) :
    lastTick tick (p :: l) = lastTick p.2.operationTick l := by
  rcases eq_nil_or_concat l with rfl | ⟨front, q, rfl⟩
  · rfl
  · simp [lastTick, getLast?_cons]

theorem tickSteps_append (tick : Nat) (l m : List (Instant × ItemPickup)) :
    tickSteps tick (l ++ m) = tickSteps tick l ++ tickSteps (lastTick tick l) m := by
  induction l generalizing tick with
  | nil => rfl
  | cons p l ih =>
    rw [cons_append, tickSteps, tickSteps, ih, lastTick_cons, cons_append]

namespace AdmissionRun

variable {state last : Option ItemPickupReplayState} {t t' : Instant} {l m : List (Instant × ItemPickup)}

theorem of_later (h : AdmissionRun state t' l last) (hle : t ≤ t') : AdmissionRun state t l last := by
  cases h with
  | nil => exact .nil state t
  | cons hnow hadmitted hrest => exact .cons (Nat.le_trans hle hnow) hadmitted hrest

/-- A run has a middle. -/
theorem of_append (h : AdmissionRun state t (l ++ m) last) :
    ∃ middle t', AdmissionRun state t l middle ∧ AdmissionRun middle t' m last := by
  induction l generalizing state t with
  | nil => exact ⟨state, t, .nil state t, h⟩
  | cons p l ih =>
    cases h with
    | cons hnow hadmitted hrest =>
      obtain ⟨middle, t', hleft, hright⟩ := ih hrest
      exact ⟨middle, t', .cons hnow hadmitted hleft, hright⟩

/-- The bucket of a run. -/
theorem takes (h : AdmissionRun state t l last) :
    TokenBucket.Takes itemPickupBucketCapacity itemPickupRefillInterval (state.map ItemPickupReplayState.bucket) t
      (l.map Prod.fst) (last.map ItemPickupReplayState.bucket) := by
  induction h with
  | nil state t => exact .nil _ t
  | cons hnow hadmitted _ ih =>
    obtain ⟨b, hrefilled, hsome, htaken⟩ := hadmitted.taken
    refine .cons hnow hrefilled hsome ?_
    rw [← htaken]
    exact ih

/-- The state that a run ends with is kept. -/
theorem kept (h : AdmissionRun state t l last) (hstate : ∀ s ∈ state, s.Kept t) : ∃ u, ∀ s ∈ last, s.Kept u := by
  induction h with
  | nil state t => exact ⟨t, hstate⟩
  | cons _ hadmitted _ ih =>
    refine ih ?_
    rintro s hs
    rw [Option.mem_def, Option.some.injEq] at hs
    exact hs ▸ hadmitted.kept

/-- A run goes forward: its ticks add up, and as long as they stand still, what was seen stays seen. -/
theorem forward {s : ItemPickupReplayState} (h : AdmissionRun (some s) t l last) (htick : s.lastOperationTick < 2 ^ 32) :
    ∃ s', last = some s' ∧ s'.lastOperationTick = lastTick s.lastOperationTick l ∧ s'.lastOperationTick < 2 ^ 32 ∧
      (∀ step ∈ tickSteps s.lastOperationTick l, step < 2 ^ 31) ∧
      (s.lastOperationTick + (tickSteps s.lastOperationTick l).sum) % 2 ^ 32 = s'.lastOperationTick ∧
      ((tickSteps s.lastOperationTick l).sum = 0 → s.objectsSeenAtTick ⊆ s'.objectsSeenAtTick) := by
  induction l generalizing s t with
  | nil =>
    cases h
    refine ⟨s, rfl, rfl, htick, by simp [tickSteps], ?_, fun _ => Finset.Subset.refl _⟩
    simp only [tickSteps, sum_nil, Nat.add_zero]
    exact Nat.mod_eq_of_lt htick
  | cons p l ih =>
    cases h with
    | @cons _ _ next _ now pickup _ _ hadmitted hrest =>
      obtain ⟨hforward, hstill⟩ := hadmitted.step s rfl
      have hnext := hadmitted.kept.tick
      obtain ⟨s', hlast, htick', hbound, hsteps, hsum, hseen⟩ := ih hrest hnext
      rw [hadmitted.tick] at htick' hsteps hsum hseen hnext
      refine ⟨s', hlast, ?_, hbound, ?_, ?_, ?_⟩
      · rw [htick', lastTick_cons]
      · intro step hstep
        rw [tickSteps, mem_cons] at hstep
        rcases hstep with rfl | hstep
        · exact hforward
        · exact hsteps step hstep
      · rw [← hsum]
        simp only [tickSteps, sum_cons]
        exact tick_add htick hnext _
      · intro hzero
        rw [tickSteps, sum_cons] at hzero
        have hfirst : tickStep s.lastOperationTick pickup.operationTick = 0 := by
          simp only [] at hzero
          omega
        have hrestZero : (tickSteps pickup.operationTick l).sum = 0 := by
          simp only [] at hzero
          omega
        exact Finset.Subset.trans (hstill hfirst).2 (hseen hrestZero)

/-- A pickup that is admitted again was passed by the ticks: the steps between are forward and add up to whole rounds. -/
theorem replay {front middle back : List (Instant × ItemPickup)} {p q : Instant × ItemPickup}
    (h : AdmissionRun state t (front ++ p :: middle ++ q :: back) last) (hkey : q.2.key = p.2.key)
    (htick : q.2.operationTick = p.2.operationTick) :
    (∀ step ∈ tickSteps p.2.operationTick (middle ++ [q]), step < 2 ^ 31) ∧
      ∃ rounds, 0 < rounds ∧ (tickSteps p.2.operationTick (middle ++ [q])).sum = rounds * 2 ^ 32 := by
  rw [append_assoc] at h
  obtain ⟨before, t₁, -, h⟩ := of_append h
  rw [cons_append] at h
  cases h with
  | @cons _ _ s _ now pickup _ _ hfirst hrest =>
    have htick₁ := hfirst.kept.tick
    obtain ⟨between, t₂, hmiddle, hafter⟩ := of_append hrest
    obtain ⟨s', rfl, htick', hbound, hsteps, hsum, hseen⟩ := forward hmiddle htick₁
    cases hafter with
    | @cons _ _ next _ now' pickup' _ _ hsecond _ =>
      obtain ⟨hforward, hstill⟩ := hsecond.step s' rfl
      have hlimit := hsecond.kept.tick
      rw [hsecond.tick] at hlimit
      rw [hfirst.tick] at htick' hsteps hsum hseen
      simp only [] at hkey htick ⊢
      have hsplit : tickSteps pickup.operationTick (middle ++ [(now', pickup')]) =
          tickSteps pickup.operationTick middle ++ [tickStep s'.lastOperationTick pickup'.operationTick] := by
        rw [tickSteps_append, ← htick']
        rfl
      rw [hsplit]
      refine ⟨?_, ?_⟩
      · intro step hstep
        rcases mem_append.1 hstep with hstep | hstep
        · exact hsteps step hstep
        · rw [mem_singleton] at hstep
          exact hstep ▸ hforward
      · rw [sum_append, sum_singleton]
        have hnot : ¬ ((tickSteps pickup.operationTick middle).sum = 0 ∧
            tickStep s'.lastOperationTick pickup'.operationTick = 0) := by
          rintro ⟨hzero, hzero'⟩
          refine (hstill hzero').1 (hseen hzero ?_)
          rw [hkey]
          exact hfirst.seen
        rw [htick] at hlimit hnot hforward ⊢
        have hround := tick_round hlimit hsum
        refine ⟨((tickSteps pickup.operationTick middle).sum + tickStep s'.lastOperationTick pickup.operationTick) / 2 ^ 32,
          ?_, (Nat.div_mul_cancel hround).symm⟩
        exact Nat.div_pos (Nat.le_of_dvd (by omega) hround) (by decide)

end AdmissionRun

/-! ## Pickups in the world -/

namespace World

/-- The bucket and the record of a racer, when it has picked something up. -/
def pickupState (w : World) (roomId : RoomId) (playerId : Int) : Option ItemPickupReplayState :=
  (w.protocolRooms.lookup roomId).bind (fun room => room.raceProgress.itemPickups.lookup playerId)

variable {w w' : World} {roomId : RoomId} {identity : IdentityBinding} {playerId : Int} {items : ItemService}
  {packet : ParsedGameSlotPacket} {pickup : ItemPickup} {now t : Instant}

/-- A pickup that is awarded was admitted, and the racer keeps the admission. -/
theorem of_synthesizeItemPickup {outcome : RaceCommandOutcome} (hbody : packet.body = .itemPickup pickup)
    (h : synthesizeItemPickup items roomId identity playerId packet now w = (.ok outcome, w')) :
    ∃ next, prepareItemPickupAdmission (w.pickupState roomId playerId) now playerId pickup = .ok next ∧
      w'.pickupState roomId playerId = some next := by
  unfold synthesizeItemPickup at h
  rw [hbody] at h
  obtain ⟨pickup', w₁, hpickup, hrest⟩ := bind_eq_ok.1 h
  obtain rfl : pickup = pickup' := Except.ok.inj (ofExcept_eq_ok.1 hpickup).1
  rw [(readOnly_gameSlotCheck _).eq_of hpickup] at hrest
  obtain ⟨room, w₂, hroom, hrest⟩ := bind_eq_ok.1 hrest
  have hfound := Checks.orElse_eq_ok.1 (reads_eq_ok.1 hroom).1
  rw [(readOnly_gameSlotRoom _ _).eq_of hroom] at hrest
  obtain ⟨teamMode, w₃, hmode, hrest⟩ := bind_eq_ok.1 hrest
  rw [(readOnly_gameSlotCheck _).eq_of hmode] at hrest
  obtain ⟨frozen, w₄, hfrozen, hrest⟩ := bind_eq_ok.1 hrest
  rw [(readOnly_orFail _ _).eq_of hfrozen] at hrest
  obtain ⟨sender, w₅, hsender, hrest⟩ := bind_eq_ok.1 hrest
  rw [(readOnly_orFail _ _).eq_of hsender] at hrest
  obtain ⟨_, w₆, hplayer, hrest⟩ := bind_eq_ok.1 hrest
  rw [(readOnly_require _ _).eq_of hplayer] at hrest
  obtain ⟨loadout, w₇, hloadout, hrest⟩ := bind_eq_ok.1 hrest
  rw [(readOnly_orFail _ _).eq_of hloadout] at hrest
  obtain ⟨admission, w₈, hadmission, hrest⟩ := bind_eq_ok.1 hrest
  rw [(readOnly_gameSlotCheck _).eq_of hadmission] at hrest
  obtain ⟨award, w₉, haward, hrest⟩ := bind_eq_ok.1 hrest
  rw [(readOnly_gameSlotCheck _).eq_of haward] at hrest
  obtain ⟨raw, w₁₀, hraw, hrest⟩ := bind_eq_ok.1 hrest
  rw [(readOnly_gameSlotCheck _).eq_of hraw] at hrest
  obtain ⟨_, w₁₁, hget, hrest⟩ := bind_eq_ok.1 hrest
  rw [readOnly_get.eq_of hget] at hrest
  obtain ⟨_, w₁₂, hreserve, hrest⟩ := bind_eq_ok.1 hrest
  rw [(readOnly_reserveRaceOutbound _).eq_of hreserve] at hrest
  obtain ⟨_, w₁₃, hput, hrest⟩ := bind_eq_ok.1 hrest
  rw [modify_eq_ok.1 hput] at hrest
  obtain ⟨_, _, hpublish, hrest⟩ := bind_eq_ok.1 hrest
  obtain rfl := modify_eq_ok.1 hpublish
  obtain ⟨-, rfl⟩ := pure_eq_ok.1 hrest
  refine ⟨admission, ?_, ?_⟩
  · rw [pickupState, hfound]
    have hchecked := (ofExcept_eq_ok.1 hadmission).1
    simp only [Option.bind_some]
    rcases hprepare : prepareItemPickupAdmission (room.raceProgress.itemPickups.lookup playerId) now playerId pickup with e | next
    · rw [hprepare] at hchecked
      exact absurd hchecked (by simp [Checks.mapError_error])
    · rw [hprepare] at hchecked
      exact congrArg Except.ok (Except.ok.inj hchecked)
  · simp only [pickupState, published, withRoom, AList.lookup_insert, Option.bind_some]

/-- A run of the world, as the bucket of a racer sees it: pickups that are awarded, pickups that are rejected for any reason, and
anything else, which leaves the bucket. -/
inductive PickupRun (roomId : RoomId) (playerId : Int) : Instant → World → List (Instant × ItemPickup) → World → Prop where
  | refl (t : Instant) (w : World) : PickupRun roomId playerId t w [] w
  | between {t : Instant} {w w' w'' : World} {l : List (Instant × ItemPickup)} :
      w'.pickupState roomId playerId = w.pickupState roomId playerId → PickupRun roomId playerId t w' l w'' →
      PickupRun roomId playerId t w l w''
  | rejected {t now : Instant} {w w' w'' : World} {l : List (Instant × ItemPickup)} {items : ItemService}
      {identity : IdentityBinding} {packet : ParsedGameSlotPacket} {error : Fault RaceError} : t ≤ now →
      synthesizeItemPickup items roomId identity playerId packet now w = (.error error, w') →
      PickupRun roomId playerId now w' l w'' → PickupRun roomId playerId t w l w''
  | awarded {t now : Instant} {w w' w'' : World} {l : List (Instant × ItemPickup)} {items : ItemService}
      {identity : IdentityBinding} {packet : ParsedGameSlotPacket} {pickup : ItemPickup} {outcome : RaceCommandOutcome} :
      t ≤ now → packet.body = .itemPickup pickup → pickup.operationTick < 2 ^ 32 →
      synthesizeItemPickup items roomId identity playerId packet now w = (.ok outcome, w') →
      PickupRun roomId playerId now w' l w'' → PickupRun roomId playerId t w ((now, pickup) :: l) w''

/-- What the bucket sees of a run is a run of admissions. -/
theorem PickupRun.admissions {l : List (Instant × ItemPickup)} (h : PickupRun roomId playerId t w l w')
    (hstate : ∀ s ∈ w.pickupState roomId playerId, s.Kept t) :
    AdmissionRun (w.pickupState roomId playerId) t l (w'.pickupState roomId playerId) := by
  induction h with
  | refl t w => exact .nil _ t
  | between hsame _ ih =>
    rw [hsame] at ih
    exact ih hstate
  | rejected hle hrejected _ ih =>
    obtain rfl := atomic_synthesizeItemPickup _ _ _ _ _ _ _ _ _ hrejected
    exact (ih (fun s hs => (hstate s hs).of_later hle)).of_later hle
  | @awarded t now w w' w'' l items identity packet pickup outcome hle hbody htick hawarded _ ih =>
    obtain ⟨next, hprepare, hnext⟩ := of_synthesizeItemPickup hbody hawarded
    have hadmitted := admitted_of_prepare (fun s hs => (hstate s hs).of_later hle) htick hprepare
    rw [hnext] at ih
    refine .cons hle hadmitted (ih ?_)
    rintro s hs
    rw [Option.mem_def, Option.some.injEq] at hs
    exact hs ▸ hadmitted.kept

/-- However a racer asks for pickups, a window of time has no more awards than a full bucket and the refills that fit in it; the
tokens stay in range, and a pickup that is admitted was not seen at its tick; one that is rejected, at any stage, changes nothing;
and one that is awarded again at the same tick was passed by whole rounds of the ticks. -/
theorem itemPickups_limited {w₀ : World} {t₀ : Instant} {awards : List (Instant × ItemPickup)}
    (hnew : w₀.pickupState roomId playerId = none) (hrun : PickupRun roomId playerId t₀ w₀ awards w) :
    (∀ a length, (awards.filter (fun award => decide (a ≤ award.1 ∧ award.1 ≤ a + length))).length ≤
        itemPickupBucketCapacity + length / itemPickupRefillInterval) ∧
      (∃ t, ∀ state ∈ w.pickupState roomId playerId, state.Kept t ∧
        ∀ now, t ≤ now → (state.refilled now).tokens ≤ itemPickupBucketCapacity) ∧
      (∃ t, ∀ now pickup start, t ≤ now →
        pickupReplayState (w.pickupState roomId playerId) now playerId pickup = .ok start →
          start.lastOperationTick = pickup.operationTick → pickup.key ∉ start.objectsSeenAtTick) ∧
      (∀ items identity packet now error w', synthesizeItemPickup items roomId identity playerId packet now w = (.error error, w') →
        w' = w) ∧
      ∀ front p middle q back, awards = front ++ p :: middle ++ q :: back → q.2.key = p.2.key →
        q.2.operationTick = p.2.operationTick →
          (∀ step ∈ tickSteps p.2.operationTick (middle ++ [q]), step < 2 ^ 31) ∧
            ∃ rounds, 0 < rounds ∧ (tickSteps p.2.operationTick (middle ++ [q])).sum = rounds * 2 ^ 32 := by
  have hstart : ∀ s ∈ w₀.pickupState roomId playerId, s.Kept t₀ := by
    rw [hnew]
    intro s hs
    exact absurd hs (by simp)
  have hadmissions := hrun.admissions hstart
  obtain ⟨t, hkept⟩ := hadmissions.kept hstart
  refine ⟨?_, ⟨t, ?_⟩, ⟨t, ?_⟩, ?_, ?_⟩
  · intro a length
    have hwindow := hadmissions.takes.window (by decide) a length
    rwa [filter_map, length_map] at hwindow
  · intro state hstate
    refine ⟨hkept state hstate, ?_⟩
    intro now hle
    exact ((hkept state hstate).of_later hle).ready.refilled.tokens_le
  · intro now pickup start hle hstart
    exact (ready_of_pickupReplayState (fun s hs => (hkept s hs).of_later hle) hstart).2
  · intro items identity packet now error w' hrejected
    exact atomic_synthesizeItemPickup _ _ _ _ _ _ _ _ _ hrejected
  · intro front p middle q back hawards hkey htick
    rw [hawards] at hadmissions
    exact hadmissions.replay hkey htick

/-- A race of items. -/
def loneItemRace : World := { loneWorld with protocolRooms := AList.insert ⟨1⟩ (loneRace 2) ∅ }

namespace PickupsAux

/-- Its racer picks an object up. -/
def pickUp (event : Instant × ItemPickup) : RaceAct RaceCommandOutcome :=
  synthesizeItemPickup ⟨fun _ _ _ _ _ => .ok ⟨.live, 5⟩, fun _ _ => none⟩ ⟨1⟩ loneIdentity 0
    ⟨replicate 64 0, 0, 0, .synthesizeItemPickup, .itemPickup event.2⟩ event.1

/-- What it is awarded, and the world then. -/
def pickUps : World → List (Instant × ItemPickup) → List (Instant × ItemPickup) × World
  | w, [] => ([], w)
  | w, event :: events =>
    let rest := pickUps (pickUp event w).2 events
    if (pickUp event w).1.isOk then (event :: rest.1, rest.2) else rest

theorem pickupRun_pickUps {t : Instant} {w : World} {events : List (Instant × ItemPickup)}
    (hchain : (t :: events.map (·.1)).IsChain (· ≤ ·)) (hticks : ∀ event ∈ events, event.2.operationTick < 2 ^ 32) :
    PickupRun ⟨1⟩ 0 t w (pickUps w events).1 (pickUps w events).2 := by
  induction events generalizing t w with
  | nil => exact .refl t w
  | cons event events ih =>
    rw [map_cons, isChain_cons_cons] at hchain
    have hrest := ih (w := (pickUp event w).2) hchain.2 fun other hother => hticks other (mem_cons_of_mem _ hother)
    unfold pickUps
    cases hpicked : (pickUp event w).1 with
    | ok outcome => exact .awarded hchain.1 rfl (hticks event mem_cons_self) (Prod.ext hpicked rfl) hrest
    | error error => exact .rejected hchain.1 (Prod.ext hpicked rfl) hrest

/-- Seven objects at one tick; then one of them again, at that tick and at the next one. -/
def events : List (Instant × ItemPickup) :=
  (range 7).map (fun i => (0, ⟨.type1, i, 100, 1⟩)) ++
    [(itemPickupRefillInterval, ⟨.type1, 0, 100, 1⟩), (itemPickupRefillInterval, ⟨.type1, 0, 101, 1⟩)]

end PickupsAux

open PickupsAux in
/-- A full bucket of six is awarded and the next object rejected; so is one that was seen at its tick, until the next tick. -/
theorem itemPickups_limited_first :
    (pickUps loneItemRace events).1.map (fun award => (award.1, award.2.objectId)) =
        (range 6).map (fun i => (0, i)) ++ [(itemPickupRefillInterval, 0)] ∧
      (∀ a length, ((pickUps loneItemRace events).1.filter (fun award => decide (a ≤ award.1 ∧ award.1 ≤ a + length))).length ≤
        itemPickupBucketCapacity + length / itemPickupRefillInterval) ∧
      ∃ t, ∀ state ∈ (pickUps loneItemRace events).2.pickupState ⟨1⟩ 0, state.Kept t := by
  have hrun : PickupRun ⟨1⟩ 0 0 loneItemRace (pickUps loneItemRace events).1 (pickUps loneItemRace events).2 :=
    pickupRun_pickUps (by decide +kernel) (by decide +kernel)
  obtain ⟨hwindow, ⟨t, hkept⟩, -⟩ := itemPickups_limited rfl hrun
  exact ⟨by decide +kernel, hwindow, t, fun state hstate => (hkept state hstate).1⟩

end World

end P5136
