import P5136.MyRoom.Leaving

/-!
# Entering a room

A member that enters a room vacates the slot it had, gets a slot in the room, which may be a new one, and the bindings of the
member and of the owner are recorded. The binding of an absent owner goes when its last visitor moved out.
-/

namespace P5136

namespace MyRoomHub

open Change Checks MyRoomState FiniteMap Option Avoids

open MyRoomHubError (Internal)

variable {U : Unicode} {hub : MyRoomHub U}

/-! ## The bindings that are recorded -/

/-- An identity passes when it is the canonical one, or when there is none yet. -/
theorem validateOrNewIdentity_eq_ok {identity : IdentityBinding} {isNew : Bool}
    (h : hub.validateOrNewIdentity identity = .ok isNew) :
    hub.generations.lookup identity.userNo = if isNew then none else some identity := by
  unfold validateOrNewIdentity at h
  cases hid : hub.generations.lookup identity.userNo with
  | none =>
    simp only [hid] at h
    cases h
    rfl
  | some canonical =>
    simp only [hid] at h
    obtain ⟨_, hsame, h⟩ := bind_eq_ok.1 h
    cases h
    rw [requireSameBinding_eq_ok.1 hsame]
    rfl

/-- The check of an identity is no internal failure. -/
theorem avoids_validateOrNewIdentity (identity : IdentityBinding) :
    Avoids Internal (hub.validateOrNewIdentity identity) := by
  unfold validateOrNewIdentity
  split
  · exact bind (avoids_requireSameBinding _ _) fun _ _ => avoids_pure _
  · exact avoids_ok _

/-- Setting a binding changes it and no other one. -/
theorem after_pushGenerationSet (m : FiniteMap UserNo IdentityBinding) (changes : List (Change UserNo IdentityBinding))
    (identity : IdentityBinding) (key : UserNo) : after m (pushGenerationSet changes identity) key =
      if key = identity.userNo then some identity else after m changes key := by
  unfold pushGenerationSet
  split
  · rename_i hnamed
    obtain ⟨named, hn, hk⟩ := List.any_eq_true.1 hnamed
    by_cases hkey : key = identity.userNo
    · rw [if_pos hkey]
      refine after_of_mem ⟨_, List.mem_map.2 ⟨named, hn, rfl⟩, ?_⟩ ?_
      · rw [if_pos (of_decide_eq_true hk), hkey]
        exact of_decide_eq_true hk
      · intro change hc hck
        obtain ⟨old, -, rfl⟩ := List.mem_map.1 hc
        by_cases hold : old.key = identity.userNo
        · rw [if_pos hold]
        · rw [if_neg hold] at hck
          exact absurd (hck.trans hkey) hold
    · rw [if_neg hkey]
      -- the changes of the key are the old ones
      have hpred : ((fun change : Change UserNo IdentityBinding => decide (change.key = key)) ∘
          fun change => if change.key = identity.userNo then ⟨change.key, some identity⟩ else change) =
          fun change => decide (change.key = key) := by
        funext change
        simp only [Function.comp_apply]
        split <;> rfl
      unfold after
      rw [← List.map_reverse, List.find?_map, hpred]
      cases hf : changes.reverse.find? (fun change => decide (change.key = key)) with
      | none => rfl
      | some change =>
        have hfound := List.find?_some hf
        have hck : change.key = key := of_decide_eq_true hfound
        rw [map_some]
        simp only [if_neg (fun hc => hkey (hck.symm.trans hc))]
  · exact after_append_singleton m changes ⟨identity.userNo, some identity⟩ key

/-- Pruning a user that the changes do not name takes out its binding when no role refers to it any more. -/
theorem after_pushGenerationPrune (hub : MyRoomHub U) (changes : List (Change UserNo IdentityBinding)) (userNo : UserNo)
    (rooms : List (Change UserNo (MyRoomState U))) (memberships : List (Change UserNo MyRoomMembership)) :
    (∀ key, Referenced (after hub.rooms rooms) (after hub.memberships memberships) key →
      after hub.generations (hub.pushGenerationPrune changes userNo rooms memberships) key =
        after hub.generations changes key) ∧
    (∀ key, key ≠ userNo → after hub.generations (hub.pushGenerationPrune changes userNo rooms memberships) key =
      after hub.generations changes key) ∧
    ((∀ change ∈ changes, change.key ≠ userNo) →
      ¬Referenced (after hub.rooms rooms) (after hub.memberships memberships) userNo →
      after hub.generations (hub.pushGenerationPrune changes userNo rooms memberships) userNo = none) := by
  unfold pushGenerationPrune
  split
  · rename_i hnamed
    obtain ⟨named, hn, hk⟩ := List.any_eq_true.1 hnamed
    exact ⟨fun key _ => rfl, fun key _ => rfl, fun hc => absurd (of_decide_eq_true hk) (hc named hn)⟩
  · split
    · rename_i hgone
      obtain ⟨-, hgone⟩ := Bool.and_eq_true_iff.1 hgone
      refine ⟨fun key href => ?_, fun key hk => ?_, fun _ _ => ?_⟩
      · rw [after_append_singleton, if_neg]
        rintro rfl
        rw [userReferencedAfter_iff.2 href] at hgone
        cases hgone
      · rw [after_append_singleton, if_neg hk]
      · rw [after_append_singleton, if_pos rfl]
    · rename_i hkept
      refine ⟨fun key _ => rfl, fun key _ => rfl, fun hc href => ?_⟩
      rw [after_of_forall_ne hc]
      have hfalse : hub.userReferencedAfter userNo rooms memberships = false := by
        rw [Bool.eq_false_iff]
        exact fun htrue => href (userReferencedAfter_iff.1 htrue)
      rw [hfalse] at hkept
      simpa using hkept

/-! ## The plan of a move -/

/-- What `enter` has found out when it plans a move. -/
structure Moves (hub : MyRoomHub U) (plan : EnterPlan U) : Prop where
  owner : hub.validateOrNewIdentity plan.owner.participant.identity = .ok plan.ownerIsNew
  member : hub.validateOrNewIdentity plan.member.identity = .ok plan.memberIsNew
  current : hub.memberships.lookup plan.member.identity.userNo = plan.current
  elsewhere : ∀ membership, plan.current = some membership → membership.owner ≠ plan.owner.key
  slot : hub.destinationSlot plan.member plan.owner = .ok plan.destinationSlot

namespace Moves

variable {plan : EnterPlan U}

/-- The room that the member is put in. -/
def room (hub : MyRoomHub U) (plan : EnterPlan U) : MyRoomState U :=
  (hub.rooms.lookup plan.owner.key).getD (.new plan.owner plan.nextRevision)

/-- The destination is slot zero for the owner, and nobody else. -/
theorem ownSlot (h : Moves hub plan) (hinv : hub.Inv) :
    plan.destinationSlot = 0 ↔ plan.member.identity.userNo = plan.owner.key := by
  have hslot := h.slot
  unfold MyRoomHub.destinationSlot at hslot
  cases hroom : hub.rooms.lookup plan.owner.key with
  | none =>
    simp only [hroom, Except.ok.injEq] at hslot
    rw [← hslot]
    split
    · rename_i hu
      exact iff_of_true rfl hu
    · rename_i hu
      exact iff_of_false (by decide) hu
  | some room =>
    simp only [hroom] at hslot
    obtain ⟨-, -, hslot⟩ := bind_eq_ok.1 hslot
    obtain ⟨-, -, hslot⟩ := bind_eq_ok.1 hslot
    rw [nextSlotFor_eq_zero (orElse_eq_ok.1 hslot), (hinv.roles.sound _ _ hroom).owner]

/-- The destination is free. -/
theorem free (h : Moves hub plan) (hinv : hub.Inv) : (room hub plan).participant plan.destinationSlot = none := by
  have hslot := h.slot
  unfold MyRoomHub.destinationSlot at hslot
  unfold room
  cases hroom : hub.rooms.lookup plan.owner.key with
  | none => exact participant_new _ _ _
  | some room =>
    simp only [hroom] at hslot
    obtain ⟨-, -, hslot⟩ := bind_eq_ok.1 hslot
    obtain ⟨-, -, hslot⟩ := bind_eq_ok.1 hslot
    have hsound := hinv.roles.sound _ _ hroom
    rw [getD_some]
    by_cases hu : plan.member.identity.userNo = plan.owner.key
    · -- the owner is not present: it would be a member of its room
      rw [(h.ownSlot hinv).2 hu]
      cases hp : room.participant 0 with
      | none => rfl
      | some present =>
        have hm := hinv.roles.member ⟨room, hroom, hp⟩
        rw [hsound.of_zero hp, ← hu, h.current] at hm
        exact absurd hu (h.elsewhere _ hm)
    · refine nextSlotFor_free (orElse_eq_ok.1 hslot) ?_
      rw [hsound.owner]
      exact hu

/-- The room is sound. -/
theorem sound (hinv : hub.Inv) : MyRoomState.Sound plan.owner.key (room hub plan) := by
  unfold room
  cases hroom : hub.rooms.lookup plan.owner.key with
  | none => exact sound_new _ _
  | some room => exact hinv.roles.sound _ _ hroom

/-- The binding of the owner of the room: the recorded one, or that of the plan. -/
theorem owner_identity (h : Moves hub plan) (hinv : hub.Inv) :
    (room hub plan).owner.identity = plan.owner.participant.identity := by
  unfold room
  cases hroom : hub.rooms.lookup plan.owner.key with
  | none => rfl
  | some room =>
    have hid := hinv.canonical.owners _ _ hroom
    have howner := validateOrNewIdentity_eq_ok h.owner
    rw [show hub.generations.lookup plan.owner.participant.identity.userNo = some room.owner.identity from hid] at howner
    split at howner
    · cases howner
    · exact some.inj howner

/-- Putting the member in its slot, when it has vacated the one it had. -/
theorem enters (h : Moves hub plan) (hinv : hub.Inv) {room' : MyRoomState U}
    (hadd : (room hub plan).addMember plan.destinationSlot plan.member = .ok room')
    {rooms : UserNo → Option (MyRoomState U)} {memberships : UserNo → Option MyRoomMembership}
    (hrooms : rooms plan.owner.key = hub.rooms.lookup plan.owner.key)
    (hmemberships : memberships plan.member.identity.userNo = none) :
    Enters rooms memberships plan.owner.key plan.destinationSlot plan.member (room hub plan) room' where
  outside := hmemberships
  same := by
    intro other hother
    rw [hrooms] at hother
    unfold room
    rw [hother, getD_some]
  fresh := by
    intro hnone slot
    rw [hrooms] at hnone
    unfold room
    rw [hnone, getD_none]
    exact participant_new _ _ _
  sound := sound hinv
  free := h.free hinv
  ownSlot := h.ownSlot hinv
  added := hadd

/-- The bindings after those of the plan are recorded. -/
theorem after_generations (plan : EnterPlan U) (m : FiniteMap UserNo IdentityBinding) (key : UserNo) :
    after m plan.generations key =
      if plan.memberIsNew ∧ key = plan.member.identity.userNo then some plan.member.identity
      else if plan.ownerIsNew ∧ key = plan.owner.participant.identity.userNo then some plan.owner.participant.identity
      else m.lookup key := by
  unfold EnterPlan.generations
  cases plan.memberIsNew <;> cases plan.ownerIsNew <;> simp [after_pushGenerationSet]

/-- The recorded bindings: those of the member and of the owner of its room, and all that were there. -/
theorem recorded (h : Moves hub plan) (hinv : hub.Inv) {room' : MyRoomState U}
    (hadd : (room hub plan).addMember plan.destinationSlot plan.member = .ok room') :
    after hub.generations plan.generations plan.member.identity.userNo = some plan.member.identity ∧
    after hub.generations plan.generations plan.owner.key = some (room hub plan).owner.identity ∧
    (∀ key identity, hub.generations.lookup key = some identity →
      after hub.generations plan.generations key = some identity) := by
  have howner := validateOrNewIdentity_eq_ok h.owner
  have hmember := validateOrNewIdentity_eq_ok h.member
  have hkey : plan.owner.key = plan.owner.participant.identity.userNo := rfl
  have hsame : plan.member.identity.userNo = plan.owner.key → plan.member.identity = plan.owner.participant.identity := by
    intro hu
    rw [(h.ownSlot hinv).2 hu] at hadd
    rw [identity_of_addMember hadd, h.owner_identity hinv]
  rw [h.owner_identity hinv]
  refine ⟨?_, ?_, ?_⟩
  · rw [after_generations]
    split
    · rfl
    · rename_i hnew
      have hfalse : plan.memberIsNew = false := by simpa using hnew
      rw [hfalse] at hmember
      split
      · rename_i hc
        rw [hc.1, if_pos rfl, ← hc.2, hmember] at howner
        cases howner
      · exact hmember
  · rw [after_generations]
    split
    · rename_i hc
      rw [hsame hc.2.symm]
    · split
      · rfl
      · rename_i hnew
        have hfalse : plan.ownerIsNew = false := by simpa [hkey] using hnew
        rw [hfalse] at howner
        exact howner
  · intro key identity hid
    rw [after_generations, if_neg, if_neg, hid]
    · rintro ⟨hnew, rfl⟩
      rw [hid, hnew] at howner
      cases howner
    · rintro ⟨hnew, rfl⟩
      rw [hid, hnew] at hmember
      cases hmember

/-! ## What is left behind -/

/-- What the member leaves behind: nothing when it had no slot. -/
theorem vacateCurrent_eq_ok {vacated : Option (Change UserNo (MyRoomState U) × MyRoomEffect)}
    (hv : hub.vacateCurrent plan = .ok vacated) : (plan.current = none ∧ vacated = none) ∨
      ∃ membership change effect, plan.current = some membership ∧ vacated = some (change, effect) ∧
        hub.vacate membership plan.member.identity.userNo = .ok (change, effect) := by
  unfold vacateCurrent at hv
  cases hc : plan.current with
  | none =>
    rw [hc] at hv
    cases hv
    exact .inl ⟨rfl, rfl⟩
  | some membership =>
    rw [hc] at hv
    cases hvacate : hub.vacate membership plan.member.identity.userNo with
    | error e =>
      simp only [hvacate] at hv
      cases hv
    | ok result =>
      simp only [hvacate] at hv
      cases hv
      exact .inr ⟨membership, result.1, result.2, rfl, rfl, hvacate⟩

variable {vacated : Option (Change UserNo (MyRoomState U) × MyRoomEffect)}

/-- Vacating the slot the member had gives up a role, and does not touch the room it moves to. -/
theorem shrinks (h : Moves hub plan) (hinv : hub.Inv) (hv : hub.vacateCurrent plan = .ok vacated) :
    Shrinks (fun key => hub.rooms.lookup key) (fun key => hub.memberships.lookup key)
      (after hub.rooms (vacated.map (·.1)).toList)
      (fun key => if key = plan.member.identity.userNo then none else hub.memberships.lookup key) ∧
    after hub.rooms (vacated.map (·.1)).toList plan.owner.key = hub.rooms.lookup plan.owner.key := by
  rcases vacateCurrent_eq_ok hv with ⟨hc, rfl⟩ | ⟨membership, change, effect, hc, rfl, hvacate⟩
  · refine ⟨?_, rfl⟩
    have hsame : (fun key => if key = plan.member.identity.userNo then none else hub.memberships.lookup key) =
        fun key => hub.memberships.lookup key := by
      funext key
      split
      · rename_i hk
        rw [hk, h.current, hc]
      · rfl
    rw [hsame]
    exact Shrinks.refl hinv.roles
  · have hm := h.current.trans hc
    refine ⟨shrinks_vacate hinv hm hvacate (after_singleton _ _) fun key => rfl, ?_⟩
    refine (after_singleton _ _ _).trans (if_neg ?_)
    rw [(vacate_effect hvacate).1]
    exact (h.elsewhere membership hc).symm

/-- What becomes of the rooms and the memberships of the others: only a room that was deleted is gone. -/
theorem others (hv : hub.vacateCurrent plan = .ok vacated) {room' : MyRoomState U} {key : UserNo}
    (hroom : (hub.rooms.lookup key).isSome) (hdeleted : vacated.map (·.2) ≠ some (.deleted key)) :
    (after hub.rooms ((vacated.map (·.1)).toList ++ [⟨plan.owner.key, some room'⟩]) key).isSome := by
  rw [after_append_singleton]
  split
  · rfl
  · rcases vacateCurrent_eq_ok hv with ⟨-, rfl⟩ | ⟨membership, change, effect, -, rfl, hvacate⟩
    · exact hroom
    · rw [map_some, toList_some, after_singleton]
      split
      · rename_i hk
        obtain ⟨hkey, ⟨rfl, -⟩ | ⟨left, -, hvalue⟩⟩ := vacate_effect hvacate
        · exact absurd (by rw [hk, hkey]; rfl) hdeleted
        · rw [hvalue]
          rfl
      · exact hroom

/-- The bindings that the plan records are those of the member and of the owner. -/
theorem key_of_mem_generations {change : Change UserNo IdentityBinding} (hc : change ∈ plan.generations) :
    change.key = plan.member.identity.userNo ∨ change.key = plan.owner.key := by
  have hpush : ∀ (changes : List (Change UserNo IdentityBinding)) (identity : IdentityBinding),
      ∀ change ∈ pushGenerationSet changes identity, change.key = identity.userNo ∨ ∃ old ∈ changes, change.key = old.key := by
    intro changes identity change hc
    unfold pushGenerationSet at hc
    split at hc
    · obtain ⟨old, hold, rfl⟩ := List.mem_map.1 hc
      exact .inr ⟨old, hold, by split <;> rfl⟩
    · rcases List.mem_append.1 hc with hc | hc
      · exact .inr ⟨change, hc, rfl⟩
      · rw [List.mem_singleton.1 hc]
        exact .inl rfl
  have howner : ∀ change ∈ (if plan.ownerIsNew then pushGenerationSet [] plan.owner.participant.identity else []),
      change.key = plan.owner.key := by
    intro change hc
    split at hc
    · rcases hpush _ _ change hc with hk | ⟨old, hold, -⟩
      · exact hk
      · cases hold
    · cases hc
  unfold EnterPlan.generations at hc
  simp only at hc
  split at hc
  · rcases hpush _ _ change hc with hk | ⟨old, hold, hk⟩
    · exact .inl hk
    · exact .inr (hk.trans (howner old hold))
  · exact .inr (howner change hc)

end Moves

section Pruned

variable (hub : MyRoomHub U) (plan : EnterPlan U) (effect : Option MyRoomEffect) (rooms : List (Change UserNo (MyRoomState U)))
  (memberships : List (Change UserNo MyRoomMembership))

/-- The bindings that a move leads to: those the plan records, but that of the owner of a deleted room when it has no other
role. -/
theorem after_prunedGenerations :
    (∀ key, Referenced (after hub.rooms rooms) (after hub.memberships memberships) key →
      after hub.generations (hub.prunedGenerations plan effect rooms memberships) key =
        after hub.generations plan.generations key) ∧
    (∀ key, effect ≠ some (.deleted key) →
      after hub.generations (hub.prunedGenerations plan effect rooms memberships) key =
        after hub.generations plan.generations key) ∧
    (∀ key, effect = some (.deleted key) → (∀ change ∈ plan.generations, change.key ≠ key) →
      ¬Referenced (after hub.rooms rooms) (after hub.memberships memberships) key →
      after hub.generations (hub.prunedGenerations plan effect rooms memberships) key = none) := by
  unfold prunedGenerations
  split
  · rename_i oldOwner
    obtain ⟨h1, h2, h3⟩ := after_pushGenerationPrune hub plan.generations oldOwner rooms memberships
    refine ⟨h1, fun key hk => h2 key ?_, fun key hk => ?_⟩
    · rintro rfl
      exact hk rfl
    · cases hk
      exact h3
  · rename_i hother
    refine ⟨fun key _ => rfl, fun key _ => rfl, fun key hk => ?_⟩
    exact absurd hk (hother key)

/-- Pruning makes the table no larger. -/
theorem size_prunedGenerations_le :
    size ((hub.prunedGenerations plan effect rooms memberships).foldl apply hub.generations) ≤
      size (plan.generations.foldl apply hub.generations) := by
  unfold prunedGenerations
  split
  · unfold pushGenerationPrune
    split
    · exact Nat.le_refl _
    · split
      · rw [List.foldl_append]
        exact size_erase_le _ _
      · exact Nat.le_refl _
  · exact Nat.le_refl _

/-- Pruning a recorded user makes the table smaller. -/
theorem size_prunedGenerations_lt {effect rooms memberships} {key : UserNo} (heffect : effect = some (.deleted key))
    (hunnamed : ∀ change ∈ plan.generations, change.key ≠ key) (htracked : (hub.generations.lookup key).isSome)
    (hgone : ¬Referenced (after hub.rooms rooms) (after hub.memberships memberships) key) :
    size ((hub.prunedGenerations plan effect rooms memberships).foldl apply hub.generations) <
      size (plan.generations.foldl apply hub.generations) := by
  have hfalse : hub.userReferencedAfter key rooms memberships = false := by
    rw [Bool.eq_false_iff]
    exact fun htrue => hgone (userReferencedAfter_iff.1 htrue)
  have hnamed : ¬(plan.generations.any fun change => change.key = key) = true := by
    intro hany
    obtain ⟨change, hc, hk⟩ := List.any_eq_true.1 hany
    exact hunnamed change hc (of_decide_eq_true hk)
  have hthere : (AList.lookup key (plan.generations.foldl apply hub.generations)).isSome := by
    rw [lookup_foldl_apply, after_of_forall_ne hunnamed]
    exact htracked
  rw [heffect]
  simp only [prunedGenerations, pushGenerationPrune, hnamed, htracked, hfalse, Bool.not_false, Bool.and_self, if_true,
    Bool.false_eq_true, if_false, List.foldl_append, List.foldl_cons, List.foldl_nil]
  change size (AList.erase key _) < _
  rw [size_erase, if_pos hthere]
  have := size_pos hthere
  omega

end Pruned

/-- Recording the bindings of a plan adds at most one for each that is new. -/
theorem size_generations_le {plan : EnterPlan U} (h : Moves hub plan) :
    size (plan.generations.foldl apply hub.generations) ≤ hub.generations.size +
      ((if plan.ownerIsNew then 1 else 0) +
        (if plan.memberIsNew && plan.member.identity.userNo ≠ plan.owner.participant.identity.userNo then 1 else 0)) := by
  have howner := validateOrNewIdentity_eq_ok h.owner
  have hmember := validateOrNewIdentity_eq_ok h.member
  have hinsert : ∀ (m : FiniteMap UserNo IdentityBinding) (key : UserNo) (identity : IdentityBinding),
      size (apply m ⟨key, some identity⟩) ≤ m.size + 1 := by
    intro m key identity
    change size (m.insert key identity) ≤ _
    rw [size_insert]
    split
    · exact Nat.le_succ _
    · exact Nat.le_refl _
  unfold EnterPlan.generations
  cases ho : plan.ownerIsNew with
  | false =>
    cases hm : plan.memberIsNew with
    | false => exact Nat.le_add_right _ _
    | true =>
      -- the member is not the owner, whose binding is recorded
      have hne : plan.member.identity.userNo ≠ plan.owner.participant.identity.userNo := by
        intro hc
        rw [ho] at howner
        rw [hm, hc, howner] at hmember
        cases hmember
      simp only [Bool.false_eq_true, if_false, if_true, pushGenerationSet, List.any_nil, List.nil_append, List.foldl_cons,
        List.foldl_nil, Bool.true_and, decide_eq_true hne, Nat.zero_add]
      exact hinsert _ _ _
  | true =>
    cases hm : plan.memberIsNew with
    | false =>
      simp only [Bool.false_eq_true, if_false, if_true, pushGenerationSet, List.any_nil, List.nil_append, List.foldl_cons,
        List.foldl_nil, Bool.false_and, Nat.add_zero]
      exact hinsert _ _ _
    | true =>
      by_cases hu : plan.member.identity.userNo = plan.owner.participant.identity.userNo
      · simp only [if_true, pushGenerationSet, List.any_nil, Bool.false_eq_true, if_false, List.nil_append, List.any_cons, hu,
          decide_true, Bool.true_or, List.map_cons, List.map_nil, List.foldl_cons, List.foldl_nil, ne_eq, not_true_eq_false,
          decide_false, Bool.and_false, Nat.add_zero]
        exact hinsert _ _ _
      · simp only [if_true, pushGenerationSet, List.any_nil, Bool.false_eq_true, if_false, List.nil_append, List.any_cons,
          decide_eq_false (Ne.symm hu), Bool.or_self, List.cons_append, List.foldl_cons, List.foldl_nil, ne_eq, hu,
          not_false_eq_true, decide_true, Bool.and_self]
        have h1 := hinsert hub.generations plan.owner.participant.identity.userNo plan.owner.participant.identity
        have h2 := hinsert (apply hub.generations
          ⟨plan.owner.participant.identity.userNo, some plan.owner.participant.identity⟩)
          plan.member.identity.userNo plan.member.identity
        omega

/-- A room with one participant is empty without it. -/
theorem vacate_last (hinv : hub.Inv) {membership : MyRoomMembership} {userNo : UserNo} {change : Change UserNo (MyRoomState U)}
    {effect : MyRoomEffect} (hv : hub.vacate membership userNo = .ok (change, effect))
    (hone : (hub.rooms.lookup membership.owner).any (fun room => room.mappedCount = 1) = true) :
    effect = .deleted membership.owner ∧ change.value = none := by
  obtain ⟨room, room', hroom, hremove, rfl, rfl⟩ := vacate_eq_ok hv
  rw [hroom, any_some, decide_eq_true_eq, mappedCount_eq, List.length_eq_one_iff] at hone
  obtain ⟨only, hone⟩ := hone
  obtain ⟨⟨leaver, hleaver, hu⟩, hslots, -, -⟩ := removeParticipant_eq_ok hremove
  have honly : ∀ slot participant, room.participant slot = some participant → participant = only := by
    intro slot participant hp
    have hmem := mem_mappedParticipants.2 ⟨slot, hp⟩
    rw [hone] at hmem
    exact List.mem_singleton.1 hmem
  have hempty : room'.mappedCount = 0 := by
    refine mappedCount_eq_zero.2 fun slot => ?_
    rw [hslots, Function.update_apply]
    split
    · rfl
    · rename_i hslot
      cases hp : room.participant slot with
      | none => rfl
      | some participant =>
        have hsame : participant = leaver := (honly _ _ hp).trans (honly _ _ hleaver).symm
        obtain ⟨-, hs⟩ := hinv.roles.stands_unique ⟨room, hroom, hp⟩ ⟨room, hroom, hleaver⟩ (by rw [hsame])
        exact absurd hs hslot
  rw [if_pos hempty, if_pos hempty]
  exact ⟨rfl, rfl⟩

/-! ## The planned move -/

/-- How many bindings the plan adds, as `enter` counts them. -/
def EnterPlan.additional (plan : EnterPlan U) : Nat :=
  (if plan.ownerIsNew then 1 else 0) +
    (if plan.memberIsNew && plan.member.identity.userNo ≠ plan.owner.participant.identity.userNo then 1 else 0)

/-- How many bindings go, as `enter` counts them. -/
def EnterPlan.pruned (hub : MyRoomHub U) (plan : EnterPlan U) : Nat :=
  if plan.current.any (fun membership => hub.enterPrunesOldOwnerGeneration membership plan.member.identity.userNo) then 1 else 0

section BuildEnter

variable {plan : EnterPlan U} {vacated : Option (Change UserNo (MyRoomState U) × MyRoomEffect)} {room' : MyRoomState U}

/-- The memberships after a move. -/
theorem after_memberships_move (hub : MyRoomHub U) (plan : EnterPlan U) (key : UserNo) :
    after hub.memberships [⟨plan.member.identity.userNo, some ⟨plan.owner.key, plan.destinationSlot⟩⟩] key =
      if key = plan.member.identity.userNo then some ⟨plan.owner.key, plan.destinationSlot⟩
      else if key = plan.member.identity.userNo then none else hub.memberships.lookup key := by
  rw [after_singleton]
  split
  · rfl
  · rfl

/-- Who has a role keeps one, but the owner of a deleted room. -/
theorem referenced_move (hv : hub.vacateCurrent plan = .ok vacated) {key : UserNo}
    (href : Referenced (fun key => hub.rooms.lookup key) (fun key => hub.memberships.lookup key) key)
    (hdeleted : vacated.map (·.2) ≠ some (.deleted key)) :
    Referenced (after hub.rooms ((vacated.map (·.1)).toList ++ [⟨plan.owner.key, some room'⟩]))
      (after hub.memberships [⟨plan.member.identity.userNo, some ⟨plan.owner.key, plan.destinationSlot⟩⟩]) key := by
  rcases href with href | href
  · refine .inl ?_
    rw [after_singleton]
    split
    · rfl
    · exact href
  · exact .inr (Moves.others hv href hdeleted)

/-- The table of bindings stays within the capacity that `enter` has checked. -/
theorem size_move (hinv : hub.Inv) (h : Moves hub plan) (hv : hub.vacateCurrent plan = .ok vacated)
    (hcapacity : hub.generations.size + plan.additional - plan.pruned hub ≤ hub.identityCapacity.get) :
    size ((hub.prunedGenerations plan (vacated.map (·.2))
      ((vacated.map (·.1)).toList ++ [⟨plan.owner.key, some room'⟩])
      [⟨plan.member.identity.userNo, some ⟨plan.owner.key, plan.destinationSlot⟩⟩]).foldl apply hub.generations) ≤
      hub.identityCapacity.get := by
  have hrecorded : _ ≤ hub.generations.size + plan.additional := size_generations_le h
  have hle := size_prunedGenerations_le hub plan (vacated.map (·.2)) ((vacated.map (·.1)).toList ++ [⟨plan.owner.key, some room'⟩])
    [⟨plan.member.identity.userNo, some ⟨plan.owner.key, plan.destinationSlot⟩⟩]
  unfold EnterPlan.pruned at hcapacity
  split at hcapacity
  · -- the owner of the room that the member leaves as the last one goes
    rename_i hprunes
    obtain ⟨membership, hc, hprunes⟩ := (any_eq_true _ _).1 hprunes
    simp only [enterPrunesOldOwnerGeneration, ne_eq, decide_not, Bool.and_eq_true, Bool.not_eq_true', decide_eq_false_iff_not]
      at hprunes
    obtain ⟨⟨⟨hne, htracked⟩, hnotMember⟩, hone⟩ := hprunes
    rcases Moves.vacateCurrent_eq_ok hv with ⟨hnone, -⟩ | ⟨other, change, effect, hc', rfl, hvacate⟩
    · rw [hnone] at hc
      cases hc
    · rw [hc] at hc'
      cases hc'
      obtain ⟨rfl, hvalue⟩ := vacate_last hinv hvacate hone
      have hkey := (vacate_effect hvacate).1
      have helsewhere := h.elsewhere membership hc
      have hgone : ¬Referenced (after hub.rooms [change, ⟨plan.owner.key, some room'⟩])
          (after hub.memberships [⟨plan.member.identity.userNo, some ⟨plan.owner.key, plan.destinationSlot⟩⟩])
          membership.owner := by
        rintro (hc | hc)
        · rw [after_singleton, if_neg hne] at hc
          rw [hc] at hnotMember
          cases hnotMember
        · rw [after_pair, if_neg helsewhere, if_pos hkey.symm, hvalue] at hc
          cases hc
      have hlt := size_prunedGenerations_lt hub plan rfl
        (fun change hc hk => (Moves.key_of_mem_generations hc).elim (fun hu => hne (hk.symm.trans hu))
          fun hu => helsewhere (hk.symm.trans hu)) htracked hgone
      refine Nat.le_trans ?_ hcapacity
      refine Nat.le_sub_one_of_lt (Nat.lt_of_lt_of_le hlt ?_)
      exact hrecorded
  · exact Nat.le_trans hle (Nat.le_trans hrecorded hcapacity)

/-- A move is planned on the hub. -/
theorem planned_buildEnter (hinv : hub.Inv) (h : Moves hub plan) (hnext : hub.nextRevision = .ok plan.nextRevision)
    (hcapacity : hub.generations.size + plan.additional - plan.pruned hub ≤ hub.identityCapacity.get)
    {t : MyRoomTransition U MyRoomEnterOutcome} (ht : hub.buildEnterTransition plan = .ok t) :
    Planned hub t t.outcome.publications := by
  unfold buildEnterTransition at ht
  obtain ⟨vacated, hv, ht⟩ := bind_eq_ok.1 ht
  obtain ⟨room', hadd, ht⟩ := bind_eq_ok.1 ht
  have hadded : (Moves.room hub plan).addMember plan.destinationSlot plan.member = .ok room' := by
    unfold Moves.room
    cases hr : ((hub.rooms.lookup plan.owner.key).getD (.new plan.owner plan.nextRevision)).addMember
        plan.destinationSlot plan.member with
    | error e =>
      rw [hr] at hadd
      cases hadd
    | ok other =>
      rw [hr] at hadd
      cases hadd
      rfl
  cases transition_eq_ok ht
  obtain ⟨hshrinks, hdestination⟩ := h.shrinks hinv hv
  have hroles := hshrinks.roles hinv.roles
  have henters : Enters (after hub.rooms (vacated.map (·.1)).toList)
      (fun key => if key = plan.member.identity.userNo then none else hub.memberships.lookup key) plan.owner.key
      plan.destinationSlot plan.member (Moves.room hub plan) room' := h.enters hinv hadded hdestination (if_pos rfl)
  have hrooms := after_append_singleton hub.rooms (vacated.map (·.1)).toList ⟨plan.owner.key, some room'⟩
  have hroles' := henters.roles hroles hrooms (after_memberships_move hub plan)
  obtain ⟨hmember, howner, hold⟩ := h.recorded hinv hadded
  have hcanonical := henters.canonical (hshrinks.canonical hinv.canonical) hrooms hmember howner hold
  obtain ⟨hkept, hsame, hgone⟩ := after_prunedGenerations hub plan (vacated.map (·.2))
    ((vacated.map (·.1)).toList ++ [⟨plan.owner.key, some room'⟩])
    [⟨plan.member.identity.userNo, some ⟨plan.owner.key, plan.destinationSlot⟩⟩]
  refine ⟨rfl, .inl (nextRevision_eq_ok hnext), ?_, ?_⟩
  · refine inv_applyTo hroles' (hcanonical.congr hroles' hkept) ?_ (size_move hinv h hv hcapacity)
    intro key hsome
    by_cases hu : key = plan.member.identity.userNo
    · exact .inl (by rw [after_memberships_move, if_pos hu]; rfl)
    · by_cases hk : key = plan.owner.key
      · exact .inr (by rw [hrooms, if_pos hk]; rfl)
      · -- another user, whose binding was there before
        have hbefore : after hub.generations plan.generations key = hub.generations.lookup key := by
          rw [Moves.after_generations, if_neg (fun hc => hu hc.2), if_neg (fun hc => hk hc.2)]
        by_cases hdeleted : vacated.map (·.2) = some (.deleted key)
        · by_contra href
          have hnone := hgone key hdeleted (fun change hc hck => (Moves.key_of_mem_generations hc).elim
            (fun hc => hu (hck.symm.trans hc)) fun hc => hk (hck.symm.trans hc)) href
          rw [hnone] at hsome
          cases hsome
        · refine referenced_move hv (hinv.referenced key ?_) hdeleted
          rw [← hbefore, ← hsame key hdeleted]
          exact hsome
  · intro publication hp
    simp only [MyRoomEnterOutcome.publications, List.mem_append, List.mem_singleton] at hp
    rcases hp with hp | rfl
    · rcases Moves.vacateCurrent_eq_ok hv with ⟨-, rfl⟩ | ⟨membership, change, effect, hc, rfl, hvacate⟩
      · cases hp
      · obtain ⟨hown, left, rfl, rfl⟩ := vacate_published hvacate hp
        refine ⟨left, ?_, rfl⟩
        rw [lookup_rooms_applyTo]
        refine (hrooms _).trans ((if_neg (h.elsewhere membership hc)).trans ?_)
        exact (after_singleton _ _ _).trans (if_pos rfl)
    · refine ⟨room', ?_, rfl⟩
      rw [lookup_rooms_applyTo]
      exact (hrooms _).trans (if_pos rfl)

end BuildEnter

/-! ## Entering -/

variable {member : MyRoomParticipant U} {owner : MyRoomOwner U} {ownerIsNew memberIsNew : Bool}
  {current : Option MyRoomMembership}

/-- The move of a member is planned on the hub. -/
theorem planned_move (hinv : hub.Inv) (ho : hub.validateOrNewIdentity owner.participant.identity = .ok ownerIsNew)
    (hm : hub.validateOrNewIdentity member.identity = .ok memberIsNew)
    (hc : hub.memberships.lookup member.identity.userNo = current)
    (he : ∀ membership, current = some membership → membership.owner ≠ owner.key)
    {t : MyRoomTransition U MyRoomEnterOutcome} (ht : hub.move member owner ownerIsNew memberIsNew current = .ok t) :
    Planned hub t t.outcome.publications := by
  unfold move at ht
  obtain ⟨slot, hslot, ht⟩ := bind_eq_ok.1 ht
  obtain ⟨_, hcapacity, ht⟩ := bind_eq_ok.1 ht
  obtain ⟨next, hnext, ht⟩ := bind_eq_ok.1 ht
  have hmoves : Moves hub ⟨member, owner, slot, current, ownerIsNew, memberIsNew, next⟩ := ⟨ho, hm, hc, he, hslot⟩
  refine planned_buildEnter hinv hmoves hnext ?_ ht
  exact Nat.not_lt.1 (ensure_eq_ok.1 hcapacity)

/-- The search for a slot is no internal failure. -/
theorem avoids_destinationSlot (hinv : hub.Inv) (member : MyRoomParticipant U) (owner : MyRoomOwner U) :
    Avoids Internal (hub.destinationSlot member owner) := by
  unfold destinationSlot
  cases hroom : hub.rooms.lookup owner.key with
  | none => exact avoids_ok _
  | some room =>
    have hid := hinv.canonical.owners _ _ hroom
    have howner := (hinv.roles.sound _ _ hroom).owner
    refine bind (avoids_requireCanonicalIdentity ?_) fun _ _ => ?_
    · rw [howner, hid]
      rfl
    · refine bind (avoids_requireCanonicalIdentity ?_) fun _ _ => avoids_orElse (.inr id)
      rw [show hub.generations.lookup owner.participant.identity.userNo = some room.owner.identity from hid]
      rfl

/-- The move of a member has no internal failure, when a user that enters its own new room has one binding. -/
theorem avoids_move (hinv : hub.Inv) (ho : hub.validateOrNewIdentity owner.participant.identity = .ok ownerIsNew)
    (hm : hub.validateOrNewIdentity member.identity = .ok memberIsNew)
    (hc : hub.memberships.lookup member.identity.userNo = current)
    (he : ∀ membership, current = some membership → membership.owner ≠ owner.key)
    (hsame : member.identity.userNo = owner.key → hub.generations.lookup owner.key = none →
      member.identity = owner.participant.identity) :
    Avoids Internal (hub.move member owner ownerIsNew memberIsNew current) := by
  unfold move
  refine bind (avoids_destinationSlot hinv member owner) fun slot hslot => ?_
  refine bind (avoids_ensure (.inr id)) fun _ _ => ?_
  refine bind avoids_nextRevision fun next _ => ?_
  have hmoves : Moves hub ⟨member, owner, slot, current, ownerIsNew, memberIsNew, next⟩ := ⟨ho, hm, hc, he, hslot⟩
  unfold buildEnterTransition
  have hvacate : ∃ vacated, hub.vacateCurrent ⟨member, owner, slot, current, ownerIsNew, memberIsNew, next⟩ = .ok vacated := by
    unfold vacateCurrent
    cases hcurrent : current with
    | none => exact ⟨none, rfl⟩
    | some membership =>
      obtain ⟨vacated, hv⟩ := vacate_isOk hinv (hc.trans hcurrent)
      exact ⟨some vacated, by simp only [hv]; rfl⟩
  obtain ⟨vacated, hv⟩ := hvacate
  have hadd : ∃ room', (Moves.room hub ⟨member, owner, slot, current, ownerIsNew, memberIsNew, next⟩).addMember slot member =
      .ok room' := by
    refine addMember_isOk (hmoves.free hinv) fun hzero => ?_
    have hu := (hmoves.ownSlot hinv).1 hzero
    rw [hmoves.owner_identity hinv]
    cases hid : hub.generations.lookup owner.key with
    | none => exact hsame hu hid
    | some canonical =>
      have h1 := validateOrNewIdentity_eq_ok ho
      have h2 := validateOrNewIdentity_eq_ok hm
      rw [show hub.generations.lookup owner.participant.identity.userNo = some canonical from hid] at h1
      rw [hu, hid] at h2
      split at h1
      · cases h1
      · split at h2
        · cases h2
        · exact (some.inj h2).symm.trans (some.inj h1)
  obtain ⟨room', hadd⟩ := hadd
  rw [hv]
  refine bind (avoids_ok _) fun vacated' _ => ?_
  unfold Moves.room at hadd
  rw [hadd]
  refine bind (avoids_ok _) fun _ _ => avoids_transition ?_ ?_ ?_
  · cases vacated' <;> simp
  · simp
  · have hgenerations : (EnterPlan.generations
        ⟨member, owner, slot, current, ownerIsNew, memberIsNew, next⟩).length ≤ 2 := by
      unfold EnterPlan.generations pushGenerationSet
      cases ownerIsNew <;> cases memberIsNew <;> simp
      split <;> simp
    unfold prunedGenerations
    split
    · unfold pushGenerationPrune
      split
      · omega
      · split
        · rw [List.length_append, List.length_singleton]
          omega
        · omega
    · omega

theorem planned_enter (hinv : hub.Inv) {t : MyRoomTransition U MyRoomEnterOutcome} (ht : hub.enter member owner = .ok t) :
    Planned hub t t.outcome.publications := by
  unfold enter at ht
  obtain ⟨ownerIsNew, ho, ht⟩ := bind_eq_ok.1 ht
  obtain ⟨memberIsNew, hm, ht⟩ := bind_eq_ok.1 ht
  cases hc : hub.memberships.lookup member.identity.userNo with
  | none =>
    simp only [hc] at ht
    exact planned_move hinv ho hm hc (fun membership hf => by cases hf) ht
  | some membership =>
    simp only [hc] at ht
    obtain ⟨_, -, ht⟩ := bind_eq_ok.1 ht
    split at ht
    · -- the member is in the room already
      unfold reenter at ht
      obtain ⟨room, hroom, ht⟩ := bind_eq_ok.1 ht
      obtain ⟨hout, -, hplanned⟩ := planned_nothing hinv ht
      rw [hout]
      refine hplanned _ fun publication hp => ?_
      rw [MyRoomEnterOutcome.publications, List.mem_singleton] at hp
      obtain ⟨room', hroom', hroom⟩ := bind_eq_ok.1 hroom
      obtain ⟨_, -, hroom⟩ := bind_eq_ok.1 hroom
      obtain ⟨_, -, hroom⟩ := bind_eq_ok.1 hroom
      cases hroom
      exact ⟨room, by rw [hp]; exact orElse_eq_ok.1 hroom', by rw [hp]; rfl⟩
    · rename_i hne
      exact planned_move hinv ho hm hc (fun other hf => by cases hf; exact hne) ht

/-- `enter` has no internal failure, when a user without a role that enters its own room has one binding. -/
theorem avoids_enter (hinv : hub.Inv) (hsame : member.identity.userNo = owner.key →
    hub.generations.lookup owner.key = none → member.identity = owner.participant.identity) :
    Avoids Internal (hub.enter member owner) := by
  unfold enter
  refine bind (avoids_validateOrNewIdentity _) fun ownerIsNew ho => ?_
  refine bind (avoids_validateOrNewIdentity _) fun memberIsNew hm => ?_
  cases hc : hub.memberships.lookup member.identity.userNo with
  | none => exact avoids_move hinv ho hm hc (fun membership hf => by cases hf) hsame
  | some membership =>
    obtain ⟨key, slot⟩ := membership
    obtain ⟨room, participant, hroom, -, -, hid⟩ := hinv.of_membership hc
    have hmember := validateOrNewIdentity_eq_ok hm
    have hexact : hub.requireExactMember member.identity ⟨key, slot⟩ = .ok () := by
      refine requireExactMember_ok hinv ?_ hc
      rw [hid] at hmember ⊢
      split at hmember
      · cases hmember
      · exact hmember
    simp only [hexact]
    refine bind (avoids_ok _) fun _ _ => ?_
    split
    · rename_i hkey
      have howner := hinv.canonical.owners _ _ hroom
      unfold reenter roomExactOwner MyRoomHub.room
      rw [← hkey, hroom]
      refine bind (bind (avoids_ok _) fun _ _ => ?_) fun _ _ => ?_
      · refine bind (avoids_requireCanonicalIdentity ?_) fun _ _ => ?_
        · have hkey' : owner.participant.identity.userNo = key := hkey.symm
          rw [hkey', howner]
          rfl
        · exact bind (avoids_requireSameBinding _ _) fun _ _ => avoids_pure _
      · exact avoids_transition (Nat.zero_le _) (Nat.zero_le _) (Nat.zero_le _)
    · rename_i hne
      exact avoids_move hinv ho hm hc (fun other hf => by cases hf; exact hne) hsame

end MyRoomHub

end P5136
