import P5136.Lib.Placement
import P5136.Room.NextLobby

/-!
# How a room is arranged

A room keeps five tables: who is at each member id, human, AI or closed marker, who watches, and which member id is in each slot.
They agree: every member id that is taken has one slot, the teams sit on their own sides, the humans have the places of the grid
one after the other, nobody is there twice, and somebody who is there leads. Each operation on a room keeps this.
-/

namespace P5136

open Function

/-- Who sits at a member id: the user, its team, its place on the grid, and the number that is shown of it. -/
structure Seat where
  userNo : UserNo
  team : Nat
  ranking : Int
  shown : Nat
deriving DecidableEq

/-- The tables of a room, without looks. -/
structure Arrangement where
  teamMode : Bool
  humans : MemberId → Option Seat
  ais : MemberId → Option Nat
  closed : MemberId → Option SlotIndex
  watchers : ObserverId → Option (UserNo × Nat)
  slots : SlotIndex → Option MemberId
  master : Int

/-- A member as its seat. -/
def ProtocolRoomMember.seat (member : ProtocolRoomMember) : Seat where
  userNo := member.userNo
  team := member.player.team
  ranking := member.player.ranking
  shown := member.player.userNo

/-- A member as a watcher. -/
def ProtocolRoomMember.watcher (member : ProtocolRoomMember) : UserNo × Nat := (member.userNo, member.player.userNo)

/-- The arrangement of a room. -/
def ProtocolRoomState.arrangement (room : ProtocolRoomState) : Arrangement where
  teamMode := room.settings.teamMode
  humans := fun id => (room.membersById id).map ProtocolRoomMember.seat
  ais := room.aiTeams
  closed := room.closedSlotsById
  watchers := fun id => (room.observers id).map ProtocolRoomMember.watcher
  slots := room.slotPositions
  master := room.roomMaster

namespace Arrangement

variable (a : Arrangement)

/-- Somebody or something is at a member id. -/
def Taken (id : MemberId) : Prop := (a.humans id).isSome ∨ (a.ais id).isSome ∨ (a.closed id).isSome

/-- A player id is that of a human who is there. -/
def Occupied (playerId : Int) : Prop :=
  (∃ id : MemberId, playerId = id.val ∧ (a.humans id).isSome) ∨
    ∃ id : ObserverId, playerId = ProtocolRoomState.observerPlayerId id ∧ (a.watchers id).isSome

/-- A user is there. -/
def Holds (userNo : UserNo) : Prop :=
  (∃ id seat, a.humans id = some seat ∧ seat.userNo = userNo) ∨ ∃ id watcher, a.watchers id = some watcher ∧ watcher.1 = userNo

/-- A team sits at a slot: blue in the first four, red in the others, and nobody has a team where there are none. -/
def Sides (teamMode : Bool) (team : Nat) (slot : SlotIndex) : Prop :=
  if teamMode then (team = 2 ∧ slot.val < 4) ∨ (team = 1 ∧ 4 ≤ slot.val) else team = 0

/-- The team of the racer at a member id. -/
def teamAt (id : MemberId) : Option Nat :=
  match a.humans id with
  | some seat => some seat.team
  | none => a.ais id

/-- The humans have the places of the grid, from zero on, one after the other. -/
def OnGrid (humans : MemberId → Option Seat) : Prop :=
  ∃ order : List MemberId, order.Nodup ∧ (∀ id, id ∈ order ↔ (humans id).isSome) ∧
    ∀ id seat, humans id = some seat → seat.ranking = order.idxOf id

/-- The tables agree on who is where. -/
structure Seated : Prop where
  /-- A human shares its member id with nothing. -/
  human : ∀ id, (a.humans id).isSome → a.ais id = none ∧ a.closed id = none
  /-- An AI shares its member id with no closed marker. -/
  ai : ∀ id, (a.ais id).isSome → a.closed id = none
  /-- What is at a member id has one slot. -/
  placed : Placement a.slots a.Taken
  /-- A closed marker names its slot. -/
  closed : ∀ id slot, a.closed id = some slot → a.slots slot = some id
  /-- The teams sit on their sides. -/
  sides : ∀ slot id team, a.slots slot = some id → a.teamAt id = some team → Sides a.teamMode team slot
  /-- No user races twice. -/
  racing : ∀ i j s t, a.humans i = some s → a.humans j = some t → s.userNo = t.userNo → i = j
  /-- No user watches twice. -/
  watching : ∀ i j s t, a.watchers i = some s → a.watchers j = some t → s.1 = t.1 → i = j
  /-- No user races and watches. -/
  apart : ∀ i j s t, a.humans i = some s → a.watchers j = some t → s.userNo ≠ t.1
  /-- What is shown of a racer is its number. -/
  shown : ∀ id seat, a.humans id = some seat → seat.shown = seat.userNo.get
  /-- What is shown of a watcher is its number. -/
  shownWatcher : ∀ id watcher, a.watchers id = some watcher → watcher.2 = watcher.1.get

/-- Somebody who is there leads, unless there are only watchers and the room is as it was opened. -/
def Led : Prop := (∃ userNo, a.Holds userNo) → a.Occupied a.master ∨ (∀ id, a.humans id = none) ∧ a.master = 0

/-- The tables agree, the humans are on the grid, and somebody leads. -/
structure Sound : Prop extends a.Seated where
  grid : OnGrid a.humans
  led : a.Led

variable {a} {id : MemberId} {slot : SlotIndex}

/-! ## The grid -/

theorem onGrid_empty : OnGrid (fun _ => none) := by
  refine ⟨[], List.nodup_nil, ?_, ?_⟩
  · intro id
    simp
  · rintro id seat ⟨⟩

/-- Two lists of the humans have one length. -/
theorem length_order {humans : MemberId → Option Seat} {order order' : List MemberId} (hnodup : order.Nodup)
    (hmem : ∀ id, id ∈ order ↔ (humans id).isSome) (hnodup' : order'.Nodup) (hmem' : ∀ id, id ∈ order' ↔ (humans id).isSome) :
    order.length = order'.length :=
  ((List.perm_ext_iff_of_nodup hnodup hnodup').2 fun id => (hmem id).trans (hmem' id).symm).length_eq

/-- Who comes last gets the last place. -/
theorem OnGrid.push {humans : MemberId → Option Seat} {seat : Seat} {members : List MemberId} (h : OnGrid humans)
    (hid : humans id = none) (hnodup : members.Nodup) (hmem : ∀ i, i ∈ members ↔ (humans i).isSome)
    (hranking : seat.ranking = members.length) : OnGrid (update humans id (some seat)) := by
  obtain ⟨order, horder, hall, hplace⟩ := h
  have hnot : id ∉ order := by
    rw [hall, hid]
    simp
  have hlength : members.length = order.length := length_order hnodup hmem horder hall
  refine ⟨order ++ [id], List.nodup_append.2 ⟨horder, List.nodup_singleton id, ?_⟩, ?_, ?_⟩
  · rintro i hi j hj rfl
    obtain rfl := List.mem_singleton.1 hj
    exact hnot hi
  · intro i
    rw [List.mem_append, List.mem_singleton, hall, update_apply]
    split
    · rename_i hi
      simp [hi]
    · rename_i hi
      simp [hi]
  · intro i seat' hseat
    rw [update_apply] at hseat
    split at hseat
    · rename_i hi
      obtain rfl := Option.some.inj hseat
      rw [hi, List.idxOf_append, if_neg hnot, List.idxOf_cons_self, Nat.zero_add, hranking, hlength]
    · rw [List.idxOf_append, if_pos ((hall i).2 (by rw [hseat]; rfl))]
      exact hplace i seat' hseat

/-- The places do not change. -/
theorem OnGrid.of_rankings {humans humans' : MemberId → Option Seat} (h : OnGrid humans)
    (hsame : ∀ id, (humans' id).map (·.ranking) = (humans id).map (·.ranking)) : OnGrid humans' := by
  obtain ⟨order, horder, hall, hplace⟩ := h
  refine ⟨order, horder, fun id => ?_, fun id seat hseat => ?_⟩
  · rw [hall, ← Option.isSome_map (f := (·.ranking)), ← hsame, Option.isSome_map]
  · have hranking := hsame id
    rw [hseat, Option.map_some] at hranking
    obtain ⟨seat', hseat', heq⟩ := Option.map_eq_some_iff.1 hranking.symm
    rw [← heq]
    exact hplace id seat' hseat'

/-! ## Seats -/

/-- A table with another entry. -/
theorem update_cases {κ α : Type} [DecidableEq κ] {f : κ → Option α} {k i : κ} {x : Option α} {y : α}
    (h : update f k x i = some y) : i = k ∧ x = some y ∨ i ≠ k ∧ f i = some y := by
  rw [update_apply] at h
  split at h
  · rename_i hi
    exact .inl ⟨hi, h⟩
  · rename_i hi
    exact .inr ⟨hi, h⟩

theorem isSome_update {κ α : Type} [DecidableEq κ] {f : κ → Option α} {k i : κ} {x : α} :
    (update f k (some x) i).isSome ↔ i = k ∨ (f i).isSome := by
  rw [update_apply]
  split
  · rename_i hi
    simp [hi]
  · rename_i hi
    simp [hi]

theorem isSome_update_none {κ α : Type} [DecidableEq κ] {f : κ → Option α} {k i : κ} :
    (update f k none i).isSome ↔ (f i).isSome ∧ i ≠ k := by
  rw [update_apply]
  split
  · rename_i hi
    simp [hi]
  · rename_i hi
    simp [hi]

theorem not_taken (h : ¬a.Taken id) : a.humans id = none ∧ a.ais id = none ∧ a.closed id = none := by
  simp only [Taken, not_or, Bool.not_eq_true, Option.isSome_eq_false_iff, Option.isNone_iff_eq_none] at h
  exact h

/-- A table of humans that say the same but for their places. -/
def SameHumans (humans humans' : MemberId → Option Seat) : Prop :=
  ∀ id, (humans' id).map (fun seat => (seat.userNo, seat.team, seat.shown)) =
    (humans id).map (fun seat => (seat.userNo, seat.team, seat.shown))

theorem SameHumans.exists_seat {humans humans' : MemberId → Option Seat} (h : SameHumans humans humans') {seat : Seat}
    (hseat : humans' id = some seat) :
    ∃ seat', humans id = some seat' ∧ seat'.userNo = seat.userNo ∧ seat'.team = seat.team ∧ seat'.shown = seat.shown := by
  have hid := h id
  rw [hseat, Option.map_some] at hid
  obtain ⟨seat', hseat', heq⟩ := Option.map_eq_some_iff.1 hid.symm
  simp only [Prod.mk.injEq] at heq
  exact ⟨seat', hseat', heq⟩

theorem SameHumans.isSome {humans humans' : MemberId → Option Seat} (h : SameHumans humans humans') (id : MemberId) :
    (humans' id).isSome = (humans id).isSome := by
  have hid := congrArg Option.isSome (h id)
  rwa [Option.isSome_map, Option.isSome_map] at hid

/-- Other places on the grid change nothing about who leads. -/
theorem Led.regraded (h : a.Led) {humans : MemberId → Option Seat} (hsame : SameHumans a.humans humans) :
    Led { a with humans := humans } := by
  have hsome : ∀ id, (humans id).isSome = (a.humans id).isSome := hsame.isSome
  rintro ⟨userNo, hholds⟩
  have hholds' : a.Holds userNo := by
    rcases hholds with ⟨id, seat, hseat, huser⟩ | hwatcher
    · obtain ⟨seat', hseat', huser', -⟩ := hsame.exists_seat hseat
      exact .inl ⟨id, seat', hseat', huser'.trans huser⟩
    · exact .inr hwatcher
  rcases h ⟨userNo, hholds'⟩ with (⟨id, hid, hhuman⟩ | hwatcher) | ⟨hnone, hmaster⟩
  · exact .inl (.inl ⟨id, hid, (hsome id).trans hhuman⟩)
  · exact .inl (.inr hwatcher)
  · refine .inr ⟨fun id => ?_, hmaster⟩
    have hid := hsome id
    rwa [hnone, Option.isSome_none, Option.isSome_eq_false_iff, Option.isNone_iff_eq_none] at hid

namespace Seated

/-- Other places on the grid. -/
theorem regraded (h : a.Seated) {humans : MemberId → Option Seat} (hsame : SameHumans a.humans humans) (master : Int) :
    Seated { a with humans := humans, master := master } where
  human := fun id hid => h.human id (by rw [← hsame.isSome]; exact hid)
  ai := h.ai
  placed := h.placed.of_iff fun id => by
    unfold Taken
    rw [hsame.isSome]
  closed := h.closed
  sides := by
    intro slot id team hslot hteam
    refine h.sides slot id team hslot ?_
    unfold teamAt at hteam ⊢
    dsimp only at hteam
    have hsame := hsame.isSome id
    rcases hhuman : humans id with _ | seat
    · rw [hhuman] at hteam hsame
      rw [Option.isSome_none, eq_comm, Option.isSome_eq_false_iff, Option.isNone_iff_eq_none] at hsame
      rw [hsame]
      exact hteam
    · rw [hhuman] at hteam
      obtain ⟨seat', hseat', -, hteam', -⟩ := SameHumans.exists_seat ‹_› hhuman
      rw [hseat']
      dsimp only at hteam ⊢
      rw [hteam']
      exact hteam
  racing := by
    intro i j s t hs ht huser
    obtain ⟨s', hs', hus, -⟩ := hsame.exists_seat hs
    obtain ⟨t', ht', hut, -⟩ := hsame.exists_seat ht
    exact h.racing i j s' t' hs' ht' (by rw [hus, hut, huser])
  watching := h.watching
  apart := by
    intro i j s t hs ht
    obtain ⟨s', hs', hus, -⟩ := hsame.exists_seat hs
    exact hus ▸ h.apart i j s' t hs' ht
  shown := by
    intro id seat hseat
    obtain ⟨seat', hseat', huser, -, hshown⟩ := hsame.exists_seat hseat
    rw [← hshown, ← huser]
    exact h.shown id seat' hseat'
  shownWatcher := h.shownWatcher

/-- A racer takes a free member id and a free slot. -/
theorem seated (h : a.Seated) {seat : Seat} (hid : ¬a.Taken id) (hslot : a.slots slot = none) (hnew : ¬a.Holds seat.userNo)
    (hside : Sides a.teamMode seat.team slot) (hshown : seat.shown = seat.userNo.get) (master : Int) :
    Seated { a with
      humans := update a.humans id (some seat), slots := update a.slots slot (some id), master := master } := by
  obtain ⟨hhuman, hai, hclosed⟩ := not_taken hid
  refine ⟨?_, h.ai, ?_, ?_, ?_, ?_, h.watching, ?_, ?_, h.shownWatcher⟩
  · intro i hi
    rcases isSome_update.1 hi with rfl | hi
    · exact ⟨hai, hclosed⟩
    · exact h.human i hi
  · refine (h.placed.put hslot hid).of_iff fun i => ?_
    unfold Taken
    dsimp only
    rw [isSome_update, or_assoc]
  · intro i s hs
    have hne : s ≠ slot := by
      rintro rfl
      rw [h.closed i s hs] at hslot
      cases hslot
    dsimp only
    rw [update_of_ne hne]
    exact h.closed i s hs
  · intro s i team hs hteam
    unfold teamAt at hteam
    dsimp only at hs hteam
    rcases update_cases hs with ⟨rfl, hi⟩ | ⟨-, hold⟩
    · obtain rfl := Option.some.inj hi
      rw [update_self] at hteam
      obtain rfl := Option.some.inj hteam
      exact hside
    · have hne : i ≠ id := by
        rintro rfl
        exact absurd hold (h.placed.free_of_missing hid s)
      rw [update_of_ne hne] at hteam
      exact h.sides s i team hold hteam
  · intro i j s t hs ht huser
    rcases update_cases hs with ⟨hi, heq⟩ | ⟨-, hs'⟩
    · obtain rfl := Option.some.inj heq
      rcases update_cases ht with ⟨hj, -⟩ | ⟨-, ht'⟩
      · exact hi.trans hj.symm
      · exact absurd (.inl ⟨j, t, ht', huser.symm⟩) hnew
    · rcases update_cases ht with ⟨-, heq⟩ | ⟨-, ht'⟩
      · obtain rfl := Option.some.inj heq
        exact absurd (.inl ⟨i, s, hs', huser⟩) hnew
      · exact h.racing i j s t hs' ht' huser
  · intro i j s t hs ht
    rcases update_cases hs with ⟨rfl, heq⟩ | ⟨-, hs⟩
    · obtain rfl := Option.some.inj heq
      exact fun huser => hnew (.inr ⟨j, t, ht, huser.symm⟩)
    · exact h.apart i j s t hs ht
  · intro i s hs
    rcases update_cases hs with ⟨rfl, heq⟩ | ⟨-, hs⟩
    · obtain rfl := Option.some.inj heq
      exact hshown
    · exact h.shown i s hs

/-- A racer leaves its member id and its slot. -/
theorem unseated (h : a.Seated) {seat : Seat} (hid : a.humans id = some seat) (hslot : a.slots slot = some id) (master : Int) :
    Seated { a with
      humans := update a.humans id none, slots := update a.slots slot none, master := master } := by
  obtain ⟨hai, hclosed⟩ := h.human id (by rw [hid]; rfl)
  have hhumans : ∀ i s, update a.humans id none i = some s → a.humans i = some s := by
    intro i s hs
    rcases update_cases hs with ⟨-, hnone⟩ | ⟨-, hs⟩
    · cases hnone
    · exact hs
  refine ⟨?_, h.ai, ?_, ?_, ?_, ?_, h.watching, ?_, ?_, h.shownWatcher⟩
  · intro i hi
    exact h.human i (isSome_update_none.1 hi).1
  · refine (h.placed.take hslot).of_iff fun i => ?_
    unfold Taken
    dsimp only
    rw [isSome_update_none]
    constructor
    · rintro (⟨hi, hne⟩ | hi)
      · exact ⟨.inl hi, hne⟩
      · refine ⟨.inr hi, ?_⟩
        rintro rfl
        rw [hai, hclosed] at hi
        simp at hi
    · rintro ⟨hi | hi, hne⟩
      · exact .inl ⟨hi, hne⟩
      · exact .inr hi
  · intro i s hs
    have hne : s ≠ slot := by
      rintro rfl
      obtain rfl := Option.some.inj (hslot.symm.trans (h.closed i s hs))
      rw [hclosed] at hs
      cases hs
    dsimp only
    rw [update_of_ne hne]
    exact h.closed i s hs
  · intro s i team hs hteam
    unfold teamAt at hteam
    dsimp only at hs hteam
    rcases update_cases hs with ⟨-, hnone⟩ | ⟨hne, hold⟩
    · cases hnone
    · have hi : i ≠ id := by
        rintro rfl
        exact hne (h.placed.unique s slot i hold hslot)
      rw [update_of_ne hi] at hteam
      exact h.sides s i team hold hteam
  · intro i j s t hs ht huser
    exact h.racing i j s t (hhumans i s hs) (hhumans j t ht) huser
  · intro i j s t hs ht
    exact h.apart i j s t (hhumans i s hs) ht
  · intro i s hs
    exact h.shown i s (hhumans i s hs)

/-- A racer changes its team and moves to a free slot of it. -/
theorem moved (h : a.Seated) {seat : Seat} {target : SlotIndex} {team : Nat} (hid : a.humans id = some seat)
    (hslot : a.slots slot = some id) (htarget : a.slots target = none) (hside : Sides a.teamMode team target) :
    Seated { a with
      humans := update a.humans id (some { seat with team := team })
      slots := update (update a.slots slot none) target (some id) } := by
  obtain ⟨hai, hclosed⟩ := h.human id (by rw [hid]; rfl)
  have hhumans : ∀ i s, update a.humans id (some { seat with team := team }) i = some s →
      ∃ s', a.humans i = some s' ∧ s'.userNo = s.userNo ∧ s'.shown = s.shown := by
    intro i s hs
    rcases update_cases hs with ⟨rfl, heq⟩ | ⟨-, hs⟩
    · obtain rfl := Option.some.inj heq
      exact ⟨seat, hid, rfl, rfl⟩
    · exact ⟨s, hs, rfl, rfl⟩
  have hsome : ∀ i, (update a.humans id (some { seat with team := team }) i).isSome ↔ (a.humans i).isSome := by
    intro i
    rw [isSome_update]
    constructor
    · rintro (rfl | hi)
      · rw [hid]
        rfl
      · exact hi
    · exact .inr
  refine ⟨?_, h.ai, ?_, ?_, ?_, ?_, h.watching, ?_, ?_, h.shownWatcher⟩
  · intro i hi
    exact h.human i ((hsome i).1 hi)
  · refine (h.placed.move hslot htarget).of_iff fun i => ?_
    unfold Taken
    dsimp only
    rw [hsome]
  · intro i s hs
    have htargetNe : s ≠ target := by
      rintro rfl
      rw [h.closed i s hs] at htarget
      cases htarget
    have hslotNe : s ≠ slot := by
      rintro rfl
      obtain rfl := Option.some.inj (hslot.symm.trans (h.closed i s hs))
      rw [hclosed] at hs
      cases hs
    dsimp only
    rw [update_of_ne htargetNe, update_of_ne hslotNe]
    exact h.closed i s hs
  · intro s i team' hs hteam
    unfold teamAt at hteam
    dsimp only at hs hteam
    rcases update_cases hs with ⟨rfl, hi⟩ | ⟨-, hold⟩
    · obtain rfl := Option.some.inj hi
      rw [update_self] at hteam
      obtain rfl := Option.some.inj hteam
      exact hside
    · rcases update_cases hold with ⟨-, hnone⟩ | ⟨hne, hold⟩
      · cases hnone
      · have hi : i ≠ id := by
          rintro rfl
          exact hne (h.placed.unique s slot i hold hslot)
        rw [update_of_ne hi] at hteam
        exact h.sides s i team' hold hteam
  · intro i j s t hs ht huser
    obtain ⟨s', hs', hus, -⟩ := hhumans i s hs
    obtain ⟨t', ht', hut, -⟩ := hhumans j t ht
    exact h.racing i j s' t' hs' ht' (by rw [hus, hut, huser])
  · intro i j s t hs ht
    obtain ⟨s', hs', hus, -⟩ := hhumans i s hs
    exact hus ▸ h.apart i j s' t hs' ht
  · intro i s hs
    obtain ⟨s', hs', hus, hshown⟩ := hhumans i s hs
    rw [← hshown, ← hus]
    exact h.shown i s' hs'

/-- A watcher takes a free place. -/
theorem watched (h : a.Seated) {place : ObserverId} {watcher : UserNo × Nat} (hnew : ¬a.Holds watcher.1)
    (hshown : watcher.2 = watcher.1.get) (master : Int) :
    Seated { a with watchers := update a.watchers place (some watcher), master := master } := by
  refine ⟨h.human, h.ai, h.placed, h.closed, h.sides, h.racing, ?_, ?_, h.shown, ?_⟩
  · intro i j s t hs ht huser
    rcases update_cases hs with ⟨hi, heq⟩ | ⟨-, hs'⟩
    · obtain rfl := Option.some.inj heq
      rcases update_cases ht with ⟨hj, -⟩ | ⟨-, ht'⟩
      · exact hi.trans hj.symm
      · exact absurd (.inr ⟨j, t, ht', huser.symm⟩) hnew
    · rcases update_cases ht with ⟨-, heq⟩ | ⟨-, ht'⟩
      · obtain rfl := Option.some.inj heq
        exact absurd (.inr ⟨i, s, hs', huser⟩) hnew
      · exact h.watching i j s t hs' ht' huser
  · intro i j s t hs ht huser
    rcases update_cases ht with ⟨-, heq⟩ | ⟨-, ht'⟩
    · obtain rfl := Option.some.inj heq
      exact hnew (.inl ⟨i, s, hs, huser⟩)
    · exact h.apart i j s t hs ht' huser
  · intro i s hs
    rcases update_cases hs with ⟨-, heq⟩ | ⟨-, hs'⟩
    · obtain rfl := Option.some.inj heq
      exact hshown
    · exact h.shownWatcher i s hs'

/-- A watcher leaves. -/
theorem unwatched (h : a.Seated) (place : ObserverId) (master : Int) :
    Seated { a with watchers := update a.watchers place none, master := master } := by
  have hwatchers : ∀ i s, update a.watchers place none i = some s → a.watchers i = some s := by
    intro i s hs
    rcases update_cases hs with ⟨-, hnone⟩ | ⟨-, hold⟩
    · cases hnone
    · exact hold
  refine ⟨h.human, h.ai, h.placed, h.closed, h.sides, h.racing, ?_, ?_, h.shown, ?_⟩
  · intro i j s t hs ht huser
    exact h.watching i j s t (hwatchers i s hs) (hwatchers j t ht) huser
  · intro i j s t hs ht
    exact h.apart i j s t hs (hwatchers j t ht)
  · intro i s hs
    exact h.shownWatcher i s (hwatchers i s hs)

/-- An AI takes a free member id and a free slot. -/
theorem aiSeated (h : a.Seated) {team : Nat} (hid : ¬a.Taken id) (hslot : a.slots slot = none)
    (hside : Sides a.teamMode team slot) :
    Seated { a with ais := update a.ais id (some team), slots := update a.slots slot (some id) } := by
  obtain ⟨hhuman, -, hclosed⟩ := not_taken hid
  refine ⟨?_, ?_, ?_, ?_, ?_, h.racing, h.watching, h.apart, h.shown, h.shownWatcher⟩
  · intro i hi
    have hne : i ≠ id := by
      rintro rfl
      dsimp only at hi
      rw [hhuman] at hi
      cases hi
    dsimp only
    rw [update_of_ne hne]
    exact h.human i hi
  · intro i hi
    rcases isSome_update.1 hi with rfl | hi
    · exact hclosed
    · exact h.ai i hi
  · refine (h.placed.put hslot hid).of_iff fun i => ?_
    unfold Taken
    dsimp only
    rw [isSome_update, or_assoc, or_left_comm]
  · intro i s hs
    have hne : s ≠ slot := by
      rintro rfl
      rw [h.closed i s hs] at hslot
      cases hslot
    dsimp only
    rw [update_of_ne hne]
    exact h.closed i s hs
  · intro s i team' hs hteam
    unfold teamAt at hteam
    dsimp only at hs hteam
    rcases update_cases hs with ⟨rfl, hi⟩ | ⟨-, hold⟩
    · obtain rfl := Option.some.inj hi
      rw [hhuman, update_self] at hteam
      obtain rfl := Option.some.inj hteam
      exact hside
    · have hne : i ≠ id := by
        rintro rfl
        exact absurd hold (h.placed.free_of_missing hid s)
      rw [update_of_ne hne] at hteam
      exact h.sides s i team' hold hteam

/-- An AI leaves its member id and its slot. -/
theorem aiUnseated (h : a.Seated) (hid : (a.ais id).isSome) (hslot : a.slots slot = some id) :
    Seated { a with ais := update a.ais id none, slots := update a.slots slot none } := by
  have hclosed := h.ai id hid
  have hhuman : a.humans id = none := by
    rcases hseat : a.humans id with _ | seat
    · rfl
    · rw [(h.human id (by rw [hseat]; rfl)).1] at hid
      cases hid
  refine ⟨?_, ?_, ?_, ?_, ?_, h.racing, h.watching, h.apart, h.shown, h.shownWatcher⟩
  · intro i hi
    obtain ⟨hai, hmark⟩ := h.human i hi
    refine ⟨?_, hmark⟩
    dsimp only
    rw [update_apply, hai, ite_self]
  · intro i hi
    exact h.ai i (isSome_update_none.1 hi).1
  · refine (h.placed.take hslot).of_iff fun i => ?_
    unfold Taken
    dsimp only
    rw [isSome_update_none]
    constructor
    · rintro (hi | ⟨hi, hne⟩ | hi)
      · refine ⟨.inl hi, ?_⟩
        rintro rfl
        rw [hhuman] at hi
        cases hi
      · exact ⟨.inr (.inl hi), hne⟩
      · refine ⟨.inr (.inr hi), ?_⟩
        rintro rfl
        rw [hclosed] at hi
        cases hi
    · rintro ⟨hi | hi | hi, hne⟩
      · exact .inl hi
      · exact .inr (.inl ⟨hi, hne⟩)
      · exact .inr (.inr hi)
  · intro i s hs
    have hne : s ≠ slot := by
      rintro rfl
      obtain rfl := Option.some.inj (hslot.symm.trans (h.closed i s hs))
      rw [hclosed] at hs
      cases hs
    dsimp only
    rw [update_of_ne hne]
    exact h.closed i s hs
  · intro s i team hs hteam
    unfold teamAt at hteam
    dsimp only at hs hteam
    rcases update_cases hs with ⟨-, hnone⟩ | ⟨hne, hold⟩
    · cases hnone
    · have hi : i ≠ id := by
        rintro rfl
        exact hne (h.placed.unique s slot i hold hslot)
      rw [update_of_ne hi] at hteam
      exact h.sides s i team hold hteam

/-- A free slot is closed under a free member id. -/
theorem closedUp (h : a.Seated) (hid : ¬a.Taken id) (hslot : a.slots slot = none) :
    Seated { a with closed := update a.closed id (some slot), slots := update a.slots slot (some id) } := by
  obtain ⟨hhuman, hai, -⟩ := not_taken hid
  refine ⟨?_, ?_, ?_, ?_, ?_, h.racing, h.watching, h.apart, h.shown, h.shownWatcher⟩
  · intro i hi
    have hne : i ≠ id := by
      rintro rfl
      dsimp only at hi
      rw [hhuman] at hi
      cases hi
    dsimp only
    rw [update_of_ne hne]
    exact h.human i hi
  · intro i hi
    have hne : i ≠ id := by
      rintro rfl
      dsimp only at hi
      rw [hai] at hi
      cases hi
    dsimp only
    rw [update_of_ne hne]
    exact h.ai i hi
  · refine (h.placed.put hslot hid).of_iff fun i => ?_
    unfold Taken
    dsimp only
    rw [isSome_update]
    tauto
  · intro i s hs
    dsimp only
    rcases update_cases hs with ⟨rfl, heq⟩ | ⟨-, hold⟩
    · obtain rfl := Option.some.inj heq
      exact update_self ..
    · have hne : s ≠ slot := by
        rintro rfl
        rw [h.closed i s hold] at hslot
        cases hslot
      rw [update_of_ne hne]
      exact h.closed i s hold
  · intro s i team hs hteam
    unfold teamAt at hteam
    dsimp only at hs hteam
    rcases update_cases hs with ⟨rfl, hi⟩ | ⟨-, hold⟩
    · obtain rfl := Option.some.inj hi
      rw [hhuman, hai] at hteam
      cases hteam
    · exact h.sides s i team hold hteam

/-- A closed slot is opened. -/
theorem reopened (h : a.Seated) (hid : a.closed id = some slot) :
    Seated { a with closed := update a.closed id none, slots := update a.slots slot none } := by
  have hslot := h.closed id slot hid
  have hhuman : a.humans id = none := by
    rcases hseat : a.humans id with _ | seat
    · rfl
    · rw [(h.human id (by rw [hseat]; rfl)).2] at hid
      cases hid
  have hai : a.ais id = none := by
    rcases hteam : a.ais id with _ | team
    · rfl
    · rw [h.ai id (by rw [hteam]; rfl)] at hid
      cases hid
  refine ⟨?_, ?_, ?_, ?_, ?_, h.racing, h.watching, h.apart, h.shown, h.shownWatcher⟩
  · intro i hi
    obtain ⟨hfree, hmark⟩ := h.human i hi
    refine ⟨hfree, ?_⟩
    dsimp only
    rw [update_apply, hmark, ite_self]
  · intro i hi
    have hmark := h.ai i hi
    dsimp only
    rw [update_apply, hmark, ite_self]
  · refine (h.placed.take hslot).of_iff fun i => ?_
    unfold Taken
    dsimp only
    rw [isSome_update_none]
    constructor
    · rintro (hi | hi | ⟨hi, hne⟩)
      · refine ⟨.inl hi, ?_⟩
        rintro rfl
        rw [hhuman] at hi
        cases hi
      · refine ⟨.inr (.inl hi), ?_⟩
        rintro rfl
        rw [hai] at hi
        cases hi
      · exact ⟨.inr (.inr hi), hne⟩
    · rintro ⟨hi | hi | hi, hne⟩
      · exact .inl hi
      · exact .inr (.inl hi)
      · exact .inr (.inr ⟨hi, hne⟩)
  · intro i s hs
    dsimp only at hs ⊢
    rcases update_cases hs with ⟨-, hnone⟩ | ⟨hi, hold⟩
    · cases hnone
    · have hne : s ≠ slot := by
        rintro rfl
        exact hi (Option.some.inj ((h.closed i s hold).symm.trans hslot))
      rw [update_of_ne hne]
      exact h.closed i s hold
  · intro s i team hs hteam
    dsimp only at hs
    rcases update_cases hs with ⟨-, hnone⟩ | ⟨-, hold⟩
    · cases hnone
    · exact h.sides s i team hold hteam

end Seated

end Arrangement

end P5136
