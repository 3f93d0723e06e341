import P5136.Lib.Rotation
import P5136.World.Atomic

/-!
# The rotation of random tracks

A room whose track is a random selector draws a concrete track at each start. It remembers the tracks it drew, so that none comes
again before all did, and none twice in a row. The history is the room's own: only a start changes it, and only when it succeeds;
the game type of a room never changes.
-/

namespace P5136

open Act List

/-! ## Histories -/

/-- What a room remembers of the tracks that it drew. -/
structure TrackHistory where
  pool : Option (Nat × Nat)
  used : List Nat
  last : Option Nat
deriving DecidableEq

namespace TrackHistory

/-- The history of a new room. -/
def fresh : TrackHistory := ⟨none, [], none⟩

/-- The history that counts in a pool. -/
def entered (h : TrackHistory) (pool : Nat × Nat) : TrackHistory := if h.pool = some pool then h else ⟨some pool, [], none⟩

/-- The tracks of a history that are still candidates of a pool. -/
def kept (h : TrackHistory) (pool : Nat × Nat) (distinct : List Nat) : List Nat :=
  (h.entered pool).used.filter (fun track => track ∈ distinct)

/-- The tracks that count as used. -/
def counted (h : TrackHistory) (pool : Nat × Nat) (distinct : List Nat) : List Nat :=
  Rotation.counted distinct (h.kept pool distinct)

/-- A draw: a candidate that does not count as used, and is not the last one when there are others. -/
structure Draw (h : TrackHistory) (pool : Nat × Nat) (distinct : List Nat) (track : Nat) (next : TrackHistory) : Prop where
  mem : track ∈ distinct
  unused : track ∉ h.counted pool distinct
  fresh : 2 ≤ distinct.length → ∀ last ∈ (h.entered pool).used, (h.entered pool).last = some last → track ≠ last
  next : next = ⟨some pool, h.counted pool distinct ++ [track], some track⟩

end TrackHistory

/-- The pool of a selector in a game type: item games have their own. -/
def trackPool (gameType selector : Nat) : Nat × Nat := (if gameType = 2 ∨ gameType = 4 then 1 else 0, selector)

/-- What a start chose from. -/
structure TrackChoice where
  selector : Nat
  candidates : List Nat
  track : Nat
deriving DecidableEq

/-- A choice: a draw for a random selector, and else the selected track, which forgets the history. -/
def TrackChoice.Follows (gameType : Nat) (self : TrackChoice) (h next : TrackHistory) : Prop :=
  if isRandomTrackSelector self.selector = true then
    h.Draw (trackPool gameType self.selector) (concreteCandidates self.candidates) self.track next
  else self.track = self.selector ∧ next = .fresh

/-- Choices one after the other. -/
inductive ChoiceRun (gameType : Nat) : TrackHistory → List TrackChoice → TrackHistory → Prop where
  | nil (h : TrackHistory) : ChoiceRun gameType h [] h
  | cons {h next last : TrackHistory} {choice : TrackChoice} {rest : List TrackChoice} : choice.Follows gameType h next →
      ChoiceRun gameType next rest last → ChoiceRun gameType h (choice :: rest) last

/-! ## Runs of choices -/

namespace TrackHistory

variable {h next : TrackHistory} {pool : Nat × Nat} {distinct : List Nat} {track : Nat}

theorem kept_subset (h : TrackHistory) (pool : Nat × Nat) (distinct : List Nat) : h.kept pool distinct ⊆ distinct := by
  intro track htrack
  simpa using (mem_filter.1 htrack).2

theorem nodup_kept (hused : h.used.Nodup) : (h.kept pool distinct).Nodup := by
  unfold kept entered
  by_cases hpool : h.pool = some pool
  · rw [if_pos hpool]
    exact hused.filter _
  · rw [if_neg hpool]
    exact nodup_nil

/-- A history of another pool keeps nothing. -/
theorem kept_eq_nil (hpool : h.pool ≠ some pool) : h.kept pool distinct = [] := by
  rw [kept, entered, if_neg hpool]
  rfl

/-- The used tracks after a draw are candidates, each once. -/
theorem Draw.used (hdraw : h.Draw pool distinct track next) (hused : h.used.Nodup) : next.used.Nodup ∧ next.used ⊆ distinct := by
  rw [hdraw.next]
  refine ⟨Rotation.nodup_counted_concat (nodup_kept hused) hdraw.unused, ?_⟩
  intro other hother
  rcases mem_append.1 hother with hcounted | hsame
  · exact Rotation.counted_subset (h.kept_subset pool distinct) hcounted
  · rw [mem_singleton] at hsame
    exact hsame ▸ hdraw.mem

/-- All used tracks are kept after a draw. -/
theorem Draw.kept (hdraw : h.Draw pool distinct track next) : next.kept pool distinct = h.counted pool distinct ++ [track] := by
  have hentered : next.entered pool = next := by
    rw [hdraw.next, entered, if_pos rfl]
  rw [TrackHistory.kept, hentered, hdraw.next]
  refine filter_eq_self.2 ?_
  intro other hother
  rcases mem_append.1 hother with hcounted | hsame
  · simpa using Rotation.counted_subset (h.kept_subset pool distinct) hcounted
  · rw [mem_singleton] at hsame
    simpa [hsame] using hdraw.mem

end TrackHistory

namespace ChoiceRun

variable {gameType selector : Nat} {distinct : List Nat} {h last : TrackHistory} {choices : List TrackChoice}

/-- The choices are of one selector, and of one set of candidates. -/
def Steady (selector : Nat) (distinct : List Nat) (choices : List TrackChoice) : Prop :=
  ∀ choice ∈ choices, choice.selector = selector ∧ concreteCandidates choice.candidates = distinct

theorem draw_of_follows {choice : TrackChoice} {next : TrackHistory} (hrandom : isRandomTrackSelector choice.selector = true)
    (hfollows : choice.Follows gameType h next) :
    h.Draw (trackPool gameType choice.selector) (concreteCandidates choice.candidates) choice.track next := by
  unfold TrackChoice.Follows at hfollows
  rwa [if_pos hrandom] at hfollows

/-- Steady choices are draws in turn. -/
theorem draws (hrun : ChoiceRun gameType h choices last) (hrandom : isRandomTrackSelector selector = true)
    (hsteady : Steady selector distinct choices) :
    Rotation.Draws distinct (h.kept (trackPool gameType selector) distinct) (choices.map (·.track))
      (last.kept (trackPool gameType selector) distinct) := by
  induction hrun with
  | nil h => exact .nil _
  | @cons h next last choice rest hfollows _ ih =>
    obtain ⟨rfl, rfl⟩ := hsteady choice (mem_cons_self ..)
    have hdraw := draw_of_follows hrandom hfollows
    refine .cons hdraw.mem hdraw.unused ?_
    have hrest := ih (fun other hother => hsteady other (mem_cons_of_mem _ hother))
    rw [hdraw.kept] at hrest
    exact hrest

/-- After a drawn track, steady choices of two candidates or more do not repeat the one before. -/
theorem chain_cons (hrun : ChoiceRun gameType h choices last) (hrandom : isRandomTrackSelector selector = true)
    (hsteady : Steady selector distinct choices) (htwo : 2 ≤ distinct.length) {track : Nat}
    (hpool : h.pool = some (trackPool gameType selector)) (hlast : h.last = some track) (hused : track ∈ h.used) :
    (track :: choices.map (·.track)).IsChain (· ≠ ·) := by
  induction hrun generalizing track with
  | nil h => exact isChain_singleton _
  | @cons h next last choice rest hfollows _ ih =>
    obtain ⟨rfl, rfl⟩ := hsteady choice (mem_cons_self ..)
    have hdraw := draw_of_follows hrandom hfollows
    have hentered : h.entered (trackPool gameType choice.selector) = h := by
      rw [TrackHistory.entered, if_pos hpool]
    have hne : choice.track ≠ track := by
      refine hdraw.fresh htwo track ?_ ?_
      · rw [hentered]
        exact hused
      · rw [hentered]
        exact hlast
    refine isChain_cons_cons.2 ⟨hne.symm, ?_⟩
    refine ih (fun other hother => hsteady other (mem_cons_of_mem _ hother)) ?_ ?_ ?_
    · rw [hdraw.next]
    · rw [hdraw.next]
    · rw [hdraw.next]
      simp

/-- Steady choices of two candidates or more do not repeat the one before. -/
theorem chain (hrun : ChoiceRun gameType h choices last) (hrandom : isRandomTrackSelector selector = true)
    (hsteady : Steady selector distinct choices) (htwo : 2 ≤ distinct.length) : (choices.map (·.track)).IsChain (· ≠ ·) := by
  rcases hrun with _ | @⟨_, next, _, choice, rest, hfollows, hrest⟩
  · exact isChain_nil
  · obtain ⟨rfl, rfl⟩ := hsteady choice (mem_cons_self ..)
    have hdraw := draw_of_follows hrandom hfollows
    refine hrest.chain_cons hrandom (fun other hother => hsteady other (mem_cons_of_mem _ hother)) htwo ?_ ?_ ?_
    · rw [hdraw.next]
    · rw [hdraw.next]
    · rw [hdraw.next]
      simp

/-- One choice keeps the used tracks apart. -/
theorem nodup_of_follows {choice : TrackChoice} {next : TrackHistory} (hfollows : choice.Follows gameType h next)
    (hused : h.used.Nodup) : next.used.Nodup := by
  by_cases hrandom : isRandomTrackSelector choice.selector = true
  · exact ((draw_of_follows hrandom hfollows).used hused).1
  · unfold TrackChoice.Follows at hfollows
    rw [if_neg hrandom] at hfollows
    rw [hfollows.2]
    exact nodup_nil

/-- A run keeps the used tracks apart, and among the candidates of its last choice. -/
theorem used (hrun : ChoiceRun gameType h choices last) (hused : h.used.Nodup) :
    last.used.Nodup ∧ ∀ front choice, choices = front ++ [choice] → isRandomTrackSelector choice.selector = true →
      last.used ⊆ concreteCandidates choice.candidates := by
  induction hrun with
  | nil h =>
    refine ⟨hused, ?_⟩
    intro front choice hnil
    exact absurd hnil (by simp)
  | @cons h next last choice rest hfollows hrest ih =>
    obtain ⟨hnodup, hwithin⟩ := ih (nodup_of_follows hfollows hused)
    refine ⟨hnodup, ?_⟩
    intro front choice' heq hrandom
    rcases front with _ | ⟨first, front⟩
    · obtain ⟨rfl, rfl⟩ := cons.inj heq
      cases hrest
      exact ((draw_of_follows hrandom hfollows).used hused).2
    · obtain ⟨-, hrestEq⟩ := cons.inj heq
      exact hwithin front choice' hrestEq hrandom

/-- A choice of a random selector is one of the concrete candidates. -/
theorem track_mem (hrun : ChoiceRun gameType h choices last) {choice : TrackChoice} (hchoice : choice ∈ choices)
    (hrandom : isRandomTrackSelector choice.selector = true) : choice.track ∈ concreteCandidates choice.candidates := by
  induction hrun with
  | nil h => exact absurd hchoice (by simp)
  | cons hfollows _ ih =>
    rcases mem_cons.1 hchoice with rfl | hrest
    · exact (draw_of_follows hrandom hfollows).mem
    · exact ih hrest

end ChoiceRun

/-! ## One selection -/

theorem nodup_concreteCandidates (candidates : List Nat) : (concreteCandidates candidates).Nodup := nodup_dedup _

/-- The candidates are the concrete ones of the list. -/
theorem mem_concreteCandidates {candidates : List Nat} {track : Nat} :
    track ∈ concreteCandidates candidates ↔ track ∈ candidates ∧ isRandomTrackSelector track = false := by
  simp [concreteCandidates]

namespace ProtocolRoomState

/-- The history of a room. -/
def trackHistory (room : ProtocolRoomState) : TrackHistory := ⟨room.randomTrackPool, room.randomTracksUsed, room.lastRandomTrack⟩

variable {room next : ProtocolRoomState} {candidates : List Nat} {draw track : Nat}

theorem trackHistory_enterTrackPool (room : ProtocolRoomState) (pool : Nat × Nat) :
    (room.enterTrackPool pool).trackHistory = room.trackHistory.entered pool := by
  unfold enterTrackPool TrackHistory.entered
  by_cases hpool : room.randomTrackPool = some pool
  · rw [if_pos hpool, if_pos (show room.trackHistory.pool = some pool from hpool)]
  · rw [if_neg hpool, if_neg (show ¬ room.trackHistory.pool = some pool from hpool)]
    rfl

theorem settings_enterTrackPool (room : ProtocolRoomState) (pool : Nat × Nat) :
    (room.enterTrackPool pool).settings = room.settings := by
  unfold enterTrackPool
  by_cases hpool : room.randomTrackPool = some pool
  · rw [if_pos hpool]
  · rw [if_neg hpool]

theorem tracksUsedOf_eq (room : ProtocolRoomState) (distinct : List Nat) :
    room.tracksUsedOf distinct = Rotation.counted distinct (room.trackHistory.used.filter (fun track => track ∈ distinct)) := rfl

/-- There is always a track to draw, and none that counts as used. -/
theorem tracksAvailable_spec (room : ProtocolRoomState) {distinct : List Nat} (hdistinct : distinct.Nodup)
    (hne : distinct ≠ []) :
    room.tracksAvailable distinct (room.tracksUsedOf distinct) ≠ [] ∧
      ∀ track ∈ room.tracksAvailable distinct (room.tracksUsedOf distinct),
        track ∈ distinct ∧ track ∉ room.tracksUsedOf distinct ∧
          (2 ≤ distinct.length → ∀ last ∈ room.randomTracksUsed, room.lastRandomTrack = some last → track ≠ last) := by
  generalize hused : room.tracksUsedOf distinct = used
  have hunusedNodup : (distinct.filter (fun track => track ∉ used)).Nodup := hdistinct.filter _
  have hmem : ∀ track ∈ distinct.filter (fun track => track ∉ used), track ∈ distinct ∧ track ∉ used := by
    intro track htrack
    simpa using mem_filter.1 htrack
  have hunusedNe : distinct.filter (fun track => track ∉ used) ≠ [] := by
    obtain ⟨x, hx, hnot⟩ := Rotation.exists_notMem_counted (room.trackHistory.used.filter (fun track => track ∈ distinct))
      hdistinct hne
    rw [← tracksUsedOf_eq, hused] at hnot
    intro hnil
    have hin : x ∈ distinct.filter (fun track => track ∉ used) := mem_filter.2 ⟨hx, by simpa using hnot⟩
    rw [hnil] at hin
    exact absurd hin (by simp)
  unfold tracksAvailable
  generalize hunused : distinct.filter (fun track => track ∉ used) = unused at *
  rcases hlast : room.lastRandomTrack with _ | last
  · simp only [if_neg hunusedNe]
    refine ⟨hunusedNe, fun track htrack => ⟨(hmem track htrack).1, (hmem track htrack).2, ?_⟩⟩
    intro _ _ _ hnone
    exact absurd hnone (by simp)
  · by_cases hmany : 1 < unused.length
    · have hleft : unused.filter (fun track => track ≠ last) ≠ [] := by
        intro hnil
        have hsub : unused ⊆ [last] := by
          intro x hx
          have hall := filter_eq_nil_iff.1 hnil x hx
          simpa using hall
        have hlength := (subperm_of_subset hunusedNodup hsub).length_le
        rw [length_singleton] at hlength
        omega
      simp only [if_pos hmany, if_neg hleft]
      refine ⟨hleft, ?_⟩
      intro track htrack
      obtain ⟨hin, hother⟩ := mem_filter.1 htrack
      refine ⟨(hmem track hin).1, (hmem track hin).2, ?_⟩
      intro _ last' _ hsame
      obtain rfl := Option.some.inj hsame
      simpa using hother
    · simp only [if_neg hmany, if_neg hunusedNe]
      refine ⟨hunusedNe, ?_⟩
      intro track htrack
      refine ⟨(hmem track htrack).1, (hmem track htrack).2, ?_⟩
      rintro htwo last' hlastUsed hsame rfl
      -- the last track counts as used, unless the draws just started over and all candidates are there
      have hcounted : track ∈ room.trackHistory.used.filter (fun t => t ∈ distinct) :=
        mem_filter.2 ⟨hlastUsed, by simpa using (hmem track htrack).1⟩
      rw [tracksUsedOf_eq, Rotation.counted] at hused
      by_cases hfull : distinct.length ≤ (room.trackHistory.used.filter (fun t => t ∈ distinct)).length
      · rw [if_pos hfull] at hused
        subst hused
        have hall : unused = distinct := by
          rw [← hunused]
          simp
        rw [hall] at hmany
        omega
      · rw [if_neg hfull] at hused
        exact (hmem track htrack).2 (hused ▸ hcounted)

/-- A drawn track, and the room that remembers it. -/
def drawn (room : ProtocolRoomState) (distinct : List Nat) (draw : Nat) : Nat × ProtocolRoomState :=
  let available := room.tracksAvailable distinct (room.tracksUsedOf distinct)
  let selected := available.getD (draw % available.length) 0
  (selected, { room with randomTracksUsed := room.tracksUsedOf distinct ++ [selected], lastRandomTrack := some selected })

theorem selectConcreteTrack_random (hrandom : isRandomTrackSelector room.settings.track = true)
    (hne : concreteCandidates candidates ≠ []) :
    room.selectConcreteTrack candidates draw =
      .ok ((room.enterTrackPool (trackPool room.settings.gameType room.settings.track)).drawn (concreteCandidates candidates)
        draw) := by
  unfold selectConcreteTrack
  rw [hrandom, if_neg (by simp)]
  simp only [if_neg hne]
  rfl

theorem drawn_spec (room : ProtocolRoomState) {distinct : List Nat} (draw : Nat) (hdistinct : distinct.Nodup)
    (hne : distinct ≠ []) :
    (room.drawn distinct draw).1 ∈ room.tracksAvailable distinct (room.tracksUsedOf distinct) := by
  have hindex : draw % (room.tracksAvailable distinct (room.tracksUsedOf distinct)).length <
      (room.tracksAvailable distinct (room.tracksUsedOf distinct)).length :=
    Nat.mod_lt _ (length_pos_iff.2 (room.tracksAvailable_spec hdistinct hne).1)
  simp only [drawn, getD_eq_getElem?_getD, getElem?_eq_getElem hindex, Option.getD_some]
  exact getElem_mem hindex

/-- A selection follows the history of the room. -/
theorem of_selectConcreteTrack (h : room.selectConcreteTrack candidates draw = .ok (track, next)) :
    next.settings = room.settings ∧
      (TrackChoice.mk room.settings.track candidates track).Follows room.settings.gameType room.trackHistory
        next.trackHistory := by
  unfold TrackChoice.Follows
  by_cases hrandom : isRandomTrackSelector room.settings.track = true
  · by_cases hnone : concreteCandidates candidates = []
    · unfold selectConcreteTrack at h
      rw [hrandom, if_neg (by simp)] at h
      simp only [if_pos hnone] at h
      exact absurd h (by simp)
    · rw [selectConcreteTrack_random hrandom hnone] at h
      have hhistory := trackHistory_enterTrackPool room (trackPool room.settings.gameType room.settings.track)
      have hsettings := settings_enterTrackPool room (trackPool room.settings.gameType room.settings.track)
      simp only [if_pos hrandom]
      generalize trackPool room.settings.gameType room.settings.track = pool at *
      generalize room.enterTrackPool pool = entered at *
      have hcounted : entered.tracksUsedOf (concreteCandidates candidates) =
          room.trackHistory.counted pool (concreteCandidates candidates) := by
        rw [tracksUsedOf_eq, hhistory]
        rfl
      have hpool : entered.randomTrackPool = some pool := by
        have heq := congrArg TrackHistory.pool hhistory
        unfold TrackHistory.entered at heq
        by_cases hsame : room.trackHistory.pool = some pool
        · rw [if_pos hsame] at heq
          exact heq.trans hsame
        · rw [if_neg hsame] at heq
          exact heq
      obtain ⟨htrack, hnext⟩ := Prod.mk.inj (Except.ok.inj h)
      have hin := entered.drawn_spec draw (nodup_concreteCandidates candidates) hnone
      rw [show (entered.drawn (concreteCandidates candidates) draw).1 = track from htrack] at hin
      obtain ⟨hmem, hnot, hfresh⟩ := (entered.tracksAvailable_spec (nodup_concreteCandidates candidates) hnone).2 track hin
      refine ⟨by rw [← hnext]; exact hsettings, hmem, hcounted ▸ hnot, ?_, ?_⟩
      · intro htwo last hlast hsame
        rw [← hhistory] at hlast hsame
        exact hfresh htwo last hlast hsame
      · rw [← hnext, ← htrack, ← hcounted, ← hpool]
        rfl
  · unfold selectConcreteTrack at h
    rw [if_pos (by simpa using hrandom)] at h
    obtain ⟨htrack, hnext⟩ := Prod.mk.inj (Except.ok.inj h)
    simp only [if_neg hrandom]
    refine ⟨by rw [← hnext], htrack.symm, ?_⟩
    rw [← hnext]
    rfl

end ProtocolRoomState

/-! ## Starts -/

namespace World

/-- The candidates of a start. -/
def startCandidates (room : ProtocolRoomState) (plan : StartRoomPlan) : List Nat :=
  let catalog := match plan.randomTracks with
    | some randomTracks => randomTracks room.settings.gameType room.settings.track (room.aiCount ≠ 0)
    | none => []
  if catalog = [] then plan.randomTrackCandidates else catalog

/-- The game type of a room and its history. -/
def trackView (w : World) (roomId : RoomId) : Option (Nat × TrackHistory) :=
  (w.protocolRooms.lookup roomId).map (fun room => (room.settings.gameType, room.trackHistory))

variable {w w' : World} {roomId : RoomId} {session : SessionId} {identity : IdentityBinding} {plan : StartRoomPlan} {draw : Nat}

/-- A start that succeeds selects the track of the room it is of. -/
theorem of_startRoom {epoch track racers observers : Nat}
    (h : startRoom identity plan draw w = (.ok (.started roomId epoch track racers observers), w')) :
    ∃ room next frozen, w.protocolRooms.lookup roomId = some room ∧
      room.selectConcreteTrack (startCandidates room plan) draw = .ok (track, next) ∧
      w'.protocolRooms = w.protocolRooms.insert roomId (startedRoom next frozen) := by
  unfold startRoom at h
  obtain ⟨_, _, hget, hrest⟩ := bind_eq_ok.1 h
  obtain ⟨rfl, rfl⟩ := get_eq_ok.1 hget
  obtain ⟨_, _, hrequire, hrest⟩ := bind_eq_ok.1 hrest
  obtain ⟨-, rfl⟩ := require_eq_ok.1 hrequire
  obtain ⟨roomId', _, hroomId, hrest⟩ := bind_eq_ok.1 hrest
  obtain ⟨-, rfl⟩ := reads_eq_ok.1 hroomId
  obtain ⟨room, _, hroom, hrest⟩ := bind_eq_ok.1 hrest
  obtain ⟨hfound, rfl⟩ := reads_eq_ok.1 hroom
  obtain ⟨requester, w₁, hmaster, hrest⟩ := bind_eq_ok.1 hrest
  rw [(readOnly_requireLobbyMaster room identity.userNo).eq_of hmaster] at hrest
  obtain ⟨_, w₂, hspecs, hrest⟩ := bind_eq_ok.1 hrest
  rw [(readOnly_require _ _).eq_of hspecs] at hrest
  obtain ⟨racerCount, w₃, hracers, hrest⟩ := bind_eq_ok.1 hrest
  rw [(readOnly_ofExcept _).eq_of hracers] at hrest
  obtain ⟨raceEpoch, w₄, hepoch, hrest⟩ := bind_eq_ok.1 hrest
  rw [(readOnly_orFail _ _).eq_of hepoch] at hrest
  obtain ⟨selected, w₅, hselected, hrest⟩ := bind_eq_ok.1 hrest
  rw [(readOnly_ofExcept _).eq_of hselected] at hrest
  obtain ⟨frozen, w₆, hfrozen, hrest⟩ := bind_eq_ok.1 hrest
  rw [(readOnly_ofExcept _).eq_of hfrozen] at hrest
  obtain ⟨deliveries, w₇, hdeliveries, hrest⟩ := bind_eq_ok.1 hrest
  rw [(readOnly_ofExcept _).eq_of hdeliveries] at hrest
  obtain ⟨_, w₈, hreserve, hrest⟩ := bind_eq_ok.1 hrest
  rw [(readOnly_reserveOutbound deliveries).eq_of hreserve] at hrest
  obtain ⟨_, w₉, hmodify, hrest⟩ := bind_eq_ok.1 hrest
  rw [modify_eq_ok.1 hmodify] at hrest
  obtain ⟨_, _, hpublish, hrest⟩ := bind_eq_ok.1 hrest
  obtain rfl := modify_eq_ok.1 hpublish
  obtain ⟨heq, rfl⟩ := pure_eq_ok.1 hrest
  simp only [LobbyCommandOutcome.started.injEq] at heq
  obtain ⟨rfl, -, rfl, -, -⟩ := heq
  refine ⟨room, selected.2, frozen, Checks.orElse_eq_ok.1 hfound, ?_, rfl⟩
  have hselect := (ofExcept_eq_ok.1 hselected).1
  unfold selectStartTrack at hselect
  change (room.selectConcreteTrack (startCandidates room plan) draw).mapError Fault.error = _ at hselect
  rcases hresult : room.selectConcreteTrack (startCandidates room plan) draw with error | result
  · rw [hresult] at hselect
    exact absurd hselect (by simp [Checks.mapError_error])
  · rw [hresult] at hselect
    obtain rfl := Except.ok.inj hselect
    rfl

/-- `lobby_command` with a start succeeds as the start does. -/
theorem of_startCommand {outcome : LobbyCommandOutcome} (h : startCommand session identity plan draw w = (.ok outcome, w')) :
    startRoom identity plan draw w = (.ok outcome, w') := by
  rcases recover_eq_ok.1 h with hok | ⟨error, w₁, -, hhandler⟩
  · exact hok
  · exfalso
    split at hhandler
    · exact fail_eq_ok.1 hhandler
    · obtain ⟨_, w₂, -, hfail⟩ := bind_eq_ok.1 hhandler
      exact fail_eq_ok.1 hfail
    · exact fail_eq_ok.1 hhandler

/-- The rooms are the same. -/
def SameRooms (w w' : World) : Prop := w'.protocolRooms = w.protocolRooms

theorem SameRooms.refl (w : World) : SameRooms w w := rfl

theorem SameRooms.trans (w w' w'' : World) (h : SameRooms w w') (h' : SameRooms w' w'') : SameRooms w w'' := Eq.trans h' h

/-- A rejected start leaves the rooms. -/
theorem leads_rejection (session : SessionId) (e : Fault LobbyError) :
    Leads SameRooms (do
      publishStartRejection session
      fail e : LobbyAct LobbyCommandOutcome) := by
  refine Leads.bind SameRooms.trans ?_ (fun _ => (readOnly_fail e).leads SameRooms.refl)
  refine Leads.bind SameRooms.trans ((readOnly_reserveOutbound _).leads SameRooms.refl) (fun _ => ?_)
  exact leads_modify (fun _ => rfl)

/-- A start that fails leaves every room as it was. -/
theorem sameRooms_of_startCommand {error : Fault LobbyError}
    (h : startCommand session identity plan draw w = (.error error, w')) : SameRooms w w' := by
  unfold startCommand recover at h
  rcases hstart : startRoom identity plan draw w with ⟨result, w₁⟩
  rw [hstart] at h
  rcases result with failure | outcome
  · obtain rfl := atomic_startRoom identity plan draw w failure w₁ hstart
    simp only [] at h
    split at h
    · obtain rfl := (Prod.mk.inj h).2
      exact SameRooms.refl _
    · have hleads := leads_rejection session (.error ‹LobbyError›) w₁
      rw [h] at hleads
      exact hleads
    · obtain rfl := (Prod.mk.inj h).2
      exact SameRooms.refl _
  · exact absurd (Prod.mk.inj h).1 (by simp)

/-- A start that succeeds follows the history of its room. -/
theorem follows_of_startCommand {room : ProtocolRoomState} {epoch track racers observers : Nat}
    (hroom : w.protocolRooms.lookup roomId = some room)
    (h : startCommand session identity plan draw w = (.ok (.started roomId epoch track racers observers), w')) :
    ∃ next, (TrackChoice.mk room.settings.track (startCandidates room plan) track).Follows room.settings.gameType
        room.trackHistory next ∧ w'.trackView roomId = some (room.settings.gameType, next) := by
  obtain ⟨room', next, frozen, hlookup, hselect, hrooms⟩ := of_startRoom (of_startCommand h)
  obtain rfl := Option.some.inj (hlookup.symm.trans hroom)
  obtain ⟨hsettings, hfollows⟩ := ProtocolRoomState.of_selectConcreteTrack hselect
  refine ⟨next.trackHistory, hfollows, ?_⟩
  rw [trackView, hrooms, AList.lookup_insert]
  simp only [Option.map_some, startedRoom, hsettings]
  rfl

/-- A run of the world, as a room sees it: its starts that succeed, starts that fail, and anything else, which changes neither
the game type of the room nor its history. -/
inductive TrackRun (roomId : RoomId) : World → List TrackChoice → World → Prop where
  | refl (w : World) : TrackRun roomId w [] w
  | between {w w' w'' : World} {choices : List TrackChoice} : w'.trackView roomId = w.trackView roomId →
      TrackRun roomId w' choices w'' → TrackRun roomId w choices w''
  | failed {w w' w'' : World} {choices : List TrackChoice} {session : SessionId} {identity : IdentityBinding}
      {plan : StartRoomPlan} {draw : Nat} {error : Fault LobbyError} : startCommand session identity plan draw w = (.error error, w') →
      TrackRun roomId w' choices w'' → TrackRun roomId w choices w''
  | started {w w' w'' : World} {choices : List TrackChoice} {session : SessionId} {identity : IdentityBinding}
      {plan : StartRoomPlan} {draw : Nat} {room : ProtocolRoomState} {epoch track racers observers : Nat} :
      w.protocolRooms.lookup roomId = some room →
      startCommand session identity plan draw w = (.ok (.started roomId epoch track racers observers), w') →
      TrackRun roomId w' choices w'' →
      TrackRun roomId w (⟨room.settings.track, startCandidates room plan, track⟩ :: choices) w''

/-- What a room sees of a run is a run of its history. -/
theorem TrackRun.choices {choices : List TrackChoice} {gameType : Nat} {h : TrackHistory} (hrun : TrackRun roomId w choices w')
    (hview : w.trackView roomId = some (gameType, h)) :
    ∃ last, w'.trackView roomId = some (gameType, last) ∧ ChoiceRun gameType h choices last := by
  induction hrun generalizing h with
  | refl w => exact ⟨h, hview, .nil h⟩
  | between hsame _ ih => exact ih (hsame.trans hview)
  | failed hfailed _ ih =>
    have hrooms : _ = _ := sameRooms_of_startCommand hfailed
    refine ih ?_
    rw [trackView, hrooms]
    exact hview
  | started hroom hstarted _ ih =>
    obtain ⟨next, hfollows, hnext⟩ := follows_of_startCommand hroom hstarted
    rw [trackView, hroom] at hview
    obtain ⟨rfl, rfl⟩ := Prod.mk.inj (Option.some.inj hview)
    obtain ⟨last, hlast, hrest⟩ := ih hnext
    exact ⟨last, hlast, .cons hfollows hrest⟩

/-- In every run of a room, the tracks that steady starts choose continue the cycles of its history: each is an arrangement of
the candidates, and no track comes twice in a row when there are two. Whatever the candidates, a start chooses one of the concrete
ones, the used tracks are apart and among them, a track is always left to draw, and a start that fails leaves the history. -/
theorem tracks_rotate {w₀ : World} {done choices : List TrackChoice} {gameType : Nat}
    (hnew : w₀.trackView roomId = some (gameType, .fresh)) (hdone : TrackRun roomId w₀ done w)
    (hrun : TrackRun roomId w choices w') :
    ∃ h h', w.trackView roomId = some (gameType, h) ∧ w'.trackView roomId = some (gameType, h') ∧
      (∀ selector distinct, isRandomTrackSelector selector = true → ChoiceRun.Steady selector distinct choices →
        (∃ cycles rest : List _, h.kept (trackPool gameType selector) distinct ++ choices.map (·.track) =
            flatten cycles ++ rest ∧
          (∀ cycle ∈ cycles, cycle.Perm distinct) ∧ rest.Nodup ∧ rest ⊆ distinct) ∧
        (h.pool ≠ some (trackPool gameType selector) → h.kept (trackPool gameType selector) distinct = []) ∧
        (2 ≤ distinct.length → (choices.map (·.track)).IsChain (· ≠ ·))) ∧
      (∀ choice ∈ choices, isRandomTrackSelector choice.selector = true →
        choice.track ∈ choice.candidates ∧ isRandomTrackSelector choice.track = false) ∧
      h'.used.Nodup ∧
      (∀ front choice, choices = front ++ [choice] → isRandomTrackSelector choice.selector = true →
        h'.used ⊆ concreteCandidates choice.candidates) ∧
      (∀ room candidates, concreteCandidates candidates ≠ [] →
        ProtocolRoomState.tracksAvailable room (concreteCandidates candidates)
          (room.tracksUsedOf (concreteCandidates candidates)) ≠ []) ∧
      ∀ session identity plan draw error w'', startCommand session identity plan draw w' = (.error error, w'') →
        w''.trackView roomId = some (gameType, h') := by
  obtain ⟨h, hview, hbefore⟩ := hdone.choices hnew
  obtain ⟨h', hview', hchoices⟩ := hrun.choices hview
  have hused : h.used.Nodup := (hbefore.used nodup_nil).1
  obtain ⟨hused', hwithin⟩ := hchoices.used hused
  refine ⟨h, h', hview, hview', ?_, ?_, hused', hwithin, ?_, ?_⟩
  · intro selector distinct hrandom hsteady
    refine ⟨?_, TrackHistory.kept_eq_nil, hchoices.chain hrandom hsteady⟩
    obtain ⟨cycles, hsplit, hcycles, hrest, hsub⟩ := (hchoices.draws hrandom hsteady).cycles (TrackHistory.nodup_kept hused)
      (h.kept_subset _ _)
    exact ⟨cycles, _, hsplit, hcycles, hrest, hsub⟩
  · intro choice hchoice hrandom
    exact mem_concreteCandidates.1 (hchoices.track_mem hchoice hrandom)
  · intro room candidates hne
    exact (room.tracksAvailable_spec (nodup_concreteCandidates candidates) hne).1
  · intro session identity plan draw error w'' hfailed
    have hrooms : _ = _ := sameRooms_of_startCommand hfailed
    rw [trackView, hrooms]
    exact hview'

namespace TracksAux

/-- A start with two candidates. -/
def start : LobbyAct LobbyCommandOutcome := startCommand ⟨1⟩ loneIdentity ⟨[500, 501], none, 0, 4096⟩ 0

/-- The race is over, and the room in its lobby again. -/
def ended (w : World) : World :=
  match w.protocolRooms.lookup ⟨1⟩ with
  | some room => { w with
      rewardLanes := ∅
      protocolRooms := w.protocolRooms.insert ⟨1⟩ { room with phase := .lobby, raceFence := none, frozenRace := none } }
  | none => w

def second : World := ended (start loneWorld).2

def third : World := ended (start second).2

theorem concreteCandidates_two : concreteCandidates [500, 501] = [500, 501] := by
  unfold concreteCandidates
  rw [mergeSort_of_pairwise (by decide)]
  rfl

theorem started :
    (start loneWorld).1 = .ok (.started ⟨1⟩ 1 500 1 0) ∧ (start second).1 = .ok (.started ⟨1⟩ 2 501 1 0) ∧
      (start third).1 = .ok (.started ⟨1⟩ 3 500 1 0) ∧
      second.trackView ⟨1⟩ = (start loneWorld).2.trackView ⟨1⟩ ∧ third.trackView ⟨1⟩ = (start second).2.trackView ⟨1⟩ ∧
      ((second.protocolRooms.lookup ⟨1⟩).map fun room => room.settings.track) = some 0 ∧
      ((third.protocolRooms.lookup ⟨1⟩).map fun room => room.settings.track) = some 0 := by
  unfold third second start startCommand startRoom selectStartTrack ProtocolRoomState.selectConcreteTrack
  simp only [↓reduceIte, concreteCandidates_two]
  decide +kernel

end TracksAux

open TracksAux in
/-- A room starts three races with two candidates, the last one in a new cycle. -/
theorem tracks_rotate_first :
    (start loneWorld).1 = .ok (.started ⟨1⟩ 1 500 1 0) ∧ (start second).1 = .ok (.started ⟨1⟩ 2 501 1 0) ∧
      (start third).1 = .ok (.started ⟨1⟩ 3 500 1 0) ∧
      ∃ cycles rest : List _, [500, 501, 500] = flatten cycles ++ rest ∧ (∀ cycle ∈ cycles, cycle.Perm [500, 501]) ∧
        rest.Nodup ∧ rest ⊆ [500, 501] := by
  obtain ⟨hfirst, hsecond, hthird, hview, hview', htrack, htrack'⟩ := started
  obtain ⟨room, hroom, hzero⟩ := Option.map_eq_some_iff.1 htrack
  obtain ⟨room', hroom', hzero'⟩ := Option.map_eq_some_iff.1 htrack'
  have hrun : TrackRun ⟨1⟩ loneWorld _ (start third).2 :=
    .started (show loneWorld.protocolRooms.lookup ⟨1⟩ = some loneRoom from rfl) (Prod.ext hfirst rfl)
      (.between hview (.started hroom (Prod.ext hsecond rfl) (.between hview' (.started hroom' (Prod.ext hthird rfl) (.refl _)))))
  rw [hzero, hzero'] at hrun
  obtain ⟨h, -, hfresh, -, hrotates, -⟩ := tracks_rotate
    (show loneWorld.trackView ⟨1⟩ = some (1, .fresh) from rfl) (.refl loneWorld) hrun
  obtain rfl : TrackHistory.fresh = h := (Prod.mk.inj (Option.some.inj hfresh)).2
  obtain ⟨⟨cycles, rest, hsplit, hrest⟩, hnew, -⟩ := hrotates 0 [500, 501] rfl fun choice hchoice => by
    simp only [mem_cons, not_mem_nil, or_false] at hchoice
    rcases hchoice with rfl | rfl | rfl <;> exact ⟨rfl, concreteCandidates_two⟩
  rw [hnew (by decide)] at hsplit
  exact ⟨hfirst, hsecond, hthird, cycles, rest, hsplit, hrest⟩

end World

end P5136
