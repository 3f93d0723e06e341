import P5136.World.Runs

/-!
# The law of the loading handshake

How a race comes to run, in every run of the world: it is armed by a participant, its start is scheduled by a heartbeat that finds
everyone ready who is still there or the deadline passed, and a later heartbeat takes the start. Every race has its own epoch, so
nothing of an earlier race counts for it.
-/

namespace P5136

namespace Course

variable {c c' : Course}

/-- What is not the loading of a race keeps its handshake, or ends the race. -/
theorem Quiet.handshake (h : Quiet c c') :
    c'.handshake = .dormant ∧ c'.fence = none ∧ c'.field = none ∨
      c'.handshake = c.handshake ∧ c'.fence = c.fence ∧ c'.field = c.field := by
  cases h with
  | finalized _ => exact .inl ⟨rfl, rfl, rfl⟩
  | _ => exact .inr ⟨rfl, rfl, rfl⟩

/-- A race that loads goes on loading. -/
theorem Quiet.loading (h : Quiet c c') (hsound : c.Sound) (hphase : c.phase = .loading) :
    c'.phase = .loading ∧ c'.field = c.field := by
  have hopen : c.outcome = .none := by
    by_contra hne
    have hsettling := hsound.settling hne
    rw [hphase] at hsettling
    exact absurd hsettling (by simp)
  cases h with
  | finalized hclosed =>
    rw [hopen] at hclosed
    exact absurd hclosed (by simp)
  | finishedFirst _ _ hrun =>
    rw [hphase] at hrun
    exact absurd hrun (by simp)
  | abandoned hrun =>
    rw [hphase] at hrun
    exact absurd hrun (by simp)
  | _ => exact ⟨hphase, rfl⟩

/-- A room in its lobby stays there. -/
theorem Quiet.lobby (h : Quiet c c') (hphase : c.phase = .lobby) : c'.phase = .lobby := by
  cases h with
  | finalized _ => rfl
  | finishedFirst _ _ hrun =>
    rw [hphase] at hrun
    exact absurd hrun (by simp)
  | abandoned hrun =>
    rw [hphase] at hrun
    exact absurd hrun (by simp)
  | _ => exact hphase

end Course

/-- Turns leave a room in its lobby, or take it away. -/
theorem goes_lobby {o o' : Option Course} (h : Goes o o') (ho : ∀ c, o = some c → c.phase = .lobby) :
    ∀ c, o' = some c → c.phase = .lobby := by
  induction h with
  | refl => exact ho
  | tail _ hturn ih =>
    cases hturn with
    | opened gameType =>
      rintro c ⟨⟩
      rfl
    | removed c =>
      rintro c ⟨⟩
    | quiet hquiet =>
      rintro c ⟨⟩
      exact hquiet.lobby (ih _ rfl)

/-- Turns leave a race that loads loading, or its room is removed. -/
theorem goes_loading {c : Course} {o' : Option Course} (h : Goes (some c) o') (hsound : c.Sound) (hphase : c.phase = .loading) :
    (∃ c', o' = some c' ∧ c'.Sound ∧ c'.phase = .loading ∧ c'.field = c.field) ∨ Goes none o' := by
  induction h with
  | refl => exact .inl ⟨c, rfl, hsound, hphase, rfl⟩
  | tail _ hturn ih =>
    rcases ih with ⟨c₁, hc₁, hsound₁, hphase₁, hfield₁⟩ | hnone
    · subst hc₁
      cases hturn with
      | removed _ => exact .inr .refl
      | quiet hquiet =>
        obtain ⟨hphase', hfield'⟩ := hquiet.loading hsound₁ hphase₁
        exact .inl ⟨_, rfl, hsound₁.quiet hquiet, hphase', hfield'.trans hfield₁⟩
    · exact .inr (hnone.tail hturn)

namespace World

/-! ## What a run says of the handshake of a race -/

/-- A participant armed the handshake of a race. -/
def ArmedIn (U : Unicode) (past : List Moment) (i : RoomId) (field : RaceField) (deadline : Instant) : Prop :=
  ∃ moment ∈ past, ∃ c identity, moment.1.course i = some c ∧ c.phase = .loading ∧ c.field = some field ∧
    c.handshake = .dormant ∧ identity ∈ field.entrants.map (·.identity) ∧ moment.2.Arms U moment.1 i identity deadline

/-- A participant of a race got ready, under its exact identity and for the epoch of the race, after the handshake was armed. -/
def MarkedIn (past : List Moment) (i : RoomId) (field : RaceField) (deadline : Instant) (stamp : FrozenParticipantStamp) : Prop :=
  ∃ moment ∈ past, ∃ c identity expected ready, moment.1.course i = some c ∧ c.phase = .loading ∧ c.field = some field ∧
    c.handshake = .awaiting expected ready deadline ∧ identity ∈ field.entrants.map (·.identity) ∧
    FrozenParticipantStamp.of identity = stamp ∧ moment.1.identities.activeIdentityByUserNo identity.userNo = some identity ∧
    moment.2.candidate moment.1 = some ⟨i, field.fence.raceEpoch, stamp⟩

/-- A heartbeat found that a participant of a race, awaited since the handshake was armed, was not exactly active in its room. -/
def MissedIn (past : List Moment) (i : RoomId) (field : RaceField) (deadline : Instant) (stamp : FrozenParticipantStamp) : Prop :=
  ∃ moment ∈ past, ∃ c expected ready now, moment.1.course i = some c ∧ c.phase = .loading ∧ c.field = some field ∧
    c.handshake = .awaiting expected ready deadline ∧ moment.2.beatsAt = some now ∧ stamp ∈ expected ∧
    stamp ∉ moment.1.presentStamps i field

/-- A race awaits participants: it was armed by one, all participants are awaited but those that a heartbeat missed since, and who is
ready was marked. -/
structure AwaitedIn (U : Unicode) (past : List Moment) (i : RoomId) (field : RaceField)
    (expected ready : Finset FrozenParticipantStamp) (deadline : Instant) : Prop where
  armed : ArmedIn U past i field deadline
  participants : expected ⊆ field.stamps
  missed : ∀ stamp ∈ field.stamps, stamp ∉ expected → MissedIn past i field deadline stamp
  marked : ∀ stamp ∈ ready, MarkedIn past i field deadline stamp

/-- A heartbeat scheduled the start of a race for an instant: everyone awaited who was still exactly active was ready, or the
deadline had passed. -/
def ScheduledAt (U : Unicode) (before : List Moment) (moment : Moment) (i : RoomId) (field : RaceField) (instant : Instant) : Prop :=
  ∃ c expected ready deadline now, moment.2.beatsAt = some now ∧ moment.1.course i = some c ∧ c.phase = .loading ∧
    c.field = some field ∧ c.handshake = .awaiting expected ready deadline ∧ AwaitedIn U before i field expected ready deadline ∧
    ((∀ stamp ∈ expected, stamp ∈ moment.1.presentStamps i field → stamp ∈ ready) ∨ deadline ≤ now) ∧
    Instant.checkedAdd now raceStartDelay = some instant

/-- The start of a race was scheduled. -/
def ScheduledIn (U : Unicode) (past : List Moment) (i : RoomId) (field : RaceField) (instant : Instant) : Prop :=
  ∃ before moment later, past = before ++ moment :: later ∧ ScheduledAt U before moment i field instant

/-- The handshake of a room is what a run says of it. -/
structure Told (U : Unicode) (past : List Moment) (i : RoomId) (c : Course) : Prop where
  awaiting : ∀ expected ready deadline, c.handshake = .awaiting expected ready deadline →
    ∃ field, c.field = some field ∧ AwaitedIn U past i field expected ready deadline
  scheduled : ∀ instant, c.handshake = .startScheduled instant → ∃ field, c.field = some field ∧ ScheduledIn U past i field instant

section Told

variable {U : Unicode} {past : List Moment} {i : RoomId} {c c' : Course} {field : RaceField}

theorem AwaitedIn.later {expected ready : Finset FrozenParticipantStamp} {deadline : Instant}
    (h : AwaitedIn U past i field expected ready deadline) (more : List Moment) :
    AwaitedIn U (past ++ more) i field expected ready deadline where
  armed := by
    obtain ⟨moment, hmem, hrest⟩ := h.armed
    exact ⟨moment, List.mem_append_left _ hmem, hrest⟩
  participants := h.participants
  missed := by
    intro stamp hstamp hnot
    obtain ⟨moment, hmem, hrest⟩ := h.missed stamp hstamp hnot
    exact ⟨moment, List.mem_append_left _ hmem, hrest⟩
  marked := by
    intro stamp hstamp
    obtain ⟨moment, hmem, hrest⟩ := h.marked stamp hstamp
    exact ⟨moment, List.mem_append_left _ hmem, hrest⟩

theorem Told.later (h : Told U past i c) (more : List Moment) : Told U (past ++ more) i c where
  awaiting := by
    intro expected ready deadline hhandshake
    obtain ⟨field, hfield, hawaited⟩ := h.awaiting expected ready deadline hhandshake
    exact ⟨field, hfield, hawaited.later more⟩
  scheduled := by
    intro instant hhandshake
    obtain ⟨field, hfield, before, moment, later, rfl, hscheduled⟩ := h.scheduled instant hhandshake
    exact ⟨field, hfield, before, moment, later ++ more, by simp, hscheduled⟩

/-- Nothing is said of a dormant handshake. -/
theorem told_dormant (h : c.handshake = .dormant) : Told U past i c where
  awaiting := by
    intro expected ready deadline hhandshake
    rw [h] at hhandshake
    exact absurd hhandshake (by simp)
  scheduled := by
    intro instant hhandshake
    rw [h] at hhandshake
    exact absurd hhandshake (by simp)

/-- The same handshake of the same race. -/
theorem Told.same (h : Told U past i c) (hhandshake : c'.handshake = c.handshake) (hfield : c'.field = c.field) :
    Told U past i c' where
  awaiting := by
    intro expected ready deadline hawaiting
    rw [hfield]
    exact h.awaiting expected ready deadline (hhandshake ▸ hawaiting)
  scheduled := by
    intro instant hscheduled
    rw [hfield]
    exact h.scheduled instant (hhandshake ▸ hscheduled)

theorem told_goes {o o' : Option Course} (h : Goes o o') (ho : ∀ c, o = some c → Told U past i c) :
    ∀ c, o' = some c → Told U past i c := by
  induction h with
  | refl => exact ho
  | tail _ hturn ih =>
    cases hturn with
    | opened gameType =>
      rintro c ⟨⟩
      exact told_dormant rfl
    | removed c =>
      rintro c ⟨⟩
    | quiet hquiet =>
      rintro c ⟨⟩
      rcases hquiet.handshake with ⟨hdormant, -, -⟩ | ⟨hhandshake, -, hfield⟩
      · exact told_dormant hdormant
      · exact (ih _ rfl).same hhandshake hfield

variable {w w' : World} {command : Command}

/-- An event of the loading is told of by the moment at which it takes place. -/
theorem Told.loads {event : Course.LoadingEvent} (h : Told U past i c) (hcourse : w.course i = some c)
    (hloads : Course.Loads event c c') (hcauses : command.Causes U w w' i event) : Told U (past ++ [(w, command)]) i c' := by
  have hmoment : (w, command) ∈ past ++ [(w, command)] := List.mem_append_right _ (List.mem_singleton_self _)
  cases hloads with
  | started _ _ => exact told_dormant rfl
  | @armed _ field identity deadline hphase hfield hidentity hdormant =>
    refine ⟨?_, ?_⟩
    · rintro expected ready deadline' ⟨⟩
      refine ⟨field, hfield, ⟨(w, command), hmoment, c, identity, hcourse, hphase, hfield, hdormant, hidentity, hcauses.1⟩,
        Finset.Subset.refl _, fun stamp hstamp hnot => absurd hstamp hnot, ?_⟩
      intro stamp hstamp
      exact absurd hstamp (Finset.notMem_empty stamp)
    · rintro instant ⟨⟩
  | @marked _ field identity epoch expected ready deadline hphase hfield _ hepoch hidentity hhandshake _ =>
    refine ⟨?_, ?_⟩
    · rintro expected' ready' deadline' ⟨⟩
      obtain ⟨field', hfield', hawaited⟩ := h.awaiting expected ready deadline hhandshake
      obtain rfl := Option.some.inj (hfield.symm.trans hfield')
      have hlater := hawaited.later [(w, command)]
      refine ⟨field, hfield, hlater.armed, hlater.participants, hlater.missed, ?_⟩
      intro stamp hstamp
      rcases Finset.mem_insert.1 hstamp with rfl | hold
      · subst hepoch
        exact ⟨(w, command), hmoment, c, identity, expected, ready, hcourse, hphase, hfield, hhandshake, hidentity, rfl,
          hcauses.1, hcauses.2.1⟩
      · exact hlater.marked stamp hold
    · rintro instant ⟨⟩
  | checked _ => exact hcauses.elim
  | began _ _ => exact hcauses.elim
  | aborted _ => exact hcauses.elim

/-- Everyone who is awaited and there is ready when as many are. -/
theorem ready_of_card {expected ready active : Finset FrozenParticipantStamp}
    (h : (ready ∩ (expected ∩ active)).card = (expected ∩ active).card) :
    ∀ stamp ∈ expected, stamp ∈ active → stamp ∈ ready := by
  intro stamp hexpected hactive
  have hsub : ready ∩ (expected ∩ active) ⊆ expected ∩ active := Finset.inter_subset_right
  have hsame := Finset.eq_of_subset_of_card_le hsub h.ge
  have hmem : stamp ∈ ready ∩ (expected ∩ active) := by
    rw [hsame]
    exact Finset.mem_inter.2 ⟨hexpected, hactive⟩
  exact (Finset.mem_inter.1 hmem).1

/-- A heartbeat is told of by the moment at which it takes place. -/
theorem Told.beats {now : Instant} (h : Told U past i c) (hcourse : w.course i = some c) (hphase : c.phase = .loading)
    (hfield : c.field = some field) (hbeats : command.beatsAt = some now)
    (hbeat : Beat (w.presentStamps i field) (w.RacerPresent i field) now c c') : Told U (past ++ [(w, command)]) i c' := by
  cases hbeat with
  | aborted _ => exact told_dormant rfl
  | began _ _ => exact told_dormant rfl
  | checked _ =>
    rcases hhandshake : c.handshake with _ | ⟨expected, ready, deadline⟩ | instant
    · exact told_dormant rfl
    · obtain ⟨field', hfield', hawaited⟩ := h.awaiting expected ready deadline hhandshake
      obtain rfl := Option.some.inj (hfield.symm.trans hfield')
      have hstill : Told U (past ++ [(w, command)]) i { c with
          handshake := (.awaiting (expected ∩ w.presentStamps i field)
            (ready ∩ (expected ∩ w.presentStamps i field)) deadline) } := by
        refine ⟨?_, ?_⟩
        · rintro expected' ready' deadline' ⟨⟩
          have hlater := hawaited.later [(w, command)]
          refine ⟨field, hfield, hlater.armed, Finset.inter_subset_left.trans hlater.participants, ?_, ?_⟩
          · intro stamp hstamp hnot
            by_cases hexpected : stamp ∈ expected
            · -- it is this heartbeat that misses the participant
              have habsent : stamp ∉ w.presentStamps i field := fun hpresent => hnot (Finset.mem_inter.2 ⟨hexpected, hpresent⟩)
              exact ⟨(w, command), List.mem_append_right _ (List.mem_singleton_self _), c, expected, ready, now, hcourse, hphase,
                hfield, hhandshake, hbeats, hexpected, habsent⟩
            · exact hlater.missed stamp hstamp hexpected
          · exact fun stamp hstamp => hlater.marked stamp (Finset.mem_inter.1 hstamp).1
        · rintro instant ⟨⟩
      unfold LoadingHandshake.reconciled
      dsimp only
      split
      · rename_i hdone
        rcases hinstant : Instant.checkedAdd now raceStartDelay with _ | instant
        · exact hstill
        · refine ⟨?_, ?_⟩
          · rintro expected' ready' deadline' ⟨⟩
          · rintro instant' ⟨⟩
            refine ⟨field, hfield, past, (w, command), [], rfl, c, expected, ready, deadline, now, hbeats, hcourse, hphase, hfield,
              hhandshake, hawaited, ?_, hinstant⟩
            exact hdone.imp ready_of_card id
      · exact hstill
    · refine (h.later [(w, command)]).same ?_ rfl
      rw [hhandshake]
      rfl

/-- What a command does to a handshake is told of. -/
theorem Told.does (hsound : Sound w) (h : ∀ i c, w.course i = some c → Told U past i c) (hdoes : Does U w w' command) :
    ∀ i c, w'.course i = some c → Told U (past ++ [(w, command)]) i c := by
  have hlater : ∀ i c, w.course i = some c → Told U (past ++ [(w, command)]) i c := fun i c hcourse =>
    (h i c hcourse).later [(w, command)]
  intro i c hcourse
  cases hdoes with
  | calm hcalm => exact told_goes (hcalm.goes i) (hlater i) c hcourse
  | moves hmoved hcauses =>
    obtain ⟨d, d', hd, hloads, hothers⟩ := hmoved
    rw [hothers i] at hcourse
    split at hcourse
    · rename_i hi
      subst hi
      obtain rfl := Option.some.inj hcourse
      exact (h i d hd).loads hd hloads hcauses
    · exact hlater i c hcourse
  | beats now hbeats _ _ hbeaten hothers =>
    by_cases hloading : ∃ d, w.course i = some d ∧ d.phase = .loading
    · obtain ⟨d, hd, hphase⟩ := hloading
      obtain ⟨field, hfield, -, -⟩ := (hsound i d hd).racing (by rw [hphase]; simp)
      obtain ⟨d', hd', hbeat⟩ := (hbeaten i d field hd hphase hfield).beat
      obtain rfl := Option.some.inj (hd'.symm.trans hcourse)
      exact (h i d hd).beats hd hphase hfield hbeats hbeat
    · exact told_goes (hothers i fun d hd hphase => hloading ⟨d, hd, hphase⟩) (hlater i) c hcourse

theorem Run.told (h : Run U past w) : ∀ i c, w.course i = some c → Told U past i c := by
  induction h with
  | start =>
    rintro i c ⟨⟩
  | step command hrun ih => exact Told.does hrun.sound ih (World.does hrun.sound command)

end Told

/-! ## Every race has its own epoch -/

/-- The races of a world are at their own rooms, and the epoch of the next race is later than theirs. -/
def Fenced (w : World) : Prop :=
  ∀ i c fence, w.course i = some c → c.fence = some fence →
    fence.roomId = i ∧ ∀ next, w.nextRaceEpoch = some next → fence.raceEpoch.get < next.get

/-- The epoch of the next race has not gone back. -/
def Onward (w w' : World) : Prop :=
  ∀ next, w'.nextRaceEpoch = some next → ∃ before, w.nextRaceEpoch = some before ∧ before.get ≤ next.get

section Epochs

variable {U : Unicode} {past : List Moment} {w w' : World} {command : Command}

theorem onward_of_eq (h : w'.nextRaceEpoch = w.nextRaceEpoch) : Onward w w' :=
  fun next hnext => ⟨next, h ▸ hnext, Nat.le_refl _⟩

theorem Onward.trans {w'' : World} (h : Onward w w') (h' : Onward w' w'') : Onward w w'' := by
  intro next hnext
  obtain ⟨middle, hmiddle, hle⟩ := h' next hnext
  obtain ⟨before, hbefore, hle'⟩ := h middle hmiddle
  exact ⟨before, hbefore, Nat.le_trans hle' hle⟩

theorem Does.onward (h : Does U w w' command) : Onward w w' := by
  cases h with
  | calm hcalm => exact onward_of_eq hcalm.epoch
  | beats _ _ _ hepoch _ _ => exact onward_of_eq hepoch
  | @moves roomId event _ hcauses =>
    cases event with
    | started field =>
      obtain ⟨-, -, hnext, hlast⟩ := hcauses
      intro next hfollowing
      rw [hlast] at hfollowing
      refine ⟨field.fence.raceEpoch, hnext, ?_⟩
      rw [GlobalRaceEpoch.get_following hfollowing]
      omega
    | armed identity deadline => exact onward_of_eq hcauses.2
    | marked identity epoch => exact onward_of_eq hcauses.2.2
    | checked active now => exact hcauses.elim
    | began now => exact hcauses.elim
    | aborted => exact hcauses.elim

theorem fence_goes {o o' : Option Course} (h : Goes o o') {c : Course} {fence : RaceFence} (hc : o' = some c)
    (hfence : c.fence = some fence) : ∃ c₀, o = some c₀ ∧ c₀.fence = some fence := by
  induction h generalizing c with
  | refl => exact ⟨c, hc, hfence⟩
  | tail _ hturn ih =>
    cases hturn with
    | opened gameType =>
      obtain rfl := Option.some.inj hc
      exact absurd hfence (by simp [Course.fresh])
    | removed _ => exact absurd hc (by simp)
    | @quiet c₁ c₂ hquiet =>
      obtain rfl := Option.some.inj hc
      rcases hquiet.handshake with ⟨-, hnone, -⟩ | ⟨-, hsame, -⟩
      · rw [hnone] at hfence
        exact absurd hfence (by simp)
      · exact ih rfl (hsame ▸ hfence)

/-- Races that were there before, behind an epoch that has not gone back. -/
theorem Fenced.kept (h : Fenced w) (honward : Onward w w') {i : RoomId} {c : Course} {fence : RaceFence}
    (hcourse : w.course i = some c) (hfence : c.fence = some fence) :
    fence.roomId = i ∧ ∀ next, w'.nextRaceEpoch = some next → fence.raceEpoch.get < next.get := by
  obtain ⟨hroom, hbelow⟩ := h i c fence hcourse hfence
  refine ⟨hroom, fun next hnext => ?_⟩
  obtain ⟨before, hbefore, hle⟩ := honward next hnext
  exact Nat.lt_of_lt_of_le (hbelow before hbefore) hle

theorem Does.fenced (h : Does U w w' command) (hsound : Sound w) (hfenced : Fenced w) : Fenced w' := by
  have honward := h.onward
  intro i c fence hcourse hfence
  cases h with
  | calm hcalm =>
    obtain ⟨c₀, hc₀, hfence₀⟩ := fence_goes (hcalm.goes i) hcourse hfence
    exact hfenced.kept honward hc₀ hfence₀
  | @moves roomId event hmoved hcauses =>
    obtain ⟨d, d', hd, hloads, hothers⟩ := hmoved
    rw [hothers i] at hcourse
    by_cases hi : i = roomId
    · subst hi
      rw [if_pos rfl] at hcourse
      obtain rfl := Option.some.inj hcourse
      cases hloads with
      | @started _ field _ _ =>
        obtain rfl := Option.some.inj hfence
        obtain ⟨-, hroom, hnext, hlast⟩ := hcauses
        refine ⟨hroom, fun next hfollowing => ?_⟩
        rw [hlast] at hfollowing
        rw [GlobalRaceEpoch.get_following hfollowing]
        omega
      | armed _ _ _ _ => exact hfenced.kept honward hd hfence
      | marked _ _ _ _ _ _ _ => exact hfenced.kept honward hd hfence
      | checked _ => exact hcauses.elim
      | began _ _ => exact hcauses.elim
      | aborted _ => exact hcauses.elim
    · rw [if_neg hi] at hcourse
      exact hfenced.kept honward hcourse hfence
  | beats now _ _ _ hbeaten hothers =>
    by_cases hloading : ∃ d, w.course i = some d ∧ d.phase = .loading
    · obtain ⟨d, hd, hphase⟩ := hloading
      obtain ⟨field, hfield, -, -⟩ := (hsound i d hd).racing (by rw [hphase]; simp)
      obtain ⟨d', hd', hbeat⟩ := (hbeaten i d field hd hphase hfield).beat
      obtain rfl := Option.some.inj (hd'.symm.trans hcourse)
      cases hbeat with
      | aborted _ => exact absurd hfence (by simp [Course.inLobby])
      | checked _ => exact hfenced.kept honward hd hfence
      | began _ _ => exact hfenced.kept honward hd hfence
    · obtain ⟨c₀, hc₀, hfence₀⟩ := fence_goes (hothers i fun d hd hphase => hloading ⟨d, hd, hphase⟩) hcourse hfence
      exact hfenced.kept honward hc₀ hfence₀

theorem Run.fenced (h : Run U past w) : Fenced w := by
  induction h with
  | start =>
    rintro i c fence ⟨⟩
  | step command hrun ih => exact (World.does hrun.sound command).fenced hrun.sound ih

/-- The epoch of the next race has not gone back since a moment of a run. -/
theorem Run.onward (h : Run U past w) : ∀ moment ∈ past, Onward moment.1 w := by
  induction h with
  | start =>
    intro moment hmoment
    exact absurd hmoment (by simp)
  | @step past' w' command hrun ih =>
    have hlast := (World.does (U := U) hrun.sound command).onward
    intro moment hmoment
    rcases List.mem_append.1 hmoment with hold | hnew
    · exact (ih moment hold).trans hlast
    · rw [List.mem_singleton.1 hnew]
      exact hlast

end Epochs

/-! ## The law -/

/-- A start that is due after a heartbeat reconciled its handshake was due before: a start that was just scheduled is not. -/
theorem startDue_of_reconciled {active : Finset FrozenParticipantStamp} {now : Instant} {handshake : LoadingHandshake}
    (h : (handshake.reconciled active now).startDue now = true) :
    ∃ instant, handshake = .startScheduled instant ∧ instant ≤ now := by
  rcases handshake with _ | ⟨expected, ready, deadline⟩ | instant
  · cases h
  · unfold LoadingHandshake.reconciled at h
    dsimp only at h
    split at h
    · rcases hinstant : Instant.checkedAdd now raceStartDelay with _ | instant
      · rw [hinstant] at h
        cases h
      · rw [hinstant] at h
        have hdue : instant ≤ now := of_decide_eq_true h
        obtain ⟨rfl, -⟩ := Instant.checkedAdd_eq_some.1 hinstant
        have hpositive : 0 < raceStartDelay := by decide
        exact absurd hdue (Nat.not_le.2 (Nat.lt_add_of_pos_right hpositive))
    · cases h
  · exact ⟨instant, rfl, of_decide_eq_true h⟩

/-- The law of the loading handshake, at a world that a run has reached. -/
structure LoadingLaw (U : Unicode) (past : List Moment) (w : World) : Prop where
  /-- A race begins to run by a heartbeat, at an instant for which its start was scheduled before, or later. -/
  begins : ∀ command i c c', w.course i = some c → c.phase = .loading → (perform U command w).course i = some c' →
    c'.phase = .running → ∃ field instant now, c.field = some field ∧ c'.field = some field ∧
      c.handshake = .startScheduled instant ∧ ScheduledIn U past i field instant ∧ command.beatsAt = some now ∧ instant ≤ now
  /-- A handshake that awaits participants was armed by one of the race, and whoever is ready was marked for that race. -/
  awaits : ∀ i c expected ready deadline, w.course i = some c → c.handshake = .awaiting expected ready deadline →
    ∃ field, c.phase = .loading ∧ c.field = some field ∧ c.fence = some field.fence ∧
      AwaitedIn U past i field expected ready deadline
  /-- A candidate that counts is the exact active identity of a participant, for the epoch of the race that loads. -/
  marks : ∀ candidate, perform U (.readiness candidate) w ≠ w → ∃ c field identity, w.course candidate.roomId = some c ∧
    c.phase = .loading ∧ c.field = some field ∧ c.fence = some field.fence ∧ field.fence.raceEpoch = candidate.raceEpoch ∧
    identity ∈ field.entrants.map (·.identity) ∧ FrozenParticipantStamp.of identity = candidate.participant ∧
    w.identities.activeIdentityByUserNo identity.userNo = some identity
  /-- A race starts with a dormant handshake and an epoch that no race had before it. -/
  starts : ∀ command i c', (∀ c, w.course i = some c → c.phase = .lobby) → (perform U command w).course i = some c' →
    c'.phase = .loading → ∃ field, c'.field = some field ∧ c'.fence = some field.fence ∧ c'.handshake = .dormant ∧
      ∀ v, v = w ∨ (∃ earlier, (v, earlier) ∈ past) → ∀ j c fence, v.course j = some c → c.fence = some fence →
        fence.raceEpoch ≠ field.fence.raceEpoch
  /-- A heartbeat calls a race off that loads exactly when none of its racers is present, and releases its lanes. -/
  aborts : ∀ items order now tick rolls i c field, w.quiescing = false → w.course i = some c → c.phase = .loading →
    c.field = some field → ∃ c', (perform U (.heartbeat items order now tick rolls) w).course i = some c' ∧
      (c'.phase = .lobby ↔ ¬w.RacerPresent i field) ∧ (c'.phase = .lobby → c' = c.inLobby) ∧
      (c'.phase ≠ .lobby → c'.field = some field) ∧
      (¬w.RacerPresent i field → ∀ userNo,
        (perform U (.heartbeat items order now tick rolls) w).rewardLanes.lookup userNo ≠ some field.fence)
  /-- Any other command leaves a race that loads loading, or its room is removed. -/
  leaves : ∀ command i c, command.beatsAt = none → w.course i = some c → c.phase = .loading →
    (∃ c', (perform U command w).course i = some c' ∧ c'.phase = .loading ∧ c'.field = c.field) ∨
      Goes none ((perform U command w).course i)

section Law

variable {U : Unicode} {past : List Moment} {w : World} {command : Command} {i : RoomId} {c c' : Course}

/-- What a command that is no heartbeat does to a race that loads. -/
theorem Does.loading {w' : World} (h : Does U w w' command) (hsound : Sound w) (hbeats : command.beatsAt = none)
    (hcourse : w.course i = some c) (hphase : c.phase = .loading) :
    (∃ c', w'.course i = some c' ∧ c'.phase = .loading ∧ c'.field = c.field) ∨ Goes none (w'.course i) := by
  cases h with
  | calm hcalm =>
    have hgoes := hcalm.goes i
    rw [hcourse] at hgoes
    rcases goes_loading hgoes (hsound i c hcourse) hphase with ⟨c', hc', -, hloading, hfield⟩ | hnone
    · exact .inl ⟨c', hc', hloading, hfield⟩
    · exact .inr hnone
  | @moves roomId event hmoved hcauses =>
    obtain ⟨d, d', hd, hloads, hothers⟩ := hmoved
    by_cases hi : i = roomId
    · subst hi
      obtain rfl := Option.some.inj (hcourse.symm.trans hd)
      refine .inl ⟨d', by rw [hothers, if_pos rfl], ?_⟩
      cases hloads with
      | started hlobby _ =>
        rw [hphase] at hlobby
        cases hlobby
      | armed _ _ _ _ => exact ⟨hphase, rfl⟩
      | marked _ _ _ _ _ _ _ => exact ⟨hphase, rfl⟩
      | checked _ => exact hcauses.elim
      | began _ _ => exact hcauses.elim
      | aborted _ => exact hcauses.elim
    · exact .inl ⟨c, by rw [hothers, if_neg hi, hcourse], hphase, rfl⟩
  | beats now hnow _ _ _ _ =>
    rw [hbeats] at hnow
    cases hnow

/-- A race whose room is gone is not there any more, and a room that was opened in its place is in its lobby. -/
theorem lobby_of_goes_none {o : Option Course} (h : Goes none o) : ∀ c, o = some c → c.phase = .lobby :=
  goes_lobby h fun _ hc => by cases hc

/-- What begins to run begins by a beat. -/
theorem Does.begins {w' : World} (h : Does U w w' command) (hsound : Sound w) (hcourse : w.course i = some c)
    (hphase : c.phase = .loading) (hcourse' : w'.course i = some c') (hphase' : c'.phase = .running) :
    ∃ field instant now, c.field = some field ∧ c'.field = some field ∧ c.handshake = .startScheduled instant ∧
      command.beatsAt = some now ∧ instant ≤ now := by
  rcases hbeats : command.beatsAt with _ | now
  · rcases h.loading hsound hbeats hcourse hphase with ⟨d, hd, hloading, -⟩ | hnone
    · obtain rfl := Option.some.inj (hcourse'.symm.trans hd)
      rw [hphase'] at hloading
      cases hloading
    · have hlobby := lobby_of_goes_none hnone c' hcourse'
      rw [hphase'] at hlobby
      cases hlobby
  · have hkept : ∀ d, w'.course i = some d → d.phase = .loading → False := by
      intro d hd hloading
      obtain rfl := Option.some.inj (hcourse'.symm.trans hd)
      rw [hphase'] at hloading
      cases hloading
    cases h with
    | calm hcalm =>
      have hgoes := hcalm.goes i
      rw [hcourse] at hgoes
      rcases goes_loading hgoes (hsound i c hcourse) hphase with ⟨d, hd, -, hloading, -⟩ | hnone
      · exact (hkept d hd hloading).elim
      · have hlobby := lobby_of_goes_none hnone c' hcourse'
        rw [hphase'] at hlobby
        cases hlobby
    | @moves roomId event hmoved hcauses =>
      obtain ⟨d, d', hd, hloads, hothers⟩ := hmoved
      by_cases hi : i = roomId
      · subst hi
        obtain rfl := Option.some.inj (hcourse.symm.trans hd)
        have hcourse'' : w'.course i = some d' := by rw [hothers, if_pos rfl]
        cases hloads with
        | started _ _ => exact (hkept _ hcourse'' rfl).elim
        | armed _ _ _ _ => exact (hkept _ hcourse'' hphase).elim
        | marked _ _ _ _ _ _ _ => exact (hkept _ hcourse'' hphase).elim
        | checked _ => exact hcauses.elim
        | began _ _ => exact hcauses.elim
        | aborted _ => exact hcauses.elim
      · exact (hkept c (by rw [hothers, if_neg hi, hcourse]) hphase).elim
    | beats now' hnow _ _ hbeaten _ =>
      obtain rfl := Option.some.inj (hbeats.symm.trans hnow)
      obtain ⟨field, hfield, -, -⟩ := (hsound i c hcourse).racing (by rw [hphase]; simp)
      obtain ⟨d, hd, hbeat⟩ := (hbeaten i c field hcourse hphase hfield).beat
      obtain rfl := Option.some.inj (hcourse'.symm.trans hd)
      cases hbeat with
      | aborted _ => cases hphase'
      | checked _ => exact (hkept _ hd hphase).elim
      | began _ hdue =>
        obtain ⟨instant, hscheduled, hle⟩ := startDue_of_reconciled hdue
        exact ⟨field, instant, now, hfield, hfield, hscheduled, rfl, hle⟩

/-- A candidate that changes the world is marked. -/
theorem marked_of_changes (candidate : LoadingReadinessCandidate) (h : perform U (.readiness candidate) w ≠ w) :
    ∃ c field identity, w.course candidate.roomId = some c ∧ c.phase = .loading ∧ c.field = some field ∧
      c.fence.map (·.raceEpoch) = some candidate.raceEpoch ∧ field.fence.raceEpoch = candidate.raceEpoch ∧
      identity ∈ field.entrants.map (·.identity) ∧ FrozenParticipantStamp.of identity = candidate.participant ∧
      w.identities.activeIdentityByUserNo identity.userNo = some identity := by
  obtain ⟨-, hsame | ⟨identity, hstamp, hactive, hmoved⟩⟩ := markLoadingReady_moves candidate w
  · exact absurd hsame h
  · obtain ⟨c, c', hcourse, hloads, -⟩ := hmoved
    cases hloads with
    | marked hphase hfield hfence hepoch hidentity _ _ =>
      exact ⟨c, _, identity, hcourse, hphase, hfield, hfence, hepoch, hidentity, hstamp, hactive⟩

/-- A race that is new starts. -/
theorem Does.starts {w' : World} (h : Does U w w' command) (hlobby : ∀ c, w.course i = some c → c.phase = .lobby)
    (hcourse' : w'.course i = some c') (hphase' : c'.phase = .loading) :
    ∃ field, c'.field = some field ∧ c'.fence = some field.fence ∧ c'.handshake = .dormant ∧
      w.nextRaceEpoch = some field.fence.raceEpoch := by
  have hkept {o : Option Course} (hgoes : Goes o (w'.course i)) (ho : ∀ c, o = some c → c.phase = .lobby) : False := by
    have hstill := goes_lobby hgoes ho c' hcourse'
    rw [hphase'] at hstill
    cases hstill
  cases h with
  | calm hcalm => exact (hkept (hcalm.goes i) hlobby).elim
  | @moves roomId event hmoved hcauses =>
    obtain ⟨d, d', hd, hloads, hothers⟩ := hmoved
    by_cases hi : i = roomId
    · subst hi
      have hphase := hlobby d hd
      obtain rfl : d' = c' := by
        rw [hothers, if_pos rfl] at hcourse'
        exact Option.some.inj hcourse'
      cases hloads with
      | @started _ field _ _ => exact ⟨field, rfl, rfl, rfl, hcauses.2.2.1⟩
      | armed hloading _ _ _ => rw [hphase] at hloading; cases hloading
      | marked hloading _ _ _ _ _ _ => rw [hphase] at hloading; cases hloading
      | checked _ => exact hcauses.elim
      | began _ _ => exact hcauses.elim
      | aborted _ => exact hcauses.elim
    · refine (hkept ?_ hlobby).elim
      rw [hothers, if_neg hi]
  | beats _ _ _ _ _ hothers =>
    refine (hkept (hothers i fun c hc => ?_) hlobby).elim
    rw [hlobby c hc]
    simp

/-- The races of a run came before the epoch of the next one. -/
theorem Run.epoch_ne (h : Run U past w) {v : World} (hv : v = w ∨ ∃ earlier, (v, earlier) ∈ past) {j : RoomId}
    {fence : RaceFence} (hcourse : v.course j = some c) (hfence : c.fence = some fence) {next : GlobalRaceEpoch}
    (hnext : w.nextRaceEpoch = some next) : fence.raceEpoch ≠ next := by
  have hlt : fence.raceEpoch.get < next.get := by
    rcases hv with rfl | ⟨earlier, hmoment⟩
    · exact (h.fenced j c fence hcourse hfence).2 next hnext
    · obtain ⟨before, later, hsplit⟩ := List.append_of_mem hmoment
      obtain ⟨then_, hthen, hle⟩ := h.onward _ hmoment next hnext
      exact Nat.lt_of_lt_of_le (((h.before hsplit).fenced j c fence hcourse hfence).2 then_ hthen) hle
  rintro rfl
  exact Nat.lt_irrefl _ hlt

/-- A heartbeat calls a race off that loads exactly when none of its racers is present. -/
theorem heartbeat_aborts (hsound : Sound w) (items : ItemService) (order : VisitOrder) (now : Instant) (tick : Nat)
    (rolls : RoomId → Int → Nat × Nat) {field : RaceField} (hquiescing : w.quiescing = false) (hcourse : w.course i = some c)
    (hphase : c.phase = .loading) (hfield : c.field = some field) :
    ∃ c', (perform U (.heartbeat items order now tick rolls) w).course i = some c' ∧
      (c'.phase = .lobby ↔ ¬w.RacerPresent i field) ∧ (c'.phase = .lobby → c' = c.inLobby) ∧
      (c'.phase ≠ .lobby → c'.field = some field) ∧
      (¬w.RacerPresent i field → ∀ userNo,
        (perform U (.heartbeat items order now tick rolls) w).rewardLanes.lookup userNo ≠ some field.fence) := by
  obtain ⟨w', heq, -, hbeaten, -⟩ := advanceLoading_beats hsound order.perm hquiescing items U now tick rolls
  change ∃ c', (advanceLoading U items order.visit now tick rolls w).2.course i = some c' ∧ _ ∧ _ ∧ _ ∧
    (_ → ∀ userNo, (advanceLoading U items order.visit now tick rolls w).2.rewardLanes.lookup userNo ≠ some field.fence)
  rw [heq]
  obtain ⟨⟨c', hcourse', hbeat⟩, hlanes⟩ := hbeaten i c field hcourse hphase hfield
  refine ⟨c', hcourse', ?_, ?_, ?_, hlanes⟩
  all_goals cases hbeat with
    | aborted hnone => simp [Course.inLobby, hnone]
    | checked hpresent => simp [hphase, hpresent, hfield]
    | began hpresent _ => simp [hpresent, hfield]

/-- Every world that a run reaches obeys the law of the loading handshake. -/
theorem loading_law (h : Run U past w) : LoadingLaw U past w where
  begins := by
    intro command i c c' hcourse hphase hcourse' hphase'
    obtain ⟨field, instant, now, hfield, hfield', hscheduled, hnow, hle⟩ :=
      (does h.sound command).begins h.sound hcourse hphase hcourse' hphase'
    obtain ⟨field₁, hfield₁, hin⟩ := (h.told i c hcourse).scheduled instant hscheduled
    obtain rfl := Option.some.inj (hfield.symm.trans hfield₁)
    exact ⟨field, instant, now, hfield, hfield', hscheduled, hin, hnow, hle⟩
  awaits := by
    intro i c expected ready deadline hcourse hawaiting
    have hphase := (h.sound i c hcourse).loading (by rw [hawaiting]; simp)
    obtain ⟨field, hfield, hfence, -⟩ := (h.sound i c hcourse).racing (by rw [hphase]; simp)
    obtain ⟨field₁, hfield₁, hawaited⟩ := (h.told i c hcourse).awaiting expected ready deadline hawaiting
    obtain rfl := Option.some.inj (hfield.symm.trans hfield₁)
    exact ⟨field, hphase, hfield, hfence, hawaited⟩
  marks := by
    intro candidate hchanges
    obtain ⟨c, field, identity, hcourse, hphase, hfield, -, hepoch, hidentity, hstamp, hactive⟩ :=
      marked_of_changes candidate hchanges
    obtain ⟨field₁, hfield₁, hfence, -⟩ := (h.sound _ c hcourse).racing (by rw [hphase]; simp)
    obtain rfl := Option.some.inj (hfield.symm.trans hfield₁)
    exact ⟨c, field, identity, hcourse, hphase, hfield, hfence, hepoch, hidentity, hstamp, hactive⟩
  starts := by
    intro command i c' hlobby hcourse' hphase'
    obtain ⟨field, hfield, hfence, hdormant, hnext⟩ := (does h.sound command).starts hlobby hcourse' hphase'
    exact ⟨field, hfield, hfence, hdormant, fun v hv j c fence hcourse hc => h.epoch_ne hv hcourse hc hnext⟩
  aborts := by
    intro items order now tick rolls i c field hquiescing hcourse hphase hfield
    exact heartbeat_aborts h.sound items order now tick rolls hquiescing hcourse hphase hfield
  leaves := by
    intro command i c hbeats hcourse hphase
    exact (does h.sound command).loading h.sound hbeats hcourse hphase

end Law

namespace LoadingAux

open OpenedAux

/-- Items that are never given. -/
def noItems : ItemService where
  selectAward _ _ _ _ _ := .error .weightTotalOverflow
  startItem _ _ := none

def beat (now : Instant) : Command := .heartbeat noItems ⟨id, fun _ => List.Perm.refl _⟩ now 0 (fun _ _ => (0, 0))

/-- Two players start a race and arm it. The first gets ready before a heartbeat, the second before the next one. -/
def loading : List Command :=
  [.lobby ⟨2⟩ (.setSlotState .ready), .lobby ⟨1⟩ (.startRoom ⟨[500], none, 0, 4096⟩ 0), .race noItems ⟨1⟩ (.gameControl ⟨0, 0⟩) 0 0,
    .udp dao none true true, beat 1, .udp bazzi none true true, beat 2]

/-- The world behind them. -/
def scheduled : World := performAll .ascii lobby loading

end LoadingAux

open OpenedAux LoadingAux in
/-- A race of two that is armed, awaited and scheduled begins to run a second later, and by the law its start was scheduled. -/
theorem loading_law_running :
    LoadingLaw .ascii (past ++ moments .ascii lobby loading) scheduled ∧
      ((performAll .ascii lobby (loading.take 5)).course ⟨1⟩).map (fun c => match c.handshake with
        | .awaiting expected ready _ => (expected.card, ready.card)
        | _ => (0, 0)) = some (2, 1) ∧
      ((perform .ascii (beat 1000000002) scheduled).course ⟨1⟩).map Course.phase = some .running ∧
      ∃ field instant, ScheduledIn .ascii (past ++ moments .ascii lobby loading) ⟨1⟩ field instant ∧ instant ≤ 1000000002 := by
  have hlaw : LoadingLaw .ascii (past ++ moments .ascii lobby loading) scheduled := loading_law (run_lobby.performAll loading)
  have hloading : (scheduled.course ⟨1⟩).map Course.phase = some .loading := by decide +kernel
  have hrunning : ((perform .ascii (beat 1000000002) scheduled).course ⟨1⟩).map Course.phase = some .running := by decide +kernel
  obtain ⟨c, hc, hphase⟩ := Option.map_eq_some_iff.1 hloading
  obtain ⟨c', hc', hphase'⟩ := Option.map_eq_some_iff.1 hrunning
  obtain ⟨field, instant, now, -, -, -, hscheduled, hnow, hle⟩ := hlaw.begins _ ⟨1⟩ c c' hc hphase hc' hphase'
  obtain rfl := Option.some.inj hnow
  exact ⟨hlaw, by decide +kernel, hrunning, field, instant, hscheduled, hle⟩

end World

end P5136
