import P5136.Lib.LittleEndian
import P5136.Profile.Steps

/-!
# The revisions of a profile directory are linear

Over every run of the store: what a directory may become later, and the moment at which each revision was published.
-/

namespace P5136

namespace ProfileStore

open ProfileSystem

variable {P : Type} {format : ProfileFormat P}

/-- What a directory may become: its head does not decrease, its files stay as they are or are removed, a number that the head is
past is not used again, and where there was a valid revision there is one. -/
structure Later (format : ProfileFormat P) (directory directory' : ProfileDirectory) : Prop where
  head : ∀ head, headRevision directory = some head → ∃ head', headRevision directory' = some head' ∧ head ≤ head'
  kept : ∀ revision bytes, directory.revisions.lookup revision = some bytes →
    directory'.revisions.lookup revision = some bytes ∨ directory'.revisions.lookup revision = none
  gone : ∀ revision head, headRevision directory = some head → revision ≤ head → directory.revisions.lookup revision = none →
    directory'.revisions.lookup revision = none
  valid : newestValid format directory ≠ none → newestValid format directory' ≠ none
  legacy : directory'.legacy = directory.legacy

/-- The moment of a publication: a step of its writer in a system from which it was computed, and the revision it left there. -/
structure Moment (format : ProfileFormat P) (publication : Publication P) (u u' : ProfileSystem P) : Prop where
  step : u.Step format (.run publication.writer) u'
  newest : publication.newest = newestValid format u.directory
  absent : u.directory.revisions.lookup publication.revision = none
  published : newestValid format u'.directory = some (publication.revision, format.reread publication.profile)

section

variable {directory directory' directory'' : ProfileDirectory}

theorem Later.refl (directory : ProfileDirectory) : Later format directory directory :=
  ⟨fun head h => ⟨head, h, Nat.le_refl _⟩, fun _ _ h => .inl h, fun _ _ _ _ h => h, fun h => h, rfl⟩

theorem Later.trans (h : Later format directory directory') (h' : Later format directory' directory'') :
    Later format directory directory'' where
  head head hhead := by
    obtain ⟨e, he, hle⟩ := h.head head hhead
    obtain ⟨e', he', hle'⟩ := h'.head e he
    exact ⟨e', he', Nat.le_trans hle hle'⟩
  kept revision bytes hr := by
    have hmax : ∃ e, headRevision directory = some e ∧ revision ≤ e := by
      cases hh : headRevision directory with
      | none =>
        rw [headRevision_eq_none.1 hh revision] at hr
        cases hr
      | some e => exact ⟨e, rfl, (headRevision_eq_some.1 hh).2 revision bytes hr⟩
    obtain ⟨e, he, hle⟩ := hmax
    rcases h.kept revision bytes hr with hr' | hr'
    · exact h'.kept revision bytes hr'
    · obtain ⟨e', he', hle'⟩ := h.head e he
      exact .inr (h'.gone revision e' he' (Nat.le_trans hle hle') hr')
  gone revision head hhead hle hr := by
    obtain ⟨e, he, hle'⟩ := h.head head hhead
    exact h'.gone revision e he (Nat.le_trans hle hle') (h.gone revision head hhead hle hr)
  valid hne := h'.valid (h.valid hne)
  legacy := h'.legacy.trans h.legacy

/-- A directory that only loses old revisions. -/
theorem Keeps.later (hk : Keeps format directory directory')
    (hfiles : ∀ revision bytes, directory'.revisions.lookup revision = some bytes →
      directory.revisions.lookup revision = some bytes) : Later format directory directory' where
  head head hhead := ⟨head, hk.head.trans hhead, Nat.le_refl _⟩
  kept revision bytes hr := by
    cases hr' : directory'.revisions.lookup revision with
    | none => exact .inr rfl
    | some bytes' =>
      rw [hfiles revision bytes' hr'] at hr
      exact .inl hr
  gone revision head _ _ hr := by
    cases hr' : directory'.revisions.lookup revision with
    | none => rfl
    | some bytes' =>
      rw [hfiles revision bytes' hr'] at hr
      cases hr
  valid hne := by
    rw [hk.newest]
    exact hne
  legacy := hk.legacy

/-- A directory that gains a revision. -/
theorem Grows.later {revision : Nat} {profile : P} {bytes : List UInt8}
    (hg : Grows format directory { directory with revisions := directory.revisions.insert revision bytes } revision profile) :
    Later format directory { directory with revisions := directory.revisions.insert revision bytes } where
  head head hhead := ⟨revision, hg.head, Nat.le_of_lt (hg.greater head hhead)⟩
  kept revision' bytes' hr := by
    have hne : revision' ≠ revision := by
      rintro rfl
      cases hh : headRevision directory with
      | none =>
        rw [headRevision_eq_none.1 hh revision'] at hr
        cases hr
      | some head =>
        have hle := (headRevision_eq_some.1 hh).2 revision' bytes' hr
        have hlt := hg.greater head hh
        omega
    exact .inl (by rw [FiniteMap.lookup_insert, if_neg hne, hr])
  gone revision' head hhead hle hr := by
    have hlt := hg.greater head hhead
    have hne : revision' ≠ revision := by omega
    rw [FiniteMap.lookup_insert, if_neg hne, hr]
  valid _ := by
    rw [newestValid_of_head hg.head hg.valid]
    exact nofun
  legacy := hg.legacy

end

/-! ## Steps -/

variable {initial : ProfileDirectory} {s t u : ProfileSystem P}

/-- A step of the store publishes nothing, or is the moment of a publication. -/
def Change (format : ProfileFormat P) (s : ProfileSystem P) (event : StoreEvent P) (t : ProfileSystem P) : Prop :=
  Later format s.directory t.directory ∧ (t.history = s.history ∨
    ∃ publication, t.history = s.history ++ [publication] ∧ event = .run publication.writer ∧ Moment format publication s t)

/-- A step that changes no revision. -/
theorem Change.of_revisions {event : StoreEvent P} (hrevisions : t.directory.revisions = s.directory.revisions)
    (hlegacy : t.directory.legacy = s.directory.legacy) (hhistory : t.history = s.history) : Change format s event t := by
  refine ⟨(Keeps.of_revisions hrevisions hlegacy).later (fun revision bytes h => ?_), .inl hhistory⟩
  rw [← hrevisions]
  exact h

/-- A step that changes neither the directory nor the history. -/
theorem Change.of_directory {event : StoreEvent P} (h : t.directory = s.directory ∧ t.history = s.history) :
    Change format s event t :=
  .of_revisions (by rw [h.1]) (by rw [h.1]) h.2

/-- Listing changes no file. -/
theorem directory_list (s : ProfileSystem P) (id : Nat) (writer : StoreWriter P) (goal : ListingGoal P) :
    (s.list id writer goal).directory = s.directory ∧ (s.list id writer goal).history = s.history := by
  cases goal with
  | load => exact ⟨rfl, rfl⟩
  | save prepared =>
    unfold ProfileSystem.list
    simp only
    split <;> exact ⟨rfl, rfl⟩

/-- Reading changes no file. -/
theorem directory_read (s : ProfileSystem P) (id : Nat) (writer : StoreWriter P) (head : Option Nat) (remaining : List Nat) :
    (s.read format id writer head remaining).directory = s.directory ∧
      (s.read format id writer head remaining).history = s.history := by
  have hgoto : ∃ phase, s.read format id writer head remaining = s.goto id writer phase := by
    unfold ProfileSystem.read
    split
    · split
      · split <;> exact ⟨_, rfl⟩
      · exact ⟨_, rfl⟩
    · split
      · split <;> exact ⟨_, rfl⟩
      · split <;> exact ⟨_, rfl⟩
  obtain ⟨phase, hgoto⟩ := hgoto
  rw [hgoto]
  exact ⟨rfl, rfl⟩

/-- Preparing a revision changes no revision. -/
theorem change_prepare {event : StoreEvent P} (s : ProfileSystem P) (id : Nat) (writer : StoreWriter P)
    (snapshot : ProfileSnapshot P) : Change format s event (s.prepare format id writer snapshot) := by
  unfold ProfileSystem.prepare
  split
  · exact .of_revisions rfl rfl rfl
  · split
    · simp only
      split <;> exact .of_revisions rfl rfl rfl
    · exact .of_revisions rfl rfl rfl

/-- Linking a revision is the moment of its publication. -/
theorem Inv.change_link (hI : Inv format initial s) {id : Nat} {writer : StoreWriter P} (hw : s.writers.lookup id = some writer)
    {prepared : PreparedRevision P} (hphase : writer.phase = .compacting prepared [])
    (hfinite : s.Publishes (.run id) prepared → FiniteVolumes format prepared.profile) :
    Change format s (.run id) (s.link format id writer prepared) := by
  have hstep : s.Step format (.run id) (s.link format id writer prepared) := by
    rw [ProfileSystem.Step, ProfileSystem.next, hw, Option.bind_some, ProfileSystem.advance, hphase]
  unfold ProfileSystem.link at hstep ⊢
  split
  · exact .of_revisions rfl rfl rfl
  · rename_i habsent
    split
    · exact .of_revisions rfl rfl rfl
    · rename_i bytes hbytes
      have hpublishes : s.Publishes (.run id) prepared := ⟨id, writer, rfl, hw, hphase, habsent, by rw [hbytes]; exact Option.some_ne_none _⟩
      obtain ⟨-, -, hg⟩ := hI.current_of_link hw hphase habsent hbytes (hfinite hpublishes)
      rw [habsent, hbytes] at hstep
      exact ⟨hg.later, .inr ⟨_, rfl, rfl, hstep, rfl, habsent, newestValid_of_head hg.head hg.valid⟩⟩

/-- Removing an old revision. -/
theorem Inv.change_compacting (hI : Inv format initial s) {id : Nat} {writer : StoreWriter P}
    (hw : s.writers.lookup id = some writer) {prepared : PreparedRevision P} {revision : Nat} {rest : List Nat}
    (hphase : writer.phase = .compacting prepared (revision :: rest)) {event : StoreEvent P} :
    Change format s event (({ s with directory := { s.directory with revisions := s.directory.revisions.erase revision } } :
      ProfileSystem P).goto id writer (.compacting prepared rest)) := by
  refine ⟨(hI.keeps_compacting hw hphase).later (fun r bytes hr => ?_), .inl rfl⟩
  simp only [FiniteMap.lookup_erase] at hr
  split at hr
  · cases hr
  · exact hr

/-- The next step of a writer. -/
theorem Inv.change_advance (hI : Inv format initial s) {id : Nat} {writer : StoreWriter P} (hw : s.writers.lookup id = some writer)
    (h : s.advance format id writer = some t)
    (hfinite : ∀ prepared, s.Publishes (.run id) prepared → FiniteVolumes format prepared.profile) :
    Change format s (.run id) t := by
  unfold ProfileSystem.advance at h
  split at h <;> rename_i hphase
  · cases h
    exact .of_revisions rfl rfl rfl
  · split at h <;> cases h <;> exact .of_revisions rfl rfl rfl
  · cases h
    exact .of_revisions rfl rfl rfl
  · cases h
    exact .of_directory (directory_list s id writer _)
  · cases h
    exact .of_directory (directory_read s id writer _ _)
  · cases h
    exact change_prepare s id writer _
  · cases h
    exact hI.change_compacting hw hphase
  · cases h
    exact hI.change_link hw hphase (hfinite _)
  · cases h
    exact .of_revisions rfl rfl rfl
  · cases h
    exact .of_revisions rfl rfl rfl
  · cases h

/-- Every step of the store that publishes finite volumes only. -/
theorem Inv.change (hI : Inv format initial s) {event : StoreEvent P} (h : s.FiniteStep format event t) :
    Change format s event t := by
  obtain ⟨h, hfinite⟩ := h
  unfold ProfileSystem.Step at h
  cases event with
  | begin id process transaction =>
    simp only [ProfileSystem.next] at h
    split at h <;> cases h
    exact .of_revisions rfl rfl rfl
  | run id =>
    obtain ⟨writer, hw, h⟩ := Option.bind_eq_some_iff.1 h
    exact hI.change_advance hw h hfinite
  | leave id =>
    obtain ⟨writer, hw, h⟩ := Option.bind_eq_some_iff.1 h
    unfold ProfileSystem.left at h
    split at h <;> cases h <;> exact .of_revisions rfl rfl rfl
  | fail id =>
    obtain ⟨writer, hw, h⟩ := Option.bind_eq_some_iff.1 h
    unfold ProfileSystem.failed at h
    split at h <;> cases h <;> exact .of_revisions rfl rfl rfl
  | stop id =>
    obtain ⟨writer, hw, h⟩ := Option.bind_eq_some_iff.1 h
    split at h <;> cases h
    exact .of_revisions rfl rfl rfl
  | elsewhere process =>
    cases h
    exact .of_revisions rfl rfl rfl

/-! ## Runs -/

/-- Along a run from a state with the invariant, the directory is a later one. -/
theorem Inv.later (hI : Inv format initial s) {events : List (StoreEvent P)} (h : Transition.Path (FiniteStep format) s events t) :
    Later format s.directory t.directory ∧ Inv format initial t := by
  induction h with
  | nil => exact ⟨.refl _, hI⟩
  | snoc _ hst ih =>
    obtain ⟨hlater, hinv⟩ := ih
    exact ⟨hlater.trans (hinv.change hst).1, hinv.step hst⟩

/-- Along a run, the history grows by publications with a moment on the run. -/
theorem Inv.moment (hI : Inv format initial s) {events : List (StoreEvent P)} (h : Transition.Path (FiniteStep format) s events t)
    {publication : Publication P} (hmem : publication ∈ t.history) (hnew : publication ∉ s.history) :
    ∃ before after u u', Transition.Path (FiniteStep format) s before u ∧ (∃ event, u.FiniteStep format event u') ∧
      Moment format publication u u' ∧ Transition.Path (FiniteStep format) u' after t := by
  induction h with
  | nil => exact absurd hmem hnew
  | @snoc u t events event hpath hst ih =>
    have hinv := (hI.later hpath).2
    rcases (hinv.change hst).2 with hsame | ⟨published, hhistory, rfl, hmoment⟩
    · rw [hsame] at hmem
      obtain ⟨before, after, v, v', hbefore, hstep, hmoment, hafter⟩ := ih hmem
      exact ⟨before, _, v, v', hbefore, hstep, hmoment, hafter.snoc hst⟩
    · rw [hhistory] at hmem
      rcases List.mem_append.1 hmem with hmem | hmem
      · obtain ⟨before, after, v, v', hbefore, hstep, hmoment, hafter⟩ := ih hmem
        exact ⟨before, _, v, v', hbefore, hstep, hmoment, hafter.snoc hst⟩
      · obtain rfl := List.mem_singleton.1 hmem
        exact ⟨events, [], u, t, hpath, ⟨_, hst⟩, hmoment, .nil t⟩

/-- A profile that a transaction computes from the newest valid revision of a directory, or from its legacy file or the default
where there is none. -/
def ComputedFrom (format : ProfileFormat P) (transaction : P → Option Nat → Option P) (directory : ProfileDirectory) (profile : P) :
    Prop :=
  match newestValid format directory with
  | some (revision, source) => transaction source (some revision) = some profile
  | none => ∃ source, (source = format.default ∨
      ∃ bytes, directory.legacy = some bytes ∧ readProfile format bytes = some source) ∧ transaction source none = some profile

/-- What holds of the publications of a run. -/
structure Linear (format : ProfileFormat P) (s₀ t : ProfileSystem P) : Prop where
  /-- Each publication was computed from the one before it, and has a greater revision. -/
  chain : t.history.IsChain (fun older newer =>
    newer.newest = some (older.revision, format.reread older.profile) ∧ older.revision < newer.revision)
  /-- Each publication has its moment, at which its revision was new. -/
  moments : ∀ publication ∈ t.history, ∃ before after u u', Transition.Path (Step format) s₀ before u ∧
    Moment format publication u u' ∧ Transition.Path (Step format) u' after t
  /-- A writer that reports a revision as committed published what its transaction computed from the newest valid revision at
  that moment. -/
  committed : ∀ id writer revision profile, t.writers.lookup id = some writer →
    writer.phase = .finished (.committed revision profile) →
      ∃ publication ∈ t.history, publication.writer = id ∧ publication.revision = revision ∧ publication.profile = profile ∧
        ∃ before after u u', Transition.Path (Step format) s₀ before u ∧ Moment format publication u u' ∧
          Transition.Path (Step format) u' after t ∧
            ComputedFrom format (writer.transaction publication.attempt) u.directory profile

/-- The publications of a run that publishes finite volumes only are linear. -/
theorem linear_of_path (h₀ : s.Initial) {events : List (StoreEvent P)} (h : Transition.Path (FiniteStep format) s events t) :
    Linear format s t := by
  have hbegin : Inv format _ _ := inv_of_initial h₀
  have hend := (hbegin.later h).2
  have hsteps : ∀ {u v : ProfileSystem P} {events : List (StoreEvent P)}, Transition.Path (FiniteStep format) u events v →
      Transition.Path (Step format) u events v := fun hpath => hpath.mono fun _ _ _ hstep => hstep.1
  have hmoments : ∀ publication ∈ t.history, ∃ before after u u', Transition.Path (FiniteStep format) s before u ∧
      (∃ event, u.FiniteStep format event u') ∧ Moment format publication u u' ∧
      Transition.Path (FiniteStep format) u' after t := by
    intro publication hmem
    refine hbegin.moment h hmem ?_
    rw [h₀.2]
    exact List.not_mem_nil
  refine ⟨hend.chain, fun publication hmem => ?_, fun id writer revision profile hw hphase => ?_⟩
  · obtain ⟨before, after, u, u', hbefore, -, hmoment, hafter⟩ := hmoments publication hmem
    exact ⟨before, after, u, u', hsteps hbefore, hmoment, hsteps hafter⟩
  · obtain ⟨publication, hmem, rfl, rfl, rfl⟩ := (hend.phases id writer hw).committed revision profile hphase
    obtain ⟨before, after, u, u', hbefore, ⟨event, hstep⟩, hmoment, hafter⟩ := hmoments publication hmem
    refine ⟨publication, hmem, rfl, rfl, rfl, before, after, u, u', hsteps hbefore, hmoment, hsteps hafter, ?_⟩
    obtain ⟨writer', hw', hcomputed⟩ := hend.computed publication hmem
    rw [hw] at hw'
    obtain rfl := Option.some.inj hw'
    -- the legacy file is the one of the moment
    have hlegacy : t.directory.legacy = u.directory.legacy :=
      ((hbegin.later hbefore).2.later ((Transition.Path.single hstep).trans hafter)).1.legacy
    rw [hmoment.newest, hlegacy] at hcomputed
    exact hcomputed

end ProfileStore

namespace LinearAux

open ProfileStore ProfileSystem

/-- A profile with one volume, which is `null` when it is not finite. -/
def format : ProfileFormat UInt32 where
  toVecPretty volume := .ok (if IsFinite volume then 0 :: LittleEndian.ofU32 volume else [110, 117, 108, 108])
  fromSlice
    | [0, a, b, c, d, 10] => .ok (LittleEndian.toU32 [a, b, c, d])
    | _ => .error "profile"
  maximumBytes := 6
  default := 0
  volumes volume := (volume, 0)
  reread := id
  fromSlice_toVecPretty volume bytes h _ hbytes := by
    rw [if_pos h] at hbytes
    cases hbytes
    exact congrArg Except.ok (LittleEndian.toU32_ofU32 volume)

/-- A directory with a valid revision behind a corrupt one. -/
def corrupt : ProfileSystem UInt32 where
  directory := ⟨AList.insert 2 [] (AList.insert 1 [0, 5, 0, 0, 0, 10] ∅), none, ∅⟩
  sequences _ := 0
  writers := ∅
  history := []

/-- Two writers find the same head. -/
def loading : List (StoreEvent UInt32) :=
  [.begin 0 0 (fun _ volume _ => some (volume + 1)), .begin 1 1 (fun _ volume _ => some (volume + 10))] ++
    List.replicate 5 (.run 0) ++ List.replicate 6 (.run 1)

/-- The first publishes. -/
def first : List (StoreEvent UInt32) := List.replicate 6 (.run 0)

/-- The second finds another head, and publishes behind it. -/
def second : List (StoreEvent UInt32) := List.replicate 14 (.run 1)

/-- Whether a writer that runs has finite volumes to publish. -/
def finite (s : ProfileSystem UInt32) : StoreEvent UInt32 → Bool
  | .run id => match (s.writers.lookup id).map StoreWriter.phase with
    | some (.compacting prepared []) => decide (IsFinite prepared.profile)
    | _ => true
  | _ => true

/-- What an event makes of the system, when it publishes finite volumes only. -/
def next (s : ProfileSystem UInt32) (event : StoreEvent UInt32) : Option (ProfileSystem UInt32) :=
  if finite s event = true then ProfileSystem.next format s event else none

theorem finiteStep_of_next {s t : ProfileSystem UInt32} {event : StoreEvent UInt32} (h : next s event = some t) :
    FiniteStep format s event t := by
  unfold next at h
  split at h
  · rename_i hfinite
    refine ⟨h, ?_⟩
    rintro prepared ⟨id, writer, rfl, hw, hphase, -, -⟩
    simp only [finite, hw, Option.map_some, hphase, decide_eq_true_eq] at hfinite
    have hsound : IsFinite 0 := by decide
    exact ⟨hfinite, hsound⟩
  · cases h

/-- The system behind some events. -/
def after (events : List (StoreEvent UInt32)) (s : ProfileSystem UInt32) : ProfileSystem UInt32 :=
  (events.foldlM (ProfileSystem.next format) s).getD s

/-- A directory with one revision. -/
def lone : ProfileSystem UInt32 where
  directory := ⟨AList.insert 1 [0, 5, 0, 0, 0, 10] ∅, none, ∅⟩
  sequences _ := 0
  writers := ∅
  history := []

/-- A transaction sets the volume to infinity, and behind it another one adds to the volume it finds. -/
def infinite : List (StoreEvent UInt32) :=
  .begin 0 0 (fun _ _ _ => some 0x7f800000) :: List.replicate 9 (.run 0) ++
    .begin 1 1 (fun _ volume _ => some (volume + 1)) :: List.replicate 10 (.run 1)

end LinearAux

end P5136
