import P5136.Profile.Directory

/-!
# What keeps a stale writer from publishing

A writer that found its head unchanged may be overtaken before it links its revision. Whoever publishes the revision behind the
one that overtook it has cleaned up first: it removed every temporary file whose revision exists, the stale writer's among them.
So a writer that still has its temporary file is at most one revision behind, and that revision is in its way.
-/

namespace P5136

namespace StorePhase

variable {P : Type}

/-- The revision that a writer holds a temporary file for. -/
def held : StorePhase P → Option (PreparedRevision P)
  | .listing (.save prepared) => some prepared
  | .cleaning (.save prepared) _ => some prepared
  | .removing (.save prepared) _ _ => some prepared
  | .compacting prepared _ => some prepared
  | _ => none

/-- The temporary files that a writer about to save has yet to inspect. -/
def uncleaned : StorePhase P → Option (PreparedRevision P × List TemporaryName)
  | .cleaning (.save prepared) remaining => some (prepared, remaining)
  | .removing (.save prepared) name remaining => some (prepared, name :: remaining)
  | .compacting prepared _ => some (prepared, [])
  | _ => none

/-- The revision of a writer that found its head unchanged. -/
def checked : StorePhase P → Option (PreparedRevision P)
  | .compacting prepared _ => some prepared
  | _ => none

end StorePhase

namespace ProfileStore

variable {P : Type} {format : ProfileFormat P}

/-- A head that was overtaken by a valid revision. -/
def Behind (format : ProfileFormat P) (directory : ProfileDirectory) (head : Option Nat) : Prop :=
  ∃ h profile, headRevision directory = some h ∧ validAt format directory h = some profile ∧ ∀ e, head = some e → e < h

/-- A snapshot of the newest valid revision, or of what there is without one. -/
def Sourced (format : ProfileFormat P) (directory : ProfileDirectory) (snapshot : ProfileSnapshot P) : Prop :=
  match snapshot.revision with
  | some revision => newestValid format directory = some (revision, snapshot.profile)
  | none => newestValid format directory = none ∧
    (snapshot.profile = format.default ∨ ∃ bytes, directory.legacy = some bytes ∧ readProfile format bytes = some snapshot.profile)

/-- A snapshot that is current or was overtaken. -/
def Fits (format : ProfileFormat P) (directory : ProfileDirectory) (snapshot : ProfileSnapshot P) : Prop :=
  Behind format directory snapshot.headRevision ∨
    snapshot.headRevision = headRevision directory ∧ Sourced format directory snapshot

/-- A reading that has all valid revisions before it, or was overtaken. -/
def Reads (format : ProfileFormat P) (directory : ProfileDirectory) (head : Option Nat) (remaining : List Nat) : Prop :=
  Behind format directory head ∨ head = headRevision directory ∧ remaining.Pairwise (· > ·) ∧
    ∀ revision profile, validAt format directory revision = some profile → revision ∈ remaining

/-! ## Changes of the directory -/

section

variable {directory directory' : ProfileDirectory}

theorem Behind.keep {head : Option Nat} (h : Behind format directory head) (hk : Keeps format directory directory') :
    Behind format directory' head := by
  obtain ⟨e, p, he, hp, hlt⟩ := h
  exact ⟨e, p, hk.head.trans he, (hk.headValid e he).trans hp, hlt⟩

theorem Behind.grow {head : Option Nat} (h : Behind format directory head) {revision : Nat} {profile : P}
    (hg : Grows format directory directory' revision profile) : Behind format directory' head := by
  obtain ⟨e, p, he, -, hlt⟩ := h
  exact ⟨revision, profile, hg.head, hg.valid, fun e' he' => Nat.lt_trans (hlt e' he') (hg.greater e he)⟩

/-- A head is overtaken by the revision that is published behind it. -/
theorem Grows.behind {revision : Nat} {profile : P} (hg : Grows format directory directory' revision profile) {head : Option Nat}
    (h : head = headRevision directory) : Behind format directory' head :=
  ⟨revision, profile, hg.head, hg.valid, fun e he => hg.greater e (h ▸ he)⟩

/-- A head that was overtaken is not the head. -/
theorem Behind.ne {head : Option Nat} (h : Behind format directory head) : headRevision directory ≠ head := by
  obtain ⟨e, p, he, -, hlt⟩ := h
  intro heq
  have := hlt e (heq ▸ he)
  omega

theorem Sourced.keep {snapshot : ProfileSnapshot P} (h : Sourced format directory snapshot)
    (hk : Keeps format directory directory') : Sourced format directory' snapshot := by
  unfold Sourced at h ⊢
  rw [hk.newest, hk.legacy]
  exact h

theorem Fits.keep {snapshot : ProfileSnapshot P} (h : Fits format directory snapshot) (hk : Keeps format directory directory') :
    Fits format directory' snapshot :=
  h.imp (fun h => h.keep hk) (fun h => ⟨h.1.trans hk.head.symm, h.2.keep hk⟩)

theorem Fits.grow {snapshot : ProfileSnapshot P} (h : Fits format directory snapshot) {revision : Nat} {profile : P}
    (hg : Grows format directory directory' revision profile) : Fits format directory' snapshot :=
  .inl (h.elim (fun h => h.grow hg) (fun h => hg.behind h.1))

theorem Reads.keep {head : Option Nat} {remaining : List Nat} (h : Reads format directory head remaining)
    (hk : Keeps format directory directory') : Reads format directory' head remaining :=
  h.imp (fun h => h.keep hk)
    (fun h => ⟨h.1.trans hk.head.symm, h.2.1, fun r p hr => h.2.2 r p (hk.valid r p hr)⟩)

theorem Reads.grow {head : Option Nat} {remaining : List Nat} (h : Reads format directory head remaining) {revision : Nat}
    {profile : P} (hg : Grows format directory directory' revision profile) : Reads format directory' head remaining :=
  .inl (h.elim (fun h => h.grow hg) (fun h => hg.behind h.1))

end

/-! ## Writers -/

/-- What holds of a prepared revision: its snapshot fits, its number is the next one, its profile is what the transaction made of
the snapshot, and its temporary file holds it while it is there. -/
structure Prepares (format : ProfileFormat P) (s : ProfileSystem P) (writer : StoreWriter P) (prepared : PreparedRevision P) :
    Prop where
  fits : Fits format s.directory prepared.snapshot
  next : nextRevision prepared.snapshot.headRevision = some prepared.revision
  computed : writer.transaction writer.attempt prepared.snapshot.profile prepared.snapshot.revision = some prepared.profile
  destination : prepared.temporary.destination = prepared.revision
  process : prepared.temporary.process = writer.process
  sequence : prepared.temporary.sequence < s.sequences writer.process
  bytes : ∀ bytes, s.directory.temporaries.lookup prepared.temporary = some bytes → revisionBytes format prepared.profile = some bytes

/-- What holds of a writer that removes old revisions: while it has its temporary file, the head is the one it found or its own
revision, and it removes neither its source nor its head. -/
structure Compacts (s : ProfileSystem P) (prepared : PreparedRevision P) (remaining : List Nat) : Prop where
  checked : s.directory.temporaries.lookup prepared.temporary ≠ none →
    headRevision s.directory = prepared.snapshot.headRevision ∨ headRevision s.directory = some prepared.revision
  older : ∀ revision ∈ remaining, (∃ h, prepared.snapshot.headRevision = some h ∧ revision < h) ∧
    some revision ≠ prepared.snapshot.revision

/-- A writer is noted as the publisher of a revision. -/
def Noted (s : ProfileSystem P) (id : Nat) (revision : Nat) (profile : P) : Prop :=
  ∃ publication ∈ s.history, publication.writer = id ∧ publication.revision = revision ∧ publication.profile = profile

/-- What holds of a writer in its phase. -/
structure PhaseSound (format : ProfileFormat P) (s : ProfileSystem P) (id : Nat) (writer : StoreWriter P) : Prop where
  held : ∀ prepared, writer.phase.held = some prepared → Prepares format s writer prepared
  reading : ∀ head remaining, writer.phase = .reading head remaining → Reads format s.directory head remaining
  loaded : ∀ snapshot, writer.phase = .loaded snapshot → Fits format s.directory snapshot
  compacting : ∀ prepared remaining, writer.phase = .compacting prepared remaining → Compacts s prepared remaining
  published : ∀ prepared, writer.phase = .published prepared → Noted s id prepared.revision prepared.profile
  committed : ∀ revision profile, writer.phase = .finished (.committed revision profile) → Noted s id revision profile

/-- A writer that holds a current head has inspected, or will inspect, every temporary file of a writer that was overtaken by that
head. -/
def Fenced (s : ProfileSystem P) (phase phase' : StorePhase P) : Prop :=
  ∀ prepared remaining prepared', phase.uncleaned = some (prepared, remaining) → phase'.checked = some prepared' →
    headRevision s.directory = prepared.snapshot.headRevision → headRevision s.directory = some prepared'.revision →
      s.directory.temporaries.lookup prepared'.temporary ≠ none → prepared'.temporary ∈ remaining

/-- A publication was computed by its writer's transaction from the newest valid revision at that moment. -/
def Computed (format : ProfileFormat P) (s : ProfileSystem P) (publication : Publication P) : Prop :=
  ∃ writer, s.writers.lookup publication.writer = some writer ∧ match publication.newest with
    | some (revision, profile) => writer.transaction publication.attempt profile (some revision) = some publication.profile
    | none => ∃ profile, (profile = format.default ∨
        ∃ bytes, s.directory.legacy = some bytes ∧ readProfile format bytes = some profile) ∧
      writer.transaction publication.attempt profile none = some publication.profile

/-- The invariant of the store among its writers, from a directory it began with. -/
structure Inv (format : ProfileFormat P) (initial : ProfileDirectory) (s : ProfileSystem P) : Prop where
  phases : ∀ id writer, s.writers.lookup id = some writer → PhaseSound format s id writer
  names : ∀ id id' writer writer' prepared prepared', s.writers.lookup id = some writer → s.writers.lookup id' = some writer' →
    writer.phase.held = some prepared → writer'.phase.held = some prepared' → prepared.temporary = prepared'.temporary → id = id'
  fenced : ∀ id id' writer writer', s.writers.lookup id = some writer → s.writers.lookup id' = some writer' →
    Fenced s writer.phase writer'.phase
  computed : ∀ publication ∈ s.history, Computed format s publication
  chain : s.history.IsChain (fun older newer =>
    newer.newest = some (older.revision, format.reread older.profile) ∧ older.revision < newer.revision)
  last : ∀ publication, s.history.getLast? = some publication → headRevision s.directory = some publication.revision ∧
    validAt format s.directory publication.revision = some (format.reread publication.profile)
  fresh : ∀ publication ∈ s.history, ∀ revision bytes, initial.revisions.lookup revision = some bytes → revision < publication.revision
  begun : ∀ revision bytes, initial.revisions.lookup revision = some bytes →
    ∃ h, headRevision s.directory = some h ∧ revision ≤ h
  files : ∀ revision bytes, s.directory.revisions.lookup revision = some bytes → initial.revisions.lookup revision = some bytes ∨
    ∃ publication ∈ s.history, publication.revision = revision ∧ revisionBytes format publication.profile = some bytes

/-! ## Steps that publish nothing -/

section

variable {initial : ProfileDirectory} {s t : ProfileSystem P}

/-- Another phase of a writer has the same prepared revision. -/
theorem Prepares.at {writer : StoreWriter P} {prepared : PreparedRevision P} (h : Prepares format s writer prepared)
    (phase : StorePhase P) : Prepares format s { writer with phase := phase } prepared :=
  ⟨h.fits, h.next, h.computed, h.destination, h.process, h.sequence, h.bytes⟩

theorem Prepares.keep {writer : StoreWriter P} {prepared : PreparedRevision P} (h : Prepares format s writer prepared)
    (hk : Keeps format s.directory t.directory) (hsequences : ∀ process, s.sequences process ≤ t.sequences process)
    (htemporary : ∀ bytes, t.directory.temporaries.lookup prepared.temporary = some bytes →
      s.directory.temporaries.lookup prepared.temporary = some bytes) : Prepares format t writer prepared where
  fits := h.fits.keep hk
  next := h.next
  computed := h.computed
  destination := h.destination
  process := h.process
  sequence := Nat.lt_of_lt_of_le h.sequence (hsequences _)
  bytes bytes hb := h.bytes bytes (htemporary bytes hb)

/-- A file that is there was there before. -/
theorem lookup_ne_none_of {name : TemporaryName} {m m' : FiniteMap TemporaryName (List UInt8)}
    (h : ∀ bytes, m'.lookup name = some bytes → m.lookup name = some bytes) (hne : m'.lookup name ≠ none) : m.lookup name ≠ none := by
  obtain ⟨bytes, hbytes⟩ := Option.ne_none_iff_exists'.1 hne
  rw [h bytes hbytes]
  exact nofun

theorem Compacts.keep {prepared : PreparedRevision P} {remaining : List Nat} (h : Compacts s prepared remaining)
    (hk : Keeps format s.directory t.directory)
    (htemporary : ∀ bytes, t.directory.temporaries.lookup prepared.temporary = some bytes →
      s.directory.temporaries.lookup prepared.temporary = some bytes) : Compacts t prepared remaining where
  checked hne := by
    rw [hk.head]
    exact h.checked (lookup_ne_none_of htemporary hne)
  older := h.older

theorem Fenced.keep {phase phase' : StorePhase P} (h : Fenced s phase phase') (hk : Keeps format s.directory t.directory)
    (htemporary : ∀ prepared, phase'.checked = some prepared → ∀ bytes,
      t.directory.temporaries.lookup prepared.temporary = some bytes →
        s.directory.temporaries.lookup prepared.temporary = some bytes) : Fenced t phase phase' := by
  intro prepared remaining prepared' hp hp' hhead hhead' hne
  rw [hk.head] at hhead hhead'
  exact h prepared remaining prepared' hp hp' hhead hhead' (lookup_ne_none_of (htemporary prepared' hp') hne)

/-- The revision of a writer that found its head unchanged is one it holds. -/
theorem held_of_checked {phase : StorePhase P} {prepared : PreparedRevision P} (h : phase.checked = some prepared) :
    phase.held = some prepared := by
  cases phase <;> cases h
  rfl

/-- A next revision is behind its head. -/
theorem lt_nextRevision {head : Option Nat} {revision : Nat} (h : nextRevision head = some revision) {e : Nat} (he : head = some e) :
    revision = e + 1 := by
  subst he
  simp only [nextRevision] at h
  split at h
  · cases h
    rfl
  · cases h

/-- A writer is not fenced from itself. -/
theorem fenced_self {writer : StoreWriter P} (h : ∀ prepared, writer.phase.held = some prepared → Prepares format s writer prepared) :
    Fenced s writer.phase writer.phase := by
  intro prepared remaining prepared' hp hp' hhead hhead' _
  have heq : prepared = prepared' := by
    cases hphase : writer.phase with
    | compacting p r =>
      rw [hphase] at hp hp'
      cases hp
      cases hp'
      rfl
    | _ =>
      rw [hphase] at hp'
      cases hp'
  subst heq
  have hnext := lt_nextRevision (h prepared (held_of_checked hp')).next (hhead.symm.trans hhead')
  omega

/-- What a step of one writer that publishes nothing must not change, and what the writer must be afterwards. -/
structure Quiet (format : ProfileFormat P) (s : ProfileSystem P) (id : Nat) (writer : StoreWriter P) (t : ProfileSystem P) : Prop where
  writers : t.writers = s.writers.insert id writer
  keeps : Keeps format s.directory t.directory
  history : t.history = s.history
  sequences : ∀ process, s.sequences process ≤ t.sequences process
  temporaries : ∀ id' writer' prepared, id' ≠ id → s.writers.lookup id' = some writer' → writer'.phase.held = some prepared →
    ∀ bytes, t.directory.temporaries.lookup prepared.temporary = some bytes →
      s.directory.temporaries.lookup prepared.temporary = some bytes
  files : ∀ revision bytes, t.directory.revisions.lookup revision = some bytes → s.directory.revisions.lookup revision = some bytes
  transaction : ∀ old, s.writers.lookup id = some old → writer.transaction = old.transaction
  sound : PhaseSound format t id writer
  names : ∀ prepared, writer.phase.held = some prepared → (∃ old, s.writers.lookup id = some old ∧ old.phase.held = some prepared) ∨
    ∀ id' writer' prepared', id' ≠ id → s.writers.lookup id' = some writer' → writer'.phase.held = some prepared' →
      prepared'.temporary ≠ prepared.temporary
  fenced : ∀ id' writer', id' ≠ id → s.writers.lookup id' = some writer' → Fenced t writer.phase writer'.phase
  fencedBy : ∀ id' writer', id' ≠ id → s.writers.lookup id' = some writer' → Fenced t writer'.phase writer.phase

/-- A writer other than the one that stepped is what it was. -/
theorem Quiet.lookup {id : Nat} {writer : StoreWriter P} (hq : Quiet format s id writer t) {id' : Nat} {writer' : StoreWriter P}
    (h : t.writers.lookup id' = some writer') : id' = id ∧ writer' = writer ∨ id' ≠ id ∧ s.writers.lookup id' = some writer' := by
  rw [hq.writers, FiniteMap.lookup_insert] at h
  split at h
  · rename_i heq
    exact .inl ⟨heq, (Option.some.inj h).symm⟩
  · rename_i hne
    exact .inr ⟨hne, h⟩

/-- A quiet step keeps the invariant. -/
theorem Inv.quiet (hI : Inv format initial s) (id : Nat) (writer : StoreWriter P) (hq : Quiet format s id writer t) :
    Inv format initial t where
  phases id' writer' h := by
    obtain ⟨rfl, rfl⟩ | ⟨hne, h⟩ := hq.lookup h
    · exact hq.sound
    · have hsound := hI.phases id' writer' h
      have hheld := hq.temporaries id' writer'
      refine ⟨fun p hp => (hsound.held p hp).keep hq.keeps hq.sequences (hheld p hne h hp), fun head remaining hp => ?_,
        fun snapshot hp => (hsound.loaded snapshot hp).keep hq.keeps, fun p remaining hp => ?_, ?_, ?_⟩
      · exact (hsound.reading head remaining hp).keep hq.keeps
      · exact (hsound.compacting p remaining hp).keep hq.keeps (hheld p hne h (by rw [hp]; rfl))
      · unfold Noted
        rw [hq.history]
        exact hsound.published
      · unfold Noted
        rw [hq.history]
        exact hsound.committed
  names id₁ id₂ w₁ w₂ p₁ p₂ h₁ h₂ hp₁ hp₂ hname := by
    obtain ⟨rfl, rfl⟩ | ⟨hne₁, h₁⟩ := hq.lookup h₁ <;> obtain ⟨rfl, rfl⟩ | ⟨hne₂, h₂⟩ := hq.lookup h₂
    · rfl
    · obtain ⟨old, hold, hheld⟩ | hnew := hq.names p₁ hp₁
      · exact hI.names _ _ _ _ _ _ hold h₂ hheld hp₂ hname
      · exact absurd hname.symm (hnew id₂ w₂ p₂ hne₂ h₂ hp₂)
    · obtain ⟨old, hold, hheld⟩ | hnew := hq.names p₂ hp₂
      · exact hI.names _ _ _ _ _ _ h₁ hold hp₁ hheld hname
      · exact absurd hname (hnew id₁ w₁ p₁ hne₁ h₁ hp₁)
    · exact hI.names _ _ _ _ _ _ h₁ h₂ hp₁ hp₂ hname
  fenced id₁ id₂ w₁ w₂ h₁ h₂ := by
    obtain ⟨rfl, rfl⟩ | ⟨hne₁, h₁⟩ := hq.lookup h₁ <;> obtain ⟨rfl, rfl⟩ | ⟨hne₂, h₂⟩ := hq.lookup h₂
    · exact fenced_self hq.sound.held
    · exact hq.fenced id₂ w₂ hne₂ h₂
    · exact hq.fencedBy id₁ w₁ hne₁ h₁
    · exact (hI.fenced _ _ _ _ h₁ h₂).keep hq.keeps
        (fun p hp => hq.temporaries id₂ w₂ p hne₂ h₂ (held_of_checked hp))
  computed publication hmem := by
    rw [hq.history] at hmem
    obtain ⟨w, hw, hcomputed⟩ := hI.computed publication hmem
    by_cases heq : publication.writer = id
    · refine ⟨writer, by rw [hq.writers, FiniteMap.lookup_insert, if_pos heq], ?_⟩
      rw [hq.transaction w (heq ▸ hw), hq.keeps.legacy]
      exact hcomputed
    · refine ⟨w, by rw [hq.writers, FiniteMap.lookup_insert, if_neg heq, hw], ?_⟩
      rw [hq.keeps.legacy]
      exact hcomputed
  chain := hq.history ▸ hI.chain
  last publication hlast := by
    rw [hq.history] at hlast
    obtain ⟨hhead, hvalid⟩ := hI.last publication hlast
    exact ⟨hq.keeps.head.trans hhead, (hq.keeps.headValid _ hhead).trans hvalid⟩
  fresh := hq.history ▸ hI.fresh
  begun revision bytes hr := by
    rw [hq.keeps.head]
    exact hI.begun revision bytes hr
  files revision bytes hr := by
    rw [hq.history]
    exact hI.files revision bytes (hq.files revision bytes hr)

end

end ProfileStore

end P5136
