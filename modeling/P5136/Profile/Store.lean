import Mathlib.Algebra.Ring.Int.Defs
import Mathlib.Algebra.Ring.Nat
import Mathlib.Data.List.Sort
import P5136.Lib.FiniteMap
import P5136.Lib.Transition

/-!
# The profile store

One profile directory with its numbered revisions, and the writers that run transactions and saves on it from any number of store
instances and processes. An operation on a file is one step: listing, creating a temporary file, linking it to a revision that
does not exist, reading and removing a file. A writer may stop or fail between any two of them. How profiles are spelled is a
parameter.
-/

namespace P5136

/-- Whether an `f32` is finite, from its bits. -/
def IsFinite (bits : UInt32) : Prop := bits &&& 0x7f800000 ≠ 0x7f800000

instance (bits : UInt32) : Decidable (IsFinite bits) := inferInstanceAs (Decidable (_ ≠ _))

/-- How profiles are written and read, and the limit of their files. -/
structure ProfileFormat (P : Type) where
  /-- `to_vec_pretty`. -/
  toVecPretty : P → Except String (List UInt8)
  /-- `from_slice`. -/
  fromSlice : List UInt8 → Except String P
  maximumBytes : Nat
  /-- `Profile::default`. -/
  default : P
  /-- The bits of the volumes of the game options: `bgm_volume` and `sound_volume`. -/
  volumes : P → UInt32 × UInt32
  /-- What a profile is read back as: itself, but for the last digits of fractions in fields that it does not know. -/
  reread : P → P
  /-- What was written is read back, with a newline behind it, when both volumes are finite: others are written as `null`. -/
  fromSlice_toVecPretty : ∀ profile bytes, IsFinite (volumes profile).1 → IsFinite (volumes profile).2 →
    toVecPretty profile = .ok bytes → fromSlice (bytes ++ [10]) = .ok (reread profile)

/-- The name of a temporary file: the revision it is for, the process that made it and the sequence number there. -/
structure TemporaryName where
  destination : Nat
  process : Nat
  sequence : Nat
deriving DecidableEq

/-- A profile directory: its revisions, the legacy file, and the temporary files. -/
structure ProfileDirectory where
  revisions : FiniteMap Nat (List UInt8)
  legacy : Option (List UInt8)
  temporaries : FiniteMap TemporaryName (List UInt8)

/-- `DiskProfileSnapshot`. -/
structure ProfileSnapshot (P : Type) where
  profile : P
  revision : Option Nat
  headRevision : Option Nat

/-- A revision on its way: what it was computed from, and the temporary file that holds it. -/
structure PreparedRevision (P : Type) where
  snapshot : ProfileSnapshot P
  profile : P
  revision : Nat
  temporary : TemporaryName

/-- What a listing of the directory is for: to load a snapshot, or to save a revision. -/
inductive ListingGoal (P : Type) where
  | load
  | save (prepared : PreparedRevision P)

/-- How a transaction ends. -/
inductive StoreOutcome (P : Type) where
  | unchanged
  | committed (revision : Nat) (profile : P)
  | contention
  | failed
  | stopped

/-- What a writer does next: list the temporary files, look whether the revision of the next one exists, remove one, read the next
revision, run its transaction, remove the next old revision or link its own, and remove its temporary file. -/
inductive StorePhase (P : Type) where
  | listing (goal : ListingGoal P)
  | cleaning (goal : ListingGoal P) (remaining : List TemporaryName)
  | removing (goal : ListingGoal P) (name : TemporaryName) (remaining : List TemporaryName)
  | reading (headRevision : Option Nat) (remaining : List Nat)
  | loaded (snapshot : ProfileSnapshot P)
  | compacting (prepared : PreparedRevision P) (remaining : List Nat)
  | discarding (name : TemporaryName) (retry : Bool)
  | published (prepared : PreparedRevision P)
  | finished (outcome : StoreOutcome P)

/-- A writer: its process, what it wants to write from a profile and its revision in an attempt, the attempts it has made, and
what it does next. -/
structure StoreWriter (P : Type) where
  process : Nat
  transaction : Nat → P → Option Nat → Option P
  attempt : Nat
  phase : StorePhase P

/-- A publication as an observer notes it, with the newest valid revision at that moment. -/
structure Publication (P : Type) where
  writer : Nat
  attempt : Nat
  newest : Option (Nat × P)
  revision : Nat
  profile : P

/-- The directory among its writers, the sequence numbers of the processes, and the publications so far. -/
structure ProfileSystem (P : Type) where
  directory : ProfileDirectory
  sequences : Nat → Nat
  writers : FiniteMap Nat (StoreWriter P)
  history : List (Publication P)

/-- A writer begins, takes its next step, takes it without removing its temporary file, fails, or stops; or a process uses a
sequence number elsewhere. -/
inductive StoreEvent (P : Type) where
  | begin (writer process : Nat) (transaction : Nat → P → Option Nat → Option P)
  | run (writer : Nat)
  | leave (writer : Nat)
  | fail (writer : Nat)
  | stop (writer : Nat)
  | elsewhere (process : Nat)

namespace ProfileStore

/-- `MAX_TRANSACTION_CAS_ATTEMPTS` and `MAX_SAVE_CAS_ATTEMPTS`. -/
def maxCasAttempts : Nat := 16

/-- `PROFILE_REVISION_RETENTION`. -/
def profileRevisionRetention : Nat := 64

section

variable {P : Type}

/-- Both volumes of a profile are finite. -/
def FiniteVolumes (format : ProfileFormat P) (profile : P) : Prop :=
  IsFinite (format.volumes profile).1 ∧ IsFinite (format.volumes profile).2

/-- `read_profile`, of the bytes of a revision: nothing when they are too many or no profile. -/
def readProfile (format : ProfileFormat P) (bytes : List UInt8) : Option P :=
  if bytes.length > format.maximumBytes then none
  else match format.fromSlice bytes with
    | .ok profile => some profile
    | .error _ => none

/-- The bytes that `save_compare_and_swap_locked` writes, when they are not too many. -/
def revisionBytes (format : ProfileFormat P) (profile : P) : Option (List UInt8) :=
  match format.toVecPretty profile with
  | .ok bytes => if (bytes ++ [10]).length > format.maximumBytes then none else some (bytes ++ [10])
  | .error _ => none

/-- The profile of a revision, when it is valid. -/
def validAt (format : ProfileFormat P) (directory : ProfileDirectory) (revision : Nat) : Option P :=
  (directory.revisions.lookup revision).bind (readProfile format)

def revisionsDescending (directory : ProfileDirectory) : List Nat :=
  directory.revisions.keys.insertionSort (· ≥ ·)

/-- The greatest revision. -/
def headRevision (directory : ProfileDirectory) : Option Nat := (revisionsDescending directory).head?

/-- The newest valid revision. -/
def newestValid (format : ProfileFormat P) (directory : ProfileDirectory) : Option (Nat × P) :=
  (revisionsDescending directory).findSome? (fun revision => (validAt format directory revision).map (Prod.mk revision))

/-- The revision behind a head. -/
def nextRevision (head : Option Nat) : Option Nat :=
  match head with
  | some revision => if revision + 1 < 2 ^ 64 then some (revision + 1) else none
  | none => some 1

/-- How many of the newest revisions `precompact_profile_revisions` keeps. -/
def newestSlots (revisions : List Nat) (protectedSource : Option Nat) : Nat :=
  let oldRevisionSlots := profileRevisionRetention - 1
  match protectedSource with
  | some revision =>
    if revision ∈ revisions ∧ oldRevisionSlots ≤ revisions.idxOf revision then oldRevisionSlots - 1 else oldRevisionSlots
  | none => oldRevisionSlots

/-- The revisions that `precompact_profile_revisions` removes, in order. -/
def precompactProfileRevisions (revisions : List Nat) (protectedSource : Option Nat) : List Nat :=
  (revisions.drop (newestSlots revisions protectedSource)).filter (fun revision => some revision ≠ protectedSource)

/-- The writer behind a removed temporary file: another attempt, when one is left, or the end. -/
def afterDiscarding (writer : StoreWriter P) (retry : Bool) : StoreWriter P :=
  if retry = true then
    if writer.attempt + 1 < maxCasAttempts then { writer with attempt := writer.attempt + 1, phase := .listing .load }
    else { writer with phase := .finished .contention }
  else { writer with phase := .finished .failed }

end

end ProfileStore

namespace ProfileSystem

open ProfileStore

variable {P : Type}

/-- The system with a writer changed. -/
def setWriter (s : ProfileSystem P) (id : Nat) (writer : StoreWriter P) : ProfileSystem P :=
  { s with writers := s.writers.insert id writer }

/-- The system with a writer that goes on with something else. -/
def goto (s : ProfileSystem P) (id : Nat) (writer : StoreWriter P) (phase : StorePhase P) : ProfileSystem P :=
  s.setWriter id { writer with phase := phase }

/-- Inspect the next revision while loading. -/
def read (format : ProfileFormat P) (s : ProfileSystem P) (id : Nat) (writer : StoreWriter P) (head : Option Nat) :
    List Nat → ProfileSystem P
  | revision :: rest =>
    match s.directory.revisions.lookup revision with
    | some bytes =>
      match readProfile format bytes with
      | some profile => s.goto id writer (.loaded ⟨profile, some revision, head⟩)
      | none => s.goto id writer (.reading head rest)
    | none => s.goto id writer (.finished .failed)
  | [] =>
    match s.directory.legacy with
    | some bytes =>
      match readProfile format bytes with
      | some profile => s.goto id writer (.loaded ⟨profile, none, head⟩)
      | none => s.goto id writer (.finished .failed)
    | none =>
      -- the corruption of the revisions is reported when there is nothing else
      if head = none then s.goto id writer (.loaded ⟨format.default, none, none⟩) else s.goto id writer (.finished .failed)

/-- Run the transaction on a snapshot, and write what it makes of it to a temporary file. -/
def prepare (format : ProfileFormat P) (s : ProfileSystem P) (id : Nat) (writer : StoreWriter P) (snapshot : ProfileSnapshot P) :
    ProfileSystem P :=
  match writer.transaction writer.attempt snapshot.profile snapshot.revision with
  | none => s.goto id writer (.finished .unchanged)
  | some profile =>
    match nextRevision snapshot.headRevision, revisionBytes format profile with
    | some revision, some bytes =>
      let name : TemporaryName := ⟨revision, writer.process, s.sequences writer.process⟩
      let sequences := fun process => if process = writer.process then s.sequences process + 1 else s.sequences process
      match s.directory.temporaries.lookup name with
      | some _ => { s with sequences := sequences }
      | none =>
        { s with
          directory := { s.directory with temporaries := s.directory.temporaries.insert name bytes }
          sequences := sequences
          writers := s.writers.insert id { writer with phase := .listing (.save ⟨snapshot, profile, revision, name⟩) } }
    | _, _ => s.goto id writer (.finished .failed)

/-- List the revisions behind a cleanup: to read them, or to compare the head. -/
def list (s : ProfileSystem P) (id : Nat) (writer : StoreWriter P) : ListingGoal P → ProfileSystem P
  | .load => s.goto id writer (.reading (headRevision s.directory) (revisionsDescending s.directory))
  | .save prepared =>
    if headRevision s.directory = prepared.snapshot.headRevision then
      s.goto id writer
        (.compacting prepared (precompactProfileRevisions (revisionsDescending s.directory) prepared.snapshot.revision))
    else s.goto id writer (.discarding prepared.temporary true)

/-- `publish_new_file`: link the temporary file, when the revision does not exist. -/
def link (format : ProfileFormat P) (s : ProfileSystem P) (id : Nat) (writer : StoreWriter P) (prepared : PreparedRevision P) :
    ProfileSystem P :=
  match s.directory.revisions.lookup prepared.revision with
  | some _ => s.goto id writer (.discarding prepared.temporary true)
  | none =>
    match s.directory.temporaries.lookup prepared.temporary with
    | none => s.goto id writer (.discarding prepared.temporary false)
    | some bytes =>
      { s with
        directory := { s.directory with revisions := s.directory.revisions.insert prepared.revision bytes }
        writers := s.writers.insert id { writer with phase := .published prepared }
        history := s.history ++
          [⟨id, writer.attempt, newestValid format s.directory, prepared.revision, prepared.profile⟩] }

/-- The system without a temporary file. -/
def removeTemporary (s : ProfileSystem P) (name : TemporaryName) : ProfileSystem P :=
  { s with directory := { s.directory with temporaries := s.directory.temporaries.erase name } }

/-- The next step of a writer. -/
def advance (format : ProfileFormat P) (s : ProfileSystem P) (id : Nat) (writer : StoreWriter P) : Option (ProfileSystem P) :=
  match writer.phase with
  | .listing goal => some (s.goto id writer (.cleaning goal s.directory.temporaries.keys))
  | .cleaning goal (name :: rest) =>
    if s.directory.revisions.lookup name.destination = none then some (s.goto id writer (.cleaning goal rest))
    else some (s.goto id writer (.removing goal name rest))
  | .removing goal name rest => some ((s.removeTemporary name).goto id writer (.cleaning goal rest))
  | .cleaning goal [] => some (s.list id writer goal)
  | .reading head remaining => some (s.read format id writer head remaining)
  | .loaded snapshot => some (s.prepare format id writer snapshot)
  | .compacting prepared (revision :: rest) =>
    some (({ s with directory := { s.directory with revisions := s.directory.revisions.erase revision } } :
      ProfileSystem P).goto id writer (.compacting prepared rest))
  | .compacting prepared [] => some (s.link format id writer prepared)
  | .discarding name retry => some ((s.removeTemporary name).setWriter id (afterDiscarding writer retry))
  | .published prepared =>
    some ((s.removeTemporary prepared.temporary).goto id writer (.finished (.committed prepared.revision prepared.profile)))
  | .finished _ => none

/-- What a writer does when an operation fails: it ends, and removes its temporary file first when it has listed the revisions. -/
def failed (s : ProfileSystem P) (id : Nat) (writer : StoreWriter P) : Option (ProfileSystem P) :=
  match writer.phase with
  | .compacting prepared _ => some (s.goto id writer (.discarding prepared.temporary false))
  | .discarding _ _ => none
  | .published _ => none
  | .finished _ => none
  | _ => some (s.goto id writer (.finished .failed))

/-- What a writer does when its temporary file cannot be removed: it goes on. -/
def left (s : ProfileSystem P) (id : Nat) (writer : StoreWriter P) : Option (ProfileSystem P) :=
  match writer.phase with
  | .discarding _ retry => some (s.setWriter id (afterDiscarding writer retry))
  | .published prepared => some (s.goto id writer (.finished (.committed prepared.revision prepared.profile)))
  | _ => none

/-- What an event makes of the system. -/
def next (format : ProfileFormat P) (s : ProfileSystem P) : StoreEvent P → Option (ProfileSystem P)
  | .begin id process transaction =>
    if s.writers.lookup id = none then some (s.setWriter id ⟨process, transaction, 0, .listing .load⟩) else none
  | .run id => (s.writers.lookup id).bind (fun writer => s.advance format id writer)
  | .leave id => (s.writers.lookup id).bind (fun writer => s.left id writer)
  | .fail id => (s.writers.lookup id).bind (fun writer => s.failed id writer)
  | .stop id => (s.writers.lookup id).bind (fun writer => match writer.phase with
    | .finished _ => none
    | _ => some (s.goto id writer (.finished .stopped)))
  | .elsewhere process => some { s with sequences := fun p => if p = process then s.sequences p + 1 else s.sequences p }

/-- A step of the system. -/
def Step (format : ProfileFormat P) (s : ProfileSystem P) (event : StoreEvent P) (t : ProfileSystem P) : Prop :=
  s.next format event = some t

/-- A step links a revision that does not exist. -/
def Publishes (s : ProfileSystem P) (event : StoreEvent P) (prepared : PreparedRevision P) : Prop :=
  ∃ id writer, event = .run id ∧ s.writers.lookup id = some writer ∧ writer.phase = .compacting prepared [] ∧
    s.directory.revisions.lookup prepared.revision = none ∧ s.directory.temporaries.lookup prepared.temporary ≠ none

/-- A step of the system that publishes finite volumes only. -/
def FiniteStep (format : ProfileFormat P) (s : ProfileSystem P) (event : StoreEvent P) (t : ProfileSystem P) : Prop :=
  s.Step format event t ∧ ∀ prepared, s.Publishes event prepared → FiniteVolumes format prepared.profile

/-- A system before any writer began: any directory, with whatever revisions and temporary files there are. -/
def Initial (s : ProfileSystem P) : Prop := s.writers = ∅ ∧ s.history = []

end ProfileSystem

end P5136
