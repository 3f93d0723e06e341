import P5136.Accounts.Store
import P5136.Lib.Transition

/-!
# Concurrent registrations

Any number of registrations and authentications on one store, interleaved where they wait for the mutex: a registration checks
its names, inserts its record and writes the file in three steps. A registration whose names were taken since its check inserts
a second account all the same, and one whose file cannot be written leaves its account in the table. These are the only ways to
break what the store is for.
-/

namespace P5136

open FiniteMap Transition

/-- How far a registration has come. -/
inductive RegisterCall where
  | checked (username nickname password : String)
  | inserted (record : AccountRecord)
  | returned (result : Except AccountError AccountRecord)

/-- The account that a registration which has not failed has in the table. -/
def RegisterCall.record : RegisterCall → Option AccountRecord
  | checked .. => none
  | inserted record => some record
  | returned (.ok record) => some record
  | returned (.error _) => none

/-- Why the file is not written. -/
inductive PersistFailure where
  | json (error : String)
  | io (error : String)
deriving DecidableEq

/-- What a registration returns then. -/
def PersistFailure.toError : PersistFailure → AccountError
  | json error => .json error
  | io error => .io error

/-- The store with its file and the registrations so far. -/
structure AccountSystem where
  state : AccountsFile
  file : Option AccountsFile
  calls : FiniteMap Nat RegisterCall

/-- A step of a call on the store. -/
inductive AccountEvent where
  | check (id : Nat) (username password nickname : String) (registrationEnabled : Bool)
  | insert (id : Nat) (random : Vector UInt8 16) (createdUnixSeconds : Int)
  | persist (id : Nat) (failure : Option PersistFailure)
  | authenticate (username password : String)
  | findByUsername (username : String)

namespace AccountSystem

/-- `AccountStore::open`. -/
def «open» (file : Option AccountsFile) : AccountSystem := ⟨file.getD AccountsFile.default, file, ∅⟩

variable (library : AccountLibrary)

/-- What a step makes of the system, when the call is there to make it. -/
def next (s : AccountSystem) : AccountEvent → Option AccountSystem
  | .check id username password nickname registrationEnabled =>
    if s.calls.lookup id = none then
      match Accounts.checkRegistration library s.state.accounts username password nickname registrationEnabled with
      | .error e => some { s with calls := s.calls.insert id (.returned (.error e)) }
      | .ok names => some { s with calls := s.calls.insert id (.checked names.1 names.2 password) }
    else none
  | .insert id random createdUnixSeconds =>
    match s.calls.lookup id with
    | some (.checked username nickname password) =>
      let record := Accounts.newRecord library username nickname password random createdUnixSeconds
      some { s with state := ⟨s.state.accounts ++ [record]⟩, calls := s.calls.insert id (.inserted record) }
    | _ => none
  | .persist id failure =>
    match s.calls.lookup id with
    | some (.inserted record) => match failure with
      | some failure => some { s with calls := s.calls.insert id (.returned (.error failure.toError)) }
      | none => some { s with file := some s.state, calls := s.calls.insert id (.returned (.ok record)) }
    | _ => none
  | .authenticate _ _ => some s
  | .findByUsername _ => some s

/-- A step of the system. -/
def Step (s : AccountSystem) (event : AccountEvent) (t : AccountSystem) : Prop := s.next library event = some t

end AccountSystem

/-- No two accounts have one key. -/
structure Distinct (library : AccountLibrary) (accounts : List AccountRecord) : Prop where
  usernames : (accounts.map (fun a => Accounts.canonicalUsernameKey library a.username)).Nodup
  nicknames : (accounts.map (fun a => Accounts.canonicalNicknameKey library a.nickname)).Nodup

/-- Two accounts share a key. -/
def SharesKey (library : AccountLibrary) (a b : AccountRecord) : Prop :=
  Accounts.canonicalUsernameKey library a.username = Accounts.canonicalUsernameKey library b.username ∨
    Accounts.canonicalNicknameKey library a.nickname = Accounts.canonicalNicknameKey library b.nickname

namespace AccountSystem

/-- What the store is for: no key occurs twice in memory or in the file, one registration for each key succeeds at most, it is in
the file, and one that fails has nothing in the table, so that nobody authenticates by it. -/
structure Sound (library : AccountLibrary) (initial : List AccountRecord) (s : AccountSystem) : Prop where
  memory : Distinct library s.state.accounts
  file : ∀ file, s.file = some file → Distinct library file.accounts
  unique : ∀ id id' a b, s.calls.lookup id = some (.returned (.ok a)) → s.calls.lookup id' = some (.returned (.ok b)) →
    SharesKey library a b → id = id'
  persisted : ∀ id a, s.calls.lookup id = some (.returned (.ok a)) → ∃ file, s.file = some file ∧ a ∈ file.accounts
  failed : s.state.accounts.Perm (initial ++ s.calls.values.filterMap RegisterCall.record)
  authenticated : ∀ username password a, Accounts.authenticate library s.state.accounts username password = .ok a →
    a ∈ initial ∨ ∃ id call, s.calls.lookup id = some call ∧ call.record = some a

/-- The names that a registration inserts are still unused, and the file is written. -/
def Undisturbed (library : AccountLibrary) (s : AccountSystem) : AccountEvent → Prop
  | .insert id _ _ => ∀ username nickname password, s.calls.lookup id = some (.checked username nickname password) →
      ∀ a ∈ s.state.accounts, Accounts.canonicalUsernameKey library a.username ≠ Accounts.canonicalUsernameKey library username ∧
        Accounts.canonicalNicknameKey library a.nickname ≠ Accounts.canonicalNicknameKey library nickname
  | .persist _ failure => failure = none
  | _ => True

/-! ## What a step does -/

section

variable {library : AccountLibrary} {initial : List AccountRecord} {s t : AccountSystem}

/-- A check is noted, or fails at once, at a number that no call had. -/
theorem step_check {id : Nat} {username password nickname : String} {registrationEnabled : Bool}
    (h : s.Step library (.check id username password nickname registrationEnabled) t) :
    s.calls.lookup id = none ∧ ∃ call : RegisterCall, call.record = none ∧ t = { s with calls := s.calls.insert id call } := by
  simp only [Step, next] at h
  split at h
  · rename_i hnone
    refine ⟨hnone, ?_⟩
    split at h <;> cases h <;> exact ⟨_, rfl, rfl⟩
  · cases h

/-- An insertion is made by a registration that was checked. -/
theorem step_insert {id : Nat} {random : Vector UInt8 16} {seconds : Int} (h : s.Step library (.insert id random seconds) t) :
    ∃ username nickname password, s.calls.lookup id = some (.checked username nickname password) ∧
      t = { s with
        state := ⟨s.state.accounts ++ [Accounts.newRecord library username nickname password random seconds]⟩
        calls := s.calls.insert id (.inserted (Accounts.newRecord library username nickname password random seconds)) } := by
  simp only [Step, next] at h
  split at h
  · rename_i username nickname password hlookup
    cases h
    exact ⟨username, nickname, password, hlookup, rfl⟩
  · cases h

/-- A registration that has inserted fails to write the file, or writes it. -/
theorem step_persist {id : Nat} {failure : Option PersistFailure} (h : s.Step library (.persist id failure) t) :
    ∃ record, s.calls.lookup id = some (.inserted record) ∧
      ((∃ f, failure = some f ∧ t = { s with calls := s.calls.insert id (.returned (.error f.toError)) }) ∨
        failure = none ∧ t = { s with file := some s.state, calls := s.calls.insert id (.returned (.ok record)) }) := by
  simp only [Step, next] at h
  split at h
  · rename_i record hlookup
    refine ⟨record, hlookup, ?_⟩
    split at h
    · rename_i f
      cases h
      exact .inl ⟨f, rfl, rfl⟩
    · cases h
      exact .inr ⟨rfl, rfl⟩
  · cases h

/-! ## Keys and calls -/

/-- One more account keeps the keys distinct exactly when it shares none. -/
theorem distinct_append {accounts : List AccountRecord} {record : AccountRecord} :
    Distinct library (accounts ++ [record]) ↔ Distinct library accounts ∧ ∀ a ∈ accounts, ¬SharesKey library a record := by
  constructor
  · rintro ⟨hu, hn⟩
    rw [List.map_append, List.map_cons, List.map_nil, List.nodup_append] at hu hn
    refine ⟨⟨hu.1, hn.1⟩, fun a ha hshare => ?_⟩
    rcases hshare with h | h
    · exact hu.2.2 _ (List.mem_map_of_mem ha) _ List.mem_cons_self h
    · exact hn.2.2 _ (List.mem_map_of_mem ha) _ List.mem_cons_self h
  · rintro ⟨⟨hu, hn⟩, hnew⟩
    refine ⟨?_, ?_⟩
    · rw [List.map_append, List.map_cons, List.map_nil, List.nodup_append]
      refine ⟨hu, List.nodup_singleton _, ?_⟩
      intro x hx y hy heq
      obtain ⟨a, ha, rfl⟩ := List.mem_map.1 hx
      rw [List.mem_singleton] at hy
      exact hnew a ha (.inl (heq.trans hy))
    · rw [List.map_append, List.map_cons, List.map_nil, List.nodup_append]
      refine ⟨hn, List.nodup_singleton _, ?_⟩
      intro x hx y hy heq
      obtain ⟨a, ha, rfl⟩ := List.mem_map.1 hx
      rw [List.mem_singleton] at hy
      exact hnew a ha (.inr (heq.trans hy))

/-- A call has its record in the table exactly when it is one of these. -/
theorem mem_records_iff {calls : FiniteMap Nat RegisterCall} {a : AccountRecord} :
    a ∈ calls.values.filterMap RegisterCall.record ↔ ∃ id call, calls.lookup id = some call ∧ call.record = some a := by
  simp only [List.mem_filterMap, mem_values_iff]
  constructor
  · rintro ⟨call, ⟨id, hid⟩, hrecord⟩
    exact ⟨id, call, hid, hrecord⟩
  · rintro ⟨id, call, hid, hrecord⟩
    exact ⟨call, ⟨id, hid⟩, hrecord⟩

/-- The records of the calls when a call without a record changes. -/
theorem records_insert_of_none {calls : FiniteMap Nat RegisterCall} {id : Nat}
    (h : ∀ call, calls.lookup id = some call → call.record = none) (call : RegisterCall) :
    ((values (calls.insert id call)).filterMap RegisterCall.record).Perm
      (call.record.toList ++ calls.values.filterMap RegisterCall.record) := by
  have hrest : (calls.values.filterMap RegisterCall.record).Perm
      ((values (calls.erase id)).filterMap RegisterCall.record) := by
    cases hlookup : calls.lookup id with
    | none => rw [erase_of_lookup_eq_none hlookup]
    | some old =>
      refine ((values_perm_of_lookup hlookup).filterMap _).trans ?_
      rw [List.filterMap_cons_none (h old hlookup)]
  rw [values_insert]
  cases hcall : call.record with
  | none =>
    rw [List.filterMap_cons_none hcall]
    exact hrest.symm
  | some a =>
    rw [List.filterMap_cons_some hcall]
    exact hrest.symm.cons a

/-- The records of the calls when a call with a record changes. -/
theorem records_insert_of_some {calls : FiniteMap Nat RegisterCall} {id : Nat} {old : RegisterCall} {a : AccountRecord}
    (h : calls.lookup id = some old) (ha : old.record = some a) (call : RegisterCall) :
    ((values (calls.insert id call)).filterMap RegisterCall.record ++ [a]).Perm
      (call.record.toList ++ calls.values.filterMap RegisterCall.record) := by
  have hrest : (calls.values.filterMap RegisterCall.record).Perm
      (a :: (values (calls.erase id)).filterMap RegisterCall.record) := by
    refine ((values_perm_of_lookup h).filterMap _).trans ?_
    rw [List.filterMap_cons_some ha]
  refine List.Perm.trans ?_ ((List.Perm.refl call.record.toList).append hrest.symm)
  rw [values_insert]
  cases hcall : call.record with
  | none =>
    rw [List.filterMap_cons_none hcall]
    exact List.perm_append_comm
  | some b =>
    rw [List.filterMap_cons_some hcall]
    exact (List.perm_append_singleton a _).cons b

/-! ## Undisturbed steps keep the store sound -/

/-- The invariant of undisturbed runs: besides soundness, the file is a part of the table, and no two calls have records that
share a key. -/
structure Inv (library : AccountLibrary) (initial : List AccountRecord) (s : AccountSystem) : Prop where
  memory : Distinct library s.state.accounts
  file : ∀ file, s.file = some file → file.accounts.Sublist s.state.accounts
  unique : ∀ id id' call call' a b, s.calls.lookup id = some call → s.calls.lookup id' = some call' → call.record = some a →
    call'.record = some b → SharesKey library a b → id = id'
  persisted : ∀ id a, s.calls.lookup id = some (.returned (.ok a)) → ∃ file, s.file = some file ∧ a ∈ file.accounts
  failed : s.state.accounts.Perm (initial ++ s.calls.values.filterMap RegisterCall.record)

/-- The record of a call is in the table. -/
theorem Inv.mem_of_record (hI : s.Inv library initial) {id : Nat} {call : RegisterCall} {a : AccountRecord}
    (h : s.calls.lookup id = some call) (ha : call.record = some a) : a ∈ s.state.accounts :=
  hI.failed.mem_iff.2 (List.mem_append_right _ (mem_records_iff.2 ⟨id, call, h, ha⟩))

/-- Fewer accounts are distinct as well. -/
theorem distinct_sublist {accounts accounts' : List AccountRecord} (h : Distinct library accounts)
    (hsub : accounts'.Sublist accounts) : Distinct library accounts' :=
  ⟨h.usernames.sublist (hsub.map _), h.nicknames.sublist (hsub.map _)⟩

/-- The invariant makes the store sound. -/
theorem Inv.sound (hI : s.Inv library initial) : s.Sound library initial where
  memory := hI.memory
  file file hfile := distinct_sublist hI.memory (hI.file file hfile)
  unique id id' a b ha hb hshare := hI.unique id id' _ _ a b ha hb rfl rfl hshare
  persisted := hI.persisted
  failed := hI.failed
  authenticated username password a ha := by
    have hmem := hI.failed.mem_iff.1 (Accounts.mem_of_authenticate library ha)
    rcases List.mem_append.1 hmem with hmem | hmem
    · exact .inl hmem
    · exact .inr (mem_records_iff.1 hmem)

/-- A store that was opened on a file without duplicates keeps the invariant. -/
theorem inv_open {file : Option AccountsFile} (h : ∀ f, file = some f → Distinct library f.accounts) :
    («open» file).Inv library («open» file).state.accounts where
  memory := by
    cases file with
    | none => exact ⟨List.nodup_nil, List.nodup_nil⟩
    | some f => exact h f rfl
  file f hf := by
    cases hf
    exact List.Sublist.refl _
  unique id _ call _ _ _ hcall := by simp [«open»] at hcall
  persisted id a ha := by simp [«open»] at ha
  failed := by simp [«open», values]

/-- A call that is noted and has no record changes nothing else. -/
theorem Inv.insert_call_of_none (hI : s.Inv library initial) {id : Nat} {call : RegisterCall}
    (hold : ∀ old, s.calls.lookup id = some old → old.record = none) (hcall : call.record = none) :
    ({ s with calls := s.calls.insert id call } : AccountSystem).Inv library initial where
  memory := hI.memory
  file := hI.file
  unique i j c c' a b hi hj ha hb hshare := by
    have hkept : ∀ {k : Nat} {c : RegisterCall} {a : AccountRecord}, AList.lookup k (s.calls.insert id call) = some c →
        c.record = some a → s.calls.lookup k = some c := by
      intro k c a hk ha
      rw [lookup_insert] at hk
      split at hk
      · cases hk
        rw [hcall] at ha
        cases ha
      · exact hk
    exact hI.unique i j c c' a b (hkept hi ha) (hkept hj hb) ha hb hshare
  persisted i a hi := by
    rw [lookup_insert] at hi
    split at hi
    · cases hi
      cases hcall
    · exact hI.persisted i a hi
  failed := by
    refine hI.failed.trans (List.Perm.append_left _ ?_)
    have hperm := records_insert_of_none hold call
    rw [hcall, Option.toList_none, List.nil_append] at hperm
    exact hperm.symm

/-- An undisturbed step keeps the invariant. -/
theorem Inv.step (hI : s.Inv library initial) {event : AccountEvent} (h : s.Step library event t)
    (hm : s.Undisturbed library event) : t.Inv library initial := by
  cases event with
  | check id username password nickname registrationEnabled =>
    obtain ⟨hnone, call, hcall, rfl⟩ := step_check h
    exact hI.insert_call_of_none (by simp [hnone]) hcall
  | insert id random seconds =>
    obtain ⟨username, nickname, password, hlookup, rfl⟩ := step_insert h
    generalize hrecord : Accounts.newRecord library username nickname password random seconds = record
    have hnew : ∀ a ∈ s.state.accounts, ¬SharesKey library a record := by
      subst hrecord
      rintro a ha (hshare | hshare)
      · exact (hm _ _ _ hlookup a ha).1 hshare
      · exact (hm _ _ _ hlookup a ha).2 hshare
    have hsymm : ∀ a, SharesKey library record a → SharesKey library a record := fun a => Or.imp Eq.symm Eq.symm
    have hold : ∀ old, s.calls.lookup id = some old → old.record = none := by
      intro old hold
      rw [hlookup] at hold
      cases hold
      rfl
    constructor
    · exact distinct_append.2 ⟨hI.memory, hnew⟩
    · intro file hfile
      exact (hI.file file hfile).trans (List.sublist_append_left _ _)
    · intro i j c c' a b hi hj ha hb hshare
      simp only [lookup_insert] at hi hj
      split at hi <;> rename_i hid <;> split at hj <;> rename_i hjd
      · rw [hid, hjd]
      · -- the other call's record is in the table, where nothing shares a key with the new one
        cases hi
        cases ha
        exact absurd (hsymm b hshare) (hnew b (hI.mem_of_record hj hb))
      · cases hj
        cases hb
        exact absurd hshare (hnew a (hI.mem_of_record hi ha))
      · exact hI.unique i j c c' a b hi hj ha hb hshare
    · intro i a hi
      simp only [lookup_insert] at hi
      split at hi
      · cases hi
      · exact hI.persisted i a hi
    · refine (hI.failed.append_right _).trans ?_
      rw [List.append_assoc]
      refine List.Perm.append_left _ (List.perm_append_comm.trans ?_)
      exact (records_insert_of_none hold (.inserted record)).symm
  | persist id failure =>
    obtain ⟨record, hlookup, ⟨f, rfl, -⟩ | ⟨rfl, rfl⟩⟩ := step_persist h
    · cases hm
    have hmem : record ∈ s.state.accounts := hI.mem_of_record hlookup rfl
    constructor
    · exact hI.memory
    · intro file hfile
      cases hfile
      exact List.Sublist.refl _
    · intro i j c c' a b hi hj ha hb hshare
      have hback : ∀ {k : Nat} {c : RegisterCall} {a : AccountRecord},
          AList.lookup k (s.calls.insert id (.returned (.ok record))) = some c → c.record = some a →
            ∃ c, s.calls.lookup k = some c ∧ c.record = some a := by
        intro k c a hk ha
        rw [lookup_insert] at hk
        split at hk
        · rename_i hkd
          cases hk
          exact ⟨.inserted record, hkd ▸ hlookup, ha⟩
        · exact ⟨c, hk, ha⟩
      obtain ⟨d, hd, hda⟩ := hback hi ha
      obtain ⟨e, he, heb⟩ := hback hj hb
      exact hI.unique i j d e a b hd he hda heb hshare
    · intro i a hi
      refine ⟨s.state, rfl, ?_⟩
      simp only [lookup_insert] at hi
      split at hi
      · cases hi
        exact hmem
      · obtain ⟨file, hfile, ha⟩ := hI.persisted i a hi
        exact (hI.file file hfile).subset ha
    · refine hI.failed.trans (List.Perm.append_left _ ?_)
      have hperm := records_insert_of_some hlookup rfl (.returned (.ok record))
      exact ((List.perm_append_right_iff [record]).1 (hperm.trans List.perm_append_comm)).symm
  | authenticate username password =>
    cases h
    exact hI
  | findByUsername username =>
    cases h
    exact hI

/-! ## Disturbed steps do not -/

/-- A step between sound states is undisturbed. -/
theorem undisturbed_of_sound (hs : s.Sound library initial) (ht : t.Sound library initial) {event : AccountEvent}
    (h : s.Step library event t) : s.Undisturbed library event := by
  cases event with
  | insert id random seconds =>
    obtain ⟨username, nickname, password, hlookup, rfl⟩ := step_insert h
    intro username' nickname' password' hlookup' a ha
    rw [hlookup] at hlookup'
    cases hlookup'
    have hnew := (distinct_append.1 ht.memory).2 a ha
    exact ⟨fun hu => hnew (.inl hu), fun hn => hnew (.inr hn)⟩
  | persist id failure =>
    obtain ⟨record, hlookup, ⟨f, rfl, rfl⟩ | ⟨rfl, -⟩⟩ := step_persist h
    · -- the record stays in the table, but the call that inserted it has failed
      have hlen := hs.failed.length_eq
      have hlen' := ht.failed.length_eq
      have hperm := (records_insert_of_some hlookup rfl (.returned (.error f.toError))).length_eq
      simp only [RegisterCall.record, Option.toList_none, List.length_append, List.length_cons, List.length_nil] at hperm
      simp only [List.length_append] at hlen hlen'
      omega
    · rfl
  | check => trivial
  | authenticate => trivial
  | findByUsername => trivial

/-- From a file without duplicates, the store is sound at first, and a run keeps it sound in every state it reaches exactly
when all of its steps are undisturbed: no names are inserted that were taken since their check, and every write of the file
succeeds. -/
theorem sound_iff {file : Option AccountsFile} (hfile : ∀ f, file = some f → Distinct library f.accounts) :
    («open» file).Sound library («open» file).state.accounts ∧
      ∀ events t, Path (fun s event t => s.Step library event t ∧ s.Undisturbed library event) («open» file) events t ↔
        Path (fun s event t => s.Step library event t ∧ t.Sound library («open» file).state.accounts)
          («open» file) events t := by
  have hopen := inv_open hfile
  refine ⟨hopen.sound, fun events t => ⟨fun h => ?_, fun h => ?_⟩⟩
  · -- along an undisturbed run the invariant holds, and with it soundness
    have hrun : Path (fun s event t => s.Step library event t ∧ t.Sound library («open» file).state.accounts)
        («open» file) events t ∧ t.Inv library («open» file).state.accounts := by
      induction h with
      | nil => exact ⟨.nil _, hopen⟩
      | snoc _ hst ih =>
        have hI := ih.2.step hst.1 hst.2
        exact ⟨ih.1.snoc ⟨hst.1, hI.sound⟩, hI⟩
    exact hrun.1
  · have hrun : Path (fun s event t => s.Step library event t ∧ s.Undisturbed library event) («open» file) events t ∧
        t.Sound library («open» file).state.accounts := by
      induction h with
      | nil => exact ⟨.nil _, hopen.sound⟩
      | snoc _ hst ih => exact ⟨ih.1.snoc ⟨hst.1, undisturbed_of_sound ih.2 hst.2 hst.1⟩, hst.2⟩
    exact hrun.1

end

namespace RegistrationAux

/-- The Unicode functions on ASCII text, and the digests of two passwords with their salts. -/
def library : AccountLibrary where
  unicode := .ascii
  nfkc := id
  toLowercase := fun s => .ofList (s.toList.map Char.toLower)
  sha256 bytes :=
    if bytes.getLast? = some 0x21 then
      [109, 130, 104, 59, 71, 106, 142, 128, 89, 141, 229, 152, 231, 118, 111, 135, 10, 141, 29, 234, 22, 214, 202, 222, 112, 137,
        248, 225, 234, 10, 62, 169]
    else
      [102, 77, 189, 228, 13, 110, 71, 142, 18, 128, 39, 94, 1, 31, 199, 191, 45, 46, 153, 255, 44, 220, 20,
        171, 133, 100, 116, 56, 100, 104, 171, 68]

/-- The random bytes of the second salt. -/
def random : Vector UInt8 16 := #v[16, 17, 18, 19, 20, 21, 22, 23, 24, 25, 26, 27, 28, 29, 30, 31]

/-- A file with one account. -/
def accountsFile : Option AccountsFile := some ⟨[⟨"Alice", "Dao", "000102030405060708090a0b0c0d0e0f",
  "6d82683b476a8e80598de598e7766f870a8d1dea16d6cade7089f8e1ea0a3ea9", 0⟩]⟩

/-- The system behind some steps. -/
def after (events : List AccountEvent) : AccountSystem :=
  events.foldl (fun s event => (s.next library event).getD s) («open» accountsFile)

/-- Both registrations of a name are checked before either inserts. -/
def disturbed : List AccountEvent :=
  [.check 0 "Bob" "secret" "Bazzi" true, .check 1 "BOB" "secret" "Uni" true, .insert 0 random 5, .insert 1 random 5]

end RegistrationAux

open RegistrationAux in
/-- A registration that is not disturbed leaves a sound store. -/
theorem sound_sample : ∃ t, Path (fun s event t => s.Step library event t ∧
    t.Sound library («open» accountsFile).state.accounts) («open» accountsFile)
      [.check 0 "Bob" "secret" "Bazzi" true, .insert 0 random 5, .persist 0 none] t := by
  have hfile : ∀ f, accountsFile = some f → Distinct library f.accounts := by
    rintro f hf
    cases hf
    exact ⟨by decide, by decide⟩
  refine ⟨after [.check 0 "Bob" "secret" "Bazzi" true, .insert 0 random 5, .persist 0 none], ((sound_iff hfile).2 _ _).1 ?_⟩
  have hcheck : (after []).Step library (.check 0 "Bob" "secret" "Bazzi" true) (after [.check 0 "Bob" "secret" "Bazzi" true]) :=
    rfl
  have hinsert : (after [.check 0 "Bob" "secret" "Bazzi" true]).Step library (.insert 0 random 5)
      (after [.check 0 "Bob" "secret" "Bazzi" true, .insert 0 random 5]) := rfl
  have hpersist : (after [.check 0 "Bob" "secret" "Bazzi" true, .insert 0 random 5]).Step library (.persist 0 none)
      (after [.check 0 "Bob" "secret" "Bazzi" true, .insert 0 random 5, .persist 0 none]) := rfl
  refine (((Path.nil (after [])).snoc ⟨hcheck, trivial⟩).snoc ⟨hinsert, ?_⟩).snoc ⟨hpersist, rfl⟩
  rintro username nickname password hlookup a ha
  cases hlookup
  cases List.mem_singleton.1 ha
  exact ⟨by decide, by decide⟩

open RegistrationAux in
/-- Two registrations of one name that are both checked before either inserts leave two accounts of that name. -/
theorem sound_false : ¬∀ (library : AccountLibrary) (file : Option AccountsFile),
    (∀ f, file = some f → Distinct library f.accounts) → ∀ events t,
      Path (Step library) («open» file) events t → t.Sound library («open» file).state.accounts := by
  intro hclaim
  have hfile : ∀ f, accountsFile = some f → Distinct library f.accounts := by
    rintro f hf
    cases hf
    exact ⟨by decide, by decide⟩
  have hfirst : (after []).Step library (.check 0 "Bob" "secret" "Bazzi" true) (after (disturbed.take 1)) := rfl
  have hsecond : (after (disturbed.take 1)).Step library (.check 1 "BOB" "secret" "Uni" true) (after (disturbed.take 2)) := rfl
  have hinsert : (after (disturbed.take 2)).Step library (.insert 0 random 5) (after (disturbed.take 3)) := rfl
  have hinsert' : (after (disturbed.take 3)).Step library (.insert 1 random 5) (after disturbed) := rfl
  have hrun := ((((Path.nil (after [])).snoc hfirst).snoc hsecond).snoc hinsert).snoc hinsert'
  have hsound := hclaim library accountsFile hfile _ _ hrun
  exact absurd hsound.memory.usernames (by decide)

end AccountSystem

end P5136
