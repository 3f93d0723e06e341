import P5136.Accounts.Registration
import P5136.Accounts.Tickets
import P5136.Identity.Lineage

/-!
# The account gate

A server that requires an account login: launchers register and authenticate, each success is given a ticket, a game login
consumes the ticket of its nickname and then claims an identity, and identities move between sessions. The steps of all of them
interleave. Every active identity descends from a ticket, and a live ticket admits a login.
-/

namespace P5136

open FiniteMap TicketStore

/-- A game login that has consumed its ticket and has not claimed its identity yet, with the nickname as it was sent. -/
structure PendingLogin where
  session : SessionId
  nickname : String
  ticket : LoginTicket
  consumed : Instant

/-- A login claim that succeeded. -/
structure LoginClaim where
  login : PendingLogin
  generation : IdentityGeneration

/-- The accounts, the tickets and the identities of a server. The last three fields are the observer's: the provisions, in which
a ticket is found by its serial, the login claims and the completed migrations. -/
structure LoginGate where
  accounts : AccountSystem
  tickets : TicketStore
  identity : IdentitySystem
  now : Instant
  /-- The accounts of successful requests that wait for their tickets. -/
  granted : List AccountRecord
  logins : List PendingLogin
  provisions : List (AccountRecord × Instant)
  claims : List LoginClaim
  moves : List MigrationCompletion

/-- What happens on the server. -/
inductive LoginGateEvent where
  | account (event : AccountEvent)
  | provision (account : AccountRecord)
  | login (session : SessionId) (nickname : String)
  | claim (login : PendingLogin) (result : Except (Fault IdentityError) IdentityBinding)
  | abandon (login : PendingLogin)
  | identity (event : IdentityEvent)
  | elapse (duration : Duration)
  | restart

/-- The account that a request returns to its launcher with this step. -/
def AccountSystem.grants (library : AccountLibrary) (s : AccountSystem) : AccountEvent → List AccountRecord
  | .persist id none => match s.calls.lookup id with
    | some (.inserted record) => [record]
    | _ => []
  | .authenticate username password => okList (Accounts.authenticate library s.state.accounts username password)
  | _ => []

/-- Not the claim of an identity. -/
def IdentityEvent.NoClaim (e : IdentityEvent) : Prop :=
  ∀ session ip nickname epoch result, e ≠ .claim session ip nickname epoch result

namespace LoginGate

/-- A server that starts on an accounts file. -/
def start (file : Option AccountsFile) (now : Instant) : LoginGate where
  accounts := .open file
  tickets := ∅
  identity := ⟨.new, [], [], [], none⟩
  now := now
  granted := []
  logins := []
  provisions := []
  claims := []
  moves := []

/-- The first start, without an accounts file. -/
def Init (s : LoginGate) : Prop := ∃ now, s = start none now

variable (library : AccountLibrary)

/-- The check of `handle_login`: the key of the nickname is the text that the ticket is asked by. -/
def consumeTicket (s : LoginGate) (nickname : String) : Option LoginTicket × TicketStore :=
  s.tickets.consume library.unicode (Accounts.canonicalNicknameKey library nickname) s.now

/-- One step: a call on the account store, the ticket of a request that succeeded, the ticket check of a login, its claim, or its
end before the claim, a step of the identities that is not a claim, time passing, or a restart. -/
inductive Step : LoginGate → LoginGateEvent → LoginGate → Prop where
  | account {s : LoginGate} (event : AccountEvent) (accounts : AccountSystem) : s.accounts.Step library event accounts →
      Step s (.account event) { s with accounts := accounts, granted := s.granted ++ s.accounts.grants library event }
  | provision {s : LoginGate} (pre post : List AccountRecord) (account : AccountRecord) : s.granted = pre ++ account :: post →
      Step s (.provision account) { s with
        tickets := s.tickets.provision library.unicode account.username account.nickname s.now s.provisions.length
        granted := pre ++ post
        provisions := s.provisions ++ [(account, s.now)] }
  | login {s : LoginGate} (session : SessionId) (nickname : String) :
      Step s (.login session nickname) { s with
        tickets := (s.consumeTicket library nickname).2
        logins := s.logins ++ ((s.consumeTicket library nickname).1.map (⟨session, nickname, ·, s.now⟩)).toList }
  | claim {s : LoginGate} (pre post : List PendingLogin) (login : PendingLogin) (ip : IpAddr) (epoch : Nat)
      (result : Except (Fault IdentityError) IdentityBinding) (identity : IdentitySystem) : s.logins = pre ++ login :: post →
      s.identity.Step library.unicode (.claim login.session ip login.nickname epoch result) identity →
      Step s (.claim login result) { s with
        identity := identity
        logins := pre ++ post
        claims := s.claims ++ (okList result).map (fun binding => ⟨login, binding.generation⟩) }
  | abandon {s : LoginGate} (pre post : List PendingLogin) (login : PendingLogin) : s.logins = pre ++ login :: post →
      Step s (.abandon login) { s with logins := pre ++ post }
  | identity {s : LoginGate} (event : IdentityEvent) (identity : IdentitySystem) : event.NoClaim →
      s.identity.Step library.unicode event identity →
      Step s (.identity event) { s with identity := identity, moves := s.moves ++ event.completed }
  | elapse {s : LoginGate} (duration : Duration) : Step s (.elapse duration) { s with now := s.now + duration }
  | restart {s : LoginGate} : Step s .restart (start s.accounts.file s.now)

/-- The states that the server can be in. -/
def Reachable : LoginGate → Prop := Transition.Reachable Init (Step library)

/-- A completed migration moves an identity from one generation to the next. -/
def Moved (moves : List MigrationCompletion) (g g' : IdentityGeneration) : Prop :=
  ∃ m ∈ moves, m.previousBinding.generation = g ∧ m.binding.generation = g'

/-- The ticket was provisioned for an account of the table, and is named as the account is. -/
def Provisioned (s : LoginGate) (ticket : LoginTicket) (account : AccountRecord) : Prop :=
  s.provisions[ticket.serial]? = some (account, ticket.issued) ∧ account ∈ s.accounts.state.accounts ∧
    ticket.nickname = account.nickname ∧ ticket.username = account.username

/-- A login consumed the ticket of an account with this key while the ticket was live. -/
def ConsumedLive (s : LoginGate) (login : PendingLogin) (key : String) : Prop :=
  ∃ account, s.Provisioned login.ticket account ∧ Accounts.canonicalNicknameKey library account.nickname = key ∧
    login.ticket.issued ≤ login.consumed ∧ login.consumed - login.ticket.issued < ticketLifetime

/-- The generation comes by completed migrations from one that a login claimed, with a ticket of an account with this key. -/
def Descends (s : LoginGate) (key : String) (g : IdentityGeneration) : Prop :=
  ∃ c ∈ s.claims, s.ConsumedLive library c.login key ∧ Relation.ReflTransGen (Moved s.moves) c.generation g

end LoginGate

/-- Not a restart, and not a login with this key. -/
def LoginGateEvent.Spares (library : AccountLibrary) (key : String) : LoginGateEvent → Prop
  | .login _ nickname => Accounts.canonicalNicknameKey library nickname ≠ key
  | .restart => False
  | _ => True

namespace LoginGate

/-! ## The accounts are normalized -/

/-- The nickname of every account was normalized when its registration was checked. -/
structure AccountsNormal (U : Unicode) (s : AccountSystem) : Prop where
  state : ∀ a ∈ s.state.accounts, ∃ raw, normalizeNickname U raw = .ok a.nickname
  file : ∀ file, s.file = some file → ∀ a ∈ file.accounts, ∃ raw, normalizeNickname U raw = .ok a.nickname
  checked : ∀ id username nickname password, s.calls.lookup id = some (.checked username nickname password) →
    ∃ raw, normalizeNickname U raw = .ok nickname
  inserted : ∀ id a, s.calls.lookup id = some (.inserted a) → a ∈ s.state.accounts

section

variable {library : AccountLibrary}

/-- A store on a file of normalized accounts. -/
theorem accountsNormal_open {U : Unicode} {file : Option AccountsFile}
    (h : ∀ f, file = some f → ∀ a ∈ f.accounts, ∃ raw, normalizeNickname U raw = .ok a.nickname) :
    AccountsNormal U (.open file) where
  state a ha := by
    cases file with
    | none => cases ha
    | some f => exact h f rfl a ha
  file := h
  checked id _ _ _ hlookup := by simp [AccountSystem.open] at hlookup
  inserted id _ hlookup := by simp [AccountSystem.open] at hlookup

/-- The names of a registration that passed its check. -/
theorem normalizeNickname_of_checkRegistration {accounts : List AccountRecord} {username password nickname : String}
    {enabled : Bool} {names : String × String}
    (h : Accounts.checkRegistration library accounts username password nickname enabled = .ok names) :
    normalizeNickname library.unicode nickname = .ok names.2 := by
  unfold Accounts.checkRegistration at h
  simp only [Checks.bind_eq_ok] at h
  obtain ⟨_, -, u, -, n, hn, _, -, _, -, h⟩ := h
  cases h
  unfold Accounts.validateNickname at hn
  cases hnormal : normalizeNickname library.unicode nickname with
  | error e =>
    rw [hnormal] at hn
    cases hn
  | ok m =>
    rw [hnormal] at hn
    cases hn
    rfl

/-- A registration that returns keeps the accounts normalized. -/
theorem AccountsNormal.insert_returned {U : Unicode} {s : AccountSystem} (h : AccountsNormal U s) (id : Nat)
    (result : Except AccountError AccountRecord) :
    AccountsNormal U { s with calls := s.calls.insert id (.returned result) } where
  state := h.state
  file := h.file
  checked i u n p hi := by
    rw [lookup_insert] at hi
    split at hi
    · cases hi
    · exact h.checked i u n p hi
  inserted i a hi := by
    rw [lookup_insert] at hi
    split at hi
    · cases hi
    · exact h.inserted i a hi

/-- A call on the store keeps its accounts normalized. -/
theorem AccountsNormal.step {s t : AccountSystem} {event : AccountEvent} (h : AccountsNormal library.unicode s)
    (hs : s.Step library event t) : AccountsNormal library.unicode t := by
  cases event with
  | check id username password nickname enabled =>
    simp only [AccountSystem.Step, AccountSystem.next] at hs
    split at hs
    swap
    · cases hs
    split at hs <;> rename_i hchecked <;> cases hs
    · exact h.insert_returned id _
    · refine ⟨h.state, h.file, fun i u n p hi => ?_, fun i a hi => ?_⟩ <;> rw [lookup_insert] at hi <;> split at hi
      · cases hi
        exact ⟨nickname, normalizeNickname_of_checkRegistration hchecked⟩
      · exact h.checked i u n p hi
      · cases hi
      · exact h.inserted i a hi
  | insert id random seconds =>
    obtain ⟨username, nickname, password, hlookup, rfl⟩ := AccountSystem.step_insert hs
    refine ⟨fun a ha => ?_, h.file, fun i u n p hi => ?_, fun i a hi => ?_⟩
    · rcases List.mem_append.1 ha with ha | ha
      · exact h.state a ha
      · cases List.mem_singleton.1 ha
        exact h.checked id username nickname password hlookup
    · rw [lookup_insert] at hi
      split at hi
      · cases hi
      · exact h.checked i u n p hi
    · rw [lookup_insert] at hi
      split at hi
      · cases hi
        exact List.mem_append_right _ List.mem_cons_self
      · exact List.mem_append_left _ (h.inserted i a hi)
  | persist id failure =>
    obtain ⟨record, -, ⟨f, rfl, rfl⟩ | ⟨rfl, rfl⟩⟩ := AccountSystem.step_persist hs
    · exact h.insert_returned id _
    · refine { h.insert_returned id (.ok record) with file := ?_ }
      intro file hfile
      cases hfile
      exact h.state
  | authenticate username password =>
    cases hs
    exact h
  | findByUsername username =>
    cases hs
    exact h

/-- No account leaves the table. -/
theorem mem_accounts_of_step {s t : AccountSystem} {event : AccountEvent} (hs : s.Step library event t) {a : AccountRecord}
    (ha : a ∈ s.state.accounts) : a ∈ t.state.accounts := by
  cases event with
  | check id username password nickname enabled =>
    obtain ⟨-, call, -, rfl⟩ := AccountSystem.step_check hs
    exact ha
  | insert id random seconds =>
    obtain ⟨username, nickname, password, -, rfl⟩ := AccountSystem.step_insert hs
    exact List.mem_append_left _ ha
  | persist id failure =>
    obtain ⟨record, -, ⟨f, rfl, rfl⟩ | ⟨rfl, rfl⟩⟩ := AccountSystem.step_persist hs <;> exact ha
  | authenticate username password =>
    cases hs
    exact ha
  | findByUsername username =>
    cases hs
    exact ha

/-- What a request returns is in the table. -/
theorem mem_accounts_of_grants {s : AccountSystem} {event : AccountEvent} (h : AccountsNormal library.unicode s)
    {a : AccountRecord} (ha : a ∈ s.grants library event) : a ∈ s.state.accounts := by
  unfold AccountSystem.grants at ha
  split at ha
  · split at ha
    · rename_i hlookup
      cases List.mem_singleton.1 ha
      exact h.inserted _ _ hlookup
    · cases ha
  · rename_i username password
    cases hauth : Accounts.authenticate library s.state.accounts username password with
    | error e =>
      rw [hauth] at ha
      cases ha
    | ok account =>
      rw [hauth] at ha
      cases List.mem_singleton.1 ha
      exact Accounts.mem_of_authenticate library hauth
  · cases ha

end

/-! ## The invariant -/

/-- The serials that logins have consumed. -/
def spent (s : LoginGate) : List Nat := s.logins.map (·.ticket.serial) ++ s.claims.map (·.login.ticket.serial)

/-- The invariant of the gate. -/
structure Inv (library : AccountLibrary) (s : LoginGate) : Prop where
  accounts : AccountsNormal library.unicode s.accounts
  custody : Custody library.unicode s.identity
  granted : ∀ a ∈ s.granted, a ∈ s.accounts.state.accounts
  ticket : ∀ key t, s.tickets.lookup key = some t → key = Accounts.canonicalNicknameKey library t.nickname ∧
    (∃ a, s.Provisioned t a) ∧ t.issued ≤ s.now ∧ t.serial ∉ s.spent
  nodup : s.spent.Nodup
  login : ∀ l ∈ s.logins, s.ConsumedLive library l (Accounts.canonicalNicknameKey library l.nickname)
  serial : ∀ n ∈ s.spent, n < s.provisions.length
  active : ∀ key a, s.identity.registry.activeByName.lookup key = some a → s.Descends library key a.generation

/-- A later state has the accounts, provisions, claims and moves of an earlier one. -/
structure Extends (s t : LoginGate) : Prop where
  accounts : ∀ a ∈ s.accounts.state.accounts, a ∈ t.accounts.state.accounts
  provisions : s.provisions <+: t.provisions
  claims : ∀ c ∈ s.claims, c ∈ t.claims
  moves : ∀ m ∈ s.moves, m ∈ t.moves

section

variable {library : AccountLibrary} {s t : LoginGate}

/-- A provision is not forgotten. -/
theorem Provisioned.extend {ticket : LoginTicket} {a : AccountRecord} (h : s.Provisioned ticket a) (he : s.Extends t) :
    t.Provisioned ticket a := by
  obtain ⟨rest, hrest⟩ := he.provisions
  refine ⟨?_, he.accounts a h.2.1, h.2.2⟩
  rw [← hrest, List.getElem?_append_left (List.getElem?_eq_some_iff.1 h.1).1]
  exact h.1

/-- A consumption is not forgotten. -/
theorem ConsumedLive.extend {login : PendingLogin} {key : String} (h : s.ConsumedLive library login key) (he : s.Extends t) :
    t.ConsumedLive library login key := by
  obtain ⟨a, ha, h⟩ := h
  exact ⟨a, ha.extend he, h⟩

/-- A descent is not forgotten. -/
theorem Descends.extend {key : String} {g : IdentityGeneration} (h : s.Descends library key g) (he : s.Extends t) :
    t.Descends library key g := by
  obtain ⟨c, hc, hlive, hmoved⟩ := h
  refine ⟨c, he.claims c hc, hlive.extend he, Relation.ReflTransGen.mono ?_ _ _ hmoved⟩
  rintro a b ⟨m, hm, h⟩
  exact ⟨m, he.moves m hm, h⟩

/-- Two tickets with one serial have one key. -/
theorem Provisioned.key_eq {ticket ticket' : LoginTicket} {a b : AccountRecord} (h : s.Provisioned ticket a)
    (h' : s.Provisioned ticket' b) (hserial : ticket.serial = ticket'.serial) : ticket.nickname = ticket'.nickname := by
  have hentry := h.1
  rw [hserial, h'.1] at hentry
  have haccount : b = a := congrArg Prod.fst (Option.some.inj hentry)
  rw [h.2.2.1, h'.2.2.1, haccount]

/-- A live ticket of the map. -/
theorem filter_isLive {tickets : TicketStore} {key : String} {now : Instant} {ticket : LoginTicket}
    (h : (tickets.lookup key).filter (isLive now) = some ticket) :
    tickets.lookup key = some ticket ∧ now - ticket.issued < ticketLifetime := by
  obtain ⟨hlookup, hlive⟩ := Option.filter_eq_some_iff.1 h
  exact ⟨hlookup, of_decide_eq_true hlive⟩

/-! ## Steps keep it -/

/-- A call on the account store. -/
theorem Inv.account (h : s.Inv library) {event : AccountEvent} {accounts : AccountSystem}
    (hs : s.accounts.Step library event accounts) :
    ({ s with accounts := accounts, granted := s.granted ++ s.accounts.grants library event } : LoginGate).Inv library := by
  have he : s.Extends { s with accounts := accounts, granted := s.granted ++ s.accounts.grants library event } :=
    ⟨fun _ => mem_accounts_of_step hs, List.prefix_refl _, fun _ => id, fun _ => id⟩
  refine ⟨h.accounts.step hs, h.custody, fun a ha => ?_, fun key ticket hticket => ?_, h.nodup,
    fun l hl => (h.login l hl).extend he, h.serial, fun key a ha => (h.active key a ha).extend he⟩
  · rcases List.mem_append.1 ha with ha | ha
    · exact mem_accounts_of_step hs (h.granted a ha)
    · exact mem_accounts_of_step hs (mem_accounts_of_grants h.accounts ha)
  · obtain ⟨hkey, ⟨a, ha⟩, hrest⟩ := h.ticket key ticket hticket
    exact ⟨hkey, ⟨a, ha.extend he⟩, hrest⟩

/-- A ticket is provisioned. -/
theorem Inv.provision (h : s.Inv library) {pre post : List AccountRecord} {account : AccountRecord}
    (hgranted : s.granted = pre ++ account :: post) :
    ({ s with
      tickets := s.tickets.provision library.unicode account.username account.nickname s.now s.provisions.length
      granted := pre ++ post
      provisions := s.provisions ++ [(account, s.now)] } : LoginGate).Inv library := by
  have hin : ∀ a, a ∈ pre ++ account :: post → a ∈ s.accounts.state.accounts := by
    rw [← hgranted]
    exact h.granted
  have he : s.Extends { s with
      tickets := s.tickets.provision library.unicode account.username account.nickname s.now s.provisions.length
      granted := pre ++ post
      provisions := s.provisions ++ [(account, s.now)] } :=
    ⟨fun _ => id, List.prefix_append _ _, fun _ => id, fun _ => id⟩
  refine ⟨h.accounts, h.custody, fun a ha => hin a ?_, fun key ticket hticket => ?_, h.nodup,
    fun l hl => (h.login l hl).extend he, fun n hn => ?_, fun key a ha => (h.active key a ha).extend he⟩
  · rcases List.mem_append.1 ha with ha | ha
    · exact List.mem_append_left _ ha
    · exact List.mem_append_right _ (List.mem_cons_of_mem _ ha)
  · have hlookup := (lookup_provision ..).symm.trans hticket
    split at hlookup
    · rename_i hkey
      cases hlookup
      refine ⟨hkey, ⟨account, ?_, hin _ (List.mem_append_right _ List.mem_cons_self), rfl, rfl⟩, le_rfl, fun hspent => ?_⟩
      · simp only [List.getElem?_append_right le_rfl, Nat.sub_self, List.getElem?_cons_zero]
      · exact lt_irrefl _ (h.serial _ hspent)
    · obtain ⟨hkey, ⟨a, ha⟩, hrest⟩ := h.ticket key ticket (filter_isLive hlookup).1
      exact ⟨hkey, ⟨a, ha.extend he⟩, hrest⟩
  · have hlt := h.serial n hn
    simp only [List.length_append, List.length_singleton]
    omega

/-- What is left of the tickets after a consumption was there before, under another key than the nickname's. -/
theorem lookup_consumeTicket (hU : library.unicode.LawfulKeys) {nickname key : String} {ticket : LoginTicket}
    (h : AList.lookup key (s.consumeTicket library nickname).2 = some ticket) :
    key ≠ Accounts.canonicalNicknameKey library nickname ∧ s.tickets.lookup key = some ticket := by
  have hlookup := (lookup_consume ..).symm.trans h
  rw [Accounts.canonicalNicknameKey, hU.canonicalNicknameKey_idem] at hlookup
  split at hlookup
  · cases hlookup
  · rename_i hkey
    exact ⟨hkey, (filter_isLive hlookup).1⟩

/-- A login asks for the ticket of its key. -/
theorem consumeTicket_fst (hU : library.unicode.LawfulKeys) (nickname : String) :
    (s.consumeTicket library nickname).1 =
      (s.tickets.lookup (Accounts.canonicalNicknameKey library nickname)).filter (isLive s.now) := by
  have hfst := consume_fst (U := library.unicode) s.tickets (Accounts.canonicalNicknameKey library nickname) s.now
  rw [Accounts.canonicalNicknameKey, hU.canonicalNicknameKey_idem] at hfst
  exact hfst

/-- The tickets after a consumption, of which no login has the serial of the consumed one. -/
theorem Inv.login_ticket (h : s.Inv library) (hU : library.unicode.LawfulKeys) {nickname key : String} {ticket : LoginTicket}
    (hticket : AList.lookup key (s.consumeTicket library nickname).2 = some ticket) :
    (key = Accounts.canonicalNicknameKey library ticket.nickname ∧ (∃ a, s.Provisioned ticket a) ∧ ticket.issued ≤ s.now ∧
      ticket.serial ∉ s.spent) ∧
      ∀ consumed, (s.consumeTicket library nickname).1 = some consumed → ticket.serial ≠ consumed.serial := by
  obtain ⟨hne, hlookup⟩ := lookup_consumeTicket hU hticket
  have hold := h.ticket key ticket hlookup
  refine ⟨hold, fun consumed hconsumed hserial => hne ?_⟩
  rw [consumeTicket_fst hU] at hconsumed
  obtain ⟨hkey, ⟨b, hb⟩, -⟩ := h.ticket _ consumed (filter_isLive hconsumed).1
  obtain ⟨hkey', ⟨a, ha⟩, -⟩ := hold
  rw [hkey', hkey, ha.key_eq hb hserial]

/-- A login consumes its ticket, or finds none. -/
theorem Inv.login_step (h : s.Inv library) (hU : library.unicode.LawfulKeys) (session : SessionId) (nickname : String) :
    ({ s with
      tickets := (s.consumeTicket library nickname).2
      logins := s.logins ++ ((s.consumeTicket library nickname).1.map (⟨session, nickname, ·, s.now⟩)).toList } :
        LoginGate).Inv library := by
  cases hconsumed : (s.consumeTicket library nickname).1 with
  | none =>
    simp only [Option.map_none, Option.toList_none, List.append_nil]
    exact { h with ticket := fun key ticket hticket => (h.login_ticket hU hticket).1 }
  | some consumed =>
    simp only [Option.map_some, Option.toList_some]
    have hfound := hconsumed
    rw [consumeTicket_fst hU] at hfound
    obtain ⟨hlookup, hlive⟩ := filter_isLive hfound
    obtain ⟨hkey, ⟨a, ha⟩, hissued, hunspent⟩ := h.ticket _ _ hlookup
    have hspent : ({ s with
        tickets := (s.consumeTicket library nickname).2
        logins := s.logins ++ [⟨session, nickname, consumed, s.now⟩] } : LoginGate).spent.Perm (consumed.serial :: s.spent) := by
      simp only [spent, List.map_append, List.map_cons, List.map_nil, List.append_assoc, List.singleton_append]
      exact List.perm_middle
    refine ⟨h.accounts, h.custody, h.granted, fun key ticket hticket => ?_, ?_, fun l hl => ?_, fun n hn => ?_, h.active⟩
    · obtain ⟨⟨hkey, hprovisioned, hissued, hfree⟩, hother⟩ := h.login_ticket hU hticket
      refine ⟨hkey, hprovisioned, hissued, fun hmem => ?_⟩
      rcases List.mem_cons.1 (hspent.subset hmem) with heq | hmem
      · exact hother consumed hconsumed heq
      · exact hfree hmem
    · exact hspent.nodup_iff.2 (List.nodup_cons.2 ⟨hunspent, h.nodup⟩)
    · rcases List.mem_append.1 hl with hl | hl
      · exact h.login l hl
      · cases List.mem_singleton.1 hl
        refine ⟨a, ha, ?_, hissued, hlive⟩
        rw [hkey, ha.2.2.1]
    · rcases List.mem_cons.1 (hspent.subset hn) with heq | hmem
      · exact heq ▸ (List.getElem?_eq_some_iff.1 ha.1).1
      · exact h.serial n hmem

/-- A login is over. -/
theorem Inv.abandon (h : s.Inv library) {logins : List PendingLogin} (hsub : logins.Sublist s.logins) :
    ({ s with logins := logins } : LoginGate).Inv library := by
  have hspent : ({ s with logins := logins } : LoginGate).spent.Sublist s.spent := (hsub.map _).append_right _
  refine { h with
    ticket := fun key ticket hticket => ?_
    nodup := h.nodup.sublist hspent
    login := fun l hl => h.login l (hsub.subset hl)
    serial := fun n hn => h.serial n (hspent.subset hn) }
  obtain ⟨hkey, hprovisioned, hissued, hfree⟩ := h.ticket key ticket hticket
  exact ⟨hkey, hprovisioned, hissued, fun hmem => hfree (hspent.subset hmem)⟩

/-- The identities have changed, and the active ones still descend from tickets. -/
theorem Inv.of_identity (h : s.Inv library) {identity : IdentitySystem} (hcustody : Custody library.unicode identity)
    {moves : List MigrationCompletion} (hactive : ∀ key a, identity.registry.activeByName.lookup key = some a →
      ({ s with identity := identity, moves := moves } : LoginGate).Descends library key a.generation) :
    ({ s with identity := identity, moves := moves } : LoginGate).Inv library :=
  ⟨h.accounts, hcustody, h.granted, h.ticket, h.nodup, h.login, h.serial, hactive⟩

/-- A step of the identities that is not a claim. -/
theorem Inv.identity (h : s.Inv library) {event : IdentityEvent} {identity : IdentitySystem} (hevent : event.NoClaim)
    (hs : s.identity.Step library.unicode event identity) :
    ({ s with identity := identity, moves := s.moves ++ event.completed } : LoginGate).Inv library := by
  have he : s.Extends { s with identity := identity, moves := s.moves ++ event.completed } :=
    ⟨fun _ => id, List.prefix_refl _, fun _ => id, fun _ => List.mem_append_left _⟩
  refine h.of_identity (P5136.Step.sound h.custody hs).custody fun key a' ha' => ?_
  obtain ⟨a, ha, hgeneration⟩ := hs.carries h.custody hevent key a' ha'
  obtain ⟨c, hc, hlive, hmoved⟩ := (h.active key a ha).extend he
  refine ⟨c, hc, hlive, ?_⟩
  rcases hgeneration with hsame | ⟨m, hm, hfrom, hto⟩
  · rw [hsame]
    exact hmoved
  · exact hmoved.tail ⟨m, List.mem_append_right _ hm, hfrom, hto.symm⟩

/-- The claim of a login has succeeded. -/
theorem Inv.claimed (h : s.Inv library) {pre post : List PendingLogin} {login : PendingLogin}
    (hlogins : s.logins = pre ++ login :: post) (g : IdentityGeneration) :
    ({ s with logins := pre ++ post, claims := s.claims ++ [⟨login, g⟩] } : LoginGate).Inv library := by
  have he : s.Extends { s with logins := pre ++ post, claims := s.claims ++ [⟨login, g⟩] } :=
    ⟨fun _ => id, List.prefix_refl _, fun _ => List.mem_append_left _, fun _ => id⟩
  -- the serial of the login moves from the logins to the claims
  have hspent : ({ s with logins := pre ++ post, claims := s.claims ++ [⟨login, g⟩] } : LoginGate).spent.Perm s.spent := by
    simp only [spent, hlogins, List.map_append, List.map_cons, List.map_nil, List.append_assoc, List.cons_append]
    refine List.Perm.append_left _ (List.Perm.trans ?_ List.perm_middle)
    refine List.Perm.append_left _ (List.perm_append_singleton _ _)
  refine ⟨h.accounts, h.custody, h.granted, fun key ticket hticket => ?_, hspent.nodup_iff.2 h.nodup, fun l hl => ?_,
    fun n hn => h.serial n (hspent.subset hn), fun key a ha => (h.active key a ha).extend he⟩
  · obtain ⟨hkey, hprovisioned, hissued, hfree⟩ := h.ticket key ticket hticket
    exact ⟨hkey, hprovisioned, hissued, fun hmem => hfree (hspent.subset hmem)⟩
  · refine h.login l (hlogins ▸ ?_)
    rcases List.mem_append.1 hl with hl | hl
    · exact List.mem_append_left _ hl
    · exact List.mem_append_right _ (List.mem_cons_of_mem _ hl)

/-- A login that has consumed its ticket claims its identity. -/
theorem Inv.claim (h : s.Inv library) (hU : library.unicode.LawfulKeys) {pre post : List PendingLogin} {login : PendingLogin}
    {ip : IpAddr} {epoch : Nat} {result : Except (Fault IdentityError) IdentityBinding} {identity : IdentitySystem}
    (hlogins : s.logins = pre ++ login :: post)
    (hs : s.identity.Step library.unicode (.claim login.session ip login.nickname epoch result) identity) :
    ({ s with
      identity := identity
      logins := pre ++ post
      claims := s.claims ++ (okList result).map (fun binding => ⟨login, binding.generation⟩) } : LoginGate).Inv library := by
  have hcustody := (P5136.Step.sound h.custody hs).custody
  obtain ⟨account, haccount, hkey, hlive⟩ := h.login login (by simp [hlogins])
  obtain ⟨raw, hraw⟩ := h.accounts.state account haccount.2.1
  have hactive := IdentityRegistry.claimAt_active library.unicode s.identity.registry login.session ip login.nickname epoch
  cases hs with
  | claim _ _ _ _ hcommit =>
    generalize s.identity.registry.claimAt library.unicode login.session ip login.nickname epoch = claimed at hactive hcustody ⊢
    cases hresult : claimed.1 with
    | error e =>
      have hsub : (pre ++ post).Sublist s.logins := by simp [hlogins]
      simp only [okList, List.map_nil, List.append_nil]
      refine (h.abandon hsub).of_identity hcustody fun key a ha => ?_
      rcases hactive with hsame | ⟨_, b, _, hok, -⟩
      · rw [hsame] at ha
        exact h.active key a ha
      · rw [hresult] at hok
        cases hok
    | ok binding =>
      have hclaimed := h.claimed hlogins binding.generation
      simp only [okList, List.map_cons, List.map_nil]
      refine hclaimed.of_identity hcustody fun key a ha => ?_
      rcases hactive with hsame | ⟨nickname, b, a', hok, hnickname, hsame, hgeneration⟩
      · rw [hsame] at ha
        exact hclaimed.active key a ha
      · rw [hsame, lookup_insert] at ha
        split at ha
        · rename_i heq
          cases ha
          rw [hresult] at hok
          cases hok
          refine ⟨⟨login, binding.generation⟩, List.mem_append_right _ List.mem_cons_self, ⟨account, haccount, ?_, hlive⟩, ?_⟩
          · rw [heq]
            exact (hU.canonicalNicknameKey_normalizeNickname hnickname (hU.trim_of_normalizeNickname hraw) hkey.symm).symm
          · rw [hgeneration]
        · exact hclaimed.active key a ha

/-- A server that starts. -/
theorem inv_start {file : Option AccountsFile}
    (h : ∀ f, file = some f → ∀ a ∈ f.accounts, ∃ raw, normalizeNickname library.unicode raw = .ok a.nickname) (now : Instant) :
    (start file now).Inv library where
  accounts := accountsNormal_open h
  custody := P5136.custody_init rfl
  granted a ha := by cases ha
  ticket key t ht := by simp [start] at ht
  nodup := List.nodup_nil
  login l hl := by cases hl
  serial n hn := by cases hn
  active key a ha := by simp [start, IdentityRegistry.new] at ha

/-- Every step keeps the invariant. -/
theorem Inv.step (h : s.Inv library) (hU : library.unicode.LawfulKeys) {event : LoginGateEvent} (hs : s.Step library event t) :
    t.Inv library := by
  cases hs with
  | account event accounts hs => exact h.account hs
  | provision pre post account hgranted => exact h.provision hgranted
  | login session nickname => exact h.login_step hU session nickname
  | claim pre post login ip epoch result identity hlogins hs => exact h.claim hU hlogins hs
  | abandon pre post login hlogins => exact h.abandon (by simp [hlogins])
  | identity event identity hevent hs => exact h.identity hevent hs
  | elapse duration =>
    refine { h with ticket := fun key ticket hticket => ?_ }
    obtain ⟨hkey, hprovisioned, hissued, hfree⟩ := h.ticket key ticket hticket
    exact ⟨hkey, hprovisioned, Nat.le_trans hissued (Nat.le_add_right _ _), hfree⟩
  | restart => exact inv_start h.accounts.file s.now

/-- The invariant holds in every reachable state. -/
theorem inv_of_reachable (hU : library.unicode.LawfulKeys) (h : Reachable library s) : s.Inv library := by
  refine Transition.Reachable.invariant (I := fun s => Inv library s) ?_ (fun _ _ _ hI hs => hI.step hU hs) h
  rintro s ⟨now, rfl⟩
  exact inv_start (fun f hf => by cases hf) now

/-! ## Live tickets stay -/

/-- There is a ticket under the key that was issued at the time or later. -/
def HasTicket (s : LoginGate) (key : String) (since : Instant) : Prop :=
  ∃ ticket, s.tickets.lookup key = some ticket ∧ since ≤ ticket.issued

/-- A ticket is live for its lifetime. -/
theorem HasTicket.filter {key : String} {since : Instant} (h : s.HasTicket key since) (hlive : s.now - since < ticketLifetime) :
    ∃ ticket, (s.tickets.lookup key).filter (isLive s.now) = some ticket ∧ since ≤ ticket.issued := by
  obtain ⟨ticket, hlookup, hsince⟩ := h
  have hkept : isLive s.now ticket = true := by
    simp only [isLive, decide_eq_true_eq]
    exact Nat.lt_of_le_of_lt (Nat.sub_le_sub_left hsince _) hlive
  exact ⟨ticket, by rw [hlookup, Option.filter_some, if_pos hkept], hsince⟩

/-- Time does not go back. -/
theorem now_le_of_step {event : LoginGateEvent} (hs : s.Step library event t) : s.now ≤ t.now := by
  cases hs with
  | elapse duration => exact Nat.le_add_right _ _
  | _ => exact Nat.le_refl _

/-- A step that spares the key leaves its ticket while it is live. -/
theorem HasTicket.step (hU : library.unicode.LawfulKeys) {key : String} {since : Instant} (h : s.HasTicket key since)
    {event : LoginGateEvent} (hs : s.Step library event t) (hevent : event.Spares library key)
    (hlive : s.now - since < ticketLifetime) (hsince : since ≤ s.now) : t.HasTicket key since := by
  cases hs with
  | provision pre post account hgranted =>
    by_cases hkey : key = canonicalNicknameKey library.unicode account.nickname
    · exact ⟨_, (lookup_provision ..).trans (if_pos hkey), hsince⟩
    · obtain ⟨ticket, hticket, hold⟩ := h.filter hlive
      exact ⟨ticket, ((lookup_provision ..).trans (if_neg hkey)).trans hticket, hold⟩
  | login session nickname =>
    obtain ⟨ticket, hticket, hold⟩ := h.filter hlive
    refine ⟨ticket, (lookup_consume ..).trans ?_, hold⟩
    have hkey : key ≠ Accounts.canonicalNicknameKey library nickname := fun heq => hevent heq.symm
    rw [Accounts.canonicalNicknameKey] at hkey ⊢
    rw [hU.canonicalNicknameKey_idem, if_neg hkey, hticket]
  | restart => exact hevent.elim
  | _ => exact h

/-- Steps that spare the key leave its ticket as long as it is live. -/
theorem HasTicket.path (hU : library.unicode.LawfulKeys) {key : String} {since : Instant} (h : s.HasTicket key since)
    (hsince : since ≤ s.now) {events : List LoginGateEvent} (hs : Transition.Path (Step library) s events t)
    (hevents : ∀ e ∈ events, e.Spares library key) (hlive : t.now - since < ticketLifetime) :
    since ≤ t.now ∧ t.HasTicket key since := by
  induction hs with
  | nil => exact ⟨hsince, h⟩
  | snoc _ hst ih =>
    have hle := now_le_of_step hst
    have hthen := Nat.lt_of_le_of_lt (Nat.sub_le_sub_right hle _) hlive
    obtain ⟨hold, hticket⟩ := ih (fun e he => hevents e (List.mem_append_left _ he)) hthen
    exact ⟨Nat.le_trans hold hle, hticket.step hU hst (hevents _ (by simp)) hthen hold⟩

/-! ## The gate -/

/-- Every active identity comes by completed migrations from the claim of a login that consumed a live ticket of an account with
the identity's key; no ticket has two claims. A ticket that is provisioned admits the next login with its key, as long as the
ticket is live, whatever else happens on the server. -/
theorem gated (hU : library.unicode.LawfulKeys) :
    (∀ s, Reachable library s →
      (∀ key a, s.identity.registry.activeByName.lookup key = some a → s.Descends library key a.generation) ∧
        (s.claims.map (·.login.ticket.serial)).Nodup) ∧
      ∀ (s s' t : LoginGate) (account : AccountRecord) (events : List LoginGateEvent), s.Step library (.provision account) s' →
        Transition.Path (Step library) s' events t →
        (∀ e ∈ events, e.Spares library (Accounts.canonicalNicknameKey library account.nickname)) →
        t.now - s.now < ticketLifetime →
        ∀ nickname, Accounts.canonicalNicknameKey library nickname = Accounts.canonicalNicknameKey library account.nickname →
          ∃ ticket, (t.consumeTicket library nickname).1 = some ticket := by
  constructor
  · intro s hs
    have hI := inv_of_reachable hU hs
    exact ⟨hI.active, (List.nodup_append.1 hI.nodup).2.1⟩
  · intro s s' t account events hprovision hpath hevents hlive nickname hkey
    have hhas : s'.HasTicket (Accounts.canonicalNicknameKey library account.nickname) s.now ∧ s.now ≤ s'.now := by
      cases hprovision with
      | provision pre post _ hgranted =>
        exact ⟨⟨_, (lookup_provision ..).trans (if_pos rfl), Nat.le_refl _⟩, Nat.le_refl _⟩
    obtain ⟨-, hticket⟩ := hhas.1.path hU hhas.2 hpath hevents hlive
    obtain ⟨ticket, hfound, -⟩ := hticket.filter hlive
    exact ⟨ticket, by rw [consumeTicket_fst hU, hkey, hfound]⟩

end

namespace GateAux

open AccountSystem.RegistrationAux

/-- The server behind a call on its account store. -/
def call (s : LoginGate) (event : AccountEvent) : LoginGate :=
  { s with
    accounts := (s.accounts.next library event).getD s.accounts
    granted := s.granted ++ s.accounts.grants library event }

/-- A launcher has registered. -/
def registered : LoginGate :=
  call (call (call (start none 0) (.check 0 "Bob" "secret" "Bazzi" true)) (.insert 0 random 5)) (.persist 0 none)

/-- The account. -/
def account : AccountRecord := Accounts.newRecord library "Bob" "Bazzi" "secret" random 5

/-- The launcher has its ticket. -/
def provisioned : LoginGate :=
  { registered with
    tickets := registered.tickets.provision library.unicode account.username account.nickname registered.now
      registered.provisions.length
    granted := []
    provisions := registered.provisions ++ [(account, registered.now)] }

/-- The game login has consumed it. -/
def consumed : LoginGate :=
  { provisioned with
    tickets := (provisioned.consumeTicket library "BAZZI").2
    logins := provisioned.logins ++
      ((provisioned.consumeTicket library "BAZZI").1.map (⟨⟨7⟩, "BAZZI", ·, provisioned.now⟩)).toList }

/-- The login. -/
def login : PendingLogin := ⟨⟨7⟩, "BAZZI", ⟨"Bazzi", "Bob", 0, 0⟩, 0⟩

/-- The identities once it is claimed. -/
def claim : Except (Fault IdentityError) IdentityBinding × IdentityRegistry :=
  IdentityRegistry.new.claimAt library.unicode login.session (.v4 1) login.nickname 0

/-- The login has claimed its identity. -/
def claimed : LoginGate :=
  { consumed with
    identity := { consumed.identity with registry := claim.2 }
    logins := []
    claims := consumed.claims ++ (okList claim.1).map (fun binding => ⟨login, binding.generation⟩) }

end GateAux

open GateAux AccountSystem.RegistrationAux in
/-- A login in other letters is admitted by the ticket of its account, and its identity descends from it. -/
theorem gated_bazzi : ∃ s, Reachable library s ∧
    (∃ a, s.identity.registry.activeByName.lookup "bazzi" = some a ∧ s.Descends library "bazzi" a.generation) ∧
      ∃ ticket, (provisioned.consumeTicket library "BAZZI").1 = some ticket := by
  have hcheck : Step library (start none 0) (.account (.check 0 "Bob" "secret" "Bazzi" true)) _ := .account _ _ rfl
  have hinsert : Step library _ (.account (.insert 0 random 5)) _ :=
    .account (s := call (start none 0) (.check 0 "Bob" "secret" "Bazzi" true)) _ _ rfl
  have hpersist : Step library _ (.account (.persist 0 none)) registered := .account _ _ rfl
  have hprovision : Step library registered (.provision account) provisioned := .provision [] [] account rfl
  have hlogin : Step library provisioned (.login ⟨7⟩ "BAZZI") consumed := .login ⟨7⟩ "BAZZI"
  have hclaim : Step library consumed (.claim login claim.1) claimed :=
    .claim [] [] login (.v4 1) 0 claim.1 _ rfl (.claim login.session (.v4 1) login.nickname 0 rfl)
  have hreach : Reachable library claimed := by
    refine (((((Transition.Reachable.of_init ⟨0, rfl⟩).snoc hcheck).snoc hinsert).snoc hpersist).snoc hprovision).snoc hlogin
      |>.snoc hclaim
  have hkeys : library.unicode.LawfulKeys := lawfulKeys_ascii
  have hgated := gated hkeys
  refine ⟨claimed, hreach, ⟨_, rfl, (hgated.1 claimed hreach).1 "bazzi" _ rfl⟩, ?_⟩
  exact hgated.2 registered provisioned provisioned account [] hprovision (.nil _) (by simp) (by decide) "BAZZI" (by decide)

end LoginGate

end P5136
