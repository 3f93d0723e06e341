import Mathlib.Data.List.DropRight
import P5136.Lib.FiniteMap
import P5136.Nickname

/-!
# Login tickets

A launcher that has registered or authenticated is given a ticket under the key of its nickname; a game login consumes it. A
ticket is good for an hour. Every call first drops the tickets that are older, under one mutex, so that a call is one step.
-/

namespace P5136

/-- What the keys rely on beyond `Unicode.Lawful`: folding the case of a folded and normalized text changes nothing more, and
neither normalizing nor folding makes white space or removes it. -/
structure Unicode.LawfulKeys (U : Unicode) : Prop extends U.Lawful trim where
  fold_stable : ∀ s, U.nfc (U.caseFold (U.nfc (U.caseFold s))) = U.nfc (U.caseFold s)
  trim_nfc : ∀ s, trim (U.nfc s) = U.nfc (trim s)
  trim_caseFold : ∀ s, trim (U.caseFold s) = U.caseFold (trim s)

namespace Unicode.LawfulKeys

variable {U : Unicode}

/-- A key is its own key. -/
theorem canonicalNicknameKey_idem (hU : U.LawfulKeys) (nickname : String) :
    canonicalNicknameKey U (canonicalNicknameKey U nickname) = canonicalNicknameKey U nickname := by
  simp only [canonicalNicknameKey, hU.nfc_nfc, hU.fold_stable]

/-- The key of a trimmed nickname is the trimmed key. -/
theorem canonicalNicknameKey_trim (hU : U.LawfulKeys) (nickname : String) :
    canonicalNicknameKey U (trim nickname) = trim (canonicalNicknameKey U nickname) := by
  simp only [canonicalNicknameKey, hU.trim_nfc, hU.trim_caseFold]

/-- A nickname in form C has the key of the nickname. -/
theorem canonicalNicknameKey_nfc (hU : U.LawfulKeys) (nickname : String) :
    canonicalNicknameKey U (U.nfc nickname) = canonicalNicknameKey U nickname := by
  simp only [canonicalNicknameKey, hU.nfc_nfc]

/-- A normalized nickname is trimmed. -/
theorem trim_of_normalizeNickname (hU : U.LawfulKeys) {value nickname : String} (h : normalizeNickname U value = .ok nickname) :
    trim nickname = nickname := by
  obtain ⟨rfl, -⟩ := normalizeNickname_eq_ok.1 h
  exact hU.trim_nfc_trim value

/-- A text with the key of a normalized nickname still has it once it is normalized. -/
theorem canonicalNicknameKey_normalizeNickname (hU : U.LawfulKeys) {value nickname account : String}
    (h : normalizeNickname U value = .ok nickname) (haccount : trim account = account)
    (hkey : canonicalNicknameKey U value = canonicalNicknameKey U account) :
    canonicalNicknameKey U nickname = canonicalNicknameKey U account := by
  obtain ⟨rfl, -⟩ := normalizeNickname_eq_ok.1 h
  calc canonicalNicknameKey U (U.nfc (trim value))
      = canonicalNicknameKey U (trim value) := hU.canonicalNicknameKey_nfc _
    _ = trim (canonicalNicknameKey U value) := hU.canonicalNicknameKey_trim _
    _ = trim (canonicalNicknameKey U account) := by rw [hkey]
    _ = canonicalNicknameKey U (trim account) := (hU.canonicalNicknameKey_trim _).symm
    _ = canonicalNicknameKey U account := by rw [haccount]

end Unicode.LawfulKeys

/-! ## ASCII -/

namespace TicketsAux

/-- What is left between the white space at both ends. -/
def trimList (l : List Char) : List Char := ((l.dropWhile isWhitespace).reverse.dropWhile isWhitespace).reverse

/-- Trimming twice. -/
theorem trimList_idem (l : List Char) : trimList (trimList l) = trimList l := by
  have hhead : List.dropWhile isWhitespace (trimList l) = trimList l := by
    rw [List.dropWhile_eq_self_iff]
    intro hpos
    obtain ⟨a, ha⟩ : ∃ a, trimList l ++ a = l.dropWhile isWhitespace := by
      obtain ⟨a, ha⟩ := List.dropWhile_suffix isWhitespace (l := (l.dropWhile isWhitespace).reverse)
      refine ⟨a.reverse, ?_⟩
      rw [trimList, ← List.reverse_append, ha, List.reverse_reverse]
    have hlt : 0 < (trimList l ++ a).length := by
      rw [List.length_append]
      omega
    have hnot := List.dropWhile_get_zero_not isWhitespace l (ha ▸ hlt)
    have hget := List.getElem_of_eq ha hlt
    rw [List.getElem_append_left hpos] at hget
    rw [hget]
    exact hnot
  rw [trimList, hhead, trimList, List.reverse_reverse, List.dropWhile_idempotent]

/-- The code of a character in lower case. -/
theorem toNat_toLower (c : Char) : c.toLower.toNat = if 65 ≤ c.toNat ∧ c.toNat ≤ 90 then c.toNat + 32 else c.toNat := by
  unfold Char.toLower
  split <;> rename_i h
  · have hletter : 65 ≤ c.val.toNat ∧ c.val.toNat ≤ 90 := h
    have hadd : (c.val + ('a'.val - 'A'.val)).toNat = (c.val.toNat + 32) % 2 ^ 32 := UInt32.toNat_add _ _
    rw [Nat.mod_eq_of_lt (by omega)] at hadd
    exact hadd.trans (if_pos hletter).symm
  · have hother : ¬(65 ≤ c.val.toNat ∧ c.val.toNat ≤ 90) := h
    exact (if_neg hother).symm

/-- A letter in lower case is in lower case. -/
theorem toLower_toLower (c : Char) : c.toLower.toLower = c.toLower := by
  have hnat : c.toLower.toLower.toNat = c.toLower.toNat := by
    rw [toNat_toLower c.toLower, toNat_toLower c]
    by_cases h : 65 ≤ c.toNat ∧ c.toNat ≤ 90
    · rw [if_pos h, if_neg (by omega)]
    · rw [if_neg h, if_neg h]
  exact Char.ext (UInt32.toNat_inj.1 hnat)

/-- Lower case and white space. -/
theorem isWhitespace_toLower (c : Char) : isWhitespace c.toLower = isWhitespace c := by
  unfold isWhitespace
  simp only [toNat_toLower]
  split
  · grind
  · rfl

/-- The characters of a trimmed text. -/
theorem toList_trim (s : String) : (trim s).toList = trimList s.toList := by
  simp [trim, trimList]

end TicketsAux

/-- The Unicode functions on ASCII text keep the laws. -/
theorem lawfulKeys_ascii : Unicode.ascii.LawfulKeys where
  nfc_nfc _ := rfl
  trim_nfc_trim s := by
    apply String.toList_injective
    simp only [Unicode.ascii, id, TicketsAux.toList_trim, TicketsAux.trimList_idem]
  fold_stable s := by
    apply String.toList_injective
    simp only [Unicode.ascii, id, String.toList_ofList, List.map_map, Function.comp_def, TicketsAux.toLower_toLower]
  trim_nfc _ := rfl
  trim_caseFold s := by
    apply String.toList_injective
    have hcomp : isWhitespace ∘ Char.toLower = isWhitespace := funext TicketsAux.isWhitespace_toLower
    simp only [Unicode.ascii, TicketsAux.toList_trim, TicketsAux.trimList, String.toList_ofList, List.dropWhile_map, hcomp,
      ← List.map_reverse]

/-! ## The store -/

/-- `TICKET_LIFETIME`. -/
def ticketLifetime : Duration := seconds (60 * 60)

/-- A ticket. The serial is the observer's: the number of the call that provisioned it. -/
structure LoginTicket where
  nickname : String
  username : String
  issued : Instant
  serial : Nat
deriving DecidableEq

/-- The tickets by the keys of their nicknames. -/
abbrev TicketStore := FiniteMap String LoginTicket

namespace TicketStore

variable (U : Unicode)

/-- The ticket is not too old. -/
def isLive (now : Instant) (ticket : LoginTicket) : Bool := now - ticket.issued < ticketLifetime

def rotateLocked (now : Instant) (tickets : TicketStore) : TicketStore := tickets.retain (fun _ ticket => isLive now ticket)

def provision (tickets : TicketStore) (username nickname : String) (now : Instant) (serial : Nat) : TicketStore :=
  rotateLocked now (tickets.insert (canonicalNicknameKey U nickname) ⟨nickname, username, now, serial⟩)

def consume (tickets : TicketStore) (nickname : String) (now : Instant) : Option LoginTicket × TicketStore :=
  let tickets := rotateLocked now tickets
  (tickets.lookup (canonicalNicknameKey U nickname), tickets.erase (canonicalNicknameKey U nickname))

variable {U}

/-- Looking up after a rotation. -/
theorem lookup_rotateLocked (tickets : TicketStore) (now : Instant) (key : String) :
    AList.lookup key (rotateLocked now tickets) = (tickets.lookup key).filter (isLive now) :=
  FiniteMap.lookup_retain _ tickets key

/-- Looking up after a provision: the new ticket is live. -/
theorem lookup_provision (tickets : TicketStore) (username nickname key : String) (now : Instant) (serial : Nat) :
    AList.lookup key (provision U tickets username nickname now serial) =
      if key = canonicalNicknameKey U nickname then some ⟨nickname, username, now, serial⟩
      else (tickets.lookup key).filter (isLive now) := by
  have hlive : isLive now ⟨nickname, username, now, serial⟩ = true := by simp [isLive, ticketLifetime, seconds]
  rw [provision, lookup_rotateLocked, FiniteMap.lookup_insert]
  split
  · rw [Option.filter_some, if_pos hlive]
  · rfl

/-- Looking up after a consumption. -/
theorem lookup_consume (tickets : TicketStore) (nickname key : String) (now : Instant) :
    AList.lookup key (consume U tickets nickname now).2 =
      if key = canonicalNicknameKey U nickname then none else (tickets.lookup key).filter (isLive now) := by
  rw [consume, FiniteMap.lookup_erase]
  split
  · rfl
  · exact lookup_rotateLocked tickets now key

/-- A consumption finds the ticket of its key while it is live. -/
theorem consume_fst (tickets : TicketStore) (nickname : String) (now : Instant) :
    (consume U tickets nickname now).1 = (tickets.lookup (canonicalNicknameKey U nickname)).filter (isLive now) :=
  lookup_rotateLocked tickets now _

end TicketStore

end P5136
