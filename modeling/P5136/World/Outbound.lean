import P5136.World.State

/-!
# Reserving and publishing

A fan-out reserves a place in the queue of every recipient before anything is changed, and puts the batches in afterwards. When
a place is missing, nothing is queued to anyone.
-/

namespace P5136

namespace World

/-! ## Reserving -/

/-- `reserve_outbound` and `try_reserve_myroom_outbound`, with the sessions that have a place already: the session that has
none, if there is one. -/
def reserveFrom (sessions : FiniteMap SessionId SessionState) (reserved : List SessionId) :
    List OutboundDelivery → Except SessionId Unit
  | [] => .ok ()
  | (session, _) :: rest =>
    match sessions.lookup session with
    | none => .error session
    | some state =>
      match state.outbound with
      | none => .error session
      | some queue =>
        if !queue.accepts (reserved.count session) then .error session
        else if state.sealed then .error session
        else reserveFrom sessions (session :: reserved) rest

/-- Reserve a place for every delivery, or fail with the session that has none. -/
def reserve {ε : Type} (e : SessionId → ε) (deliveries : List OutboundDelivery) : Act World (Fault ε) Unit :=
  Act.reads (fun w => (reserveFrom w.sessions [] deliveries).mapError (fun session => .error (e session)))

/-! ## Publishing -/

/-- Put a batch into the queue of a session. -/
def pushTo (sessions : FiniteMap SessionId SessionState) (delivery : OutboundDelivery) :
    FiniteMap SessionId SessionState :=
  match sessions.lookup delivery.1 with
  | none => sessions
  | some state => sessions.insert delivery.1 { state with outbound := state.outbound.map (·.push delivery.2) }

/-- The world with the batches of a fan-out queued. -/
def published (w : World) (deliveries : List OutboundDelivery) : World :=
  { w with sessions := deliveries.foldl pushTo w.sessions }

def publishReserved {ε : Type} (deliveries : List OutboundDelivery) : Act World (Fault ε) Unit :=
  Act.modify (fun w => w.published deliveries)

/-! ## What they do -/

/-- A reservation changes nothing. -/
theorem readOnly_reserve {ε : Type} (e : SessionId → ε) (deliveries : List OutboundDelivery) :
    Act.ReadOnly (reserve e deliveries) :=
  Act.readOnly_reads _

/-- Publishing does not fail. -/
theorem total_publishReserved {ε : Type} (deliveries : List OutboundDelivery) :
    Act.Total (publishReserved deliveries : Act World (Fault ε) Unit) :=
  Act.total_modify _

end World

end P5136
