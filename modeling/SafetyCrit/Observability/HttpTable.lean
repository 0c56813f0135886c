import Mathlib.Data.Fintype.Card
import SafetyCrit.Observability.HttpHeads

/-!
Owns the connection table of `http_server.cpp`: the slots, the counter of live
connections and the calls of `close`, through accepts, receives, timeouts and
closes.

The server is single-threaded. Handlers may answer differently each time they
are called, sends may fail, and the clock may read anything. What `accept4` has
returned is kept apart from the table, by the rule of a step: a descriptor that
the server were to drop is accepted, and neither stored nor closed.
-/

namespace SafetyCrit.Observability.Http

open SafetyCrit.Library.Search

/-- `kMaxConnections`. -/
def kMaxConnections : Nat := 16

/-! ### One connection -/

/-- `HttpServer::Connection`; `buf` holds the first `len` bytes of the buffer, and
a free slot has no descriptor. -/
structure Slot where
  fd : Option Nat
  buf : List Char
  lastActivityNs : UInt64
  firstByteNs : UInt64

/-- `Connection{}`, and what `close_connection` leaves. -/
def Slot.free : Slot := ⟨none, [], 0, 0⟩

/-- What the world does in one pass of the loop of `service_connection`: the
handlers' answers, whether the response is sent, and the two readings of the
clock. -/
structure Pass where
  routes : List Route
  sends : Bool
  firstByteNow : UInt64
  activityNow : UInt64

/-- How a pass ends: `service_connection` returns, or the loop goes on. -/
inductive PassResult where
  | returns (slot : Slot) (keep : Bool)
  | again (slot : Slot)

/-- Drop an answered head from the buffer. -/
def Slot.consume (slot : Slot) (pass : Pass) (head : List Char) : Slot :=
  { slot with
    buf := slot.buf.drop head.length
    firstByteNs := if slot.buf.drop head.length = [] then 0 else pass.firstByteNow
    lastActivityNs := pass.activityNow }

/-- One pass of the loop. -/
def Slot.servicePass (pass : Pass) (slot : Slot) : PassResult :=
  match judge slot.buf with
  | .wait => .returns slot true
  | .refuse => .returns slot false
  | .serve head =>
      match decideHead head with
      | .tooLarge => .returns slot false
      | .badRequest => .returns slot false
      | .route method path keepAlive =>
          if (sendResponse (routeAnswer pass.routes method path) (method = "HEAD".toList)
              keepAlive).isSome && pass.sends then
            if ¬ keepAlive then .returns (slot.consume pass head) false
            else if (slot.consume pass head).buf = [] then .returns (slot.consume pass head) true
            else .again (slot.consume pass head)
          else .returns slot false

/-- Everything a pass can do. -/
theorem Slot.servicePass_cases (pass : Pass) (slot : Slot) :
    slot.servicePass pass = .returns slot true ∧ slot.buf.length < kHeadCapacity ∨
      slot.servicePass pass = .returns slot false ∨
      ∃ head, judge slot.buf = .serve head ∧
        (slot.servicePass pass = .returns (slot.consume pass head) false ∨
          slot.servicePass pass = .returns (slot.consume pass head) true ∧
            (slot.consume pass head).buf = [] ∨
          slot.servicePass pass = .again (slot.consume pass head)) := by
  unfold servicePass
  cases verdict : judge slot.buf with
  | wait =>
      refine Or.inl ⟨rfl, ?_⟩
      have larger : kMaxRequestLineBytes < kHeadCapacity := by decide
      rcases judge_cases slot.buf with ⟨-, ⟨short, -⟩ | ⟨-, taken⟩⟩ | ⟨_, -, ⟨-, taken⟩ |
        ⟨-, -, ⟨short, -⟩ | ⟨-, taken⟩⟩ | ⟨-, _, -, taken⟩⟩
      · omega
      · cases verdict.symm.trans taken
      · cases verdict.symm.trans taken
      · exact short
      · cases verdict.symm.trans taken
      · cases verdict.symm.trans taken
  | refuse => exact Or.inr (Or.inl rfl)
  | serve head =>
      right
      dsimp only
      cases decideHead head with
      | tooLarge => exact Or.inl rfl
      | badRequest => exact Or.inl rfl
      | route method path keepAlive =>
          dsimp only
          split_ifs with sent kept empty
          · exact Or.inr ⟨head, rfl, Or.inr (Or.inl ⟨rfl, empty⟩)⟩
          · exact Or.inr ⟨head, rfl, Or.inr (Or.inr rfl)⟩
          · exact Or.inr ⟨head, rfl, Or.inl rfl⟩
          · exact Or.inl rfl

/-- A loop that goes on has removed a complete head. -/
theorem Slot.again_removes {pass : Pass} {slot next : Slot}
    (again : slot.servicePass pass = .again next) :
    ∃ head : RequestHead, slot.buf = head.text ++ next.buf ∧ next.fd = slot.fd := by
  rcases slot.servicePass_cases pass with ⟨taken, -⟩ | taken | ⟨own, verdict, taken | ⟨taken, -⟩ |
    taken⟩
  · cases again.symm.trans taken
  · cases again.symm.trans taken
  · cases again.symm.trans taken
  · cases again.symm.trans taken
  · cases again.symm.trans taken
    obtain ⟨firstCrlf, headEnd, -, -, mark, rfl⟩ := judge_serve verdict
    obtain ⟨head, text⟩ := exists_requestHead mark
    refine ⟨head, ?_, rfl⟩
    rw [text]
    have fits := end_le_of_find mark
    have size : headMark.length = 4 := rfl
    have cut : (slot.consume pass (slot.buf.take (headEnd + 4))).buf =
        slot.buf.drop (headEnd + 4) := by
      rw [consume, List.length_take, Nat.min_eq_left (by omega)]
    rw [cut, List.take_append_drop]

theorem length_text_pos (head : RequestHead) : 4 ≤ head.text.length := by
  rw [RequestHead.length_text]
  exact Nat.le_add_left 4 _

/-- `service_connection`: the slot it leaves, and whether the connection stays
open. -/
def Slot.service (passes : Nat → Pass) (slot : Slot) : Slot × Bool :=
  match _passed : slot.servicePass (passes 0) with
  | .returns next keep => (next, keep)
  | .again next => next.service fun count => passes (count + 1)
termination_by slot.buf.length
decreasing_by
  obtain ⟨head, cut, -⟩ := Slot.again_removes _passed
  have long := length_text_pos head
  rw [cut, List.length_append]
  omega

/-- The loop returns in the pass with the given number. -/
inductive Slot.ReturnsIn : (Nat → Pass) → Slot → Nat → Slot × Bool → Prop where
  | returns {passes : Nat → Pass} {slot next : Slot} {keep : Bool}
      (passed : slot.servicePass (passes 0) = .returns next keep) :
      ReturnsIn passes slot 1 (next, keep)
  | again {passes : Nat → Pass} {slot next : Slot} {count : Nat} {result : Slot × Bool}
      (passed : slot.servicePass (passes 0) = .again next)
      (later : ReturnsIn (fun count => passes (count + 1)) next count result) :
      ReturnsIn passes slot (count + 1) result

theorem Slot.service_returns {passes : Nat → Pass} {slot next : Slot} {keep : Bool}
    (passed : slot.servicePass (passes 0) = .returns next keep) :
    slot.service passes = (next, keep) := by
  rw [service]
  split
  · next other =>
    cases passed.symm.trans other
    rfl
  · next other => cases passed.symm.trans other

theorem Slot.service_again {passes : Nat → Pass} {slot next : Slot}
    (passed : slot.servicePass (passes 0) = .again next) :
    slot.service passes = next.service fun count => passes (count + 1) := by
  rw [service]
  split
  · next other => cases passed.symm.trans other
  · next other =>
    cases passed.symm.trans other
    rfl

/-- What `service_connection` does on any slot: it returns, each pass but the
last removes a complete head, the descriptor stays, and a connection that it
keeps open has room in its buffer. -/
structure Slot.Serviced (passes : Nat → Pass) (slot : Slot) : Prop where
  terminates : ∃ (heads : List RequestHead) (last : List Char),
    ReturnsIn passes slot (heads.length + 1) (slot.service passes) ∧
      slot.buf = heads.flatMap RequestHead.text ++ last
  descriptor : (slot.service passes).1.fd = slot.fd
  smaller : (slot.service passes).1.buf.length ≤ slot.buf.length
  room : (slot.service passes).2 = true → (slot.service passes).1.buf.length < kHeadCapacity

theorem Slot.serviced (passes : Nat → Pass) (slot : Slot) : Serviced passes slot := by
  induction size : slot.buf.length using Nat.strong_induction_on generalizing slot passes with
  | h size inductionHypothesis =>
  subst size
  have once {next : Slot} {keep : Bool}
      (passed : slot.servicePass (passes 0) = .returns next keep) (same : next.fd = slot.fd)
      (smaller : next.buf.length ≤ slot.buf.length)
      (room : keep = true → next.buf.length < kHeadCapacity) : Serviced passes slot := by
    have result := service_returns passed
    refine ⟨⟨[], slot.buf, ?_, rfl⟩, ?_, ?_, ?_⟩
    · rw [result]
      exact .returns passed
    · rw [result]
      exact same
    · rw [result]
      exact smaller
    · rw [result]
      exact room
  have consumed (head : List Char) :
      (slot.consume (passes 0) head).buf.length ≤ slot.buf.length := by
    rw [consume, List.length_drop]
    exact Nat.sub_le _ _
  rcases slot.servicePass_cases (passes 0) with ⟨taken, short⟩ | taken | ⟨head, -, taken |
    ⟨taken, empty⟩ | taken⟩
  · exact once taken rfl le_rfl fun _ => short
  · exact once taken rfl le_rfl fun keeps => by cases keeps
  · exact once taken rfl (consumed head) fun keeps => by cases keeps
  · refine once taken rfl (consumed head) fun _ => ?_
    rw [empty]
    decide
  · obtain ⟨removed, cut, same⟩ := again_removes taken
    have long := length_text_pos removed
    have less : (slot.consume (passes 0) head).buf.length < slot.buf.length := by
      rw [cut, List.length_append]
      omega
    obtain ⟨⟨heads, last, returns, rest⟩, descriptor, smaller, room⟩ :=
      inductionHypothesis _ less (fun count => passes (count + 1)) _ rfl
    have result := service_again taken
    refine ⟨⟨removed :: heads, last, ?_, ?_⟩, ?_, ?_, ?_⟩
    · rw [result]
      exact .again taken returns
    · rw [cut, rest, List.flatMap_cons, List.append_assoc]
    · rw [result]
      exact descriptor
    · rw [result]
      exact smaller.trans less.le
    · rw [result]
      exact room

theorem service_stops {routes : List Route} {conn : Connection} {head : List Char}
    (verdict : judge conn.buf = .serve head) (stops : (answer routes head).2 = false) :
    (serviceConnection routes conn).isOpen = false := by
  cases answered : answer routes head with
  | mk sent keepAlive =>
      rw [answered] at stops
      cases stops
      cases sent with
      | none => rw [service_unsent verdict answered]
      | some bytes => rw [service_closes verdict answered]

/-- Where every response is sent and the handlers always answer alike, the
service is that of the model of one connection. -/
theorem Slot.service_agrees {routes : List Route} {passes : Nat → Pass} {slot : Slot}
    {conn : Connection} (isOpen : conn.isOpen = true) (same : slot.buf = conn.buf)
    (steady : ∀ count, (passes count).routes = routes ∧ (passes count).sends = true) :
    (slot.service passes).2 = (serviceConnection routes conn).isOpen ∧
      ((slot.service passes).2 = true →
        (slot.service passes).1.buf = (serviceConnection routes conn).buf) := by
  induction size : slot.buf.length using Nat.strong_induction_on generalizing slot passes conn with
  | h size inductionHypothesis =>
  subst size
  have drops {next : Slot} (passed : slot.servicePass (passes 0) = .returns next false)
      (closed : (serviceConnection routes conn).isOpen = false) :
      (slot.service passes).2 = (serviceConnection routes conn).isOpen ∧
        ((slot.service passes).2 = true →
          (slot.service passes).1.buf = (serviceConnection routes conn).buf) := by
    rw [service_returns passed, closed]
    exact ⟨rfl, fun keeps => by cases keeps⟩
  cases verdict : judge conn.buf with
  | wait =>
      have passed : slot.servicePass (passes 0) = .returns slot true := by
        rw [servicePass, same, verdict]
      rw [service_returns passed, service_wait verdict]
      exact ⟨isOpen.symm, fun _ => same⟩
  | refuse =>
      have passed : slot.servicePass (passes 0) = .returns slot false := by
        rw [servicePass, same, verdict]
      exact drops passed (by rw [service_refuse verdict])
  | serve head =>
      have responded := answer_eq routes head
      cases decided : decideHead head with
      | tooLarge =>
          have passed : slot.servicePass (passes 0) = .returns slot false := by
            simp only [servicePass, same, verdict, decided]
          refine drops passed (service_stops verdict ?_)
          rw [responded, decided, respond]
      | badRequest =>
          have passed : slot.servicePass (passes 0) = .returns slot false := by
            simp only [servicePass, same, verdict, decided]
          refine drops passed (service_stops verdict ?_)
          rw [responded, decided, respond]
      | route method path keepAlive =>
          rw [decided, respond] at responded
          have passed : slot.servicePass (passes 0) =
              if (sendResponse (routeAnswer routes method path) (method = "HEAD".toList)
                  keepAlive).isSome then
                if ¬ keepAlive then .returns (slot.consume (passes 0) head) false
                else if (slot.consume (passes 0) head).buf = [] then
                  .returns (slot.consume (passes 0) head) true
                else .again (slot.consume (passes 0) head)
              else .returns slot false := by
            simp only [servicePass, same, verdict, decided, (steady 0).1, (steady 0).2,
              Bool.and_true]
          generalize sendResponse (routeAnswer routes method path) (method = "HEAD".toList)
            keepAlive = sent at responded passed
          cases sent with
          | none =>
              refine drops passed (service_stops verdict ?_)
              rw [responded]
              exact Bool.and_false _
          | some bytes =>
              rw [Option.isSome_some, if_pos rfl] at passed
              cases keepAlive with
              | false =>
                  refine drops passed (service_stops verdict ?_)
                  rw [responded]
                  rfl
              | true =>
                  rw [if_neg (by simp)] at passed
                  rw [service_continues verdict responded]
                  have rest : (slot.consume (passes 0) head).buf =
                      (conn.answered head bytes).buf := congrArg (List.drop head.length) same
                  by_cases empty : (slot.consume (passes 0) head).buf = []
                  · rw [if_pos empty] at passed
                    rw [service_returns passed, service_wait (by rw [← rest, empty]; rfl)]
                    exact ⟨isOpen.symm, fun _ => rest⟩
                  · rw [if_neg empty] at passed
                    obtain ⟨removed, cut, -⟩ := again_removes passed
                    have long := length_text_pos removed
                    rw [service_again passed]
                    refine inductionHypothesis _ ?_ isOpen rest
                      (fun count => steady (count + 1)) rfl
                    rw [cut, List.length_append]
                    omega

/-! ### The table -/

/-- The connection table: `connections_`, `live_connections_`, and the
descriptors that the server has closed, the last one first. -/
structure Table where
  slots : Fin kMaxConnections → Slot
  live : UInt64
  closed : List Nat

/-- The timeouts of the configuration, in nanoseconds. -/
structure Timeouts where
  requestNs : UInt64
  idleNs : UInt64

/-- What a `recv` brings. -/
inductive Received where
  | bytes (chunk : List Char) (firstByteNow activityNow : UInt64) (passes : Nat → Pass)
  | retry
  | ended

/-- The slot with the bytes that a `recv` brings. -/
def Slot.fill (slot : Slot) (chunk : List Char) (firstByteNow activityNow : UInt64) : Slot :=
  { slot with
    buf := slot.buf ++ chunk
    firstByteNs := if slot.buf = [] then firstByteNow else slot.firstByteNs
    lastActivityNs := activityNow }

namespace Table

def store (table : Table) (index : Fin kMaxConnections) (slot : Slot) : Table :=
  { table with slots := Function.update table.slots index slot }

/-- `close_connection`. -/
def closeConnection (table : Table) (index : Fin kMaxConnections) : Table :=
  match (table.slots index).fd with
  | none => table.store index .free
  | some fd =>
      { table.store index .free with live := table.live - 1, closed := fd :: table.closed }

/-- The first free slot. -/
def freeSlot (table : Table) : Option (Fin kMaxConnections) :=
  (List.finRange kMaxConnections).find? fun index => (table.slots index).fd.isNone

/-- A pass of `accept_pending` in which `accept4` returns a descriptor. -/
def acceptOne (table : Table) (fd : Nat) (now : UInt64) : Table :=
  if table.live ≥ UInt64.ofNat kMaxConnections then
    { table with closed := fd :: table.closed }
  else match table.freeSlot with
    | none => table
    | some index =>
        { table.store index { Slot.free with fd := some fd, lastActivityNs := now } with
          live := table.live + 1 }

/-- The body of the loop of `apply_timeouts`. -/
def applyTimeout (config : Timeouts) (now : UInt64) (table : Table)
    (index : Fin kMaxConnections) : Table :=
  let slot := table.slots index
  if slot.fd.isNone then table
  else if slot.buf = [] then
    if now - slot.lastActivityNs ≥ config.idleNs then table.closeConnection index else table
  else if now - slot.firstByteNs ≥ config.requestNs then table.closeConnection index
  else table

/-- `apply_timeouts`. -/
def applyTimeouts (config : Timeouts) (now : UInt64) (table : Table) : Table :=
  (List.finRange kMaxConnections).foldl (applyTimeout config now) table

/-- The slot of a polled descriptor, if it has not been closed. -/
def slotOf (table : Table) (fd : Nat) : Option (Fin kMaxConnections) :=
  (List.finRange kMaxConnections).find? fun index => (table.slots index).fd = some fd

/-- What `run` does with a slot whose descriptor is ready. -/
def receiveAt (table : Table) (index : Fin kMaxConnections) : Received → Table
  | .bytes chunk firstByteNow activityNow passes =>
      let filled := Slot.fill (table.slots index) chunk firstByteNow activityNow
      let serviced := table.store index (filled.service passes).1
      if (filled.service passes).2 then serviced else serviced.closeConnection index
  | .retry => table
  | .ended => table.closeConnection index

/-- What `run` does with a descriptor that `poll` reported. -/
def receive (table : Table) (fd : Nat) (received : Received) : Table :=
  match table.slotOf fd with
  | none => table
  | some index => table.receiveAt index received

/-- `HttpServer::close`. -/
def close (table : Table) : Table :=
  (List.finRange kMaxConnections).foldl closeConnection table

/-- A server just constructed. -/
def initial : Table := ⟨fun _ => .free, 0, []⟩

end Table

/-- What can happen to a table. -/
inductive TableEvent where
  | accept (fd : Nat) (now : UInt64)
  | timeouts (now : UInt64)
  | receive (fd : Nat) (received : Received)
  | close

/-- What `accept4` returns in an event. -/
def TableEvent.accepted : TableEvent → List Nat
  | .accept fd _ => [fd]
  | _ => []

namespace Table

/-- What the kernel does behind a history of accepted descriptors: one that it
hands out is not open, which is to say that it has been closed as often as it was
handed out before; and `recv` returns some bytes, at most as many as it is asked
for. -/
def Allows (history : List Nat) (table : Table) : TableEvent → Prop
  | .accept fd _ => history.count fd = table.closed.count fd
  | .receive fd (.bytes chunk _ _ _) =>
      chunk ≠ [] ∧ ∀ index, table.slotOf fd = some index →
        (table.slots index).buf.length + chunk.length ≤ kHeadCapacity
  | _ => True

def apply (config : Timeouts) (table : Table) : TableEvent → Table
  | .accept fd now => table.acceptOne fd now
  | .timeouts now => table.applyTimeouts config now
  | .receive fd received => table.receive fd received
  | .close => table.close

/-- The tables that a server can have, each with the descriptors that it has
accepted. -/
inductive Reachable (config : Timeouts) : List Nat → Table → Prop where
  | initial : Reachable config [] initial
  | step {history : List Nat} {table : Table} (earlier : Reachable config history table)
      {event : TableEvent} (allowed : Allows history table event) :
      Reachable config (event.accepted ++ history) (table.apply config event)

/-- What an iteration of the loop of `run` meets: the clock, the connections that
wait to be accepted, and what `recv` brings for each descriptor that `poll`
reports. -/
structure Round where
  now : UInt64
  waiting : List (Nat × UInt64)
  received : Nat → Option Received

/-- The descriptors that `run` polls. -/
def polled (table : Table) : List Nat :=
  (List.finRange kMaxConnections).filterMap fun index => (table.slots index).fd

/-- An iteration: the table is polled before anything is done to it. -/
def iteration (table : Table) (round : Round) : List TableEvent :=
  .timeouts round.now :: (round.waiting.map fun waiting => .accept waiting.1 waiting.2) ++
    table.polled.filterMap fun fd => (round.received fd).map (.receive fd)

/-- The kernel allows events one after the other. -/
def AllowsAll (config : Timeouts) : List Nat → Table → List TableEvent → Prop
  | _, _, [] => True
  | history, table, event :: events =>
      Allows history table event ∧
        AllowsAll config (event.accepted ++ history) (table.apply config event) events

/-- The descriptors accepted behind some events. -/
def acceptedBehind (history : List Nat) (events : List TableEvent) : List Nat :=
  events.foldl (fun history event => event.accepted ++ history) history

theorem reachable_events {config : Timeouts} {history : List Nat} {table : Table}
    (reachable : Reachable config history table) {events : List TableEvent}
    (allowed : AllowsAll config history table events) :
    Reachable config (acceptedBehind history events) (events.foldl (apply config) table) := by
  induction events generalizing history table with
  | nil => exact reachable
  | cons event events inductionHypothesis =>
      exact inductionHypothesis (reachable.step allowed.1) allowed.2

/-- Every iteration of `run` leads from a table to a table. -/
theorem reachable_iteration {config : Timeouts} {history : List Nat} {table : Table}
    (reachable : Reachable config history table) {round : Round}
    (allowed : AllowsAll config history table (table.iteration round)) :
    Reachable config (acceptedBehind history (table.iteration round))
      ((table.iteration round).foldl (apply config) table) :=
  reachable_events reachable allowed

/-! ### What every table keeps -/

/-- The slots with a descriptor. -/
def openSlots (table : Table) : Finset (Fin kMaxConnections) :=
  Finset.univ.filter fun index => (table.slots index).fd.isSome

/-- A slot holds the descriptor. -/
def Holds (table : Table) (fd : Nat) : Prop :=
  ∃ index, (table.slots index).fd = some fd

structure Consistent (history : List Nat) (table : Table) : Prop where
  counted : table.live.toNat = table.openSlots.card
  distinct : ∀ first second fd, (table.slots first).fd = some fd →
    (table.slots second).fd = some fd → first = second
  /-- What was accepted once more than it was closed is in a slot. -/
  held : ∀ fd, table.Holds fd → history.count fd = table.closed.count fd + 1
  dropped : ∀ fd, ¬ table.Holds fd → history.count fd = table.closed.count fd
  room : ∀ index, (table.slots index).buf.length < kHeadCapacity

variable {history : List Nat} {table : Table}

theorem consistent_initial : Consistent [] initial where
  counted := by decide
  distinct := by
    intro first second fd held
    cases held
  held := by
    rintro fd ⟨index, held⟩
    cases held
  dropped := fun _ _ => rfl
  room := by
    intro index
    change 0 < kHeadCapacity
    decide

/-- The descriptors after a slot has been overwritten. -/
theorem fd_store (index other : Fin kMaxConnections) (slot : Slot) :
    ((table.store index slot).slots other).fd =
      if other = index then slot.fd else (table.slots other).fd := by
  change (Function.update table.slots index slot other).fd = _
  split_ifs with here
  · rw [here, Function.update_self]
  · rw [Function.update_of_ne here]

theorem room_store (consistent : Consistent history table) {index : Fin kMaxConnections}
    {slot : Slot} (room : slot.buf.length < kHeadCapacity) (other : Fin kMaxConnections) :
    ((table.store index slot).slots other).buf.length < kHeadCapacity := by
  change (Function.update table.slots index slot other).buf.length < _
  by_cases here : other = index
  · rw [here, Function.update_self]
    exact room
  · rw [Function.update_of_ne here]
    exact consistent.room other

theorem room_free : Slot.free.buf.length < kHeadCapacity := by decide

/-- A slot may change its buffer and its times. -/
theorem Consistent.store (consistent : Consistent history table) {index : Fin kMaxConnections}
    {slot : Slot} (same : slot.fd = (table.slots index).fd)
    (room : slot.buf.length < kHeadCapacity) : Consistent history (table.store index slot) := by
  have kept (other : Fin kMaxConnections) :
      ((table.store index slot).slots other).fd = (table.slots other).fd := by
    rw [fd_store]
    split_ifs with here
    · rw [same, here]
    · rfl
  have holds (fd : Nat) : (table.store index slot).Holds fd ↔ table.Holds fd := by
    simp only [Holds, kept]
  refine ⟨?_, ?_, fun fd held => consistent.held fd ((holds fd).mp held),
    fun fd dropped => consistent.dropped fd fun held => dropped ((holds fd).mpr held),
    room_store consistent room⟩
  · have slots : (table.store index slot).openSlots = table.openSlots := by
      simp only [openSlots, kept]
    rw [slots]
    exact consistent.counted
  · simpa only [kept] using consistent.distinct

/-- Closing an open slot takes it out of the open ones and closes its
descriptor once. -/
theorem Consistent.closeConnection (consistent : Consistent history table)
    (index : Fin kMaxConnections) : Consistent history (table.closeConnection index) := by
  unfold Table.closeConnection
  cases held : (table.slots index).fd with
  | none => exact consistent.store held.symm room_free
  | some fd =>
      dsimp only
      have slots (other : Fin kMaxConnections) :
          ((table.store index .free).slots other).fd =
            if other = index then none else (table.slots other).fd := fd_store index other .free
      have isOpen : index ∈ table.openSlots := by
        rw [openSlots, Finset.mem_filter, held]
        exact ⟨Finset.mem_univ index, rfl⟩
      have gone : ¬ (table.store index .free).Holds fd := by
        rintro ⟨place, found⟩
        rw [slots] at found
        split_ifs at found with here
        exact here (consistent.distinct _ _ _ found held)
      have kept {other : Nat} (different : fd ≠ other) :
          (table.store index .free).Holds other ↔ table.Holds other := by
        refine exists_congr fun place => ?_
        rw [slots]
        split_ifs with here
        · rw [here, held, Option.some.injEq]
          exact iff_of_false not_false different
        · exact Iff.rfl
      refine ⟨?_, ?_, fun other found => ?_, fun other missing => ?_,
        room_store consistent room_free⟩
      · have fewer : (table.store index .free).openSlots = table.openSlots.erase index := by
          ext other
          rw [openSlots, openSlots, Finset.mem_filter, Finset.mem_erase, Finset.mem_filter, slots]
          split_ifs with here
          · simp [here]
          · simp [here]
        have positive := Finset.card_pos.mpr ⟨index, isOpen⟩
        have one : (1 : UInt64) ≤ table.live := by
          rw [UInt64.le_iff_toNat_le, consistent.counted]
          exact positive
        change (table.live - 1).toNat = (table.store index .free).openSlots.card
        rw [fewer, Finset.card_erase_of_mem isOpen, UInt64.toNat_sub_of_le _ _ one,
          consistent.counted]
        rfl
      · intro first second other
        change ((table.store index .free).slots first).fd = some other →
          ((table.store index .free).slots second).fd = some other → first = second
        rw [slots, slots]
        split_ifs
        · simp
        · simp
        · simp
        · exact consistent.distinct first second other
      · have different : fd ≠ other := fun same => gone (same ▸ found)
        change history.count other = (fd :: table.closed).count other + 1
        rw [List.count_cons_of_ne different]
        exact consistent.held other ((kept different).mp found)
      · change history.count other = (fd :: table.closed).count other
        by_cases same : fd = other
        · subst same
          rw [List.count_cons_self]
          exact consistent.held fd ⟨index, held⟩
        · rw [List.count_cons_of_ne same]
          exact consistent.dropped other fun found => missing ((kept same).mpr found)

/-- With a descriptor too few there is a free slot. -/
theorem exists_freeSlot (few : table.openSlots.card < kMaxConnections) :
    ∃ index, table.freeSlot = some index ∧ (table.slots index).fd = none := by
  cases found : table.freeSlot with
  | some index =>
      have isFree := List.find?_some found
      rw [Option.isNone_iff_eq_none] at isFree
      exact ⟨index, rfl, isFree⟩
  | none =>
      have taken := List.find?_eq_none.mp found
      have all : table.openSlots = Finset.univ := by
        rw [openSlots, Finset.filter_eq_self]
        intro index _
        have held := taken index (List.mem_finRange index)
        rwa [Option.isNone_iff_eq_none, ← ne_eq, ← Option.isSome_iff_ne_none] at held
      rw [all, Finset.card_univ, Fintype.card_fin] at few
      exact absurd few (Nat.lt_irrefl _)

/-- A descriptor that is handed out is in no slot yet. -/
theorem Consistent.unheld (consistent : Consistent history table) {fd : Nat}
    (fresh : history.count fd = table.closed.count fd) : ¬ table.Holds fd := fun held =>
  absurd (consistent.held fd held) (by omega)

theorem Consistent.acceptOne (consistent : Consistent history table) {fd : Nat}
    (fresh : history.count fd = table.closed.count fd) (now : UInt64) :
    Consistent (fd :: history) (table.acceptOne fd now) := by
  have unheld := consistent.unheld fresh
  unfold Table.acceptOne
  split_ifs with full
  · refine ⟨consistent.counted, consistent.distinct, fun other found => ?_,
      fun other missing => ?_, consistent.room⟩
    · change (fd :: history).count other = (fd :: table.closed).count other + 1
      rw [List.count_cons, List.count_cons, consistent.held other found, Nat.add_right_comm]
    · change (fd :: history).count other = (fd :: table.closed).count other
      rw [List.count_cons, List.count_cons, consistent.dropped other missing]
  · have few : table.openSlots.card < kMaxConnections := by
      rw [ge_iff_le, UInt64.le_iff_toNat_le, consistent.counted, not_le] at full
      exact full
    obtain ⟨index, found, free⟩ := exists_freeSlot few
    rw [found]
    dsimp only
    generalize placed : ({ Slot.free with fd := some fd, lastActivityNs := now } : Slot) = slot
    have own : slot.fd = some fd := by rw [← placed]
    have room : slot.buf.length < kHeadCapacity := by
      rw [← placed]
      exact room_free
    have slots (other : Fin kMaxConnections) := table.fd_store index other slot
    have stored : (table.store index slot).Holds fd := ⟨index, by rw [slots, if_pos rfl, own]⟩
    have kept {other : Nat} (different : fd ≠ other) :
        (table.store index slot).Holds other ↔ table.Holds other := by
      refine exists_congr fun place => ?_
      rw [slots, own]
      split_ifs with here
      · rw [here, free, Option.some.injEq]
        exact iff_of_false different (Option.some_ne_none other).symm
      · exact Iff.rfl
    refine ⟨?_, ?_, fun other found => ?_, fun other missing => ?_, room_store consistent room⟩
    · have more : (table.store index slot).openSlots = insert index table.openSlots := by
        ext other
        rw [openSlots, openSlots, Finset.mem_filter, Finset.mem_insert, Finset.mem_filter, slots]
        split_ifs with here
        · simp [here, own]
        · simp [here]
      have closed : index ∉ table.openSlots := by
        rw [openSlots, Finset.mem_filter, free]
        simp
      change (table.live + 1).toNat = (table.store index slot).openSlots.card
      rw [more, Finset.card_insert_of_notMem closed, UInt64.toNat_add, consistent.counted]
      have bound : kMaxConnections = 16 := rfl
      exact Nat.mod_eq_of_lt (by change table.openSlots.card + 1 < _; omega)
    · intro first second other
      change ((table.store index slot).slots first).fd = some other →
        ((table.store index slot).slots second).fd = some other → first = second
      rw [slots, slots, own]
      split_ifs with firstHere secondHere secondHere
      · exact fun _ _ => firstHere.trans secondHere.symm
      · intro same held
        rw [← same] at held
        exact absurd ⟨second, held⟩ unheld
      · intro held same
        rw [← same] at held
        exact absurd ⟨first, held⟩ unheld
      · exact consistent.distinct first second other
    · change (fd :: history).count other = table.closed.count other + 1
      by_cases same : fd = other
      · subst same
        rw [List.count_cons_self, fresh]
      · rw [List.count_cons_of_ne same]
        exact consistent.held other ((kept same).mp found)
    · have different : fd ≠ other := fun same => missing (same ▸ stored)
      change (fd :: history).count other = table.closed.count other
      rw [List.count_cons_of_ne different]
      exact consistent.dropped other fun found => missing ((kept different).mpr found)

theorem consistent_foldl {step : Table → Fin kMaxConnections → Table}
    (keeps : ∀ table index, Consistent history table → Consistent history (step table index))
    (consistent : Consistent history table) (indices : List (Fin kMaxConnections)) :
    Consistent history (indices.foldl step table) := by
  induction indices generalizing table with
  | nil => exact consistent
  | cons index indices inductionHypothesis =>
      exact inductionHypothesis (keeps table index consistent)

theorem Consistent.applyTimeouts (consistent : Consistent history table) (config : Timeouts)
    (now : UInt64) : Consistent history (table.applyTimeouts config now) := by
  refine consistent_foldl (fun table index consistent => ?_) consistent _
  unfold applyTimeout
  dsimp only
  split_ifs
  · exact consistent
  · exact consistent.closeConnection index
  · exact consistent
  · exact consistent.closeConnection index
  · exact consistent

/-- What a slot holds does not matter once it is closed. -/
theorem closeConnection_store {index : Fin kMaxConnections} {slot : Slot}
    (same : slot.fd = (table.slots index).fd) :
    (table.store index slot).closeConnection index = table.closeConnection index := by
  have own : ((table.store index slot).slots index).fd = (table.slots index).fd := by
    rw [fd_store, if_pos rfl, same]
  have stored : (table.store index slot).store index .free = table.store index .free := by
    simp only [Table.store, Function.update_idem]
  rw [Table.closeConnection, Table.closeConnection, own, stored]
  rfl

theorem Consistent.receive (consistent : Consistent history table) (fd : Nat)
    (received : Received) : Consistent history (table.receive fd received) := by
  unfold Table.receive
  cases table.slotOf fd with
  | none => exact consistent
  | some index =>
      cases received with
      | retry => exact consistent
      | ended => exact consistent.closeConnection index
      | bytes chunk firstByteNow activityNow passes =>
          have serviced := Slot.serviced passes
            ((table.slots index).fill chunk firstByteNow activityNow)
          dsimp only [receiveAt]
          split_ifs with keeps
          · exact consistent.store serviced.descriptor (serviced.room keeps)
          · rw [closeConnection_store serviced.descriptor]
            exact consistent.closeConnection index

theorem Consistent.apply (consistent : Consistent history table) (config : Timeouts)
    {event : TableEvent} (allowed : Allows history table event) :
    Consistent (event.accepted ++ history) (table.apply config event) := by
  cases event with
  | accept fd now => exact consistent.acceptOne allowed now
  | timeouts now => exact consistent.applyTimeouts config now
  | receive fd received => exact consistent.receive fd received
  | close =>
      exact consistent_foldl (fun table index consistent => consistent.closeConnection index)
        consistent _

theorem Reachable.consistent {config : Timeouts} (reachable : Reachable config history table) :
    Consistent history table := by
  induction reachable with
  | initial => exact consistent_initial
  | step _ allowed inductionHypothesis => exact inductionHypothesis.apply config allowed

/-- What holds of the table between any two steps. -/
structure Lawful (history : List Nat) (table : Table) : Prop where
  live : table.live.toNat = table.openSlots.card
  bounded : table.live.toNat ≤ kMaxConnections
  /-- A descriptor has been closed as often as it was accepted, or its last
  acceptance is in one slot. -/
  stored : ∀ fd, history.count fd = table.closed.count fd ∧ ¬ table.Holds fd ∨
    history.count fd = table.closed.count fd + 1 ∧ ∃! index, (table.slots index).fd = some fd
  /-- With fewer than sixteen connections an accepted one finds a slot. -/
  free : table.live.toNat < kMaxConnections → table.freeSlot.isSome
  /-- The next `recv` has room, and the bytes it brings fit the buffer. -/
  room : ∀ index, (table.slots index).buf.length < kHeadCapacity
  fits : ∀ fd chunk firstByteNow activityNow passes index,
    Allows history table (.receive fd (.bytes chunk firstByteNow activityNow passes)) →
      table.slotOf fd = some index →
      ((table.slots index).fill chunk firstByteNow activityNow).buf.length ≤ kHeadCapacity

theorem Consistent.lawful (consistent : Consistent history table) : Lawful history table where
  live := consistent.counted
  bounded := by
    rw [consistent.counted]
    exact (Finset.card_le_univ _).trans (Fintype.card_fin kMaxConnections).le
  stored := by
    intro fd
    by_cases found : table.Holds fd
    · obtain ⟨index, held⟩ := found
      exact Or.inr ⟨consistent.held fd ⟨index, held⟩, index, held,
        fun other again => consistent.distinct other index fd again held⟩
    · exact Or.inl ⟨consistent.dropped fd found, found⟩
  free := by
    intro few
    rw [consistent.counted] at few
    obtain ⟨index, found, -⟩ := exists_freeSlot few
    rw [found]
    rfl
  room := consistent.room
  fits := by
    intro fd chunk firstByteNow activityNow passes index allowed located
    rw [Slot.fill, List.length_append]
    exact allowed.2 index located

/-- Through all accepts, receives, timeouts and closes the table is lawful, and
every accepted descriptor is stored or closed; and `service_connection` returns
on every buffer, having removed a complete head in each pass but the last, with
room in a buffer that it keeps. -/
theorem connection_table_lawful (config : Timeouts) :
    (∀ history table, Reachable config history table → Lawful history table) ∧
      ∀ passes slot, Slot.Serviced passes slot :=
  ⟨fun _ _ reachable => reachable.consistent.lawful, Slot.serviced⟩

/-- Seventeen clients connect; the first one leaves, its number is handed out
again, and the other ones stay idle for too long. -/
def crowded : List TableEvent :=
  (List.range 17).map (fun fd => .accept fd 5) ++
    [.receive 0 .ended, .accept 0 6, .timeouts 105]

/-- The seventeenth client is closed at once and the first one when it leaves,
and what is left in the end is the second connection under that number. -/
theorem connection_table_lawful_crowded :
    Lawful (acceptedBehind [] crowded) (crowded.foldl (apply ⟨100, 100⟩) initial) ∧
      (crowded.foldl (apply ⟨100, 100⟩) initial).live = 1 ∧
      (crowded.foldl (apply ⟨100, 100⟩) initial).closed =
        [15, 14, 13, 12, 11, 10, 9, 8, 7, 6, 5, 4, 3, 2, 1, 0, 16] ∧
      (crowded.foldl (apply ⟨100, 100⟩) initial).polled = [0] ∧
      (acceptedBehind [] crowded).count 0 = 2 := by
  have allowed : AllowsAll ⟨100, 100⟩ [] initial crowded := by
    simp only [crowded, List.range, List.range.loop, List.map_cons, List.map_nil,
      List.cons_append, List.nil_append, AllowsAll, Allows, and_true]
    decide +kernel
  exact ⟨(connection_table_lawful ⟨100, 100⟩).1 _ _ (reachable_events .initial allowed),
    by decide +kernel, by decide +kernel, by decide +kernel, by decide +kernel⟩

end Table

end SafetyCrit.Observability.Http
