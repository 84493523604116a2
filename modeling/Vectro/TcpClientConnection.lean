import Vectro.SessionTimers
import Vectro.TcpClient

set_option autoImplicit false

namespace Vectro.Connection

open Session (Timer)

inductive Stage where
  | resolving
  | connecting
  | handshaking
deriving DecidableEq, Repr

-- A Connect that has not finished, with the operation it waits for. The Connects
-- are numbered from 1.
structure Chain where
  id : Nat
  stage : Stage
deriving DecidableEq, Repr

-- on_connect_ is the handler of the latest Connect, whichever Connect it is
-- called for.
inductive Event where
  | connect (id : Nat) (handler : Bool)
  | connectExpired
  | connected (id : Nat)
  | onConnect (handler id : Nat) (ok : Bool)
  | close (force : Bool)
  | closeRaised
  | cancelRaised
  | onDisconnect
deriving DecidableEq, Repr

-- The connection of a TcpClient. tls is the choice of Stream; chains, reads and
-- the waits of the timers are the operations that are outstanding, and starting
-- the completion handlers under way that end in StartRead. queueDraining and
-- queueForced say which Close the write queue has been given. The trace has the
-- newest event first; no step reads it.
structure State where
  tls : Bool
  shutdown : Bool
  socketOpen : Bool
  queueDraining : Bool
  queueForced : Bool
  onConnect : Bool
  onDisconnect : Bool
  connects : Nat
  chains : List Chain
  connectTimer : Timer
  readTimer : Timer
  idleTimer : Timer
  reads : Nat
  starting : Nat
  destroyed : Bool
  trace : List Event
deriving DecidableEq, Repr

def construct (tls : Bool) : State where
  tls := tls
  shutdown := false
  socketOpen := false
  queueDraining := false
  queueForced := false
  onConnect := false
  onDisconnect := false
  connects := 0
  chains := []
  connectTimer := {}
  readTimer := {}
  idleTimer := {}
  reads := 0
  starting := 0
  destroyed := false
  trace := []

def State.emit (s : State) (event : Event) : State := { s with trace := event :: s.trace }

-- A new resolver_ takes the place of the old one, whose destructor aborts a
-- resolve that is outstanding. What an operation completes with is left to the
-- action that completes it.
def State.connect (s : State) (handler : Bool) : State :=
  { s with
    onConnect := handler
    connects := s.connects + 1
    connectTimer := s.connectTimer.expiresAfter.asyncWait
    chains := s.chains ++ [Chain.mk (s.connects + 1) .resolving] }.emit (.connect (s.connects + 1) handler)

def State.report (s : State) (id : Nat) (ok : Bool) : State :=
  if s.onConnect then s.emit (.onConnect s.connects id ok) else s

def State.fail (s : State) (i : Nat) (id : Nat) : State := { s with chains := s.chains.eraseIdx i }.report id false

-- on_connect_({}), and StartRead once it has returned.
def State.succeed (s : State) (i : Nat) (id : Nat) : State :=
  ({ s with chains := s.chains.eraseIdx i, starting := s.starting + 1 }.emit (.connected id)).report id true

-- async_connect closes the socket and opens it for the first endpoint; opens says
-- whether it could. It does not report success on a socket that has been closed.
def State.complete (s : State) (i : Nat) (ok opens : Bool) (chain : Chain) : Option State :=
  match chain.stage with
  | .resolving =>
      let cancelled := { s with connectTimer := s.connectTimer.cancel }
      if ok then some { cancelled with socketOpen := opens, chains := s.chains.set i ⟨chain.id, .connecting⟩ }
      else some (cancelled.fail i chain.id)
  | .connecting =>
      if ok then
        if s.socketOpen then
          if s.tls then some { s with chains := s.chains.set i ⟨chain.id, .handshaking⟩ } else some (s.succeed i chain.id)
        else none
      else some (s.fail i chain.id)
  | .handshaking => if ok then some (s.succeed i chain.id) else some (s.fail i chain.id)

def State.finishClose (s : State) : State :=
  let cancelled :=
    { s with connectTimer := s.connectTimer.cancel, readTimer := s.readTimer.cancel, idleTimer := s.idleTimer.cancel }
  if s.onDisconnect then cancelled.emit .onDisconnect else cancelled

-- cancel() without an error code raises when the socket is not open. A result
-- .error s is an exception that leaves the client in state s.
def State.close (s : State) (force : Bool) : Except State State :=
  let marked := { s with shutdown := true }.emit (.close force)
  if force then
    if marked.socketOpen then .ok { marked with socketOpen := false, queueForced := true }.finishClose
    else .error marked
  else .ok { marked with queueDraining := true }.finishClose

-- A call of Close, whose exception goes to the caller, to the io_context, or in
-- the destructor to std::terminate.
def State.callClose (s : State) (force : Bool) : State :=
  match s.close force with
  | .ok after => after
  | .error after => after.emit .closeRaised

def State.startRead (s : State) : State :=
  if s.shutdown then s
  else
    { s with
      reads := s.reads + 1
      readTimer := s.readTimer.expiresAfter.asyncWait
      idleTimer := s.idleTimer.expiresAfter.asyncWait }

def State.readCompletes (s : State) (ok : Bool) : State :=
  if ok then
    { s with
      reads := s.reads - 1
      readTimer := s.readTimer.cancel.expiresAfter
      idleTimer := s.idleTimer.expiresAfter
      starting := s.starting + 1 }
  else { s with reads := s.reads - 1 }.callClose true

def State.cancelSocket (s : State) : State := if s.socketOpen then s else s.emit .cancelRaised

-- Every handler that is to run holds a shared_ptr to the client.
def State.unheld (s : State) : Bool :=
  s.chains.isEmpty && s.reads == 0 && s.starting == 0 && s.connectTimer.waits == 0 && s.readTimer.waits == 0 &&
    s.idleTimer.waits == 0

inductive Action where
  | connect (handler : Bool)
  | complete (i : Nat) (ok opens : Bool)
  | nextEndpoint (opens : Bool)
  | readCompletes (ok : Bool)
  | returns (raises : Bool)
  | connectExpires
  | readExpires
  | idleExpires
  | connectTimer (expired : Bool)
  | readTimer (expired : Bool)
  | idleTimer (expired : Bool)
  | close (force : Bool)
  | setOnDisconnect (present : Bool)
  | destroy
deriving DecidableEq, Repr

-- A handler that ends in StartRead does not get there if on_connect_, OnData, the
-- handler of a message or PrepareRead raises.
def step (s : State) (action : Action) : Option State :=
  if s.destroyed then none
  else match action with
  | .connect handler => some (s.connect handler)
  | .complete i ok opens => (s.chains[i]?).bind (s.complete i ok opens)
  | .nextEndpoint opens =>
      if s.socketOpen && s.chains.any (·.stage == .connecting) then some { s with socketOpen := opens } else none
  | .readCompletes ok => if s.reads = 0 then none else some (s.readCompletes ok)
  | .returns raises =>
      if s.starting = 0 then none
      else
        let returned := { s with starting := s.starting - 1 }
        if raises then some returned else some returned.startRead
  | .connectExpires => s.connectTimer.expire.map fun timer => { s with connectTimer := timer }.emit .connectExpired
  | .readExpires => s.readTimer.expire.map fun timer => { s with readTimer := timer }
  | .idleExpires => s.idleTimer.expire.map fun timer => { s with idleTimer := timer }
  | .connectTimer expired => (s.connectTimer.handle expired).map fun timer =>
      if expired then { s with connectTimer := timer }.cancelSocket else { s with connectTimer := timer }
  | .readTimer expired => (s.readTimer.handle expired).map fun timer =>
      if expired then { s with readTimer := timer }.callClose true else { s with readTimer := timer }
  | .idleTimer expired => (s.idleTimer.handle expired).map fun timer =>
      if expired then { s with idleTimer := timer }.callClose true else { s with idleTimer := timer }
  | .close force => some (s.callClose force)
  | .setOnDisconnect present => some { s with onDisconnect := present }
  | .destroy => if s.unheld then some { s.callClose true with destroyed := true } else none

def Event.isConnect : Event → Bool
  | .connect _ _ => true
  | _ => false

def Event.isConnected : Event → Bool
  | .connected _ => true
  | _ => false

def Event.isClose : Event → Bool
  | .close _ => true
  | _ => false

-- What has happened since the latest Connect, and since the last one that succeeded.
def State.sinceConnect (s : State) : List Event := s.trace.takeWhile (!·.isConnect)

def State.sinceConnected (s : State) : List Event := s.trace.takeWhile (!·.isConnected)

theorem since_front (mark : Event → Bool) (front trace : List Event) (unmarked : ∀ event ∈ front, mark event = false) :
    (front ++ trace).takeWhile (!mark ·) = front ++ trace.takeWhile (!mark ·) :=
  List.takeWhile_append_of_pos fun event member => by rw [unmarked event member]; rfl

-- The Close an action comes to.
def Action.closes : Action → Option Bool
  | .close force => some force
  | .readCompletes false | .readTimer true | .idleTimer true | .destroy => some true
  | _ => none

-- The operation is the last one of its Connect.
def Chain.last (tls : Bool) (chain : Chain) : Bool :=
  match chain.stage with
  | .resolving => false
  | .connecting => !tls
  | .handshaking => true

-- One wait has not been cancelled. Once the timer has expired, its handler is due.
def Waiting (timer : Timer) : Prop := timer.pending = 1 ∨ timer.pending = 0 ∧ timer.expired ≠ 0

theorem expire_waiting (timer after : Timer) (expires : timer.expire = some after) : Waiting after := by
  unfold Timer.expire at expires
  split at expires
  · cases expires
  · rename_i pending
    obtain rfl := Option.some.inj expires
    exact .inr ⟨rfl, by show timer.expired + timer.pending ≠ 0; omega⟩

theorem aborted_unchanged (timer after : Timer) (handled : timer.handle false = some after) :
    after.pending = timer.pending ∧ after.expired = timer.expired := by
  unfold Timer.handle at handled
  rw [if_neg Bool.false_ne_true] at handled
  split at handled
  · cases handled
  · exact Option.some.inj handled ▸ ⟨rfl, rfl⟩

theorem handle_pending (timer after : Timer) (expired : Bool) (handled : timer.handle expired = some after) :
    after.pending = timer.pending := by
  unfold Timer.handle at handled
  split at handled
  all_goals
    split at handled
    · cases handled
    · exact Option.some.inj handled ▸ rfl

-- A step that leaves the Connects, the reads and the waits as they are.
structure Quiet (s after : State) : Prop where
  shutdown : after.shutdown = s.shutdown := by rfl
  connects : after.connects = s.connects := by rfl
  chains : after.chains = s.chains := by rfl
  onConnect : after.onConnect = s.onConnect := by rfl
  reads : after.reads = s.reads := by rfl
  starting : after.starting = s.starting := by rfl
  pending : after.connectTimer.pending = s.connectTimer.pending := by rfl
  read : Waiting s.readTimer → Waiting after.readTimer := by exact fun waiting => waiting
  idle : Waiting s.idleTimer → Waiting after.idleTimer := by exact fun waiting => waiting
  trace : after.trace = s.trace ∨ after.trace = .cancelRaised :: s.trace := by exact .inl rfl

def Action.calm : Action → Bool
  | .nextEndpoint _ | .readExpires | .idleExpires | .connectTimer _ | .readTimer false | .idleTimer false | .setOnDisconnect _ =>
      true
  | _ => false

-- What Close starts from.
structure Same (s before : State) : Prop where
  socketOpen : before.socketOpen = s.socketOpen := by rfl
  onConnect : before.onConnect = s.onConnect := by rfl
  onDisconnect : before.onDisconnect = s.onDisconnect := by rfl
  connects : before.connects = s.connects := by rfl
  chains : before.chains = s.chains := by rfl
  connectTimer : before.connectTimer = s.connectTimer := by rfl
  trace : before.trace = s.trace := by rfl

-- Everything a step can do, guards included.
inductive Move (s after : State) : Action → Prop where
  | connect (handler : Bool) (next : after = s.connect handler) : Move s after (.connect handler)
  | resolved (i : Nat) (opens : Bool) (id : Nat) (found : s.chains[i]? = some ⟨id, .resolving⟩)
      (next : after = { s with
        connectTimer := s.connectTimer.cancel, socketOpen := opens, chains := s.chains.set i ⟨id, .connecting⟩ }) :
      Move s after (.complete i true opens)
  | unresolved (i : Nat) (opens : Bool) (id : Nat) (found : s.chains[i]? = some ⟨id, .resolving⟩)
      (next : after = { s with connectTimer := s.connectTimer.cancel }.fail i id) : Move s after (.complete i false opens)
  | shakes (i : Nat) (opens : Bool) (id : Nat) (found : s.chains[i]? = some ⟨id, .connecting⟩) (tls : s.tls = true)
      (next : after = { s with chains := s.chains.set i ⟨id, .handshaking⟩ }) : Move s after (.complete i true opens)
  | fails (i : Nat) (opens : Bool) (chain : Chain) (found : s.chains[i]? = some chain) (resolved : chain.stage ≠ .resolving)
      (next : after = s.fail i chain.id) : Move s after (.complete i false opens)
  | succeeds (i : Nat) (opens : Bool) (chain : Chain) (found : s.chains[i]? = some chain) (last : chain.last s.tls = true)
      (next : after = s.succeed i chain.id) : Move s after (.complete i true opens)
  | closes (action : Action) (before : State) (force : Bool) (closing : action.closes = some force) (same : Same s before)
      (reads : before.reads = s.reads ∨ action = .readCompletes false ∧ s.reads ≠ 0 ∧ before.reads = s.reads - 1)
      (next : after = before.callClose force) : Move s after action
  | expires (timer : Timer) (next : after = { s with connectTimer := timer }.emit .connectExpired) : Move s after .connectExpires
  | reads (outstanding : s.reads ≠ 0) (next : after = s.readCompletes true) : Move s after (.readCompletes true)
  | returns (raises : Bool) (underway : s.starting ≠ 0)
      (next : after =
        if raises then { s with starting := s.starting - 1 } else { s with starting := s.starting - 1 }.startRead) :
      Move s after (.returns raises)
  | quiet (action : Action) (calm : action.calm = true) (quiet : Quiet s after) : Move s after action

theorem complete_moves (s after : State) (i : Nat) (ok opens : Bool) (chain : Chain) (found : s.chains[i]? = some chain)
    (taken : s.complete i ok opens chain = some after) : Move s after (.complete i ok opens) := by
  obtain ⟨id, stage⟩ := chain
  cases stage with
  | resolving =>
      cases ok with
      | true => exact .resolved i opens id found (Option.some.inj taken).symm
      | false => exact .unresolved i opens id found (Option.some.inj taken).symm
  | connecting =>
      cases ok with
      | true =>
          simp only [State.complete, if_true] at taken
          split at taken
          · split at taken
            · rename_i tls
              exact .shakes i opens id found tls (Option.some.inj taken).symm
            · rename_i plain
              exact .succeeds i opens _ found (by simpa [Chain.last] using plain) (Option.some.inj taken).symm
          · cases taken
      | false => exact .fails i opens _ found (by simp) (Option.some.inj taken).symm
  | handshaking =>
      cases ok with
      | true => exact .succeeds i opens _ found rfl (Option.some.inj taken).symm
      | false => exact .fails i opens _ found (by simp) (Option.some.inj taken).symm

theorem destroy_closes (s : State) : { s.callClose true with destroyed := true } = { s with destroyed := true }.callClose true := by
  unfold State.callClose State.close State.finishClose
  cases s.socketOpen <;> cases s.onDisconnect <;> rfl

theorem cancel_socket_quiet (s : State) (timer : Timer) (same : timer.pending = s.connectTimer.pending) :
    Quiet s { s with connectTimer := timer }.cancelSocket := by
  unfold State.cancelSocket
  split
  · exact { pending := same }
  · exact { pending := same, trace := .inr rfl }

theorem step_moves (s after : State) (action : Action) (taken : step s action = some after) : Move s after action := by
  unfold step at taken
  split at taken
  · cases taken
  cases action with
  | connect handler => exact .connect handler (Option.some.inj taken).symm
  | complete i ok opens =>
      obtain ⟨chain, found, completed⟩ := Option.bind_eq_some_iff.mp taken
      exact complete_moves s after i ok opens chain found completed
  | nextEndpoint opens =>
      simp only at taken
      split at taken
      · exact .quiet _ rfl (Option.some.inj taken ▸ {})
      · cases taken
  | readCompletes ok =>
      simp only at taken
      split at taken
      · cases taken
      · rename_i outstanding
        cases ok with
        | true => exact .reads outstanding (Option.some.inj taken).symm
        | false => exact .closes _ { s with reads := s.reads - 1 } true rfl {} (.inr ⟨rfl, outstanding, rfl⟩) (Option.some.inj taken).symm
  | returns raises =>
      simp only at taken
      split at taken
      · cases taken
      · rename_i underway
        refine .returns raises underway ?_
        cases raises <;> exact (Option.some.inj taken).symm
  | connectExpires =>
      obtain ⟨timer, expired, rfl⟩ := Option.map_eq_some_iff.mp taken
      exact .expires timer rfl
  | readExpires =>
      obtain ⟨timer, expired, rfl⟩ := Option.map_eq_some_iff.mp taken
      exact .quiet _ rfl { read := fun _ => expire_waiting _ _ expired }
  | idleExpires =>
      obtain ⟨timer, expired, rfl⟩ := Option.map_eq_some_iff.mp taken
      exact .quiet _ rfl { idle := fun _ => expire_waiting _ _ expired }
  | connectTimer expired =>
      obtain ⟨timer, handled, rfl⟩ := Option.map_eq_some_iff.mp taken
      have same := handle_pending _ _ expired handled
      refine .quiet _ rfl ?_
      split
      · exact cancel_socket_quiet s timer same
      · exact { pending := same }
  | readTimer expired =>
      obtain ⟨timer, handled, rfl⟩ := Option.map_eq_some_iff.mp taken
      cases expired with
      | true => exact .closes _ { s with readTimer := timer } true rfl {} (.inl rfl) rfl
      | false =>
          obtain ⟨pending, expired⟩ := aborted_unchanged _ _ handled
          exact .quiet _ rfl { read := fun waiting => by rwa [Waiting, ← pending, ← expired] at waiting }
  | idleTimer expired =>
      obtain ⟨timer, handled, rfl⟩ := Option.map_eq_some_iff.mp taken
      cases expired with
      | true => exact .closes _ { s with idleTimer := timer } true rfl {} (.inl rfl) rfl
      | false =>
          obtain ⟨pending, expired⟩ := aborted_unchanged _ _ handled
          exact .quiet _ rfl { idle := fun waiting => by rwa [Waiting, ← pending, ← expired] at waiting }
  | close force => exact .closes _ s force rfl {} (.inl rfl) (Option.some.inj taken).symm
  | setOnDisconnect present => exact .quiet _ rfl (Option.some.inj taken ▸ {})
  | destroy =>
      simp only at taken
      split at taken
      · refine .closes _ { s with destroyed := true } true rfl {} (.inl rfl) ?_
        rw [← destroy_closes]
        exact (Option.some.inj taken).symm
      · cases taken

-- Close stops at cancel() if the socket is not open.
def State.closeRaises (s : State) (force : Bool) : Bool := force && !s.socketOpen

def State.closingEvents (s : State) (force : Bool) : List Event :=
  if s.closeRaises force then [.closeRaised] else if s.onDisconnect then [.onDisconnect] else []

theorem call_close_keeps (s : State) (force : Bool) :
    (s.callClose force).shutdown = true ∧ (s.callClose force).reads = s.reads ∧ (s.callClose force).connects = s.connects ∧
      (s.callClose force).chains = s.chains ∧ (s.callClose force).onConnect = s.onConnect := by
  unfold State.callClose State.close State.finishClose
  cases force <;> cases s.socketOpen <;> cases s.onDisconnect <;> exact ⟨rfl, rfl, rfl, rfl, rfl⟩

theorem call_close_trace (s : State) (force : Bool) :
    (s.callClose force).trace = s.closingEvents force ++ [.close force] ++ s.trace := by
  unfold State.callClose State.close State.finishClose State.closingEvents State.closeRaises
  cases force <;> cases s.socketOpen <;> cases s.onDisconnect <;> rfl

theorem call_close_timer (s : State) (force : Bool) :
    (s.callClose force).connectTimer = if s.closeRaises force then s.connectTimer else s.connectTimer.cancel := by
  unfold State.callClose State.close State.finishClose State.closeRaises
  cases force <;> cases s.socketOpen <;> cases s.onDisconnect <;> rfl

theorem closing_events_mem (s : State) (force : Bool) (event : Event) (member : event ∈ s.closingEvents force) :
    event = .closeRaised ∨ event = .onDisconnect := by
  unfold State.closingEvents at member
  split at member
  · exact .inl (List.mem_singleton.mp member)
  · split at member
    · exact .inr (List.mem_singleton.mp member)
    · cases member

def State.reportEvents (s : State) (id : Nat) (ok : Bool) : List Event :=
  if s.onConnect then [.onConnect s.connects id ok] else []

theorem report_events_mem (s : State) (id : Nat) (ok : Bool) (event : Event) (member : event ∈ s.reportEvents id ok) :
    event = .onConnect s.connects id ok := by
  unfold State.reportEvents at member
  split at member
  · exact List.mem_singleton.mp member
  · cases member

theorem fail_eq (s : State) (i : Nat) (id : Nat) :
    s.fail i id = { s with chains := s.chains.eraseIdx i, trace := s.reportEvents id false ++ s.trace } := by
  unfold State.fail State.report State.reportEvents
  cases s.onConnect <;> rfl

theorem succeed_eq (s : State) (i : Nat) (id : Nat) :
    s.succeed i id = { s with
      chains := s.chains.eraseIdx i
      starting := s.starting + 1
      trace := s.reportEvents id true ++ [.connected id] ++ s.trace } := by
  unfold State.succeed State.report State.reportEvents
  cases s.onConnect <;> rfl

section
variable {H M : Type}

-- What the requests see of the connection.
structure Seen (t : Tcp.State H M) (s : State) : Prop where
  reads : t.reads = s.reads
  shutdown : t.shutdown = s.shutdown

theorem close_seen (t : Tcp.State H M) (force : Bool) : (t.close force).reads = t.reads ∧ (t.close force).shutdown = true := by
  unfold Tcp.State.close
  split <;> exact ⟨rfl, rfl⟩

theorem start_read_seen (t : Tcp.State H M) (s : State) (seen : Seen t s) : Seen t.startRead s.startRead := by
  unfold Tcp.State.startRead State.startRead
  by_cases shut : s.shutdown = true
  · rw [if_pos (seen.shutdown.trans shut), if_pos shut]
    exact seen
  · rw [if_neg fun marked => shut (seen.shutdown.symm.trans marked), if_neg shut]
    exact ⟨congrArg (· + 1) seen.reads, seen.shutdown⟩

-- Each step of the connection is one of the client that sends requests, or none.
theorem step_seen (s after : State) (action : Action) (taken : step s action = some after) (t : Tcp.State H M) (seen : Seen t s) :
    ∃ u, Machine.Reachable Tcp.step (fun _ _ => True) t u ∧ Seen u after := by
  have stays : ∀ after : State, after.reads = s.reads → after.shutdown = s.shutdown →
      ∃ u, Machine.Reachable Tcp.step (fun _ _ => True) t u ∧ Seen u after := fun after reads shutdown =>
    ⟨t, .start, seen.reads.trans reads.symm, seen.shutdown.trans shutdown.symm⟩
  cases step_moves s after action taken with
  | connect handler next => exact next ▸ stays _ rfl rfl
  | resolved i opens id found next | shakes i opens id found tls next => exact next ▸ stays _ rfl rfl
  | unresolved i opens id found next =>
      rw [fail_eq] at next
      exact next ▸ stays _ rfl rfl
  | fails i opens chain found resolved next =>
      rw [fail_eq] at next
      exact next ▸ stays _ rfl rfl
  | succeeds i opens chain found last next =>
      rw [succeed_eq] at next
      exact next ▸ stays _ rfl rfl
  | closes _ before force closing same reads next =>
      obtain ⟨shut, kept, _⟩ := call_close_keeps before force
      obtain rfl := next
      rcases reads with unread | ⟨rfl, outstanding, fewer⟩
      · obtain ⟨held, marked⟩ := close_seen t force
        refine ⟨t.close force, .step t _ (.close force) .start trivial rfl, ?_, marked.trans shut.symm⟩
        rw [held, seen.reads, kept, unread]
      · obtain ⟨held, marked⟩ := close_seen { t with reads := t.reads - 1 } true
        refine ⟨t.readCompletes none, .step t _ (.readCompletes none) .start trivial ?_, ?_, marked.trans shut.symm⟩
        · exact if_neg fun none => outstanding (seen.reads.symm.trans none)
        · exact held.trans (by rw [kept, fewer, ← seen.reads])
  | expires timer next => exact next ▸ stays _ rfl rfl
  | reads outstanding next =>
      obtain rfl := next
      refine ⟨t.readCompletes (some []), .step t _ (.readCompletes (some [])) .start trivial ?_, ?_, seen.shutdown⟩
      · exact if_neg fun none => outstanding (seen.reads.symm.trans none)
      · exact congrArg (· - 1) seen.reads
  | returns raises underway next =>
      cases raises with
      | true => exact next ▸ stays _ rfl rfl
      | false =>
          obtain rfl := next
          exact ⟨t.startRead, .step t _ .startRead .start trivial rfl,
            start_read_seen t { s with starting := s.starting - 1 } ⟨seen.reads, seen.shutdown⟩⟩
  | quiet _ calm quiet => exact stays after quiet.reads quiet.shutdown

-- The reads and the shutdown of the connection are those of a run of that client.
theorem reachable_seen (guard : State → Action → Prop) (tls : Bool) (s : State)
    (reachable : Machine.Reachable step guard (construct tls) s) :
    ∃ t : Tcp.State H M, Machine.Reachable Tcp.step (fun _ _ => True) Tcp.construct t ∧ Seen t s := by
  apply Machine.reachable_invariant step guard _
    (fun s => ∃ t : Tcp.State H M, Machine.Reachable Tcp.step (fun _ _ => True) Tcp.construct t ∧ Seen t s) _ _ s reachable
  · exact ⟨Tcp.construct, .start, rfl, rfl⟩
  · intro before action after _ held _ taken
    obtain ⟨t, earlier, seen⟩ := held
    obtain ⟨u, onward, still⟩ := step_seen before after action taken t seen
    exact ⟨u, Machine.reachable_trans _ _ _ _ _ earlier onward, still⟩

end

end Vectro.Connection
