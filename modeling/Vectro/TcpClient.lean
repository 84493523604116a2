import Vectro.Machine
import Vectro.Tally
import Vectro.Traces
import Mathlib.Data.List.Basic

set_option autoImplicit false

namespace Vectro.Tcp

-- The correlation id is the field of the meta data that the client reads. The
-- number of the arrival is history: no step reads it.
structure Message (M : Type) where
  correlationId : Nat
  body : M
  arrival : Nat
deriving DecidableEq, Repr

inductive ErrorCode where
  | success
  | timedOut
deriving DecidableEq, Repr

-- What a thread still has to do in one call of the client: SendRequest, the
-- wait handler of a request's timer, or the completion handler of a read. Each
-- step up to the next is one critical section of pending_mu_, one operation on
-- an atomic, or one call out.
inductive Call (H M : Type) where
  | register (cid : Nat) (onResponse : Option H)
  | count (cid : Nat)
  | send (cid : Nat)
  | arm (cid : Nat)
  | expired (cid : Nat)
  | timingOut (cid : Nat) (cb : Option H)
  | timeOut (cid : Nat) (cb : Option H)
  | dispatch (msgs : List (Message M))
  | responding (message : Message M) (cb : H) (rest : List (Message M))
  | respond (message : Message M) (cb : H) (rest : List (Message M))
  | pass (message : Message M) (rest : List (Message M))
  | returned
deriving DecidableEq, Repr

inductive Event (H M : Type) where
  | issued (cid : Nat) (onResponse : Option H)
  | sent (cid : Nat)
  | expired (cid : Nat)
  | unmatched (arrival : Nat)
  | called (cid : Nat) (cb : H) (ec : ErrorCode) (message : Option (Message M))
  | received (message : Message M)
  | closed (force : Bool)
  | disconnected
deriving DecidableEq, Repr

-- timers are the request timers whose wait is outstanding, and reads the
-- async_read_somes. Only the wait handler holds a request's timer, so nobody
-- can cancel it.
structure State (H M : Type) where
  nextCorrelationId : Nat
  pendingResponses : List (Nat × Option H)
  pendingRequests : UInt64
  timers : List Nat
  reads : Nat
  shutdown : Bool
  socketClosed : Bool
  onMessage : Bool
  onDisconnect : Bool
  calls : List (Call H M)
  arrivals : Nat
  trace : List (Event H M)

section
variable {H M : Type}

def construct : State H M where
  nextCorrelationId := 1
  pendingResponses := []
  pendingRequests := 0
  timers := []
  reads := 0
  shutdown := false
  socketClosed := false
  onMessage := false
  onDisconnect := false
  calls := []
  arrivals := 0
  trace := []

def State.emit (s : State H M) (event : Event H M) : State H M := { s with trace := s.trace ++ [event] }

def State.goto (s : State H M) (i : Nat) (call : Call H M) : State H M := { s with calls := s.calls.set i call }

def State.begin (s : State H M) (call : Call H M) : State H M := { s with calls := s.calls ++ [call] }

-- node_hash_map::emplace leaves an entry that is there alone.
def emplace (map : List (Nat × Option H)) (cid : Nat) (cb : Option H) : List (Nat × Option H) :=
  if (map.lookup cid).isSome then map else map ++ [(cid, cb)]

def erase (map : List (Nat × Option H)) (cid : Nat) : List (Nat × Option H) := map.eraseP fun entry => entry.1 == cid

def State.fetchAdd (s : State H M) : State H M := { s with pendingRequests := s.pendingRequests + 1 }

def State.fetchSub (s : State H M) : State H M := { s with pendingRequests := s.pendingRequests - 1 }

def State.sendRequest (s : State H M) (onResponse : Option H) : State H M :=
  let cid := s.nextCorrelationId
  ({ s with nextCorrelationId := (cid + 1) % 2 ^ 64 }.emit (.issued cid onResponse)).begin (.register cid onResponse)

-- The timers of the connection are cancelled too; all they ever do is to call
-- Close(true).
def State.close (s : State H M) (force : Bool) : State H M :=
  let closed := { s with shutdown := true, socketClosed := s.socketClosed || force }.emit (.closed force)
  if s.onDisconnect then closed.emit .disconnected else closed

def State.startRead (s : State H M) : State H M := if s.shutdown then s else { s with reads := s.reads + 1 }

def number (msgs : List (Nat × M)) (first : Nat) : List (Message M) :=
  (msgs.zipIdx first).map fun arrival => ⟨arrival.1.1, arrival.1.2, arrival.2⟩

def State.readCompletes (s : State H M) : Option (List (Nat × M)) → State H M
  | none => { s with reads := s.reads - 1 }.close true
  | some msgs =>
      { s with reads := s.reads - 1, arrivals := s.arrivals + msgs.length }.begin (.dispatch (number msgs s.arrivals))

def State.expire (s : State H M) (i : Nat) (cid : Nat) : State H M :=
  { s with timers := s.timers.eraseIdx i }.begin (.expired cid)

-- A handler that raises unwinds the completion handler that called it.
def State.advance (s : State H M) (i : Nat) (raises : Bool) : Call H M → State H M
  | .register cid onResponse =>
      { s with pendingResponses := emplace s.pendingResponses cid onResponse }.goto i (.count cid)
  | .count cid => s.fetchAdd.goto i (.send cid)
  | .send cid => (s.emit (.sent cid)).goto i (.arm cid)
  | .arm cid => { s with timers := s.timers ++ [cid] }.goto i .returned
  | .expired cid =>
      match s.pendingResponses.lookup cid with
      | none => (s.emit (.expired cid)).goto i .returned
      | some cb =>
          ({ s with pendingResponses := erase s.pendingResponses cid }.emit (.expired cid)).goto i (.timingOut cid cb)
  | .timingOut cid cb => s.fetchSub.goto i (.timeOut cid cb)
  | .timeOut _ none => s.goto i .returned
  | .timeOut cid (some cb) => (s.emit (.called cid cb .timedOut none)).goto i .returned
  | .dispatch [] => s.startRead.goto i .returned
  | .dispatch (message :: rest) =>
      match s.pendingResponses.lookup message.correlationId with
      | none => (s.emit (.unmatched message.arrival)).goto i (.pass message rest)
      | some none => { s with pendingResponses := erase s.pendingResponses message.correlationId }.goto i (.pass message rest)
      | some (some cb) =>
          { s with pendingResponses := erase s.pendingResponses message.correlationId }.goto i (.responding message cb rest)
  | .responding message cb rest => s.fetchSub.goto i (.respond message cb rest)
  | .respond message cb rest =>
      (s.emit (.called message.correlationId cb .success (some message))).goto i
        (if raises then .returned else .dispatch rest)
  | .pass message rest =>
      if s.onMessage then (s.emit (.received message)).goto i (if raises then .returned else .dispatch rest)
      else s.goto i (.dispatch rest)
  | .returned => s

inductive Action (H M : Type) where
  | sendRequest (onResponse : Option H)
  | startRead
  | readCompletes (result : Option (List (Nat × M)))
  | expire (i : Nat)
  | close (force : Bool)
  | setOnMessage (present : Bool)
  | setOnDisconnect (present : Bool)
  | advance (i : Nat) (raises : Bool)

def step (s : State H M) : Action H M → Option (State H M)
  | .sendRequest onResponse => some (s.sendRequest onResponse)
  | .startRead => some s.startRead
  | .readCompletes result => if s.reads = 0 then none else some (s.readCompletes result)
  | .expire i => (s.timers[i]?).map (s.expire i)
  | .close force => some (s.close force)
  | .setOnMessage present => some { s with onMessage := present }
  | .setOnDisconnect present => some { s with onDisconnect := present }
  | .advance i raises => (s.calls[i]?).map (s.advance i raises)

def Event.aside : Event H M → Bool
  | .sent _ | .received _ | .closed _ | .disconnected => true
  | _ => false

-- A step that touches neither the requests nor the arrivals.
structure Aside (s after : State H M) : Prop where
  next : after.nextCorrelationId = s.nextCorrelationId := by rfl
  pending : after.pendingResponses = s.pendingResponses := by rfl
  timers : after.timers = s.timers := by rfl
  calls : after.calls = s.calls := by rfl
  arrivals : after.arrivals = s.arrivals := by rfl
  trace : ∃ quiet, after.trace = s.trace ++ quiet ∧ ∀ event ∈ quiet, event.aside = true

theorem start_read_aside (s : State H M) : Aside s s.startRead := by
  unfold State.startRead
  split <;> exact { trace := ⟨[], (List.append_nil _).symm, by simp⟩ }

theorem close_aside (s : State H M) (force : Bool) : Aside s (s.close force) := by
  unfold State.close
  split
  · exact { trace := ⟨[.closed force, .disconnected], List.append_assoc _ _ _, by simp [Event.aside]⟩ }
  · exact { trace := ⟨[.closed force], rfl, by simp [Event.aside]⟩ }

theorem step_preserves (holds : State H M → Prop) (s after : State H M) (action : Action H M)
    (taken : step s action = some after)
    (asides : ∀ after, Aside s after → holds after)
    (requests : ∀ onResponse, action = .sendRequest onResponse → holds (s.sendRequest onResponse))
    (arrives : ∀ msgs, holds (s.readCompletes (some msgs)))
    (expires : ∀ i cid, s.timers[i]? = some cid → holds (s.expire i cid))
    (advances : ∀ i raises call, s.calls[i]? = some call → holds (s.advance i raises call)) : holds after := by
  cases action with
  | sendRequest onResponse => exact Option.some.inj taken ▸ requests onResponse rfl
  | startRead => exact Option.some.inj taken ▸ asides _ (start_read_aside s)
  | readCompletes result =>
      rw [step] at taken
      split at taken
      · cases taken
      · obtain rfl := Option.some.inj taken
        cases result with
        | none =>
            have aside := close_aside { s with reads := s.reads - 1 } true
            exact asides _ ⟨aside.next, aside.pending, aside.timers, aside.calls, aside.arrivals, aside.trace⟩
        | some msgs => exact arrives msgs
  | expire i =>
      obtain ⟨cid, found, rfl⟩ := Option.map_eq_some_iff.mp taken
      exact expires i cid found
  | close force => exact Option.some.inj taken ▸ asides _ (close_aside s force)
  | setOnMessage present | setOnDisconnect present =>
      exact Option.some.inj taken ▸ asides _ { trace := ⟨[], (List.append_nil _).symm, by simp⟩ }
  | advance i raises =>
      obtain ⟨call, found, rfl⟩ := Option.map_eq_some_iff.mp taken
      exact advances i raises call found

theorem lookup_mem (map : List (Nat × Option H)) (cid : Nat) (cb : Option H) (found : map.lookup cid = some cb) :
    (cid, cb) ∈ map := by
  obtain ⟨front, back, rfl, _⟩ := List.lookup_eq_some_iff.mp found
  exact List.mem_append_right _ List.mem_cons_self

theorem lookup_absent (map : List (Nat × Option H)) (cid : Nat) (absent : map.lookup cid = none) (cb : Option H) :
    (cid, cb) ∉ map := by
  intro member
  have differs := (List.lookup_eq_none_iff.mp absent) (cid, cb) member
  simp at differs

-- What is found is what is erased.
theorem erase_count (map : List (Nat × Option H)) (cid : Nat) (cb : Option H) (found : map.lookup cid = some cb)
    (counts : Nat × Option H → Bool) :
    (erase map cid).countP counts + [(cid, cb)].countP counts = map.countP counts := by
  obtain ⟨front, back, rfl, earlier⟩ := List.lookup_eq_some_iff.mp found
  have others : ∀ entry ∈ front, ¬ (entry.1 == cid) = true := fun entry member same => by
    have differs := earlier entry member
    rw [beq_iff_eq.mp same] at differs
    simp at differs
  rw [erase, List.eraseP_append_right _ others, List.eraseP_cons_of_pos (by simp)]
  simp only [List.countP_append, List.countP_cons, List.countP_nil]
  omega

end

end Vectro.Tcp
