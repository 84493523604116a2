import Vectro.WriteQueueOrder

set_option autoImplicit false

namespace Vectro.Session

-- What a call of the write queue leaves for its strand, when it does not run
-- at once. The completion handler a Session passes does nothing.
inductive QueueCall (B : Type) where
  | asyncSend (buffers : B)
  | close (force : Bool)
deriving DecidableEq, Repr

-- What is left to do when a callback returns: the other messages of a read and
-- then StartRead, or the rest of Shutdown.
inductive Frame where
  | messages (remaining : Nat)
  | disconnect
deriving DecidableEq, Repr

inductive Event (B : Type) where
  | sent (buffers : B)
  | handed (buffers : B)
  | completed (buffers : B) (ok : Bool)
  | closed (force : Bool)
  | disconnected
deriving DecidableEq, Repr

-- Whether asio::dispatch runs a function inside the call. On executor_ it may
-- also be posted; on the strand of the write queue it runs inside the call only
-- when the strand has nothing else to run.
structure Inline where
  executor : Bool
  strand : Bool
deriving DecidableEq, Repr

-- B is what the framer makes of a message. outstanding are the async_writes of
-- the direct path, reads, readWaits and idleWaits the other operations that
-- have not completed. work holds the Close functions that were posted to
-- executor_, strandWork the calls posted to the strand of the write queue.
structure State (B : Type) where
  framer : Bool
  writeDeque : List B
  writeInProgress : Bool
  outstanding : List B
  queue : Stream.State B Unit
  useWriteQueue : Bool
  shutdownInProgress : Bool
  gracefulShutdown : Bool
  onMessage : Bool
  onDisconnect : Bool
  socketClosed : Bool
  reads : Nat
  readWaits : Nat
  idleWaits : Nat
  work : List Bool
  strandWork : List (QueueCall B)
  stack : List Frame
  fault : Bool
  trace : List (Event B)

section
variable {B : Type}

def construct (useWriteQueue : Bool) : State B where
  framer := true
  writeDeque := []
  writeInProgress := false
  outstanding := []
  queue := Stream.construct 1024
  useWriteQueue := useWriteQueue
  shutdownInProgress := false
  gracefulShutdown := false
  onMessage := false
  onDisconnect := false
  socketClosed := false
  reads := 0
  readWaits := 0
  idleWaits := 0
  work := []
  strandWork := []
  stack := []
  fault := false
  trace := []

def State.emit (s : State B) (event : Event B) : State B := { s with trace := s.trace ++ [event] }

def State.undefined (s : State B) : State B := { s with fault := true }

-- The log of the session takes over what the write queue has handed to
-- async_write.
def newlyHanded (before after : Stream.State B Unit) : List B :=
  ((Stream.handed after.trace).drop (Stream.handed before.trace).length).map Stream.Entry.buffers

def State.withQueue (s : State B) (queue : Stream.State B Unit) : State B :=
  { s with queue := queue, trace := s.trace ++ (newlyHanded s.queue queue).map .handed }

def State.runQueue (s : State B) : QueueCall B → State B
  | .asyncSend buffers => s.withQueue (s.queue.asyncSend buffers none)
  | .close force => s.withQueue (s.queue.close force)

def State.dispatchQueue (s : State B) (call : QueueCall B) (inline : Inline) : State B :=
  if inline.strand && s.strandWork.isEmpty then s.runQueue call else { s with strandWork := s.strandWork ++ [call] }

-- Close(true), once it runs.
def State.closeForced (s : State B) (inline : Inline) : State B :=
  let logged := s.emit (.closed true)
  if s.shutdownInProgress then logged
  else
    let closed := { logged with shutdownInProgress := true, socketClosed := true, writeDeque := [] }
    if s.useWriteQueue then closed.dispatchQueue (.close true) inline else closed

def State.dispatchForced (s : State B) (inline : Inline) : State B :=
  if inline.executor then s.closeForced inline else { s with work := s.work ++ [true] }

-- Close(false), once it runs. The timers are cancelled too.
def State.closeGraceful (s : State B) (inline : Inline) : State B :=
  let logged := s.emit (.closed false)
  if s.shutdownInProgress then logged
  else
    let marked := { logged with gracefulShutdown := true }
    if s.useWriteQueue then marked.dispatchQueue (.close false) inline
    else if !s.writeInProgress && s.writeDeque.isEmpty then marked.dispatchForced inline
    else marked

def State.runClose (s : State B) (force : Bool) (inline : Inline) : State B :=
  if force then s.closeForced inline else s.closeGraceful inline

def State.close (s : State B) (force : Bool) (inline : Inline) : State B :=
  if inline.executor then s.runClose force inline else { s with work := s.work ++ [force] }

-- The call of Close(true) and what follows it.
def State.finishShutdown (s : State B) (inline : Inline) : State B :=
  let cleared := { s.dispatchForced inline with writeDeque := [] }
  let forced := if cleared.useWriteQueue then cleared.dispatchQueue (.close true) inline else cleared
  { forced with framer := false, onMessage := false, onDisconnect := false }

def State.shutdown (s : State B) (inline : Inline) : State B :=
  if s.shutdownInProgress then s
  else
    let marked := { s with shutdownInProgress := true }
    if s.onDisconnect then { marked with stack := .disconnect :: s.stack }.emit .disconnected
    else marked.finishShutdown inline

def State.writeNext (s : State B) (inline : Inline) : State B :=
  match s.writeDeque with
  | [] =>
      let idle := { s with writeInProgress := false }
      if s.gracefulShutdown then idle.dispatchForced inline else idle
  | buffers :: rest =>
      { s with writeInProgress := true, writeDeque := rest, outstanding := s.outstanding ++ [buffers] }.emit (.handed buffers)

def State.startRead (s : State B) : State B :=
  if s.shutdownInProgress then s
  else if s.framer then { s with reads := s.reads + 1, readWaits := s.readWaits + 1 }
  else s.undefined

def State.deliver (s : State B) : Nat → State B
  | 0 => s.startRead
  | remaining + 1 => if s.onMessage then { s with stack := .messages remaining :: s.stack } else s.startRead

def State.start (s : State B) (onMessage onDisconnect : Bool) : State B :=
  let started := { s with onMessage := onMessage, onDisconnect := onDisconnect }.startRead
  { started with idleWaits := started.idleWaits + 1 }

def State.send (s : State B) (buffers : B) (inline : Inline) : State B :=
  let logged := s.emit (.sent buffers)
  if s.useWriteQueue then logged.dispatchQueue (.asyncSend buffers) inline
  else
    let queued := { logged with writeDeque := s.writeDeque ++ [buffers] }
    if s.writeInProgress then queued else queued.writeNext inline

-- The interceptor lets the message through and it is framed, or one of the two
-- drops it or throws. A session that has been shut down has no framer.
def State.asyncSend (s : State B) (framed : Option B) (inline : Inline) : State B :=
  if s.framer then
    match framed with
    | some buffers => s.send buffers inline
    | none => s
  else s.undefined

inductive ReadResult where
  | failed
  | messages (count : Nat)
  | raised

def State.readCompletes (s : State B) (result : ReadResult) (inline : Inline) : State B :=
  let completed := { s with reads := s.reads - 1 }
  if s.shutdownInProgress then completed
  else match result with
  | .failed => completed.shutdown inline
  | .messages count => completed.deliver count
  | .raised => completed

def State.completed (s : State B) (i : Nat) (buffers : B) (ok : Bool) : State B :=
  { s with outstanding := s.outstanding.eraseIdx i }.emit (.completed buffers ok)

def State.writeCompletes (s : State B) (i : Nat) (buffers : B) (ok : Bool) (inline : Inline) : State B :=
  if ok then { s.completed i buffers true with writeInProgress := false }.writeNext inline
  else (s.completed i buffers false).shutdown inline

def State.queueCompletes (s : State B) (i : Nat) (entry : Stream.Entry B Unit) (ok : Bool) : State B :=
  (s.emit (.completed entry.buffers ok)).withQueue (s.queue.complete i entry ok)

def State.resume (s : State B) (frame : Frame) (raises : Bool) (inline : Inline) : State B :=
  match frame with
  | .messages remaining => s.deliver remaining
  | .disconnect => if raises then s else s.finishShutdown inline

inductive Action (B : Type) where
  | start (onMessage onDisconnect : Bool)
  | asyncSend (framed : Option B) (inline : Inline)
  | enableWriteQueue (enable : Bool)
  | close (force : Bool) (inline : Inline)
  | readCompletes (result : ReadResult) (inline : Inline)
  | writeCompletes (i : Nat) (ok : Bool) (inline : Inline)
  | queueCompletes (i : Nat) (ok : Bool)
  | readTimer (expired : Bool) (inline : Inline)
  | idleTimer (expired : Bool) (inline : Inline)
  | callbackReturns (raises : Bool) (inline : Inline)
  | runWork (i : Nat) (inline : Inline)
  | runStrand

-- The executor runs one function at a time. The public functions are also
-- called from inside the callbacks; completions, timers and posted functions
-- wait until the callback has returned.
def step (s : State B) (action : Action B) : Option (State B) :=
  if s.fault then none
  else match action with
  | .start onMessage onDisconnect => some (s.start onMessage onDisconnect)
  | .asyncSend framed inline => some (s.asyncSend framed inline)
  | .enableWriteQueue enable => some { s with useWriteQueue := enable }
  | .close force inline => some (s.close force inline)
  | .callbackReturns raises inline =>
      match s.stack with
      | [] => none
      | frame :: rest => some ({ s with stack := rest }.resume frame raises inline)
  | .readCompletes result inline =>
      if s.stack ≠ [] ∨ s.reads = 0 then none else some (s.readCompletes result inline)
  | .writeCompletes i ok inline =>
      if s.stack ≠ [] then none else (s.outstanding[i]?).map fun buffers => s.writeCompletes i buffers ok inline
  | .queueCompletes i ok =>
      if s.stack ≠ [] then none else (s.queue.outstanding[i]?).map fun entry => s.queueCompletes i entry ok
  | .readTimer expired inline =>
      if s.stack ≠ [] ∨ s.readWaits = 0 then none
      else
        let completed := { s with readWaits := s.readWaits - 1 }
        some (if expired && !s.shutdownInProgress then completed.shutdown inline else completed)
  | .idleTimer expired inline =>
      if s.stack ≠ [] ∨ s.idleWaits = 0 then none
      else
        let completed := { s with idleWaits := s.idleWaits - 1 }
        some (if expired && !s.shutdownInProgress then completed.shutdown inline else completed)
  | .runWork i inline =>
      if s.stack ≠ [] then none
      else (s.work[i]?).map fun force => { s with work := s.work.eraseIdx i }.runClose force inline
  | .runStrand =>
      if s.stack ≠ [] then none
      else match s.strandWork with
      | [] => none
      | call :: rest => some ({ s with strandWork := rest }.runQueue call)

-- The step enters the body of Shutdown.
def State.ends (s : State B) : Action B → Bool
  | .readCompletes .failed _ | .writeCompletes _ false _ | .readTimer true _ | .idleTimer true _ => !s.shutdownInProgress
  | _ => false

theorem ends_unmarked (s : State B) (action : Action B) (ends : s.ends action = true) : s.shutdownInProgress = false := by
  unfold State.ends at ends
  split at ends
  all_goals first | cases ends | simpa using ends

-- A step that leaves the writes, the flags and the posted functions alone.
structure Aside (s after : State B) : Prop where
  framer : after.framer = s.framer := by rfl
  writeDeque : after.writeDeque = s.writeDeque := by rfl
  writeInProgress : after.writeInProgress = s.writeInProgress := by rfl
  outstanding : after.outstanding = s.outstanding := by rfl
  queue : after.queue = s.queue := by rfl
  useWriteQueue : after.useWriteQueue = s.useWriteQueue := by rfl
  shutdownInProgress : after.shutdownInProgress = s.shutdownInProgress := by rfl
  gracefulShutdown : after.gracefulShutdown = s.gracefulShutdown := by rfl
  socketClosed : after.socketClosed = s.socketClosed := by rfl
  work : after.work = s.work := by rfl
  strandWork : after.strandWork = s.strandWork := by rfl
  stack : .disconnect ∈ after.stack → .disconnect ∈ s.stack := by exact id
  trace : after.trace = s.trace := by rfl

theorem aside_refl (s : State B) : Aside s s := {}

theorem start_read_aside (s : State B) : Aside s s.startRead := by
  unfold State.startRead State.undefined
  split
  · exact aside_refl s
  · split <;> exact {}

theorem deliver_aside (s : State B) (count : Nat) : Aside s (s.deliver count) := by
  cases count with
  | zero => exact start_read_aside s
  | succ remaining =>
      rw [State.deliver]
      split
      · exact { stack := fun member => by simpa using member }
      · exact start_read_aside s

theorem aside_trans (s middle after : State B) (first : Aside s middle) (second : Aside middle after) : Aside s after where
  framer := second.framer.trans first.framer
  writeDeque := second.writeDeque.trans first.writeDeque
  writeInProgress := second.writeInProgress.trans first.writeInProgress
  outstanding := second.outstanding.trans first.outstanding
  queue := second.queue.trans first.queue
  useWriteQueue := second.useWriteQueue.trans first.useWriteQueue
  shutdownInProgress := second.shutdownInProgress.trans first.shutdownInProgress
  gracefulShutdown := second.gracefulShutdown.trans first.gracefulShutdown
  socketClosed := second.socketClosed.trans first.socketClosed
  work := second.work.trans first.work
  strandWork := second.strandWork.trans first.strandWork
  stack := fun member => first.stack (second.stack member)
  trace := second.trace.trans first.trace

-- The operations, one by one. Reads and timers that do not end the session, and
-- the callbacks of messages, are told apart by nothing.
theorem step_preserves (holds : State B → Prop) (s after : State B) (action : Action B)
    (taken : step s action = some after)
    (asides : ∀ after, Aside s after → holds after)
    (sends : ∀ buffers inline, action = .asyncSend (some buffers) inline → s.framer = true → holds (s.send buffers inline))
    (enables : ∀ enable, action = .enableWriteQueue enable → holds { s with useWriteQueue := enable })
    (defers : ∀ force inline, action = .close force inline → holds { s with work := s.work ++ [force] })
    (closes : ∀ force inline, action = .close force inline → inline.executor = true → holds (s.runClose force inline))
    (works : ∀ i force inline, action = .runWork i inline → s.work[i]? = some force →
      holds ({ s with work := s.work.eraseIdx i }.runClose force inline))
    (fails : ∀ before inline, Aside s before → before.onDisconnect = s.onDisconnect → s.ends action = true →
      holds (before.shutdown inline))
    (finishes : ∀ before inline, action = .callbackReturns false inline → Aside s before → s.stack.head? = some .disconnect →
      holds (before.finishShutdown inline))
    (completes : ∀ i buffers inline, action = .writeCompletes i true inline → s.outstanding[i]? = some buffers →
      holds ({ s.completed i buffers true with writeInProgress := false }.writeNext inline))
    (breaks : ∀ i buffers inline, action = .writeCompletes i false inline → s.outstanding[i]? = some buffers →
      s.shutdownInProgress = false → holds ((s.completed i buffers false).shutdown inline))
    (aborts : ∀ i buffers inline, action = .writeCompletes i false inline → s.outstanding[i]? = some buffers →
      s.shutdownInProgress = true → holds (s.completed i buffers false))
    (queues : ∀ i entry ok, action = .queueCompletes i ok → s.queue.outstanding[i]? = some entry →
      holds (s.queueCompletes i entry ok))
    (strands : ∀ call rest, action = .runStrand → s.strandWork = call :: rest →
      holds ({ s with strandWork := rest }.runQueue call)) : holds after := by
  have counted : ∀ reads readWaits idleWaits,
      Aside s { s with reads := reads, readWaits := readWaits, idleWaits := idleWaits } := fun _ _ _ => {}
  unfold step at taken
  split at taken
  · cases taken
  cases action with
  | start onMessage onDisconnect =>
      obtain rfl := Option.some.inj taken
      have started := start_read_aside { s with onMessage := onMessage, onDisconnect := onDisconnect }
      exact asides _ ⟨started.framer, started.writeDeque, started.writeInProgress, started.outstanding, started.queue,
        started.useWriteQueue, started.shutdownInProgress, started.gracefulShutdown, started.socketClosed, started.work,
        started.strandWork, started.stack, started.trace⟩
  | asyncSend framed inline =>
      obtain rfl := Option.some.inj taken
      unfold State.asyncSend
      split
      · rename_i present
        cases framed with
        | none => exact asides s (aside_refl s)
        | some buffers => exact sends buffers inline rfl present
      · exact asides _ {}
  | enableWriteQueue enable => exact Option.some.inj taken ▸ enables enable rfl
  | close force inline =>
      obtain rfl := Option.some.inj taken
      unfold State.close
      split
      · rename_i inside
        exact closes force inline rfl inside
      · exact defers force inline rfl
  | callbackReturns raises inline =>
      cases stack : s.stack with
      | nil => simp [stack] at taken
      | cons frame rest =>
          simp only [stack, Option.some.injEq] at taken
          have popped : Aside s { s with stack := rest } :=
            { stack := fun member => stack ▸ List.mem_cons_of_mem _ member }
          subst taken
          cases frame with
          | messages remaining => exact asides _ (aside_trans s _ _ popped (deliver_aside _ remaining))
          | disconnect =>
              cases raises with
              | true => exact asides _ popped
              | false => exact finishes _ inline rfl popped (by rw [stack]; rfl)
  | readCompletes result inline =>
      simp only at taken
      split at taken
      · cases taken
      · obtain rfl := Option.some.inj taken
        unfold State.readCompletes
        split
        · exact asides _ (counted _ _ _)
        · rename_i unmarked
          cases result with
          | failed => exact fails _ inline (counted _ _ _) rfl (by simpa [State.ends] using unmarked)
          | messages count => exact asides _ (aside_trans s _ _ (counted _ _ _) (deliver_aside _ count))
          | raised => exact asides _ (counted _ _ _)
  | writeCompletes i ok inline =>
      simp only at taken
      split at taken
      · cases taken
      · obtain ⟨buffers, found, rfl⟩ := Option.map_eq_some_iff.mp taken
        cases ok with
        | true => exact completes i buffers inline rfl found
        | false =>
            by_cases marked : s.shutdownInProgress = true
            · have returns : (s.completed i buffers false).shutdown inline = s.completed i buffers false := if_pos marked
              rw [State.writeCompletes, if_neg (by decide), returns]
              exact aborts i buffers inline rfl found marked
            · exact breaks i buffers inline rfl found (by simpa using marked)
  | queueCompletes i ok =>
      simp only at taken
      split at taken
      · cases taken
      · obtain ⟨entry, found, rfl⟩ := Option.map_eq_some_iff.mp taken
        exact queues i entry ok rfl found
  | readTimer expired inline | idleTimer expired inline =>
      simp only at taken
      split at taken
      · cases taken
      · obtain rfl := Option.some.inj taken
        split
        · rename_i ends
          have both : expired = true ∧ s.shutdownInProgress = false := by simpa using ends
          obtain ⟨rfl, unmarked⟩ := both
          exact fails _ inline (counted _ _ _) rfl (by simp [State.ends, unmarked])
        · exact asides _ (counted _ _ _)
  | runWork i inline =>
      simp only at taken
      split at taken
      · cases taken
      · obtain ⟨force, found, rfl⟩ := Option.map_eq_some_iff.mp taken
        exact works i force inline rfl found
  | runStrand =>
      simp only at taken
      split at taken
      · cases taken
      · cases strand : s.strandWork with
        | nil => simp [strand] at taken
        | cons call rest =>
            simp only [strand, Option.some.injEq] at taken
            exact taken ▸ strands call rest rfl strand

-- What the queue is given shows in the session only as buffers handed over.
theorem run_queue_frame (s : State B) (call : QueueCall B) :
    ∃ queue hands, s.runQueue call = { s with queue := queue, trace := s.trace ++ List.map .handed hands } := by
  cases call with
  | asyncSend buffers => exact ⟨_, _, rfl⟩
  | close force => exact ⟨_, _, rfl⟩

theorem dispatch_queue_frame (s : State B) (call : QueueCall B) (inline : Inline) :
    ∃ queue strandWork hands, s.dispatchQueue call inline =
      { s with queue := queue, strandWork := strandWork, trace := s.trace ++ List.map .handed hands } := by
  unfold State.dispatchQueue
  split
  · obtain ⟨queue, hands, same⟩ := run_queue_frame s call
    exact ⟨queue, s.strandWork, hands, same⟩
  · exact ⟨s.queue, _, [], by rw [List.map_nil, List.append_nil]⟩

-- The socket is closed in one place.
theorem close_forced_frame (s : State B) (inline : Inline) (unmarked : s.shutdownInProgress = false) :
    ∃ queue strandWork hands, s.closeForced inline =
      { s with shutdownInProgress := true, socketClosed := true, writeDeque := [], queue := queue, strandWork := strandWork
               trace := s.trace ++ .closed true :: List.map .handed hands } ∧
      (s.useWriteQueue = false → queue = s.queue ∧ strandWork = s.strandWork ∧ hands = []) := by
  rw [State.closeForced, if_neg (by simp [unmarked])]
  split
  · rename_i mode
    obtain ⟨queue, strandWork, hands, same⟩ := dispatch_queue_frame
      { s.emit (.closed true) with shutdownInProgress := true, socketClosed := true, writeDeque := [] } (.close true) inline
    refine ⟨queue, strandWork, hands, ?_, fun direct => absurd (direct.symm.trans mode) (by decide)⟩
    rw [same]
    simp only [State.emit, List.append_assoc, List.singleton_append]
  · exact ⟨s.queue, s.strandWork, [], rfl, fun _ => ⟨rfl, rfl, rfl⟩⟩

theorem close_forced_again (s : State B) (inline : Inline) (marked : s.shutdownInProgress = true) :
    s.closeForced inline = s.emit (.closed true) := by
  rw [State.closeForced, if_pos marked]

theorem finish_shutdown_frame (s : State B) (inline : Inline) (marked : s.shutdownInProgress = true) :
    ∃ queue strandWork work closes hands, s.finishShutdown inline =
      { s with framer := false, onMessage := false, onDisconnect := false, writeDeque := [], queue := queue
               strandWork := strandWork, work := s.work ++ work
               trace := s.trace ++ (List.map .closed closes ++ List.map .handed hands) } ∧
      (∀ force ∈ closes ++ work, force = true) ∧
      (s.useWriteQueue = false → queue = s.queue ∧ strandWork = s.strandWork ∧ hands = []) := by
  have called : ∃ work closes, s.dispatchForced inline =
      { s with work := s.work ++ work, trace := s.trace ++ List.map .closed closes } ∧
        ∀ force ∈ closes ++ work, force = true := by
    unfold State.dispatchForced
    split
    · rw [close_forced_again s inline marked]
      exact ⟨[], [true], by rw [List.append_nil]; rfl, by simp⟩
    · exact ⟨[true], [], by rw [List.map_nil, List.append_nil], by simp⟩
  obtain ⟨work, closes, same, forced⟩ := called
  rw [State.finishShutdown, same]
  dsimp only
  split
  · rename_i mode
    obtain ⟨queue, strandWork, hands, onward⟩ := dispatch_queue_frame
      { s with writeDeque := [], work := s.work ++ work, trace := s.trace ++ List.map .closed closes } (.close true) inline
    refine ⟨queue, strandWork, work, closes, hands, ?_, forced, fun direct => absurd (direct.symm.trans mode) (by decide)⟩
    rw [onward]
    simp only [List.append_assoc]
  · refine ⟨s.queue, s.strandWork, work, closes, [], ?_, forced, fun _ => ⟨rfl, rfl, rfl⟩⟩
    rw [List.map_nil, List.append_nil]

-- The operations on the writes and the closes count no read and no timer, do not
-- switch the mode and take back neither flag.
structure Steady (s after : State B) : Prop where
  useWriteQueue : after.useWriteQueue = s.useWriteQueue := by rfl
  fault : after.fault = s.fault := by rfl
  readWaits : after.readWaits = s.readWaits := by rfl
  idleWaits : after.idleWaits = s.idleWaits := by rfl
  shutdownInProgress : s.shutdownInProgress = true → after.shutdownInProgress = true := by exact id
  gracefulShutdown : s.gracefulShutdown = true → after.gracefulShutdown = true := by exact id

theorem same_steady (s after : State B)
    (same : (after.useWriteQueue, after.fault, after.readWaits, after.idleWaits, after.shutdownInProgress, after.gracefulShutdown) =
      (s.useWriteQueue, s.fault, s.readWaits, s.idleWaits, s.shutdownInProgress, s.gracefulShutdown)) : Steady s after := by
  simp only [Prod.mk.injEq] at same
  obtain ⟨mode, fault, reads, idles, marked, graceful⟩ := same
  exact ⟨mode, fault, reads, idles, marked.trans, graceful.trans⟩

theorem steady_trans (s middle after : State B) (first : Steady s middle) (second : Steady middle after) : Steady s after where
  useWriteQueue := second.useWriteQueue.trans first.useWriteQueue
  fault := second.fault.trans first.fault
  readWaits := second.readWaits.trans first.readWaits
  idleWaits := second.idleWaits.trans first.idleWaits
  shutdownInProgress := fun flagged => second.shutdownInProgress (first.shutdownInProgress flagged)
  gracefulShutdown := fun flagged => second.gracefulShutdown (first.gracefulShutdown flagged)

theorem steady_from (s middle after : State B) (steady : Steady middle after)
    (same : (middle.useWriteQueue, middle.fault, middle.readWaits, middle.idleWaits, middle.shutdownInProgress,
      middle.gracefulShutdown) =
      (s.useWriteQueue, s.fault, s.readWaits, s.idleWaits, s.shutdownInProgress, s.gracefulShutdown)) : Steady s after :=
  steady_trans s middle after (same_steady s middle same) steady

theorem run_queue_steady (s : State B) (call : QueueCall B) : Steady s (s.runQueue call) := by
  obtain ⟨queue, hands, same⟩ := run_queue_frame s call
  rw [same]
  exact same_steady s _ rfl

theorem dispatch_queue_steady (s : State B) (call : QueueCall B) (inline : Inline) : Steady s (s.dispatchQueue call inline) := by
  obtain ⟨queue, strandWork, hands, same⟩ := dispatch_queue_frame s call inline
  rw [same]
  exact same_steady s _ rfl

theorem close_forced_steady (s : State B) (inline : Inline) : Steady s (s.closeForced inline) := by
  unfold State.closeForced
  dsimp only
  split
  · exact same_steady s _ rfl
  · split
    · apply steady_trans s _ _ _ (dispatch_queue_steady _ _ inline)
      exact ⟨rfl, rfl, rfl, rfl, fun _ => rfl, id⟩
    · exact ⟨rfl, rfl, rfl, rfl, fun _ => rfl, id⟩

theorem dispatch_forced_steady (s : State B) (inline : Inline) : Steady s (s.dispatchForced inline) := by
  unfold State.dispatchForced
  split
  · exact close_forced_steady s inline
  · exact same_steady s _ rfl

theorem run_close_steady (s : State B) (force : Bool) (inline : Inline) : Steady s (s.runClose force inline) := by
  cases force with
  | true => exact close_forced_steady s inline
  | false =>
      change Steady s (s.closeGraceful inline)
      unfold State.closeGraceful
      dsimp only
      split
      · exact same_steady s _ rfl
      · have marked : Steady s { s.emit (.closed false) with gracefulShutdown := true } :=
          ⟨rfl, rfl, rfl, rfl, id, fun _ => rfl⟩
        split
        · exact steady_trans s _ _ marked (dispatch_queue_steady _ _ inline)
        · split
          · exact steady_trans s _ _ marked (dispatch_forced_steady _ inline)
          · exact marked

theorem finish_shutdown_steady (s : State B) (inline : Inline) : Steady s (s.finishShutdown inline) := by
  have forced : Steady s { s.dispatchForced inline with writeDeque := [] } :=
    steady_trans s _ _ (dispatch_forced_steady s inline) (same_steady _ _ rfl)
  unfold State.finishShutdown
  dsimp only
  split
  · exact steady_trans s _ _ (steady_trans s _ _ forced (dispatch_queue_steady _ _ inline)) (same_steady _ _ rfl)
  · exact steady_trans s _ _ forced (same_steady _ _ rfl)

theorem shutdown_steady (s : State B) (inline : Inline) : Steady s (s.shutdown inline) := by
  have marked : Steady s { s with shutdownInProgress := true } := ⟨rfl, rfl, rfl, rfl, fun _ => rfl, id⟩
  unfold State.shutdown
  dsimp only
  split
  · exact same_steady s _ rfl
  · split
    · exact steady_trans s _ _ marked (same_steady _ _ rfl)
    · exact steady_trans s _ _ marked (finish_shutdown_steady _ inline)

theorem write_next_steady (s : State B) (inline : Inline) : Steady s (s.writeNext inline) := by
  unfold State.writeNext
  split
  · dsimp only
    split
    · exact steady_from s _ _ (dispatch_forced_steady { s with writeInProgress := false } inline) rfl
    · exact same_steady s _ rfl
  · exact same_steady s _ rfl

theorem send_steady (s : State B) (buffers : B) (inline : Inline) : Steady s (s.send buffers inline) := by
  unfold State.send
  dsimp only
  split
  · exact steady_from s _ _ (dispatch_queue_steady (s.emit (.sent buffers)) _ inline) rfl
  · split
    · exact same_steady s _ rfl
    · exact steady_from s _ _ (write_next_steady { s.emit (.sent buffers) with writeDeque := s.writeDeque ++ [buffers] } inline) rfl

theorem write_completes_steady (s : State B) (i : Nat) (buffers : B) (ok : Bool) (inline : Inline) :
    Steady s (s.writeCompletes i buffers ok inline) := by
  unfold State.writeCompletes
  split
  · exact steady_from s _ _ (write_next_steady { s.completed i buffers true with writeInProgress := false } inline) rfl
  · exact steady_from s _ _ (shutdown_steady (s.completed i buffers false) inline) rfl

-- Closes, writes and posted functions.
def Action.isWriting : Action B → Bool
  | .close _ _ | .writeCompletes _ _ _ | .queueCompletes _ _ | .runWork _ _ | .runStrand => true
  | _ => false

theorem step_steady (s after : State B) (action : Action B) (writing : action.isWriting = true) (taken : step s action = some after) :
    Steady s after := by
  unfold step at taken
  split at taken
  · cases taken
  cases action with
  | start | asyncSend | enableWriteQueue | callbackReturns | readCompletes | readTimer | idleTimer => cases writing
  | close force inline =>
      obtain rfl := Option.some.inj taken
      unfold State.close
      split
      · exact run_close_steady s force inline
      · exact same_steady s _ rfl
  | writeCompletes i ok inline =>
      simp only at taken
      split at taken
      · cases taken
      · obtain ⟨buffers, _, rfl⟩ := Option.map_eq_some_iff.mp taken
        exact write_completes_steady s i buffers ok inline
  | queueCompletes i ok =>
      simp only at taken
      split at taken
      · cases taken
      · obtain ⟨entry, _, rfl⟩ := Option.map_eq_some_iff.mp taken
        exact same_steady s _ rfl
  | runWork i inline =>
      simp only at taken
      split at taken
      · cases taken
      · obtain ⟨force, _, rfl⟩ := Option.map_eq_some_iff.mp taken
        exact steady_from s _ _ (run_close_steady { s with work := s.work.eraseIdx i } force inline) rfl
  | runStrand =>
      simp only at taken
      split at taken
      · cases taken
      · cases strand : s.strandWork with
        | nil => simp [strand] at taken
        | cons call rest =>
            simp only [strand, Option.some.injEq] at taken
            subst taken
            exact steady_from s _ _ (run_queue_steady { s with strandWork := rest } call) rfl

end

end Vectro.Session
