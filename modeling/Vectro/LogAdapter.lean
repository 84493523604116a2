import Vectro.Machine
import Vectro.Traces

set_option autoImplicit false

namespace Vectro.Log

inductive LogLevel where
  | trace
  | debug
  | info
  | notice
  | warning
  | error
  | critical
  | alert
  | emergency
deriving DecidableEq, Repr

def LogLevel.toString : LogLevel → String
  | .trace => "TRACE"
  | .debug => "DEBUG"
  | .info => "INFO"
  | .notice => "NOTICE"
  | .warning => "WARNING"
  | .error => "ERROR"
  | .critical => "CRITICAL"
  | .alert => "ALERT"
  | .emergency => "EMERGENCY"

-- Time points are nanoseconds, of the wall clock in a message and of the
-- steady clock in the destructor.
structure LogMessage where
  loggerId : String
  level : LogLevel
  timestamp : Int
  threadId : Nat
  message : String
deriving DecidableEq, Repr

-- What the adapter takes from the platform: absl::FormatTime in the local time
-- zone, std::hash of a thread id, and the id its worker thread was given.
structure Platform where
  formatTime : Int → String
  threadHash : Nat → Nat
  workerId : Nat

def defaultLog (platform : Platform) (lm : LogMessage) : String :=
  "[" ++ platform.formatTime lm.timestamp ++ "] [" ++ lm.loggerId ++ "] [" ++ lm.level.toString ++ "] [t" ++
    toString (platform.threadHash lm.threadId) ++ "] " ++ lm.message ++ "\n"

-- Where an Enqueue call stands; each constructor names the statement that runs
-- next. The critical sections of queue_mu_ are single steps.
inductive EnqueuePc where
  | size
  | check (sz : Nat)
  | drop
  | threshold (sz : Nat)
  | backoff
  | push
  | signal
  | returned
  | dropped
  | failed
deriving DecidableEq, Repr

def EnqueuePc.over : EnqueuePc → Bool
  | .returned | .dropped | .failed => true
  | _ => false

structure Call where
  message : LogMessage
  pc : EnqueuePc
deriving DecidableEq, Repr

-- How one callback ends: what() is the text of a std::exception.
inductive Outcome where
  | returned
  | threw (what : String)
  | threwUnknown
deriving DecidableEq, Repr

def Outcome.report : Outcome → String
  | .returned => ""
  | .threw what => "[Callback exception] " ++ what ++ "\n"
  | .threwUnknown => "[Callback unknown exception]\n"

def enqueueReport : Option String → String
  | some what => "[LogAdapter] Enqueue exception: " ++ what ++ "\n"
  | none => "[LogAdapter] Enqueue unknown exception\n"

-- Calling an empty std::function throws std::bad_function_call.
def badFunctionCall : Outcome := .threw "bad_function_call"

-- Where ProcessLoop stands. A list holds the part of a batch that the range
-- for has not finished, and the flag tells the batch drained after the loop
-- from those of the loop.
inductive WorkerPc (C : Type) where
  | lock
  | blocked
  | batch (remaining : List LogMessage) (drained : Bool)
  | callbacks (lm : LogMessage) (cbs : List (Option C)) (remaining : List LogMessage) (drained : Bool)
  | drops (drained : Bool)
  | notify (dropped : UInt64) (drained : Bool)
  | drain
  | stop
  | stopped
deriving DecidableEq, Repr

def WorkerPc.wake {C : Type} : WorkerPc C → WorkerPc C
  | .blocked => .lock
  | pc => pc

def WorkerPc.returned {C : Type} : WorkerPc C → Bool
  | .stopped => true
  | _ => false

inductive RegisterPc where
  | load
  | copy (old : Option Nat)
  | exchange (old : Option Nat) (new : Nat)
  | registered
deriving DecidableEq, Repr

-- A RegisterCallback call and its parameter, which is empty once it has been
-- moved from.
structure Registration (C : Type) where
  cb : Option C
  pc : RegisterPc
deriving DecidableEq, Repr

inductive DestructorPc where
  | alive
  | testStopped (start : Int)
  | testTime (start : Int)
  | join
  | joined
  | detached
deriving DecidableEq, Repr

def DestructorPc.over : DestructorPc → Bool
  | .joined | .detached => true
  | _ => false

-- What an observer could have logged, in order: the messages Enqueue accepted
-- and dropped, the critical sections of the worker, the calls of Dispatch and
-- its ends, and what reaches stderr or a caller. No step reads the trace.
inductive Event (C : Type) where
  | accepted (call : Nat) (lm : LogMessage)
  | dropped (call : Nat)
  | locked
  | called (cb : Option C) (lm : LogMessage) (outcome : Outcome)
  | dispatched (lm : LogMessage)
  | stderr (text : String)
  | notified (dropped : UInt64) (lm : LogMessage)
  | dropsRead (dropped : UInt64)
deriving DecidableEq, Repr

-- The published list is the shared_ptr callbacks_, an index into the lists
-- ever built and none while it is null. The length of a backoff sleep only
-- lets time pass, so its duration and jitter are left out.
structure State (C : Type) where
  loggerId : String
  platform : Platform
  running : Bool
  stopped : Bool
  queue : List LogMessage
  worker : WorkerPc C
  maxQueueSize : Nat
  backpressureThreshold : Nat
  dropNotificationInterval : Int
  shutdownTimeout : Int
  droppedMessages : UInt64
  highWaterMark : Nat
  lists : List (List (Option C))
  callbacks : Option Nat
  lastDropNotification : Int
  errorBuffer : String
  now : Int
  steady : Int
  calls : List Call
  registrations : List (Registration C)
  destructor : DestructorPc
  fault : Bool
  trace : List (Event C)

def construct {C : Type} (id : String) (platform : Platform) (now steady : Int) : State C where
  loggerId := id
  platform := platform
  running := true
  stopped := false
  queue := []
  worker := .lock
  maxQueueSize := 10000
  backpressureThreshold := 5000
  dropNotificationInterval := 1000
  shutdownTimeout := 5000
  droppedMessages := 0
  highWaterMark := 0
  lists := []
  callbacks := none
  lastDropNotification := now
  errorBuffer := ""
  now := now
  steady := steady
  calls := []
  registrations := []
  destructor := .alive
  fault := false
  trace := []

section
variable {C : Type}

@[simp] def State.setCall (s : State C) (i : Nat) (call : Call) (pc : EnqueuePc) : State C :=
  { s with calls := s.calls.set i { call with pc := pc } }

@[simp] def State.emit (s : State C) (event : Event C) : State C := { s with trace := s.trace ++ [event] }

@[simp] def State.undefined (s : State C) : State C := { s with fault := true }

@[simp] def State.goto (s : State C) (pc : WorkerPc C) : State C := { s with worker := pc }

-- queue_cv_ has one waiter at most, the worker, which then competes for
-- queue_mu_ where the loop first locks it.
@[simp] def State.signal (s : State C) : State C := { s with worker := s.worker.wake }

@[simp] def State.setRegistration (s : State C) (i : Nat) (cb : Option C) (pc : RegisterPc) : State C :=
  { s with registrations := s.registrations.set i ⟨cb, pc⟩ }

-- The first lock reads the size, the second checks it again and pushes. The
-- compare-exchange loop of the high-water mark runs under the lock, where no
-- other thread writes the mark.
def enqueue (s : State C) (i : Nat) (call : Call) : Option (State C) :=
  match call.pc with
  | .size => some (s.setCall i call (.check s.queue.length))
  | .check sz => some (s.setCall i call (if s.maxQueueSize ≤ sz then .drop else .threshold sz))
  | .drop =>
      some (({ s with droppedMessages := s.droppedMessages + 1 }.setCall i call .dropped).emit (.dropped i))
  | .threshold sz => some (s.setCall i call (if s.backpressureThreshold ≤ sz then .backoff else .push))
  | .backoff => some (s.setCall i call .push)
  | .push =>
      if s.maxQueueSize ≤ s.queue.length then
        some (({ s with droppedMessages := s.droppedMessages + 1 }.setCall i call .dropped).emit (.dropped i))
      else
        some (({ s with queue := s.queue ++ [call.message]
                        highWaterMark := max s.highWaterMark (s.queue.length + 1) }.setCall i call .signal).emit
          (.accepted i call.message))
  | .signal => some (s.signal.setCall i call .returned)
  | .returned | .dropped | .failed => none

-- The random device or growing the deque throws, and Enqueue reports it.
def enqueueFails (s : State C) (i : Nat) (what : Option String) (call : Call) : Option (State C) :=
  match call.pc with
  | .backoff => some ((s.setCall i call .failed).emit (.stderr (enqueueReport what)))
  | .push =>
      if s.maxQueueSize ≤ s.queue.length then none
      else some ((s.setCall i call .failed).emit (.stderr (enqueueReport what)))
  | _ => none

-- One callback of the range for in Dispatch: its exception is caught and its
-- text goes to error_buffer_.
def invoke (s : State C) (outcome : Outcome) (cb : Option C) (lm : LogMessage) (cbs : List (Option C))
    (remaining : List LogMessage) (drained : Bool) : State C :=
  ({ s with errorBuffer := s.errorBuffer ++ outcome.report }.goto (.callbacks lm cbs remaining drained)).emit
    (.called cb lm outcome)

def reportErrors (s : State C) : State C :=
  if s.errorBuffer = "" then s else { s with errorBuffer := "" }.emit (.stderr s.errorBuffer)

def dispatch (s : State C) (lm : LogMessage) (remaining : List LogMessage) (drained : Bool) : State C :=
  match s.callbacks.bind fun cbs => s.lists[cbs]? with
  | none => s.undefined
  | some [] =>
      ((s.emit (.stderr (defaultLog s.platform lm))).goto (.batch remaining drained)).emit (.dispatched lm)
  | some (cb :: cbs) => s.goto (.callbacks lm (cb :: cbs) remaining drained)

def afterDrops (drained : Bool) : WorkerPc C := if drained then .stop else .lock

def handleDrops (s : State C) (drained : Bool) : State C :=
  { s with droppedMessages := 0 }.goto
    (if s.droppedMessages = 0 then afterDrops drained else .notify s.droppedMessages drained)

def toInt64Milliseconds (duration : Int) : Int := duration.tdiv 1000000

def dropNotice (s : State C) (dropped : UInt64) : LogMessage where
  loggerId := s.loggerId
  level := .warning
  timestamp := s.now
  threadId := s.platform.workerId
  message := "[" ++ s.loggerId ++ "] dropped " ++ toString dropped.toNat ++ " msgs"

def State.due (s : State C) : Bool :=
  decide (s.dropNotificationInterval ≤ toInt64Milliseconds (s.now - s.lastDropNotification))

def notifyDrops (s : State C) (dropped : UInt64) (drained : Bool) : State C :=
  if s.due then
    (({ s with lastDropNotification := s.now }.emit (.stderr (defaultLog s.platform (dropNotice s dropped)))).goto
      (afterDrops drained)).emit (.notified dropped (dropNotice s dropped))
  else s.goto (afterDrops drained)

-- The handlers around the loop are reached by no exception of a callback:
-- Dispatch and DefaultLog catch everything their bodies raise.
def processLoop (s : State C) : Option (State C) :=
  match s.worker with
  | .lock =>
      if s.running = false ∧ s.queue = [] then some ((s.goto .drain).emit .locked)
      else if s.queue = [] then some ((s.goto .blocked).emit .locked)
      else some (({ s with queue := [] }.goto (.batch s.queue false)).emit .locked)
  | .blocked => none
  | .batch [] drained => some (s.goto (.drops drained))
  | .batch (lm :: remaining) drained => some (dispatch s lm remaining drained)
  | .callbacks lm [] remaining drained =>
      some (((reportErrors s).goto (.batch remaining drained)).emit (.dispatched lm))
  | .callbacks lm (none :: cbs) remaining drained =>
      some (invoke s badFunctionCall none lm cbs remaining drained)
  | .callbacks _ (some _ :: _) _ _ => none
  | .drops drained => some (handleDrops s drained)
  | .notify dropped drained => some (notifyDrops s dropped drained)
  | .drain => some (({ s with queue := [] }.goto (.batch s.queue true)).emit .locked)
  | .stop => some ({ s with stopped := true }.goto .stopped)
  | .stopped => none

def callback (s : State C) (outcome : Outcome) : Option (State C) :=
  match s.worker with
  | .callbacks lm (some cb :: cbs) remaining drained => some (invoke s outcome (some cb) lm cbs remaining drained)
  | _ => none

def registerCallback (s : State C) (i : Nat) (registration : Registration C) : Option (State C) :=
  match registration.pc with
  | .load => some (s.setRegistration i registration.cb (.copy s.callbacks))
  | .copy old =>
      match old.bind fun cbs => s.lists[cbs]? with
      | none => some s.undefined
      | some cbs =>
          some ({ s with lists := s.lists ++ [cbs ++ [registration.cb]] }.setRegistration i none
            (.exchange old s.lists.length))
  | .exchange old new =>
      if s.callbacks = old then
        some ({ s with callbacks := some new }.setRegistration i registration.cb .registered)
      else some (s.setRegistration i registration.cb (.copy s.callbacks))
  | .registered => none

def exchangeFails (s : State C) (i : Nat) (registration : Registration C) : Option (State C) :=
  match registration.pc with
  | .exchange _ _ => some (s.setRegistration i registration.cb (.copy s.callbacks))
  | _ => none

def destructor (s : State C) : Option (State C) :=
  match s.destructor with
  | .alive => some ({ s with running := false, destructor := .testStopped s.steady }.signal)
  | .testStopped start => some { s with destructor := if s.stopped then .join else .testTime start }
  | .testTime start =>
      some { s with destructor := if s.steady - start < s.shutdownTimeout * 1000000 then .testStopped start else .join }
  | .join => some { s with destructor := if s.stopped then .joined else .detached }
  | .joined | .detached => none

inductive Action (C : Type) where
  | log (thread : Nat) (level : LogLevel) (message : String)
  | call (i : Nat)
  | callFails (i : Nat) (what : Option String)
  | worker
  | callback (outcome : Outcome)
  | wake
  | destroy
  | setMaxQueueSize (max : Nat)
  | setBackpressureThreshold (threshold : Nat)
  | setDropNotificationInterval (interval : Int)
  | setShutdownTimeout (timeout : Int)
  | registerCallback (cb : C)
  | register (i : Nat)
  | exchangeFails (i : Nat)
  | clearCallbacks
  | getDroppedCount
  | clock (now steady : Int)

-- Once the destructor is over the members are gone. What a detached worker or
-- a late call then does is undefined.
def afterDestruction (s : State C) : Action C → Option (State C)
  | .worker | .callback _ | .wake => if s.worker.returned then none else some s.undefined
  | .destroy => none
  | .clock now steady => some { s with now := now, steady := steady }
  | _ => some s.undefined

def step (s : State C) (action : Action C) : Option (State C) :=
  if s.fault then none
  else if s.destructor.over then afterDestruction s action
  else match action with
  | .log thread level message =>
      if s.calls.all fun call => call.message.threadId != thread || call.pc.over then
        some { s with calls := s.calls ++ [⟨⟨s.loggerId, level, s.now, thread, message⟩, .size⟩] }
      else none
  | .call i => (s.calls[i]?).bind (enqueue s i)
  | .callFails i what => (s.calls[i]?).bind (enqueueFails s i what)
  | .worker => processLoop s
  | .callback outcome => callback s outcome
  | .wake => some s.signal
  | .destroy => destructor s
  | .setMaxQueueSize max => some { s with maxQueueSize := max }
  | .setBackpressureThreshold threshold => some { s with backpressureThreshold := threshold }
  | .setDropNotificationInterval interval => some { s with dropNotificationInterval := interval }
  | .setShutdownTimeout timeout => some { s with shutdownTimeout := timeout }
  | .registerCallback cb => some { s with registrations := s.registrations ++ [⟨some cb, .load⟩] }
  | .register i => (s.registrations[i]?).bind (registerCallback s i)
  | .exchangeFails i => (s.registrations[i]?).bind (exchangeFails s i)
  | .clearCallbacks => some { s with lists := s.lists ++ [[]], callbacks := some s.lists.length }
  | .getDroppedCount => some ({ s with droppedMessages := 0 }.emit (.dropsRead s.droppedMessages))
  | .clock now steady => some { s with now := now, steady := steady }

end

end Vectro.Log
