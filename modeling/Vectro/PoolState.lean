import Vectro.Machine
import Vectro.Tally
import Vectro.Traces

set_option autoImplicit false

namespace Vectro.Pool

inductive ScheduleMode where
  | fifo
  | roundRobin
  | workStealing
deriving DecidableEq, Repr

-- A std::function may keep state of its own, so a steal policy is the set of
-- answers it may give for a vector of queue sizes.
abbrev StealPolicy := List Nat → Nat → Bool

-- std::max_element returns the first of the largest elements, and the end
-- iterator of an empty vector is also its begin.
def defaultStealPolicy (sizes : List Nat) : Nat := sizes.idxOf (sizes.foldl max 0)

-- Durations and time points are milliseconds. The length of a backoff sleep
-- (backoff_duration and its floating-point jitter) only lets time pass, and
-- thread affinity has no effect on the queue discipline: both are left out.
structure TaskProcessorConfig where
  id : String := "TaskProcessor"
  numThreads : Nat
  mode : ScheduleMode := .fifo
  stealPolicy : Option StealPolicy := none
  maxQueueSize : UInt64 := 10000
  backpressureThreshold : UInt64 := 5000
  dropNotificationInterval : Int := 1000
  shutdownTimeout : Int := 5000
  enableCircuitBreaker : Bool := true
  enableBackoff : Bool := true
  enableDrainOnShutdown : Bool := true

def TaskProcessorConfig.trips (cfg : TaskProcessorConfig) (curr : UInt64) : Bool :=
  cfg.enableCircuitBreaker && cfg.maxQueueSize != 0 && decide (cfg.maxQueueSize ≤ curr)

def TaskProcessorConfig.backsOff (cfg : TaskProcessorConfig) (curr : UInt64) : Bool :=
  cfg.enableBackoff && cfg.backpressureThreshold != 0 && decide (cfg.backpressureThreshold ≤ curr)

-- T is the payload and W the per-task callbacks. The index of the Submit call
-- that built the item is history: no step reads it.
structure TaskItem (T W : Type) where
  payload : T
  wrappers : List W
  call : Nat
deriving DecidableEq, Repr

-- Where a SubmitImpl call stands. Each constructor names what runs next: the
-- index is computed in three steps, from pick to divide, and the qmutex is held
-- from sample to the end of the exchange loop.
inductive SubmitPc where
  | load
  | check (curr : UInt64)
  | drop
  | backoff
  | pick
  | rotate
  | divide (rr : UInt64)
  | push (idx : Nat)
  | sample (idx : Nat)
  | exchange (idx : Nat) (hwm prev : UInt64)
  | count
  | signal
  | returned
  | dropped
  | failed
deriving DecidableEq, Repr

structure Call (T W : Type) where
  owner : Nat
  payload : T
  wrappers : List W
  pc : SubmitPc
deriving DecidableEq, Repr

def Call.item {T W : Type} (call : Call T W) (i : Nat) : TaskItem T W := ⟨call.payload, call.wrappers, i⟩

-- Where a ProcessLoop stands. A worker that cv_.Wait has been signalled for
-- competes for mutex_ again, which is where the loop first locks it.
inductive WorkerPc (T W : Type) where
  | loop
  | lock
  | testRunning
  | testTasks
  | wait
  | blocked
  | own
  | mode
  | vector
  | sizes (sizes : List Nat) (i : Nat)
  | policy (sizes : List Nat)
  | steal (vic : Nat)
  | subtract (item : TaskItem T W)
  | processed (item : TaskItem T W)
  | lockCallbacks (item : TaskItem T W)
  | callbacks (item : TaskItem T W) (k : Nat)
  | wrappers (item : TaskItem T W) (remaining : List W)
  | drops
  | notify (d : UInt64)
  | leave
  | stop
  | finished
deriving DecidableEq, Repr

inductive DestructorPc where
  | alive
  | signal
  | start
  | drainTasks (start : Int)
  | drainTime (start : Int)
  | join (k : Nat)
  | await
  | stop
  | final
  | destroyed
deriving DecidableEq, Repr

-- What an observer could have logged, in order. Nothing in the program reads
-- the trace.
inductive Event (T W : Type) where
  | submitted (call owner : Nat)
  | registered
  | loaded (call : Nat) (curr : UInt64)
  | dropped (call : Nat)
  | pushed (idx : Nat) (item : TaskItem T W) (size : Nat)
  | taken (w idx : Nat) (item : TaskItem T W)
  | subtracted (w : Nat) (item : TaskItem T W)
  | callback (w k : Nat) (item : TaskItem T W) (threw : Bool)
  | wrapper (w : Nat) (wrapper : W) (item : TaskItem T W) (threw : Bool)
  | processed (w : Nat) (item : TaskItem T W)
  | notified (d : UInt64) (line : String)
  | dropsRead (d : UInt64)
  | shutdown
  | finalCallback
deriving DecidableEq, Repr

structure State (T W : Type) where
  cfg : TaskProcessorConfig
  stealPolicy : StealPolicy
  running : Bool
  stopped : Bool
  activeWorkers : UInt64
  queues : List (List (TaskItem T W))
  workers : List (WorkerPc T W)
  globalCallbacks : Nat
  finalCallback : Bool
  tasksInQueue : UInt64
  droppedCount : UInt64
  highWaterMark : UInt64
  processedCount : UInt64
  stolenCount : UInt64
  rrIndex : UInt64
  lastDropNotification : Int
  now : Int
  calls : List (Call T W)
  destructor : DestructorPc
  fault : Bool
  trace : List (Event T W)

def construct {T W : Type} (cfg : TaskProcessorConfig) (now : Int) : State T W where
  cfg := cfg
  stealPolicy := cfg.stealPolicy.getD fun sizes vic => vic == defaultStealPolicy sizes
  running := true
  stopped := false
  activeWorkers := UInt64.ofNat cfg.numThreads
  queues := List.replicate cfg.numThreads []
  workers := List.replicate cfg.numThreads .loop
  globalCallbacks := 0
  finalCallback := false
  tasksInQueue := 0
  droppedCount := 0
  highWaterMark := 0
  processedCount := 0
  stolenCount := 0
  rrIndex := 0
  lastDropNotification := now
  now := now
  calls := []
  destructor := .alive
  fault := false
  trace := []

-- A call between its lock and its unlock of qmutexes_[i].
def SubmitPc.qmutex : SubmitPc → Option Nat
  | .sample idx | .exchange idx _ _ => some idx
  | _ => none

def SubmitPc.over : SubmitPc → Bool
  | .returned | .dropped | .failed => true
  | _ => false

def WorkerPc.holdsMutex {T W : Type} : WorkerPc T W → Bool
  | .testRunning | .testTasks | .wait => true
  | _ => false

def WorkerPc.holdsCallbacks {T W : Type} : WorkerPc T W → Bool
  | .callbacks _ _ => true
  | _ => false

def WorkerPc.returned {T W : Type} : WorkerPc T W → Bool
  | .finished => true
  | _ => false

def WorkerPc.wake {T W : Type} : WorkerPc T W → WorkerPc T W
  | .blocked => .lock
  | pc => pc

section
variable {T W : Type}

-- A mutex is free when no thread stands inside its critical section; the
-- sections that are a single step never appear in a state.
def State.qmutexFree (s : State T W) (i : Nat) : Bool := s.calls.all fun call => call.pc.qmutex != some i

def State.mutexFree (s : State T W) : Bool := s.workers.all fun pc => !pc.holdsMutex

def State.cbMuFree (s : State T W) : Bool := s.workers.all fun pc => !pc.holdsCallbacks

@[simp] def State.setCall (s : State T W) (i : Nat) (call : Call T W) (pc : SubmitPc) : State T W :=
  { s with calls := s.calls.set i { call with pc := pc } }

@[simp] def State.setWorker (s : State T W) (w : Nat) (pc : WorkerPc T W) : State T W :=
  { s with workers := s.workers.set w pc }

@[simp] def State.signalAll (s : State T W) : State T W := { s with workers := s.workers.map WorkerPc.wake }

@[simp] def State.emit (s : State T W) (event : Event T W) : State T W := { s with trace := s.trace ++ [event] }

@[simp] def State.undefined (s : State T W) : State T W := { s with fault := true }

-- A TaskItem is a payload and a std::vector, so at least 32 bytes on an LP64
-- target, and the address space holds at most 2^59 of them: one in the frame
-- of every worker, the others in the queues.
def itemLimit : Nat := 2 ^ 59

def State.queued (s : State T W) : Nat := Tally.total List.length s.queues

def State.items (s : State T W) : Nat := s.queued + s.workers.length

def pushedItems (trace : List (Event T W)) : List (TaskItem T W) :=
  trace.filterMap fun
    | .pushed _ item _ => some item
    | _ => none

def subtractedItems (trace : List (Event T W)) : List (TaskItem T W) :=
  trace.filterMap fun
    | .subtracted _ item => some item
    | _ => none

def processedItems (trace : List (Event T W)) : List (TaskItem T W) :=
  trace.filterMap fun
    | .processed _ item => some item
    | _ => none

end

end Vectro.Pool
