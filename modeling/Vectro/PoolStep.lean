import Vectro.PoolState

set_option autoImplicit false

namespace Vectro.Pool

variable {T W : Type}

inductive Action (T W : Type) where
  | submit (owner : Nat) (payload : T) (wrappers : List W)
  | call (i : Nat)
  | callFails (i : Nat)
  | worker (w : Nat)
  | workerThrows (w : Nat)
  | workerSteals (w vic : Nat)
  | destroy
  | updateConfig (cfg : TaskProcessorConfig)
  | registerCallback
  | setFinalCallback
  | getDroppedCount
  | clock (now : Int)

-- cfg_ is read without a lock: an UpdateConfig may come between the reads of the
-- mode and of num_threads, and between either and the fetch_add.
def submitImpl (s : State T W) (i : Nat) (call : Call T W) : Option (State T W) :=
  match call.pc with
  | .load => some ((s.setCall i call (.check s.tasksInQueue)).emit (.loaded i s.tasksInQueue))
  | .check curr =>
      if s.cfg.trips curr then some (s.setCall i call .drop)
      else if s.cfg.backsOff curr then some (s.setCall i call .backoff)
      else some (s.setCall i call .pick)
  | .drop => some (({ s with droppedCount := s.droppedCount + 1 }.setCall i call .dropped).emit (.dropped i))
  | .backoff => some (s.setCall i call .pick)
  | .pick =>
      if s.cfg.mode = .fifo then some (s.setCall i call (.push 0))
      else some (s.setCall i call .rotate)
  | .rotate => some ({ s with rrIndex := s.rrIndex + 1 }.setCall i call (.divide s.rrIndex))
  | .divide rr =>
      if s.cfg.numThreads = 0 then some s.undefined
      else some (s.setCall i call (.push (rr.toNat % s.cfg.numThreads)))
  | .push idx =>
      match s.queues[idx]? with
      | none => some s.undefined
      | some queue =>
          if s.qmutexFree idx ∧ s.items < itemLimit then
            some (({ s with queues := s.queues.set idx (queue ++ [call.item i]) }.setCall i call (.sample idx)).emit
              (.pushed idx (call.item i) (queue.length + 1)))
          else none
  | .sample idx =>
      match s.queues[idx]? with
      | none => some s.undefined
      | some queue => some (s.setCall i call (.exchange idx (UInt64.ofNat queue.length) s.highWaterMark))
  | .exchange idx hwm prev =>
      if prev < hwm then
        if s.highWaterMark = prev then some ({ s with highWaterMark := hwm }.setCall i call .count)
        else some (s.setCall i call (.exchange idx hwm s.highWaterMark))
      else some (s.setCall i call .count)
  | .count => some ({ s with tasksInQueue := s.tasksInQueue + 1 }.setCall i call .signal)
  | .signal => if s.mutexFree then some (s.signalAll.setCall i call .returned) else none
  | .returned | .dropped | .failed => none

-- What the environment may do to a call: copying the payload or growing the
-- deque throws, or compare_exchange_weak fails spuriously.
def submitImplFails (s : State T W) (i : Nat) (call : Call T W) : Option (State T W) :=
  match call.pc with
  | .pick => some (s.setCall i call .failed)
  | .push idx =>
      if idx < s.queues.length ∧ s.qmutexFree idx then some (s.setCall i call .failed) else none
  | .exchange idx hwm prev =>
      if prev < hwm then some (s.setCall i call (.exchange idx hwm s.highWaterMark)) else none
  | _ => none

-- A callback either returns or throws; catch (...) makes the loop go on with
-- the next one in both cases.
def invoke (s : State T W) (w : Nat) (threw : Bool) : WorkerPc T W → Option (State T W)
  | .callbacks item k =>
      if k < s.globalCallbacks then
        some ((s.setWorker w (.callbacks item (k + 1))).emit (.callback w k item threw))
      else none
  | .wrappers item (wrapper :: remaining) =>
      some ((s.setWorker w (.wrappers item remaining)).emit (.wrapper w wrapper item threw))
  | _ => none

def dropNotice (id : String) (d : UInt64) : String := "[" ++ id ++ "] dropped " ++ toString d.toNat ++ " tasks"

def handleDrops (s : State T W) (w : Nat) : State T W :=
  { s with droppedCount := 0 }.setWorker w (if s.droppedCount = 0 then .loop else .notify s.droppedCount)

def notifyDrops (s : State T W) (w : Nat) (d : UInt64) : State T W :=
  if s.cfg.dropNotificationInterval ≤ s.now - s.lastDropNotification then
    ({ s with lastDropNotification := s.now }.setWorker w .loop).emit (.notified d (dropNotice s.cfg.id d))
  else s.setWorker w .loop

def processLoop (s : State T W) (w : Nat) : WorkerPc T W → Option (State T W)
  | .loop => some (s.setWorker w (if s.running then .lock else .leave))
  | .lock => if s.mutexFree then some (s.setWorker w .testRunning) else none
  | .testRunning => some (s.setWorker w (if s.running then .testTasks else .own))
  | .testTasks => some (s.setWorker w (if s.tasksInQueue = 0 then .wait else .own))
  | .wait => some (s.setWorker w .blocked)
  | .blocked => none
  | .own =>
      match s.queues[w]? with
      | none => some s.undefined
      | some queue =>
          if s.qmutexFree w then
            match queue with
            | [] => some (s.setWorker w .mode)
            | item :: rest =>
                some (({ s with queues := s.queues.set w rest }.setWorker w (.subtract item)).emit (.taken w w item))
          else none
  | .mode => some (s.setWorker w (if s.cfg.mode = .workStealing then .vector else .drops))
  | .vector => some (s.setWorker w (.sizes (List.replicate s.cfg.numThreads 0) 0))
  | .sizes sizes i =>
      if i < s.cfg.numThreads then
        match s.queues[i]? with
        | none => some s.undefined
        | some queue =>
            if i < sizes.length then some (s.setWorker w (.sizes (sizes.set i queue.length) (i + 1)))
            else some s.undefined
      else some (s.setWorker w (.policy sizes))
  | .policy _ => none
  | .steal vic =>
      match s.queues[vic]? with
      | none => some s.undefined
      | some queue =>
          if s.qmutexFree vic then
            match queue.getLast? with
            | none => some (s.setWorker w .drops)
            | some item =>
                some (({ s with queues := s.queues.set vic queue.dropLast
                                stolenCount := s.stolenCount + 1 }.setWorker w (.subtract item)).emit
                  (.taken w vic item))
          else none
  | .subtract item =>
      some (({ s with tasksInQueue := s.tasksInQueue - 1 }.setWorker w (.processed item)).emit (.subtracted w item))
  | .processed item => some ({ s with processedCount := s.processedCount + 1 }.setWorker w (.lockCallbacks item))
  | .lockCallbacks item => if s.cbMuFree then some (s.setWorker w (.callbacks item 0)) else none
  | .callbacks item k =>
      if k < s.globalCallbacks then invoke s w false (.callbacks item k)
      else some (s.setWorker w (.wrappers item item.wrappers))
  | .wrappers item [] => some ((s.setWorker w .drops).emit (.processed w item))
  | .wrappers item (wrapper :: remaining) => invoke s w false (.wrappers item (wrapper :: remaining))
  | .drops => some (handleDrops s w)
  | .notify d => some (notifyDrops s w d)
  | .leave => some ({ s with activeWorkers := s.activeWorkers - 1 }.setWorker w .stop)
  | .stop => some ({ s with stopped := true }.setWorker w .finished)
  | .finished => none

def stealFrom (s : State T W) (w vic : Nat) : WorkerPc T W → Option (State T W)
  | .policy sizes => if s.stealPolicy sizes vic then some (s.setWorker w (.steal vic)) else none
  | _ => none

def destructor (s : State T W) : Option (State T W) :=
  match s.destructor with
  | .alive => some ({ s with running := false, destructor := .signal }.emit .shutdown)
  | .signal => some { s.signalAll with destructor := .start }
  | .start =>
      some { s with destructor := if s.cfg.enableDrainOnShutdown then .drainTasks s.now else .join 0 }
  | .drainTasks start => some { s with destructor := if 0 < s.tasksInQueue then .drainTime start else .join 0 }
  | .drainTime start =>
      some { s with destructor := if s.now - start < s.cfg.shutdownTimeout then .drainTasks start else .join 0 }
  | .join k =>
      match s.workers[k]? with
      | none => some { s with destructor := .await }
      | some pc => if pc.returned then some { s with destructor := .join (k + 1) } else none
  | .await => if 0 < s.activeWorkers then none else some { s with destructor := .stop }
  | .stop => some { s with stopped := true, destructor := .final }
  | .final =>
      if s.finalCallback then some ({ s with destructor := .destroyed }.emit .finalCallback)
      else some { s with destructor := .destroyed }
  | .destroyed => none

def step (s : State T W) (action : Action T W) : Option (State T W) :=
  if s.fault then none
  else match action with
  | .submit owner payload wrappers =>
      if s.calls.all fun call => call.owner != owner || call.pc.over then
        some ({ s with calls := s.calls ++ [Call.mk owner payload wrappers .load] }.emit (.submitted s.calls.length owner))
      else none
  | .call i => (s.calls[i]?).bind (submitImpl s i)
  | .callFails i => (s.calls[i]?).bind (submitImplFails s i)
  | .worker w => (s.workers[w]?).bind (processLoop s w)
  | .workerThrows w => (s.workers[w]?).bind (invoke s w true)
  | .workerSteals w vic => (s.workers[w]?).bind (stealFrom s w vic)
  | .destroy => destructor s
  | .updateConfig cfg => some { s with cfg := cfg }
  | .registerCallback =>
      if s.cbMuFree then some ({ s with globalCallbacks := s.globalCallbacks + 1 }.emit .registered) else none
  | .setFinalCallback => some { s with finalCallback := true }
  | .getDroppedCount => some ({ s with droppedCount := 0 }.emit (.dropsRead s.droppedCount))
  | .clock now => some { s with now := now }

end Vectro.Pool
