import Vectro.PoolStep

set_option autoImplicit false

namespace Vectro.Pool

variable {T W : Type}

-- Everything a step can do, guards included. The machine is the step function;
-- these relations only invert it once, so that an invariant is a case analysis.
inductive CallMove (s : State T W) (i : Nat) (call : Call T W) : State T W → Prop where
  | load (here : call.pc = .load) :
      CallMove s i call ((s.setCall i call (.check s.tasksInQueue)).emit (.loaded i s.tasksInQueue))
  | trip (curr : UInt64) (here : call.pc = .check curr) (trips : s.cfg.trips curr = true) :
      CallMove s i call (s.setCall i call .drop)
  | pass (curr : UInt64) (next : SubmitPc) (here : call.pc = .check curr) (passes : s.cfg.trips curr = false)
      (goes : next = .backoff ∨ next = .pick) : CallMove s i call (s.setCall i call next)
  | drop (here : call.pc = .drop) :
      CallMove s i call (({ s with droppedCount := s.droppedCount + 1 }.setCall i call .dropped).emit (.dropped i))
  | backoff (here : call.pc = .backoff) : CallMove s i call (s.setCall i call .pick)
  | first (here : call.pc = .pick) (fifo : s.cfg.mode = .fifo) : CallMove s i call (s.setCall i call (.push 0))
  | spread (here : call.pc = .pick) (spread : s.cfg.mode ≠ .fifo) : CallMove s i call (s.setCall i call .rotate)
  | rotate (here : call.pc = .rotate) :
      CallMove s i call ({ s with rrIndex := s.rrIndex + 1 }.setCall i call (.divide s.rrIndex))
  | assign (rr : UInt64) (here : call.pc = .divide rr) (some : s.cfg.numThreads ≠ 0) :
      CallMove s i call (s.setCall i call (.push (rr.toNat % s.cfg.numThreads)))
  | divide (rr : UInt64) (here : call.pc = .divide rr) (none : s.cfg.numThreads = 0) : CallMove s i call s.undefined
  | push (idx : Nat) (queue : List (TaskItem T W)) (here : call.pc = .push idx) (found : s.queues[idx]? = some queue)
      (free : s.qmutexFree idx = true) (room : s.items < itemLimit) :
      CallMove s i call
        (({ s with queues := s.queues.set idx (queue ++ [call.item i]) }.setCall i call (.sample idx)).emit
          (.pushed idx (call.item i) (queue.length + 1)))
  | sample (idx : Nat) (queue : List (TaskItem T W)) (here : call.pc = .sample idx)
      (found : s.queues[idx]? = some queue) :
      CallMove s i call (s.setCall i call (.exchange idx (UInt64.ofNat queue.length) s.highWaterMark))
  | outside (idx : Nat) (here : call.pc = .push idx ∨ call.pc = .sample idx) (absent : s.queues[idx]? = none) :
      CallMove s i call s.undefined
  | exchange (idx : Nat) (hwm prev : UInt64) (here : call.pc = .exchange idx hwm prev) (above : prev < hwm)
      (current : s.highWaterMark = prev) :
      CallMove s i call ({ s with highWaterMark := hwm }.setCall i call .count)
  | retry (idx : Nat) (hwm prev : UInt64) (here : call.pc = .exchange idx hwm prev) (above : prev < hwm) :
      CallMove s i call (s.setCall i call (.exchange idx hwm s.highWaterMark))
  | settle (idx : Nat) (hwm prev : UInt64) (here : call.pc = .exchange idx hwm prev) (below : ¬ prev < hwm) :
      CallMove s i call (s.setCall i call .count)
  | count (here : call.pc = .count) :
      CallMove s i call ({ s with tasksInQueue := s.tasksInQueue + 1 }.setCall i call .signal)
  | signal (here : call.pc = .signal) (free : s.mutexFree = true) :
      CallMove s i call (s.signalAll.setCall i call .returned)
  | fail (here : call.pc = .pick ∨ ∃ idx, call.pc = .push idx) : CallMove s i call (s.setCall i call .failed)

inductive WorkerMove (s : State T W) (w : Nat) : WorkerPc T W → State T W → Prop where
  | enter (alive : s.running = true) : WorkerMove s w .loop (s.setWorker w .lock)
  | exit (shut : s.running = false) : WorkerMove s w .loop (s.setWorker w .leave)
  | lock (free : s.mutexFree = true) : WorkerMove s w .lock (s.setWorker w .testRunning)
  | alive (alive : s.running = true) : WorkerMove s w .testRunning (s.setWorker w .testTasks)
  | shut (shut : s.running = false) : WorkerMove s w .testRunning (s.setWorker w .own)
  | none (zero : s.tasksInQueue = 0) : WorkerMove s w .testTasks (s.setWorker w .wait)
  | some (nonzero : s.tasksInQueue ≠ 0) : WorkerMove s w .testTasks (s.setWorker w .own)
  | wait : WorkerMove s w .wait (s.setWorker w .blocked)
  | take (item : TaskItem T W) (rest : List (TaskItem T W)) (found : s.queues[w]? = .some (item :: rest))
      (free : s.qmutexFree w = true) :
      WorkerMove s w .own
        (({ s with queues := s.queues.set w rest }.setWorker w (.subtract item)).emit (.taken w w item))
  | empty (found : s.queues[w]? = .some []) (free : s.qmutexFree w = true) :
      WorkerMove s w .own (s.setWorker w .mode)
  | scan (stealing : s.cfg.mode = .workStealing) : WorkerMove s w .mode (s.setWorker w .vector)
  | skip (other : s.cfg.mode ≠ .workStealing) : WorkerMove s w .mode (s.setWorker w .drops)
  | vector : WorkerMove s w .vector (s.setWorker w (.sizes (List.replicate s.cfg.numThreads 0) 0))
  | size (sizes : List Nat) (i : Nat) (queue : List (TaskItem T W)) (inside : i < s.cfg.numThreads)
      (found : s.queues[i]? = .some queue) (bound : i < sizes.length) :
      WorkerMove s w (.sizes sizes i) (s.setWorker w (.sizes (sizes.set i queue.length) (i + 1)))
  | scanned (sizes : List Nat) (i : Nat) (ended : ¬ i < s.cfg.numThreads) :
      WorkerMove s w (.sizes sizes i) (s.setWorker w (.policy sizes))
  | policy (sizes : List Nat) (vic : Nat) (answer : s.stealPolicy sizes vic = true) :
      WorkerMove s w (.policy sizes) (s.setWorker w (.steal vic))
  | steal (vic : Nat) (queue : List (TaskItem T W)) (item : TaskItem T W) (found : s.queues[vic]? = .some queue)
      (free : s.qmutexFree vic = true) (last : queue.getLast? = .some item) :
      WorkerMove s w (.steal vic)
        (({ s with queues := s.queues.set vic queue.dropLast
                   stolenCount := s.stolenCount + 1 }.setWorker w (.subtract item)).emit (.taken w vic item))
  | miss (vic : Nat) (found : s.queues[vic]? = .some []) (free : s.qmutexFree vic = true) :
      WorkerMove s w (.steal vic) (s.setWorker w .drops)
  | outside (pc : WorkerPc T W)
      (beyond : (pc = .own ∧ s.queues[w]? = Option.none) ∨
        (∃ sizes i, pc = .sizes sizes i ∧ i < s.cfg.numThreads ∧ (s.queues[i]? = Option.none ∨ ¬ i < sizes.length)) ∨
        (∃ vic, pc = .steal vic ∧ s.queues[vic]? = Option.none)) : WorkerMove s w pc s.undefined
  | subtract (item : TaskItem T W) :
      WorkerMove s w (.subtract item)
        (({ s with tasksInQueue := s.tasksInQueue - 1 }.setWorker w (.processed item)).emit (.subtracted w item))
  | processed (item : TaskItem T W) :
      WorkerMove s w (.processed item)
        ({ s with processedCount := s.processedCount + 1 }.setWorker w (.lockCallbacks item))
  | lockCallbacks (item : TaskItem T W) (free : s.cbMuFree = true) :
      WorkerMove s w (.lockCallbacks item) (s.setWorker w (.callbacks item 0))
  | callback (item : TaskItem T W) (k : Nat) (threw : Bool) (more : k < s.globalCallbacks) :
      WorkerMove s w (.callbacks item k) ((s.setWorker w (.callbacks item (k + 1))).emit (.callback w k item threw))
  | called (item : TaskItem T W) (k : Nat) (ended : ¬ k < s.globalCallbacks) :
      WorkerMove s w (.callbacks item k) (s.setWorker w (.wrappers item item.wrappers))
  | wrapper (item : TaskItem T W) (wrapper : W) (remaining : List W) (threw : Bool) :
      WorkerMove s w (.wrappers item (wrapper :: remaining))
        ((s.setWorker w (.wrappers item remaining)).emit (.wrapper w wrapper item threw))
  | done (item : TaskItem T W) :
      WorkerMove s w (.wrappers item []) ((s.setWorker w .drops).emit (.processed w item))
  | undropped (zero : s.droppedCount = 0) : WorkerMove s w .drops ({ s with droppedCount := 0 }.setWorker w .loop)
  | drops (nonzero : s.droppedCount ≠ 0) :
      WorkerMove s w .drops ({ s with droppedCount := 0 }.setWorker w (.notify s.droppedCount))
  | quiet (d : UInt64) (early : ¬ s.cfg.dropNotificationInterval ≤ s.now - s.lastDropNotification) :
      WorkerMove s w (.notify d) (s.setWorker w .loop)
  | notify (d : UInt64) (due : s.cfg.dropNotificationInterval ≤ s.now - s.lastDropNotification) :
      WorkerMove s w (.notify d)
        (({ s with lastDropNotification := s.now }.setWorker w .loop).emit (.notified d (dropNotice s.cfg.id d)))
  | leave : WorkerMove s w .leave ({ s with activeWorkers := s.activeWorkers - 1 }.setWorker w .stop)
  | stop : WorkerMove s w .stop ({ s with stopped := true }.setWorker w .finished)

inductive DestructorMove (s : State T W) : DestructorPc → State T W → Prop where
  | store : DestructorMove s .alive ({ s with running := false, destructor := .signal }.emit .shutdown)
  | signal : DestructorMove s .signal { s.signalAll with destructor := .start }
  | drain (next : DestructorPc) (pc : DestructorPc) (here : pc = .start ∨ ∃ start, pc = .drainTasks start ∨ pc = .drainTime start)
      (goes : next = .join 0 ∨ ∃ start, next = .drainTasks start ∨ next = .drainTime start) :
      DestructorMove s pc { s with destructor := next }
  | join (k : Nat) (pc : WorkerPc T W) (found : s.workers[k]? = some pc) (finished : pc.returned = true) :
      DestructorMove s (.join k) { s with destructor := .join (k + 1) }
  | joined (k : Nat) (beyond : s.workers[k]? = none) : DestructorMove s (.join k) { s with destructor := .await }
  | await (idle : ¬ 0 < s.activeWorkers) : DestructorMove s .await { s with destructor := .stop }
  | stop : DestructorMove s .stop { s with stopped := true, destructor := .final }
  | final (set : s.finalCallback = true) :
      DestructorMove s .final ({ s with destructor := .destroyed }.emit .finalCallback)
  | unset (unset : s.finalCallback = false) : DestructorMove s .final { s with destructor := .destroyed }

inductive Move (s : State T W) : Action T W → State T W → Prop where
  | submit (owner : Nat) (payload : T) (wrappers : List W)
      (sequential : ∀ call ∈ s.calls, call.owner = owner → call.pc.over = true) :
      Move s (.submit owner payload wrappers)
        ({ s with calls := s.calls ++ [Call.mk owner payload wrappers .load] }.emit (.submitted s.calls.length owner))
  | call (action : Action T W) (i : Nat) (call : Call T W) (after : State T W)
      (acts : action = .call i ∨ action = .callFails i) (found : s.calls[i]? = some call)
      (moves : CallMove s i call after) : Move s action after
  | worker (action : Action T W) (w : Nat) (pc : WorkerPc T W) (after : State T W)
      (acts : action = .worker w ∨ action = .workerThrows w ∨ ∃ vic, action = .workerSteals w vic)
      (found : s.workers[w]? = some pc) (moves : WorkerMove s w pc after) : Move s action after
  | destroy (pc : DestructorPc) (after : State T W) (here : s.destructor = pc) (moves : DestructorMove s pc after) :
      Move s .destroy after
  | updateConfig (cfg : TaskProcessorConfig) : Move s (.updateConfig cfg) { s with cfg := cfg }
  | registerCallback (free : s.cbMuFree = true) :
      Move s .registerCallback ({ s with globalCallbacks := s.globalCallbacks + 1 }.emit .registered)
  | setFinalCallback : Move s .setFinalCallback { s with finalCallback := true }
  | getDroppedCount : Move s .getDroppedCount ({ s with droppedCount := 0 }.emit (.dropsRead s.droppedCount))
  | clock (now : Int) : Move s (.clock now) { s with now := now }

theorem submit_impl_move (s after : State T W) (i : Nat) (call : Call T W) (taken : submitImpl s i call = some after) :
    CallMove s i call after := by
  cases here : call.pc with
  | load =>
      simp only [submitImpl, here, Option.some.injEq] at taken
      exact taken ▸ .load here
  | check curr =>
      simp only [submitImpl, here] at taken
      split at taken
      · rename_i trips
        exact Option.some.inj taken ▸ .trip curr here trips
      · rename_i passes
        have passes : s.cfg.trips curr = false := by simpa using passes
        split at taken
        · exact Option.some.inj taken ▸ .pass curr _ here passes (.inl rfl)
        · exact Option.some.inj taken ▸ .pass curr _ here passes (.inr rfl)
  | drop =>
      simp only [submitImpl, here, Option.some.injEq] at taken
      exact taken ▸ .drop here
  | backoff =>
      simp only [submitImpl, here, Option.some.injEq] at taken
      exact taken ▸ .backoff here
  | pick =>
      simp only [submitImpl, here] at taken
      split at taken
      · rename_i fifo
        exact Option.some.inj taken ▸ .first here fifo
      · rename_i spread
        exact Option.some.inj taken ▸ .spread here spread
  | rotate =>
      simp only [submitImpl, here, Option.some.injEq] at taken
      exact taken ▸ .rotate here
  | divide rr =>
      simp only [submitImpl, here] at taken
      split at taken
      · rename_i none
        exact Option.some.inj taken ▸ .divide rr here none
      · rename_i some
        exact Option.some.inj taken ▸ .assign rr here some
  | push idx =>
      cases found : s.queues[idx]? with
      | none =>
          simp only [submitImpl, here, found, Option.some.injEq] at taken
          exact taken ▸ .outside idx (.inl here) found
      | some queue =>
          simp only [submitImpl, here, found] at taken
          split at taken
          · rename_i enabled
            exact Option.some.inj taken ▸ .push idx queue here found enabled.1 enabled.2
          · simp at taken
  | sample idx =>
      cases found : s.queues[idx]? with
      | none =>
          simp only [submitImpl, here, found, Option.some.injEq] at taken
          exact taken ▸ .outside idx (.inr here) found
      | some queue =>
          simp only [submitImpl, here, found, Option.some.injEq] at taken
          exact taken ▸ .sample idx queue here found
  | exchange idx hwm prev =>
      simp only [submitImpl, here] at taken
      split at taken
      · rename_i above
        split at taken
        · rename_i current
          exact Option.some.inj taken ▸ .exchange idx hwm prev here above current
        · exact Option.some.inj taken ▸ .retry idx hwm prev here above
      · rename_i below
        exact Option.some.inj taken ▸ .settle idx hwm prev here below
  | count =>
      simp only [submitImpl, here, Option.some.injEq] at taken
      exact taken ▸ .count here
  | signal =>
      simp only [submitImpl, here] at taken
      split at taken
      · rename_i free
        exact Option.some.inj taken ▸ .signal here free
      · simp at taken
  | returned => simp [submitImpl, here] at taken
  | dropped => simp [submitImpl, here] at taken
  | failed => simp [submitImpl, here] at taken

theorem submit_fails_move (s after : State T W) (i : Nat) (call : Call T W)
    (taken : submitImplFails s i call = some after) : CallMove s i call after := by
  cases here : call.pc with
  | pick =>
      simp only [submitImplFails, here, Option.some.injEq] at taken
      exact taken ▸ .fail (.inl here)
  | push idx =>
      simp only [submitImplFails, here] at taken
      split at taken
      · exact Option.some.inj taken ▸ .fail (.inr ⟨idx, here⟩)
      · simp at taken
  | exchange idx hwm prev =>
      simp only [submitImplFails, here] at taken
      split at taken
      · rename_i above
        exact Option.some.inj taken ▸ .retry idx hwm prev here above
      · simp at taken
  | _ => simp [submitImplFails, here] at taken

theorem invoke_move (s after : State T W) (w : Nat) (threw : Bool) (pc : WorkerPc T W)
    (taken : invoke s w threw pc = some after) : WorkerMove s w pc after := by
  cases pc with
  | callbacks item k =>
      simp only [invoke] at taken
      split at taken
      · rename_i more
        exact Option.some.inj taken ▸ .callback item k threw more
      · simp at taken
  | wrappers item remaining =>
      cases remaining with
      | nil => simp [invoke] at taken
      | cons wrapper rest =>
          simp only [invoke, Option.some.injEq] at taken
          exact taken ▸ .wrapper item wrapper rest threw
  | _ => simp [invoke] at taken

theorem steal_from_move (s after : State T W) (w vic : Nat) (pc : WorkerPc T W)
    (taken : stealFrom s w vic pc = some after) : WorkerMove s w pc after := by
  cases pc with
  | policy sizes =>
      simp only [stealFrom] at taken
      split at taken
      · rename_i answer
        exact Option.some.inj taken ▸ .policy sizes vic answer
      · simp at taken
  | _ => simp [stealFrom] at taken

theorem process_loop_move (s after : State T W) (w : Nat) (pc : WorkerPc T W)
    (taken : processLoop s w pc = some after) : WorkerMove s w pc after := by
  cases pc with
  | loop =>
      simp only [processLoop, Option.some.injEq] at taken
      split at taken
      · rename_i alive
        exact taken ▸ .enter alive
      · rename_i shut
        exact taken ▸ .exit (by simpa using shut)
  | lock =>
      simp only [processLoop] at taken
      split at taken
      · rename_i free
        exact Option.some.inj taken ▸ .lock free
      · simp at taken
  | testRunning =>
      simp only [processLoop, Option.some.injEq] at taken
      split at taken
      · rename_i alive
        exact taken ▸ .alive alive
      · rename_i shut
        exact taken ▸ .shut (by simpa using shut)
  | testTasks =>
      simp only [processLoop, Option.some.injEq] at taken
      split at taken
      · rename_i zero
        exact taken ▸ .none zero
      · rename_i nonzero
        exact taken ▸ .some nonzero
  | wait =>
      simp only [processLoop, Option.some.injEq] at taken
      exact taken ▸ .wait
  | blocked => simp [processLoop] at taken
  | own =>
      cases found : s.queues[w]? with
      | none =>
          simp only [processLoop, found, Option.some.injEq] at taken
          exact taken ▸ .outside .own (.inl ⟨rfl, found⟩)
      | some queue =>
          simp only [processLoop, found] at taken
          split at taken
          · rename_i free
            cases queue with
            | nil => exact Option.some.inj taken ▸ .empty found free
            | cons item rest => exact Option.some.inj taken ▸ .take item rest found free
          · simp at taken
  | mode =>
      simp only [processLoop, Option.some.injEq] at taken
      split at taken
      · rename_i stealing
        exact taken ▸ .scan stealing
      · rename_i other
        exact taken ▸ .skip other
  | vector =>
      simp only [processLoop, Option.some.injEq] at taken
      exact taken ▸ .vector
  | sizes sizes i =>
      simp only [processLoop] at taken
      split at taken
      · rename_i inside
        cases found : s.queues[i]? with
        | none =>
            simp only [found, Option.some.injEq] at taken
            exact taken ▸ .outside _ (.inr (.inl ⟨sizes, i, rfl, inside, .inl found⟩))
        | some queue =>
            simp only [found] at taken
            split at taken
            · rename_i bound
              exact Option.some.inj taken ▸ .size sizes i queue inside found bound
            · rename_i beyond
              exact Option.some.inj taken ▸ .outside _ (.inr (.inl ⟨sizes, i, rfl, inside, .inr beyond⟩))
      · rename_i ended
        exact Option.some.inj taken ▸ .scanned sizes i ended
  | policy sizes => simp [processLoop] at taken
  | steal vic =>
      cases found : s.queues[vic]? with
      | none =>
          simp only [processLoop, found, Option.some.injEq] at taken
          exact taken ▸ .outside _ (.inr (.inr ⟨vic, rfl, found⟩))
      | some queue =>
          simp only [processLoop, found] at taken
          split at taken
          · rename_i free
            cases last : queue.getLast? with
            | none =>
                have empty : queue = [] := List.getLast?_eq_none_iff.mp last
                subst empty
                exact Option.some.inj taken ▸ .miss vic found free
            | some item =>
                simp only [last, Option.some.injEq] at taken
                exact taken ▸ .steal vic queue item found free last
          · simp at taken
  | subtract item =>
      simp only [processLoop, Option.some.injEq] at taken
      exact taken ▸ .subtract item
  | processed item =>
      simp only [processLoop, Option.some.injEq] at taken
      exact taken ▸ .processed item
  | lockCallbacks item =>
      simp only [processLoop] at taken
      split at taken
      · rename_i free
        exact Option.some.inj taken ▸ .lockCallbacks item free
      · simp at taken
  | callbacks item k =>
      simp only [processLoop] at taken
      split at taken
      · exact invoke_move s after w false _ taken
      · rename_i ended
        exact Option.some.inj taken ▸ .called item k ended
  | wrappers item remaining =>
      cases remaining with
      | nil =>
          simp only [processLoop, Option.some.injEq] at taken
          exact taken ▸ .done item
      | cons wrapper rest => exact invoke_move s after w false _ taken
  | drops =>
      simp only [processLoop, handleDrops, Option.some.injEq] at taken
      split at taken
      · rename_i zero
        exact taken ▸ .undropped zero
      · rename_i nonzero
        exact taken ▸ .drops nonzero
  | notify d =>
      simp only [processLoop, notifyDrops, Option.some.injEq] at taken
      split at taken
      · rename_i due
        exact taken ▸ .notify d due
      · rename_i early
        exact taken ▸ .quiet d early
  | leave =>
      simp only [processLoop, Option.some.injEq] at taken
      exact taken ▸ .leave
  | stop =>
      simp only [processLoop, Option.some.injEq] at taken
      exact taken ▸ .stop
  | finished => simp [processLoop] at taken

theorem destructor_move (s after : State T W) (taken : destructor s = some after) :
    DestructorMove s s.destructor after := by
  cases here : s.destructor with
  | alive =>
      simp only [destructor, here, Option.some.injEq] at taken
      exact taken ▸ .store
  | signal =>
      simp only [destructor, here, Option.some.injEq] at taken
      exact taken ▸ .signal
  | start =>
      simp only [destructor, here, Option.some.injEq] at taken
      refine taken ▸ .drain _ _ (.inl rfl) ?_
      split
      · exact .inr ⟨_, .inl rfl⟩
      · exact .inl rfl
  | drainTasks start =>
      simp only [destructor, here, Option.some.injEq] at taken
      refine taken ▸ .drain _ _ (.inr ⟨start, .inl rfl⟩) ?_
      split
      · exact .inr ⟨_, .inr rfl⟩
      · exact .inl rfl
  | drainTime start =>
      simp only [destructor, here, Option.some.injEq] at taken
      refine taken ▸ .drain _ _ (.inr ⟨start, .inr rfl⟩) ?_
      split
      · exact .inr ⟨_, .inl rfl⟩
      · exact .inl rfl
  | join k =>
      cases found : s.workers[k]? with
      | none =>
          simp only [destructor, here, found, Option.some.injEq] at taken
          exact taken ▸ .joined k found
      | some pc =>
          simp only [destructor, here, found] at taken
          split at taken
          · rename_i finished
            exact Option.some.inj taken ▸ .join k pc found finished
          · simp at taken
  | await =>
      simp only [destructor, here] at taken
      split at taken
      · simp at taken
      · rename_i idle
        exact Option.some.inj taken ▸ .await idle
  | stop =>
      simp only [destructor, here, Option.some.injEq] at taken
      exact taken ▸ .stop
  | final =>
      simp only [destructor, here] at taken
      split at taken
      · rename_i set
        exact Option.some.inj taken ▸ .final set
      · rename_i unset
        exact Option.some.inj taken ▸ .unset (by simpa using unset)
  | destroyed => simp [destructor, here] at taken

theorem step_move (s after : State T W) (action : Action T W) (taken : step s action = some after) :
    s.fault = false ∧ Move s action after := by
  unfold step at taken
  split at taken
  · simp at taken
  · rename_i sound
    refine ⟨by simpa using sound, ?_⟩
    cases action with
    | submit owner payload wrappers =>
        simp only at taken
        split at taken
        · rename_i idle
          refine Option.some.inj taken ▸ .submit owner payload wrappers ?_
          intro call member same
          have either := List.all_eq_true.mp idle call member
          simpa [same] using either
        · simp at taken
    | call i =>
        obtain ⟨call, found, moved⟩ := Option.bind_eq_some_iff.mp taken
        exact .call _ i call after (.inl rfl) found (submit_impl_move s after i call moved)
    | callFails i =>
        obtain ⟨call, found, moved⟩ := Option.bind_eq_some_iff.mp taken
        exact .call _ i call after (.inr rfl) found (submit_fails_move s after i call moved)
    | worker w =>
        obtain ⟨pc, found, moved⟩ := Option.bind_eq_some_iff.mp taken
        exact .worker _ w pc after (.inl rfl) found (process_loop_move s after w pc moved)
    | workerThrows w =>
        obtain ⟨pc, found, moved⟩ := Option.bind_eq_some_iff.mp taken
        exact .worker _ w pc after (.inr (.inl rfl)) found (invoke_move s after w true pc moved)
    | workerSteals w vic =>
        obtain ⟨pc, found, moved⟩ := Option.bind_eq_some_iff.mp taken
        exact .worker _ w pc after (.inr (.inr ⟨vic, rfl⟩)) found (steal_from_move s after w vic pc moved)
    | destroy => exact .destroy s.destructor after rfl (destructor_move s after taken)
    | updateConfig cfg => exact Option.some.inj taken ▸ .updateConfig cfg
    | registerCallback =>
        simp only at taken
        split at taken
        · rename_i free
          exact Option.some.inj taken ▸ .registerCallback free
        · simp at taken
    | setFinalCallback => exact Option.some.inj taken ▸ .setFinalCallback
    | getDroppedCount => exact Option.some.inj taken ▸ .getDroppedCount
    | clock now => exact Option.some.inj taken ▸ .clock now

-- What only SubmitImpl and UpdateConfig write.
structure SubmitSide (s after : State T W) : Prop where
  cfg : after.cfg = s.cfg
  calls : after.calls = s.calls
  counter : after.rrIndex = s.rrIndex
  mark : after.highWaterMark = s.highWaterMark

theorem worker_move_side (s after : State T W) (w : Nat) (pc : WorkerPc T W) (moves : WorkerMove s w pc after) :
    SubmitSide s after := by
  cases moves <;> exact ⟨rfl, rfl, rfl, rfl⟩

theorem destructor_move_side (s after : State T W) (pc : DestructorPc) (moves : DestructorMove s pc after) :
    SubmitSide s after := by
  cases moves <;> exact ⟨rfl, rfl, rfl, rfl⟩

theorem move_cfg (s after : State T W) (action : Action T W) (moves : Move s action after) :
    after.cfg = s.cfg ∨ ∃ cfg, action = .updateConfig cfg ∧ after.cfg = cfg := by
  cases moves with
  | updateConfig cfg => exact .inr ⟨cfg, rfl, rfl⟩
  | call _ i call after acts found moves => exact .inl (by cases moves <;> rfl)
  | worker _ w pc after acts found moves => exact .inl (worker_move_side s after w pc moves).cfg
  | destroy pc after here moves => exact .inl (destructor_move_side s after pc moves).cfg
  | _ => exact .inl rfl

theorem move_queue_count (s after : State T W) (action : Action T W) (moves : Move s action after) :
    after.queues.length = s.queues.length := by
  cases moves with
  | call _ i call after acts found moves =>
      cases moves with
      | push => exact List.length_set
      | _ => rfl
  | worker _ w pc after acts found moves =>
      cases moves with
      | take | steal => exact List.length_set
      | _ => rfl
  | destroy pc after here moves => cases moves <;> rfl
  | _ => rfl

def Event.ofCall : Event T W → Bool
  | .loaded _ _ | .dropped _ | .pushed _ _ _ => true
  | _ => false

def Event.ofWorker : Event T W → Bool
  | .taken _ _ _ | .subtracted _ _ | .callback _ _ _ _ | .wrapper _ _ _ _ | .processed _ _ | .notified _ _ => true
  | _ => false

theorem call_move_emits (s after : State T W) (i : Nat) (call : Call T W) (moves : CallMove s i call after) :
    ∃ events, after.trace = s.trace ++ events ∧ ∀ event ∈ events, event.ofCall = true := by
  cases moves with
  | load | drop | push => exact ⟨[_], rfl, by simp [Event.ofCall]⟩
  | _ => exact ⟨[], (List.append_nil _).symm, by simp⟩

theorem worker_move_emits (s after : State T W) (w : Nat) (pc : WorkerPc T W) (moves : WorkerMove s w pc after) :
    ∃ events, after.trace = s.trace ++ events ∧ ∀ event ∈ events, event.ofWorker = true := by
  cases moves with
  | take | steal | subtract | callback | wrapper | done | notify => exact ⟨[_], rfl, by simp [Event.ofWorker]⟩
  | _ => exact ⟨[], (List.append_nil _).symm, by simp⟩

theorem call_move_active (s after : State T W) (i : Nat) (call : Call T W) (moves : CallMove s i call after) :
    call.pc.over = false := by
  cases moves with
  | pass _ _ here | trip _ here | sample _ _ here | push _ _ here | exchange _ _ _ here | retry _ _ _ here
  | settle _ _ _ here | load here | drop here | backoff here | first here | spread here | rotate here | assign _ here
  | divide _ here | count here | signal here => rw [here]; rfl
  | outside _ here => rcases here with here | here <;> rw [here] <;> rfl
  | fail here => rcases here with here | ⟨_, here⟩ <;> rw [here] <;> rfl

end Vectro.Pool
