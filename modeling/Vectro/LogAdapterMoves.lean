import Vectro.LogAdapter

set_option autoImplicit false

namespace Vectro.Log

variable {C : Type}

-- Everything a step can do, guards included, as for the task processor: the
-- step function is inverted once.
inductive CallMove (s : State C) (i : Nat) (call : Call) : State C → Prop where
  | size (here : call.pc = .size) : CallMove s i call (s.setCall i call (.check s.queue.length))
  | full (sz : Nat) (here : call.pc = .check sz) (full : s.maxQueueSize ≤ sz) :
      CallMove s i call (s.setCall i call .drop)
  | fits (sz : Nat) (here : call.pc = .check sz) (fits : ¬ s.maxQueueSize ≤ sz) :
      CallMove s i call (s.setCall i call (.threshold sz))
  | drop (here : call.pc = .drop ∨ (call.pc = .push ∧ s.maxQueueSize ≤ s.queue.length)) :
      CallMove s i call
        (({ s with droppedMessages := s.droppedMessages + 1 }.setCall i call .dropped).emit (.dropped i))
  | above (sz : Nat) (here : call.pc = .threshold sz) (above : s.backpressureThreshold ≤ sz) :
      CallMove s i call (s.setCall i call .backoff)
  | below (sz : Nat) (here : call.pc = .threshold sz) (below : ¬ s.backpressureThreshold ≤ sz) :
      CallMove s i call (s.setCall i call .push)
  | backoff (here : call.pc = .backoff) : CallMove s i call (s.setCall i call .push)
  | push (here : call.pc = .push) (room : ¬ s.maxQueueSize ≤ s.queue.length) :
      CallMove s i call
        (({ s with queue := s.queue ++ [call.message]
                   highWaterMark := max s.highWaterMark (s.queue.length + 1) }.setCall i call .signal).emit
          (.accepted i call.message))
  | signal (here : call.pc = .signal) : CallMove s i call (s.signal.setCall i call .returned)
  | fail (what : Option String)
      (here : call.pc = .backoff ∨ (call.pc = .push ∧ ¬ s.maxQueueSize ≤ s.queue.length)) :
      CallMove s i call ((s.setCall i call .failed).emit (.stderr (enqueueReport what)))

def State.published (s : State C) : Option (List (Option C)) := s.callbacks.bind fun cbs => s.lists[cbs]?

inductive WorkerMove (s : State C) : WorkerPc C → State C → Prop where
  | leave (shut : s.running = false) (empty : s.queue = []) : WorkerMove s .lock ((s.goto .drain).emit .locked)
  | block (alive : s.running = true) (empty : s.queue = []) : WorkerMove s .lock ((s.goto .blocked).emit .locked)
  | swap (some : s.queue ≠ []) :
      WorkerMove s .lock (({ s with queue := [] }.goto (.batch s.queue false)).emit .locked)
  | batched (drained : Bool) : WorkerMove s (.batch [] drained) (s.goto (.drops drained))
  | unset (lm : LogMessage) (remaining : List LogMessage) (drained : Bool) (null : s.published = none) :
      WorkerMove s (.batch (lm :: remaining) drained) s.undefined
  | default (lm : LogMessage) (remaining : List LogMessage) (drained : Bool) (empty : s.published = some []) :
      WorkerMove s (.batch (lm :: remaining) drained)
        (((s.emit (.stderr (defaultLog s.platform lm))).goto (.batch remaining drained)).emit (.dispatched lm))
  | dispatch (lm : LogMessage) (remaining : List LogMessage) (drained : Bool) (cb : Option C) (cbs : List (Option C))
      (loaded : s.published = some (cb :: cbs)) :
      WorkerMove s (.batch (lm :: remaining) drained) (s.goto (.callbacks lm (cb :: cbs) remaining drained))
  | invoke (outcome : Outcome) (cb : Option C) (lm : LogMessage) (cbs : List (Option C)) (remaining : List LogMessage)
      (drained : Bool) (unset : cb = none → outcome = badFunctionCall) :
      WorkerMove s (.callbacks lm (cb :: cbs) remaining drained) (invoke s outcome cb lm cbs remaining drained)
  | silent (lm : LogMessage) (remaining : List LogMessage) (drained : Bool) (silent : s.errorBuffer = "") :
      WorkerMove s (.callbacks lm [] remaining drained) ((s.goto (.batch remaining drained)).emit (.dispatched lm))
  | report (lm : LogMessage) (remaining : List LogMessage) (drained : Bool) (threw : s.errorBuffer ≠ "") :
      WorkerMove s (.callbacks lm [] remaining drained)
        ((({ s with errorBuffer := "" }.emit (.stderr s.errorBuffer)).goto (.batch remaining drained)).emit
          (.dispatched lm))
  | undropped (drained : Bool) (zero : s.droppedMessages = 0) :
      WorkerMove s (.drops drained) ({ s with droppedMessages := 0 }.goto (afterDrops drained))
  | drops (drained : Bool) (nonzero : s.droppedMessages ≠ 0) :
      WorkerMove s (.drops drained) ({ s with droppedMessages := 0 }.goto (.notify s.droppedMessages drained))
  | early (dropped : UInt64) (drained : Bool) (early : s.due = false) :
      WorkerMove s (.notify dropped drained) (s.goto (afterDrops drained))
  | notify (dropped : UInt64) (drained : Bool) (due : s.due = true) :
      WorkerMove s (.notify dropped drained)
        ((({ s with lastDropNotification := s.now }.emit
          (.stderr (defaultLog s.platform (dropNotice s dropped)))).goto (afterDrops drained)).emit
            (.notified dropped (dropNotice s dropped)))
  | drain : WorkerMove s .drain (({ s with queue := [] }.goto (.batch s.queue true)).emit .locked)
  | stop : WorkerMove s .stop ({ s with stopped := true }.goto .stopped)

inductive RegisterMove (s : State C) (i : Nat) (registration : Registration C) : State C → Prop where
  | load (here : registration.pc = .load) :
      RegisterMove s i registration (s.setRegistration i registration.cb (.copy s.callbacks))
  | null (old : Option Nat) (here : registration.pc = .copy old)
      (absent : (old.bind fun cbs => s.lists[cbs]?) = none) : RegisterMove s i registration s.undefined
  | copy (old : Option Nat) (cbs : List (Option C)) (here : registration.pc = .copy old)
      (found : (old.bind fun cbs => s.lists[cbs]?) = some cbs) :
      RegisterMove s i registration
        ({ s with lists := s.lists ++ [cbs ++ [registration.cb]] }.setRegistration i none (.exchange old s.lists.length))
  | publish (old : Option Nat) (new : Nat) (here : registration.pc = .exchange old new) (current : s.callbacks = old) :
      RegisterMove s i registration
        ({ s with callbacks := some new }.setRegistration i registration.cb .registered)
  | retry (old : Option Nat) (new : Nat) (here : registration.pc = .exchange old new) :
      RegisterMove s i registration (s.setRegistration i registration.cb (.copy s.callbacks))

inductive Move (s : State C) : Action C → State C → Prop where
  | log (thread : Nat) (level : LogLevel) (message : String) :
      Move s (.log thread level message)
        { s with calls := s.calls ++ [⟨⟨s.loggerId, level, s.now, thread, message⟩, .size⟩] }
  | call (action : Action C) (i : Nat) (call : Call) (after : State C)
      (acts : action = .call i ∨ ∃ what, action = .callFails i what) (found : s.calls[i]? = some call)
      (moves : CallMove s i call after) : Move s action after
  | worker (action : Action C) (pc : WorkerPc C) (after : State C)
      (acts : action = .worker ∨ ∃ outcome, action = .callback outcome) (stands : s.worker = pc)
      (moves : WorkerMove s pc after) : Move s action after
  | wake : Move s .wake s.signal
  | shutdown (alive : s.destructor = .alive) :
      Move s .destroy ({ s with running := false, destructor := .testStopped s.steady }.signal)
  | destroy (next : DestructorPc) : Move s .destroy { s with destructor := next }
  | undefined (action : Action C) (gone : s.destructor.over = true) : Move s action s.undefined
  | register (action : Action C) (i : Nat) (registration : Registration C) (after : State C)
      (acts : action = .register i ∨ action = .exchangeFails i) (found : s.registrations[i]? = some registration)
      (moves : RegisterMove s i registration after) : Move s action after
  | getDroppedCount : Move s .getDroppedCount ({ s with droppedMessages := 0 }.emit (.dropsRead s.droppedMessages))
  | setMaxQueueSize (max : Nat) : Move s (.setMaxQueueSize max) { s with maxQueueSize := max }
  | setBackpressureThreshold (threshold : Nat) :
      Move s (.setBackpressureThreshold threshold) { s with backpressureThreshold := threshold }
  | setDropNotificationInterval (interval : Int) :
      Move s (.setDropNotificationInterval interval) { s with dropNotificationInterval := interval }
  | setShutdownTimeout (timeout : Int) : Move s (.setShutdownTimeout timeout) { s with shutdownTimeout := timeout }
  | registerCallback (cb : C) :
      Move s (.registerCallback cb) { s with registrations := s.registrations ++ [⟨some cb, .load⟩] }
  | clearCallbacks : Move s .clearCallbacks { s with lists := s.lists ++ [[]], callbacks := some s.lists.length }
  | clock (now steady : Int) : Move s (.clock now steady) { s with now := now, steady := steady }

theorem enqueue_move (s after : State C) (i : Nat) (call : Call) (taken : enqueue s i call = some after) :
    CallMove s i call after := by
  cases here : call.pc with
  | size =>
      rw [enqueue, here] at taken
      cases taken
      exact .size here
  | check sz =>
      rw [enqueue, here] at taken
      cases taken
      by_cases full : s.maxQueueSize ≤ sz
      · rw [if_pos full]
        exact .full sz here full
      · rw [if_neg full]
        exact .fits sz here full
  | drop =>
      rw [enqueue, here] at taken
      cases taken
      exact .drop (.inl here)
  | threshold sz =>
      rw [enqueue, here] at taken
      cases taken
      by_cases above : s.backpressureThreshold ≤ sz
      · rw [if_pos above]
        exact .above sz here above
      · rw [if_neg above]
        exact .below sz here above
  | backoff =>
      rw [enqueue, here] at taken
      cases taken
      exact .backoff here
  | push =>
      rw [enqueue, here] at taken
      by_cases full : s.maxQueueSize ≤ s.queue.length
      · rw [if_pos full] at taken
        cases taken
        exact .drop (.inr ⟨here, full⟩)
      · rw [if_neg full] at taken
        cases taken
        exact .push here full
  | signal =>
      rw [enqueue, here] at taken
      cases taken
      exact .signal here
  | returned | dropped | failed =>
      rw [enqueue, here] at taken
      cases taken

theorem enqueue_fails_move (s after : State C) (i : Nat) (what : Option String) (call : Call)
    (taken : enqueueFails s i what call = some after) : CallMove s i call after := by
  rw [enqueueFails] at taken
  split at taken
  · rename_i here
    cases taken
    exact .fail what (.inl here)
  · rename_i here
    by_cases full : s.maxQueueSize ≤ s.queue.length
    · rw [if_pos full] at taken
      cases taken
    · rw [if_neg full] at taken
      cases taken
      exact .fail what (.inr ⟨here, full⟩)
  · cases taken

theorem lock_move (s after : State C) (stands : s.worker = .lock) (taken : processLoop s = some after) :
    WorkerMove s .lock after := by
  rw [processLoop, stands] at taken
  by_cases finished : s.running = false ∧ s.queue = []
  · rw [if_pos finished] at taken
    cases taken
    exact .leave finished.1 finished.2
  · rw [if_neg finished] at taken
    by_cases empty : s.queue = []
    · rw [if_pos empty] at taken
      cases taken
      apply WorkerMove.block _ empty
      cases runs : s.running with
      | true => rfl
      | false => exact absurd ⟨runs, empty⟩ finished
    · rw [if_neg empty] at taken
      cases taken
      exact .swap empty

theorem dispatch_move (s : State C) (lm : LogMessage) (remaining : List LogMessage) (drained : Bool) :
    WorkerMove s (.batch (lm :: remaining) drained) (dispatch s lm remaining drained) := by
  rw [dispatch]
  split
  · rename_i null
    exact .unset lm remaining drained null
  · rename_i empty
    exact .default lm remaining drained empty
  · rename_i cb cbs loaded
    exact .dispatch lm remaining drained cb cbs loaded

theorem report_errors_move (s : State C) (lm : LogMessage) (remaining : List LogMessage) (drained : Bool) :
    WorkerMove s (.callbacks lm [] remaining drained)
      (((reportErrors s).goto (.batch remaining drained)).emit (.dispatched lm)) := by
  rw [reportErrors]
  by_cases silent : s.errorBuffer = ""
  · rw [if_pos silent]
    exact .silent lm remaining drained silent
  · rw [if_neg silent]
    exact .report lm remaining drained silent

theorem handle_drops_move (s : State C) (drained : Bool) : WorkerMove s (.drops drained) (handleDrops s drained) := by
  rw [handleDrops]
  by_cases zero : s.droppedMessages = 0
  · rw [if_pos zero]
    exact .undropped drained zero
  · rw [if_neg zero]
    exact .drops drained zero

theorem notify_drops_move (s : State C) (dropped : UInt64) (drained : Bool) :
    WorkerMove s (.notify dropped drained) (notifyDrops s dropped drained) := by
  rw [notifyDrops]
  by_cases due : s.due = true
  · rw [if_pos due]
    exact .notify dropped drained due
  · rw [if_neg due]
    exact .early dropped drained (Bool.eq_false_iff.mpr due)

theorem process_loop_move (s after : State C) (taken : processLoop s = some after) : WorkerMove s s.worker after := by
  cases stands : s.worker with
  | lock => exact lock_move s after stands taken
  | blocked =>
      rw [processLoop, stands] at taken
      cases taken
  | batch remaining drained =>
      cases remaining with
      | nil =>
          rw [processLoop, stands] at taken
          cases taken
          exact .batched drained
      | cons lm remaining =>
          rw [processLoop, stands] at taken
          cases taken
          exact dispatch_move s lm remaining drained
  | callbacks lm cbs remaining drained =>
      match cbs with
      | [] =>
          rw [processLoop, stands] at taken
          cases taken
          exact report_errors_move s lm remaining drained
      | none :: cbs =>
          rw [processLoop, stands] at taken
          cases taken
          exact .invoke badFunctionCall none lm cbs remaining drained fun _ => rfl
      | some cb :: cbs =>
          rw [processLoop, stands] at taken
          cases taken
  | drops drained =>
      rw [processLoop, stands] at taken
      cases taken
      exact handle_drops_move s drained
  | notify dropped drained =>
      rw [processLoop, stands] at taken
      cases taken
      exact notify_drops_move s dropped drained
  | drain =>
      rw [processLoop, stands] at taken
      cases taken
      exact .drain
  | stop =>
      rw [processLoop, stands] at taken
      cases taken
      exact .stop
  | stopped =>
      rw [processLoop, stands] at taken
      cases taken

theorem callback_move (s after : State C) (outcome : Outcome) (taken : callback s outcome = some after) :
    WorkerMove s s.worker after := by
  rw [callback] at taken
  split at taken
  · rename_i lm cb cbs remaining drained stands
    cases taken
    rw [stands]
    exact .invoke outcome (some cb) lm cbs remaining drained nofun
  · cases taken

theorem register_move (s after : State C) (i : Nat) (registration : Registration C)
    (taken : registerCallback s i registration = some after) : RegisterMove s i registration after := by
  rw [registerCallback] at taken
  split at taken
  · rename_i here
    cases taken
    exact .load here
  · rename_i old here
    split at taken
    · rename_i absent
      cases taken
      exact .null old here absent
    · rename_i cbs found
      cases taken
      exact .copy old cbs here found
  · rename_i old new here
    by_cases current : s.callbacks = old
    · rw [if_pos current] at taken
      cases taken
      exact .publish old new here current
    · rw [if_neg current] at taken
      cases taken
      exact .retry old new here
  · cases taken

theorem exchange_fails_move (s after : State C) (i : Nat) (registration : Registration C)
    (taken : exchangeFails s i registration = some after) : RegisterMove s i registration after := by
  rw [exchangeFails] at taken
  split at taken
  · rename_i old new here
    cases taken
    exact .retry old new here
  · cases taken

theorem destructor_move (s after : State C) (taken : destructor s = some after) : Move s .destroy after := by
  rw [destructor] at taken
  split at taken
  · rename_i alive
    cases taken
    exact .shutdown alive
  · cases taken
    exact .destroy _
  · cases taken
    exact .destroy _
  · cases taken
    exact .destroy _
  · cases taken
  · cases taken

theorem after_destruction_move (s after : State C) (action : Action C) (gone : s.destructor.over = true)
    (taken : afterDestruction s action = some after) : Move s action after := by
  cases action with
  | worker | callback _ | wake =>
      obtain ⟨_, undefined⟩ := Option.ite_none_left_eq_some.mp taken
      cases undefined
      exact .undefined _ gone
  | destroy => cases taken
  | clock now steady =>
      cases taken
      exact .clock now steady
  | _ =>
      cases taken
      exact .undefined _ gone

theorem step_move (s after : State C) (action : Action C) (taken : step s action = some after) : Move s action after := by
  unfold step at taken
  by_cases faulty : s.fault = true
  · rw [if_pos faulty] at taken
    cases taken
  rw [if_neg faulty] at taken
  by_cases gone : s.destructor.over = true
  · rw [if_pos gone] at taken
    exact after_destruction_move s after action gone taken
  rw [if_neg gone] at taken
  cases action with
  | log thread level message =>
      obtain ⟨_, logged⟩ := Option.ite_none_right_eq_some.mp taken
      cases logged
      exact .log thread level message
  | call i =>
      obtain ⟨call, found, moved⟩ := Option.bind_eq_some_iff.mp taken
      exact .call _ i call after (.inl rfl) found (enqueue_move s after i call moved)
  | callFails i what =>
      obtain ⟨call, found, moved⟩ := Option.bind_eq_some_iff.mp taken
      exact .call _ i call after (.inr ⟨what, rfl⟩) found (enqueue_fails_move s after i what call moved)
  | worker => exact .worker _ s.worker after (.inl rfl) rfl (process_loop_move s after taken)
  | callback outcome => exact .worker _ s.worker after (.inr ⟨outcome, rfl⟩) rfl (callback_move s after outcome taken)
  | wake =>
      cases taken
      exact .wake
  | destroy => exact destructor_move s after taken
  | register i =>
      obtain ⟨registration, found, moved⟩ := Option.bind_eq_some_iff.mp taken
      exact .register _ i registration after (.inl rfl) found (register_move s after i registration moved)
  | exchangeFails i =>
      obtain ⟨registration, found, moved⟩ := Option.bind_eq_some_iff.mp taken
      exact .register _ i registration after (.inr rfl) found (exchange_fails_move s after i registration moved)
  | getDroppedCount =>
      cases taken
      exact .getDroppedCount
  | setMaxQueueSize max =>
      cases taken
      exact .setMaxQueueSize max
  | setBackpressureThreshold threshold =>
      cases taken
      exact .setBackpressureThreshold threshold
  | setDropNotificationInterval interval =>
      cases taken
      exact .setDropNotificationInterval interval
  | setShutdownTimeout timeout =>
      cases taken
      exact .setShutdownTimeout timeout
  | registerCallback cb =>
      cases taken
      exact .registerCallback cb
  | clearCallbacks =>
      cases taken
      exact .clearCallbacks
  | clock now steady =>
      cases taken
      exact .clock now steady

theorem step_sound (s after : State C) (action : Action C) (taken : step s action = some after) : s.fault = false := by
  cases faulty : s.fault with
  | false => rfl
  | true => simp [step, faulty] at taken

end Vectro.Log
