import Vectro.LogAdapterMoves

set_option autoImplicit false

namespace Vectro.Log

variable {C : Type}

def Event.acceptance : Event C → Option LogMessage
  | .accepted _ lm => some lm
  | _ => none

def Event.dispatch : Event C → Option LogMessage
  | .dispatched lm => some lm
  | _ => none

def acceptedMessages (trace : List (Event C)) : List LogMessage := trace.filterMap Event.acceptance

def dispatchedMessages (trace : List (Event C)) : List LogMessage := trace.filterMap Event.dispatch

-- The part of the worker's batch whose Dispatch has not ended.
def WorkerPc.pending : WorkerPc C → List LogMessage
  | .batch remaining _ => remaining
  | .callbacks lm _ remaining _ => lm :: remaining
  | _ => []

-- Past the critical section that drains the queue after the loop.
def WorkerPc.drained : WorkerPc C → Bool
  | .batch _ drained | .callbacks _ _ _ drained | .drops drained | .notify _ drained => drained
  | .stop | .stopped => true
  | _ => false

def EnqueuePc.signalling : EnqueuePc → Bool
  | .signal => true
  | _ => false

-- Some Enqueue stands between its push and its Signal.
def State.signalling (s : State C) : Prop := ∃ call ∈ s.calls, call.pc.signalling = true

-- An event of no interest to the order of the messages.
def Event.aside (event : Event C) : Prop :=
  event.acceptance = none ∧ event.dispatch = none ∧ event ≠ .locked

-- What one step can do to the queue, to the worker and to the messages logged.
-- A step of a caller leaves them alone (aside), pushes (accepts) or wakes the
-- worker; a step of the worker moves within a batch (goes), ends a Dispatch,
-- is one of its critical sections (locks) or is its last.
inductive Effect (s after : State C) : Prop where
  | aside (log : List (Event C)) (queue : after.queue = s.queue) (worker : after.worker = s.worker)
      (running : after.running = s.running) (stopped : after.stopped = s.stopped)
      (signalling : s.signalling → after.signalling)
      (trace : after.trace = s.trace ++ log) (quiet : ∀ event ∈ log, event.aside)
  | accepts (i : Nat) (lm : LogMessage) (queue : after.queue = s.queue ++ [lm]) (worker : after.worker = s.worker)
      (running : after.running = s.running) (stopped : after.stopped = s.stopped) (signalling : after.signalling)
      (trace : after.trace = s.trace ++ [.accepted i lm])
  | wakes (queue : after.queue = s.queue) (worker : after.worker = s.worker.wake)
      (stopped : after.stopped = s.stopped) (trace : after.trace = s.trace)
  | goes (log : List (Event C)) (queue : after.queue = s.queue) (stopped : after.stopped = s.stopped)
      (pending : after.worker.pending = s.worker.pending) (drained : after.worker.drained = s.worker.drained)
      (active : s.worker ≠ .stopped) (awake : after.worker ≠ .blocked)
      (trace : after.trace = s.trace ++ log) (quiet : ∀ event ∈ log, event.aside)
  | dispatches (log : List (Event C)) (lm : LogMessage) (queue : after.queue = s.queue)
      (stopped : after.stopped = s.stopped) (pending : s.worker.pending = lm :: after.worker.pending)
      (drained : after.worker.drained = s.worker.drained)
      (active : s.worker ≠ .stopped) (awake : after.worker ≠ .blocked)
      (trace : after.trace = s.trace ++ log ++ [.dispatched lm]) (quiet : ∀ event ∈ log, event.aside)
  | locks (stopped : after.stopped = s.stopped) (idle : s.worker.pending = [])
      (swapped : after.worker.pending ++ after.queue = s.queue)
      (last : after.worker.drained = true → after.queue = [])
      (active : s.worker ≠ .stopped) (blocks : after.worker = .blocked → after.running = true ∧ after.queue = [])
      (trace : after.trace = s.trace ++ [.locked])
  | stops (queue : after.queue = s.queue) (old : s.worker = .stop) (new : after.worker = .stopped)
      (trace : after.trace = s.trace)

theorem signalling_set (s : State C) (i : Nat) (call new : Call) (found : s.calls[i]? = some call)
    (other : call.pc.signalling = false) (signalling : s.signalling) :
    ∃ call ∈ s.calls.set i new, call.pc.signalling = true := by
  obtain ⟨signaller, member, signals⟩ := signalling
  obtain ⟨j, present⟩ := List.mem_iff_getElem?.mp member
  have apart : i ≠ j := by
    intro same
    rw [← same, found] at present
    rw [← Option.some.inj present, other] at signals
    cases signals
  exact ⟨signaller, List.mem_of_getElem? ((List.getElem?_set_ne apart).trans present), signals⟩

theorem one_aside (event : Event C) (aside : event.aside) : ∀ other ∈ [event], other.aside := by
  intro other member
  rw [List.mem_singleton.mp member]
  exact aside

theorem stderr_aside (text : String) : (Event.stderr text : Event C).aside := ⟨rfl, rfl, nofun⟩

theorem dropped_aside (i : Nat) : (Event.dropped i : Event C).aside := ⟨rfl, rfl, nofun⟩

-- A caller that neither pushes nor signals.
theorem call_aside (s after : State C) (i : Nat) (call new : Call) (log : List (Event C))
    (found : s.calls[i]? = some call) (other : call.pc.signalling = false) (quiet : ∀ event ∈ log, event.aside)
    (calls : after.calls = s.calls.set i new) (trace : after.trace = s.trace ++ log)
    (queue : after.queue = s.queue := by rfl) (worker : after.worker = s.worker := by rfl)
    (running : after.running = s.running := by rfl) (stopped : after.stopped = s.stopped := by rfl) :
    Effect s after := by
  apply Effect.aside log queue worker running stopped _ trace quiet
  intro signalling
  rw [State.signalling, calls]
  exact signalling_set s i call new found other signalling

theorem call_goes (s : State C) (i : Nat) (call : Call) (pc : EnqueuePc) (found : s.calls[i]? = some call)
    (other : call.pc.signalling = false) : Effect s (s.setCall i call pc) :=
  call_aside s _ i call { call with pc := pc } [] found other (List.forall_mem_nil _) rfl (List.append_nil _).symm

theorem drop_effect (s : State C) (i : Nat) (call : Call) (found : s.calls[i]? = some call)
    (other : call.pc.signalling = false) :
    Effect s (({ s with droppedMessages := s.droppedMessages + 1 }.setCall i call .dropped).emit (.dropped i)) :=
  call_aside s _ i call { call with pc := .dropped } [.dropped i] found other
    (one_aside _ (dropped_aside i)) rfl rfl

theorem fail_effect (s : State C) (i : Nat) (what : Option String) (call : Call) (found : s.calls[i]? = some call)
    (other : call.pc.signalling = false) :
    Effect s ((s.setCall i call .failed).emit (.stderr (enqueueReport what))) :=
  call_aside s _ i call { call with pc := .failed } [.stderr (enqueueReport what)] found other
    (one_aside _ (stderr_aside _)) rfl rfl

theorem push_effect (s : State C) (i : Nat) (call : Call) (mark : Nat) (found : s.calls[i]? = some call) :
    Effect s (({ s with queue := s.queue ++ [call.message], highWaterMark := mark }.setCall i call .signal).emit
      (.accepted i call.message)) := by
  have signals : ∃ other ∈ s.calls.set i { call with pc := .signal }, other.pc.signalling = true :=
    ⟨_, List.mem_set (List.getElem?_eq_some_iff.mp found).1 _, rfl⟩
  exact Effect.accepts i call.message rfl rfl rfl rfl signals rfl

theorem call_move_effect (s after : State C) (i : Nat) (call : Call) (found : s.calls[i]? = some call)
    (moves : CallMove s i call after) : Effect s after := by
  cases moves with
  | drop here =>
      apply drop_effect s i call found
      rcases here with here | ⟨here, _⟩ <;> rw [here] <;> rfl
  | push here room => exact push_effect s i call _ found
  | signal here => exact Effect.wakes rfl rfl rfl rfl
  | fail what here =>
      apply fail_effect s i what call found
      rcases here with here | ⟨here, _⟩ <;> rw [here] <;> rfl
  | size here | full _ here _ | fits _ here _ | above _ here _ | below _ here _ | backoff here =>
      exact call_goes s i call _ found (by rw [here]; rfl)

theorem undefined_effect (s : State C) : Effect s s.undefined :=
  .aside [] rfl rfl rfl rfl (fun signalling => signalling) (List.append_nil _).symm (List.forall_mem_nil _)

theorem worker_goes (s after : State C) (old : WorkerPc C) (log : List (Event C)) (stands : s.worker = old)
    (pending : after.worker.pending = old.pending) (drained : after.worker.drained = old.drained)
    (active : old ≠ .stopped) (awake : after.worker ≠ .blocked) (quiet : ∀ event ∈ log, event.aside)
    (trace : after.trace = s.trace ++ log) (queue : after.queue = s.queue := by rfl)
    (stopped : after.stopped = s.stopped := by rfl) : Effect s after := by
  rw [← stands] at pending drained active
  exact Effect.goes log queue stopped pending drained active awake trace quiet

theorem worker_dispatches (s after : State C) (old : WorkerPc C) (log : List (Event C)) (lm : LogMessage)
    (stands : s.worker = old) (pending : old.pending = lm :: after.worker.pending)
    (drained : after.worker.drained = old.drained) (active : old ≠ .stopped) (awake : after.worker ≠ .blocked)
    (quiet : ∀ event ∈ log, event.aside) (trace : after.trace = s.trace ++ log ++ [.dispatched lm])
    (queue : after.queue = s.queue := by rfl) (stopped : after.stopped = s.stopped := by rfl) : Effect s after := by
  rw [← stands] at pending drained active
  exact Effect.dispatches log lm queue stopped pending drained active awake trace quiet

theorem worker_locks (s after : State C) (old : WorkerPc C) (stands : s.worker = old) (idle : old.pending = [])
    (active : old ≠ .stopped) (swapped : after.worker.pending ++ after.queue = s.queue)
    (last : after.worker.drained = true → after.queue = [])
    (blocks : after.worker = .blocked → after.running = true ∧ after.queue = [])
    (trace : after.trace = s.trace ++ [.locked] := by rfl) (stopped : after.stopped = s.stopped := by rfl) :
    Effect s after := by
  rw [← stands] at idle active
  exact Effect.locks stopped idle swapped last active blocks trace

theorem after_drops_pending (drained : Bool) : (afterDrops drained : WorkerPc C).pending = [] := by
  cases drained <;> rfl

theorem after_drops_drained (drained : Bool) : (afterDrops drained : WorkerPc C).drained = drained := by
  cases drained <;> rfl

theorem after_drops_awake (drained : Bool) : (afterDrops drained : WorkerPc C) ≠ .blocked := by
  cases drained <;> nofun

theorem notify_effect (s : State C) (dropped : UInt64) (drained : Bool) (stands : s.worker = .notify dropped drained)
    (lm : LogMessage) :
    Effect s ((({ s with lastDropNotification := s.now }.emit (.stderr (defaultLog s.platform lm))).goto
      (afterDrops drained)).emit (.notified dropped lm)) := by
  apply worker_goes s _ _ [.stderr (defaultLog s.platform lm), .notified dropped lm] stands
    (after_drops_pending drained) (after_drops_drained drained) nofun (after_drops_awake drained)
  · intro event member
    rcases List.mem_cons.mp member with rfl | later
    · exact stderr_aside _
    · rw [List.mem_singleton.mp later]
      exact ⟨rfl, rfl, nofun⟩
  · exact List.append_assoc _ _ _

theorem worker_move_effect (s after : State C) (pc : WorkerPc C) (stands : s.worker = pc)
    (moves : WorkerMove s pc after) : Effect s after := by
  cases moves with
  | leave shut empty => exact worker_locks s _ .lock stands rfl nofun rfl nofun nofun
  | block alive empty => exact worker_locks s _ .lock stands rfl nofun rfl nofun fun _ => ⟨alive, empty⟩
  | swap some => exact worker_locks s _ .lock stands rfl nofun (List.append_nil _) nofun nofun
  | drain => exact worker_locks s _ .drain stands rfl nofun (List.append_nil _) (fun _ => rfl) nofun
  | unset lm remaining drained null => exact undefined_effect s
  | default lm remaining drained empty =>
      exact worker_dispatches s _ _ [.stderr (defaultLog s.platform lm)] lm stands rfl rfl nofun nofun
        (one_aside _ (stderr_aside _)) rfl
  | invoke outcome cb lm cbs remaining drained unset =>
      exact worker_goes s _ _ [.called cb lm outcome] stands rfl rfl nofun nofun (one_aside _ ⟨rfl, rfl, nofun⟩) rfl
  | silent lm remaining drained silent =>
      exact worker_dispatches s _ _ [] lm stands rfl rfl nofun nofun (List.forall_mem_nil _) (by rw [List.append_nil]; rfl)
  | report lm remaining drained threw =>
      exact worker_dispatches s _ _ [.stderr s.errorBuffer] lm stands rfl rfl nofun nofun
        (one_aside _ (stderr_aside _)) rfl
  | undropped drained _ | early _ drained _ =>
      exact worker_goes s _ _ [] stands (after_drops_pending drained) (after_drops_drained drained) nofun
        (after_drops_awake drained) (List.forall_mem_nil _) (List.append_nil _).symm
  | notify dropped drained due => exact notify_effect s dropped drained stands (dropNotice s dropped)
  | stop => exact Effect.stops rfl stands rfl rfl
  | batched _ | dispatch _ _ _ _ _ _ | drops _ _ =>
      exact worker_goes s _ _ [] stands rfl rfl nofun nofun (List.forall_mem_nil _) (List.append_nil _).symm

-- Everything else a step changes is of no interest here.
theorem other_effect (s after : State C) (trace : after.trace = s.trace := by rfl)
    (queue : after.queue = s.queue := by rfl) (worker : after.worker = s.worker := by rfl)
    (running : after.running = s.running := by rfl) (stopped : after.stopped = s.stopped := by rfl)
    (calls : after.calls = s.calls := by rfl) : Effect s after := by
  apply Effect.aside [] queue worker running stopped _ (trace.trans (List.append_nil _).symm) (List.forall_mem_nil _)
  rw [State.signalling, State.signalling, calls]
  exact fun signalling => signalling

theorem log_effect (s : State C) (call : Call) : Effect s { s with calls := s.calls ++ [call] } := by
  have kept : s.signalling → ∃ other ∈ s.calls ++ [call], other.pc.signalling = true := by
    intro signalling
    obtain ⟨signaller, member, signals⟩ := signalling
    exact ⟨signaller, List.mem_append_left _ member, signals⟩
  exact Effect.aside [] rfl rfl rfl rfl kept (List.append_nil _).symm (List.forall_mem_nil _)

theorem move_effect (s after : State C) (action : Action C) (moves : Move s action after) : Effect s after := by
  cases moves with
  | log thread level message => exact log_effect s _
  | call _ i call after acts found moves => exact call_move_effect s after i call found moves
  | worker _ pc after acts stands moves => exact worker_move_effect s after pc stands moves
  | wake | shutdown _ => exact Effect.wakes rfl rfl rfl rfl
  | undefined _ gone => exact undefined_effect s
  | register _ i registration after acts found moves => cases moves <;> exact other_effect s _
  | getDroppedCount =>
      exact Effect.aside [.dropsRead s.droppedMessages] rfl rfl rfl rfl (fun signalling => signalling) rfl
        (one_aside _ ⟨rfl, rfl, nofun⟩)
  | _ => exact other_effect s _

theorem accepted_aside (trace log : List (Event C)) (quiet : ∀ event ∈ log, event.aside) :
    acceptedMessages (trace ++ log) = acceptedMessages trace :=
  Traces.filter_map_aside Event.acceptance trace log fun event member => (quiet event member).1

theorem dispatched_aside (trace log : List (Event C)) (quiet : ∀ event ∈ log, event.aside) :
    dispatchedMessages (trace ++ log) = dispatchedMessages trace :=
  Traces.filter_map_aside Event.dispatch trace log fun event member => (quiet event member).2.1

theorem wake_pending (pc : WorkerPc C) : pc.wake.pending = pc.pending := by cases pc <;> rfl

theorem wake_drained (pc : WorkerPc C) : pc.wake.drained = pc.drained := by cases pc <;> rfl

theorem wake_awake (pc : WorkerPc C) : pc.wake ≠ .blocked := by cases pc <;> nofun

def Delivered (s : State C) : Prop :=
  dispatchedMessages s.trace ++ s.worker.pending ++ s.queue = acceptedMessages s.trace

theorem effect_delivered (s after : State C) (effect : Effect s after) (delivered : Delivered s) : Delivered after := by
  unfold Delivered at delivered ⊢
  cases effect with
  | aside log queue worker running stopped signalling trace quiet =>
      rw [queue, worker, trace, accepted_aside _ _ quiet, dispatched_aside _ _ quiet]
      exact delivered
  | accepts i lm queue worker running stopped signalling trace =>
      have accepted : acceptedMessages (s.trace ++ [.accepted i lm]) = acceptedMessages s.trace ++ [lm] :=
        Traces.filter_map_logs _ _ _ _ rfl
      have dispatched : dispatchedMessages (s.trace ++ [.accepted i lm]) = dispatchedMessages s.trace :=
        Traces.filter_map_quiet _ _ _ rfl
      rw [queue, worker, trace, accepted, dispatched, ← delivered, List.append_assoc _ s.queue]
  | wakes queue worker stopped trace =>
      rw [queue, worker, trace, wake_pending]
      exact delivered
  | goes log queue stopped pending drained active awake trace quiet =>
      rw [queue, pending, trace, accepted_aside _ _ quiet, dispatched_aside _ _ quiet]
      exact delivered
  | dispatches log lm queue stopped pending drained active awake trace quiet =>
      have accepted : acceptedMessages (s.trace ++ log ++ [.dispatched lm]) = acceptedMessages s.trace :=
        (Traces.filter_map_quiet _ _ _ rfl).trans (accepted_aside _ _ quiet)
      have dispatched : dispatchedMessages (s.trace ++ log ++ [.dispatched lm]) = dispatchedMessages s.trace ++ [lm] := by
        rw [← dispatched_aside s.trace log quiet]
        exact Traces.filter_map_logs _ _ _ _ rfl
      rw [queue, trace, accepted, dispatched, ← delivered, pending, List.append_assoc _ [lm], List.singleton_append]
  | locks stopped idle swapped last active blocks trace =>
      have accepted : acceptedMessages (s.trace ++ [.locked]) = acceptedMessages s.trace :=
        Traces.filter_map_quiet _ _ _ rfl
      have dispatched : dispatchedMessages (s.trace ++ [.locked]) = dispatchedMessages s.trace :=
        Traces.filter_map_quiet _ _ _ rfl
      rw [trace, accepted, dispatched, ← delivered, idle, List.append_nil, ← swapped, List.append_assoc]
  | stops queue old new trace =>
      rw [queue, new, trace]
      rw [old] at delivered
      exact delivered

-- The worker sleeps on an empty queue, or some caller still owes it a Signal.
def Watched (s : State C) : Prop := s.worker = .blocked → s.running = true ∧ (s.queue = [] ∨ s.signalling)

theorem effect_watched (s after : State C) (effect : Effect s after) (watched : Watched s) : Watched after := by
  intro blocked
  cases effect with
  | aside log queue worker running stopped signalling trace quiet =>
      obtain ⟨runs, either⟩ := watched (worker ▸ blocked)
      rw [running, queue]
      exact ⟨runs, either.imp_right signalling⟩
  | accepts i lm queue worker running stopped signalling trace =>
      obtain ⟨runs, _⟩ := watched (worker ▸ blocked)
      rw [running]
      exact ⟨runs, .inr signalling⟩
  | wakes queue worker stopped trace => exact absurd (worker.symm.trans blocked) (wake_awake s.worker)
  | goes log queue stopped pending drained active awake trace quiet => exact absurd blocked awake
  | dispatches log lm queue stopped pending drained active awake trace quiet => exact absurd blocked awake
  | locks stopped idle swapped last active blocks trace =>
      obtain ⟨runs, empty⟩ := blocks blocked
      exact ⟨runs, .inl empty⟩
  | stops queue old new trace =>
      rw [new] at blocked
      cases blocked

-- What was accepted before the last critical section of the worker is what has
-- been dispatched and what is still pending.
def Drained (trace : List (Event C)) (pending : List LogMessage) : Prop :=
  ∃ before later : List (Event C), trace = before ++ .locked :: later ∧ Event.locked ∉ later ∧
    acceptedMessages before = dispatchedMessages trace ++ pending

theorem drained_append (trace log : List (Event C)) (pending remaining : List LogMessage)
    (drained : Drained trace pending) (unlocked : Event.locked ∉ log)
    (dispatched : dispatchedMessages log ++ remaining = pending) : Drained (trace ++ log) remaining := by
  obtain ⟨before, later, split, last, accepted⟩ := drained
  refine ⟨before, later ++ log, ?_, ?_, ?_⟩
  · rw [split, List.append_assoc, List.cons_append]
  · intro member
    exact (List.mem_append.mp member).elim last unlocked
  · have both : dispatchedMessages (trace ++ log) = dispatchedMessages trace ++ dispatchedMessages log :=
      List.filterMap_append
    rw [accepted, both, List.append_assoc, dispatched]

theorem drained_aside (trace log : List (Event C)) (pending : List LogMessage) (drained : Drained trace pending)
    (quiet : ∀ event ∈ log, event.aside) : Drained (trace ++ log) pending := by
  apply drained_append trace log pending pending drained
  · intro member
    exact (quiet _ member).2.2 rfl
  · exact congrArg (fun front => front ++ pending) (dispatched_aside [] log quiet)

def Emptied (s : State C) : Prop := s.worker.drained = true → Drained s.trace s.worker.pending

theorem effect_emptied (s after : State C) (effect : Effect s after) (delivered : Delivered s) (emptied : Emptied s) :
    Emptied after := by
  intro last
  cases effect with
  | aside log queue worker running stopped signalling trace quiet =>
      rw [worker] at last
      rw [worker, trace]
      exact drained_aside s.trace log _ (emptied last) quiet
  | accepts i lm queue worker running stopped signalling trace =>
      rw [worker] at last
      rw [worker, trace]
      exact drained_append s.trace [.accepted i lm] _ _ (emptied last) (by simp) rfl
  | wakes queue worker stopped trace =>
      rw [worker, wake_drained] at last
      rw [worker, wake_pending, trace]
      exact emptied last
  | goes log queue stopped pending drained active awake trace quiet =>
      rw [drained] at last
      rw [pending, trace]
      exact drained_aside s.trace log _ (emptied last) quiet
  | dispatches log lm queue stopped pending drained active awake trace quiet =>
      rw [drained] at last
      rw [trace]
      have noticed := drained_aside s.trace log _ (emptied last) quiet
      rw [pending] at noticed
      exact drained_append (s.trace ++ log) [.dispatched lm] _ _ noticed (by simp) rfl
  | locks stopped idle swapped unqueued active blocks trace =>
      have whole : after.worker.pending = s.queue := by
        rw [← swapped, unqueued last, List.append_nil]
      refine ⟨s.trace, [], trace, List.not_mem_nil, ?_⟩
      have dispatched : dispatchedMessages (s.trace ++ [.locked]) = dispatchedMessages s.trace :=
        Traces.filter_map_quiet _ _ _ rfl
      rw [← delivered, idle, List.append_nil, trace, dispatched, whole]
  | stops queue old new trace =>
      rw [new, trace]
      have settled := emptied (by rw [old]; rfl)
      rw [old] at settled
      exact settled

theorem effect_stopped (s after : State C) (effect : Effect s after) (last : s.stopped = true → s.worker = .stopped) :
    after.stopped = true → after.worker = .stopped := by
  intro finished
  cases effect with
  | aside log queue worker running stopped signalling trace quiet => exact worker.trans (last (stopped ▸ finished))
  | accepts i lm queue worker running stopped signalling trace => exact worker.trans (last (stopped ▸ finished))
  | wakes queue worker stopped trace => rw [worker, last (stopped ▸ finished), WorkerPc.wake.eq_def]
  | goes log queue stopped pending drained active awake trace quiet => exact absurd (last (stopped ▸ finished)) active
  | dispatches log lm queue stopped pending drained active awake trace quiet =>
      exact absurd (last (stopped ▸ finished)) active
  | locks stopped idle swapped unqueued active blocks trace => exact absurd (last (stopped ▸ finished)) active
  | stops queue old new trace => exact new

structure Orderly (s : State C) : Prop where
  delivered : Delivered s
  watched : Watched s
  emptied : Emptied s
  stopped : s.stopped = true → s.worker = .stopped

theorem construct_orderly (id : String) (platform : Platform) (now steady : Int) :
    Orderly (construct id platform now steady : State C) :=
  ⟨rfl, nofun, nofun, nofun⟩

theorem reachable_orderly (id : String) (platform : Platform) (now steady : Int) (s : State C)
    (reachable : Machine.Reachable step (fun _ _ => True) (construct id platform now steady) s) : Orderly s := by
  refine Machine.reachable_invariant step _ _ Orderly (construct_orderly id platform now steady) ?_ s reachable
  intro before action after _ orderly _ taken
  have effect := move_effect before after action (step_move before after action taken)
  exact ⟨effect_delivered before after effect orderly.delivered, effect_watched before after effect orderly.watched,
    effect_emptied before after effect orderly.delivered orderly.emptied, effect_stopped before after effect orderly.stopped⟩

-- A null callback list is dereferenced by Dispatch, which ends the run there:
-- the statement covers the runs before that as well as those that publish a
-- list first.
theorem delivers_in_order (id : String) (platform : Platform) (now steady : Int) (s : State C)
    (reachable : Machine.Reachable step (fun _ _ => True) (construct id platform now steady) s) :
    dispatchedMessages s.trace ++ s.worker.pending ++ s.queue = acceptedMessages s.trace ∧
    ((∀ call ∈ s.calls, call.pc ≠ .signal) → s.worker = .blocked → s.queue = [] ∧ s.running = true) ∧
    (s.stopped = true → ∃ before later : List (Event C), s.trace = before ++ .locked :: later ∧
      Event.locked ∉ later ∧ dispatchedMessages s.trace = acceptedMessages before) := by
  have orderly := reachable_orderly id platform now steady s reachable
  refine ⟨orderly.delivered, ?_, ?_⟩
  · intro signalled blocked
    obtain ⟨running, empty | signalling⟩ := orderly.watched blocked
    · exact ⟨empty, running⟩
    · obtain ⟨call, member, signals⟩ := signalling
      have stands : call.pc = .signal := by
        cases pc : call.pc <;> simp [pc, EnqueuePc.signalling] at signals ⊢
      exact absurd stands (signalled call member)
  · intro finished
    have last := orderly.stopped finished
    obtain ⟨before, later, split, unlocked, accepted⟩ := orderly.emptied (by rw [last]; rfl)
    refine ⟨before, later, split, unlocked, ?_⟩
    rw [accepted, last]
    exact (List.append_nil _).symm

-- Two messages are accepted, the second after the destructor has begun, and a
-- callback throws on the first: both are dispatched before the worker stops.
theorem delivers_in_order_closing :
    ∃ s : State Nat,
      Machine.Reachable step (fun _ _ => True) (construct "app" ⟨toString, id, 9⟩ 0 0) s ∧
      s.stopped = true ∧ (dispatchedMessages s.trace).map LogMessage.message = ["up", "down"] ∧
      ∃ before later : List (Event Nat), s.trace = before ++ .locked :: later ∧ Event.locked ∉ later ∧
        dispatchedMessages s.trace = acceptedMessages before := by
  have evaluated : (Machine.run step (fun _ _ => True) (construct (C := Nat) "app" ⟨toString, id, 9⟩ 0 0)
      ([[.clearCallbacks, .registerCallback 7, .register 0, .register 0, .register 0, .worker, .log 1 .info "up"],
        List.replicate 5 (.call 0), [.worker, .worker, .destroy, .log 2 .alert "down"], List.replicate 5 (.call 1),
        [.callback (.threw "full"), .worker, .worker, .worker, .worker, .worker, .callback .returned, .worker, .worker,
          .worker, .worker, .worker, .worker, .worker, .worker]].flatten)).any
      (fun s => s.stopped && decide ((dispatchedMessages s.trace).map LogMessage.message = ["up", "down"])) = true := by
    decide
  obtain ⟨s, reachable, shows⟩ := Machine.run_exhibits step _ _ _ _ evaluated
  obtain ⟨finished, messages⟩ := Bool.and_eq_true_iff.mp shows
  obtain ⟨_, _, settled⟩ := delivers_in_order "app" _ 0 0 s reachable
  exact ⟨s, reachable, finished, of_decide_eq_true messages, settled finished⟩

end Vectro.Log
