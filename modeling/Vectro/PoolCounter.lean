import Vectro.PoolLedger
import Vectro.PoolSolo

set_option autoImplicit false

namespace Vectro.Pool

open Tally

variable {T W : Type}

-- The submitters and the workers, with the configuration and the processor
-- left alone.
def Serving (_ : State T W) : Action T W → Prop
  | .updateConfig _ | .destroy => False
  | _ => True

instance (s : State T W) (action : Action T W) : Decidable (Serving s action) :=
  match action with
  | .updateConfig .. | .destroy => isFalse id
  | .submit .. | .call .. | .callFails .. | .worker .. | .workerThrows .. | .workerSteals .. | .registerCallback
  | .setFinalCallback | .getDroppedCount | .clock .. => isTrue trivial

structure NeverWraps (s : State T W) : Prop where
  subtracts : ∀ pc ∈ s.workers, pc.unsubtracted = 1 → s.tasksInQueue ≠ 0
  drops : ∀ (k c : Nat) (curr : UInt64), s.trace[k]? = some (.loaded c curr) → .dropped c ∈ s.trace →
    s.cfg.maxQueueSize.toNat + (subtractedItems (s.trace.take k)).length ≤ (pushedItems (s.trace.take k)).length

-- Worker 0 has seen the counter above zero and has not decremented it yet.
def WorkerPc.popping : WorkerPc T W → Bool
  | .own | .mode | .vector | .sizes _ _ | .policy _ | .steal _ | .subtract _ => true
  | _ => false

structure Counted (s : State T W) : Prop where
  running : s.running = true
  exact : s.tasksInQueue.toNat + s.uncounted = s.outstanding
  ready : ∀ pc, s.workers[0]? = some pc → pc.popping = true → 0 < s.tasksInQueue.toNat

theorem solo_unsubtracted (s : State T W) (solo : Solo s) (counted : Counted s) (w : Nat) (pc : WorkerPc T W)
    (found : s.workers[w]? = some pc) (held : pc.unsubtracted ≠ 0) : w = 0 ∧ 0 < s.tasksInQueue.toNat := by
  cases pc with
  | subtract item =>
      by_cases first : w = 0
      · exact ⟨first, counted.ready _ (first ▸ found) rfl⟩
      · exact absurd (solo.workers w _ found first) (by simp [WorkerPc.bystander])
  | _ => exact absurd rfl held

theorem solo_held (s : State T W) (solo : Solo s) (counted : Counted s) (held : 0 < s.unsubtracted) :
    0 < s.tasksInQueue.toNat := by
  by_contra none
  refine Nat.ne_of_gt held ((total_eq_zero _ s.workers).mpr fun pc member => ?_)
  by_contra heavy
  obtain ⟨w, found⟩ := List.mem_iff_getElem?.mp member
  exact none (solo_unsubtracted s solo counted w pc found heavy).2

theorem effect_exact (s after : State T W) (effect : Effect s after) (solo : Solo s) (ledger : Ledger s)
    (counted : Counted s) : after.tasksInQueue.toNat + after.uncounted = after.outstanding := by
  have exact := counted.exact
  have fits := ledger.fits
  have limit : itemLimit < 2 ^ 63 := by decide
  have one : (1 : UInt64).toNat = 1 := rfl
  cases effect with
  | quiet counter calls same => rw [counter, calls, same, exact]
  | push item counter calls more => rw [counter, calls, more, ← exact, Nat.add_assoc]
  | count counter calls same =>
      rw [counter, UInt64.toNat_add, one, same]
      omega
  | subtract item held counter calls fewer =>
      have positive := solo_held s solo counted held
      have below := s.tasksInQueue.toNat_lt
      rw [counter, UInt64.toNat_sub, one, calls]
      omega

theorem call_move_counter (s after : State T W) (i : Nat) (call : Call T W) (moves : CallMove s i call after) :
    after.tasksInQueue = s.tasksInQueue ∨ after.tasksInQueue = s.tasksInQueue + 1 := by
  cases moves with
  | count => exact .inr rfl
  | _ => exact .inl rfl

theorem call_move_counted (s after : State T W) (i : Nat) (call : Call T W) (found : s.calls[i]? = some call)
    (moves : CallMove s i call after) (solo : Solo s) (ledger : Ledger s) (counted : Counted s) : Counted after := by
  have exact := effect_exact s after (call_move_effect s after i call found moves) solo ledger counted
  have grows : 0 < s.tasksInQueue.toNat → 0 < after.tasksInQueue.toNat := by
    have fits := ledger.fits
    have before := counted.exact
    have limit : itemLimit < 2 ^ 63 := by decide
    have one : (1 : UInt64).toNat = 1 := rfl
    rcases call_move_counter s after i call moves with same | more
    · rw [same]
      exact id
    · rw [more, UInt64.toNat_add, one]
      omega
  cases moves with
  | signal here free =>
      refine ⟨counted.running, exact, fun pc present popping => grows ?_⟩
      simp only [State.setCall, State.signalAll, List.getElem?_map, Option.map_eq_some_iff] at present
      obtain ⟨old, known, rfl⟩ := present
      apply counted.ready old known
      cases old <;> exact popping
  | _ => exact ⟨counted.running, exact, fun pc present popping => grows (counted.ready pc present popping)⟩

theorem worker_move_counted (s after : State T W) (w : Nat) (pc : WorkerPc T W) (found : s.workers[w]? = some pc)
    (moves : WorkerMove s w pc after) (solo : Solo s) (ledger : Ledger s) (counted : Counted s) : Counted after := by
  have exact := effect_exact s after (worker_move_effect s after w pc found moves) solo ledger counted
  have kept : ∀ next : WorkerPc T W, (pc.popping = false → next.popping = true → 0 < s.tasksInQueue.toNat) →
      ∀ other, (s.workers.set w next)[0]? = some other → other.popping = true → 0 < s.tasksInQueue.toNat := by
    intro next sees other present popping
    by_cases first : w = 0
    · subst w
      rw [List.getElem?_set_self (List.getElem?_eq_some_iff.mp found).1] at present
      cases was : pc.popping with
      | true => exact counted.ready pc found was
      | false => exact sees was (Option.some.inj present ▸ popping)
    · rw [List.getElem?_set_ne first] at present
      exact counted.ready other present popping
  cases moves with
  | subtract item =>
      refine ⟨counted.running, exact, fun other present popping => ?_⟩
      obtain ⟨rfl, _⟩ := solo_unsubtracted s solo counted w _ found (by simp [WorkerPc.unsubtracted])
      simp only [State.setWorker, State.emit, List.getElem?_set_self (List.getElem?_eq_some_iff.mp found).1,
        Option.some.injEq] at present
      rw [← present] at popping
      cases popping
  | shut shut => rw [counted.running] at shut; cases shut
  | some nonzero =>
      refine ⟨counted.running, exact, kept .own fun _ _ => ?_⟩
      exact Nat.pos_of_ne_zero fun zero => nonzero (UInt64.toNat_inj.mp zero)
  | outside => exact ⟨counted.running, exact, counted.ready⟩
  | _ => exact ⟨counted.running, exact, kept _ (by simp [WorkerPc.popping])⟩

theorem reachable_counted (cfg : TaskProcessorConfig) (now : Int) (single : cfg.mode = .fifo ∨ cfg.numThreads = 1)
    (s : State T W) (reachable : Machine.Reachable step Serving (construct cfg now) s) : Counted s := by
  refine Machine.reachable_invariant step Serving _ Counted ?_ ?_ s reachable
  · refine ⟨rfl, by rw [construct_outstanding]; rfl, fun pc found popping => ?_⟩
    rw [(List.mem_replicate.mp (List.mem_of_getElem? found)).2] at popping
    cases popping
  · intro before action after earlier counted serving taken
    have solo := reachable_solo Serving (fun _ _ allowed => allowed) cfg now single before earlier
    have ledger := reachable_ledger Serving cfg now before earlier
    have moves := (step_move before after action taken).2
    have exact := effect_exact before after (move_effect before after action moves) solo ledger counted
    cases moves with
    | call _ i call after acts found moves => exact call_move_counted before after i call found moves solo ledger counted
    | worker _ w pc after acts found moves => exact worker_move_counted before after w pc found moves solo ledger counted
    | destroy => exact absurd serving id
    | _ => exact ⟨counted.running, exact, counted.ready⟩

-- Each load in the trace read no more than the tasks that were pushed and not
-- subtracted at that point.
def Backed (log : List (Event T W)) : Prop :=
  ∀ (k c : Nat) (curr : UInt64), log[k]? = some (.loaded c curr) →
    curr.toNat + (subtractedItems (log.take k)).length ≤ (pushedItems (log.take k)).length

theorem backed_append (log events : List (Event T W)) (backed : Backed log)
    (new : ∀ (k c : Nat) (curr : UInt64), events[k]? = some (.loaded c curr) → k = 0 ∧
      curr.toNat + (subtractedItems log).length ≤ (pushedItems log).length) : Backed (log ++ events) := by
  intro k c curr found
  rcases Nat.lt_or_ge k log.length with before | later
  · rw [List.getElem?_append_left before] at found
    rw [List.take_append_of_le_length (Nat.le_of_lt before)]
    exact backed k c curr found
  · rw [List.getElem?_append_right later] at found
    obtain ⟨first, bound⟩ := new _ c curr found
    have whole : k = log.length := by omega
    rw [whole, List.take_left]
    exact bound

def Event.isLoaded : Event T W → Bool
  | .loaded _ _ => true
  | _ => false

theorem backed_quiet (log events : List (Event T W)) (backed : Backed log)
    (silent : ∀ event ∈ events, event.isLoaded = false) : Backed (log ++ events) := by
  apply backed_append log events backed
  intro k c curr found
  exact absurd (silent _ (List.mem_of_getElem? found)) (by simp [Event.isLoaded])

theorem of_worker_not_loaded (event : Event T W) (worked : event.ofWorker = true) : event.isLoaded = false := by
  cases event <;> first | rfl | simp [Event.ofWorker] at worked

theorem move_backed (s after : State T W) (action : Action T W) (moves : Move s action after) (ledger : Ledger s)
    (exact : s.tasksInQueue.toNat + s.uncounted = s.outstanding) (backed : Backed s.trace) : Backed after.trace := by
  cases moves with
  | call _ i call after acts found moves =>
      cases moves with
      | load here =>
          apply backed_append s.trace [_] backed
          intro k c curr found
          have logged := ledger.logged
          have zero : k = 0 := by simpa using (List.getElem?_eq_some_iff.mp found).1
          subst k
          have same : s.tasksInQueue = curr := by
            have event : Event.loaded i s.tasksInQueue = .loaded c curr := Option.some.inj found
            injection event
          rw [← same]
          exact ⟨rfl, by omega⟩
      | drop | push => exact backed_quiet s.trace [_] backed (by simp [Event.isLoaded])
      | _ => exact backed
  | worker _ w pc after acts found moves =>
      obtain ⟨events, trace, worked⟩ := worker_move_emits s after w pc moves
      rw [trace]
      exact backed_quiet s.trace events backed fun event member => of_worker_not_loaded event (worked event member)
  | destroy pc after here moves =>
      cases moves with
      | store | final => exact backed_quiet s.trace [_] backed (by simp [Event.isLoaded])
      | _ => exact backed
  | submit | registerCallback | getDroppedCount => exact backed_quiet s.trace [_] backed (by simp [Event.isLoaded])
  | _ => exact backed

def SubmitPc.decided (trips : UInt64 → Bool) (curr : UInt64) : SubmitPc → Prop
  | .load => False
  | .check seen => seen = curr
  | .drop | .dropped => trips curr = true
  | _ => True

-- A call that has loaded curr stands where curr has led it.
structure Decided (s : State T W) : Prop where
  loaded : ∀ (c : Nat) (curr : UInt64), .loaded c curr ∈ s.trace →
    ∃ call, s.calls[c]? = some call ∧ call.pc.decided s.cfg.trips curr
  dropped : ∀ c, .dropped c ∈ s.trace → ∃ call, s.calls[c]? = some call ∧ call.pc = .dropped

def Event.decides : Event T W → Bool
  | .loaded _ _ | .dropped _ => true
  | _ => false

theorem decided_frame (s after : State T W) (decided : Decided s) (cfg : after.cfg = s.cfg)
    (events : List (Event T W)) (trace : after.trace = s.trace ++ events)
    (silent : ∀ event ∈ events, event.decides = false)
    (calls : ∀ (c : Nat) (call : Call T W), s.calls[c]? = some call → ∃ next, after.calls[c]? = some next ∧
      (∀ curr, call.pc.decided s.cfg.trips curr → next.pc.decided s.cfg.trips curr) ∧
      (call.pc = .dropped → next.pc = .dropped)) : Decided after where
  loaded := by
    intro c curr member
    have old : .loaded c curr ∈ s.trace := by
      rcases List.mem_append.mp (trace ▸ member) with old | new
      · exact old
      · exact absurd (silent _ new) (by simp [Event.decides])
    obtain ⟨call, found, stands⟩ := decided.loaded c curr old
    obtain ⟨next, present, kept, _⟩ := calls c call found
    exact ⟨next, present, cfg ▸ kept curr stands⟩
  dropped := by
    intro c member
    have old : .dropped c ∈ s.trace := by
      rcases List.mem_append.mp (trace ▸ member) with old | new
      · exact old
      · exact absurd (silent _ new) (by simp [Event.decides])
    obtain ⟨call, found, stands⟩ := decided.dropped c old
    obtain ⟨next, present, _, kept⟩ := calls c call found
    exact ⟨next, present, kept stands⟩

theorem same_decided (calls : List (Call T W)) (trips : UInt64 → Bool) (c : Nat) (old : Call T W)
    (present : calls[c]? = some old) :
    ∃ next, calls[c]? = some next ∧ (∀ curr, old.pc.decided trips curr → next.pc.decided trips curr) ∧
      (old.pc = .dropped → next.pc = .dropped) :=
  ⟨old, present, fun _ stands => stands, fun stands => stands⟩

theorem set_decided (calls : List (Call T W)) (i : Nat) (call : Call T W) (found : calls[i]? = some call)
    (trips : UInt64 → Bool) (pc : SubmitPc) (kept : ∀ curr, call.pc.decided trips curr → pc.decided trips curr)
    (stays : call.pc = .dropped → pc = .dropped) (c : Nat) (old : Call T W) (present : calls[c]? = some old) :
    ∃ next, (calls.set i { call with pc := pc })[c]? = some next ∧
      (∀ curr, old.pc.decided trips curr → next.pc.decided trips curr) ∧ (old.pc = .dropped → next.pc = .dropped) := by
  by_cases same : i = c
  · subst c
    have eq : call = old := Option.some.inj (found.symm.trans present)
    subst old
    exact ⟨_, List.getElem?_set_self (List.getElem?_eq_some_iff.mp found).1, kept, stays⟩
  · rw [List.getElem?_set_ne same]
    exact same_decided calls trips c old present

theorem call_move_decided (s after : State T W) (i : Nat) (call : Call T W) (found : s.calls[i]? = some call)
    (moves : CallMove s i call after) (decided : Decided s) : Decided after := by
  have bound := (List.getElem?_eq_some_iff.mp found).1
  have kept : ∀ pc : SubmitPc, (∀ curr, call.pc.decided s.cfg.trips curr → pc.decided s.cfg.trips curr) →
      (call.pc = .dropped → pc = .dropped) → ∀ (c : Nat) (old : Call T W), s.calls[c]? = some old →
      ∃ next, (s.calls.set i { call with pc := pc })[c]? = some next ∧
        (∀ curr, old.pc.decided s.cfg.trips curr → next.pc.decided s.cfg.trips curr) ∧
        (old.pc = .dropped → next.pc = .dropped) :=
    fun pc stays drops => set_decided s.calls i call found s.cfg.trips pc stays drops
  have same := same_decided s.calls s.cfg.trips
  cases moves with
  | load here =>
      have never : ∀ curr, ¬ call.pc.decided s.cfg.trips curr := fun curr stands => by rwa [here] at stands
      have calls := kept (.check s.tasksInQueue) (fun curr stands => absurd stands (never curr)) (by simp [here])
      have before := decided_frame s (s.setCall i call (.check s.tasksInQueue)) decided rfl []
        (List.append_nil _).symm (by simp) calls
      refine ⟨fun c curr member => ?_, fun c member => ?_⟩
      · rcases List.mem_append.mp member with old | new
        · exact before.loaded c curr old
        · have event : c = i ∧ curr = s.tasksInQueue := by simpa using new
          obtain ⟨rfl, rfl⟩ := event
          exact ⟨_, List.getElem?_set_self bound, rfl⟩
      · rcases List.mem_append.mp member with old | new
        · exact before.dropped c old
        · simp at new
  | trip curr here trips =>
      refine decided_frame s _ decided rfl [] (List.append_nil _).symm (by simp) (kept .drop ?_ (by simp [here]))
      intro seen stands
      rw [here] at stands
      exact (show curr = seen from stands) ▸ trips
  | drop here =>
      have calls := kept .dropped (fun curr stands => by rwa [here] at stands) (by simp [here])
      have before := decided_frame s ({ s with droppedCount := s.droppedCount + 1 }.setCall i call .dropped) decided rfl []
        (List.append_nil _).symm (by simp) calls
      refine ⟨fun c curr member => ?_, fun c member => ?_⟩
      · rcases List.mem_append.mp member with old | new
        · exact before.loaded c curr old
        · simp at new
      · rcases List.mem_append.mp member with old | new
        · exact before.dropped c old
        · have event : c = i := by simpa using new
          subst c
          exact ⟨_, List.getElem?_set_self bound, rfl⟩
  | push idx queue here inside free room =>
      exact decided_frame s _ decided rfl [_] rfl (by simp [Event.decides]) (kept _ (fun _ _ => trivial) (by simp [here]))
  | pass curr next here passes goes =>
      refine decided_frame s _ decided rfl [] (List.append_nil _).symm (by simp) (kept next ?_ (by simp [here]))
      rcases goes with rfl | rfl <;> exact fun _ _ => trivial
  | fail here =>
      refine decided_frame s _ decided rfl [] (List.append_nil _).symm (by simp)
        (kept .failed (fun _ _ => trivial) ?_)
      rcases here with here | ⟨idx, here⟩ <;> simp [here]
  | divide | outside => exact decided_frame s _ decided rfl [] (List.append_nil _).symm (by simp) same
  | backoff here | first here _ | spread here _ | rotate here | assign _ here _ | sample _ _ here _ | exchange _ _ _ here _ _
  | retry _ _ _ here _ | settle _ _ _ here _ | count here | signal here _ =>
      exact decided_frame s _ decided rfl [] (List.append_nil _).symm (by simp)
        (kept _ (fun _ _ => trivial) (by simp [here]))

theorem of_worker_undecided (event : Event T W) (worked : event.ofWorker = true) : event.decides = false := by
  cases event <;> first | rfl | simp [Event.ofWorker] at worked

theorem move_decided (s after : State T W) (action : Action T W) (moves : Move s action after)
    (fixed : ∀ cfg, action ≠ .updateConfig cfg) (decided : Decided s) : Decided after := by
  have same := same_decided s.calls s.cfg.trips
  cases moves with
  | submit owner payload wrappers sequential =>
      refine decided_frame s _ decided rfl [_] rfl (by simp [Event.decides]) fun c old present => ?_
      have bound := (List.getElem?_eq_some_iff.mp present).1
      exact ⟨old, (List.getElem?_append_left bound).trans present, fun _ stands => stands, fun stands => stands⟩
  | call _ i call after acts found moves => exact call_move_decided s after i call found moves decided
  | worker _ w pc after acts found moves =>
      obtain ⟨events, trace, worked⟩ := worker_move_emits s after w pc moves
      have silent := fun event member => of_worker_undecided event (worked event member)
      have side := worker_move_side s after w pc moves
      exact decided_frame s after decided side.cfg events trace silent (side.calls ▸ same)
  | destroy pc after here moves =>
      cases moves with
      | store | final => exact decided_frame s _ decided rfl [_] rfl (by simp [Event.decides]) same
      | _ => exact decided_frame s _ decided rfl [] (List.append_nil _).symm (by simp) same
  | updateConfig cfg => exact absurd rfl (fixed cfg)
  | registerCallback | getDroppedCount => exact decided_frame s _ decided rfl [_] rfl (by simp [Event.decides]) same
  | _ => exact decided_frame s _ decided rfl [] (List.append_nil _).symm (by simp) same

theorem solo_never_wraps (cfg : TaskProcessorConfig) (now : Int) (single : cfg.mode = .fifo ∨ cfg.numThreads = 1)
    (s : State T W) (reachable : Machine.Reachable step Serving (construct cfg now) s) : NeverWraps s := by
  have solo := reachable_solo Serving (fun _ _ allowed => allowed) cfg now single s reachable
  have counted := reachable_counted cfg now single s reachable
  have traced : Backed s.trace ∧ Decided s := by
    refine Machine.reachable_invariant step Serving _ (fun s => Backed s.trace ∧ Decided s) ?_ ?_ s reachable
    · refine ⟨fun k c curr found => ?_, fun c curr member => ?_, fun c member => ?_⟩
      · simp [construct] at found
      · simp [construct] at member
      · simp [construct] at member
    · intro before action after earlier both serving taken
      obtain ⟨backed, decided⟩ := both
      have moves := (step_move before after action taken).2
      refine ⟨move_backed before after action moves (reachable_ledger Serving cfg now before earlier)
        (reachable_counted cfg now single before earlier).exact backed, ?_⟩
      refine move_decided before after action moves ?_ decided
      rintro next rfl
      exact serving
  refine ⟨?_, ?_⟩
  · intro pc member held zero
    obtain ⟨w, found⟩ := List.mem_iff_getElem?.mp member
    have positive := (solo_unsubtracted s solo counted w pc found (by omega)).2
    rw [zero] at positive
    cases positive
  · intro k c curr found dropped
    obtain ⟨call, here, gone⟩ := traced.2.dropped c dropped
    obtain ⟨other, present, stands⟩ := traced.2.loaded c curr (List.mem_of_getElem? found)
    have same : other = call := Option.some.inj (present.symm.trans here)
    rw [same, gone] at stands
    have trips : s.cfg.trips curr = true := stands
    simp only [TaskProcessorConfig.trips, Bool.and_eq_true, decide_eq_true_eq] at trips
    have above := UInt64.le_iff_toNat_le.mp trips.2
    have backed := traced.1 k c curr found
    omega

theorem trips_zero (cfg : TaskProcessorConfig) : cfg.trips 0 = false := by
  by_cases zero : cfg.maxQueueSize = 0
  · simp [TaskProcessorConfig.trips, zero]
  · have above : ¬ cfg.maxQueueSize ≤ 0 := fun below => zero (UInt64.le_zero_iff.mp below)
    simp [TaskProcessorConfig.trips, above]

theorem backs_off_zero (cfg : TaskProcessorConfig) : cfg.backsOff 0 = false := by
  by_cases zero : cfg.backpressureThreshold = 0
  · simp [TaskProcessorConfig.backsOff, zero]
  · have above : ¬ cfg.backpressureThreshold ≤ 0 := fun below => zero (UInt64.le_zero_iff.mp below)
    simp [TaskProcessorConfig.backsOff, above]

theorem step_push (s : State T W) (i idx : Nat) (call : Call T W) (queue : List (TaskItem T W))
    (room : s.items < itemLimit) (sound : s.fault = false) (found : s.calls[i]? = some call)
    (here : call.pc = .push idx) (inside : s.queues[idx]? = some queue) (free : s.qmutexFree idx = true) :
    step s (.call i) =
      some (({ s with queues := s.queues.set idx (queue ++ [call.item i]) }.setCall i call (.sample idx)).emit
        (.pushed idx (call.item i) (queue.length + 1))) := by
  simp [step, sound, found, submitImpl, here, inside, free, room]

theorem step_lock (s : State T W) (w : Nat) (sound : s.fault = false) (found : s.workers[w]? = some .lock)
    (free : s.mutexFree = true) : step s (.worker w) = some (s.setWorker w .testRunning) := by
  simp [step, sound, found, processLoop, free]

-- Two submitters and the first two workers race; the other workers stand at
-- the top of their loops.
structure Race (T W : Type) where
  first : SubmitPc
  second : SubmitPc
  front : List (TaskItem T W)
  back : List (TaskItem T W)
  left : WorkerPc T W
  right : WorkerPc T W
  counter : UInt64
  hwm : UInt64
  rr : UInt64

def Race.state (cfg : TaskProcessorConfig) (now : Int) (payload : T) (idle : Nat) (race : Race T W)
    (log : List (Event T W)) : State T W :=
  { (construct cfg now : State T W) with
    queues := race.front :: race.back :: List.replicate idle []
    workers := race.left :: race.right :: List.replicate idle .loop
    calls := [⟨0, payload, [], race.first⟩, ⟨1, payload, [], race.second⟩]
    tasksInQueue := race.counter
    highWaterMark := race.hwm
    rrIndex := race.rr
    trace := log }

section
variable (cfg : TaskProcessorConfig) (now : Int) (payload : T) (idle : Nat)

theorem race_items (race : Race T W) (log : List (Event T W)) :
    (race.state cfg now payload idle log).items = race.front.length + race.back.length + (idle + 2) := by
  have none : total List.length (List.replicate idle ([] : List (TaskItem T W))) = 0 :=
    (total_eq_zero _ _).mpr (by simp)
  simp [Race.state, State.items, State.queued, none]

def Raced (race : Race T W) : Prop :=
  ∃ log, Machine.Reachable step Serving (construct cfg now) (race.state cfg now payload idle log)

theorem raced_step (before after : Race T W) (action : Action T W) (serving : ∀ s : State T W, Serving s action)
    (reached : Raced cfg now payload idle before)
    (taken : ∀ log, ∃ next, step (before.state cfg now payload idle log) action =
      some (after.state cfg now payload idle next)) : Raced cfg now payload idle after := by
  obtain ⟨log, reachable⟩ := reached
  obtain ⟨next, moved⟩ := taken log
  exact ⟨next, .step _ _ action reachable (serving _) moved⟩

theorem raced_load (threads : cfg.numThreads = idle + 2) :
    Raced cfg now payload idle (⟨.check 0, .check 0, [], [], .loop, .loop, 0, 0, 0⟩ : Race T W) := by
  have start : Raced cfg now payload idle (⟨.load, .load, [], [], .loop, .loop, 0, 0, 0⟩ : Race T W) := by
    refine ⟨[.submitted 0 0, .submitted 1 1], ?_⟩
    refine .step _ _ (.submit 1 payload []) (.step _ _ (.submit 0 payload []) .start trivial rfl) trivial ?_
    simp [step, construct, Race.state, threads, List.replicate_succ]
  have first := raced_step _ _ _ _ _ ⟨.check 0, .load, [], [], .loop, .loop, 0, 0, 0⟩ (.call 0) (fun _ => trivial) start
    fun log => ⟨_, rfl⟩
  exact raced_step _ _ _ _ _ _ (.call 1) (fun _ => trivial) first fun log => ⟨_, rfl⟩

-- With rr_index_ at 0 the first submitter picks queue 0, the second queue 1.
theorem raced_pick (spread : cfg.mode ≠ .fifo) (threads : cfg.numThreads = idle + 2) :
    Raced cfg now payload idle (⟨.push 0, .push 1, [], [], .loop, .loop, 0, 0, 2⟩ : Race T W) := by
  have loaded := raced_load (W := W) cfg now payload idle threads
  have some : cfg.numThreads ≠ 0 := by omega
  have one : 1 % cfg.numThreads = 1 := Nat.mod_eq_of_lt (by omega)
  have first := raced_step _ _ _ _ _ ⟨.pick, .check 0, [], [], .loop, .loop, 0, 0, 0⟩ (.call 0) (fun _ => trivial) loaded
    fun log => ⟨log, by simp [step, Race.state, construct, submitImpl, trips_zero, backs_off_zero]⟩
  have second := raced_step _ _ _ _ _ ⟨.pick, .pick, [], [], .loop, .loop, 0, 0, 0⟩ (.call 1) (fun _ => trivial) first
    fun log => ⟨log, by simp [step, Race.state, construct, submitImpl, trips_zero, backs_off_zero]⟩
  have chosen := raced_step _ _ _ _ _ ⟨.rotate, .pick, [], [], .loop, .loop, 0, 0, 0⟩ (.call 0) (fun _ => trivial) second
    fun log => ⟨log, by simp [step, Race.state, construct, submitImpl, spread]⟩
  have turned := raced_step _ _ _ _ _ ⟨.divide 0, .pick, [], [], .loop, .loop, 0, 0, 1⟩ (.call 0) (fun _ => trivial) chosen
    fun log => ⟨log, rfl⟩
  have front := raced_step _ _ _ _ _ ⟨.push 0, .pick, [], [], .loop, .loop, 0, 0, 1⟩ (.call 0) (fun _ => trivial) turned
    fun log => ⟨log, by simp [step, Race.state, construct, submitImpl, some]⟩
  have chooses := raced_step _ _ _ _ _ ⟨.push 0, .rotate, [], [], .loop, .loop, 0, 0, 1⟩ (.call 1) (fun _ => trivial) front
    fun log => ⟨log, by simp [step, Race.state, construct, submitImpl, spread]⟩
  have turns := raced_step _ _ _ _ _ ⟨.push 0, .divide 1, [], [], .loop, .loop, 0, 0, 2⟩ (.call 1) (fun _ => trivial) chooses
    fun log => ⟨log, rfl⟩
  exact raced_step _ _ _ _ _ _ (.call 1) (fun _ => trivial) turns
    fun log => ⟨log, by simp [step, Race.state, construct, submitImpl, some, one]⟩

theorem raced_count (spread : cfg.mode ≠ .fifo) (threads : cfg.numThreads = idle + 2)
    (fits : cfg.numThreads + 2 ≤ itemLimit) :
    Raced cfg now payload idle
      (⟨.signal, .push 1, [⟨payload, [], 0⟩], [], .loop, .loop, 1, 1, 2⟩ : Race T W) := by
  have picked := raced_pick (W := W) cfg now payload idle spread threads
  have room : ∀ log, (Race.state cfg now payload idle (⟨.push 0, .push 1, [], [], .loop, .loop, 0, 0, 2⟩ : Race T W)
      log).items < itemLimit := by
    intro log
    rw [race_items]
    simp only [List.length_nil]
    omega
  have pushed := raced_step _ _ _ _ _ ⟨.sample 0, .push 1, [⟨payload, [], 0⟩], [], .loop, .loop, 0, 0, 2⟩ (.call 0)
    (fun _ => trivial) picked fun log => ⟨_, step_push _ 0 0 _ _ (room log) rfl rfl rfl rfl rfl⟩
  have sampled := raced_step _ _ _ _ _ ⟨.exchange 0 1 0, .push 1, [⟨payload, [], 0⟩], [], .loop, .loop, 0, 0, 2⟩ (.call 0)
    (fun _ => trivial) pushed fun log => ⟨_, rfl⟩
  have exchanged := raced_step _ _ _ _ _ ⟨.count, .push 1, [⟨payload, [], 0⟩], [], .loop, .loop, 0, 1, 2⟩ (.call 0)
    (fun _ => trivial) sampled fun log => ⟨_, rfl⟩
  exact raced_step _ _ _ _ _ _ (.call 0) (fun _ => trivial) exchanged fun log => ⟨_, rfl⟩

-- Both workers see the one task that is counted.
theorem raced_test (spread : cfg.mode ≠ .fifo) (threads : cfg.numThreads = idle + 2)
    (fits : cfg.numThreads + 2 ≤ itemLimit) :
    Raced cfg now payload idle
      (⟨.signal, .push 1, [⟨payload, [], 0⟩], [], .own, .own, 1, 1, 2⟩ : Race T W) := by
  have counted := raced_count (W := W) cfg now payload idle spread threads fits
  have tests : ∀ left right : WorkerPc T W, left.holdsMutex = false → right.holdsMutex = false → ∀ log,
      State.mutexFree (Race.state cfg now payload idle ⟨.signal, .push 1, [⟨payload, [], 0⟩], [], left, right, 1, 1, 2⟩ log)
        = true := by
    intro left right outside beyond log
    have loops : (WorkerPc.loop : WorkerPc T W).holdsMutex = false := rfl
    simp [State.mutexFree, Race.state, outside, beyond, loops]
  have entered := raced_step _ _ _ _ _ ⟨.signal, .push 1, [⟨payload, [], 0⟩], [], .lock, .loop, 1, 1, 2⟩ (.worker 0)
    (fun _ => trivial) counted fun log => ⟨_, rfl⟩
  have locked := raced_step _ _ _ _ _ ⟨.signal, .push 1, [⟨payload, [], 0⟩], [], .testRunning, .loop, 1, 1, 2⟩ (.worker 0)
    (fun _ => trivial) entered fun log => ⟨log, step_lock _ 0 rfl rfl (tests .lock .loop rfl rfl log)⟩
  have runs := raced_step _ _ _ _ _ ⟨.signal, .push 1, [⟨payload, [], 0⟩], [], .testTasks, .loop, 1, 1, 2⟩ (.worker 0)
    (fun _ => trivial) locked fun log => ⟨_, rfl⟩
  have left := raced_step _ _ _ _ _ ⟨.signal, .push 1, [⟨payload, [], 0⟩], [], .own, .loop, 1, 1, 2⟩ (.worker 0)
    (fun _ => trivial) runs fun log => ⟨_, rfl⟩
  have enters := raced_step _ _ _ _ _ ⟨.signal, .push 1, [⟨payload, [], 0⟩], [], .own, .lock, 1, 1, 2⟩ (.worker 1)
    (fun _ => trivial) left fun log => ⟨_, rfl⟩
  have locks := raced_step _ _ _ _ _ ⟨.signal, .push 1, [⟨payload, [], 0⟩], [], .own, .testRunning, 1, 1, 2⟩ (.worker 1)
    (fun _ => trivial) enters fun log => ⟨log, step_lock _ 1 rfl rfl (tests .own .lock rfl rfl log)⟩
  have goes := raced_step _ _ _ _ _ ⟨.signal, .push 1, [⟨payload, [], 0⟩], [], .own, .testTasks, 1, 1, 2⟩ (.worker 1)
    (fun _ => trivial) locks fun log => ⟨_, rfl⟩
  exact raced_step _ _ _ _ _ _ (.worker 1) (fun _ => trivial) goes fun log => ⟨_, rfl⟩

-- The second worker pops a task that is pushed and not counted yet.
theorem raced_underflow (spread : cfg.mode ≠ .fifo) (threads : cfg.numThreads = idle + 2)
    (fits : cfg.numThreads + 2 ≤ itemLimit) :
    Raced cfg now payload idle
      (⟨.signal, .count, [], [], .processed ⟨payload, [], 0⟩, .subtract ⟨payload, [], 1⟩, 0, 1, 2⟩ : Race T W) := by
  have ready := raced_test (W := W) cfg now payload idle spread threads fits
  have room : ∀ log, (Race.state cfg now payload idle
      (⟨.signal, .push 1, [⟨payload, [], 0⟩], [], .own, .own, 1, 1, 2⟩ : Race T W) log).items < itemLimit := by
    intro log
    rw [race_items]
    simp only [List.length_cons, List.length_nil]
    omega
  have pushed := raced_step _ _ _ _ _
    ⟨.signal, .sample 1, [⟨payload, [], 0⟩], [⟨payload, [], 1⟩], .own, .own, 1, 1, 2⟩ (.call 1) (fun _ => trivial) ready
    fun log => ⟨_, step_push _ 1 1 _ _ (room log) rfl rfl rfl rfl rfl⟩
  have sampled := raced_step _ _ _ _ _
    ⟨.signal, .exchange 1 1 1, [⟨payload, [], 0⟩], [⟨payload, [], 1⟩], .own, .own, 1, 1, 2⟩ (.call 1) (fun _ => trivial)
    pushed fun log => ⟨_, rfl⟩
  have settled := raced_step _ _ _ _ _
    ⟨.signal, .count, [⟨payload, [], 0⟩], [⟨payload, [], 1⟩], .own, .own, 1, 1, 2⟩ (.call 1) (fun _ => trivial) sampled
    fun log => ⟨_, rfl⟩
  have popped := raced_step _ _ _ _ _
    ⟨.signal, .count, [], [⟨payload, [], 1⟩], .subtract ⟨payload, [], 0⟩, .own, 1, 1, 2⟩ (.worker 0) (fun _ => trivial)
    settled fun log => ⟨_, rfl⟩
  have subtracted := raced_step _ _ _ _ _
    ⟨.signal, .count, [], [⟨payload, [], 1⟩], .processed ⟨payload, [], 0⟩, .own, 0, 1, 2⟩ (.worker 0) (fun _ => trivial)
    popped fun log => ⟨log ++ [.subtracted 0 ⟨payload, [], 0⟩], by simp [step, Race.state, construct, processLoop]⟩
  exact raced_step _ _ _ _ _ _ (.worker 1) (fun _ => trivial) subtracted fun log => ⟨_, rfl⟩

end

-- The bound on the threads says that their frames and two tasks fit in the
-- address space.
theorem counter_never_wraps_iff [Inhabited T] (cfg : TaskProcessorConfig) (now : Int) (threads : 1 ≤ cfg.numThreads)
    (fits : cfg.numThreads + 2 ≤ itemLimit) :
    (∀ s : State T W, Machine.Reachable step Serving (construct cfg now) s → NeverWraps s) ↔
      cfg.mode = .fifo ∨ cfg.numThreads = 1 := by
  constructor
  · intro never
    by_contra neither
    rw [not_or] at neither
    obtain ⟨log, reachable⟩ := raced_underflow (W := W) cfg now (default : T) (cfg.numThreads - 2) neither.1
      (by omega) fits
    exact (never _ reachable).subtracts (.subtract ⟨default, [], 1⟩) (by simp [Race.state]) rfl rfl
  · intro single s reachable
    exact solo_never_wraps cfg now single s reachable

-- The worker has taken the only task and is about to subtract it.
theorem counter_never_wraps_fifo :
    ∃ s : State Nat Nat, Machine.Reachable step Serving (construct { numThreads := 4 } 0) s ∧
      .subtract ⟨7, [], 0⟩ ∈ s.workers ∧ s.tasksInQueue = 1 ∧ NeverWraps s := by
  obtain ⟨s, reachable, shown⟩ := Machine.run_exhibits step Serving (construct { numThreads := 4 } 0)
    ([[.submit 0 7 []], List.replicate 7 (.call 0), List.replicate 5 (.worker 0)].flatten : List (Action Nat Nat))
    (fun s => s.workers.contains (.subtract ⟨7, [], 0⟩) && s.tasksInQueue == 1) (by decide)
  simp only [Bool.and_eq_true, List.contains_iff_mem, beq_iff_eq] at shown
  have never := (counter_never_wraps_iff { numThreads := 4 } 0 (by decide) (by decide)).mpr (.inl rfl) s reachable
  exact ⟨s, reachable, shown.1, shown.2, never⟩

-- A worker woken for the first task takes the second one before it is
-- counted.
def earlyPop : List (Action Nat Nat) :=
  [[.submit 0 7 [], .submit 1 8 []], List.replicate 9 (.call 0), List.replicate 4 (.worker 0),
    List.replicate 4 (.worker 1), List.replicate 8 (.call 1), [.worker 0, .worker 0, .worker 1]].flatten

theorem counter_wraps_in_round_robin :
    ¬ ∀ s : State Nat Nat, Machine.Reachable step Serving (construct { numThreads := 2, mode := .roundRobin } 0) s →
      NeverWraps s := by
  intro claimed
  obtain ⟨s, reachable, shown⟩ := Machine.run_exhibits step Serving
    (construct { numThreads := 2, mode := .roundRobin } 0) earlyPop
    (fun s => s.workers.contains (.subtract ⟨8, [], 1⟩) && s.tasksInQueue == 0) (by decide)
  simp only [Bool.and_eq_true, beq_iff_eq, List.contains_iff_mem] at shown
  exact (claimed s reachable).subtracts _ shown.1 rfl shown.2

end Vectro.Pool
