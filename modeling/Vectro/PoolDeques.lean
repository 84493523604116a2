import Vectro.Deque
import Vectro.Machine
import Vectro.PoolFifo

set_option autoImplicit false

namespace Vectro.Pool

open Deque

variable {T W : Type}

-- The worker is about to look into its own queue. Otherwise it takes a task as a
-- thief, also when the policy has named its own queue.
def WorkerPc.isOwn : WorkerPc T W → Bool
  | .own => true
  | _ => false

def Event.operation (s : State T W) : Event T W → Option (Nat × Op (TaskItem T W))
  | .pushed idx item _ => some (idx, .push item)
  | .taken w idx item => some (idx, if (s.workers[w]?).any WorkerPc.isOwn then .popFront item else .popBack item)
  | _ => none

-- What a step does to the queues.
def operations (s : State T W) (_ : Action T W) (after : State T W) : List (Nat × Op (TaskItem T W)) :=
  (after.trace.drop s.trace.length).filterMap (Event.operation s)

def opsOf (idx : Nat) (log : List (Nat × Op (TaskItem T W))) : List (Op (TaskItem T W)) :=
  log.filterMap fun entry => if entry.1 = idx then some entry.2 else none

def Event.leavesQueues : Event T W → Bool
  | .pushed .. | .taken .. => false
  | _ => true

inductive QueueStep (s after : State T W) : Prop where
  | quiet (events : List (Event T W)) (trace : after.trace = s.trace ++ events)
      (leaves : ∀ event ∈ events, event.leavesQueues = true) (queues : after.queues = s.queues)
  | push (idx : Nat) (queue : List (TaskItem T W)) (item : TaskItem T W) (size : Nat) (found : s.queues[idx]? = some queue)
      (queues : after.queues = s.queues.set idx (queue ++ [item])) (trace : after.trace = s.trace ++ [.pushed idx item size])
  | take (w : Nat) (queue : List (TaskItem T W)) (item : TaskItem T W) (own : s.workers[w]? = some .own)
      (found : s.queues[w]? = some (item :: queue)) (queues : after.queues = s.queues.set w queue)
      (trace : after.trace = s.trace ++ [.taken w w item])
  | steal (w vic : Nat) (queue : List (TaskItem T W)) (item : TaskItem T W) (thief : s.workers[w]? = some (.steal vic))
      (found : s.queues[vic]? = some (queue ++ [item])) (queues : after.queues = s.queues.set vic queue)
      (trace : after.trace = s.trace ++ [.taken w vic item])

theorem worker_move_queue_step (s after : State T W) (w : Nat) (pc : WorkerPc T W) (here : s.workers[w]? = some pc)
    (moves : WorkerMove s w pc after) : QueueStep s after := by
  cases moves with
  | take item rest found free => exact .take w rest item here found rfl rfl
  | steal vic queue item found free last =>
      have whole : queue.dropLast ++ [item] = queue := List.dropLast_append_getLast? item last
      exact .steal w vic queue.dropLast item here (by rw [whole]; exact found) rfl rfl
  | callback | wrapper | subtract | done | notify => exact .quiet [_] rfl (by simp [Event.leavesQueues]) rfl
  | _ => exact .quiet [] (List.append_nil _).symm (by simp) rfl

theorem call_move_queue_step (s after : State T W) (i : Nat) (call : Call T W) (moves : CallMove s i call after) : QueueStep s after := by
  cases moves with
  | push idx queue here found free room => exact .push idx queue (call.item i) _ found rfl rfl
  | load | drop => exact .quiet [_] rfl (by simp [Event.leavesQueues]) rfl
  | _ => exact .quiet [] (List.append_nil _).symm (by simp) rfl

theorem move_queue_step (s after : State T W) (action : Action T W) (moves : Move s action after) : QueueStep s after := by
  cases moves with
  | call _ i call after acts found moves => exact call_move_queue_step s after i call moves
  | worker _ w pc after acts found moves => exact worker_move_queue_step s after w pc found moves
  | destroy pc after here moves =>
      cases moves with
      | store | final => exact .quiet [_] rfl (by simp [Event.leavesQueues]) rfl
      | _ => exact .quiet [] (List.append_nil _).symm (by simp) rfl
  | submit | registerCallback | getDroppedCount => exact .quiet [_] rfl (by simp [Event.leavesQueues]) rfl
  | _ => exact .quiet [] (List.append_nil _).symm (by simp) rfl

def Deques (s : State T W) (log : List (Nat × Op (TaskItem T W))) : Prop :=
  ∀ idx queue, s.queues[idx]? = some queue → History (opsOf idx log) queue

theorem ops_of_append (idx at_ : Nat) (log : List (Nat × Op (TaskItem T W))) (op : Op (TaskItem T W)) :
    opsOf idx (log ++ [(at_, op)]) = if at_ = idx then opsOf idx log ++ [op] else opsOf idx log := by
  rw [opsOf, List.filterMap_append, ← opsOf]
  by_cases here : at_ = idx
  · simp [here]
  · simp [here]

theorem operations_quiet (s after : State T W) (action : Action T W) (events : List (Event T W))
    (trace : after.trace = s.trace ++ events) (leaves : ∀ event ∈ events, event.leavesQueues = true) : operations s action after = [] := by
  rw [operations, trace, List.drop_left, List.filterMap_eq_nil_iff]
  intro event member
  have silent := leaves event member
  cases event <;> first | rfl | cases silent

-- One queue changes, by one operation that its history allows.
theorem deques_set (s after : State T W) (log : List (Nat × Op (TaskItem T W))) (at_ : Nat) (old new : List (TaskItem T W))
    (op : Op (TaskItem T W)) (deques : Deques s log) (found : s.queues[at_]? = some old) (queues : after.queues = s.queues.set at_ new)
    (allows : History (opsOf at_ log) old → History (opsOf at_ log ++ [op]) new) : Deques after (log ++ [(at_, op)]) := by
  intro idx queue present
  rw [queues] at present
  rw [ops_of_append]
  by_cases here : at_ = idx
  · subst here
    rw [List.getElem?_set_self (List.getElem?_eq_some_iff.mp found).1] at present
    rw [if_pos rfl, ← Option.some.inj present]
    exact allows (deques at_ old found)
  · rw [List.getElem?_set_ne here] at present
    rw [if_neg here]
    exact deques idx queue present

theorem operations_single (s after : State T W) (action : Action T W) (event : Event T W) (trace : after.trace = s.trace ++ [event]) :
    operations s action after = (event.operation s).toList := by
  rw [operations, trace, List.drop_left]
  rfl

theorem operation_front (s : State T W) (w : Nat) (item : TaskItem T W) (own : s.workers[w]? = some .own) :
    Event.operation s (.taken w w item) = some (w, .popFront item) := by
  rw [Event.operation, own]
  rfl

theorem operation_back (s : State T W) (w vic : Nat) (item : TaskItem T W) (thief : s.workers[w]? = some (.steal vic)) :
    Event.operation s (.taken w vic item) = some (vic, .popBack item) := by
  rw [Event.operation, thief]
  rfl

theorem step_deques (s after : State T W) (action : Action T W) (log : List (Nat × Op (TaskItem T W))) (deques : Deques s log)
    (taken : step s action = some after) : Deques after (log ++ operations s action after) := by
  cases move_queue_step s after action (step_move s after action taken).2 with
  | quiet events trace leaves queues =>
      rw [operations_quiet s after action events trace leaves, List.append_nil, Deques, queues]
      exact deques
  | push idx queue item size found queues trace =>
      rw [operations_single s after action _ trace]
      exact deques_set s after log idx queue _ (.push item) deques found queues (.push _ queue item)
  | take w queue item own found queues trace =>
      rw [operations_single s after action _ trace, operation_front s w item own]
      exact deques_set s after log w _ queue (.popFront item) deques found queues (.popFront _ queue item)
  | steal w vic queue item thief found queues trace =>
      rw [operations_single s after action _ trace, operation_back s w vic item thief]
      exact deques_set s after log vic _ queue (.popBack item) deques found queues (.popBack _ queue item)

-- No configuration with work stealing comes into force.
def Unstealing : Action T W → Prop
  | .updateConfig cfg => cfg.mode ≠ .workStealing
  | _ => True

structure Plain (s : State T W) : Prop where
  mode : s.cfg.mode ≠ .workStealing
  plain : ∀ pc ∈ s.workers, pc.scanning = false

theorem worker_move_plain (s after : State T W) (w : Nat) (pc : WorkerPc T W) (found : s.workers[w]? = some pc)
    (moves : WorkerMove s w pc after) (plain : Plain s) : ∀ pc ∈ after.workers, pc.scanning = false := by
  have set : ∀ next : WorkerPc T W, next.scanning = false → ∀ other ∈ s.workers.set w next, other.scanning = false :=
    fun next => Tally.forall_mem_set (fun pc => pc.scanning = false) s.workers w next plain.plain
  have here := plain.plain pc (List.mem_of_getElem? found)
  cases moves with
  | scan stealing => exact absurd stealing plain.mode
  | vector | size | scanned | policy | steal | miss => simp [WorkerPc.scanning] at here
  | outside => exact plain.plain
  | _ => exact set _ rfl

theorem move_plain (s after : State T W) (action : Action T W) (moves : Move s action after) (unstealing : Unstealing action)
    (plain : Plain s) : Plain after := by
  refine ⟨?_, ?_⟩
  · rcases move_cfg s after action moves with same | ⟨cfg, rfl, same⟩
    · rw [same]
      exact plain.mode
    · rw [same]
      exact unstealing
  · cases moves with
    | call _ i call after acts found moves =>
        cases moves with
        | signal => exact wake_plain s.workers plain.plain
        | _ => exact plain.plain
    | worker _ w pc after acts found moves => exact worker_move_plain s after w pc found moves plain
    | destroy pc after here moves =>
        cases moves with
        | signal => exact wake_plain s.workers plain.plain
        | _ => exact plain.plain
    | _ => exact plain.plain

def Unstolen (log : List (Nat × Op (TaskItem T W))) : Prop := ∀ idx, backs (opsOf idx log) = []

theorem plain_unstolen (s after : State T W) (action : Action T W) (log : List (Nat × Op (TaskItem T W))) (plain : Plain s)
    (unstolen : Unstolen log) (taken : step s action = some after) : Unstolen (log ++ operations s action after) := by
  intro idx
  cases move_queue_step s after action (step_move s after action taken).2 with
  | quiet events trace leaves queues =>
      rw [operations_quiet s after action events trace leaves, List.append_nil]
      exact unstolen idx
  | push at_ queue item size found queues trace =>
      rw [operations_single s after action _ trace, Event.operation, Option.toList_some, ops_of_append]
      split
      · rw [backs_push]
        exact unstolen idx
      · exact unstolen idx
  | take w queue item own found queues trace =>
      rw [operations_single s after action _ trace, operation_front s w item own, Option.toList_some, ops_of_append]
      split
      · rw [backs_front]
        exact unstolen idx
      · exact unstolen idx
  | steal w vic queue item thief found queues trace =>
      have scanning := plain.plain _ (List.mem_of_getElem? thief)
      cases scanning

-- Each queue is a deque that the submitters fill, its worker empties from the
-- front and thieves from the back.
structure QueuesOrdered (s : State T W) (log : List (Nat × Op (TaskItem T W))) : Prop where
  history : ∀ idx queue, s.queues[idx]? = some queue → History (opsOf idx log) queue
  owner : ∀ idx queue, s.queues[idx]? = some queue → (fronts (opsOf idx log) ++ queue).Sublist (pushed (opsOf idx log))
  conserved : ∀ idx queue, s.queues[idx]? = some queue →
    (pushed (opsOf idx log)).Perm (fronts (opsOf idx log) ++ backs (opsOf idx log) ++ queue)
  newest : ∀ idx queue before later item, s.queues[idx]? = some queue → opsOf idx log = before ++ .popBack item :: later →
    ∃ rest, History before (rest ++ [item])

def QueuesPlain (s : State T W) (log : List (Nat × Op (TaskItem T W))) : Prop :=
  ∀ idx queue, s.queues[idx]? = some queue → pushed (opsOf idx log) = fronts (opsOf idx log) ++ queue

-- Without work stealing every queue is a plain one, also where UpdateConfig goes
-- back and forth between the other two modes.
theorem queues_are_deques (guard : Machine.Recorded (State T W) (Nat × Op (TaskItem T W)) → Action T W → Prop)
    (cfg : TaskProcessorConfig) (now : Int) (m : Machine.Recorded (State T W) (Nat × Op (TaskItem T W)))
    (reachable : Machine.Reachable (Machine.recorded step operations) guard ⟨construct cfg now, []⟩ m) :
    QueuesOrdered m.state m.log ∧
      (cfg.mode ≠ .workStealing → (∀ m action, guard m action → Unstealing action) → QueuesPlain m.state m.log) := by
  have deques : Deques m.state m.log := by
    apply (Machine.recorded_invariant step operations guard (construct cfg now) [] Deques _ _ m reachable).2
    · intro idx queue present
      have empty : queue = [] := List.eq_of_mem_replicate (List.mem_of_getElem? present)
      rw [empty]
      exact .start
    · intro before action after log _ deques _ taken
      exact step_deques before after action log deques taken
  refine ⟨⟨deques, ?_, ?_, ?_⟩, ?_⟩
  · intro idx queue present
    exact history_in_order _ queue (deques idx queue present)
  · intro idx queue present
    exact history_perm _ queue (deques idx queue present)
  · intro idx queue before later item present taken
    exact history_newest _ before later queue item (deques idx queue present) taken
  · intro mode unstealing idx queue present
    have unstolen : Plain m.state ∧ Unstolen m.log := by
      apply (Machine.recorded_invariant step operations guard (construct cfg now) [] (fun s log => Plain s ∧ Unstolen log) _ _ m
        reachable).2
      · refine ⟨⟨mode, ?_⟩, fun _ => rfl⟩
        intro pc member
        rw [List.eq_of_mem_replicate member]
        rfl
      · intro before action after log _ kept allowed taken
        exact ⟨move_plain before after action (step_move before after action taken).2 (unstealing _ action allowed) kept.1,
          plain_unstolen before after action log kept.1 kept.2 taken⟩
    exact history_fifo _ queue (deques idx queue present) (unstolen.2 idx)

def pairOfThieves : TaskProcessorConfig := { numThreads := 2, mode := .workStealing }

-- Queue 0 is given tasks 7 and 9. Worker 1 is done with its own task and steals 9
-- before worker 0 comes to 7.
def newestStolen : List (Action Nat Nat) :=
  [[.submit 0 7 [], .submit 1 8 [], .submit 2 9 []], List.replicate 10 (.call 0), List.replicate 10 (.call 1),
    List.replicate 10 (.call 2), List.replicate 21 (.worker 1), [.workerSteals 1 0, .worker 1], List.replicate 5 (.worker 0)].flatten

theorem newest_stolen_ordered :
    ∃ m : Machine.Recorded (State Nat Nat) (Nat × Op (TaskItem Nat Nat)),
      Machine.Reachable (Machine.recorded step operations) (fun _ _ => True) ⟨construct pairOfThieves 0, []⟩ m ∧
      opsOf 0 m.log = [.push ⟨7, [], 0⟩, .push ⟨9, [], 2⟩, .popBack ⟨9, [], 2⟩, .popFront ⟨7, [], 0⟩] ∧
      QueuesOrdered m.state m.log := by
  obtain ⟨m, reachable, shown⟩ := Machine.run_exhibits (Machine.recorded step operations) (fun _ _ => True)
    ⟨construct pairOfThieves 0, []⟩ newestStolen (fun m => decide (opsOf 0 m.log =
      [.push ⟨7, [], 0⟩, .push ⟨9, [], 2⟩, .popBack ⟨9, [], 2⟩, .popFront ⟨7, [], 0⟩])) (by decide)
  exact ⟨m, reachable, of_decide_eq_true shown, (queues_are_deques _ pairOfThieves 0 m reachable).1⟩

end Vectro.Pool
