import Vectro.PoolMoves

set_option autoImplicit false

namespace Vectro.Pool

open Tally Traces

variable {T W : Type}

def State.callTally (s : State T W) (weight : SubmitPc → Nat) : Nat := total (fun call => weight call.pc) s.calls

theorem call_tally_move (s after : State T W) (i : Nat) (call : Call T W) (found : s.calls[i]? = some call)
    (weight : SubmitPc → Nat) (pc : SubmitPc) (rewritten : after.calls = s.calls.set i { call with pc := pc })
    (old new : Nat) (before : weight call.pc = old) (now : weight pc = new) :
    after.callTally weight + old = s.callTally weight + new := by
  have moved := total_set (fun call : Call T W => weight call.pc) s.calls i call { call with pc := pc } found
  rw [State.callTally, rewritten, ← before, ← now]
  exact moved

theorem worker_total_move (s after : State T W) (w : Nat) (pc next : WorkerPc T W) (found : s.workers[w]? = some pc)
    (weight : WorkerPc T W → Nat) (rewritten : after.workers = s.workers.set w next)
    (old new : Nat) (before : weight pc = old) (now : weight next = new) :
    total weight after.workers + old = total weight s.workers + new := by
  rw [rewritten, ← before, ← now]
  exact total_set weight s.workers w pc next found

-- A task is in its queue before tasks_in_queue_ counts it and has left the
-- queue before it is uncounted; these are the threads caught in between.
def SubmitPc.uncounted : SubmitPc → Nat
  | .sample _ | .exchange _ _ _ | .count => 1
  | _ => 0

def WorkerPc.unsubtracted : WorkerPc T W → Nat
  | .subtract _ => 1
  | _ => 0

def State.uncounted (s : State T W) : Nat := s.callTally SubmitPc.uncounted

def State.unsubtracted (s : State T W) : Nat := total WorkerPc.unsubtracted s.workers

-- Tasks pushed and not yet subtracted.
def State.outstanding (s : State T W) : Nat := s.queued + s.unsubtracted

-- What one step does to the accounts. Only three statements touch them.
inductive Effect (s after : State T W) : Prop where
  | quiet (counter : after.tasksInQueue = s.tasksInQueue) (calls : after.uncounted = s.uncounted)
      (same : after.outstanding = s.outstanding) (pushed : pushedItems after.trace = pushedItems s.trace)
      (subtracted : subtractedItems after.trace = subtractedItems s.trace)
  | push (item : TaskItem T W) (counter : after.tasksInQueue = s.tasksInQueue)
      (calls : after.uncounted = s.uncounted + 1) (more : after.outstanding = s.outstanding + 1)
      (fits : after.outstanding ≤ itemLimit) (pushed : pushedItems after.trace = pushedItems s.trace ++ [item])
      (subtracted : subtractedItems after.trace = subtractedItems s.trace)
  | count (counter : after.tasksInQueue = s.tasksInQueue + 1) (calls : after.uncounted + 1 = s.uncounted)
      (same : after.outstanding = s.outstanding) (trace : after.trace = s.trace)
  | subtract (item : TaskItem T W) (held : 0 < s.unsubtracted) (counter : after.tasksInQueue = s.tasksInQueue - 1)
      (calls : after.uncounted = s.uncounted) (fewer : after.outstanding + 1 = s.outstanding)
      (pushed : pushedItems after.trace = pushedItems s.trace)
      (subtracted : subtractedItems after.trace = subtractedItems s.trace ++ [item])

-- What a step does not touch is told by computing; what it logs, if it logs
-- anything, is read by neither of the two counts.
theorem effect_frame (s after : State T W) (calls : after.uncounted = s.uncounted := by rfl)
    (workers : after.unsubtracted = s.unsubtracted := by rfl) (counter : after.tasksInQueue = s.tasksInQueue := by rfl)
    (queues : after.queues = s.queues := by rfl)
    (pushed : pushedItems after.trace = pushedItems s.trace := by first | rfl | exact filter_map_quiet _ _ _ rfl)
    (subtracted : subtractedItems after.trace = subtractedItems s.trace := by
      first | rfl | exact filter_map_quiet _ _ _ rfl) : Effect s after := by
  refine .quiet counter calls ?_ pushed subtracted
  rw [State.outstanding, State.queued, queues, workers, State.outstanding, State.queued]

theorem wake_unsubtracted (workers : List (WorkerPc T W)) :
    total WorkerPc.unsubtracted (workers.map WorkerPc.wake) = total WorkerPc.unsubtracted workers := by
  apply total_map
  intro pc
  cases pc <;> rfl

theorem push_outstanding (s after : State T W) (idx : Nat) (queue : List (TaskItem T W)) (item : TaskItem T W)
    (inside : s.queues[idx]? = some queue) (queues : after.queues = s.queues.set idx (queue ++ [item]))
    (workers : after.workers = s.workers) :
    after.outstanding = s.outstanding + 1 ∧ s.outstanding ≤ s.items := by
  have grown := total_set List.length s.queues idx queue (queue ++ [item]) inside
  have held : s.unsubtracted ≤ s.workers.length :=
    total_le_length _ (fun pc => by cases pc <;> simp [WorkerPc.unsubtracted]) s.workers
  rw [List.length_append, List.length_singleton] at grown
  constructor
  · rw [State.outstanding, State.queued, State.unsubtracted, queues, workers]
    rw [State.outstanding, State.queued, State.unsubtracted]
    omega
  · rw [State.outstanding, State.items]
    omega

theorem take_outstanding (s after : State T W) (idx : Nat) (queue rest : List (TaskItem T W))
    (inside : s.queues[idx]? = some queue) (shorter : queue.length = rest.length + 1)
    (queues : after.queues = s.queues.set idx rest) (workers : after.unsubtracted = s.unsubtracted + 1) :
    after.outstanding = s.outstanding := by
  have shrunk := total_set List.length s.queues idx queue rest inside
  rw [State.outstanding, State.queued, queues, workers, State.outstanding, State.queued]
  omega

theorem call_move_effect (s after : State T W) (i : Nat) (call : Call T W) (found : s.calls[i]? = some call)
    (moves : CallMove s i call after) : Effect s after := by
  have quiet : ∀ (next : State T W) (pc : SubmitPc), next.calls = s.calls.set i { call with pc := pc } →
      pc.uncounted = call.pc.uncounted → next.uncounted = s.uncounted := by
    intro next pc rewritten same
    exact Nat.add_right_cancel (call_tally_move s next i call found SubmitPc.uncounted pc rewritten _ _ rfl same)
  cases moves with
  | push idx queue here inside free room =>
      obtain ⟨more, bounded⟩ := push_outstanding s
        (({ s with queues := s.queues.set idx (queue ++ [call.item i]) }.setCall i call (.sample idx)).emit
          (.pushed idx (call.item i) (queue.length + 1))) idx queue (call.item i) inside rfl rfl
      refine .push (call.item i) rfl ?_ more (by omega) (filter_map_logs _ _ _ _ rfl) (filter_map_quiet _ _ _ rfl)
      exact call_tally_move s _ i call found SubmitPc.uncounted (.sample idx) rfl 0 1 (by rw [here]; rfl) rfl
  | count here =>
      exact .count rfl
        (call_tally_move s _ i call found SubmitPc.uncounted .signal rfl 1 0 (by rw [here]; rfl) rfl) rfl rfl
  | signal here free =>
      exact effect_frame s _ (quiet _ .returned rfl (by rw [here]; rfl)) (wake_unsubtracted s.workers)
  | divide | outside => exact effect_frame s _
  | pass curr next here passes goes =>
      refine effect_frame s _ (quiet _ next rfl ?_)
      rcases goes with rfl | rfl <;> rw [here] <;> rfl
  | fail here =>
      refine effect_frame s _ (quiet _ .failed rfl ?_)
      rcases here with here | ⟨idx, here⟩ <;> rw [here] <;> rfl
  | load here | trip _ here _ | drop here | backoff here | first here _ | spread here _ | rotate here | assign _ here _
  | sample _ _ here _ | exchange _ _ _ here _ _ | retry _ _ _ here _ | settle _ _ _ here _ =>
      exact effect_frame s _ (quiet _ _ rfl (by rw [here]; rfl))

theorem last_dropped (queue : List (TaskItem T W)) (item : TaskItem T W) (last : queue.getLast? = some item) :
    queue.length = queue.dropLast.length + 1 := by
  have nonempty : queue ≠ [] := fun empty => by simp [empty] at last
  have positive := List.length_pos_iff.mpr nonempty
  rw [List.length_dropLast]
  omega

theorem worker_move_outstanding (s after : State T W) (w : Nat) (pc : WorkerPc T W)
    (found : s.workers[w]? = some pc) (moves : WorkerMove s w pc after) :
    after.outstanding + pc.unsubtracted = s.outstanding := by
  have quiet : ∀ (after : State T W) (next : WorkerPc T W), after.workers = s.workers.set w next →
      after.queues = s.queues → next.unsubtracted = 0 → after.outstanding + pc.unsubtracted = s.outstanding := by
    intro after next rewritten queues none
    have moved := worker_total_move s after w pc next found WorkerPc.unsubtracted rewritten _ _ rfl none
    rw [State.outstanding, State.queued, queues, Nat.add_assoc, State.unsubtracted, moved]
    rfl
  cases moves with
  | take item rest inside free =>
      apply take_outstanding s _ w (item :: rest) rest inside rfl rfl
      exact worker_total_move s _ w _ (.subtract item) found WorkerPc.unsubtracted rfl 0 1 rfl rfl
  | steal vic queue item inside free last =>
      apply take_outstanding s _ vic queue queue.dropLast inside (last_dropped queue item last) rfl
      exact worker_total_move s _ w _ (.subtract item) found WorkerPc.unsubtracted rfl 0 1 rfl rfl
  | outside _ beyond =>
      rcases beyond with ⟨rfl, _⟩ | ⟨_, _, rfl, _⟩ | ⟨_, rfl, _⟩ <;> rfl
  | _ => exact quiet _ _ rfl rfl rfl

theorem worker_move_effect (s after : State T W) (w : Nat) (pc : WorkerPc T W) (found : s.workers[w]? = some pc)
    (moves : WorkerMove s w pc after) : Effect s after := by
  have outstanding := worker_move_outstanding s after w pc found moves
  cases moves with
  | subtract item =>
      have held := weight_le_total WorkerPc.unsubtracted s.workers _ (List.mem_of_getElem? found)
      exact .subtract item held rfl rfl outstanding (filter_map_quiet _ _ _ rfl) (filter_map_logs _ _ _ _ rfl)
  | outside => exact .quiet rfl rfl rfl rfl rfl
  | _ =>
      exact .quiet rfl rfl outstanding (by first | rfl | exact filter_map_quiet _ _ _ rfl)
        (by first | rfl | exact filter_map_quiet _ _ _ rfl)

theorem move_effect (s after : State T W) (action : Action T W) (moves : Move s action after) : Effect s after := by
  cases moves with
  | submit owner payload wrappers sequential =>
      refine effect_frame s _ ?_
      simp [State.uncounted, State.callTally, SubmitPc.uncounted]
  | call _ i call after acts found moves => exact call_move_effect s after i call found moves
  | worker _ w pc after acts found moves => exact worker_move_effect s after w pc found moves
  | destroy pc after here moves =>
      cases moves with
      | signal => exact effect_frame s _ rfl (wake_unsubtracted s.workers)
      | _ => exact effect_frame s _
  | _ => exact effect_frame s _

structure Ledger (s : State T W) : Prop where
  balanced : (s.tasksInQueue.toNat + s.uncounted) % 2 ^ 64 = s.outstanding % 2 ^ 64
  fits : s.outstanding ≤ itemLimit
  logged : (pushedItems s.trace).length = s.outstanding + (subtractedItems s.trace).length

theorem construct_outstanding (cfg : TaskProcessorConfig) (now : Int) :
    (construct cfg now : State T W).outstanding = 0 := by
  have empty : (construct cfg now : State T W).queued = 0 := by simp [State.queued, construct, total_eq_zero]
  have idle : (construct cfg now : State T W).unsubtracted = 0 := by
    simp [State.unsubtracted, construct, total_eq_zero, WorkerPc.unsubtracted]
  rw [State.outstanding, empty, idle]

theorem effect_ledger (s after : State T W) (effect : Effect s after) (ledger : Ledger s) : Ledger after := by
  have balanced := ledger.balanced
  have fits := ledger.fits
  have one : (1 : UInt64).toNat = 1 := rfl
  have logged := ledger.logged
  cases effect with
  | quiet counter calls same pushed subtracted =>
      exact ⟨by rw [counter, calls, same]; exact balanced, by omega, by rw [pushed, same, subtracted]; exact logged⟩
  | push item counter calls more fits pushed subtracted =>
      refine ⟨by rw [counter, calls, more]; omega, fits, ?_⟩
      rw [pushed, more, subtracted, List.length_append, List.length_singleton]
      omega
  | count counter calls same trace =>
      refine ⟨?_, by omega, by rw [trace, same]; exact logged⟩
      rw [counter, UInt64.toNat_add, one, same]
      omega
  | subtract item held counter calls fewer pushed subtracted =>
      have below := s.tasksInQueue.toNat_lt
      refine ⟨?_, by omega, ?_⟩
      · rw [counter, UInt64.toNat_sub, one, calls]
        omega
      · rw [pushed, subtracted, List.length_append, List.length_singleton]
        omega

theorem reachable_ledger (guard : State T W → Action T W → Prop) (cfg : TaskProcessorConfig) (now : Int)
    (s : State T W) (reachable : Machine.Reachable step guard (construct cfg now) s) : Ledger s := by
  refine Machine.reachable_invariant step guard _ Ledger ?_ ?_ s reachable
  · refine ⟨?_, ?_, ?_⟩ <;> rw [construct_outstanding]
    · rfl
    · exact Nat.zero_le _
    · rfl
  · intro before action after _ ledger _ taken
    exact effect_ledger before after (move_effect before after action (step_move before after action taken).2) ledger

end Vectro.Pool
