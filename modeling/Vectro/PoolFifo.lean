import Vectro.PoolPlaces
import Vectro.PoolSolo

set_option autoImplicit false

namespace Vectro.Pool

open Traces

variable {T W : Type}

def KeepsConfig (_ : State T W) : Action T W → Prop
  | .updateConfig _ => False
  | _ => True

instance (s : State T W) (action : Action T W) : Decidable (KeepsConfig s action) :=
  match action with
  | .updateConfig .. => isFalse id
  | .submit .. | .call .. | .callFails .. | .worker .. | .workerThrows .. | .workerSteals .. | .destroy
  | .registerCallback | .setFinalCallback | .getDroppedCount | .clock .. => isTrue trivial

def WorkerPc.scanning : WorkerPc T W → Bool
  | .vector | .sizes _ _ | .policy _ | .steal _ => true
  | _ => false

def State.first (s : State T W) : WorkerPc T W := (s.workers[0]?).getD .loop

def State.front (s : State T W) : List (TaskItem T W) := (s.queues[0]?).getD []

-- What has been pushed is what is done, what worker 0 holds and what queue 0
-- still has, in this order.
structure Ordered (s : State T W) : Prop where
  mode : s.cfg.mode = .fifo
  plain : ∀ pc ∈ s.workers, pc.scanning = false
  order : pushedItems s.trace = processedItems s.trace ++ s.first.item.toList ++ s.front

theorem ordered_frame (s after : State T W) (ordered : Ordered s) (plain : ∀ pc ∈ after.workers, pc.scanning = false)
    (hand : after.first.item = s.first.item := by rfl) (mode : after.cfg = s.cfg := by rfl)
    (front : after.front = s.front := by rfl)
    (pushed : pushedItems after.trace = pushedItems s.trace := by first | rfl | exact filter_map_quiet _ _ _ rfl)
    (processed : processedItems after.trace = processedItems s.trace := by
      first | rfl | exact filter_map_quiet _ _ _ rfl) : Ordered after where
  mode := mode ▸ ordered.mode
  plain := plain
  order := by rw [pushed, processed, hand, front, ordered.order]

theorem wake_plain (workers : List (WorkerPc T W)) (plain : ∀ pc ∈ workers, pc.scanning = false) :
    ∀ pc ∈ workers.map WorkerPc.wake, pc.scanning = false := by
  intro pc member
  obtain ⟨old, known, rfl⟩ := List.mem_map.mp member
  have stays := plain old known
  cases old <;> exact stays

theorem wake_first (s after : State T W) (workers : after.workers = s.workers.map WorkerPc.wake) :
    after.first = s.first.wake := by
  rw [State.first, workers, List.getElem?_map, State.first]
  cases s.workers[0]? <;> rfl

theorem wake_item (pc : WorkerPc T W) : pc.wake.item = pc.item := by
  cases pc <;> rfl

theorem set_first (s after : State T W) (w : Nat) (pc next : WorkerPc T W) (found : s.workers[w]? = some pc)
    (workers : after.workers = s.workers.set w next) :
    (w = 0 ∧ s.first = pc ∧ after.first = next) ∨ (w ≠ 0 ∧ after.first = s.first) := by
  by_cases zero : w = 0
  · subst w
    refine .inl ⟨rfl, by rw [State.first, found]; rfl, ?_⟩
    rw [State.first, workers, List.getElem?_set_self (List.getElem?_eq_some_iff.mp found).1]
    rfl
  · refine .inr ⟨zero, ?_⟩
    rw [State.first, workers, List.getElem?_set_ne zero, State.first]

theorem set_front (s after : State T W) (queue next : List (TaskItem T W)) (inside : s.queues[0]? = some queue)
    (queues : after.queues = s.queues.set 0 next) : s.front = queue ∧ after.front = next := by
  refine ⟨by rw [State.front, inside]; rfl, ?_⟩
  rw [State.front, queues, List.getElem?_set_self (List.getElem?_eq_some_iff.mp inside).1]
  rfl

theorem call_move_ordered (s after : State T W) (i : Nat) (call : Call T W) (found : s.calls[i]? = some call)
    (moves : CallMove s i call after) (solo : Solo s) (ordered : Ordered s) : Ordered after := by
  cases moves with
  | push idx queue here inside free room =>
      have zero : idx = 0 := by
        have aims := solo.aims call (List.mem_of_getElem? found)
        rwa [here] at aims
      subst idx
      obtain ⟨before, grown⟩ := set_front s
        (({ s with queues := s.queues.set 0 (queue ++ [call.item i]) }.setCall i call (.sample 0)).emit
          (.pushed 0 (call.item i) (queue.length + 1))) queue (queue ++ [call.item i]) inside rfl
      refine ⟨ordered.mode, ordered.plain, ?_⟩
      have order := ordered.order
      rw [before] at order
      rw [grown]
      simp only [State.setCall, State.emit, pushedItems, processedItems, List.filterMap_append, List.filterMap_cons,
        List.filterMap_nil, List.append_nil]
      rw [← List.append_assoc]
      exact congrArg (· ++ [call.item i]) order
  | signal here free =>
      refine ordered_frame s _ ordered (wake_plain s.workers ordered.plain) ?_
      rw [wake_first s _ rfl, wake_item]
  | _ => exact ordered_frame s _ ordered ordered.plain

theorem worker_move_ordered (s after : State T W) (w : Nat) (pc : WorkerPc T W) (found : s.workers[w]? = some pc)
    (moves : WorkerMove s w pc after) (solo : Solo s) (ordered : Ordered s) : Ordered after := by
  have here := ordered.plain pc (List.mem_of_getElem? found)
  have plain : ∀ next : WorkerPc T W, next.scanning = false → ∀ other ∈ s.workers.set w next, other.scanning = false :=
    fun next => Tally.forall_mem_set (fun pc => pc.scanning = false) s.workers w next ordered.plain
  have hand : ∀ (after : State T W) (next : WorkerPc T W), after.workers = s.workers.set w next →
      next.item = pc.item → after.first.item = s.first.item := by
    intro after next workers same
    rcases set_first s after w pc next found workers with ⟨_, was, is⟩ | ⟨_, is⟩
    · rw [was, is, same]
    · rw [is]
  cases moves with
  | take item rest inside free =>
      have zero : w = 0 := by
        by_contra later
        exact absurd (solo.queues w _ inside later) (by simp)
      subst w
      have order := ordered.order
      obtain ⟨before, shrunk⟩ := set_front s
        (({ s with queues := s.queues.set 0 rest }.setWorker 0 (.subtract item)).emit (.taken 0 0 item)) _ rest inside rfl
      rcases set_first s (({ s with queues := s.queues.set 0 rest }.setWorker 0 (.subtract item)).emit (.taken 0 0 item))
        0 _ _ found rfl with ⟨_, was, is⟩ | ⟨differs, _⟩
      · refine ⟨ordered.mode, plain _ rfl, ?_⟩
        rw [before, was] at order
        rw [shrunk, is]
        simpa [pushedItems, processedItems, WorkerPc.item] using order
      · exact absurd rfl differs
  | done item =>
      rcases set_first s ((s.setWorker w .drops).emit (.processed w item)) w _ _ found rfl with ⟨_, was, is⟩ | ⟨later, _⟩
      · refine ⟨ordered.mode, plain _ rfl, ?_⟩
        have order := ordered.order
        have front : ((s.setWorker w .drops).emit (.processed w item)).front = s.front := rfl
        rw [was] at order
        rw [is, front]
        simpa [pushedItems, processedItems, WorkerPc.item] using order
      · exact absurd (solo.workers w _ found later) (by simp [WorkerPc.bystander])
  | scan stealing =>
      have fifo := ordered.mode
      rw [stealing] at fifo
      cases fifo
  | vector | size | scanned | policy | steal | miss => simp [WorkerPc.scanning] at here
  | outside => exact ordered_frame s _ ordered ordered.plain
  | _ => exact ordered_frame s _ ordered (plain _ rfl) (hand _ _ rfl rfl)

theorem move_ordered (s after : State T W) (action : Action T W) (moves : Move s action after)
    (fixed : KeepsConfig s action) (solo : Solo s) (ordered : Ordered s) : Ordered after := by
  cases moves with
  | call _ i call after acts found moves => exact call_move_ordered s after i call found moves solo ordered
  | worker _ w pc after acts found moves => exact worker_move_ordered s after w pc found moves solo ordered
  | destroy pc after here moves =>
      cases moves with
      | signal =>
          refine ordered_frame s _ ordered (wake_plain s.workers ordered.plain) ?_
          rw [wake_first s _ rfl, wake_item]
      | _ => exact ordered_frame s _ ordered ordered.plain
  | updateConfig cfg => exact absurd fixed id
  | _ => exact ordered_frame s _ ordered ordered.plain

theorem construct_first (cfg : TaskProcessorConfig) (now : Int) : (construct cfg now : State T W).first = .loop := by
  rw [State.first, construct, List.getElem?_replicate]
  split <;> rfl

theorem reachable_ordered (cfg : TaskProcessorConfig) (now : Int) (fifo : cfg.mode = .fifo) (s : State T W)
    (reachable : Machine.Reachable step KeepsConfig (construct cfg now) s) : Solo s ∧ Ordered s := by
  have solo : ∀ s : State T W, Machine.Reachable step KeepsConfig (construct cfg now) s → Solo s := fun s reached =>
    reachable_solo KeepsConfig (fun _ _ allowed => allowed) cfg now (.inl fifo) s reached
  refine ⟨solo s reachable, Machine.reachable_invariant step KeepsConfig _ Ordered ?_ ?_ s reachable⟩
  · refine ⟨fifo, ?_, ?_⟩
    · intro pc member
      rw [(List.mem_replicate.mp member).2]
      rfl
    · have empty : (construct cfg now : State T W).front = [] := by
        rw [State.front, construct, List.getElem?_replicate]
        split <;> rfl
      rw [construct_first, empty]
      rfl
  · intro before action after earlier ordered fixed taken
    exact move_ordered before after action (step_move before after action taken).2 fixed (solo before earlier) ordered

end Vectro.Pool
