import Vectro.PoolMoves

set_option autoImplicit false

namespace Vectro.Pool

variable {T W : Type}

def DestructorPc.signalled : DestructorPc → Bool
  | .alive | .signal => false
  | _ => true

-- The worker has read running_ as true under mutex_ and has not reached its
-- Wait yet.
def WorkerPc.committed : WorkerPc T W → Bool
  | .testTasks | .wait => true
  | _ => false

def WorkerPc.dozing : WorkerPc T W → Bool
  | .testTasks | .wait | .blocked => true
  | _ => false

def SignalsNoneCommitted (s : State T W) : Action T W → Prop
  | .destroy => s.destructor = .signal → ∀ pc ∈ s.workers, pc.committed = false
  | _ => True

instance (s : State T W) (action : Action T W) : Decidable (SignalsNoneCommitted s action) :=
  match action with
  | .destroy => inferInstanceAs (Decidable (s.destructor = .signal → ∀ pc ∈ s.workers, pc.committed = false))
  | .submit .. | .call .. | .callFails .. | .worker .. | .workerThrows .. | .workerSteals .. | .updateConfig ..
  | .registerCallback | .setFinalCallback | .getDroppedCount | .clock .. => isTrue trivial

structure Roused (s : State T W) : Prop where
  stopped : s.destructor ≠ .alive → s.running = false
  roused : s.destructor.signalled = true → ∀ pc ∈ s.workers, pc.dozing = false

theorem wake_not_dozing (workers : List (WorkerPc T W)) (settled : ∀ pc ∈ workers, pc.committed = false) :
    ∀ pc ∈ workers.map WorkerPc.wake, pc.dozing = false := by
  intro pc member
  obtain ⟨old, present, rfl⟩ := List.mem_map.mp member
  have free := settled old present
  cases old <;> first | rfl | simp [WorkerPc.committed] at free

theorem not_dozing_uncommitted (pc : WorkerPc T W) (awake : pc.dozing = false) : pc.committed = false := by
  cases pc <;> first | rfl | simp [WorkerPc.dozing] at awake

theorem signalled_not_alive (pc : DestructorPc) (signalled : pc.signalled = true) : pc ≠ .alive := by
  rintro rfl
  simp [DestructorPc.signalled] at signalled

theorem worker_move_roused (s after : State T W) (w : Nat) (pc : WorkerPc T W) (found : s.workers[w]? = some pc)
    (moves : WorkerMove s w pc after) (roused : Roused s) : Roused after := by
  have kept : ∀ next : WorkerPc T W, (s.destructor.signalled = true → next.dozing = false) →
      s.destructor.signalled = true → ∀ other ∈ s.workers.set w next, other.dozing = false := by
    intro next awake signalled
    exact Tally.forall_mem_set (fun pc => pc.dozing = false) s.workers w next (roused.roused signalled) (awake signalled)
  have here : s.destructor.signalled = true → pc.dozing = false := fun signalled =>
    roused.roused signalled pc (List.mem_of_getElem? found)
  cases moves with
  | alive alive =>
      refine ⟨roused.stopped, kept .testTasks fun signalled => ?_⟩
      have shut := roused.stopped (signalled_not_alive _ signalled)
      rw [alive] at shut
      cases shut
  | none zero => exact ⟨roused.stopped, kept .wait fun signalled => absurd (here signalled) (by simp [WorkerPc.dozing])⟩
  | wait => exact ⟨roused.stopped, kept .blocked fun signalled => absurd (here signalled) (by simp [WorkerPc.dozing])⟩
  | outside => exact ⟨roused.stopped, roused.roused⟩
  | _ => exact ⟨roused.stopped, kept _ fun _ => rfl⟩

theorem destructor_move_roused (s after : State T W) (pc : DestructorPc) (here : s.destructor = pc)
    (moves : DestructorMove s pc after) (clear : pc = .signal → ∀ pc ∈ s.workers, pc.committed = false)
    (roused : Roused s) : Roused after := by
  have shut : s.destructor ≠ .alive → s.running = false := roused.stopped
  rw [here] at shut
  have signalled : pc.signalled = true → ∀ pc ∈ s.workers, pc.dozing = false := here ▸ roused.roused
  cases moves with
  | store => exact ⟨fun _ => rfl, fun signalled => by simp [DestructorPc.signalled] at signalled⟩
  | signal => exact ⟨fun _ => shut (by simp), fun _ => wake_not_dozing s.workers (clear rfl)⟩
  | drain next pc stands goes =>
      have past : pc.signalled = true ∧ pc ≠ .alive := by
        rcases stands with rfl | ⟨start, rfl | rfl⟩ <;> simp [DestructorPc.signalled]
      exact ⟨fun _ => shut past.2, fun _ => signalled past.1⟩
  | _ => exact ⟨fun _ => shut (by simp), fun _ => signalled rfl⟩

theorem move_roused (s after : State T W) (action : Action T W) (moves : Move s action after)
    (clear : SignalsNoneCommitted s action) (roused : Roused s) : Roused after := by
  cases moves with
  | call _ i call after acts found moves =>
      cases moves with
      | signal here free =>
          refine ⟨roused.stopped, fun signalled => wake_not_dozing s.workers ?_⟩
          exact fun pc member => not_dozing_uncommitted pc (roused.roused signalled pc member)
      | _ => exact ⟨roused.stopped, roused.roused⟩
  | worker _ w pc after acts found moves => exact worker_move_roused s after w pc found moves roused
  | destroy pc after here moves =>
      exact destructor_move_roused s after pc here moves (fun signal => clear (here.trans signal)) roused
  | _ => exact ⟨roused.stopped, roused.roused⟩

theorem reachable_roused (cfg : TaskProcessorConfig) (now : Int) (s : State T W)
    (reachable : Machine.Reachable step SignalsNoneCommitted (construct cfg now) s) : Roused s := by
  refine Machine.reachable_invariant step SignalsNoneCommitted _ Roused ?_ ?_ s reachable
  · exact ⟨fun alive => absurd rfl alive, fun signalled => by simp [construct, DestructorPc.signalled] at signalled⟩
  · intro before action after _ roused clear taken
    exact move_roused before after action (step_move before after action taken).2 clear roused

end Vectro.Pool
