import Vectro.WriteQueue
import Vectro.Tally

set_option autoImplicit false

namespace Vectro.Stream

open Tally

variable {B H : Type}

-- The handler of a successful write will call DoWrite when it returns.
def Frame.success : Frame → Nat
  | .completed true => 1
  | _ => 0

def State.pending (s : State B H) : Nat := s.outstanding.length + total Frame.success s.stack

def ForcesIdle (s : State B H) : Action B H → Prop
  | .close true => s.pending = 0
  | _ => True

instance (s : State B H) (action : Action B H) : Decidable (ForcesIdle s action) :=
  match action with
  | .close true => inferInstanceAs (Decidable (s.pending = 0))
  | .close false | .asyncSend .. | .enableMaxQueue .. | .complete .. | .handlerReturns => isTrue trivial

structure Exclusive (s : State B H) : Prop where
  single : s.pending ≤ 1
  flagged : s.pending = 1 → s.writing = true

theorem exclusive_frame (s after : State B H) (exclusive : Exclusive s) (pending : after.pending = s.pending)
    (writing : after.writing = s.writing) : Exclusive after :=
  ⟨pending ▸ exclusive.single, fun one => writing ▸ exclusive.flagged (pending ▸ one)⟩

theorem pending_push (s : State B H) (frame : Frame) :
    State.pending { s with stack := frame :: s.stack } = s.pending + frame.success := by
  simp only [State.pending, total_cons]
  omega

theorem do_write_exclusive (s : State B H) (idle : s.pending = 0) : Exclusive s.doWrite := by
  rw [State.pending] at idle
  unfold State.doWrite
  split
  · refine ⟨?_, fun one => ?_⟩ <;> simp only [State.pending] at * <;> omega
  · refine ⟨?_, fun _ => rfl⟩
    simp only [State.pending, State.emit, List.length_append, List.length_singleton]
    omega

theorem resume_exclusive (s : State B H) (frame : Frame) (exclusive : Exclusive { s with stack := frame :: s.stack }) :
    Exclusive (s.resume frame) := by
  have pending := pending_push s frame
  cases frame with
  | completed ok =>
      cases ok with
      | true =>
          have single := exclusive.single
          rw [pending] at single
          exact do_write_exclusive s (Nat.le_zero.mp (Nat.le_of_succ_le_succ single))
      | false => exact exclusive_frame _ _ exclusive pending.symm rfl
  | rejected => exact exclusive_frame _ _ exclusive pending.symm rfl

theorem answer_exclusive (s : State B H) (entry : Entry B H) (ok : Bool) (frame : Frame)
    (exclusive : Exclusive { s with stack := frame :: s.stack }) : Exclusive (s.answer entry ok frame) := by
  unfold State.answer
  split
  · exact resume_exclusive s frame exclusive
  · exact exclusive_frame _ _ exclusive rfl rfl

theorem async_send_exclusive (s : State B H) (buffers : B) (handler : Option H) (exclusive : Exclusive s) :
    Exclusive (s.asyncSend buffers handler) := by
  unfold State.asyncSend
  split
  · exact answer_exclusive _ _ false .rejected (exclusive_frame s _ exclusive (pending_push _ .rejected) rfl)
  · split
    · exact exclusive_frame s _ exclusive rfl rfl
    · rename_i idle
      have single := exclusive.single
      have unflagged : ¬ s.pending = 1 := fun one => idle (exclusive.flagged one)
      exact do_write_exclusive _ (show s.pending = 0 by omega)

theorem complete_exclusive (s : State B H) (i : Nat) (entry : Entry B H) (ok : Bool) (quiet : s.stack = [])
    (found : s.outstanding[i]? = some entry) (exclusive : Exclusive s) : Exclusive (s.complete i entry ok) := by
  have inside := (List.getElem?_eq_some_iff.mp found).1
  have less : Frame.success (.completed ok) ≤ 1 := by cases ok <;> decide
  have shorter := List.length_eraseIdx_of_lt inside
  have single := exclusive.single
  have flagged := exclusive.flagged
  simp only [State.pending, quiet, total_nil] at single flagged
  refine answer_exclusive _ entry ok (.completed ok) ⟨?_, fun one => flagged ?_⟩
  · simp only [State.pending, State.emit, quiet, total_cons, total_nil, shorter]
    omega
  · simp only [State.pending, State.emit, quiet, total_cons, total_nil, shorter] at one
    omega

theorem reachable_exclusive (maxQueue : Nat) (s : State B H)
    (reachable : Machine.Reachable step ForcesIdle (construct maxQueue) s) : Exclusive s := by
  refine Machine.reachable_invariant step ForcesIdle _ Exclusive ?_ ?_ s reachable
  · exact ⟨Nat.zero_le _, fun one => by simp [State.pending, construct] at one⟩
  · intro before action after _ exclusive forces taken
    refine step_preserves Exclusive before after action taken ?_ ?_ ?_ ?_ ?_
    · exact fun buffers handler _ => async_send_exclusive before buffers handler exclusive
    · exact fun _ _ => exclusive_frame before _ exclusive rfl rfl
    · rintro force rfl
      cases force with
      | true =>
          have idle : before.pending = 0 := forces
          exact ⟨exclusive.single, fun one => absurd (idle.symm.trans one) (by decide)⟩
      | false => exact exclusive_frame before _ exclusive rfl rfl
    · intro i entry ok _ quiet found
      exact complete_exclusive before i entry ok quiet found exclusive
    · intro frame rest _ stack
      refine resume_exclusive { before with stack := rest } frame ⟨?_, ?_⟩
      · simpa only [State.pending, stack] using exclusive.single
      · simpa only [State.pending, stack] using exclusive.flagged

theorem one_write_outstanding (maxQueue : Nat) (s : State B H)
    (reachable : Machine.Reachable step ForcesIdle (construct maxQueue) s) : s.outstanding.length ≤ 1 :=
  Nat.le_trans (Nat.le_add_right _ _) (reachable_exclusive maxQueue s reachable).single

-- A send squeezed between a forced Close and the completion of the write it
-- cancels.
def squeezedSend : List (Action Nat Nat) := [.asyncSend 7 none, .close true, .asyncSend 8 none]

theorem writes_overlap_after_force :
    ¬ ∀ s : State Nat Nat, Machine.Reachable step (fun _ _ => True) (construct 1024) s → s.outstanding.length ≤ 1 := by
  intro claimed
  obtain ⟨s, reachable, shown⟩ := Machine.run_exhibits step (fun _ _ => True) (construct 1024) squeezedSend
    (fun s => s.outstanding.length == 2) (by decide)
  have single := claimed s reachable
  rw [beq_iff_eq.mp shown] at single
  exact absurd single (by decide)

theorem one_write_outstanding_queued :
    ∃ s : State Nat Nat, Machine.Reachable step ForcesIdle (construct 1024) s ∧
      s.writeQueue.map Entry.buffers = [9] ∧ s.outstanding.map Entry.buffers = [8] ∧ s.outstanding.length ≤ 1 := by
  obtain ⟨s, reachable, shown⟩ := Machine.run_exhibits step ForcesIdle (construct 1024)
    ([.close true, .asyncSend 7 (some 0), .asyncSend 8 none, .complete 0 true, .asyncSend 9 none, .handlerReturns] :
      List (Action Nat Nat))
    (fun s => s.writeQueue.map Entry.buffers == [9] && s.outstanding.map Entry.buffers == [8]) (by decide)
  simp only [Bool.and_eq_true, beq_iff_eq] at shown
  exact ⟨s, reachable, shown.1, shown.2, one_write_outstanding 1024 s reachable⟩

end Vectro.Stream
