import Vectro.WriteQueueAnswers

set_option autoImplicit false

namespace Vectro.Stream

open Traces

variable {B H : Type}

-- EnableMaxQueue(false) is never called.
def Enforced (_ : State B H) : Action B H → Prop
  | .enableMaxQueue false => False
  | _ => True

instance (s : State B H) (action : Action B H) : Decidable (Enforced s action) :=
  match action with
  | .enableMaxQueue false => isFalse id
  | .enableMaxQueue true | .asyncSend .. | .close .. | .complete .. | .handlerReturns => isTrue trivial

structure Within (s : State B H) : Prop where
  enforced : s.maxQueueEnabled = true
  bounded : s.writeQueue.length ≤ s.maxQueueSize

theorem within_frame (s after : State B H) (within : Within s) (enabled : after.maxQueueEnabled = s.maxQueueEnabled := by rfl)
    (shorter : after.writeQueue.length ≤ s.writeQueue.length := by exact Nat.le_refl _)
    (limit : after.maxQueueSize = s.maxQueueSize := by rfl) : Within after :=
  ⟨enabled.trans within.enforced, limit ▸ Nat.le_trans shorter within.bounded⟩

theorem do_write_within (s : State B H) (within : Within s) : Within s.doWrite := by
  unfold State.doWrite
  split
  · refine within_frame s _ within rfl ?_
    simp only
    split
    · exact Nat.zero_le _
    · exact Nat.le_refl _
  · rename_i entry rest queue
    refine within_frame s _ within rfl ?_
    rw [queue]
    exact Nat.le_succ _

theorem resume_within (s : State B H) (frame : Frame) (within : Within s) : Within (s.resume frame) := by
  cases frame with
  | rejected => exact within
  | completed ok =>
      cases ok with
      | true => exact do_write_within s within
      | false => exact within_frame s _ within rfl (Nat.zero_le _)

theorem answer_within (s : State B H) (entry : Entry B H) (ok : Bool) (frame : Frame) (within : Within s) :
    Within (s.answer entry ok frame) := by
  unfold State.answer
  split
  · exact resume_within s frame within
  · exact within_frame s _ within

-- The queue is tested in the strand step that pushes.
theorem enqueue_within (s : State B H) (entry : Entry B H) (within : Within s) (room : s.full = false) :
    Within (s.enqueue entry) := by
  refine ⟨within.enforced, ?_⟩
  rw [State.full, within.enforced, Bool.true_and, decide_eq_false_iff_not] at room
  simp only [State.enqueue, State.emit, List.length_append, List.length_singleton]
  omega

theorem async_send_within (s : State B H) (buffers : B) (handler : Option H) (within : Within s) :
    Within (s.asyncSend buffers handler) := by
  unfold State.asyncSend
  cases room : s.full with
  | true => exact answer_within _ _ false .rejected (within_frame s _ within)
  | false =>
      have pushed : Within (State.enqueue { s with sends := s.sends + 1 } ⟨buffers, handler, s.sends⟩) :=
        enqueue_within _ _ (within_frame s _ within) room
      rw [if_neg Bool.false_ne_true]
      split
      · exact pushed
      · exact do_write_within _ pushed

theorem reachable_within (maxQueue : Nat) (s : State B H)
    (reachable : Machine.Reachable step Enforced (construct maxQueue) s) : Within s := by
  refine Machine.reachable_invariant step Enforced _ Within ⟨rfl, Nat.zero_le _⟩ ?_ s reachable
  intro before action after _ within enforced taken
  refine step_preserves Within before after action taken ?_ ?_ ?_ ?_ ?_
  · exact fun buffers handler _ => async_send_within before buffers handler within
  · rintro enable rfl
    cases enable with
    | true => exact ⟨rfl, within.bounded⟩
    | false => exact enforced.elim
  · intro force _
    cases force with
    | true => exact within_frame before _ within rfl (Nat.zero_le _)
    | false => exact within_frame before _ within
  · exact fun i entry ok _ _ _ => answer_within _ entry ok _ (within_frame before _ within)
  · exact fun frame rest _ _ => resume_within _ frame (within_frame before _ within)

-- What AsyncSend may not touch when it turns a send away.
structure Untouched (s after : State B H) : Prop where
  queue : after.writeQueue = s.writeQueue
  limit : after.maxQueueSize = s.maxQueueSize
  enabled : after.maxQueueEnabled = s.maxQueueEnabled
  writing : after.writing = s.writing
  graceful : after.gracefulShutdown = s.gracefulShutdown
  outstanding : after.outstanding = s.outstanding

-- A send is refused where enforcement is on and the queue is at its limit: its
-- handler is called, and nothing else happens, neither before the handler runs
-- nor after it has returned. Any other send is taken into the queue.
structure Exact (s : State B H) : Prop where
  refuses : ∀ buffers handler after, step s (.asyncSend buffers handler) = some after → s.full = true →
    Untouched s after ∧ after.stack = (handler.toList.map fun _ => .rejected) ++ s.stack ∧
      after.trace = s.trace ++ .rejected ⟨buffers, handler, s.sends⟩ :: handler.toList.map fun _ => .called s.sends false
  returns : ∀ rest after, s.stack = .rejected :: rest → step s .handlerReturns = some after → after = { s with stack := rest }
  once : ∀ entry ∈ refused s.trace, callsOf s.trace entry.send = entry.handler.toList.map fun _ => false
  accepts : ∀ buffers handler after, step s (.asyncSend buffers handler) = some after → s.full = false →
    accepted after.trace = accepted s.trace ++ [⟨buffers, handler, s.sends⟩] ∧
      handed after.trace ++ after.writeQueue = handed s.trace ++ s.writeQueue ++ [⟨buffers, handler, s.sends⟩]

theorem async_send_refuses (s : State B H) (buffers : B) (handler : Option H) (full : s.full = true) :
    s.asyncSend buffers handler =
      { s with sends := s.sends + 1, stack := (handler.toList.map fun _ => .rejected) ++ s.stack
               trace := s.trace ++ .rejected ⟨buffers, handler, s.sends⟩ :: handler.toList.map fun _ => .called s.sends false } := by
  rw [State.asyncSend, if_pos full]
  cases handler with
  | none => rfl
  | some handler => simp [State.answer, State.emit]

theorem async_send_accepts (s : State B H) (buffers : B) (handler : Option H) (room : s.full = false) :
    accepted (s.asyncSend buffers handler).trace = accepted s.trace ++ [⟨buffers, handler, s.sends⟩] ∧
      handed (s.asyncSend buffers handler).trace ++ (s.asyncSend buffers handler).writeQueue =
        handed s.trace ++ s.writeQueue ++ [⟨buffers, handler, s.sends⟩] := by
  have accepts : accepted (s.trace ++ [.accepted ⟨buffers, handler, s.sends⟩]) =
      accepted s.trace ++ [⟨buffers, handler, s.sends⟩] := filter_map_logs _ _ _ _ rfl
  have hands : handed (s.trace ++ [.accepted ⟨buffers, handler, s.sends⟩]) = handed s.trace := filter_map_quiet _ _ _ rfl
  rw [State.asyncSend, if_neg (Bool.eq_false_iff.mp room)]
  split
  · refine ⟨accepts, ?_⟩
    simp only [State.enqueue, State.emit, hands, List.append_assoc]
  · rw [do_write_accepts, do_write_hands]
    refine ⟨accepts, ?_⟩
    simp only [State.enqueue, State.emit, hands, List.append_assoc]

theorem backpressure_exact (maxQueue : Nat) :
    (∀ s : State B H, Machine.Reachable step Enforced (construct maxQueue) s → s.writeQueue.length ≤ s.maxQueueSize) ∧
    ∀ s : State B H, Machine.Reachable step (fun _ _ => True) (construct maxQueue) s → Exact s := by
  refine ⟨fun s reachable => (reachable_within maxQueue s reachable).bounded, fun s reachable => ⟨?_, ?_, ?_, ?_⟩⟩
  · intro buffers handler after taken full
    obtain rfl := Option.some.inj taken
    rw [async_send_refuses s buffers handler full]
    exact ⟨⟨rfl, rfl, rfl, rfl, rfl, rfl⟩, rfl, rfl⟩
  · intro rest after stack taken
    rw [step, stack] at taken
    exact (Option.some.inj taken).symm
  · exact (reachable_told _ maxQueue s reachable).told
  · intro buffers handler after taken room
    obtain rfl := Option.some.inj taken
    exact async_send_accepts s buffers handler room

-- One write is outstanding and one is queued. The handler of the send that is
-- turned away sends again, and is turned away again.
theorem backpressure_exact_reentrant :
    ∃ s : State Nat Nat, Machine.Reachable step Enforced (construct 1) s ∧
      s.full = true ∧ s.stack = [.rejected, .rejected] ∧ s.writeQueue.length ≤ s.maxQueueSize ∧ Exact s := by
  obtain ⟨s, reachable, shown⟩ := Machine.run_exhibits step Enforced (construct 1)
    ([.asyncSend 7 none, .asyncSend 8 none, .asyncSend 9 (some 0), .asyncSend 10 (some 1)] : List (Action Nat Nat))
    (fun s => s.full && s.stack == [.rejected, .rejected]) (by decide)
  simp only [Bool.and_eq_true, beq_iff_eq] at shown
  obtain ⟨bounded, exact⟩ := backpressure_exact (B := Nat) (H := Nat) 1
  exact ⟨s, reachable, shown.1, shown.2, bounded s reachable,
    exact s (Machine.reachable_weaken step Enforced _ _ (fun _ _ _ _ => trivial) s reachable)⟩

end Vectro.Stream
