import Vectro.SessionTeardown

set_option autoImplicit false

namespace Vectro.Session

variable {B : Type}

-- The step gets to a place where framer_ is dereferenced: Frame in AsyncSend,
-- OnData after a read that did not fail, and PrepareRead in StartRead.
def State.usesFramer (s : State B) : Action B → Bool
  | .asyncSend _ _ => true
  | .start _ _ => !s.shutdownInProgress
  | .readCompletes .failed _ => false
  | .readCompletes _ _ => !s.shutdownInProgress
  | .callbackReturns _ _ =>
      match s.stack with
      | .messages remaining :: _ => (remaining == 0 || !s.onMessage) && !s.shutdownInProgress
      | _ => false
  | _ => false

structure FramerSafe (allowed : Action B → Prop) (s : State B) : Prop where
  unfaulted : s.fault = false
  present : ∀ action after, allowed action → step s action = some after → s.usesFramer action = true → s.framer = true

-- The step runs Shutdown from its call of Close on, down to the resets: there was
-- no on_disconnect_ to call, or it has returned.
def State.cleansUp (s : State B) : Action B → Bool
  | .callbackReturns raises _ => !raises && s.stack.head? == some .disconnect
  | action => s.ends action && !s.onDisconnect

def cleanups (s : State B) (action : Action B) (_ : State B) : List Unit := if s.cleansUp action then [()] else []

-- AsyncSend does not look whether there is a framer. Nobody sends through a
-- session once a Shutdown has cleaned up.
def SendsBefore (m : Machine.Recorded (State B) Unit) : Action B → Prop
  | .asyncSend _ _ => m.log = []
  | _ => True

instance (m : Machine.Recorded (State B) Unit) (action : Action B) : Decidable (SendsBefore m action) :=
  match action with
  | .asyncSend .. => inferInstanceAs (Decidable (m.log = []))
  | .start .. | .enableWriteQueue .. | .close .. | .readCompletes .. | .writeCompletes .. | .queueCompletes .. | .readTimer ..
  | .idleTimer .. | .callbackReturns .. | .runWork .. | .runStrand => isTrue trivial

theorem dispatch_queue_framer (s : State B) (call : QueueCall B) (inline : Inline) :
    (s.dispatchQueue call inline).framer = s.framer := by
  obtain ⟨queue, strandWork, hands, same⟩ := dispatch_queue_frame s call inline
  rw [same]

theorem close_forced_framer (s : State B) (inline : Inline) : (s.closeForced inline).framer = s.framer := by
  by_cases marked : s.shutdownInProgress = true
  · rw [close_forced_again s inline marked]
    rfl
  · obtain ⟨queue, strandWork, hands, same, _⟩ := close_forced_frame s inline (eq_false_of_ne_true marked)
    rw [same]

theorem dispatch_forced_framer (s : State B) (inline : Inline) : (s.dispatchForced inline).framer = s.framer := by
  rw [State.dispatchForced]
  split
  · exact close_forced_framer s inline
  · rfl

theorem run_close_framer (s : State B) (force : Bool) (inline : Inline) : (s.runClose force inline).framer = s.framer := by
  cases force with
  | true => exact close_forced_framer s inline
  | false =>
      change (s.closeGraceful inline).framer = s.framer
      rw [State.closeGraceful]
      split
      · rfl
      · split
        · exact dispatch_queue_framer _ _ inline
        · split
          · exact dispatch_forced_framer _ inline
          · rfl

theorem write_next_framer (s : State B) (inline : Inline) : (s.writeNext inline).framer = s.framer := by
  rw [State.writeNext.eq_def]
  split
  · dsimp only
    split
    · exact dispatch_forced_framer _ inline
    · rfl
  · rfl

theorem send_framer (s : State B) (buffers : B) (inline : Inline) : (s.send buffers inline).framer = s.framer := by
  rw [State.send]
  split
  · exact dispatch_queue_framer _ _ inline
  · split
    · rfl
    · exact write_next_framer _ inline

theorem shutdown_framer (s : State B) (inline : Inline) (stays : s.shutdownInProgress = true ∨ s.onDisconnect = true) :
    (s.shutdown inline).framer = s.framer := by
  rw [State.shutdown]
  split
  · rfl
  · rename_i unmarked
    rw [if_pos (stays.resolve_left unmarked)]
    rfl

-- Only the cleanup releases the framer.
theorem step_framer (s after : State B) (action : Action B) (dirty : s.cleansUp action = false) (taken : step s action = some after) :
    after.framer = s.framer := by
  have reported : s.ends action = true → s.onDisconnect = true := by
    intro ends
    cases action with
    | callbackReturns raises inline => cases ends
    | _ => simpa [State.cleansUp, ends] using dirty
  refine step_preserves (fun after => after.framer = s.framer) s after action taken ?_ ?_ ?_ ?_ ?_ ?_ ?_ ?_ ?_ ?_ ?_ ?_ ?_
  · exact fun after aside => aside.framer
  · exact fun buffers inline _ _ => send_framer s buffers inline
  · exact fun _ _ => rfl
  · exact fun _ _ _ => rfl
  · exact fun force inline _ _ => run_close_framer s force inline
  · exact fun i force inline _ _ => run_close_framer { s with work := s.work.eraseIdx i } force inline
  · intro before inline aside registered ends
    exact (shutdown_framer before inline (.inr (registered.trans (reported ends)))).trans aside.framer
  · rintro before inline rfl aside waiting
    simp [State.cleansUp, waiting] at dirty
  · exact fun i buffers inline _ _ => write_next_framer { s.completed i buffers true with writeInProgress := false } inline
  · rintro i buffers inline rfl _ unmarked
    exact shutdown_framer (s.completed i buffers false) inline (.inr (reported (by simp [State.ends, unmarked])))
  · exact fun _ _ _ _ _ _ => rfl
  · exact fun _ _ _ _ _ => rfl
  · rintro call rest _ _
    cases call <;> rfl

theorem start_read_fault (s : State B) (marked : s.framer = false → s.shutdownInProgress = true) : s.startRead.fault = s.fault := by
  unfold State.startRead
  split
  · rfl
  · rename_i unmarked
    split
    · rfl
    · rename_i absent
      exact absurd (marked (eq_false_of_ne_true absent)) unmarked

theorem deliver_fault (s : State B) (count : Nat) (marked : s.framer = false → s.shutdownInProgress = true) :
    (s.deliver count).fault = s.fault := by
  cases count with
  | zero => exact start_read_fault s marked
  | succ remaining =>
      rw [State.deliver]
      split
      · rfl
      · exact start_read_fault s marked

theorem resume_fault (s : State B) (frame : Frame) (raises : Bool) (inline : Inline)
    (marked : s.framer = false → s.shutdownInProgress = true) : (s.resume frame raises inline).fault = s.fault := by
  cases frame with
  | messages remaining => exact deliver_fault s remaining marked
  | disconnect =>
      rw [State.resume]
      split
      · rfl
      · exact (finish_shutdown_steady s inline).fault

theorem read_completes_fault (s : State B) (result : ReadResult) (inline : Inline)
    (marked : s.framer = false → s.shutdownInProgress = true) : (s.readCompletes result inline).fault = s.fault := by
  unfold State.readCompletes
  dsimp only
  split
  · rfl
  · cases result with
    | failed => exact (shutdown_steady _ inline).fault
    | messages count => exact deliver_fault _ count marked
    | raised => rfl

theorem step_unfaulted (s after : State B) (action : Action B) (marked : Marked s)
    (sends : ∀ framed inline, action = .asyncSend framed inline → s.framer = true) (healthy : s.fault = false)
    (taken : step s action = some after) : after.fault = false := by
  by_cases writing : action.isWriting = true
  · exact (step_steady s after action writing taken).fault.trans healthy
  unfold step at taken
  rw [if_neg (by simp [healthy])] at taken
  rw [← healthy]
  cases action with
  | close | writeCompletes | queueCompletes | runWork | runStrand => exact absurd rfl writing
  | start onMessage onDisconnect =>
      obtain rfl := Option.some.inj taken
      exact start_read_fault { s with onMessage := onMessage, onDisconnect := onDisconnect } marked.framer
  | asyncSend framed inline =>
      obtain rfl := Option.some.inj taken
      unfold State.asyncSend
      rw [if_pos (sends framed inline rfl)]
      cases framed with
      | none => rfl
      | some buffers => exact (send_steady s buffers inline).fault
  | enableWriteQueue enable =>
      obtain rfl := Option.some.inj taken
      rfl
  | callbackReturns raises inline =>
      cases stack : s.stack with
      | nil => simp [stack] at taken
      | cons frame rest =>
          simp only [stack, Option.some.injEq] at taken
          subst taken
          exact resume_fault { s with stack := rest } frame raises inline marked.framer
  | readCompletes result inline =>
      simp only at taken
      split at taken
      · cases taken
      · obtain rfl := Option.some.inj taken
        exact read_completes_fault s result inline marked.framer
  | readTimer expired inline | idleTimer expired inline =>
      simp only at taken
      split at taken
      · cases taken
      · obtain rfl := Option.some.inj taken
        split
        · exact (shutdown_steady _ inline).fault
        · rfl

-- Every other use comes after a test of the flag, and while the flag is unset
-- there is a framer.
theorem uses_framer_present (s : State B) (action : Action B) (marked : Marked s)
    (sends : ∀ framed inline, action = .asyncSend framed inline → s.framer = true)
    (uses : s.usesFramer action = true) : s.framer = true := by
  have running : s.shutdownInProgress = false → s.framer = true := by
    intro unmarked
    by_contra absent
    exact Bool.false_ne_true (unmarked.symm.trans (marked.framer (eq_false_of_ne_true absent)))
  unfold State.usesFramer at uses
  split at uses
  · exact sends _ _ rfl
  · exact running (by simpa using uses)
  · cases uses
  · exact running (by simpa using uses)
  · split at uses
    · rw [Bool.and_eq_true] at uses
      exact running (by simpa using uses.2)
    · cases uses
  · cases uses

structure Framed (s : State B) (log : List Unit) : Prop where
  unfaulted : s.fault = false
  present : log = [] → s.framer = true

theorem step_framed (s after : State B) (action : Action B) (log : List Unit) (marked : Marked s) (framed : Framed s log)
    (before : SendsBefore ⟨s, log⟩ action) (taken : step s action = some after) : Framed after (log ++ cleanups s action after) where
  unfaulted := by
    apply step_unfaulted s after action marked _ framed.unfaulted taken
    rintro message inline rfl
    exact framed.present before
  present none := by
    obtain ⟨earlier, now⟩ := List.append_eq_nil_iff.mp none
    have dirty : s.cleansUp action = false := by
      by_contra cleans
      rw [cleanups, if_pos (eq_true_of_ne_false cleans)] at now
      cases now
    exact (step_framer s after action dirty taken).trans (framed.present earlier)

theorem framer_never_missing (useWriteQueue : Bool) (m : Machine.Recorded (State B) Unit)
    (reachable : Machine.Reachable (Machine.recorded step cleanups) SendsBefore ⟨construct useWriteQueue, []⟩ m) :
    FramerSafe (SendsBefore m) m.state := by
  obtain ⟨reached, framed⟩ := Machine.recorded_invariant step cleanups SendsBefore (construct useWriteQueue) [] Framed
    ⟨rfl, fun _ => rfl⟩ (fun before action after log earlier framed allowed taken =>
      step_framed before after action log (reachable_marked _ useWriteQueue before earlier) framed allowed taken) m reachable
  refine ⟨framed.unfaulted, fun action after before _ uses => ?_⟩
  apply uses_framer_present m.state action (reachable_marked _ useWriteQueue m.state reached) _ uses
  rintro message inline rfl
  exact framed.present before

-- A send from inside on_disconnect_ still finds the framer.
theorem framer_never_missing_disconnecting :
    ∃ m : Machine.Recorded (State Nat) Unit,
      Machine.Reachable (Machine.recorded step cleanups) SendsBefore ⟨construct false, []⟩ m ∧ m.state.framer = false ∧
      m.state.trace = [.disconnected, .sent 5, .handed 5, .closed true] ∧ m.log = [()] ∧ FramerSafe (SendsBefore m) m.state := by
  obtain ⟨m, reachable, shown⟩ := Machine.run_exhibits (Machine.recorded step cleanups) SendsBefore ⟨construct false, []⟩
    ([.start true true, .readCompletes .failed inlined, .asyncSend (some 5) inlined, .callbackReturns false inlined] :
      List (Action Nat))
    (fun m => decide (m.state.framer = false ∧ m.state.trace = [.disconnected, .sent 5, .handed 5, .closed true] ∧
      m.log = [()])) (by decide)
  obtain ⟨released, logged, cleaned⟩ := of_decide_eq_true shown
  exact ⟨m, reachable, released, logged, cleaned, framer_never_missing false m reachable⟩

-- The read fails, on_disconnect_ returns, and somebody who still holds the
-- session sends.
theorem send_after_shutdown_faults :
    ¬ ∀ s : State Nat, Machine.Reachable step (fun _ _ => True) (construct false) s → FramerSafe (fun _ => True) s := by
  intro claimed
  obtain ⟨s, reachable, shown⟩ := Machine.run_exhibits step (fun _ _ => True) (construct false)
    ([.start true true, .readCompletes .failed inlined, .callbackReturns false inlined, .asyncSend (some 5) inlined] :
      List (Action Nat)) (fun s => s.fault) (by decide)
  exact absurd ((claimed s reachable).unfaulted.symm.trans shown) (by decide)

end Vectro.Session
