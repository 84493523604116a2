import Vectro.SessionGraceful

set_option autoImplicit false

namespace Vectro.Session

variable {B : Type}

def Action.isSwitch : Action B → Bool
  | .enableWriteQueue _ => true
  | _ => false

theorem step_mode (s after : State B) (action : Action B) (fixed : action.isSwitch = false)
    (taken : step s action = some after) : after.useWriteQueue = s.useWriteQueue := by
  refine step_preserves (fun after => after.useWriteQueue = s.useWriteQueue) s after action taken ?_ ?_ ?_ ?_ ?_ ?_ ?_ ?_ ?_
    ?_ ?_ ?_ ?_
  · exact fun after aside => aside.useWriteQueue
  · exact fun buffers inline _ _ => (send_steady s buffers inline).useWriteQueue
  · rintro enable rfl
    cases fixed
  · exact fun _ _ _ => rfl
  · exact fun force inline _ _ => (run_close_steady s force inline).useWriteQueue
  · exact fun i force inline _ _ => (run_close_steady _ force inline).useWriteQueue
  · exact fun before inline aside _ _ => (shutdown_steady before inline).useWriteQueue.trans aside.useWriteQueue
  · exact fun before inline _ aside _ => (finish_shutdown_steady before inline).useWriteQueue.trans aside.useWriteQueue
  · exact fun i buffers inline _ _ => (write_next_steady _ inline).useWriteQueue
  · exact fun i buffers inline _ _ _ => (shutdown_steady _ inline).useWriteQueue
  · exact fun _ _ _ _ _ _ => rfl
  · exact fun _ _ _ _ _ => rfl
  · exact fun call rest _ _ => (run_queue_steady _ call).useWriteQueue

-- What is left of a graceful close that has not closed the socket yet: Close(true)
-- has been posted, or the write that will call it is going on.
def Pending (s : State B) : Prop :=
  s.useWriteQueue = false ∧ s.shutdownInProgress = false ∧ s.gracefulShutdown = true ∧
    (s.writeInProgress = false → s.writeDeque = [] → true ∈ s.work)

def Closing (s : State B) : Prop := (∃ event ∈ s.trace, event.isGraceful = true) → s.socketClosed = true ∨ Pending s

theorem graceful_before (log more : List (Event B)) (quiet : ∀ event ∈ more, event.isGraceful = false)
    (closed : ∃ event ∈ log ++ more, event.isGraceful = true) : ∃ event ∈ log, event.isGraceful = true := by
  obtain ⟨event, member, graceful⟩ := closed
  rcases List.mem_append.mp member with old | new
  · exact ⟨event, old, graceful⟩
  · exact absurd ((quiet event new).symm.trans graceful) (by decide)

theorem closing_frame (s after : State B) (closing : Closing s) (work : true ∈ s.work → true ∈ after.work)
    (trace : ∃ more, after.trace = s.trace ++ more ∧ ∀ event ∈ more, event.isGraceful = false)
    (mode : after.useWriteQueue = s.useWriteQueue := by rfl)
    (marked : after.shutdownInProgress = s.shutdownInProgress := by rfl)
    (graceful : after.gracefulShutdown = s.gracefulShutdown := by rfl)
    (socket : after.socketClosed = s.socketClosed := by rfl) (flag : after.writeInProgress = s.writeInProgress := by rfl)
    (deque : after.writeDeque = s.writeDeque := by rfl) : Closing after := by
  obtain ⟨more, log, quiet⟩ := trace
  intro closed
  rw [log] at closed
  rw [socket, Pending, mode, marked, graceful, flag, deque]
  rcases closing (graceful_before _ _ quiet closed) with shut | ⟨direct, unmarked, closes, waits⟩
  · exact .inl shut
  · exact .inr ⟨direct, unmarked, closes, fun idle empty => work (waits idle empty)⟩

theorem handed_ungraceful (hands : List B) : ∀ event ∈ List.map Event.handed hands, event.isGraceful = false := by
  intro event member
  obtain ⟨buffers, _, rfl⟩ := List.mem_map.mp member
  rfl

theorem run_queue_closing (s : State B) (call : QueueCall B) (closing : Closing s) : Closing (s.runQueue call) := by
  obtain ⟨queue, hands, same⟩ := run_queue_frame s call
  rw [same]
  exact closing_frame s _ closing id ⟨_, rfl, handed_ungraceful hands⟩

theorem dispatch_queue_closing (s : State B) (call : QueueCall B) (inline : Inline) (closing : Closing s) :
    Closing (s.dispatchQueue call inline) := by
  obtain ⟨queue, strandWork, hands, same⟩ := dispatch_queue_frame s call inline
  rw [same]
  exact closing_frame s _ closing id ⟨_, rfl, handed_ungraceful hands⟩

theorem close_forced_closing (s : State B) (inline : Inline)
    (closing : (∃ event ∈ s.trace, event.isGraceful = true) → s.shutdownInProgress = true → s.socketClosed = true) :
    Closing (s.closeForced inline) := by
  cases marked : s.shutdownInProgress with
  | true =>
      rw [close_forced_again s inline marked]
      intro closed
      exact .inl (closing (graceful_before _ [.closed true] (by simp [Event.isGraceful]) closed) marked)
  | false =>
      obtain ⟨queue, strandWork, hands, same, _⟩ := close_forced_frame s inline marked
      rw [same]
      exact fun _ => .inl rfl

-- Once Close(true) has been called, one way or the other, nothing is missing.
theorem dispatch_forced_closing (s : State B) (inline : Inline)
    (closing : (∃ event ∈ s.trace, event.isGraceful = true) → s.socketClosed = true ∨
      (s.useWriteQueue = false ∧ s.shutdownInProgress = false ∧ s.gracefulShutdown = true)) :
    Closing (s.dispatchForced inline) := by
  unfold State.dispatchForced
  split
  · apply close_forced_closing s inline
    intro closed marked
    rcases closing closed with shut | ⟨_, unmarked, _⟩
    · exact shut
    · exact absurd (marked.symm.trans unmarked) (by decide)
  · intro closed
    rcases closing closed with shut | ⟨direct, unmarked, closes⟩
    · exact .inl shut
    · exact .inr ⟨direct, unmarked, closes, fun _ _ => List.mem_append_right _ List.mem_cons_self⟩

theorem close_graceful_closing (s : State B) (inline : Inline)
    (allowed : (s.useWriteQueue = false ∧ s.shutdownInProgress = false) ∨ (s.socketClosed = true ∧ s.shutdownInProgress = true)) :
    Closing (s.closeGraceful inline) := by
  unfold State.closeGraceful
  dsimp only
  rcases allowed with ⟨direct, unmarked⟩ | ⟨shut, marked⟩
  · rw [if_neg (by simp [unmarked]), if_neg (by simp [direct])]
    split
    · exact dispatch_forced_closing _ inline fun _ => .inr ⟨direct, unmarked, rfl⟩
    · rename_i busy
      refine fun _ => .inr ⟨direct, unmarked, rfl, fun idle empty => ?_⟩
      have quiet : s.writeInProgress = false ∧ s.writeDeque = [] := ⟨idle, empty⟩
      exact absurd (by simp [quiet]) busy
  · rw [if_pos marked]
    exact fun _ => .inl shut

theorem write_next_closing (s : State B) (inline : Inline)
    (closing : (∃ event ∈ s.trace, event.isGraceful = true) → s.socketClosed = true ∨
      (s.useWriteQueue = false ∧ s.shutdownInProgress = false ∧ s.gracefulShutdown = true)) :
    Closing (s.writeNext inline) := by
  unfold State.writeNext
  split
  · dsimp only
    split
    · exact dispatch_forced_closing _ inline closing
    · rename_i lasting
      intro closed
      rcases closing closed with shut | ⟨_, _, closes⟩
      · exact .inl shut
      · exact absurd closes lasting
  · intro closed
    rcases closing (graceful_before _ [.handed _] (by simp [Event.isGraceful]) closed) with shut | ⟨direct, unmarked, closes⟩
    · exact .inl shut
    · exact .inr ⟨direct, unmarked, closes, fun idle => nomatch idle⟩

theorem send_closing (s : State B) (buffers : B) (inline : Inline) (closing : Closing s) : Closing (s.send buffers inline) := by
  have logged : Closing (s.emit (.sent buffers)) :=
    closing_frame s _ closing id ⟨_, rfl, by simp [Event.isGraceful]⟩
  unfold State.send
  dsimp only
  split
  · exact dispatch_queue_closing _ _ inline logged
  · split
    · rename_i busy
      intro closed
      rcases logged closed with shut | ⟨direct, unmarked, closes, _⟩
      · exact .inl shut
      · exact .inr ⟨direct, unmarked, closes, fun idle => absurd (busy.symm.trans idle) (by decide)⟩
    · apply write_next_closing _ inline
      intro closed
      rcases logged closed with shut | ⟨direct, unmarked, closes, _⟩
      · exact .inl shut
      · exact .inr ⟨direct, unmarked, closes⟩

-- With the flag set, a graceful close that ran has closed the socket.
theorem finish_shutdown_closing (s : State B) (inline : Inline) (marked : s.shutdownInProgress = true)
    (closing : Closing s) : Closing (s.finishShutdown inline) := by
  obtain ⟨queue, strandWork, work, closes, hands, same, forced, _⟩ := finish_shutdown_frame s inline marked
  rw [same]
  intro closed
  have before : ∃ event ∈ s.trace, event.isGraceful = true := by
    refine graceful_before _ _ (fun event member => ?_) closed
    rcases List.mem_append.mp member with closing | handing
    · obtain ⟨force, listed, rfl⟩ := List.mem_map.mp closing
      rw [forced force (List.mem_append_left _ listed)]
      rfl
    · exact handed_ungraceful hands event handing
  rcases closing before with shut | ⟨_, unmarked, _, _⟩
  · exact .inl shut
  · exact absurd (marked.symm.trans unmarked) (by decide)

theorem shutdown_closing (s : State B) (inline : Inline) (unclosed : ¬ ∃ event ∈ s.trace, event.isGraceful = true) :
    Closing (s.shutdown inline) := by
  unfold State.shutdown
  dsimp only
  split
  · exact fun closed => absurd closed unclosed
  · split
    · exact fun closed => absurd (graceful_before _ [.disconnected] (by simp [Event.isGraceful]) closed) unclosed
    · exact finish_shutdown_closing _ inline rfl fun closed => absurd closed unclosed

def State.runsGraceful (s : State B) : Action B → Bool
  | .close force inline => !force && inline.executor
  | .runWork i _ => s.work[i]? == some false
  | _ => false

-- The write queue drains without telling the session, and Shutdown sets the flag
-- that makes the Close(true) of the last write return. So a graceful close is
-- good in direct mode, while the session lasts, and if nothing fails after it.
def DrainsToClose (s : State B) (action : Action B) : Prop :=
  action.isSwitch = false ∧
  (s.runsGraceful action = true → (s.useWriteQueue = false ∧ s.shutdownInProgress = false) ∨ s.socketClosed = true) ∧
  (s.ends action = true → s.gracefulShutdown = false)

instance (s : State B) (action : Action B) : Decidable (DrainsToClose s action) :=
  inferInstanceAs (Decidable (_ ∧ _ ∧ _))

theorem step_closing (s after : State B) (action : Action B) (marked : Marked s) (closing : Closing s)
    (drains : DrainsToClose s action) (taken : step s action = some after) : Closing after := by
  obtain ⟨fixed, graceful, lasting⟩ := drains
  have silent : ∃ more, s.trace = s.trace ++ more ∧ ∀ event ∈ more, event.isGraceful = false :=
    ⟨[], (List.append_nil _).symm, by simp⟩
  have asides : ∀ after, Aside s after → Closing after := fun after aside =>
    closing_frame s after closing (fun waits => aside.work.symm ▸ waits) ⟨[], by rw [aside.trace, List.append_nil], by simp⟩
      aside.useWriteQueue aside.shutdownInProgress aside.gracefulShutdown aside.socketClosed aside.writeInProgress
      aside.writeDeque
  have tied : (∃ event ∈ s.trace, event.isGraceful = true) → s.shutdownInProgress = true → s.socketClosed = true := by
    intro closed flagged
    rcases closing closed with shut | ⟨_, unmarked, _, _⟩
    · exact shut
    · exact absurd (flagged.symm.trans unmarked) (by decide)
  have unclosed : s.ends action = true → ¬ ∃ event ∈ s.trace, event.isGraceful = true := by
    intro ends closed
    have unmarked := ends_unmarked s action ends
    rcases closing closed with shut | ⟨_, _, closes, _⟩
    · exact absurd ((marked.socket shut).symm.trans unmarked) (by decide)
    · exact absurd (closes.symm.trans (lasting ends)) (by decide)
  have runs : s.runsGraceful action = true → (s.useWriteQueue = false ∧ s.shutdownInProgress = false) ∨
      (s.socketClosed = true ∧ s.shutdownInProgress = true) := by
    intro here
    rcases graceful here with idle | shut
    · exact .inl idle
    · exact .inr ⟨shut, marked.socket shut⟩
  refine step_preserves Closing s after action taken asides ?_ ?_ ?_ ?_ ?_ ?_ ?_ ?_ ?_ ?_ ?_ ?_
  · exact fun buffers inline _ _ => send_closing s buffers inline closing
  · rintro enable rfl
    cases fixed
  · exact fun _ _ _ => closing_frame s _ closing (List.mem_append_left _) silent
  · rintro force inline rfl inside
    cases force with
    | true => exact close_forced_closing s inline tied
    | false => exact close_graceful_closing s inline (runs (by simp [State.runsGraceful, inside]))
  · rintro i force inline rfl found
    cases force with
    | true => exact close_forced_closing _ inline tied
    | false => exact close_graceful_closing _ inline (runs (by simp [State.runsGraceful, found]))
  · intro before inline aside _ ends
    apply shutdown_closing before inline
    rw [aside.trace]
    exact unclosed ends
  · exact fun before inline _ aside waiting => finish_shutdown_closing before inline
      (aside.shutdownInProgress.trans (marked.stack (List.mem_of_head? waiting))) (asides before aside)
  · intro i buffers inline _ _
    apply write_next_closing _ inline
    intro closed
    rcases closing (graceful_before _ [.completed buffers true] (by simp [Event.isGraceful]) closed) with
      shut | ⟨direct, unmarked, closes, _⟩
    · exact .inl shut
    · exact .inr ⟨direct, unmarked, closes⟩
  · rintro i buffers inline rfl _ unmarked
    apply shutdown_closing _ inline
    intro closed
    exact unclosed (by simp [State.ends, unmarked])
      (graceful_before _ [.completed buffers false] (by simp [Event.isGraceful]) closed)
  · intro i buffers inline _ _ flagged closed
    exact .inl (tied (graceful_before _ [.completed buffers false] (by simp [Event.isGraceful]) closed) flagged)
  · intro i entry ok _ _
    refine closing_frame s _ closing id ⟨_, List.append_assoc _ _ _, ?_⟩
    intro event member
    rcases List.mem_append.mp member with new | hands
    · rw [List.mem_singleton.mp new]
      rfl
    · exact handed_ungraceful _ event hands
  · intro call rest _ _
    exact run_queue_closing _ call (closing_frame s _ closing id silent)

theorem reachable_closing (useWriteQueue : Bool) (s : State B)
    (reachable : Machine.Reachable step DrainsToClose (construct useWriteQueue) s) :
    Closing s ∧ s.useWriteQueue = useWriteQueue := by
  refine Machine.reachable_invariant step DrainsToClose _ (fun s => Closing s ∧ s.useWriteQueue = useWriteQueue) ?_ ?_ s
    reachable
  · exact ⟨fun closed => by simp [construct] at closed, rfl⟩
  · intro before action after earlier held drains taken
    obtain ⟨closing, mode⟩ := held
    exact ⟨step_closing before after action (reachable_marked _ useWriteQueue before earlier) closing drains taken,
      (step_mode before after action drains.1 taken).trans mode⟩

structure Drained (s : State B) : Prop where
  direct : s.outstanding = [] ∧ s.writeDeque = []
  queue : s.queue.outstanding = [] ∧ s.queue.writeQueue = []
  work : s.work = [] ∧ s.strandWork = []

def GracefullyClosed (s : State B) : Prop :=
  (∃ event ∈ s.trace, event.isGraceful = true) → Drained s → s.socketClosed = true

theorem graceful_close_completes (useWriteQueue : Bool) (s : State B)
    (reachable : Machine.Reachable step DrainsToClose (construct useWriteQueue) s) : GracefullyClosed s := by
  intro closed drained
  obtain ⟨closing, mode⟩ := reachable_closing useWriteQueue s reachable
  rcases closing closed with shut | ⟨off, unmarked, _, waits⟩
  · exact shut
  · have same : useWriteQueue = false := mode.symm.trans off
    subst same
    have direct := reachable_direct DrainsToClose (fun s action drains => by
      cases action with
      | enableWriteQueue enable => cases drains.1
      | _ => trivial) s reachable
    have idle : s.writeInProgress = false := by
      by_contra busy
      have one := direct.flag unmarked (by simpa using busy)
      rw [drained.direct.1] at one
      cases one
    have posted := waits idle drained.direct.2
    rw [drained.work.1] at posted
    cases posted

-- In queue mode nobody closes the socket.
theorem graceful_close_forgotten :
    ¬ ∀ s : State Nat, Machine.Reachable step (fun _ action => action.isSwitch = false) (construct true) s →
      GracefullyClosed s := by
  intro claimed
  obtain ⟨s, reachable, shown⟩ := Machine.run_exhibits step (fun _ action => action.isSwitch = false) (construct true)
    ([.start true true, .asyncSend (some 7) inlined, .close false inlined, .queueCompletes 0 true] : List (Action Nat))
    (fun s => s.trace.any Event.isGraceful && s.outstanding == [] && s.writeDeque == [] && s.queue.outstanding == [] &&
      s.queue.writeQueue == [] && s.work == [] && s.strandWork == [] && !s.socketClosed) (by decide)
  simp only [Bool.and_eq_true, List.any_eq_true, beq_iff_eq, Bool.not_eq_true'] at shown
  obtain ⟨⟨⟨⟨⟨⟨⟨closed, writes⟩, waits⟩, queueWrites⟩, queueWaits⟩, work⟩, strand⟩, unclosed⟩ := shown
  have shut := claimed s reachable closed ⟨⟨writes, waits⟩, ⟨queueWrites, queueWaits⟩, ⟨work, strand⟩⟩
  exact absurd (unclosed.symm.trans shut) (by decide)

-- In direct mode the last write does.
theorem graceful_close_completes_drained :
    ∃ s : State Nat, Machine.Reachable step DrainsToClose (construct false) s ∧ Drained s ∧ s.socketClosed = true := by
  obtain ⟨s, reachable, shown⟩ := Machine.run_exhibits step DrainsToClose (construct false)
    ([.start true true, .asyncSend (some 7) inlined, .close false posted, .runWork 0 inlined, .asyncSend (some 8) inlined,
      .writeCompletes 0 true inlined, .writeCompletes 0 true posted, .runWork 0 inlined, .close false inlined] :
      List (Action Nat))
    (fun s => s.trace.any Event.isGraceful && s.outstanding == [] && s.writeDeque == [] && s.queue.outstanding == [] &&
      s.queue.writeQueue == [] && s.work == [] && s.strandWork == []) (by decide)
  simp only [Bool.and_eq_true, List.any_eq_true, beq_iff_eq] at shown
  obtain ⟨⟨⟨⟨⟨⟨closed, writes⟩, waits⟩, queueWrites⟩, queueWaits⟩, work⟩, strand⟩ := shown
  have drained : Drained s := ⟨⟨writes, waits⟩, ⟨queueWrites, queueWaits⟩, ⟨work, strand⟩⟩
  exact ⟨s, reachable, drained, graceful_close_completes false s reachable closed drained⟩

end Vectro.Session
