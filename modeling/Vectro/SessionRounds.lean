import Mathlib.Data.List.Infix
import Vectro.SessionTeardown

set_option autoImplicit false

namespace Vectro.Session

variable {B : Type}

-- The calls of the read path on the framer.
inductive FramerCall where
  | prepareRead
  | onData (raised : Bool)
deriving DecidableEq, Repr

def State.readCalls (s : State B) : List FramerCall := if s.shutdownInProgress then [] else [.prepareRead]

def State.deliverCalls (s : State B) : Nat → List FramerCall
  | 0 => s.readCalls
  | _ + 1 => if s.onMessage then [] else s.readCalls

def State.completionCalls (s : State B) (result : ReadResult) : List FramerCall :=
  if s.shutdownInProgress then []
  else match result with
  | .failed => []
  | .messages count => .onData false :: s.deliverCalls count
  | .raised => [.onData true]

def State.resumeCalls (s : State B) : List Frame → List FramerCall
  | .messages remaining :: _ => s.deliverCalls remaining
  | _ => []

def framerCalls (s : State B) (action : Action B) (_ : State B) : List FramerCall :=
  match action with
  | .start _ _ => s.readCalls
  | .readCompletes result _ => s.completionCalls result
  | .callbackReturns _ _ => s.resumeCalls s.stack
  | _ => []

-- Start is called once; again only if the session had been shut down before.
def StartsOnce (m : Machine.Recorded (State B) FramerCall) : Action B → Prop
  | .start _ _ => m.log = []
  | _ => True

instance (m : Machine.Recorded (State B) FramerCall) (action : Action B) : Decidable (StartsOnce m action) :=
  match action with
  | .start _ _ => inferInstanceAs (Decidable (_ = _))
  | .asyncSend _ _ | .enableWriteQueue _ | .close _ _ | .readCompletes _ _ | .writeCompletes _ _ _ | .queueCompletes _ _
  | .readTimer _ _ | .idleTimer _ _ | .callbackReturns _ _ | .runWork _ _ | .runStrand => isTrue trivial

inductive Stage where
  | unstarted
  | reading
  | delivering
  | lost
deriving DecidableEq, Repr

-- The protocol of the framer: a buffer is asked for, filled and worked off before
-- the next one is asked for. Nothing follows a call of OnData that raises.
inductive InRounds : List FramerCall → Stage → Prop where
  | unstarted : InRounds [] .unstarted
  | first : InRounds [.prepareRead] .reading
  | again (log : List FramerCall) : InRounds log .delivering → InRounds (log ++ [.prepareRead]) .reading
  | data (log : List FramerCall) : InRounds log .reading → InRounds (log ++ [.onData false]) .delivering
  | raised (log : List FramerCall) : InRounds log .reading → InRounds (log ++ [.onData true]) .lost

def Frame.isMessages : Frame → Bool
  | .messages _ => true
  | .disconnect => false

def State.delivering (s : State B) : Nat := s.stack.countP Frame.isMessages

-- Where the session is in the protocol. Once it is shut down, a round may stay
-- open.
def State.At (s : State B) : Stage → Prop
  | .unstarted => s.reads = 0 ∧ s.delivering = 0
  | .reading => s.delivering = 0 ∧ s.reads ≤ 1 ∧ (s.shutdownInProgress = false → s.reads = 1)
  | .delivering => s.reads = 0 ∧ s.delivering ≤ 1 ∧ (s.shutdownInProgress = false → s.delivering = 1)
  | .lost => s.reads = 0 ∧ s.delivering = 0

def Placed (s : State B) (log : List FramerCall) : Prop := ∃ stage, InRounds log stage ∧ s.At stage

-- A step that leaves the read and the messages alone, and forgets no event.
structure Still (s after : State B) : Prop where
  reads : after.reads = s.reads
  delivering : after.delivering = s.delivering
  shutdownInProgress : s.shutdownInProgress = true → after.shutdownInProgress = true
  trace : s.trace <+: after.trace

theorem same_still (s after : State B)
    (same : (after.reads, after.stack, after.shutdownInProgress, after.trace) = (s.reads, s.stack, s.shutdownInProgress, s.trace)) :
    Still s after := by
  obtain ⟨reads, stack, marked, trace⟩ : after.reads = s.reads ∧ after.stack = s.stack ∧
      after.shutdownInProgress = s.shutdownInProgress ∧ after.trace = s.trace := by simpa only [Prod.mk.injEq] using same
  refine ⟨reads, ?_, marked.trans, ?_⟩
  · rw [State.delivering, State.delivering, stack]
  · rw [trace]

theorem still_trans (s middle after : State B) (first : Still s middle) (second : Still middle after) : Still s after where
  reads := second.reads.trans first.reads
  delivering := second.delivering.trans first.delivering
  shutdownInProgress marked := second.shutdownInProgress (first.shutdownInProgress marked)
  trace := first.trace.trans second.trace

theorem still_from (s middle after : State B) (still : Still middle after)
    (same : (middle.reads, middle.stack, middle.shutdownInProgress, middle.trace) = (s.reads, s.stack, s.shutdownInProgress, s.trace)) :
    Still s after :=
  still_trans s middle after (same_still s middle same) still

theorem emit_still (s : State B) (event : Event B) : Still s (s.emit event) :=
  ⟨rfl, rfl, id, List.prefix_append _ _⟩

theorem still_at (s after : State B) (stage : Stage) (still : Still s after) (here : s.At stage) : after.At stage := by
  have open' : after.shutdownInProgress = false → s.shutdownInProgress = false := by
    intro unmarked
    by_contra marked
    exact absurd (unmarked.symm.trans (still.shutdownInProgress (eq_true_of_ne_false marked))) (by decide)
  cases stage with
  | unstarted | lost => exact ⟨still.reads.trans here.1, still.delivering.trans here.2⟩
  | reading =>
      rw [State.At, still.reads, still.delivering]
      exact ⟨here.1, here.2.1, fun unmarked => here.2.2 (open' unmarked)⟩
  | delivering =>
      rw [State.At, still.reads, still.delivering]
      exact ⟨here.1, here.2.1, fun unmarked => here.2.2 (open' unmarked)⟩

theorem run_queue_still (s : State B) (call : QueueCall B) : Still s (s.runQueue call) := by
  obtain ⟨queue, hands, same⟩ := run_queue_frame s call
  rw [same]
  exact ⟨rfl, rfl, id, List.prefix_append _ _⟩

theorem dispatch_queue_still (s : State B) (call : QueueCall B) (inline : Inline) : Still s (s.dispatchQueue call inline) := by
  obtain ⟨queue, strandWork, hands, same⟩ := dispatch_queue_frame s call inline
  rw [same]
  exact ⟨rfl, rfl, id, List.prefix_append _ _⟩

theorem close_forced_still (s : State B) (inline : Inline) : Still s (s.closeForced inline) := by
  by_cases marked : s.shutdownInProgress = true
  · rw [close_forced_again s inline marked]
    exact emit_still s (.closed true)
  · obtain ⟨queue, strandWork, hands, same, _⟩ := close_forced_frame s inline (eq_false_of_ne_true marked)
    rw [same]
    exact ⟨rfl, rfl, fun _ => rfl, List.prefix_append _ _⟩

theorem dispatch_forced_still (s : State B) (inline : Inline) : Still s (s.dispatchForced inline) := by
  rw [State.dispatchForced]
  split
  · exact close_forced_still s inline
  · exact same_still s _ rfl

theorem run_close_still (s : State B) (force : Bool) (inline : Inline) : Still s (s.runClose force inline) := by
  cases force with
  | true => exact close_forced_still s inline
  | false =>
      change Still s (s.closeGraceful inline)
      rw [State.closeGraceful]
      split
      · exact emit_still s (.closed false)
      · have marked : Still s { s.emit (.closed false) with gracefulShutdown := true } :=
          still_trans s _ _ (emit_still s (.closed false)) (same_still _ _ rfl)
        split
        · exact still_trans s _ _ marked (dispatch_queue_still _ _ inline)
        · split
          · exact still_trans s _ _ marked (dispatch_forced_still _ inline)
          · exact marked

theorem finish_shutdown_still (s : State B) (inline : Inline) : Still s (s.finishShutdown inline) := by
  have forced : Still s { s.dispatchForced inline with writeDeque := [] } :=
    still_trans s _ _ (dispatch_forced_still s inline) (same_still _ _ rfl)
  rw [State.finishShutdown]
  split
  · exact still_trans s _ _ (still_trans s _ _ forced (dispatch_queue_still _ _ inline)) (same_still _ _ rfl)
  · exact still_trans s _ _ forced (same_still _ _ rfl)

theorem shutdown_still (s : State B) (inline : Inline) : Still s (s.shutdown inline) := by
  have marked : Still s { s with shutdownInProgress := true } := ⟨rfl, rfl, fun _ => rfl, List.prefix_rfl⟩
  rw [State.shutdown]
  split
  · exact same_still s _ rfl
  · split
    · exact ⟨rfl, List.countP_cons_of_neg (by decide), fun _ => rfl, List.prefix_append _ _⟩
    · exact still_trans s _ _ marked (finish_shutdown_still _ inline)

theorem write_next_still (s : State B) (inline : Inline) : Still s (s.writeNext inline) := by
  rw [State.writeNext.eq_def]
  split
  · dsimp only
    split
    · exact still_from s _ _ (dispatch_forced_still { s with writeInProgress := false } inline) rfl
    · exact same_still s _ rfl
  · exact still_from s _ _ (emit_still _ _) rfl

theorem completed_still (s : State B) (i : Nat) (buffers : B) (ok : Bool) : Still s (s.completed i buffers ok) :=
  still_from s _ _ (emit_still _ _) rfl

theorem send_still (s : State B) (buffers : B) (inline : Inline) : Still s (s.send buffers inline) := by
  rw [State.send]
  split
  · exact still_trans s _ _ (emit_still s (.sent buffers)) (dispatch_queue_still _ _ inline)
  · have queued : Still s { s.emit (.sent buffers) with writeDeque := s.writeDeque ++ [buffers] } :=
      still_trans s _ _ (emit_still s (.sent buffers)) (same_still _ _ rfl)
    split
    · exact queued
    · exact still_trans s _ _ queued (write_next_still _ inline)

-- The actions that take the session from one stage to the next.
def Action.isReading : Action B → Bool
  | .start _ _ | .readCompletes _ _ | .callbackReturns _ _ => true
  | _ => false

theorem step_still (s after : State B) (action : Action B) (other : action.isReading = false) (taken : step s action = some after) :
    Still s after := by
  unfold step at taken
  split at taken
  · cases taken
  cases action with
  | start | readCompletes | callbackReturns => cases other
  | asyncSend framed inline =>
      obtain rfl := Option.some.inj taken
      unfold State.asyncSend
      split
      · cases framed with
        | none => exact same_still s _ rfl
        | some buffers => exact send_still s buffers inline
      · exact same_still s _ rfl
  | enableWriteQueue enable =>
      obtain rfl := Option.some.inj taken
      exact same_still s _ rfl
  | close force inline =>
      obtain rfl := Option.some.inj taken
      rw [State.close]
      split
      · exact run_close_still s force inline
      · exact same_still s _ rfl
  | writeCompletes i ok inline =>
      simp only at taken
      split at taken
      · cases taken
      · obtain ⟨buffers, _, rfl⟩ := Option.map_eq_some_iff.mp taken
        rw [State.writeCompletes]
        split
        · have completed : Still s { s.completed i buffers true with writeInProgress := false } :=
            still_trans s _ _ (completed_still s i buffers true) (same_still _ _ rfl)
          exact still_trans s _ _ completed (write_next_still _ inline)
        · exact still_trans s _ _ (completed_still s i buffers false) (shutdown_still _ inline)
  | queueCompletes i ok =>
      simp only at taken
      split at taken
      · cases taken
      · obtain ⟨entry, _, rfl⟩ := Option.map_eq_some_iff.mp taken
        exact still_trans s _ _ (emit_still s _) ⟨rfl, rfl, id, List.prefix_append _ _⟩
  | readTimer expired inline | idleTimer expired inline =>
      simp only at taken
      split at taken
      · cases taken
      · obtain rfl := Option.some.inj taken
        split
        · exact still_from s _ _ (shutdown_still _ inline) rfl
        · exact same_still s _ rfl
  | runWork i inline =>
      simp only at taken
      split at taken
      · cases taken
      · obtain ⟨force, _, rfl⟩ := Option.map_eq_some_iff.mp taken
        exact still_from s _ _ (run_close_still { s with work := s.work.eraseIdx i } force inline) rfl
  | runStrand =>
      simp only at taken
      split at taken
      · cases taken
      · cases strand : s.strandWork with
        | nil => simp [strand] at taken
        | cons call rest =>
            simp only [strand, Option.some.injEq] at taken
            subst taken
            exact still_from s _ _ (run_queue_still { s with strandWork := rest } call) rfl

theorem read_completes_trace (s : State B) (result : ReadResult) (inline : Inline) : s.trace <+: (s.readCompletes result inline).trace := by
  unfold State.readCompletes
  dsimp only
  split
  · exact List.prefix_rfl
  · cases result with
    | failed => exact (shutdown_still { s with reads := s.reads - 1 } inline).trace
    | messages count =>
        rw [(deliver_aside { s with reads := s.reads - 1 } count).trace]
    | raised => exact List.prefix_rfl

theorem resume_trace (s : State B) (frame : Frame) (raises : Bool) (inline : Inline) : s.trace <+: (s.resume frame raises inline).trace := by
  cases frame with
  | messages remaining =>
      rw [State.resume, (deliver_aside s remaining).trace]
  | disconnect =>
      rw [State.resume]
      split
      · exact List.prefix_rfl
      · exact (finish_shutdown_still s inline).trace

-- No step forgets an event.
theorem step_trace (s after : State B) (action : Action B) (taken : step s action = some after) : s.trace <+: after.trace := by
  by_cases reads : action.isReading = true
  · unfold step at taken
    split at taken
    · cases taken
    cases action with
    | start onMessage onDisconnect =>
        obtain rfl := Option.some.inj taken
        have same := (start_read_aside { s with onMessage := onMessage, onDisconnect := onDisconnect }).trace
        change s.trace <+: (State.startRead { s with onMessage := onMessage, onDisconnect := onDisconnect }).trace
        rw [same]
    | readCompletes result inline =>
        simp only at taken
        split at taken
        · cases taken
        · obtain rfl := Option.some.inj taken
          exact read_completes_trace s result inline
    | callbackReturns raises inline =>
        cases stack : s.stack with
        | nil => simp [stack] at taken
        | cons frame rest =>
            simp only [stack, Option.some.injEq] at taken
            subst taken
            exact resume_trace { s with stack := rest } frame raises inline
    | asyncSend | enableWriteQueue | close | writeCompletes | queueCompletes | readTimer | idleTimer | runWork | runStrand =>
        cases reads
  · exact (step_still s after action (eq_false_of_ne_true reads) taken).trace

theorem start_read_placed (s : State B) (log : List FramerCall) (stage : Stage) (rounds : InRounds log stage)
    (between : stage = .unstarted ∨ stage = .delivering) (framer : s.framer = false → s.shutdownInProgress = true)
    (reads : s.reads = 0) (delivering : s.delivering = 0) : Placed s.startRead (log ++ s.readCalls) := by
  rw [State.startRead, State.readCalls]
  by_cases marked : s.shutdownInProgress = true
  · rw [if_pos marked, if_pos marked, List.append_nil]
    refine ⟨stage, rounds, ?_⟩
    rcases between with rfl | rfl
    · exact ⟨reads, delivering⟩
    · exact ⟨reads, by omega, fun unmarked => absurd (unmarked.symm.trans marked) (by decide)⟩
  · have present : s.framer = true := by
      by_contra absent
      exact marked (framer (eq_false_of_ne_true absent))
    rw [if_neg marked, if_neg marked, if_pos present]
    have asked : InRounds (log ++ [.prepareRead]) .reading := by
      rcases between with rfl | rfl
      · cases rounds
        exact .first
      · exact .again log rounds
    have one : s.reads + 1 = 1 := by omega
    exact ⟨.reading, asked, delivering, Nat.le_of_eq one, fun _ => one⟩

theorem deliver_placed (s : State B) (log : List FramerCall) (count : Nat) (rounds : InRounds log .delivering)
    (framer : s.framer = false → s.shutdownInProgress = true) (reads : s.reads = 0) (delivering : s.delivering = 0) :
    Placed (s.deliver count) (log ++ s.deliverCalls count) := by
  have next := start_read_placed s log .delivering rounds (.inr rfl) framer reads delivering
  cases count with
  | zero => exact next
  | succ remaining =>
      rw [State.deliver, State.deliverCalls]
      by_cases calls : s.onMessage = true
      · rw [if_pos calls, if_pos calls, List.append_nil]
        have one : State.delivering { s with stack := .messages remaining :: s.stack } = 1 := by
          rw [State.delivering, List.countP_cons_of_pos rfl]
          exact congrArg (· + 1) delivering
        exact ⟨.delivering, rounds, reads, Nat.le_of_eq one, fun _ => one⟩
      · rw [if_neg calls, if_neg calls]
        exact next

theorem shutdown_marks (s : State B) (inline : Inline) : (s.shutdown inline).shutdownInProgress = true := by
  rw [State.shutdown]
  split
  · rename_i marked
    exact marked
  · split
    · rfl
    · exact (finish_shutdown_still { s with shutdownInProgress := true } inline).shutdownInProgress rfl

theorem read_completes_placed (s : State B) (log : List FramerCall) (result : ReadResult) (inline : Inline)
    (framer : s.framer = false → s.shutdownInProgress = true) (placed : Placed s log) (busy : s.reads ≠ 0) :
    Placed (s.readCompletes result inline) (log ++ s.completionCalls result) := by
  obtain ⟨stage, rounds, here⟩ := placed
  cases stage with
  | unstarted | delivering | lost => exact absurd here.1 busy
  | reading =>
      obtain ⟨delivering, single, _⟩ := here
      have none : s.reads - 1 = 0 := by omega
      unfold State.readCompletes State.completionCalls
      by_cases marked : s.shutdownInProgress = true
      · rw [if_pos marked, if_pos marked, List.append_nil]
        exact ⟨.reading, rounds, delivering, by simp [none], fun unmarked => absurd (unmarked.symm.trans marked) (by decide)⟩
      · rw [if_neg marked, if_neg marked]
        cases result with
        | failed =>
            have still := shutdown_still { s with reads := s.reads - 1 } inline
            have ended := shutdown_marks { s with reads := s.reads - 1 } inline
            rw [List.append_nil]
            refine ⟨.reading, rounds, still.delivering.trans delivering, ?_, fun unmarked => absurd (unmarked.symm.trans ended) (by decide)⟩
            rw [still.reads]
            exact Nat.le_trans (Nat.le_of_eq none) (Nat.zero_le 1)
        | messages count =>
            rw [List.append_cons]
            exact deliver_placed { s with reads := s.reads - 1 } (log ++ [.onData false]) count (.data log rounds) framer none delivering
        | raised => exact ⟨.lost, .raised log rounds, none, delivering⟩

theorem resume_placed (s : State B) (log : List FramerCall) (frame : Frame) (rest : List Frame) (raises : Bool) (inline : Inline)
    (framer : s.framer = false → s.shutdownInProgress = true) (placed : Placed s log) (stack : s.stack = frame :: rest) :
    Placed ({ s with stack := rest }.resume frame raises inline) (log ++ s.resumeCalls s.stack) := by
  obtain ⟨stage, rounds, here⟩ := placed
  rw [stack]
  cases frame with
  | messages remaining =>
      have busy : s.delivering = State.delivering { s with stack := rest } + 1 := by
        rw [State.delivering, stack]
        exact List.countP_cons_of_pos rfl
      cases stage with
      | unstarted | lost => exact absurd here.2 (by omega)
      | reading => exact absurd here.1 (by omega)
      | delivering =>
          obtain ⟨reads, single, _⟩ := here
          exact deliver_placed { s with stack := rest } log remaining rounds framer reads (by omega)
  | disconnect =>
      have popped : Still s { s with stack := rest } := by
        refine ⟨rfl, ?_, id, List.prefix_rfl⟩
        rw [State.delivering, State.delivering, stack]
        exact (List.countP_cons_of_neg (by decide)).symm
      change Placed _ (log ++ [])
      rw [List.append_nil]
      refine ⟨stage, rounds, still_at s _ stage ?_ here⟩
      rw [State.resume]
      split
      · exact popped
      · exact still_trans s _ _ popped (finish_shutdown_still _ inline)

theorem rounds_nil (log : List FramerCall) (stage : Stage) (rounds : InRounds log stage) (empty : log = []) : stage = .unstarted := by
  cases rounds with
  | unstarted => rfl
  | first => cases empty
  | again | data | raised => simp at empty

theorem rounds_unstarted (log : List FramerCall) (rounds : InRounds log .unstarted) : log = [] := by
  cases rounds with
  | unstarted => rfl

theorem rounds_lost (log : List FramerCall) (rounds : InRounds log .lost) : ∃ before, log = before ++ [.onData true] := by
  cases rounds with
  | raised before _ => exact ⟨before, rfl⟩

theorem step_placed (s after : State B) (log : List FramerCall) (action : Action B) (marked : Marked s) (placed : Placed s log)
    (once : StartsOnce ⟨s, log⟩ action) (taken : step s action = some after) : Placed after (log ++ framerCalls s action after) := by
  by_cases reads : action.isReading = true
  · unfold step at taken
    split at taken
    · cases taken
    cases action with
    | start onMessage onDisconnect =>
        obtain rfl := Option.some.inj taken
        obtain ⟨stage, rounds, here⟩ := placed
        obtain rfl := rounds_nil log stage rounds once
        obtain ⟨next, asked, later⟩ := start_read_placed { s with onMessage := onMessage, onDisconnect := onDisconnect } log .unstarted
          rounds (.inl rfl) marked.framer here.1 here.2
        exact ⟨next, asked, still_at _ _ next (same_still _ _ rfl) later⟩
    | readCompletes result inline =>
        simp only at taken
        split at taken
        · cases taken
        · rename_i ready
          obtain rfl := Option.some.inj taken
          exact read_completes_placed s log result inline marked.framer placed fun idle => ready (.inr idle)
    | callbackReturns raises inline =>
        cases stack : s.stack with
        | nil => simp [stack] at taken
        | cons frame rest =>
            simp only [stack, Option.some.injEq] at taken
            subst taken
            exact resume_placed s log frame rest raises inline marked.framer placed stack
    | asyncSend | enableWriteQueue | close | writeCompletes | queueCompletes | readTimer | idleTimer | runWork | runStrand =>
        cases reads
  · have other := eq_false_of_ne_true reads
    obtain ⟨stage, rounds, here⟩ := placed
    have silent : framerCalls s action after = [] := by
      cases action <;> first | rfl | cases other
    rw [silent, List.append_nil]
    exact ⟨stage, rounds, still_at s after stage (step_still s after action other taken) here⟩

theorem step_shut (s after : State B) (action : Action B) (marked : Marked s) (shut : s.shutdownInProgress = true)
    (taken : step s action = some after) : after.shutdownInProgress = true := by
  rcases step_teardown s after action marked taken with kept | ⟨_, forced⟩ | ⟨_, ended⟩
  · exact kept.marked.trans shut
  · exact forced.marked
  · exact ended.marked

theorem shut_silent (s after : State B) (action : Action B) (shut : s.shutdownInProgress = true) : framerCalls s action after = [] := by
  have reads : s.readCalls = [] := if_pos shut
  have delivers : ∀ count, s.deliverCalls count = [] := by
    intro count
    cases count with
    | zero => exact reads
    | succ remaining =>
        rw [State.deliverCalls, reads]
        split <;> rfl
  cases action with
  | start onMessage onDisconnect => exact reads
  | readCompletes result inline => exact if_pos shut
  | callbackReturns raises inline =>
      change s.resumeCalls s.stack = []
      unfold State.resumeCalls
      split
      · exact delivers _
      · rfl
  | asyncSend | enableWriteQueue | close | writeCompletes | queueCompletes | readTimer | idleTimer | runWork | runStrand => rfl

-- The session drives its framer by the protocol, one read at a time, and goes on
-- reading until it is shut down or OnData raises. A session that is shut down
-- has asked the framer for the last time.
structure ReadsInRounds (m : Machine.Recorded (State B) FramerCall) : Prop where
  rounds : ∃ stage, InRounds m.log stage ∧ m.state.At stage
  single : m.state.reads + m.state.delivering ≤ 1
  onward : m.state.shutdownInProgress = false → m.log ≠ [] → .onData true ∉ m.log → m.state.reads + m.state.delivering = 1
  silent : m.state.shutdownInProgress = true → ∀ later, Machine.Reachable (Machine.recorded step framerCalls) (fun _ _ => True) m later →
    later.log = m.log

theorem framer_in_rounds (useWriteQueue : Bool) (m : Machine.Recorded (State B) FramerCall)
    (reachable : Machine.Reachable (Machine.recorded step framerCalls) StartsOnce ⟨construct useWriteQueue, []⟩ m) : ReadsInRounds m := by
  obtain ⟨reached, placed⟩ := Machine.recorded_invariant step framerCalls StartsOnce (construct useWriteQueue) [] Placed
    ⟨.unstarted, .unstarted, rfl, rfl⟩ (fun before action after log reached placed once taken =>
      step_placed before after log action (reachable_marked _ useWriteQueue before reached) placed once taken) m reachable
  have marked := reachable_marked _ useWriteQueue m.state reached
  obtain ⟨stage, rounds, here⟩ := placed
  refine ⟨⟨stage, rounds, here⟩, ?_, ?_, ?_⟩
  · cases stage with
    | unstarted | lost | reading | delivering =>
        simp only [State.At] at here
        omega
  · intro unmarked begun unraised
    cases stage with
    | unstarted => exact absurd (rounds_unstarted m.log rounds) begun
    | lost =>
        obtain ⟨before, same⟩ := rounds_lost m.log rounds
        exact absurd (by rw [same]; simp) unraised
    | reading => rw [here.1, here.2.2 unmarked]
    | delivering => rw [here.1, here.2.2 unmarked]
  · intro shut later onward
    have kept : Marked later.state ∧ later.state.shutdownInProgress = true ∧ later.log = m.log := by
      apply Machine.reachable_invariant (Machine.recorded step framerCalls) (fun _ _ => True) m
        (fun later => Marked later.state ∧ later.state.shutdownInProgress = true ∧ later.log = m.log) ⟨marked, shut, rfl⟩ _ later onward
      rintro before action after _ ⟨marked, shut, same⟩ _ taken
      obtain ⟨next, stepped, rfl⟩ := Option.map_eq_some_iff.mp taken
      refine ⟨step_marked before.state next action marked stepped, step_shut before.state next action marked shut stepped, ?_⟩
      change before.log ++ framerCalls before.state action next = m.log
      rw [shut_silent before.state next action shut, List.append_nil, same]
    exact kept.2.2

-- The first of two messages closes the session; the second is still delivered.
theorem closed_inside_reads_in_rounds :
    ∃ m : Machine.Recorded (State Nat) FramerCall,
      Machine.Reachable (Machine.recorded step framerCalls) StartsOnce ⟨construct false, []⟩ m ∧
      m.log = [.prepareRead, .onData false, .prepareRead, .onData false] ∧ m.state.shutdownInProgress = true ∧
      m.state.delivering = 1 ∧ ReadsInRounds m := by
  obtain ⟨m, reachable, shown⟩ := Machine.run_exhibits (Machine.recorded step framerCalls) StartsOnce ⟨construct false, []⟩
    ([.start true true, .readCompletes (.messages 0) ⟨true, true⟩, .readCompletes (.messages 2) ⟨true, true⟩,
      .close true ⟨true, true⟩, .callbackReturns false ⟨true, true⟩] : List (Action Nat))
    (fun m => decide (m.log = [.prepareRead, .onData false, .prepareRead, .onData false] ∧ m.state.shutdownInProgress = true ∧
      m.state.delivering = 1)) (by decide)
  obtain ⟨log, shut, delivers⟩ := of_decide_eq_true shown
  exact ⟨m, reachable, log, shut, delivers, framer_in_rounds false m reachable⟩

end Vectro.Session
