import Vectro.SessionTeardown

set_option autoImplicit false

namespace Vectro.Session

open Traces

variable {B : Type}

def sent (log : List (Event B)) : List B :=
  log.filterMap fun
    | .sent buffers => some buffers
    | _ => none

def handed (log : List (Event B)) : List B :=
  log.filterMap fun
    | .handed buffers => some buffers
    | _ => none

def completed (log : List (Event B)) : List B :=
  log.filterMap fun
    | .completed buffers _ => some buffers
    | _ => none

def Event.isWrite : Event B → Bool
  | .sent _ | .handed _ | .completed _ _ => true
  | .closed _ | .disconnected => false

theorem sent_quiet (log more : List (Event B)) (quiet : ∀ event ∈ more, event.isWrite = false) :
    sent (log ++ more) = sent log :=
  filter_map_aside _ log more fun event member => by
    have silent := quiet event member
    cases event <;> first | rfl | cases silent

theorem handed_quiet (log more : List (Event B)) (quiet : ∀ event ∈ more, event.isWrite = false) :
    handed (log ++ more) = handed log :=
  filter_map_aside _ log more fun event member => by
    have silent := quiet event member
    cases event <;> first | rfl | cases silent

theorem completed_quiet (log more : List (Event B)) (quiet : ∀ event ∈ more, event.isWrite = false) :
    completed (log ++ more) = completed log :=
  filter_map_aside _ log more fun event member => by
    have silent := quiet event member
    cases event <;> first | rfl | cases silent

-- Nothing has been logged about writes.
def Quiet (before after : List (Event B)) : Prop := ∃ more, after = before ++ more ∧ ∀ event ∈ more, event.isWrite = false

theorem quiet_refl (log : List (Event B)) : Quiet log log :=
  ⟨[], (List.append_nil log).symm, fun _ member => nomatch member⟩

theorem quiet_logs (log : List (Event B)) (event : Event B) (silent : event.isWrite = false) : Quiet log (log ++ [event]) :=
  ⟨[event], rfl, by simpa using silent⟩

theorem quiet_closes (log : List (Event B)) (forces : List Bool) : Quiet log (log ++ List.map .closed forces) := by
  refine ⟨_, rfl, fun event member => ?_⟩
  obtain ⟨force, _, rfl⟩ := List.mem_map.mp member
  rfl

-- The direct path on its own. While the session lasts, what has been handed
-- over and what waits are the messages sent, in order.
structure Direct (s : State B) : Prop where
  mode : s.useWriteQueue = false
  unused : s.queue = Stream.construct 1024 ∧ s.strandWork = []
  single : s.outstanding.length ≤ 1
  busy : s.outstanding ≠ [] → s.writeInProgress = true
  waiting : s.writeDeque ≠ [] → s.writeInProgress = true
  flag : s.shutdownInProgress = false → s.writeInProgress = true → s.outstanding.length = 1
  whole : s.shutdownInProgress = false → handed s.trace ++ s.writeDeque = sent s.trace
  order : completed s.trace ++ s.outstanding = handed s.trace

theorem direct_frame (s after : State B) (direct : Direct s)
    (marked : after.shutdownInProgress = false → s.shutdownInProgress = false)
    (deque : after.writeDeque = s.writeDeque ∨ (after.writeDeque = [] ∧ after.shutdownInProgress = true))
    (trace : Quiet s.trace after.trace)
    (same : (after.useWriteQueue, after.queue, after.strandWork, after.outstanding, after.writeInProgress) =
      (s.useWriteQueue, s.queue, s.strandWork, s.outstanding, s.writeInProgress)) : Direct after := by
  obtain ⟨more, log, quiet⟩ := trace
  obtain ⟨mode, queue, strandWork, outstanding, flag⟩ : after.useWriteQueue = s.useWriteQueue ∧ after.queue = s.queue ∧
      after.strandWork = s.strandWork ∧ after.outstanding = s.outstanding ∧ after.writeInProgress = s.writeInProgress := by
    simpa only [Prod.mk.injEq] using same
  refine ⟨mode.trans direct.mode, ?_, ?_, ?_, ?_, ?_, ?_, ?_⟩
  · rw [queue, strandWork]
    exact direct.unused
  · rw [outstanding]
    exact direct.single
  · rw [outstanding, flag]
    exact direct.busy
  · rw [flag]
    intro nonempty
    rcases deque with same | ⟨empty, _⟩
    · exact direct.waiting (same ▸ nonempty)
    · exact absurd empty nonempty
  · rw [outstanding, flag]
    exact fun unmarked => direct.flag (marked unmarked)
  · intro unmarked
    rcases deque with same | ⟨_, ended⟩
    · rw [log, handed_quiet _ _ quiet, sent_quiet _ _ quiet, same]
      exact direct.whole (marked unmarked)
    · exact absurd (unmarked.symm.trans ended) (by decide)
  · rw [log, completed_quiet _ _ quiet, handed_quiet _ _ quiet, outstanding]
    exact direct.order

theorem close_forced_direct (s : State B) (inline : Inline) (direct : Direct s) : Direct (s.closeForced inline) := by
  cases marked : s.shutdownInProgress with
  | true =>
      rw [close_forced_again s inline marked]
      exact direct_frame s _ direct id (.inl rfl) (quiet_logs _ _ rfl) rfl
  | false =>
      obtain ⟨queue, strandWork, hands, same, alone⟩ := close_forced_frame s inline marked
      obtain ⟨rfl, rfl, rfl⟩ := alone direct.mode
      rw [same]
      exact direct_frame s _ direct (fun unmarked => nomatch unmarked) (.inr ⟨rfl, rfl⟩)
        (quiet_logs _ _ rfl) rfl

theorem dispatch_forced_direct (s : State B) (inline : Inline) (direct : Direct s) : Direct (s.dispatchForced inline) := by
  unfold State.dispatchForced
  split
  · exact close_forced_direct s inline direct
  · exact direct_frame s _ direct id (.inl rfl) (quiet_refl _) rfl

theorem close_graceful_direct (s : State B) (inline : Inline) (direct : Direct s) : Direct (s.closeGraceful inline) := by
  unfold State.closeGraceful
  split
  · exact direct_frame s _ direct id (.inl rfl) (quiet_logs _ _ rfl) rfl
  · have marked : Direct { s.emit (.closed false) with gracefulShutdown := true } :=
      direct_frame s _ direct id (.inl rfl) (quiet_logs _ _ rfl) rfl
    rw [if_neg (by simp [direct.mode])]
    split
    · exact dispatch_forced_direct _ inline marked
    · exact marked

theorem run_close_direct (s : State B) (force : Bool) (inline : Inline) (direct : Direct s) :
    Direct (s.runClose force inline) := by
  unfold State.runClose
  split
  · exact close_forced_direct s inline direct
  · exact close_graceful_direct s inline direct

theorem finish_shutdown_direct (s : State B) (inline : Inline) (marked : s.shutdownInProgress = true)
    (direct : Direct s) : Direct (s.finishShutdown inline) := by
  obtain ⟨queue, strandWork, work, closes, hands, same, _, alone⟩ := finish_shutdown_frame s inline marked
  obtain ⟨rfl, rfl, rfl⟩ := alone direct.mode
  rw [same]
  refine direct_frame s _ direct id (.inr ⟨rfl, marked⟩) ?_ rfl
  rw [List.map_nil, List.append_nil]
  exact quiet_closes s.trace closes

theorem shutdown_direct (s : State B) (inline : Inline) (direct : Direct s) : Direct (s.shutdown inline) := by
  unfold State.shutdown
  split
  · exact direct
  · dsimp only
    split
    · exact direct_frame s _ direct (fun unmarked => nomatch unmarked) (.inl rfl)
        (quiet_logs _ _ rfl) rfl
    · apply finish_shutdown_direct _ inline rfl
      exact direct_frame s _ direct (fun unmarked => nomatch unmarked) (.inl rfl)
        (quiet_refl _) rfl

theorem write_next_direct (s : State B) (inline : Inline) (mode : s.useWriteQueue = false)
    (unused : s.queue = Stream.construct 1024 ∧ s.strandWork = []) (idle : s.outstanding = [])
    (whole : s.shutdownInProgress = false → handed s.trace ++ s.writeDeque = sent s.trace)
    (order : completed s.trace = handed s.trace) : Direct (s.writeNext inline) := by
  unfold State.writeNext
  split
  · rename_i empty
    have rests : Direct { s with writeInProgress := false } := by
      refine ⟨mode, unused, ?_, ?_, ?_, fun _ busy => absurd busy Bool.false_ne_true, whole, ?_⟩
      · rw [idle]
        exact Nat.zero_le 1
      · exact fun writes => absurd idle writes
      · exact fun waits => absurd empty waits
      · rw [idle, List.append_nil]
        exact order
    dsimp only
    split
    · exact dispatch_forced_direct _ inline rests
    · exact rests
  · rename_i buffers rest queue
    have hands : handed (s.trace ++ [.handed buffers]) = handed s.trace ++ [buffers] := filter_map_logs _ _ _ _ rfl
    have sends : sent (s.trace ++ [.handed buffers]) = sent s.trace := filter_map_quiet _ _ _ rfl
    have completes : completed (s.trace ++ [.handed buffers]) = completed s.trace := filter_map_quiet _ _ _ rfl
    refine ⟨mode, unused, ?_, fun _ => rfl, fun _ => rfl, fun _ _ => ?_, fun unmarked => ?_, ?_⟩
    · simp [State.emit, idle]
    · simp [State.emit, idle]
    · have before := whole unmarked
      rw [queue] at before
      simp only [State.emit, hands, sends, ← before, List.append_assoc, List.singleton_append]
    · simp only [State.emit, hands, completes, idle, order, List.nil_append]

theorem send_direct (s : State B) (buffers : B) (inline : Inline) (direct : Direct s) : Direct (s.send buffers inline) := by
  have hands : handed (s.trace ++ [.sent buffers]) = handed s.trace := filter_map_quiet _ _ _ rfl
  have sends : sent (s.trace ++ [.sent buffers]) = sent s.trace ++ [buffers] := filter_map_logs _ _ _ _ rfl
  have completes : completed (s.trace ++ [.sent buffers]) = completed s.trace := filter_map_quiet _ _ _ rfl
  have whole : s.shutdownInProgress = false →
      handed (s.trace ++ [.sent buffers]) ++ (s.writeDeque ++ [buffers]) = sent (s.trace ++ [.sent buffers]) := by
    intro unmarked
    rw [hands, sends, ← direct.whole unmarked, List.append_assoc]
  rw [State.send, if_neg (by simp [direct.mode])]
  dsimp only
  split
  · rename_i busy
    refine ⟨direct.mode, direct.unused, direct.single, direct.busy, fun _ => busy, direct.flag, whole, ?_⟩
    simp only [State.emit, completes, hands]
    exact direct.order
  · rename_i idle
    have free : s.outstanding = [] := by
      by_contra writes
      exact idle (direct.busy writes)
    refine write_next_direct _ inline direct.mode direct.unused free whole ?_
    have order := direct.order
    rw [free, List.append_nil] at order
    simp only [State.emit, completes, hands, order]

theorem single_write (outstanding : List B) (i : Nat) (buffers : B) (single : outstanding.length ≤ 1)
    (found : outstanding[i]? = some buffers) : outstanding = [buffers] ∧ outstanding.eraseIdx i = [] := by
  match outstanding, single with
  | [], _ => simp at found
  | [only], _ =>
      cases i with
      | zero =>
          obtain rfl : only = buffers := by simpa using found
          exact ⟨rfl, rfl⟩
      | succ i => simp at found

theorem completed_order (s : State B) (i : Nat) (buffers : B) (ok : Bool) (found : s.outstanding[i]? = some buffers)
    (direct : Direct s) : (s.completed i buffers ok).outstanding = [] ∧
      completed (s.completed i buffers ok).trace = handed (s.completed i buffers ok).trace := by
  obtain ⟨only, none⟩ := single_write s.outstanding i buffers direct.single found
  have completes : completed (s.trace ++ [.completed buffers ok]) = completed s.trace ++ [buffers] :=
    filter_map_logs _ _ _ _ rfl
  have hands : handed (s.trace ++ [.completed buffers ok]) = handed s.trace := filter_map_quiet _ _ _ rfl
  refine ⟨none, ?_⟩
  simp only [State.completed, State.emit, completes, hands, ← direct.order, only]

theorem completes_direct (s : State B) (i : Nat) (buffers : B) (inline : Inline)
    (found : s.outstanding[i]? = some buffers) (direct : Direct s) :
    Direct ({ s.completed i buffers true with writeInProgress := false }.writeNext inline) := by
  obtain ⟨idle, order⟩ := completed_order s i buffers true found direct
  refine write_next_direct _ inline direct.mode direct.unused idle (fun unmarked => ?_) order
  have hands : handed (s.trace ++ [.completed buffers true]) = handed s.trace := filter_map_quiet _ _ _ rfl
  have sends : sent (s.trace ++ [.completed buffers true]) = sent s.trace := filter_map_quiet _ _ _ rfl
  simp only [State.completed, State.emit, hands, sends]
  exact direct.whole unmarked

-- A failed write leaves write_in_progress_ set, and the session over.
theorem broken_direct (s after : State B) (i : Nat) (buffers : B) (found : s.outstanding[i]? = some buffers)
    (direct : Direct s) (same : after = { s.completed i buffers false with shutdownInProgress := true }) : Direct after := by
  obtain ⟨idle, order⟩ := completed_order s i buffers false found direct
  subst same
  refine ⟨direct.mode, direct.unused, ?_, fun writes => absurd idle writes, direct.waiting, ?_, ?_, ?_⟩
  · rw [idle]
    exact Nat.zero_le 1
  · exact fun unmarked => nomatch unmarked
  · exact fun unmarked => nomatch unmarked
  · rw [idle, List.append_nil]
    exact order

-- use_write_queue_ stays false.
def DirectOnly (_ : State B) : Action B → Prop
  | .enableWriteQueue enable => enable = false
  | _ => True

instance (s : State B) (action : Action B) : Decidable (DirectOnly s action) :=
  match action with
  | .enableWriteQueue enable => inferInstanceAs (Decidable (enable = false))
  | .start .. | .asyncSend .. | .close .. | .readCompletes .. | .writeCompletes .. | .queueCompletes .. | .readTimer ..
  | .idleTimer .. | .callbackReturns .. | .runWork .. | .runStrand => isTrue trivial

theorem step_direct (s after : State B) (action : Action B) (marked : Marked s) (direct : Direct s)
    (allowed : DirectOnly s action) (taken : step s action = some after) : Direct after := by
  have asides : ∀ after, Aside s after → Direct after := fun after aside =>
    direct_frame s after direct (fun unmarked => aside.shutdownInProgress ▸ unmarked) (.inl aside.writeDeque)
      (aside.trace ▸ quiet_refl _)
      (by rw [aside.useWriteQueue, aside.queue, aside.strandWork, aside.outstanding, aside.writeInProgress])
  refine step_preserves Direct s after action taken asides ?_ ?_ ?_ ?_ ?_ ?_ ?_ ?_ ?_ ?_ ?_ ?_
  · exact fun buffers inline _ _ => send_direct s buffers inline direct
  · rintro enable rfl
    have off : enable = false := allowed
    subst off
    exact direct_frame s _ direct id (.inl rfl) (quiet_refl _) (by rw [direct.mode])
  · exact fun _ _ _ => direct_frame s _ direct id (.inl rfl) (quiet_refl _) rfl
  · exact fun force inline _ _ => run_close_direct s force inline direct
  · intro i force inline _ _
    exact run_close_direct _ force inline (direct_frame s _ direct id (.inl rfl) (quiet_refl _) rfl)
  · exact fun before inline aside _ _ => shutdown_direct before inline (asides before aside)
  · exact fun before inline _ aside waiting => finish_shutdown_direct before inline
      (aside.shutdownInProgress.trans (marked.stack (List.mem_of_head? waiting))) (asides before aside)
  · exact fun i buffers inline _ found => completes_direct s i buffers inline found direct
  · intro i buffers inline _ found unmarked
    have broken := broken_direct s _ i buffers found direct rfl
    rw [State.shutdown, if_neg (show ¬ (s.completed i buffers false).shutdownInProgress = true by
      simpa [State.completed, State.emit] using unmarked)]
    dsimp only
    split
    · exact direct_frame _ _ broken id (.inl rfl) (quiet_logs _ _ rfl) rfl
    · exact finish_shutdown_direct _ inline rfl broken
  · intro i buffers inline _ found ended
    apply broken_direct s _ i buffers found direct
    rw [← ended]
    rfl
  · intro i entry ok _ found
    simp [direct.unused.1, Stream.construct] at found
  · intro call rest _ strand
    simp [direct.unused.2] at strand

theorem reachable_direct (guard : State B → Action B → Prop) (narrow : ∀ s action, guard s action → DirectOnly s action)
    (s : State B) (reachable : Machine.Reachable step guard (construct false) s) : Direct s := by
  refine Machine.reachable_invariant step guard _ Direct ?_ ?_ s reachable
  · constructor <;> simp [construct, handed, sent, completed]
  · intro before action after earlier direct allowed taken
    exact step_direct before after action (reachable_marked guard false before earlier) direct
      (narrow before action allowed) taken

end Vectro.Session
