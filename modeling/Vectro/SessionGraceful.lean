import Vectro.SessionDirect

set_option autoImplicit false

namespace Vectro.Session

open Traces

variable {B : Type}

def Event.isGraceful : Event B → Bool
  | .closed force => !force
  | _ => false

-- The messages sent before the first Close(false) ran.
def sentBefore (log : List (Event B)) : List B := sent (log.takeWhile fun event => !event.isGraceful)

-- They have all been written.
structure Flushed (log : List (Event B)) : Prop where
  closed : ∃ event ∈ log, event.isGraceful = true
  written : sentBefore log <+: completed log

theorem sent_before_start (log : List (Event B)) : sentBefore log <+: sent log :=
  (List.takeWhile_prefix _).filterMap _

theorem flushed_grows (log more : List (Event B)) (flushed : Flushed log) : Flushed (log ++ more) := by
  obtain ⟨event, member, graceful⟩ := flushed.closed
  refine ⟨⟨event, List.mem_append_left _ member, graceful⟩, ?_⟩
  have same : sentBefore (log ++ more) = sentBefore log := by
    rw [sentBefore, take_while_stopped _ log more ⟨event, member, by simp [graceful]⟩]
    rfl
  rw [same, completed, List.filterMap_append]
  exact flushed.written.trans (List.prefix_append _ _)

theorem flushed_drained (log : List (Event B)) (closed : ∃ event ∈ log, event.isGraceful = true)
    (written : completed log = sent log) : Flushed log :=
  ⟨closed, written ▸ sent_before_start log⟩

def Action.isForced : Action B → Bool
  | .close force _ => force
  | _ => false

-- Nobody calls Close(true), and Shutdown is not entered.
def Peaceful (s : State B) (action : Action B) : Prop :=
  DirectOnly s action ∧ s.ends action = false ∧ action.isForced = false

instance (s : State B) (action : Action B) : Decidable (Peaceful s action) :=
  inferInstanceAs (Decidable (_ ∧ _ ∧ _))

-- Close(true) is only ever called for a session that has nothing more to write.
structure Calm (s : State B) : Prop where
  tied : s.shutdownInProgress = true → s.socketClosed = true
  graceful : s.gracefulShutdown = true → ∃ event ∈ s.trace, event.isGraceful = true
  flushed : s.socketClosed = true ∨ true ∈ s.work → Flushed s.trace

theorem calm_frame (s after : State B) (calm : Calm s) (work : true ∈ after.work → true ∈ s.work)
    (trace : ∃ more, after.trace = s.trace ++ more) (marked : after.shutdownInProgress = s.shutdownInProgress := by rfl)
    (socket : after.socketClosed = s.socketClosed := by rfl)
    (graceful : after.gracefulShutdown = s.gracefulShutdown := by rfl) : Calm after := by
  obtain ⟨more, log⟩ := trace
  refine ⟨?_, ?_, ?_⟩
  · rw [marked, socket]
    exact calm.tied
  · rw [graceful, log]
    intro closing
    obtain ⟨event, member, closed⟩ := calm.graceful closing
    exact ⟨event, List.mem_append_left _ member, closed⟩
  · rw [socket, log]
    rintro (closed | waits)
    · exact flushed_grows _ _ (calm.flushed (.inl closed))
    · exact flushed_grows _ _ (calm.flushed (.inr (work waits)))

theorem close_forced_calm (s : State B) (inline : Inline) (mode : s.useWriteQueue = false) (calm : Calm s)
    (flushed : Flushed s.trace) : Calm (s.closeForced inline) := by
  cases marked : s.shutdownInProgress with
  | true =>
      rw [close_forced_again s inline marked]
      exact calm_frame s _ calm id ⟨_, rfl⟩
  | false =>
      obtain ⟨queue, strandWork, hands, same, alone⟩ := close_forced_frame s inline marked
      obtain ⟨rfl, rfl, rfl⟩ := alone mode
      rw [same]
      refine ⟨fun _ => rfl, fun closing => ?_, fun _ => flushed_grows _ _ flushed⟩
      obtain ⟨event, member, closed⟩ := calm.graceful closing
      exact ⟨event, List.mem_append_left _ member, closed⟩

theorem dispatch_forced_calm (s : State B) (inline : Inline) (mode : s.useWriteQueue = false) (calm : Calm s)
    (flushed : Flushed s.trace) : Calm (s.dispatchForced inline) := by
  unfold State.dispatchForced
  split
  · exact close_forced_calm s inline mode calm flushed
  · exact ⟨calm.tied, calm.graceful, fun _ => flushed⟩

theorem close_graceful_calm (s : State B) (inline : Inline) (direct : Direct s) (calm : Calm s) :
    Calm (s.closeGraceful inline) := by
  have closed : ∃ event ∈ s.trace ++ [Event.closed false], event.isGraceful = true :=
    ⟨_, List.mem_append_right _ List.mem_cons_self, rfl⟩
  unfold State.closeGraceful
  split
  · exact calm_frame s _ calm id ⟨_, rfl⟩
  · rename_i unmarked
    have logged : Calm (s.emit (.closed false)) := calm_frame s _ calm id ⟨_, rfl⟩
    have marked : Calm { s.emit (.closed false) with gracefulShutdown := true } :=
      ⟨logged.tied, fun _ => closed, logged.flushed⟩
    rw [if_neg (by simp [direct.mode])]
    split
    · rename_i idle
      refine dispatch_forced_calm _ inline direct.mode marked (flushed_drained _ closed ?_)
      -- Nothing waits and nothing is being written.
      simp only [Bool.and_eq_true, Bool.not_eq_true', List.isEmpty_iff] at idle
      have free : s.outstanding = [] := by
        by_contra writes
        exact absurd ((direct.busy writes).symm.trans idle.1) (by decide)
      have whole := direct.whole (by simpa using unmarked)
      have order := direct.order
      rw [idle.2, List.append_nil] at whole
      rw [free, List.append_nil] at order
      have completes : completed (s.trace ++ [.closed false]) = completed s.trace := filter_map_quiet _ _ _ rfl
      have sends : sent (s.trace ++ [.closed false]) = sent s.trace := filter_map_quiet _ _ _ rfl
      exact completes.trans (order.trans (whole.trans sends.symm))
    · exact marked

theorem completes_calm (s : State B) (i : Nat) (buffers : B) (inline : Inline) (found : s.outstanding[i]? = some buffers)
    (direct : Direct s) (calm : Calm s) :
    Calm ({ s.completed i buffers true with writeInProgress := false }.writeNext inline) := by
  have idle : Calm { s.completed i buffers true with writeInProgress := false } :=
    calm_frame s _ calm id ⟨_, rfl⟩
  unfold State.writeNext
  split
  · rename_i empty
    dsimp only
    split
    · rename_i closing
      refine dispatch_forced_calm _ inline direct.mode idle ?_
      show Flushed (s.trace ++ [.completed buffers true])
      by_cases marked : s.shutdownInProgress = true
      · exact flushed_grows _ _ (calm.flushed (.inl (calm.tied marked)))
      · obtain ⟨event, member, closed⟩ := calm.graceful closing
        apply flushed_drained _ ⟨event, List.mem_append_left _ member, closed⟩
        have order := (completed_order s i buffers true found direct).2
        have whole := direct.whole (by simpa using marked)
        have before : s.writeDeque = [] := empty
        have hands : handed (s.trace ++ [.completed buffers true]) = handed s.trace := filter_map_quiet _ _ _ rfl
        have sends : sent (s.trace ++ [.completed buffers true]) = sent s.trace := filter_map_quiet _ _ _ rfl
        rw [before, List.append_nil] at whole
        exact order.trans (hands.trans (whole.trans sends.symm))
    · exact idle
  · exact calm_frame _ _ idle id ⟨_, rfl⟩

theorem send_calm (s : State B) (buffers : B) (inline : Inline) (direct : Direct s) (calm : Calm s) :
    Calm (s.send buffers inline) := by
  rw [State.send, if_neg (by simp [direct.mode])]
  dsimp only
  have queued : Calm { s.emit (.sent buffers) with writeDeque := s.writeDeque ++ [buffers] } :=
    calm_frame s _ calm id ⟨_, rfl⟩
  split
  · exact queued
  · unfold State.writeNext
    split
    · rename_i empty
      exact absurd empty (by simp)
    · exact calm_frame _ _ queued id ⟨_, rfl⟩

theorem finish_shutdown_calm (s : State B) (inline : Inline) (marked : s.shutdownInProgress = true) (calm : Calm s) :
    Calm (s.finishShutdown inline) := by
  obtain ⟨queue, strandWork, work, closes, hands, same, _, _⟩ := finish_shutdown_frame s inline marked
  rw [same]
  refine ⟨calm.tied, fun closing => ?_, fun _ => flushed_grows _ _ (calm.flushed (.inl (calm.tied marked)))⟩
  obtain ⟨event, member, closed⟩ := calm.graceful closing
  exact ⟨event, List.mem_append_left _ member, closed⟩

theorem step_calm (s after : State B) (action : Action B) (marked : Marked s) (direct : Direct s) (calm : Calm s)
    (peaceful : Peaceful s action) (taken : step s action = some after) : Calm after := by
  obtain ⟨allowed, lasts, unforced⟩ := peaceful
  have silent : ∃ more, s.trace = s.trace ++ more := ⟨[], (List.append_nil _).symm⟩
  have asides : ∀ after, Aside s after → Calm after := fun after aside =>
    calm_frame s after calm (fun waits => aside.work ▸ waits) ⟨[], by rw [aside.trace, List.append_nil]⟩
      aside.shutdownInProgress aside.socketClosed aside.gracefulShutdown
  refine step_preserves Calm s after action taken asides ?_ ?_ ?_ ?_ ?_ ?_ ?_ ?_ ?_ ?_ ?_ ?_
  · exact fun buffers inline _ _ => send_calm s buffers inline direct calm
  · exact fun _ _ => calm_frame s _ calm id silent
  · rintro force inline rfl
    have gentle : force = false := unforced
    subst force
    exact calm_frame s _ calm (fun waits => by simpa using waits) silent
  · rintro force inline rfl _
    have gentle : force = false := unforced
    subst force
    exact close_graceful_calm s inline direct calm
  · intro i force inline _ found
    have popped : Calm { s with work := s.work.eraseIdx i } :=
      calm_frame s _ calm List.mem_of_mem_eraseIdx silent
    cases force with
    | true => exact close_forced_calm _ inline direct.mode popped (calm.flushed (.inr (List.mem_of_getElem? found)))
    | false =>
        exact close_graceful_calm _ inline
          (direct_frame s _ direct id (.inl rfl) (quiet_refl _) rfl) popped
  · exact fun _ _ _ _ ends => absurd (lasts.symm.trans ends) (by decide)
  · exact fun before inline _ aside waiting => finish_shutdown_calm before inline
      (aside.shutdownInProgress.trans (marked.stack (List.mem_of_head? waiting))) (asides before aside)
  · exact fun i buffers inline _ found => completes_calm s i buffers inline found direct calm
  · rintro i buffers inline rfl _ unmarked
    exact absurd lasts (by simp [State.ends, unmarked])
  · exact fun i buffers inline _ _ _ => calm_frame s _ calm id ⟨_, rfl⟩
  · intro i entry ok _ found
    simp [direct.unused.1, Stream.construct] at found
  · intro call rest _ strand
    simp [direct.unused.2] at strand

theorem reachable_calm (s : State B) (reachable : Machine.Reachable step Peaceful (construct false) s) : Calm s := by
  refine Machine.reachable_invariant step Peaceful _ Calm ?_ ?_ s reachable
  · constructor <;> simp [construct]
  · intro before action after earlier calm peaceful taken
    exact step_calm before after action (reachable_marked _ false before earlier)
      (reachable_direct _ (fun _ _ peaceful => peaceful.1) before earlier) calm peaceful taken

structure InOrder (s : State B) : Prop where
  single : s.outstanding.length + s.queue.outstanding.length ≤ 1
  flag : s.shutdownInProgress = false → (s.writeInProgress = true ↔ s.outstanding.length = 1)
  busy : s.shutdownInProgress = false → s.writeDeque ≠ [] → s.outstanding.length = 1
  whole : s.shutdownInProgress = false → handed s.trace ++ s.writeDeque = sent s.trace

theorem direct_in_order (s : State B) (direct : Direct s) : InOrder s where
  single := by
    rw [direct.unused.1]
    exact direct.single
  flag := fun unmarked => ⟨direct.flag unmarked, fun one => direct.busy (List.ne_nil_of_length_pos (by omega))⟩
  busy := fun unmarked waits => direct.flag unmarked (direct.waiting waits)
  whole := direct.whole

theorem direct_writes_in_order :
    (∀ s : State B, Machine.Reachable step DirectOnly (construct false) s → InOrder s) ∧
    (∀ s : State B, Machine.Reachable step Peaceful (construct false) s → s.socketClosed = true →
      sentBefore s.trace <+: handed s.trace ∧ sentBefore s.trace <+: completed s.trace) := by
  constructor
  · exact fun s reachable => direct_in_order s (reachable_direct _ (fun _ _ allowed => allowed) s reachable)
  · intro s reachable closed
    have direct := reachable_direct _ (fun _ _ peaceful => peaceful.1) s reachable
    have written := ((reachable_calm s reachable).flushed (.inl closed)).written
    exact ⟨written.trans (direct.order ▸ List.prefix_append _ _), written⟩

-- Two messages are on their way when the session is closed, and one more is
-- sent before the last write completes.
theorem direct_writes_in_order_closed :
    ∃ s : State Nat, Machine.Reachable step Peaceful (construct false) s ∧ s.socketClosed = true ∧
      sentBefore s.trace = [7, 8] ∧ sentBefore s.trace <+: handed s.trace ∧ sentBefore s.trace <+: completed s.trace ∧
      InOrder s := by
  obtain ⟨s, reachable, shown⟩ := Machine.run_exhibits step Peaceful (construct false)
    ([.start true true, .asyncSend (some 7) inlined, .asyncSend (some 8) inlined, .close false inlined,
      .writeCompletes 0 true inlined, .asyncSend (some 9) inlined, .writeCompletes 0 true inlined,
      .writeCompletes 0 true posted, .runWork 0 inlined] : List (Action Nat))
    (fun s => s.socketClosed && sentBefore s.trace == [7, 8]) (by decide)
  simp only [Bool.and_eq_true, beq_iff_eq] at shown
  have wider := Machine.reachable_weaken step Peaceful DirectOnly _ (fun _ _ _ peaceful => peaceful.1) s reachable
  obtain ⟨hands, completes⟩ := direct_writes_in_order.2 s reachable shown.1
  exact ⟨s, reachable, shown.1, shown.2, hands, completes, direct_writes_in_order.1 s wider⟩

end Vectro.Session
