import Vectro.Session

set_option autoImplicit false

namespace Vectro.Session

variable {B : Type}

def Event.isDisconnected : Event B → Bool
  | .disconnected => true
  | _ => false

-- How often on_disconnect_ has been invoked.
def disconnects (log : List (Event B)) : Nat := log.countP Event.isDisconnected

theorem disconnects_append (log more : List (Event B)) (silent : ∀ event ∈ more, event.isDisconnected = false) :
    disconnects (log ++ more) = disconnects log := by
  have none : more.countP Event.isDisconnected = 0 := List.countP_eq_zero.mpr fun event member => by
    simp [silent event member]
  rw [disconnects, List.countP_append, none]
  rfl

theorem handed_silent (hands : List B) : ∀ event ∈ List.map Event.handed hands, event.isDisconnected = false := by
  intro event member
  obtain ⟨buffers, _, rfl⟩ := List.mem_map.mp member
  rfl

-- The test Close(false) makes in direct mode.
def State.drained (s : State B) : Bool := !s.useWriteQueue && !s.writeInProgress && s.writeDeque.isEmpty

-- The step runs Close(true) inside the call: it was called, or the last write
-- or a Close(false) with nothing to wait for has called it.
def State.forces (s : State B) : Action B → Bool
  | .close true inline => inline.executor
  | .close false inline => inline.executor && s.drained
  | .runWork i inline =>
      match s.work[i]? with
      | some true => true
      | some false => inline.executor && s.drained
      | none => false
  | .writeCompletes _ true inline => inline.executor && s.gracefulShutdown && s.writeDeque.isEmpty
  | _ => false

-- A session comes to its end in one of two ways. Every other step leaves the
-- flag, the socket and on_disconnect_ alone.
structure Kept (s after : State B) : Prop where
  marked : after.shutdownInProgress = s.shutdownInProgress
  socket : after.socketClosed = s.socketClosed
  stack : .disconnect ∈ after.stack → .disconnect ∈ s.stack
  framer : after.framer = false → s.framer = false ∨ s.shutdownInProgress = true
  reports : disconnects after.trace = disconnects s.trace

structure Forced (s after : State B) : Prop where
  unmarked : s.shutdownInProgress = false
  marked : after.shutdownInProgress = true
  socket : after.socketClosed = true
  reports : disconnects after.trace = disconnects s.trace

structure Ended (s after : State B) : Prop where
  unmarked : s.shutdownInProgress = false
  marked : after.shutdownInProgress = true
  socket : after.socketClosed = s.socketClosed
  reports : disconnects after.trace = disconnects s.trace + s.onDisconnect.toNat

theorem kept_same (s after : State B) (reports : disconnects after.trace = disconnects s.trace)
    (marked : after.shutdownInProgress = s.shutdownInProgress := by rfl)
    (socket : after.socketClosed = s.socketClosed := by rfl) (stack : after.stack = s.stack := by rfl)
    (framer : after.framer = s.framer := by rfl) : Kept s after :=
  ⟨marked, socket, fun member => stack ▸ member, fun gone => .inl (framer ▸ gone), reports⟩

theorem kept_trans (s middle after : State B) (first : Kept s middle) (second : Kept middle after) : Kept s after where
  marked := second.marked.trans first.marked
  socket := second.socket.trans first.socket
  stack := fun member => first.stack (second.stack member)
  framer := by
    intro gone
    rcases second.framer gone with before | marked
    · exact first.framer before
    · exact .inr (first.marked ▸ marked)
  reports := second.reports.trans first.reports

theorem kept_forced (s middle after : State B) (first : Kept s middle) (second : Forced middle after) : Forced s after :=
  ⟨first.marked ▸ second.unmarked, second.marked, second.socket, second.reports.trans first.reports⟩

theorem emit_kept (s : State B) (event : Event B) (silent : event.isDisconnected = false) : Kept s (s.emit event) :=
  kept_same s _ (disconnects_append _ _ (by simpa using silent))

theorem aside_kept (s after : State B) (aside : Aside s after) : Kept s after :=
  ⟨aside.shutdownInProgress, aside.socketClosed, aside.stack, fun gone => .inl (aside.framer ▸ gone), by rw [aside.trace]⟩

theorem run_queue_kept (s : State B) (call : QueueCall B) : Kept s (s.runQueue call) := by
  obtain ⟨queue, hands, same⟩ := run_queue_frame s call
  rw [same]
  exact kept_same s _ (disconnects_append _ _ (handed_silent hands))

theorem dispatch_queue_kept (s : State B) (call : QueueCall B) (inline : Inline) : Kept s (s.dispatchQueue call inline) := by
  obtain ⟨queue, strandWork, hands, same⟩ := dispatch_queue_frame s call inline
  rw [same]
  exact kept_same s _ (disconnects_append _ _ (handed_silent hands))

theorem close_forced_teardown (s : State B) (inline : Inline) :
    Kept s (s.closeForced inline) ∨ Forced s (s.closeForced inline) := by
  cases marked : s.shutdownInProgress with
  | true =>
      rw [close_forced_again s inline marked]
      exact .inl (emit_kept s _ rfl)
  | false =>
      obtain ⟨queue, strandWork, hands, same, _⟩ := close_forced_frame s inline marked
      rw [same]
      refine .inr ⟨marked, rfl, rfl, disconnects_append _ _ ?_⟩
      intro event member
      rcases List.mem_cons.mp member with rfl | later
      · rfl
      · exact handed_silent hands event later

theorem dispatch_forced_teardown (s : State B) (inline : Inline) :
    Kept s (s.dispatchForced inline) ∨ (inline.executor = true ∧ Forced s (s.dispatchForced inline)) := by
  unfold State.dispatchForced
  split
  · rename_i inside
    rcases close_forced_teardown s inline with kept | forced
    · exact .inl kept
    · exact .inr ⟨inside, forced⟩
  · exact .inl (kept_same s _ rfl)

theorem close_graceful_teardown (s : State B) (inline : Inline) :
    Kept s (s.closeGraceful inline) ∨
      (inline.executor = true ∧ s.drained = true ∧ Forced s (s.closeGraceful inline)) := by
  have logged := emit_kept s (.closed false) rfl
  unfold State.closeGraceful
  split
  · exact .inl logged
  · have marked : Kept s { s.emit (.closed false) with gracefulShutdown := true } :=
      kept_same s _ logged.reports
    dsimp only
    split
    · exact .inl (kept_trans s _ _ marked (dispatch_queue_kept _ _ inline))
    · rename_i direct
      split
      · rename_i idle
        rcases dispatch_forced_teardown _ inline with kept | ⟨inside, forced⟩
        · exact .inl (kept_trans s _ _ marked kept)
        · exact .inr ⟨inside, by simp_all [State.drained], kept_forced s _ _ marked forced⟩
      · exact .inl marked

theorem run_close_teardown (s : State B) (force : Bool) (inline : Inline) :
    Kept s (s.runClose force inline) ∨
      ((force = true ∨ (inline.executor = true ∧ s.drained = true)) ∧ Forced s (s.runClose force inline)) := by
  cases force with
  | true =>
      rcases close_forced_teardown s inline with kept | forced
      · exact .inl kept
      · exact .inr ⟨.inl rfl, forced⟩
  | false =>
      rcases close_graceful_teardown s inline with kept | ⟨inside, drained, forced⟩
      · exact .inl kept
      · exact .inr ⟨.inr ⟨inside, drained⟩, forced⟩

theorem write_next_teardown (s : State B) (inline : Inline) :
    Kept s (s.writeNext inline) ∨
      ((inline.executor = true ∧ s.gracefulShutdown = true ∧ s.writeDeque = []) ∧ Forced s (s.writeNext inline)) := by
  unfold State.writeNext
  split
  · rename_i empty
    have idle : Kept s { s with writeInProgress := false } := kept_same s _ rfl
    dsimp only
    split
    · rename_i graceful
      rcases dispatch_forced_teardown _ inline with kept | ⟨inside, forced⟩
      · exact .inl (kept_trans s _ _ idle kept)
      · exact .inr ⟨⟨inside, graceful, empty⟩, kept_forced s _ _ idle forced⟩
    · exact .inl idle
  · exact .inl (kept_same s _ (emit_kept s _ rfl).reports)

theorem finish_shutdown_kept (s : State B) (inline : Inline) (marked : s.shutdownInProgress = true) :
    Kept s (s.finishShutdown inline) := by
  obtain ⟨queue, strandWork, work, closes, hands, same, _, _⟩ := finish_shutdown_frame s inline marked
  rw [same]
  refine ⟨rfl, rfl, id, fun _ => .inr marked, disconnects_append _ _ ?_⟩
  intro event member
  rcases List.mem_append.mp member with closing | handing
  · obtain ⟨force, _, rfl⟩ := List.mem_map.mp closing
    rfl
  · exact handed_silent hands event handing

theorem shutdown_ended (s : State B) (inline : Inline) (unmarked : s.shutdownInProgress = false) :
    Ended s (s.shutdown inline) := by
  rw [State.shutdown, if_neg (by simp [unmarked])]
  dsimp only
  split
  · rename_i registered
    refine ⟨unmarked, rfl, rfl, ?_⟩
    rw [registered]
    simp [State.emit, disconnects, Event.isDisconnected]
  · rename_i silent
    have finished := finish_shutdown_kept { s with shutdownInProgress := true } inline rfl
    have absent : s.onDisconnect = false := by simpa using silent
    refine ⟨unmarked, finished.marked, finished.socket, ?_⟩
    rw [finished.reports, absent]
    rfl

theorem send_kept (s : State B) (buffers : B) (inline : Inline) : Kept s (s.send buffers inline) := by
  have logged := emit_kept s (.sent buffers) rfl
  unfold State.send
  dsimp only
  split
  · exact kept_trans s _ _ logged (dispatch_queue_kept _ _ inline)
  · have queued : Kept s { s.emit (.sent buffers) with writeDeque := s.writeDeque ++ [buffers] } :=
      kept_same s _ logged.reports
    split
    · exact queued
    · rcases write_next_teardown _ inline with kept | ⟨⟨_, _, empty⟩, _⟩
      · exact kept_trans s _ _ queued kept
      · exact absurd empty (by simp)

-- What on_disconnect_ runs inside, and what comes after it, happens with the
-- flag set.
structure Marked (s : State B) : Prop where
  stack : .disconnect ∈ s.stack → s.shutdownInProgress = true
  framer : s.framer = false → s.shutdownInProgress = true
  socket : s.socketClosed = true → s.shutdownInProgress = true

theorem step_teardown (s after : State B) (action : Action B) (marked : Marked s) (taken : step s action = some after) :
    Kept s after ∨ (s.forces action = true ∧ Forced s after) ∨ (s.ends action = true ∧ Ended s after) := by
  refine step_preserves (fun after => Kept s after ∨ (s.forces action = true ∧ Forced s after) ∨
    (s.ends action = true ∧ Ended s after)) s after action taken ?_ ?_ ?_ ?_ ?_ ?_ ?_ ?_ ?_ ?_ ?_ ?_ ?_
  · exact fun after aside => .inl (aside_kept s after aside)
  · exact fun buffers inline _ _ => .inl (send_kept s buffers inline)
  · exact fun _ _ => .inl (kept_same s _ rfl)
  · exact fun _ _ _ => .inl (kept_same s _ rfl)
  · rintro force inline rfl inside
    rcases run_close_teardown s force inline with kept | ⟨forces, forced⟩
    · exact .inl kept
    · refine .inr (.inl ⟨?_, forced⟩)
      cases force <;> simp_all [State.forces]
  · rintro i force inline rfl found
    have popped : Kept s { s with work := s.work.eraseIdx i } := kept_same s _ rfl
    rcases run_close_teardown { s with work := s.work.eraseIdx i } force inline with kept | ⟨forces, forced⟩
    · exact .inl (kept_trans s _ _ popped kept)
    · refine .inr (.inl ⟨?_, kept_forced s _ _ popped forced⟩)
      have same : ({ s with work := s.work.eraseIdx i } : State B).drained = s.drained := rfl
      cases force <;> simp_all [State.forces]
  · intro before inline aside registered ends
    have kept := aside_kept s before aside
    have unmarked := ends_unmarked s action ends
    have ended := shutdown_ended before inline (kept.marked.trans unmarked)
    refine .inr (.inr ⟨ends, unmarked, ended.marked, ended.socket.trans kept.socket, ?_⟩)
    rw [ended.reports, kept.reports, registered]
  · intro before inline _ aside waiting
    have kept := aside_kept s before aside
    exact .inl (kept_trans s _ _ kept (finish_shutdown_kept before inline (kept.marked.trans (marked.stack (List.mem_of_head? waiting)))))
  · rintro i buffers inline rfl _
    have idle : Kept s { s.completed i buffers true with writeInProgress := false } :=
      kept_same s _ (emit_kept s _ rfl).reports
    rcases write_next_teardown _ inline with kept | ⟨⟨inside, graceful, empty⟩, forced⟩
    · exact .inl (kept_trans s _ _ idle kept)
    · refine .inr (.inl ⟨?_, kept_forced s _ _ idle forced⟩)
      have before : s.gracefulShutdown = true ∧ s.writeDeque = [] := ⟨graceful, empty⟩
      simp [State.forces, inside, before]
  · rintro i buffers inline rfl _ unmarked
    have ended := shutdown_ended (s.completed i buffers false) inline unmarked
    refine .inr (.inr ⟨by simp [State.ends, unmarked], unmarked, ended.marked, ended.socket, ?_⟩)
    rw [ended.reports, State.completed, (emit_kept _ _ rfl).reports]
    rfl
  · rintro i buffers inline _ _ _
    exact .inl (kept_same s _ (emit_kept s _ rfl).reports)
  · intro i entry ok _ _
    exact .inl (kept_same s _ (by
      rw [State.queueCompletes, State.withQueue, disconnects_append _ _ (handed_silent _)]
      exact (emit_kept s _ rfl).reports))
  · intro call rest _ _
    have popped : Kept s { s with strandWork := rest } := kept_same s _ rfl
    exact .inl (kept_trans s _ _ popped (run_queue_kept _ call))

theorem step_marked (s after : State B) (action : Action B) (marked : Marked s) (taken : step s action = some after) :
    Marked after := by
  rcases step_teardown s after action marked taken with kept | ⟨_, forced⟩ | ⟨_, ended⟩
  · refine ⟨fun member => ?_, fun gone => ?_, fun closed => ?_⟩
    · exact kept.marked.trans (marked.stack (kept.stack member))
    · rcases kept.framer gone with earlier | flagged
      · exact kept.marked.trans (marked.framer earlier)
      · exact kept.marked.trans flagged
    · exact kept.marked.trans (marked.socket (kept.socket ▸ closed))
  · exact ⟨fun _ => forced.marked, fun _ => forced.marked, fun _ => forced.marked⟩
  · exact ⟨fun _ => ended.marked, fun _ => ended.marked, fun _ => ended.marked⟩

theorem construct_marked (useWriteQueue : Bool) : Marked (construct useWriteQueue : State B) := by
  constructor <;> simp [construct]

theorem reachable_marked (guard : State B → Action B → Prop) (useWriteQueue : Bool) (s : State B)
    (reachable : Machine.Reachable step guard (construct useWriteQueue) s) : Marked s :=
  Machine.reachable_invariant step guard _ Marked (construct_marked useWriteQueue)
    (fun before action after _ marked _ taken => step_marked before after action marked taken) s reachable

def ClosedDown (s : State B) : Prop := s.shutdownInProgress = true → s.work = [] → s.socketClosed = true

-- Shutdown sets shutdown_in_progress_ before it calls Close(true), which then
-- finds the flag set and returns.
def NeverEnds (s : State B) (action : Action B) : Prop := s.ends action = false

instance (s : State B) (action : Action B) : Decidable (NeverEnds s action) :=
  inferInstanceAs (Decidable (s.ends action = false))

theorem shutdown_closes_socket (useWriteQueue : Bool) (s : State B)
    (reachable : Machine.Reachable step NeverEnds (construct useWriteQueue) s) : ClosedDown s := by
  have tied : s.shutdownInProgress = true → s.socketClosed = true := by
    refine Machine.reachable_invariant step NeverEnds _
      (fun s => s.shutdownInProgress = true → s.socketClosed = true) (by simp [construct]) ?_ s reachable
    intro before action after earlier tied lasting taken flagged
    have marked := reachable_marked NeverEnds useWriteQueue before earlier
    rcases step_teardown before after action marked taken with kept | ⟨_, forced⟩ | ⟨ends, _⟩
    · exact kept.socket.trans (tied (kept.marked ▸ flagged))
    · exact forced.socket
    · exact absurd (ends.symm.trans lasting) (by decide)
  exact fun flagged _ => tied flagged

def inlined : Inline := ⟨true, true⟩

def posted : Inline := ⟨false, false⟩

-- The first read fails.
theorem shutdown_leaves_socket :
    ¬ ∀ s : State Nat, Machine.Reachable step (fun _ _ => True) (construct false) s → ClosedDown s := by
  intro claimed
  obtain ⟨s, reachable, shown⟩ := Machine.run_exhibits step (fun _ _ => True) (construct false)
    ([.start true true, .readCompletes .failed inlined, .callbackReturns false inlined] : List (Action Nat))
    (fun s => s.shutdownInProgress && s.work.isEmpty && !s.socketClosed) (by decide)
  simp only [Bool.and_eq_true, List.isEmpty_iff, Bool.not_eq_true'] at shown
  exact absurd (shown.2.symm.trans (claimed s reachable shown.1.1 shown.1.2)) (by decide)

-- The graceful close waits for the write, and what it posts closes the socket.
theorem shutdown_closes_socket_drained :
    ∃ s : State Nat, Machine.Reachable step NeverEnds (construct false) s ∧ s.shutdownInProgress = true ∧ s.work = [] ∧
      s.socketClosed = true := by
  obtain ⟨s, reachable, shown⟩ := Machine.run_exhibits step NeverEnds (construct false)
    ([.start true true, .asyncSend (some 7) inlined, .close false posted, .runWork 0 inlined, .writeCompletes 0 true posted,
      .runWork 0 inlined, .readCompletes .failed inlined] : List (Action Nat))
    (fun s => s.shutdownInProgress && s.work.isEmpty) (by decide)
  simp only [Bool.and_eq_true, List.isEmpty_iff] at shown
  exact ⟨s, reachable, shown.1, shown.2, shutdown_closes_socket false s reachable shown.1 shown.2⟩

def Reported (s : State B) : Prop := s.shutdownInProgress = true → s.work = [] → disconnects s.trace = 1

-- Close(true) sets the flag without a call of on_disconnect_, and Shutdown then
-- never gets to it. So no forced close may come first, and Shutdown has to find
-- a handler.
def EndsReported (s : State B) (action : Action B) : Prop :=
  (s.ends action = true → s.onDisconnect = true) ∧ (s.shutdownInProgress = false → s.forces action = false)

instance (s : State B) (action : Action B) : Decidable (EndsReported s action) :=
  inferInstanceAs (Decidable (_ ∧ _))

theorem disconnects_bounded (useWriteQueue : Bool) (s : State B)
    (reachable : Machine.Reachable step (fun _ _ => True) (construct useWriteQueue) s) :
    disconnects s.trace ≤ s.shutdownInProgress.toNat := by
  refine Machine.reachable_invariant step _ _ (fun s => disconnects s.trace ≤ s.shutdownInProgress.toNat)
    (Nat.le_refl _) ?_ s reachable
  intro before action after earlier bounded _ taken
  have marked := reachable_marked _ useWriteQueue before earlier
  rcases step_teardown before after action marked taken with kept | ⟨_, forced⟩ | ⟨_, ended⟩
  · rw [kept.reports, kept.marked]
    exact bounded
  · rw [forced.unmarked] at bounded
    rw [forced.reports, forced.marked]
    exact Nat.le_succ_of_le bounded
  · rw [ended.unmarked] at bounded
    have once := Bool.toNat_le before.onDisconnect
    rw [ended.reports, ended.marked]
    exact Nat.add_le_add bounded once

theorem disconnects_exact (useWriteQueue : Bool) (s : State B)
    (reachable : Machine.Reachable step EndsReported (construct useWriteQueue) s) :
    disconnects s.trace = s.shutdownInProgress.toNat := by
  refine Machine.reachable_invariant step EndsReported _ (fun s => disconnects s.trace = s.shutdownInProgress.toNat)
    rfl ?_ s reachable
  intro before action after earlier exactly allowed taken
  have marked := reachable_marked _ useWriteQueue before earlier
  rcases step_teardown before after action marked taken with kept | ⟨forces, forced⟩ | ⟨ends, ended⟩
  · rw [kept.reports, kept.marked]
    exact exactly
  · exact absurd (forces.symm.trans (allowed.2 forced.unmarked)) (by decide)
  · rw [ended.unmarked] at exactly
    rw [ended.reports, ended.marked, exactly, allowed.1 ends]
    rfl

theorem disconnection_reported_once (useWriteQueue : Bool) :
    (∀ s : State B, Machine.Reachable step (fun _ _ => True) (construct useWriteQueue) s → disconnects s.trace ≤ 1) ∧
    (∀ s : State B, Machine.Reachable step EndsReported (construct useWriteQueue) s → Reported s) := by
  constructor
  · intro s reachable
    exact Nat.le_trans (disconnects_bounded useWriteQueue s reachable) (Bool.toNat_le _)
  · intro s reachable flagged _
    rw [disconnects_exact useWriteQueue s reachable, flagged]
    rfl

theorem forced_close_unreported :
    ¬ ∀ s : State Nat, Machine.Reachable step (fun _ _ => True) (construct false) s → Reported s := by
  intro claimed
  obtain ⟨s, reachable, shown⟩ := Machine.run_exhibits step (fun _ _ => True) (construct false)
    ([.start true true, .close true inlined] : List (Action Nat))
    (fun s => s.shutdownInProgress && s.work.isEmpty && disconnects s.trace == 0) (by decide)
  simp only [Bool.and_eq_true, List.isEmpty_iff, beq_iff_eq] at shown
  exact absurd (shown.2.symm.trans (claimed s reachable shown.1.1 shown.1.2)) (by decide)

-- The write fails, the handler sends and closes once more, and then the idle
-- timer expires.
theorem disconnection_reported_once_failed :
    ∃ s : State Nat, Machine.Reachable step EndsReported (construct false) s ∧ s.shutdownInProgress = true ∧ s.work = [] ∧
      disconnects s.trace = 1 := by
  obtain ⟨s, reachable, shown⟩ := Machine.run_exhibits step EndsReported (construct false)
    ([.start true true, .asyncSend (some 7) inlined, .writeCompletes 0 false inlined, .asyncSend (some 8) inlined,
      .close true inlined, .callbackReturns false posted, .runWork 0 inlined, .idleTimer true inlined] : List (Action Nat))
    (fun s => s.shutdownInProgress && s.work.isEmpty) (by decide)
  simp only [Bool.and_eq_true, List.isEmpty_iff] at shown
  exact ⟨s, reachable, shown.1, shown.2, (disconnection_reported_once false).2 s reachable shown.1 shown.2⟩

end Vectro.Session
