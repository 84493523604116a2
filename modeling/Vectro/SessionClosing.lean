import Vectro.SessionTeardown

set_option autoImplicit false

namespace Vectro.Session

variable {B : Type}

-- What Close(force) has come to once it has run.
def State.Flagged (s : State B) (force : Bool) : Prop :=
  s.shutdownInProgress = true ∨ (force = false ∧ s.gracefulShutdown = true)

-- No step takes back a flag or forgets an event, and a posted Close leaves what
-- is posted only by running.
structure Onward (s after : State B) : Prop where
  work : ∀ force ∈ s.work, force ∈ after.work ∨ .closed force ∈ after.trace
  trace : ∀ event ∈ s.trace, event ∈ after.trace
  flagged : ∀ force, s.Flagged force → after.Flagged force
  closes : ∀ force, .closed force ∈ after.trace → .closed force ∈ s.trace ∨ after.Flagged force

theorem onward_trans (s middle after : State B) (first : Onward s middle) (second : Onward middle after) : Onward s after where
  work force member := by
    rcases first.work force member with posted | ran
    · exact second.work force posted
    · exact .inr (second.trace _ ran)
  trace event member := second.trace event (first.trace event member)
  flagged force held := second.flagged force (first.flagged force held)
  closes force member := by
    rcases second.closes force member with earlier | held
    · rcases first.closes force earlier with before | held
      · exact .inl before
      · exact .inr (second.flagged force held)
    · exact .inr held

theorem aside_onward (s after : State B) (aside : Aside s after) : Onward s after where
  work force member := .inl (by rwa [aside.work])
  trace event member := by rwa [aside.trace]
  flagged force held := by rwa [State.Flagged, aside.shutdownInProgress, aside.gracefulShutdown]
  closes force member := by
    rw [aside.trace] at member
    exact .inl member

-- Anything but a Close is logged.
theorem logs_onward (s after : State B) (events : List (Event B)) (trace : after.trace = s.trace ++ events)
    (silent : ∀ force, .closed force ∉ events) (work : after.work = s.work := by rfl)
    (shutdown : after.shutdownInProgress = s.shutdownInProgress := by rfl)
    (graceful : after.gracefulShutdown = s.gracefulShutdown := by rfl) : Onward s after where
  work force member := .inl (by rwa [work])
  trace event member := by
    rw [trace]
    exact List.mem_append_left _ member
  flagged force held := by rwa [State.Flagged, shutdown, graceful]
  closes force member := by
    rw [trace] at member
    rcases List.mem_append.mp member with old | new
    · exact .inl old
    · exact absurd new (silent force)

theorem quiet_onward (s after : State B) (trace : after.trace = s.trace := by rfl) (work : after.work = s.work := by rfl)
    (shutdown : after.shutdownInProgress = s.shutdownInProgress := by rfl)
    (graceful : after.gracefulShutdown = s.gracefulShutdown := by rfl) : Onward s after :=
  logs_onward s after [] (by rw [trace, List.append_nil]) (by simp) work shutdown graceful

theorem run_queue_onward (s : State B) (call : QueueCall B) : Onward s (s.runQueue call) := by
  obtain ⟨queue, hands, same⟩ := run_queue_frame s call
  rw [same]
  exact logs_onward s _ _ rfl (by simp)

theorem dispatch_queue_onward (s : State B) (call : QueueCall B) (inline : Inline) : Onward s (s.dispatchQueue call inline) := by
  obtain ⟨queue, strandWork, hands, same⟩ := dispatch_queue_frame s call inline
  rw [same]
  exact logs_onward s _ _ rfl (by simp)

theorem close_onward (s after : State B) (force : Bool) (trace : after.trace = s.trace ++ [.closed force])
    (work : after.work = s.work) (flagged : ∀ force, s.Flagged force → after.Flagged force) (heeded : after.Flagged force) :
    Onward s after where
  work other member := .inl (by rwa [work])
  trace event member := by
    rw [trace]
    exact List.mem_append_left _ member
  flagged := flagged
  closes other member := by
    rw [trace] at member
    rcases List.mem_append.mp member with old | new
    · exact .inl old
    · cases List.mem_singleton.mp new
      exact .inr heeded

theorem close_forced_onward (s : State B) (inline : Inline) : Onward s (s.closeForced inline) := by
  unfold State.closeForced
  dsimp only
  by_cases marked : s.shutdownInProgress = true
  · rw [if_pos marked]
    exact close_onward s _ true rfl rfl (fun _ held => held) (.inl marked)
  · rw [if_neg marked]
    have closed : Onward s { s.emit (.closed true) with shutdownInProgress := true, socketClosed := true, writeDeque := [] } :=
      close_onward s _ true rfl rfl (fun _ _ => .inl rfl) (.inl rfl)
    split
    · exact onward_trans s _ _ closed (dispatch_queue_onward _ _ inline)
    · exact closed

theorem post_onward (s : State B) (force : Bool) : Onward s { s with work := s.work ++ [force] } where
  work _ member := .inl (List.mem_append_left _ member)
  trace _ member := member
  flagged _ held := held
  closes _ member := .inl member

theorem dispatch_forced_onward (s : State B) (inline : Inline) : Onward s (s.dispatchForced inline) := by
  unfold State.dispatchForced
  split
  · exact close_forced_onward s inline
  · exact post_onward s true

theorem close_graceful_onward (s : State B) (inline : Inline) : Onward s (s.closeGraceful inline) := by
  unfold State.closeGraceful
  dsimp only
  by_cases marked : s.shutdownInProgress = true
  · rw [if_pos marked]
    exact close_onward s _ false rfl rfl (fun _ held => held) (.inl marked)
  · rw [if_neg marked]
    have closed : Onward s { s.emit (.closed false) with gracefulShutdown := true } := by
      refine close_onward s _ false rfl rfl (fun force held => ?_) (.inr ⟨rfl, rfl⟩)
      rcases held with shut | ⟨graceful, _⟩
      · exact .inl shut
      · exact .inr ⟨graceful, rfl⟩
    split
    · exact onward_trans s _ _ closed (dispatch_queue_onward _ _ inline)
    · split
      · exact onward_trans s _ _ closed (dispatch_forced_onward _ inline)
      · exact closed

theorem run_close_onward (s : State B) (force : Bool) (inline : Inline) : Onward s (s.runClose force inline) := by
  cases force with
  | true => exact close_forced_onward s inline
  | false => exact close_graceful_onward s inline

theorem finish_shutdown_onward (s : State B) (inline : Inline) : Onward s (s.finishShutdown inline) := by
  have forced : Onward s { s.dispatchForced inline with writeDeque := [] } :=
    onward_trans s _ _ (dispatch_forced_onward s inline) (quiet_onward _ _)
  unfold State.finishShutdown
  dsimp only
  split
  · exact onward_trans s _ _ (onward_trans s _ _ forced (dispatch_queue_onward _ _ inline)) (quiet_onward _ _)
  · exact onward_trans s _ _ forced (quiet_onward _ _)

theorem shutdown_onward (s : State B) (inline : Inline) : Onward s (s.shutdown inline) := by
  have marked : Onward s { s with shutdownInProgress := true } :=
    ⟨fun _ member => .inl member, fun _ member => member, fun _ _ => .inl rfl, fun _ member => .inl member⟩
  unfold State.shutdown
  dsimp only
  split
  · exact aside_onward s s (aside_refl s)
  · split
    · exact onward_trans s _ _ marked (logs_onward _ _ [.disconnected] rfl (by simp))
    · exact onward_trans s _ _ marked (finish_shutdown_onward _ inline)

theorem write_next_onward (s : State B) (inline : Inline) : Onward s (s.writeNext inline) := by
  have idle : Onward s { s with writeInProgress := false } := quiet_onward s _
  unfold State.writeNext
  split
  · dsimp only
    split
    · exact onward_trans s _ _ idle (dispatch_forced_onward _ inline)
    · exact idle
  · exact logs_onward s _ [_] rfl (by simp)

theorem send_onward (s : State B) (buffers : B) (inline : Inline) : Onward s (s.send buffers inline) := by
  have logged : Onward s (s.emit (.sent buffers)) := logs_onward s _ [_] rfl (by simp)
  unfold State.send
  dsimp only
  split
  · exact onward_trans s _ _ logged (dispatch_queue_onward _ _ inline)
  · have queued : Onward s { s.emit (.sent buffers) with writeDeque := s.writeDeque ++ [buffers] } := logs_onward s _ [_] rfl (by simp)
    split
    · exact queued
    · exact onward_trans s _ _ queued (write_next_onward _ inline)

theorem completed_onward (s : State B) (i : Nat) (buffers : B) (ok : Bool) : Onward s (s.completed i buffers ok) :=
  logs_onward s _ [_] rfl (by simp)

theorem run_close_logs (s : State B) (force : Bool) (inline : Inline) : .closed force ∈ (s.runClose force inline).trace := by
  cases force with
  | true =>
      change _ ∈ (s.closeForced inline).trace
      by_cases marked : s.shutdownInProgress = true
      · rw [close_forced_again s inline marked]
        exact List.mem_append_right _ List.mem_cons_self
      · obtain ⟨queue, strandWork, hands, same, _⟩ := close_forced_frame s inline (by simpa using marked)
        rw [same]
        exact List.mem_append_right _ List.mem_cons_self
  | false =>
      change _ ∈ (s.closeGraceful inline).trace
      unfold State.closeGraceful
      dsimp only
      split
      · exact List.mem_append_right _ List.mem_cons_self
      · split
        · exact (dispatch_queue_onward _ _ inline).trace _ (List.mem_append_right _ List.mem_cons_self)
        · split
          · exact (dispatch_forced_onward _ inline).trace _ (List.mem_append_right _ List.mem_cons_self)
          · exact List.mem_append_right _ List.mem_cons_self

theorem run_work_onward (s : State B) (i : Nat) (force : Bool) (inline : Inline) (found : s.work[i]? = some force) :
    Onward s ({ s with work := s.work.eraseIdx i }.runClose force inline) := by
  have onward := run_close_onward { s with work := s.work.eraseIdx i } force inline
  refine ⟨?_, onward.trace, onward.flagged, onward.closes⟩
  intro other member
  by_cases same : other = force
  · rw [same]
    exact .inr (run_close_logs _ force inline)
  · obtain ⟨j, there⟩ := List.mem_iff_getElem?.mp member
    have apart : j ≠ i := by
      intro here
      rw [here, found] at there
      exact same (Option.some.inj there).symm
    exact onward.work other (List.mem_eraseIdx_iff_getElem?.mpr ⟨j, apart, there⟩)

theorem step_onward (s after : State B) (action : Action B) (taken : step s action = some after) : Onward s after := by
  refine step_preserves (Onward s) s after action taken ?_ ?_ ?_ ?_ ?_ ?_ ?_ ?_ ?_ ?_ ?_ ?_ ?_
  · intro next aside
    exact aside_onward s next aside
  · intro buffers inline _ _
    exact send_onward s buffers inline
  · intro enable _
    exact quiet_onward s _
  · intro force inline _
    exact post_onward s force
  · intro force inline _ _
    exact run_close_onward s force inline
  · intro i force inline _ found
    exact run_work_onward s i force inline found
  · intro before inline aside _ _
    exact onward_trans s _ _ (aside_onward s before aside) (shutdown_onward before inline)
  · intro before inline _ aside _
    exact onward_trans s _ _ (aside_onward s before aside) (finish_shutdown_onward before inline)
  · intro i buffers inline _ _
    apply onward_trans s _ _ (completed_onward s i buffers true)
    exact onward_trans _ _ _ (quiet_onward _ { s.completed i buffers true with writeInProgress := false }) (write_next_onward _ inline)
  · intro i buffers inline _ _ _
    exact onward_trans s _ _ (completed_onward s i buffers false) (shutdown_onward _ inline)
  · intro i buffers inline _ _ _
    exact completed_onward s i buffers false
  · intro i entry ok _ _
    have logged : Onward s (s.emit (.completed entry.buffers ok)) := logs_onward s _ [_] rfl (by simp)
    exact onward_trans s _ _ logged (logs_onward _ _ _ rfl (by simp))
  · intro call rest _ _
    exact onward_trans s _ _ (quiet_onward s { s with strandWork := rest }) (run_queue_onward _ call)

-- Close(force) has been called: it is posted, or it has run.
def State.Told (s : State B) (force : Bool) : Prop := force ∈ s.work ∨ .closed force ∈ s.trace

def Obedient (s : State B) : Prop := ∀ force, .closed force ∈ s.trace → s.Flagged force

theorem onward_told (s after : State B) (force : Bool) (onward : Onward s after) (told : s.Told force) : after.Told force := by
  rcases told with posted | ran
  · exact onward.work force posted
  · exact .inr (onward.trace _ ran)

theorem onward_obedient (s after : State B) (onward : Onward s after) (obedient : Obedient s) : Obedient after := by
  intro force ran
  rcases onward.closes force ran with before | held
  · exact onward.flagged force (obedient force before)
  · exact held

theorem close_told (s after : State B) (force : Bool) (inline : Inline) (taken : step s (.close force inline) = some after) :
    after.Told force := by
  unfold step at taken
  split at taken
  · cases taken
  · obtain rfl := Option.some.inj taken
    unfold State.close
    split
    · exact .inr (run_close_logs s force inline)
    · exact .inl (List.mem_append_right _ List.mem_cons_self)

-- Close reports nothing, in whatever state the session is.
theorem close_disconnects (s after : State B) (force : Bool) (inline : Inline) (taken : step s (.close force inline) = some after) :
    disconnects after.trace = disconnects s.trace := by
  unfold step at taken
  split at taken
  · cases taken
  · obtain rfl := Option.some.inj taken
    unfold State.close
    split
    · rcases run_close_teardown s force inline with kept | ⟨_, forced⟩
      · exact kept.reports
      · exact forced.reports
    · rfl

end Vectro.Session
