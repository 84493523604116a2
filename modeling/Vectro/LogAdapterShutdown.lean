import Mathlib.Data.List.Infix
import Vectro.LogAdapterDelivery

set_option autoImplicit false

namespace Vectro.Log

variable {C : Type}

-- The worker has left its loop for good.
def WorkerPc.leaving : WorkerPc C → Bool
  | .drain => true
  | pc => pc.drained

theorem wake_leaving (pc : WorkerPc C) : pc.wake.leaving = pc.leaving := by cases pc <;> rfl

theorem after_drops_leaving (drained : Bool) : (afterDrops drained : WorkerPc C).leaving = drained := by
  cases drained <;> rfl

-- The loop is left in one place, where running_ is false and the queue empty.
theorem worker_move_leaving (s after : State C) (pc : WorkerPc C) (stands : s.worker = pc) (moves : WorkerMove s pc after) :
    after.worker.leaving = s.worker.leaving ∨ (s.running = false ∧ s.queue = []) := by
  rw [stands]
  cases moves with
  | leave shut empty => exact .inr ⟨shut, empty⟩
  | undropped drained | early _ drained | notify _ drained => exact .inl (after_drops_leaving drained)
  | unset => exact .inl (by rw [State.undefined, stands])
  | _ => exact .inl rfl

theorem move_leaving (s after : State C) (action : Action C) (moves : Move s action after) :
    (after.worker.leaving = s.worker.leaving ∨ (s.running = false ∧ s.queue = [])) ∧
      (after.running = s.running ∨ (action = .destroy ∧ after.running = false)) := by
  cases moves with
  | call _ i call after acts found moves =>
      cases moves with
      | signal => exact ⟨.inl (wake_leaving _), .inl rfl⟩
      | _ => exact ⟨.inl rfl, .inl rfl⟩
  | worker _ pc after acts stands moves =>
      refine ⟨worker_move_leaving s after pc stands moves, .inl ?_⟩
      cases moves <;> rfl
  | wake => exact ⟨.inl (wake_leaving _), .inl rfl⟩
  | shutdown => exact ⟨.inl (wake_leaving _), .inr ⟨rfl, rfl⟩⟩
  | register _ i registration after acts found moves => cases moves <;> exact ⟨.inl rfl, .inl rfl⟩
  | _ => exact ⟨.inl rfl, .inl rfl⟩

-- What has been dispatched, and what the worker still holds of its batch, only
-- grows.
theorem effect_held (s after : State C) (effect : Effect s after) :
    dispatchedMessages s.trace ++ s.worker.pending <+: dispatchedMessages after.trace ++ after.worker.pending := by
  cases effect with
  | aside log queue worker running stopped signalling trace quiet =>
      rw [worker, trace, dispatched_aside _ _ quiet]
  | accepts i lm queue worker running stopped signalling trace =>
      have dispatched : dispatchedMessages (s.trace ++ [.accepted i lm]) = dispatchedMessages s.trace :=
        Traces.filter_map_quiet _ _ _ rfl
      rw [worker, trace, dispatched]
  | wakes queue worker stopped trace =>
      rw [worker, trace, wake_pending]
  | goes log queue stopped pending drained active awake trace quiet =>
      rw [pending, trace, dispatched_aside _ _ quiet]
  | dispatches log lm queue stopped pending drained active awake trace quiet =>
      have dispatched : dispatchedMessages (s.trace ++ log ++ [.dispatched lm]) = dispatchedMessages s.trace ++ [lm] := by
        rw [← dispatched_aside s.trace log quiet]
        exact Traces.filter_map_logs _ _ _ _ rfl
      rw [trace, dispatched, pending, List.append_assoc, List.singleton_append]
  | locks stopped idle swapped last active blocks trace =>
      have dispatched : dispatchedMessages (s.trace ++ [.locked]) = dispatchedMessages s.trace :=
        Traces.filter_map_quiet _ _ _ rfl
      rw [trace, dispatched, idle, List.append_nil]
      exact List.prefix_append _ _
  | stops queue old new trace =>
      rw [trace, old, new]
      exact List.prefix_refl _

theorem effect_accepted (s after : State C) (effect : Effect s after) : acceptedMessages s.trace <+: acceptedMessages after.trace := by
  have grows : ∀ log, after.trace = s.trace ++ log → acceptedMessages s.trace <+: acceptedMessages after.trace := by
    intro log trace
    rw [trace, acceptedMessages, acceptedMessages, List.filterMap_append]
    exact List.prefix_append _ _
  cases effect with
  | aside log queue worker running stopped signalling trace quiet => exact grows log trace
  | accepts i lm queue worker running stopped signalling trace => exact grows _ trace
  | wakes queue worker stopped trace => exact grows [] (by rw [trace, List.append_nil])
  | goes log queue stopped pending drained active awake trace quiet => exact grows log trace
  | dispatches log lm queue stopped pending drained active awake trace quiet => exact grows _ (by rw [trace, List.append_assoc])
  | locks stopped idle swapped last active blocks trace => exact grows _ trace
  | stops queue old new trace => exact grows [] (by rw [trace, List.append_nil])

theorem destroy_joined (s after : State C) (taken : destructor s = some after) (joined : after.destructor = .joined) :
    s.stopped = true ∧ after.worker = s.worker := by
  unfold destructor at taken
  split at taken
  · cases taken
    cases joined
  · cases taken
    dsimp only at joined
    split at joined <;> cases joined
  · cases taken
    dsimp only at joined
    split at joined <;> cases joined
  · cases taken
    dsimp only at joined
    split at joined
    · rename_i stopped
      exact ⟨stopped, rfl⟩
    · cases joined
  · cases taken
  · cases taken

theorem destroy_alive (s after : State C) (taken : destructor s = some after) : after.destructor ≠ .alive := by
  unfold destructor at taken
  split at taken
  · cases taken
    simp
  · cases taken
    dsimp only
    split <;> simp
  · cases taken
    dsimp only
    split <;> simp
  · cases taken
    dsimp only
    split <;> simp
  · cases taken
  · cases taken

theorem step_destroy (s after : State C) (taken : step s .destroy = some after) : destructor s = some after := by
  unfold step at taken
  split at taken
  · cases taken
  · split at taken
    · cases taken
    · exact taken

theorem step_destructor (s after : State C) (action : Action C) (taken : step s action = some after) :
    after.destructor = s.destructor ∨ destructor s = some after := by
  have moves := step_move s after action taken
  cases moves with
  | shutdown | destroy => exact .inr (step_destroy s _ taken)
  | call _ i call after acts found moves => exact .inl (by cases moves <;> rfl)
  | worker _ pc after acts stands moves => exact .inl (by cases moves <;> rfl)
  | register _ i registration after acts found moves => exact .inl (by cases moves <;> rfl)
  | _ => exact .inl rfl

theorem gone_worker (s after : State C) (action : Action C) (gone : s.destructor.over = true) (taken : step s action = some after) :
    after.worker = s.worker := by
  unfold step at taken
  rw [if_pos gone] at taken
  split at taken
  · cases taken
  · cases action with
    | worker | callback | wake =>
        obtain ⟨_, undefined⟩ := Option.ite_none_left_eq_some.mp taken
        cases undefined
        rfl
    | destroy => cases taken
    | _ =>
        cases taken
        rfl

-- While the adapter is alive, the worker is in its loop.
structure Attended (s : State C) : Prop where
  alive : s.destructor = .alive → s.running = true
  looping : s.running = true → s.worker.leaving = false
  joined : s.destructor = .joined → s.worker = .stopped

theorem step_attended (s after : State C) (action : Action C) (orderly : Orderly s) (attended : Attended s)
    (taken : step s action = some after) : Attended after := by
  obtain ⟨leaving, running⟩ := move_leaving s after action (step_move s after action taken)
  refine ⟨?_, ?_, ?_⟩
  · intro alive
    rcases step_destructor s after action taken with same | destroyed
    · rcases running with kept | ⟨rfl, _⟩
      · exact kept.trans (attended.alive (same ▸ alive))
      · exact absurd alive (destroy_alive s after (step_destroy s after taken))
    · exact absurd alive (destroy_alive s after destroyed)
  · intro runs
    rcases running with kept | ⟨_, shut⟩
    · have before := kept ▸ runs
      rcases leaving with same | ⟨shut, _⟩
      · exact same.trans (attended.looping before)
      · exact absurd (before.symm.trans shut) (by decide)
    · exact absurd (runs.symm.trans shut) (by decide)
  · intro joined
    rcases step_destructor s after action taken with same | destroyed
    · have before := same ▸ joined
      rw [gone_worker s after action (by rw [before]; rfl) taken]
      exact attended.joined before
    · obtain ⟨stopped, worker⟩ := destroy_joined s after destroyed joined
      exact worker.trans (orderly.stopped stopped)

theorem reachable_attended (id : String) (platform : Platform) (now steady : Int) (s : State C)
    (reachable : Machine.Reachable step (fun _ _ => True) (construct id platform now steady) s) : Attended s := by
  refine Machine.reachable_invariant step _ _ Attended ⟨fun _ => rfl, fun _ => rfl, by simp [construct]⟩ ?_ s reachable
  intro before action after earlier attended _ taken
  exact step_attended before after action (reachable_orderly id platform now steady before earlier) attended taken

-- base is what had been accepted in some earlier state.
structure Flushing (base : List LogMessage) (s : State C) : Prop where
  known : base <+: acceptedMessages s.trace
  held : s.worker.leaving = true → base <+: dispatchedMessages s.trace ++ s.worker.pending

theorem step_flushing (base : List LogMessage) (s after : State C) (action : Action C) (orderly : Orderly s)
    (flushing : Flushing base s) (taken : step s action = some after) : Flushing base after := by
  have moves := step_move s after action taken
  have effect := move_effect s after action moves
  refine ⟨flushing.known.trans (effect_accepted s after effect), fun leaves => ?_⟩
  rcases (move_leaving s after action moves).1 with same | ⟨_, empty⟩
  · exact (flushing.held (same ▸ leaves)).trans (effect_held s after effect)
  · have delivered := orderly.delivered
    rw [Delivered, empty, List.append_nil] at delivered
    exact (delivered ▸ flushing.known).trans (effect_held s after effect)

theorem later_flushing (id : String) (platform : Platform) (now steady : Int) (s later : State C)
    (reachable : Machine.Reachable step (fun _ _ => True) (construct id platform now steady) s) (alive : s.destructor = .alive)
    (onward : Machine.Reachable step (fun _ _ => True) s later) : Flushing (acceptedMessages s.trace) later := by
  refine Machine.reachable_invariant step _ _ (Flushing (acceptedMessages s.trace)) ⟨List.prefix_refl _, ?_⟩ ?_ later onward
  · intro leaves
    have attended := reachable_attended id platform now steady s reachable
    exact absurd (leaves.symm.trans (attended.looping (attended.alive alive))) (by decide)
  · intro before action after earlier flushing _ taken
    have whole := Machine.reachable_trans step _ _ _ before reachable earlier
    exact step_flushing _ before after action (reachable_orderly id platform now steady before whole) flushing taken

-- The destructor's own statements, and time going by.
def Unaided (_ : State C) : Action C → Prop
  | .destroy | .clock _ _ => True
  | _ => False

theorem destroy_once (s after : State C) (sound : s.fault = false) (ongoing : s.destructor.over = false)
    (taken : destructor s = some after) : Machine.Reachable step Unaided s after := by
  refine .step s after .destroy .start trivial ?_
  rw [step, if_neg (by simp [sound]), if_neg (by simp [ongoing])]
  exact taken

theorem join_ends (s : State C) (sound : s.fault = false) (here : s.destructor = .join) :
    ∃ final, Machine.Reachable step Unaided s final ∧ final.destructor.over = true := by
  refine ⟨_, destroy_once s _ sound (by rw [here]; rfl) (by rw [destructor, here]), ?_⟩
  dsimp only
  split <;> rfl

theorem timeout_ends (s : State C) (start : Int) (sound : s.fault = false) (here : s.destructor = .testTime start) :
    ∃ final, Machine.Reachable step Unaided s final ∧ final.destructor.over = true := by
  let late : State C := { s with steady := start + s.shutdownTimeout * 1000000 }
  have waits : Machine.Reachable step Unaided s late := by
    refine .step s late (.clock s.now (start + s.shutdownTimeout * 1000000)) .start trivial ?_
    rw [step, if_neg (by simp [sound]), if_neg (by rw [here]; simp [DestructorPc.over])]
  have expired : destructor late = some { late with destructor := .join } := by
    have passed : ¬ start + s.shutdownTimeout * 1000000 - start < s.shutdownTimeout * 1000000 := by omega
    have there : late.destructor = .testTime start := here
    rw [destructor, there]
    simp only [late, if_neg passed]
  obtain ⟨final, onward, ended⟩ := join_ends { late with destructor := .join } sound rfl
  have ongoing : late.destructor.over = false := congrArg DestructorPc.over here
  have tests := destroy_once late _ sound ongoing expired
  exact ⟨final, Machine.reachable_trans _ _ _ _ _ (Machine.reachable_trans _ _ _ _ _ waits tests) onward, ended⟩

theorem waiting_ends (s : State C) (start : Int) (sound : s.fault = false) (here : s.destructor = .testStopped start) :
    ∃ final, Machine.Reachable step Unaided s final ∧ final.destructor.over = true := by
  have tests : destructor s = some { s with destructor := if s.stopped then .join else .testTime start } := by rw [destructor, here]
  have first := destroy_once s _ sound (by rw [here]; rfl) tests
  by_cases stopped : s.stopped = true
  · rw [if_pos stopped] at first
    obtain ⟨final, onward, ended⟩ := join_ends { s with destructor := .join } sound rfl
    exact ⟨final, Machine.reachable_trans _ _ _ _ _ first onward, ended⟩
  · rw [if_neg stopped] at first
    obtain ⟨final, onward, ended⟩ := timeout_ends { s with destructor := .testTime start } start sound rfl
    exact ⟨final, Machine.reachable_trans _ _ _ _ _ first onward, ended⟩

theorem destructor_ends (s : State C) (sound : s.fault = false) :
    ∃ final, Machine.Reachable step Unaided s final ∧ final.destructor.over = true := by
  cases here : s.destructor with
  | alive =>
      have first := destroy_once s _ sound (by rw [here]; rfl) (by rw [destructor, here])
      obtain ⟨final, onward, ended⟩ :=
        waiting_ends ({ s with running := false, destructor := .testStopped s.steady }.signal) s.steady sound rfl
      exact ⟨final, Machine.reachable_trans _ _ _ _ _ first onward, ended⟩
  | testStopped start => exact waiting_ends s start sound here
  | testTime start => exact timeout_ends s start sound here
  | join => exact join_ends s sound here
  | joined | detached => exact ⟨s, .start, by rw [here]; rfl⟩

-- The destructor needs nobody's help to return, and if it has joined its worker
-- then everything accepted before it began has been dispatched.
theorem destruction_flushes (id : String) (platform : Platform) (now steady : Int) (s : State C)
    (reachable : Machine.Reachable step (fun _ _ => True) (construct id platform now steady) s) :
    (s.fault = false → ∃ final, Machine.Reachable step Unaided s final ∧ final.destructor.over = true) ∧
      (s.destructor = .alive → ∀ later, Machine.Reachable step (fun _ _ => True) s later → later.destructor = .joined →
        later.worker = .stopped ∧ acceptedMessages s.trace <+: dispatchedMessages later.trace) := by
  refine ⟨destructor_ends s, ?_⟩
  intro alive later onward joined
  have whole := Machine.reachable_trans step _ _ _ later reachable onward
  have worker := (reachable_attended id platform now steady later whole).joined joined
  have held := (later_flushing id platform now steady s later reachable alive onward).held (by rw [worker]; rfl)
  rw [worker] at held
  exact ⟨worker, by simpa [WorkerPc.pending] using held⟩

-- A message is accepted while the worker sleeps; then the adapter is destroyed.
def acceptedAsleep : List (Action Nat) := [[.clearCallbacks, .worker, .log 1 .info "up"], List.replicate 5 (.call 0)].flatten

def destroyedAwake : List (Action Nat) := [[.destroy], List.replicate 9 .worker, [.destroy, .destroy]].flatten

theorem destruction_flushes_one :
    ∃ s later : State Nat, Machine.Reachable step (fun _ _ => True) (construct "app" ⟨toString, id, 9⟩ 0 0) s ∧
      (acceptedMessages s.trace).map LogMessage.message = ["up"] ∧ Machine.Reachable step (fun _ _ => True) s later ∧
      later.destructor = .joined ∧ acceptedMessages s.trace <+: dispatchedMessages later.trace := by
  have evaluated : (Machine.run step (fun _ _ => True) (construct (C := Nat) "app" ⟨toString, id, 9⟩ 0 0) acceptedAsleep).any
      (fun s => decide (s.destructor = .alive) && decide ((acceptedMessages s.trace).map LogMessage.message = ["up"]) &&
        (Machine.run step (fun _ _ => True) s destroyedAwake).any fun later => decide (later.destructor = .joined)) = true := by
    decide
  obtain ⟨s, reachable, shown⟩ := Machine.run_exhibits step _ _ _ _ evaluated
  simp only [Bool.and_eq_true, decide_eq_true_eq] at shown
  obtain ⟨later, onward, joined⟩ := Machine.run_exhibits step _ s _ _ shown.2
  have flushed := (destruction_flushes "app" _ 0 0 s reachable).2 shown.1.1 later onward (of_decide_eq_true joined)
  exact ⟨s, later, reachable, shown.1.2, onward, of_decide_eq_true joined, flushed.2⟩

end Vectro.Log
