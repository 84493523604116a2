import Vectro.PoolDrain

set_option autoImplicit false

namespace Vectro.Pool

open Tally

variable {T W : Type}

def Event.isFinal : Event T W → Bool
  | .finalCallback => true
  | _ => false

-- The worker has done its fetch_sub on active_workers_.
def WorkerPc.signedOff : WorkerPc T W → Nat
  | .stop | .finished => 1
  | _ => 0

def State.signedOff (s : State T W) : Nat := total WorkerPc.signedOff s.workers

def Event.Allows (earlier later : Event T W) : Prop :=
  earlier.isFinal = true → later.isFinal = false ∧ later.ofWorker = false

structure Concluded (s : State T W) : Prop where
  active : (s.activeWorkers.toNat + s.signedOff) % 2 ^ 64 = s.workers.length % 2 ^ 64
  ended : (∃ event ∈ s.trace, event.isFinal = true) → s.destructor = .destroyed
  last : s.trace.Pairwise Event.Allows

theorem concluded_frame (s after : State T W) (concluded : Concluded s) (events : List (Event T W))
    (trace : after.trace = s.trace ++ events) (silent : ∀ event ∈ events, event.isFinal = false)
    (quiet : s.destructor = .destroyed → ∀ event ∈ events, event.ofWorker = false)
    (destructor : s.destructor = .destroyed → after.destructor = .destroyed)
    (active : after.activeWorkers.toNat + after.signedOff = s.activeWorkers.toNat + s.signedOff)
    (workers : after.workers.length = s.workers.length) : Concluded after where
  active := by
    rw [active, workers]
    exact concluded.active
  ended := by
    intro said
    obtain ⟨event, member, final⟩ := said
    rcases List.mem_append.mp (trace ▸ member) with old | new
    · exact destructor (concluded.ended ⟨event, old, final⟩)
    · rw [silent event new] at final
      cases final
  last := by
    rw [trace, List.pairwise_append]
    refine ⟨concluded.last, List.pairwise_of_forall_mem_list ?_, ?_⟩
    · intro a first b second final
      rw [silent a first] at final
      cases final
    · intro a first b second final
      exact ⟨silent b second, quiet (concluded.ended ⟨a, first, final⟩) b second⟩

theorem wake_signed_off (workers : List (WorkerPc T W)) :
    total WorkerPc.signedOff (workers.map WorkerPc.wake) = total WorkerPc.signedOff workers := by
  apply total_map
  intro pc
  cases pc <;> rfl

theorem of_call_quiet (event : Event T W) (called : event.ofCall = true) : event.isFinal = false ∧ event.ofWorker = false := by
  cases event <;> first | exact ⟨rfl, rfl⟩ | simp [Event.ofCall] at called

theorem of_worker_not_final (event : Event T W) (worked : event.ofWorker = true) : event.isFinal = false := by
  cases event <;> first | rfl | simp [Event.ofWorker] at worked

theorem finished_stays (s after : State T W) (w : Nat) (moves : WorkerMove s w .finished after) : False := by
  cases moves with
  | outside pc beyond => rcases beyond with ⟨own, _⟩ | ⟨_, _, sizes, _⟩ | ⟨_, steal, _⟩ <;> contradiction

theorem worker_move_concluded (s after : State T W) (w : Nat) (pc : WorkerPc T W) (found : s.workers[w]? = some pc)
    (moves : WorkerMove s w pc after) (joined : Joined s) (concluded : Concluded s) : Concluded after := by
  obtain ⟨events, trace, worked⟩ := worker_move_emits s after w pc moves
  have silent := fun event member => of_worker_not_final event (worked event member)
  have bound := (List.getElem?_eq_some_iff.mp found).1
  -- Past the joins no worker has a step left.
  have quiet : s.destructor ≠ .destroyed := by
    intro gone
    have finished := joined.finished w pc (by rw [gone]; exact bound) found
    subst finished
    exact finished_stays s after w moves
  have kept : ∀ next : WorkerPc T W, next.signedOff = pc.signedOff → total WorkerPc.signedOff (s.workers.set w next) = s.signedOff :=
    fun next same => total_set_same s.workers w pc next found WorkerPc.signedOff same
  have length : ∀ next : WorkerPc T W, (s.workers.set w next).length = s.workers.length := by simp
  cases moves with
  | leave =>
      have more : total WorkerPc.signedOff (s.workers.set w .stop) + 0 = s.signedOff + 1 :=
        worker_total_move s (s.setWorker w .stop) w _ _ found WorkerPc.signedOff rfl 0 1 rfl rfl
      have one : (1 : UInt64).toNat = 1 := rfl
      have active := concluded.active
      have below := s.activeWorkers.toNat_lt
      refine ⟨?_, concluded.ended, concluded.last⟩
      change ((s.activeWorkers - 1).toNat + total WorkerPc.signedOff (s.workers.set w .stop)) % 2 ^ 64 =
        (s.workers.set w .stop).length % 2 ^ 64
      rw [UInt64.toNat_sub, one, length]
      omega
  | outside =>
      exact concluded_frame s _ concluded events trace silent (fun gone => absurd gone quiet) (fun gone => gone) rfl rfl
  | _ =>
      exact concluded_frame s _ concluded events trace silent (fun gone => absurd gone quiet) (fun gone => gone)
        (congrArg (s.activeWorkers.toNat + ·) (kept _ rfl)) (length _)

theorem final_concluded (s : State T W) (here : s.destructor = .final) (concluded : Concluded s) :
    Concluded ({ s with destructor := .destroyed }.emit .finalCallback) where
  active := concluded.active
  ended := fun _ => rfl
  last := by
    rw [State.emit, List.pairwise_append]
    refine ⟨concluded.last, List.pairwise_singleton _ _, ?_⟩
    intro a first b second final
    have gone := concluded.ended ⟨a, first, final⟩
    rw [here] at gone
    cases gone

theorem move_concluded (s after : State T W) (action : Action T W) (moves : Move s action after) (joined : Joined s)
    (concluded : Concluded s) : Concluded after := by
  cases moves with
  | submit =>
      exact concluded_frame s _ concluded [_] rfl (by simp [Event.isFinal]) (by simp [Event.ofWorker]) (fun gone => gone) rfl rfl
  | call _ i call after acts found moves =>
      obtain ⟨events, trace, called⟩ := call_move_emits s after i call moves
      have silent := fun event member => (of_call_quiet event (called event member)).1
      have quiet := fun (_ : s.destructor = .destroyed) event member => (of_call_quiet event (called event member)).2
      cases moves with
      | signal =>
          exact concluded_frame s _ concluded events trace silent quiet (fun gone => gone)
            (congrArg (s.activeWorkers.toNat + ·) (wake_signed_off s.workers)) (List.length_map ..)
      | _ => exact concluded_frame s _ concluded events trace silent quiet (fun gone => gone) rfl rfl
  | worker _ w pc after acts found moves => exact worker_move_concluded s after w pc found moves joined concluded
  | destroy pc after here moves =>
      have going : pc ≠ .destroyed → ∀ next : DestructorPc, s.destructor = .destroyed → next = .destroyed :=
        fun other _ gone => absurd (here.symm.trans gone) other
      cases moves with
      | store =>
          exact concluded_frame s _ concluded [_] rfl (by simp [Event.isFinal]) (by simp [Event.ofWorker])
            (going (by simp) _) rfl rfl
      | signal =>
          exact concluded_frame s _ concluded [] (List.append_nil _).symm (by simp) (by simp) (going (by simp) _)
            (congrArg (s.activeWorkers.toNat + ·) (wake_signed_off s.workers)) (List.length_map ..)
      | drain next pc stands goes =>
          have other : pc ≠ .destroyed := by rcases stands with rfl | ⟨start, rfl | rfl⟩ <;> simp
          exact concluded_frame s _ concluded [] (List.append_nil _).symm (by simp) (by simp) (going other _) rfl rfl
      | final set => exact final_concluded s here concluded
      | _ =>
          exact concluded_frame s _ concluded [] (List.append_nil _).symm (by simp) (by simp) (going (by simp) _) rfl rfl
  | registerCallback | getDroppedCount =>
      exact concluded_frame s _ concluded [_] rfl (by simp [Event.isFinal]) (by simp [Event.ofWorker]) (fun gone => gone) rfl rfl
  | _ =>
      exact concluded_frame s _ concluded [] (List.append_nil _).symm (by simp) (by simp) (fun gone => gone) rfl rfl

theorem reachable_concluded (guard : State T W → Action T W → Prop) (cfg : TaskProcessorConfig) (now : Int) (s : State T W)
    (reachable : Machine.Reachable step guard (construct cfg now) s) : Concluded s := by
  refine Machine.reachable_invariant step guard _ Concluded ?_ ?_ s reachable
  · have present : (construct cfg now : State T W).signedOff = 0 := by
      simp [State.signedOff, construct, total_eq_zero, WorkerPc.signedOff]
    refine ⟨?_, by simp [construct], List.Pairwise.nil⟩
    rw [present]
    simp [construct]
  · intro before action after earlier concluded _ taken
    exact move_concluded before after action (step_move before after action taken).2
      (reachable_joined guard cfg now before earlier) concluded

theorem all_signed_off (s : State T W) (concluded : Concluded s) (finished : ∀ pc ∈ s.workers, pc = .finished) : s.activeWorkers = 0 := by
  have all : s.signedOff = s.workers.length := by
    rw [State.signedOff, List.eq_replicate_iff.mpr ⟨rfl, finished⟩, total, List.map_replicate, List.sum_replicate]
    simp [WorkerPc.signedOff]
  have active := concluded.active
  have below := s.activeWorkers.toNat_lt
  apply UInt64.toNat_inj.mp
  change s.activeWorkers.toNat = 0
  omega

theorem joined_workers (s : State T W) (joined : Joined s) (past : s.destructor.joined s.workers.length = s.workers.length) :
    ∀ pc ∈ s.workers, pc = .finished := by
  intro pc member
  obtain ⟨w, found⟩ := List.mem_iff_getElem?.mp member
  have bound := (List.getElem?_eq_some_iff.mp found).1
  exact joined.finished w pc (by rwa [past]) found

def DestructorPc.remaining (threads : Nat) : DestructorPc → Nat
  | .join k => 4 + (threads - k)
  | .await => 3
  | .stop => 2
  | .final => 1
  | _ => 0

def OnlyDestroys (_ : State T W) (action : Action T W) : Prop := action = .destroy

-- A destructor at its joins whose workers have all finished, and what it has
-- added to the trace of the state it is looked at from.
structure Ending (base s : State T W) : Prop where
  sound : s.fault = false
  finished : ∀ pc ∈ s.workers, pc = .finished
  idle : s.activeWorkers = 0
  set : s.finalCallback = base.finalCallback
  trace : s.trace = base.trace ++ if s.destructor = .destroyed ∧ base.finalCallback = true then [.finalCallback] else []
  past : (∃ k, s.destructor = .join k) ∨ s.destructor = .await ∨ s.destructor = .stop ∨ s.destructor = .final ∨ s.destructor = .destroyed

theorem ending_advances (base s : State T W) (ending : Ending base s) (going : s.destructor ≠ .destroyed) :
    ∃ next, step s .destroy = some next ∧ Ending base next ∧
      next.destructor.remaining next.workers.length < s.destructor.remaining s.workers.length := by
  have trace := ending.trace
  rw [if_neg (fun gone => going gone.1), List.append_nil] at trace
  have moved : ∀ pc : DestructorPc, pc ≠ .destroyed →
      s.trace = base.trace ++ if pc = .destroyed ∧ base.finalCallback = true then [.finalCallback] else [] := by
    intro pc other
    rw [if_neg (fun gone => other gone.1), List.append_nil, trace]
  rcases ending.past with ⟨k, here⟩ | here | here | here | here
  · cases found : s.workers[k]? with
    | none =>
        exact ⟨{ s with destructor := .await }, by simp [step, ending.sound, destructor, here, found],
          { ending with trace := moved .await (by simp), past := .inr (.inl rfl) }, by simp only [here, DestructorPc.remaining]; omega⟩
    | some pc =>
        have ended := ending.finished pc (List.mem_of_getElem? found)
        have bound := (List.getElem?_eq_some_iff.mp found).1
        exact ⟨{ s with destructor := .join (k + 1) },
          by simp [step, ending.sound, destructor, here, found, ended, WorkerPc.returned],
          { ending with trace := moved (.join (k + 1)) (by simp), past := .inl ⟨k + 1, rfl⟩ },
          by simp only [here, DestructorPc.remaining]; omega⟩
  · exact ⟨{ s with destructor := .stop }, by simp [step, ending.sound, destructor, here, ending.idle],
      { ending with trace := moved .stop (by simp), past := .inr (.inr (.inl rfl)) }, by simp [here, DestructorPc.remaining]⟩
  · exact ⟨{ s with stopped := true, destructor := .final }, by simp [step, ending.sound, destructor, here],
      { ending with trace := moved .final (by simp), past := .inr (.inr (.inr (.inl rfl))) }, by simp [here, DestructorPc.remaining]⟩
  · by_cases set : base.finalCallback = true
    · exact ⟨{ s with destructor := .destroyed }.emit .finalCallback, by simp [step, ending.sound, destructor, here, ending.set, set],
        { ending with trace := by simp [trace, set], past := .inr (.inr (.inr (.inr rfl))) }, by simp [here, DestructorPc.remaining]⟩
    · exact ⟨{ s with destructor := .destroyed }, by simp [step, ending.sound, destructor, here, ending.set, set],
        { ending with trace := by simp [trace, set], past := .inr (.inr (.inr (.inr rfl))) }, by simp [here, DestructorPc.remaining]⟩
  · exact absurd here going

theorem ending_ends (base s : State T W) (ending : Ending base s) :
    ∃ final, Machine.Reachable step OnlyDestroys s final ∧ Ending base final ∧ final.destructor = .destroyed := by
  obtain ⟨final, reachable, ended, gone⟩ := Machine.reachable_goal (· < ·) Nat.lt_wfRel.wf step OnlyDestroys (Ending base)
    (fun s => Ending base s ∧ s.destructor = .destroyed) (fun s => s.destructor.remaining s.workers.length) (by
      intro s ending open'
      obtain ⟨next, taken, still, nearer⟩ := ending_advances base s ending fun gone => open' ⟨ending, gone⟩
      exact ⟨.destroy, next, rfl, taken, still, nearer⟩) s ending
  exact ⟨final, reachable, ended, gone⟩

-- The final callback is called once, behind everything the workers do, and the
-- wait for active_workers_ that precedes it never waits.
theorem final_callback_last (guard : State T W → Action T W → Prop) (cfg : TaskProcessorConfig) (now : Int) (s : State T W)
    (reachable : Machine.Reachable step guard (construct cfg now) s) :
    s.trace.Pairwise Event.Allows ∧
      ((∃ event ∈ s.trace, event.isFinal = true) → ∀ pc ∈ s.workers, pc = .finished) ∧
      (s.destructor = .await → s.activeWorkers = 0) ∧
      ∀ k, s.destructor = .join k → (∀ pc ∈ s.workers, pc = .finished) → s.fault = false →
        ∃ final, Machine.Reachable step OnlyDestroys s final ∧ final.destructor = .destroyed ∧
          final.trace = s.trace ++ if s.finalCallback then [.finalCallback] else [] := by
  have joined := reachable_joined guard cfg now s reachable
  have concluded := reachable_concluded guard cfg now s reachable
  refine ⟨concluded.last, ?_, ?_, ?_⟩
  · intro said
    exact joined_workers s joined (by rw [concluded.ended said]; rfl)
  · intro here
    exact all_signed_off s concluded (joined_workers s joined (by rw [here]; rfl))
  · intro k here finished sound
    have ending : Ending s s :=
      ⟨sound, finished, all_signed_off s concluded finished, rfl, by simp [here], .inl ⟨k, here⟩⟩
    obtain ⟨final, onward, ended, gone⟩ := ending_ends s s ending
    refine ⟨final, onward, gone, ?_⟩
    rw [ended.trace]
    simp [gone]

def twoToJoin : TaskProcessorConfig := { numThreads := 2, enableDrainOnShutdown := false }

-- A task is taken while the destructor is already waiting for its worker.
def joinedLate : List (Action Nat Nat) :=
  [[.setFinalCallback, .submit 0 7 []], List.replicate 8 (.call 0), List.replicate 4 (.worker 0), List.replicate 3 .destroy,
    List.replicate 10 (.worker 0), List.replicate 3 (.worker 1)].flatten

theorem joined_late_ends :
    ∃ s final : State Nat Nat, Machine.Reachable step (fun _ _ => True) (construct twoToJoin 0) s ∧ s.finalCallback = true ∧
      (processedItems s.trace).map TaskItem.payload = [7] ∧ Machine.Reachable step OnlyDestroys s final ∧
      final.destructor = .destroyed ∧ final.trace = s.trace ++ [.finalCallback] := by
  obtain ⟨s, reachable, shown⟩ := Machine.run_exhibits step (fun _ _ => True) (construct twoToJoin 0) joinedLate
    (fun s => s.finalCallback && (processedItems s.trace).map TaskItem.payload == [7] && s.destructor == .join 0 &&
      s.workers.all (fun pc => pc == .finished) && !s.fault) (by decide)
  simp only [Bool.and_eq_true, beq_iff_eq, List.all_eq_true, Bool.not_eq_true'] at shown
  obtain ⟨⟨⟨⟨set, processed⟩, here⟩, finished⟩, sound⟩ := shown
  obtain ⟨final, onward, gone, trace⟩ := (final_callback_last _ twoToJoin 0 s reachable).2.2.2 0 here finished sound
  exact ⟨s, final, reachable, set, processed, onward, gone, by rw [trace, set]; rfl⟩

end Vectro.Pool
