import Vectro.PoolLedger

set_option autoImplicit false

namespace Vectro.Pool

open Tally

variable {T W : Type}

-- The breaker has let the call through, on the count it loaded, and its task
-- is not in a queue yet.
def SubmitPc.admitted (trips : UInt64 → Bool) : SubmitPc → Nat
  | .check curr => if trips curr then 0 else 1
  | .backoff | .pick | .rotate | .divide _ | .push _ => 1
  | _ => 0

def State.admitted (s : State T W) : Nat := s.callTally (SubmitPc.admitted s.cfg.trips)

-- The count that the breaker lets through has missed no task, neither one in a
-- queue nor one of a call let through before. How it compares to the limit is
-- left to the breaker.
def LoadsAll (s : State T W) : Action T W → Prop
  | .call i | .callFails i => ∀ call ∈ s.calls[i]?, call.pc = .load → s.cfg.trips s.tasksInQueue = false →
      s.queued + s.admitted ≤ s.tasksInQueue.toNat
  | .updateConfig cfg =>
      cfg.enableCircuitBreaker = s.cfg.enableCircuitBreaker ∧ cfg.maxQueueSize = s.cfg.maxQueueSize
  | _ => True

instance (s : State T W) (action : Action T W) : Decidable (LoadsAll s action) :=
  match action with
  | .call i | .callFails i =>
      inferInstanceAs (Decidable (∀ call ∈ s.calls[i]?, call.pc = .load → s.cfg.trips s.tasksInQueue = false →
        s.queued + s.admitted ≤ s.tasksInQueue.toNat))
  | .updateConfig cfg =>
      inferInstanceAs (Decidable
        (cfg.enableCircuitBreaker = s.cfg.enableCircuitBreaker ∧ cfg.maxQueueSize = s.cfg.maxQueueSize))
  | .submit .. | .worker .. | .workerThrows .. | .workerSteals .. | .destroy | .registerCallback | .setFinalCallback
  | .getDroppedCount | .clock .. => isTrue trivial

structure Bounded (limit : UInt64) (s : State T W) : Prop where
  enabled : s.cfg.enableCircuitBreaker = true
  bound : s.cfg.maxQueueSize = limit
  room : s.queued + s.admitted ≤ limit.toNat

theorem bounded_frame (limit : UInt64) (s after : State T W) (bounded : Bounded limit s)
    (cfg : after.cfg = s.cfg) (queued : after.queued ≤ s.queued) (admitted : after.admitted ≤ s.admitted) :
    Bounded limit after where
  enabled := cfg ▸ bounded.enabled
  bound := cfg ▸ bounded.bound
  room := Nat.le_trans (Nat.add_le_add queued admitted) bounded.room

-- What the breaker lets through is below the limit.
theorem passes_below (cfg : TaskProcessorConfig) (curr : UInt64) (enabled : cfg.enableCircuitBreaker = true)
    (positive : cfg.maxQueueSize ≠ 0) (passes : cfg.trips curr = false) : curr.toNat < cfg.maxQueueSize.toNat := by
  have less : ¬ cfg.maxQueueSize ≤ curr := by
    simpa [TaskProcessorConfig.trips, enabled, positive] using passes
  exact UInt64.lt_iff_toNat_lt.mp (UInt64.not_le.mp less)

theorem push_queued (s after : State T W) (idx : Nat) (queue : List (TaskItem T W)) (item : TaskItem T W)
    (inside : s.queues[idx]? = some queue) (queues : after.queues = s.queues.set idx (queue ++ [item])) :
    after.queued = s.queued + 1 := by
  have grown := total_set List.length s.queues idx queue (queue ++ [item]) inside
  rw [List.length_append, List.length_singleton] at grown
  rw [State.queued, queues, State.queued]
  omega

theorem worker_move_queued (s after : State T W) (w : Nat) (pc : WorkerPc T W) (moves : WorkerMove s w pc after) :
    after.queued ≤ s.queued := by
  cases moves with
  | take item rest inside free =>
      have shrunk := total_set List.length s.queues w (item :: rest) rest inside
      rw [List.length_cons] at shrunk
      simp only [State.queued, State.setWorker, State.emit]
      omega
  | steal vic queue item inside free last =>
      have shrunk := total_set List.length s.queues vic queue queue.dropLast inside
      have shorter := last_dropped queue item last
      simp only [State.queued, State.setWorker, State.emit]
      omega
  | _ => exact Nat.le_refl _

theorem call_move_bounded (limit : UInt64) (s after : State T W) (i : Nat) (call : Call T W)
    (found : s.calls[i]? = some call) (moves : CallMove s i call after)
    (positive : limit ≠ 0)
    (all : call.pc = .load → s.cfg.trips s.tasksInQueue = false → s.queued + s.admitted ≤ s.tasksInQueue.toNat)
    (bounded : Bounded limit s) : Bounded limit after := by
  have moved : ∀ (next : State T W) (pc : SubmitPc), next.calls = s.calls.set i { call with pc := pc } →
      next.cfg = s.cfg → next.admitted + call.pc.admitted s.cfg.trips = s.admitted + pc.admitted s.cfg.trips := by
    intro next pc rewritten cfg
    rw [State.admitted, cfg]
    exact call_tally_move s next i call found _ pc rewritten _ _ rfl rfl
  have fewer : ∀ (next : State T W) (pc : SubmitPc), next.calls = s.calls.set i { call with pc := pc } →
      next.cfg = s.cfg → pc.admitted s.cfg.trips ≤ call.pc.admitted s.cfg.trips → next.admitted ≤ s.admitted := by
    intro next pc rewritten cfg less
    have sum := moved next pc rewritten cfg
    omega
  cases moves with
  | load here =>
      cases trips : s.cfg.trips s.tasksInQueue with
      | true =>
          refine bounded_frame limit s _ bounded rfl (Nat.le_refl _) (fewer _ (.check s.tasksInQueue) rfl rfl ?_)
          change (if s.cfg.trips s.tasksInQueue then 0 else 1) ≤ _
          rw [trips]
          exact Nat.zero_le _
      | false =>
          have below := passes_below s.cfg s.tasksInQueue bounded.enabled (bounded.bound ▸ positive) trips
          have room : s.queued + s.admitted < limit.toNat := bounded.bound ▸ Nat.lt_of_le_of_lt (all here trips) below
          have sum := moved ((s.setCall i call (.check s.tasksInQueue)).emit (.loaded i s.tasksInQueue)) _ rfl rfl
          rw [here] at sum
          change _ + 0 = s.admitted + (if s.cfg.trips s.tasksInQueue then 0 else 1) at sum
          rw [trips, Nat.add_zero] at sum
          refine ⟨bounded.enabled, bounded.bound, ?_⟩
          rw [sum]
          exact room
  | push idx queue here inside free room =>
      have more := push_queued s
        (({ s with queues := s.queues.set idx (queue ++ [call.item i]) }.setCall i call (.sample idx)).emit
          (.pushed idx (call.item i) (queue.length + 1))) idx queue (call.item i) inside rfl
      have sum := moved
        (({ s with queues := s.queues.set idx (queue ++ [call.item i]) }.setCall i call (.sample idx)).emit
          (.pushed idx (call.item i) (queue.length + 1))) (.sample idx) rfl rfl
      have before := bounded.room
      rw [here] at sum
      refine ⟨bounded.enabled, bounded.bound, ?_⟩
      rw [more, Nat.add_assoc, Nat.add_comm 1]
      exact sum ▸ before
  | trip curr here trips =>
      exact bounded_frame limit s _ bounded rfl (Nat.le_refl _) (fewer _ .drop rfl rfl (Nat.zero_le _))
  | pass curr next here passes goes =>
      refine bounded_frame limit s _ bounded rfl (Nat.le_refl _) (fewer _ next rfl rfl ?_)
      rw [here]
      change _ ≤ if s.cfg.trips curr then 0 else 1
      rw [passes]
      rcases goes with rfl | rfl <;> exact Nat.le_refl 1
  | fail here => exact bounded_frame limit s _ bounded rfl (Nat.le_refl _) (fewer _ .failed rfl rfl (Nat.zero_le _))
  | divide | outside => exact bounded_frame limit s _ bounded rfl (Nat.le_refl _) (Nat.le_refl _)
  | drop here | backoff here | first here _ | spread here _ | rotate here | assign _ here _ | sample _ _ here _
  | exchange _ _ _ here _ _ | retry _ _ _ here _ | settle _ _ _ here _ | count here | signal here _ =>
      exact bounded_frame limit s _ bounded rfl (Nat.le_refl _)
        (fewer _ _ rfl rfl (by rw [here]; exact Nat.le_refl _))

theorem move_bounded (limit : UInt64) (s after : State T W) (action : Action T W) (moves : Move s action after)
    (positive : limit ≠ 0) (all : LoadsAll s action) (bounded : Bounded limit s) : Bounded limit after := by
  cases moves with
  | submit owner payload wrappers sequential =>
      refine bounded_frame limit s _ bounded rfl (Nat.le_refl _) ?_
      exact Nat.le_of_eq (total_append (fun call : Call T W => call.pc.admitted s.cfg.trips) s.calls [_])
  | call _ i call after acts found moves =>
      refine call_move_bounded limit s after i call found moves positive ?_ bounded
      intro here passes
      rcases acts with rfl | rfl <;> exact all call found here passes
  | worker _ w pc after acts found moves =>
      have fewer := worker_move_queued s after w pc moves
      cases moves <;> exact bounded_frame limit s _ bounded rfl fewer (Nat.le_refl _)
  | destroy pc after here moves =>
      cases moves <;> exact bounded_frame limit s _ bounded rfl (Nat.le_refl _) (Nat.le_refl _)
  | updateConfig cfg =>
      obtain ⟨enabled, limit⟩ := all
      refine ⟨enabled.trans bounded.enabled, limit.trans bounded.bound, ?_⟩
      have same : cfg.trips = s.cfg.trips := by
        funext curr
        rw [TaskProcessorConfig.trips, TaskProcessorConfig.trips, enabled, limit]
      have room := bounded.room
      rw [State.admitted] at room ⊢
      simp only [same]
      exact room
  | _ => exact bounded_frame limit s _ bounded rfl (Nat.le_refl _) (Nat.le_refl _)

theorem reachable_bounded (cfg : TaskProcessorConfig) (now : Int) (enabled : cfg.enableCircuitBreaker = true)
    (positive : cfg.maxQueueSize ≠ 0) (s : State T W)
    (reachable : Machine.Reachable step LoadsAll (construct cfg now) s) : Bounded cfg.maxQueueSize s := by
  refine Machine.reachable_invariant step LoadsAll _ (Bounded cfg.maxQueueSize) ?_ ?_ s reachable
  · refine ⟨enabled, rfl, ?_⟩
    have none := construct_outstanding (T := T) (W := W) cfg now
    rw [State.outstanding] at none
    have idle : (construct cfg now : State T W).admitted = 0 := rfl
    omega
  · intro before action after _ bounded all taken
    exact move_bounded _ before after action (step_move before after action taken).2 positive all bounded

theorem bounded_queued (limit : UInt64) (s : State T W) (bounded : Bounded limit s) : s.queued ≤ limit.toNat :=
  Nat.le_trans (Nat.le_add_right _ _) bounded.room

theorem backlog_bounded (cfg : TaskProcessorConfig) (now : Int) (enabled : cfg.enableCircuitBreaker = true)
    (positive : cfg.maxQueueSize ≠ 0) (s : State T W)
    (reachable : Machine.Reachable step LoadsAll (construct cfg now) s) :
    s.queued ≤ cfg.maxQueueSize.toNat :=
  bounded_queued cfg.maxQueueSize s (reachable_bounded cfg now enabled positive s reachable)

def smallBreaker : TaskProcessorConfig := { numThreads := 1, maxQueueSize := 1 }

-- Both submitters load the counter before either pushes.
def overfilled : List (Action Nat Nat) :=
  [[.submit 0 7 [], .submit 1 8 [], .call 0, .call 1], List.replicate 5 (.call 0), List.replicate 3 (.call 1)].flatten

theorem backlog_exceeds_bound :
    ¬ ∀ s : State Nat Nat, Machine.Reachable step (fun _ _ => True) (construct smallBreaker 0) s →
      s.queued ≤ smallBreaker.maxQueueSize.toNat := by
  intro claimed
  obtain ⟨s, reachable, shown⟩ := Machine.run_exhibits step (fun _ _ => True) (construct smallBreaker 0) overfilled
    (fun s => s.queued == 2) (by decide)
  have bounded := claimed s reachable
  rw [beq_iff_eq.mp shown] at bounded
  exact absurd bounded (by decide)

theorem backlog_bounded_full :
    ∃ s : State Nat Nat, Machine.Reachable step LoadsAll (construct smallBreaker 0) s ∧ s.queued = 1 ∧
      s.calls.map Call.pc = [.returned, .dropped] ∧ s.queued ≤ smallBreaker.maxQueueSize.toNat := by
  obtain ⟨s, reachable, shown⟩ := Machine.run_exhibits step LoadsAll (construct smallBreaker 0)
    ([[.submit 0 7 []], List.replicate 8 (.call 0), [.submit 1 8 []], List.replicate 3 (.call 1)].flatten :
      List (Action Nat Nat))
    (fun s => s.queued == 1 && s.calls.map Call.pc == [.returned, .dropped]) (by decide)
  simp only [Bool.and_eq_true, beq_iff_eq] at shown
  exact ⟨s, reachable, shown.1, shown.2, backlog_bounded smallBreaker 0 rfl (by decide) s reachable⟩

def SubmitPc.inFlight : SubmitPc → Nat
  | .check _ | .backoff | .pick | .rotate | .divide _ | .push _ | .sample _ | .exchange _ _ _ | .count => 1
  | _ => 0

-- Submitters that are serialised between the load and the fetch_add.
def LoadsAlone (s : State T W) : Action T W → Prop
  | .call i | .callFails i => ∀ call ∈ s.calls[i]?, call.pc = .load → ∀ other ∈ s.calls, other.pc.inFlight = 0
  | .updateConfig cfg =>
      cfg.enableCircuitBreaker = s.cfg.enableCircuitBreaker ∧ cfg.maxQueueSize = s.cfg.maxQueueSize
  | _ => True

instance (s : State T W) (action : Action T W) : Decidable (LoadsAlone s action) :=
  match action with
  | .call i | .callFails i =>
      inferInstanceAs (Decidable (∀ call ∈ s.calls[i]?, call.pc = .load → ∀ other ∈ s.calls, other.pc.inFlight = 0))
  | .updateConfig _ => inferInstanceAs (Decidable (_ ∧ _))
  | .submit .. | .worker .. | .workerThrows .. | .workerSteals .. | .destroy | .registerCallback | .setFinalCallback
  | .getDroppedCount | .clock .. => isTrue trivial

theorem alone_loads_all (s : State T W) (ledger : Ledger s) (alone : ∀ other ∈ s.calls, other.pc.inFlight = 0) :
    s.queued + s.admitted ≤ s.tasksInQueue.toNat := by
  have admitted : s.admitted = 0 := by
    refine (total_eq_zero _ s.calls).mpr fun call member => ?_
    have outside := alone call member
    cases here : call.pc <;> first | rfl | (rw [here] at outside; exact absurd outside Nat.one_ne_zero)
  have counted : s.uncounted = 0 := by
    refine (total_eq_zero _ s.calls).mpr fun call member => ?_
    have outside := alone call member
    cases here : call.pc <;> first | rfl | (rw [here] at outside; exact absurd outside Nat.one_ne_zero)
  have balanced := ledger.balanced
  have fits := ledger.fits
  have limit : itemLimit < 2 ^ 64 := by decide
  have wide := s.tasksInQueue.toNat_lt
  rw [State.outstanding] at balanced fits
  omega

theorem lone_submitters_bounded (cfg : TaskProcessorConfig) (now : Int) (enabled : cfg.enableCircuitBreaker = true)
    (positive : cfg.maxQueueSize ≠ 0) (s : State T W)
    (reachable : Machine.Reachable step LoadsAlone (construct cfg now) s) : s.queued ≤ cfg.maxQueueSize.toNat := by
  apply bounded_queued
  refine reachable_bounded cfg now enabled positive s (Machine.reachable_weaken step LoadsAlone _ _ ?_ s reachable)
  intro before action earlier alone
  have ledger := reachable_ledger _ cfg now before earlier
  cases action with
  | call i | callFails i =>
      intro call found here _
      exact alone_loads_all before ledger (alone call found here)
  | updateConfig next => exact alone
  | _ => trivial

def pairAllowed : TaskProcessorConfig := { numThreads := 1, maxQueueSize := 2, enableCircuitBreaker := true }

-- The third Submit finds two tasks queued and drops its own.
def thirdDropped : List (Action Nat Nat) :=
  [[.submit 0 7 []], List.replicate 8 (.call 0), [.submit 0 8 []], List.replicate 8 (.call 1), [.submit 0 9 []],
    List.replicate 3 (.call 2)].flatten

theorem third_dropped_bounded :
    ∃ s : State Nat Nat, Machine.Reachable step LoadsAlone (construct pairAllowed 0) s ∧ s.queued = 2 ∧ s.droppedCount = 1 ∧
      s.queued ≤ 2 := by
  obtain ⟨s, reachable, shown⟩ := Machine.run_exhibits step LoadsAlone (construct pairAllowed 0) thirdDropped
    (fun s => s.queued == 2 && s.droppedCount == 1) (by decide)
  simp only [Bool.and_eq_true, beq_iff_eq] at shown
  exact ⟨s, reachable, shown.1, shown.2, lone_submitters_bounded pairAllowed 0 rfl (by decide) s reachable⟩

end Vectro.Pool
