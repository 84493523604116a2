import Vectro.PoolLedger

set_option autoImplicit false

namespace Vectro.Pool

open Tally

variable {T W : Type}

def SubmitPc.unsignalled : SubmitPc → Nat
  | .sample _ | .exchange _ _ _ | .count | .signal => 1
  | _ => 0

def WorkerPc.asleep : WorkerPc T W → Nat
  | .wait | .blocked => 1
  | _ => 0

def State.unsignalled (s : State T W) : Nat := s.callTally SubmitPc.unsignalled

def State.asleep (s : State T W) : Nat := total WorkerPc.asleep s.workers

-- A worker has gone to sleep, or is about to, only if nothing is outstanding
-- or some submitter still owes the sleepers a SignalAll.
def Watched (s : State T W) : Prop := 0 < s.asleep → 0 < s.unsignalled ∨ s.outstanding = 0

theorem watched_frame (s after : State T W) (watched : Watched s) (asleep : after.asleep ≤ s.asleep)
    (owed : s.unsignalled ≤ after.unsignalled) (outstanding : after.outstanding ≤ s.outstanding) : Watched after := by
  intro sleeper
  rcases watched (Nat.lt_of_lt_of_le sleeper asleep) with signal | empty
  · exact .inl (Nat.lt_of_lt_of_le signal owed)
  · exact .inr (by omega)

theorem uncounted_le_unsignalled (s : State T W) : s.uncounted ≤ s.unsignalled := by
  rw [State.uncounted, State.unsignalled, State.callTally, State.callTally]
  induction s.calls with
  | nil => exact Nat.le_refl _
  | cons call rest ih =>
      have one : call.pc.uncounted ≤ call.pc.unsignalled := by
        cases call.pc <;> simp [SubmitPc.uncounted, SubmitPc.unsignalled]
      simp only [total_cons]
      omega

-- The signal needs mutex_, so no worker stands between its test and its Wait,
-- and all the workers that do wait are woken.
theorem signal_wakes (s : State T W) (free : s.mutexFree = true) :
    total WorkerPc.asleep (s.workers.map WorkerPc.wake) = 0 := by
  rw [total_eq_zero]
  intro pc member
  obtain ⟨old, present, rfl⟩ := List.mem_map.mp member
  have outside := List.all_eq_true.mp free old present
  cases old <;> first | rfl | simp [WorkerPc.holdsMutex] at outside

theorem wake_asleep (workers : List (WorkerPc T W)) :
    total WorkerPc.asleep (workers.map WorkerPc.wake) ≤ total WorkerPc.asleep workers := by
  induction workers with
  | nil => exact Nat.le_refl _
  | cons pc rest ih =>
      have less : pc.wake.asleep ≤ pc.asleep := by cases pc <;> simp [WorkerPc.wake, WorkerPc.asleep]
      simp only [List.map_cons, total_cons]
      omega

theorem call_move_watched (s after : State T W) (i : Nat) (call : Call T W) (found : s.calls[i]? = some call)
    (moves : CallMove s i call after) (watched : Watched s) : Watched after := by
  have owed : ∀ (next : State T W) (pc : SubmitPc), next.calls = s.calls.set i { call with pc := pc } →
      call.pc.unsignalled ≤ pc.unsignalled → s.unsignalled ≤ next.unsignalled := by
    intro next pc rewritten more
    have moved := call_tally_move s next i call found SubmitPc.unsignalled pc rewritten _ _ rfl rfl
    rw [State.unsignalled, State.unsignalled]
    omega
  cases moves with
  | push idx queue here inside free room =>
      have moved := call_tally_move s
        (({ s with queues := s.queues.set idx (queue ++ [call.item i]) }.setCall i call (.sample idx)).emit
          (.pushed idx (call.item i) (queue.length + 1))) i call found SubmitPc.unsignalled (.sample idx) rfl 0 1
        (by rw [here]; rfl) rfl
      intro _
      refine .inl ?_
      rw [State.unsignalled, ← Nat.add_zero (State.callTally _ _), moved]
      exact Nat.succ_pos _
  | signal here free =>
      intro sleeper
      have awake := signal_wakes s free
      rw [State.asleep, State.setCall, State.signalAll, awake] at sleeper
      omega
  | divide | outside => exact watched_frame s _ watched (Nat.le_refl _) (Nat.le_refl _) (Nat.le_refl _)
  | pass curr next here passes goes =>
      refine watched_frame s _ watched (Nat.le_refl _) (owed _ next rfl ?_) (Nat.le_refl _)
      rw [here]
      exact Nat.zero_le _
  | fail here =>
      refine watched_frame s _ watched (Nat.le_refl _) (owed _ .failed rfl ?_) (Nat.le_refl _)
      rcases here with here | ⟨idx, here⟩ <;> rw [here] <;> exact Nat.le_refl _
  | load here | trip _ here _ | drop here | backoff here | first here _ | spread here _ | rotate here | assign _ here _
  | sample _ _ here _ | exchange _ _ _ here _ _ | retry _ _ _ here _ | settle _ _ _ here _ | count here =>
      exact watched_frame s _ watched (Nat.le_refl _) (owed _ _ rfl (by rw [here]; exact Nat.le_refl _)) (Nat.le_refl _)

theorem worker_move_watched (s after : State T W) (w : Nat) (pc : WorkerPc T W) (found : s.workers[w]? = some pc)
    (moves : WorkerMove s w pc after) (ledger : Ledger s) (watched : Watched s) : Watched after := by
  have fewer : ∀ (after : State T W) (next : WorkerPc T W), after.workers = s.workers.set w next →
      next.asleep ≤ pc.asleep → after.asleep ≤ s.asleep := by
    intro after next rewritten less
    have moved := worker_total_move s after w pc next found WorkerPc.asleep rewritten _ _ rfl rfl
    rw [State.asleep, State.asleep]
    omega
  have outstanding : after.outstanding ≤ s.outstanding :=
    Nat.le.intro (worker_move_outstanding s after w pc found moves)
  cases moves with
  | none zero =>
      intro _
      have balanced := ledger.balanced
      have fits := ledger.fits
      have limit : itemLimit < 2 ^ 64 := by decide
      have owed := uncounted_le_unsignalled s
      have same : (s.setWorker w .wait).unsignalled = s.unsignalled := rfl
      have nothing : s.tasksInQueue.toNat = 0 := by rw [zero]; rfl
      omega
  | outside => exact watched_frame s _ watched (Nat.le_refl _) (Nat.le_refl _) outstanding
  | _ => exact watched_frame s _ watched (fewer _ _ rfl (Nat.le_refl _)) (Nat.le_refl _) outstanding

theorem move_watched (s after : State T W) (action : Action T W) (moves : Move s action after) (ledger : Ledger s)
    (watched : Watched s) : Watched after := by
  cases moves with
  | submit owner payload wrappers sequential =>
      refine watched_frame s _ watched (Nat.le_refl _) ?_ (Nat.le_refl _)
      simp [State.unsignalled, State.callTally]
  | call _ i call after acts found moves => exact call_move_watched s after i call found moves watched
  | worker _ w pc after acts found moves => exact worker_move_watched s after w pc found moves ledger watched
  | destroy pc after here moves =>
      cases moves with
      | signal =>
          refine watched_frame s _ watched (wake_asleep s.workers) (Nat.le_refl _) (Nat.le_of_eq ?_)
          rw [State.outstanding, State.outstanding, State.unsubtracted, State.unsubtracted]
          exact congrArg (s.queued + ·) (wake_unsubtracted s.workers)
      | _ => exact watched_frame s _ watched (Nat.le_refl _) (Nat.le_refl _) (Nat.le_refl _)
  | _ => exact watched_frame s _ watched (Nat.le_refl _) (Nat.le_refl _) (Nat.le_refl _)

theorem reachable_watched (guard : State T W → Action T W → Prop) (cfg : TaskProcessorConfig) (now : Int)
    (s : State T W) (reachable : Machine.Reachable step guard (construct cfg now) s) : Watched s := by
  refine Machine.reachable_invariant step guard _ Watched ?_ ?_ s reachable
  · intro _
    exact .inr (construct_outstanding cfg now)
  · intro before action after earlier watched _ taken
    exact move_watched before after action (step_move before after action taken).2
      (reachable_ledger guard cfg now before earlier) watched

-- No restriction on the run: UpdateConfig and the destructor may interleave.
theorem no_task_stranded (cfg : TaskProcessorConfig) (now : Int) (s : State T W)
    (reachable : Machine.Reachable step (fun _ _ => True) (construct cfg now) s)
    (signalled : ∀ call ∈ s.calls, call.pc.unsignalled = 0) (queue : List (TaskItem T W)) (member : queue ∈ s.queues)
    (nonempty : queue ≠ []) : ∀ pc ∈ s.workers, pc ≠ .blocked := by
  intro pc present blocked
  have watched := reachable_watched _ cfg now s reachable
  have sleeper : 0 < s.asleep := by
    have weight := weight_le_total WorkerPc.asleep s.workers pc present
    rw [blocked] at weight
    exact weight
  have owed : s.unsignalled = 0 := (total_eq_zero _ s.calls).mpr signalled
  have some : 0 < s.queued :=
    Nat.lt_of_lt_of_le (List.length_pos_iff.mpr nonempty) (weight_le_total List.length s.queues queue member)
  rcases watched sleeper with signal | empty
  · omega
  · rw [State.outstanding] at empty
    omega

def pair : TaskProcessorConfig := { numThreads := 2, mode := .roundRobin }

-- Both workers sleep before the task arrives; its SignalAll wakes them.
def wokenPair : List (Action Nat Nat) :=
  [List.replicate 5 (.worker 0), List.replicate 5 (.worker 1), [.submit 0 7 []], List.replicate 10 (.call 0)].flatten

theorem woken_pair_not_stranded :
    ∃ s : State Nat Nat, Machine.Reachable step (fun _ _ => True) (construct pair 0) s ∧
      s.queues = [[⟨7, [], 0⟩], []] ∧ ∀ pc ∈ s.workers, pc ≠ .blocked := by
  obtain ⟨s, reachable, shown⟩ := Machine.run_exhibits step (fun _ _ => True) (construct pair 0) wokenPair
    (fun s => s.queues == [[⟨7, [], 0⟩], []] && s.calls.all fun call => call.pc.unsignalled == 0) (by decide)
  simp only [Bool.and_eq_true, beq_iff_eq, List.all_eq_true] at shown
  refine ⟨s, reachable, shown.1, ?_⟩
  exact no_task_stranded pair 0 s reachable shown.2 [⟨7, [], 0⟩] (by rw [shown.1]; simp) (by simp)

end Vectro.Pool
