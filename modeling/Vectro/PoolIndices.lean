import Vectro.PoolRange

set_option autoImplicit false

namespace Vectro.Pool

variable {T W : Type}

-- The indices into queues_ and qmutexes_ that the next operation of a thread
-- uses. Both have the length the constructor gave them.
def SubmitPc.indices : SubmitPc → List Nat
  | .push idx | .sample idx => [idx]
  | _ => []

def WorkerPc.indices (cfg : TaskProcessorConfig) (w : Nat) : WorkerPc T W → List Nat
  | .own => [w]
  | .sizes _ i => if i < cfg.numThreads then [i] else []
  | .steal vic => [vic]
  | _ => []

def State.indices (s : State T W) : Action T W → List Nat
  | .call i | .callFails i => (s.calls[i]?).elim [] fun call => call.pc.indices
  | .worker w => (s.workers[w]?).elim [] (WorkerPc.indices s.cfg w)
  | _ => []

def SubmitPc.reduces : SubmitPc → Bool
  | .divide _ => true
  | _ => false

-- rr_index_ is about to be reduced modulo num_threads.
def State.reduces (s : State T W) : Action T W → Bool
  | .call i => (s.calls[i]?).any fun call => call.pc.reduces
  | _ => false

def TaskProcessorConfig.fits (cfg : TaskProcessorConfig) (n : Nat) : Bool :=
  decide (0 < cfg.numThreads ∧ cfg.numThreads ≤ n)

-- Each read of num_threads, for an index or for the vector of sizes, finds it
-- between 1 and the number of queues; a scan that reads it again may find 0 as
-- well. Whoever reads the mode FIFO finds that there is a queue.
def fitting (s : State T W) : Action T W → Bool
  | .call i =>
      match s.calls[i]? with
      | some ⟨_, _, _, .pick⟩ => s.cfg.mode != .fifo || decide (0 < s.queues.length)
      | some ⟨_, _, _, .divide _⟩ => s.cfg.fits s.queues.length
      | _ => true
  | .worker w =>
      match s.workers[w]? with
      | some .vector => s.cfg.fits s.queues.length
      | some (.sizes _ _) => decide (s.cfg.numThreads ≤ s.queues.length)
      | _ => true
  | _ => true

def Fitting (s : State T W) (action : Action T W) : Prop := fitting s action = true

instance (s : State T W) (action : Action T W) : Decidable (Fitting s action) :=
  inferInstanceAs (Decidable (fitting s action = true))

theorem fitting_pick (s : State T W) (i : Nat) (call : Call T W) (allowed : Fitting s (.call i))
    (found : s.calls[i]? = some call) (here : call.pc = .pick) (fifo : s.cfg.mode = .fifo) : 0 < s.queues.length := by
  obtain ⟨owner, payload, wrappers, pc⟩ := call
  cases here
  simpa [Fitting, fitting, found, fifo] using allowed

theorem fitting_divide (s : State T W) (i : Nat) (call : Call T W) (rr : UInt64) (allowed : Fitting s (.call i))
    (found : s.calls[i]? = some call) (here : call.pc = .divide rr) : s.cfg.fits s.queues.length = true := by
  obtain ⟨owner, payload, wrappers, pc⟩ := call
  cases here
  simpa only [Fitting, fitting, found] using allowed

theorem fitting_vector (s : State T W) (w : Nat) (allowed : Fitting s (.worker w)) (found : s.workers[w]? = some .vector) :
    s.cfg.fits s.queues.length = true := by
  simpa only [Fitting, fitting, found] using allowed

theorem fitting_sizes (s : State T W) (w i : Nat) (sizes : List Nat) (allowed : Fitting s (.worker w))
    (found : s.workers[w]? = some (.sizes sizes i)) : s.cfg.numThreads ≤ s.queues.length := by
  simpa [Fitting, fitting, found] using allowed

structure Inside (s : State T W) (action : Action T W) : Prop where
  indices : ∀ idx ∈ s.indices action, idx < s.queues.length
  divisor : s.reduces action = true → s.cfg.numThreads ≠ 0

def WorkerPc.within (n : Nat) : WorkerPc T W → Prop
  | .sizes seen _ | .policy seen => 0 < seen.length ∧ seen.length ≤ n
  | .steal vic => vic < n
  | _ => True

structure Indexed (n : Nat) (s : State T W) : Prop where
  queues : s.queues.length = n
  workers : s.workers.length = n
  calls : ∀ call ∈ s.calls, call.pc.inRange n
  pcs : ∀ pc ∈ s.workers, pc.within n
  policy : InRangePolicy s.stealPolicy

theorem wake_within (n : Nat) (pc : WorkerPc T W) (within : pc.within n) : pc.wake.within n := by
  cases pc <;> exact within

theorem call_move_indexed (n : Nat) (s after : State T W) (i : Nat) (call : Call T W) (found : s.calls[i]? = some call)
    (queued : call.pc = .pick → s.cfg.mode = .fifo → 0 < n) (fits : ∀ rr, call.pc = .divide rr → s.cfg.fits n = true)
    (moves : CallMove s i call after)
    (indexed : Indexed n s) : Indexed n after := by
  have here := indexed.calls call (List.mem_of_getElem? found)
  have kept : ∀ pc : SubmitPc, pc.inRange n → ∀ other ∈ s.calls.set i { call with pc := pc }, other.pc.inRange n :=
    fun pc => Tally.forall_mem_set (fun call => call.pc.inRange n) s.calls i { call with pc := pc } indexed.calls
  cases moves with
  | first pick fifo => exact { indexed with calls := kept (.push 0) (queued pick fifo) }
  | assign rr dividing some =>
      obtain ⟨_, bound⟩ := of_decide_eq_true (fits rr dividing)
      have inside : rr.toNat % s.cfg.numThreads < n := Nat.lt_of_lt_of_le (Nat.mod_lt _ (Nat.pos_of_ne_zero some)) bound
      exact { indexed with calls := kept (.push _) inside }
  | push idx queue pushing inside free room =>
      rw [pushing] at here
      exact { indexed with queues := by simpa using indexed.queues, calls := kept (.sample idx) here }
  | signal signalling free =>
      refine { indexed with calls := kept .returned trivial, workers := by simpa using indexed.workers, pcs := ?_ }
      intro pc member
      obtain ⟨old, present, rfl⟩ := List.mem_map.mp member
      exact wake_within n old (indexed.pcs old present)
  | pass curr next checking passes goes =>
      refine { indexed with calls := kept next ?_ }
      rcases goes with rfl | rfl <;> trivial
  | divide | outside => exact { indexed with }
  | _ => exact { indexed with calls := kept _ trivial }

theorem worker_move_indexed (n : Nat) (s after : State T W) (w : Nat) (pc : WorkerPc T W) (found : s.workers[w]? = some pc)
    (fits : pc = .vector → s.cfg.fits n = true) (moves : WorkerMove s w pc after)
    (indexed : Indexed n s) : Indexed n after := by
  have here := indexed.pcs pc (List.mem_of_getElem? found)
  have kept : ∀ next : WorkerPc T W, next.within n → ∀ other ∈ s.workers.set w next, other.within n :=
    fun next => Tally.forall_mem_set (WorkerPc.within n) s.workers w next indexed.pcs
  have same : ∀ next : WorkerPc T W, (s.workers.set w next).length = n := fun next => by simpa using indexed.workers
  cases moves with
  | take item rest inside free =>
      exact { indexed with queues := by simpa using indexed.queues, workers := same _, pcs := kept _ trivial }
  | vector =>
      have bounds := of_decide_eq_true (fits rfl)
      exact { indexed with workers := same _, pcs := kept (.sizes _ 0) (by simpa [WorkerPc.within] using bounds) }
  | size sizes i queue inside found bound =>
      exact { indexed with workers := same _, pcs := kept (.sizes _ _) (by simpa [WorkerPc.within] using here) }
  | scanned sizes i ended => exact { indexed with workers := same _, pcs := kept (.policy sizes) here }
  | policy sizes vic answer =>
      have inside := indexed.policy sizes vic answer (List.ne_nil_of_length_pos here.1)
      exact { indexed with workers := same _, pcs := kept (.steal vic) (Nat.lt_of_lt_of_le inside here.2) }
  | steal vic queue item inside free last =>
      exact { indexed with queues := by simpa using indexed.queues, workers := same _, pcs := kept _ trivial }
  | outside => exact { indexed with }
  | _ => exact { indexed with workers := same _, pcs := kept _ trivial }

-- An exception, or a spurious failure, chooses no index.
theorem fails_chooses_none (s after : State T W) (i : Nat) (call : Call T W) (failed : submitImplFails s i call = some after) :
    ∃ next, after = s.setCall i call next ∧ next.indices = [] := by
  unfold submitImplFails at failed
  split at failed
  · exact ⟨.failed, (Option.some.inj failed).symm, rfl⟩
  · split at failed
    · exact ⟨.failed, (Option.some.inj failed).symm, rfl⟩
    · cases failed
  · split at failed
    · exact ⟨_, (Option.some.inj failed).symm, rfl⟩
    · cases failed
  · cases failed

theorem no_indices_in_range (n : Nat) (pc : SubmitPc) (none : pc.indices = []) : pc.inRange n := by
  cases pc <;> trivial

-- A worker that makes its vector can only take its plain step.
theorem vector_steps (s after : State T W) (w : Nat) (action : Action T W) (found : s.workers[w]? = some .vector)
    (acts : action = .worker w ∨ action = .workerThrows w ∨ ∃ vic, action = .workerSteals w vic)
    (taken : step s action = some after) : action = .worker w := by
  rcases acts with same | rfl | ⟨vic, rfl⟩
  · exact same
  · simp [step, found, invoke] at taken
  · simp [step, found, stealFrom] at taken

theorem step_indexed (n : Nat) (s after : State T W) (action : Action T W) (allowed : Fitting s action)
    (taken : step s action = some after) (indexed : Indexed n s) : Indexed n after := by
  cases (step_move s after action taken).2 with
  | submit owner payload wrappers sequential =>
      refine { indexed with calls := ?_ }
      intro call member
      rcases List.mem_append.mp member with old | new
      · exact indexed.calls call old
      · rw [List.mem_singleton.mp new]
        trivial
  | call _ i call after acts found moves =>
      rcases acts with rfl | rfl
      · apply call_move_indexed n s after i call found _ _ moves indexed
        · rw [← indexed.queues]
          exact fitting_pick s i call allowed found
        · intro rr here
          rw [← indexed.queues]
          exact fitting_divide s i call rr allowed found here
      · have sound := (step_move s after _ taken).1
        have failed : submitImplFails s i call = some after := by
          simpa [step, sound, found] using taken
        obtain ⟨next, rfl, none⟩ := fails_chooses_none s after i call failed
        refine { indexed with calls := ?_ }
        exact Tally.forall_mem_set (fun call => call.pc.inRange n) s.calls i { call with pc := next } indexed.calls
          (no_indices_in_range n next none)
  | worker _ w pc after acts found moves =>
      apply worker_move_indexed n s after w pc found _ moves indexed
      rintro rfl
      rw [← indexed.queues]
      exact fitting_vector s w (vector_steps s after w action found acts taken ▸ allowed) found
  | destroy pc after here moves =>
      cases moves with
      | signal =>
          refine { indexed with workers := by simpa using indexed.workers, pcs := ?_ }
          intro pc member
          obtain ⟨old, present, rfl⟩ := List.mem_map.mp member
          exact wake_within n old (indexed.pcs old present)
      | _ => exact { indexed with }
  | _ => exact { indexed with }

theorem construct_indexed (cfg : TaskProcessorConfig) (now : Int) (policy : PolicyInRange cfg) :
    Indexed cfg.numThreads (construct cfg now : State T W) where
  queues := List.length_replicate
  workers := List.length_replicate
  calls := by simp [construct]
  pcs := by
    intro pc member
    rw [(List.mem_replicate.mp member).2]
    trivial
  policy := (construct_in_range cfg now policy).policy

theorem reachable_indexed (cfg : TaskProcessorConfig) (now : Int) (policy : PolicyInRange cfg) (s : State T W)
    (reachable : Machine.Reachable step Fitting (construct cfg now) s) : Indexed cfg.numThreads s := by
  refine Machine.reachable_invariant step Fitting _ _ (construct_indexed cfg now policy) ?_ s reachable
  intro before action after _ indexed allowed taken
  exact step_indexed _ before after action allowed taken indexed

theorem call_indices (n : Nat) (s : State T W) (i : Nat) (indexed : Indexed n s) :
    ∀ idx ∈ (s.calls[i]?).elim [] fun call => call.pc.indices, idx < n := by
  intro idx member
  cases found : s.calls[i]? with
  | none =>
      rw [found] at member
      cases member
  | some call =>
      have here := indexed.calls call (List.mem_of_getElem? found)
      rw [found] at member
      change idx ∈ call.pc.indices at member
      cases pc : call.pc with
      | push at_ | sample at_ =>
          rw [pc] at here member
          rw [List.mem_singleton.mp member]
          exact here
      | _ =>
          rw [pc] at member
          cases member

theorem worker_indices (n : Nat) (s : State T W) (w : Nat) (indexed : Indexed n s)
    (fits : ∀ sizes i, s.workers[w]? = some (.sizes sizes i) → s.cfg.numThreads ≤ n) :
    ∀ idx ∈ (s.workers[w]?).elim [] (WorkerPc.indices s.cfg w), idx < n := by
  intro idx member
  cases found : s.workers[w]? with
  | none =>
      rw [found] at member
      cases member
  | some pc =>
      have here := indexed.pcs pc (List.mem_of_getElem? found)
      have bound := (List.getElem?_eq_some_iff.mp found).1
      rw [found] at member
      change idx ∈ pc.indices s.cfg w at member
      cases pc with
      | own =>
          rw [List.mem_singleton.mp member, ← indexed.workers]
          exact bound
      | sizes seen i =>
          rw [WorkerPc.indices] at member
          split at member
          · rename_i inside
            rw [List.mem_singleton.mp member]
            exact Nat.lt_of_lt_of_le inside (fits seen i found)
          · cases member
      | steal vic =>
          rw [List.mem_singleton.mp member]
          exact here
      | _ => cases member

theorem indices_in_range (cfg : TaskProcessorConfig) (now : Int) (policy : PolicyInRange cfg) (s : State T W)
    (reachable : Machine.Reachable step Fitting (construct cfg now) s) (action : Action T W) (allowed : Fitting s action) :
    s.queues.length = cfg.numThreads ∧ Inside s action := by
  have indexed := reachable_indexed cfg now policy s reachable
  refine ⟨indexed.queues, ?_, ?_⟩
  · rw [indexed.queues]
    cases action with
    | call i | callFails i => exact call_indices _ s i indexed
    | worker w =>
        apply worker_indices _ s w indexed
        intro sizes i found
        rw [← indexed.queues]
        exact fitting_sizes s w i sizes allowed found
    | _ => exact List.forall_mem_nil _
  · intro reduces
    cases action with
    | call i =>
        obtain ⟨call, found, divides⟩ := (Option.any_eq_true _ _).mp reduces
        cases here : call.pc with
        | divide rr =>
            have fits := fitting_divide s i call rr allowed found here
            exact Nat.ne_of_gt (of_decide_eq_true fits).1
        | _ =>
            rw [here] at divides
            cases divides
    | _ => cases reduces

def rotating (n : Nat) : TaskProcessorConfig := { numThreads := n, mode := .roundRobin }

theorem rotating_policy (n : Nat) : PolicyInRange (rotating n) := by
  intro given chosen
  cases chosen

-- Two queues; between the fetch_add of the second task and its division comes
-- a configuration with one thread. Both tasks go to queue 0.
theorem indices_in_range_narrowed :
    ∃ s : State Nat Nat, Machine.Reachable step Fitting (construct (rotating 2) 0) s ∧ s.cfg.numThreads = 1 ∧
      s.indices (.call 1) = [0] ∧ Inside s (.call 1) := by
  obtain ⟨s, reachable, shown⟩ := Machine.run_exhibits step Fitting (construct (rotating 2) 0)
    ([[.submit 0 7 []], List.replicate 9 (.call 0), [.submit 1 8 []], List.replicate 4 (.call 1),
      [.updateConfig (rotating 1), .call 1]].flatten : List (Action Nat Nat))
    (fun s => s.cfg.numThreads == 1 && s.indices (.call 1) == [0] && fitting s (.call 1)) (by decide)
  simp only [Bool.and_eq_true, beq_iff_eq] at shown
  obtain ⟨⟨threads, used⟩, fits⟩ := shown
  exact ⟨s, reachable, threads, used, (indices_in_range (rotating 2) 0 (rotating_policy 2) s reachable _ fits).2⟩

-- One queue, then a configuration with two threads: the second task goes to a
-- queue that does not exist.
theorem widened_config_escapes :
    ¬ ∀ (cfg : TaskProcessorConfig) (now : Int), PolicyInRange cfg → ∀ s : State Nat Nat,
      Machine.Reachable step (fun _ _ => True) (construct cfg now) s → ∀ action, Inside s action := by
  intro always
  obtain ⟨s, reachable, shown⟩ := Machine.run_exhibits step (fun _ _ => True) (construct (rotating 1) 0)
    ([[.updateConfig (rotating 2), .submit 0 7 []], List.replicate 9 (.call 0), [.submit 1 8 []],
      List.replicate 5 (.call 1)].flatten : List (Action Nat Nat))
    (fun s => s.queues.length == 1 && s.indices (.call 1) == [1]) (by decide)
  simp only [Bool.and_eq_true, beq_iff_eq] at shown
  have inside := (always (rotating 1) 0 (rotating_policy 1) s reachable (.call 1)).indices 1
  rw [shown.1, shown.2] at inside
  exact absurd (inside List.mem_cons_self) (by decide)

end Vectro.Pool
