import Mathlib.Order.WellFounded
import Vectro.PoolLedger
import Vectro.PoolRange
import Vectro.PoolShutdown

set_option autoImplicit false

namespace Vectro.Pool

open Tally

variable {T W : Type}

-- A steal policy that returns when it is called.
def AnsweringPolicy (policy : StealPolicy) : Prop := ∀ sizes, sizes ≠ [] → ∃ vic, policy sizes vic = true

def PolicyAnswers (cfg : TaskProcessorConfig) : Prop := ∀ policy, cfg.stealPolicy = some policy → AnsweringPolicy policy

-- The threads only go on with what they are doing: nobody submits, nobody
-- changes the configuration, and the destructor does nothing.
def Proceeds (_ : State T W) : Action T W → Prop
  | .call _ | .worker _ | .workerSteals .. => True
  | _ => False

structure Closing (n : Nat) (s : State T W) : Prop where
  range : InRange n s
  roused : Roused s
  signalled : s.destructor.signalled = true
  answers : AnsweringPolicy s.stealPolicy

theorem call_move_keeps (s after : State T W) (i : Nat) (call : Call T W) (moves : CallMove s i call after) :
    after.destructor = s.destructor ∧ after.stealPolicy = s.stealPolicy := by
  cases moves <;> exact ⟨rfl, rfl⟩

theorem worker_move_keeps (s after : State T W) (w : Nat) (pc : WorkerPc T W) (moves : WorkerMove s w pc after) :
    after.destructor = s.destructor ∧ after.stealPolicy = s.stealPolicy := by
  cases moves <;> exact ⟨rfl, rfl⟩

theorem proceeds_closing (n : Nat) (s after : State T W) (action : Action T W) (nonzero : 0 < n)
    (proceeds : Proceeds s action) (taken : step s action = some after) (closing : Closing n s) : Closing n after := by
  have moves := (step_move s after action taken).2
  have keeps : KeepsThreads s action := by cases action <;> trivial
  have clear : SignalsNoneCommitted s action := by cases action <;> trivial
  have range := move_in_range n s after action nonzero keeps moves closing.range
  have roused := move_roused s after action moves clear closing.roused
  have kept : after.destructor = s.destructor ∧ after.stealPolicy = s.stealPolicy := by
    cases moves with
    | call _ i call after acts found moves => exact call_move_keeps s after i call moves
    | worker _ w pc after acts found moves => exact worker_move_keeps s after w pc moves
    | _ => exact proceeds.elim
  exact ⟨range, roused, kept.1 ▸ closing.signalled, kept.2 ▸ closing.answers⟩

def SubmitPc.holding (pc : SubmitPc) : Nat := pc.qmutex.isSome.toNat

-- How many steps a call is from unlocking its qmutex, as long as no other call
-- moves the mark.
def SubmitPc.attempts (mark : UInt64) : SubmitPc → Nat
  | .sample _ => 3
  | .exchange _ hwm prev => if prev < hwm ∧ mark ≠ prev then 2 else 1
  | _ => 0

-- How many steps a worker is from the end of its thread once running_ is
-- false, as long as it takes no task.
def WorkerPc.toGo (callbacks threads : Nat) : WorkerPc T W → Nat
  | .testTasks | .wait | .blocked | .finished => 0
  | .stop => 1
  | .leave => 2
  | .loop => 3
  | .notify _ => 4
  | .drops => 5
  | .wrappers _ remaining => 6 + remaining.length
  | .callbacks item k => 7 + item.wrappers.length + (callbacks - k)
  | .lockCallbacks item => 8 + item.wrappers.length + callbacks
  | .processed item => 9 + item.wrappers.length + callbacks
  | .subtract item => 10 + item.wrappers.length + callbacks
  | .steal _ => 6
  | .policy _ => 7
  | .sizes _ i => 8 + (threads - i)
  | .vector => 9 + threads
  | .mode => 10 + threads
  | .own => 11 + threads
  | .testRunning => 12 + threads
  | .lock => 13 + threads

def State.effort (s : State T W) : Nat :=
  s.callTally (SubmitPc.attempts s.highWaterMark) + total (WorkerPc.toGo s.globalCallbacks s.cfg.numThreads) s.workers

-- First the qmutexes are unlocked, then the queues shrink, and in between the
-- threads come nearer to their ends.
def State.remaining (s : State T W) : Nat × Nat × Nat := (s.callTally SubmitPc.holding, s.queued, s.effort)

def Less : Nat × Nat × Nat → Nat × Nat × Nat → Prop := Prod.Lex (· < ·) (Prod.Lex (· < ·) (· < ·))

theorem less_founded : WellFounded Less := WellFounded.prod_lex Nat.lt_wfRel.wf (WellFounded.prod_lex Nat.lt_wfRel.wf Nat.lt_wfRel.wf)

-- Only a call or a worker has moved on.
structure Steady (s after : State T W) : Prop where
  queues : after.queues = s.queues := by rfl
  mark : after.highWaterMark = s.highWaterMark := by rfl
  callbacks : after.globalCallbacks = s.globalCallbacks := by rfl
  cfg : after.cfg = s.cfg := by rfl

section
variable (s after : State T W) (i : Nat) (call : Call T W) (pc : SubmitPc) (found : s.calls[i]? = some call)
  (calls : after.calls = s.calls.set i { call with pc := pc })

include found calls

theorem unlocks_less (held : call.pc.holding = 1) (released : pc.holding = 0) : Less after.remaining s.remaining := by
  have moved := call_tally_move s after i call found SubmitPc.holding pc calls 1 0 held released
  apply Prod.Lex.left _ _
  omega

theorem attempts_less (still : pc.holding = call.pc.holding)
    (fewer : pc.attempts s.highWaterMark < call.pc.attempts s.highWaterMark) (steady : Steady s after)
    (workers : after.workers = s.workers := by rfl) : Less after.remaining s.remaining := by
  have locked := call_tally_move s after i call found SubmitPc.holding pc calls _ _ rfl still
  have moved := call_tally_move s after i call found (SubmitPc.attempts s.highWaterMark) pc calls _ _ rfl rfl
  have held : after.callTally SubmitPc.holding = s.callTally SubmitPc.holding := by omega
  have queued : after.queued = s.queued := by rw [State.queued, steady.queues]; rfl
  rw [State.remaining, State.remaining, held, queued]
  refine Prod.Lex.right _ (Prod.Lex.right _ ?_)
  rw [State.effort, State.effort, steady.mark, workers, steady.callbacks, steady.cfg]
  omega

end

-- A call that holds a qmutex waits for nobody.
theorem holder_advances (n : Nat) (s : State T W) (range : InRange n s) (i : Nat) (call : Call T W)
    (found : s.calls[i]? = some call) (held : call.pc.qmutex.isSome = true) :
    ∃ after, step s (.call i) = some after ∧ Less after.remaining s.remaining := by
  have inside := range.calls call (List.mem_of_getElem? found)
  have taken : step s (.call i) = submitImpl s i call := by simp [step, range.sound, found]
  rw [taken]
  cases here : call.pc with
  | sample idx =>
      rw [here] at inside
      have bound : idx < s.queues.length := range.queues ▸ inside
      have queue := List.getElem?_eq_getElem bound
      simp only [submitImpl, here, queue]
      refine ⟨_, rfl, ?_⟩
      exact attempts_less s _ i call _ found rfl (by rw [here]; rfl) (by simp [here, SubmitPc.attempts]) {}
  | exchange idx hwm prev =>
      by_cases above : prev < hwm
      · by_cases current : s.highWaterMark = prev
        · simp only [submitImpl, here, if_pos above, if_pos current]
          refine ⟨_, rfl, ?_⟩
          exact unlocks_less s _ i call .count found rfl (by rw [here]; rfl) rfl
        · simp only [submitImpl, here, if_pos above, if_neg current]
          refine ⟨_, rfl, ?_⟩
          refine attempts_less s _ i call _ found rfl (by rw [here]; rfl) ?_ {}
          simp [here, SubmitPc.attempts, above, current]
      · simp only [submitImpl, here, if_neg above]
        refine ⟨_, rfl, ?_⟩
        exact unlocks_less s _ i call .count found rfl (by rw [here]; rfl) rfl
  | _ => simp [here, SubmitPc.qmutex] at held

theorem to_go_less (s after : State T W) (w : Nat) (pc next : WorkerPc T W) (found : s.workers[w]? = some pc)
    (workers : after.workers = s.workers.set w next)
    (nearer : next.toGo s.globalCallbacks s.cfg.numThreads < pc.toGo s.globalCallbacks s.cfg.numThreads)
    (steady : Steady s after) (calls : after.calls = s.calls := by rfl) : Less after.remaining s.remaining := by
  have moved := worker_total_move s after w pc next found (WorkerPc.toGo s.globalCallbacks s.cfg.numThreads) workers
    _ _ rfl rfl
  have tally : ∀ weight, after.callTally weight = s.callTally weight := by
    intro weight
    rw [State.callTally, calls]
    rfl
  have queued : after.queued = s.queued := by rw [State.queued, steady.queues]; rfl
  rw [State.remaining, State.remaining, tally, queued]
  refine Prod.Lex.right _ (Prod.Lex.right _ ?_)
  rw [State.effort, State.effort, tally, steady.mark, steady.callbacks, steady.cfg]
  omega

theorem takes_less (s after : State T W) (idx : Nat) (queue rest : List (TaskItem T W))
    (found : s.queues[idx]? = some queue) (queues : after.queues = s.queues.set idx rest)
    (shorter : rest.length < queue.length) (calls : after.calls = s.calls) : Less after.remaining s.remaining := by
  have tally : after.callTally SubmitPc.holding = s.callTally SubmitPc.holding := by
    rw [State.callTally, calls]
    rfl
  have moved := total_set List.length s.queues idx queue rest found
  have queued : after.queued < s.queued := by
    rw [State.queued, State.queued, queues]
    omega
  rw [State.remaining, State.remaining, tally]
  exact Prod.Lex.right _ (Prod.Lex.left _ _ queued)

-- What a worker may wait for: a qmutex, mutex_ or cb_mu_, and nothing else.
theorem worker_advances (n : Nat) (s : State T W) (nonzero : 0 < n) (closing : Closing n s) (w : Nat) (pc : WorkerPc T W)
    (found : s.workers[w]? = some pc) (working : pc ≠ .finished) (qmutexes : ∀ idx, s.qmutexFree idx = true)
    (mutex : pc = .lock → s.mutexFree = true) (cbMu : ∀ item, pc = .lockCallbacks item → s.cbMuFree = true) :
    ∃ action after, Proceeds s action ∧ step s action = some after ∧ Less after.remaining s.remaining := by
  have range := closing.range
  have inside := range.pcs pc (List.mem_of_getElem? found)
  have shut : s.running = false := closing.roused.stopped (signalled_not_alive _ closing.signalled)
  have awake := closing.roused.roused closing.signalled pc (List.mem_of_getElem? found)
  have taken : step s (.worker w) = processLoop s w pc := by simp [step, range.sound, found]
  have queued : ∀ idx < n, ∃ queue, s.queues[idx]? = some queue := fun idx bound =>
    ⟨_, List.getElem?_eq_getElem (range.queues ▸ bound)⟩
  -- A step that only moves this worker on.
  have goes : ∀ after next, processLoop s w pc = some after → after.workers = s.workers.set w next →
      next.toGo s.globalCallbacks s.cfg.numThreads < pc.toGo s.globalCallbacks s.cfg.numThreads →
      after.calls = s.calls → Steady s after →
      ∃ action after, Proceeds s action ∧ step s action = some after ∧ Less after.remaining s.remaining := by
    intro after next stepped workers nearer calls steady
    exact ⟨.worker w, after, trivial, taken.trans stepped, to_go_less s after w pc next found workers nearer steady calls⟩
  have turns : ∀ next, processLoop s w pc = some (s.setWorker w next) →
      next.toGo s.globalCallbacks s.cfg.numThreads < pc.toGo s.globalCallbacks s.cfg.numThreads →
      ∃ action after, Proceeds s action ∧ step s action = some after ∧ Less after.remaining s.remaining :=
    fun next stepped nearer => goes _ next stepped rfl nearer rfl {}
  cases pc with
  | loop => exact turns .leave (by rw [processLoop, shut]; rfl) (by simp [WorkerPc.toGo])
  | lock =>
      refine turns .testRunning ?_ (by simp [WorkerPc.toGo])
      rw [processLoop, if_pos (mutex rfl)]
  | testRunning =>
      refine turns .own ?_ (by simp [WorkerPc.toGo])
      rw [processLoop, shut]
      rfl
  | testTasks | wait | blocked => simp [WorkerPc.dozing] at awake
  | own =>
      have bound : w < n := range.workers ▸ (List.getElem?_eq_some_iff.mp found).1
      obtain ⟨queue, here⟩ := queued w bound
      cases queue with
      | nil =>
          refine turns .mode ?_ (by simp [WorkerPc.toGo])
          simp only [processLoop, here, qmutexes w, if_true]
      | cons item rest =>
          refine ⟨.worker w, _, trivial, by rw [taken]; simp only [processLoop, here, qmutexes w, if_true]; rfl, ?_⟩
          exact takes_less s _ w (item :: rest) rest here rfl (Nat.lt_succ_self _) rfl
  | mode =>
      by_cases stealing : s.cfg.mode = .workStealing
      · refine turns .vector ?_ (by simp [WorkerPc.toGo])
        rw [processLoop, if_pos stealing]
      · refine turns .drops ?_ ?_
        · rw [processLoop, if_neg stealing]
        · simp only [WorkerPc.toGo]
          omega
  | vector =>
      refine turns (.sizes (List.replicate s.cfg.numThreads 0) 0) rfl ?_
      simp only [WorkerPc.toGo]
      omega
  | sizes sizes i =>
      by_cases more : i < s.cfg.numThreads
      · obtain ⟨queue, here⟩ := queued i (range.threads ▸ more)
        have bound : i < sizes.length := by rwa [show sizes.length = n from inside, ← range.threads]
        refine turns (.sizes (sizes.set i queue.length) (i + 1)) ?_ ?_
        · simp only [processLoop, more, here, bound, if_true]
        · simp only [WorkerPc.toGo]
          omega
      · refine turns (.policy sizes) ?_ ?_
        · rw [processLoop, if_neg more]
        · simp only [WorkerPc.toGo]
          omega
  | policy sizes =>
      have length : sizes.length = n := inside
      obtain ⟨vic, answer⟩ := closing.answers sizes (List.ne_nil_of_length_pos (by omega))
      refine ⟨.workerSteals w vic, s.setWorker w (.steal vic), trivial, ?_, ?_⟩
      · simp [step, range.sound, found, stealFrom, answer]
      · exact to_go_less s _ w _ (.steal vic) found rfl (by simp [WorkerPc.toGo]) {}
  | steal vic =>
      obtain ⟨queue, here⟩ := queued vic inside
      cases last : queue.getLast? with
      | none =>
          refine turns .drops ?_ (by simp [WorkerPc.toGo])
          simp only [processLoop, here, qmutexes vic, last, if_true]
      | some item =>
          refine ⟨.worker w, _, trivial, by rw [taken]; simp only [processLoop, here, qmutexes vic, last, if_true]; rfl, ?_⟩
          have shorter := last_dropped queue item last
          exact takes_less s _ vic queue queue.dropLast here rfl (by omega) rfl
  | subtract item =>
      exact goes _ (.processed item) rfl rfl (by simp [WorkerPc.toGo]) rfl {}
  | processed item =>
      exact goes _ (.lockCallbacks item) rfl rfl (by simp [WorkerPc.toGo]) rfl {}
  | lockCallbacks item =>
      refine turns (.callbacks item 0) ?_ (by simp [WorkerPc.toGo])
      rw [processLoop, if_pos (cbMu item rfl)]
  | callbacks item k =>
      by_cases more : k < s.globalCallbacks
      · refine goes ((s.setWorker w (.callbacks item (k + 1))).emit (.callback w k item false)) (.callbacks item (k + 1)) ?_
          rfl ?_ rfl {}
        · rw [processLoop, if_pos more, invoke, if_pos more]
        · simp only [WorkerPc.toGo]
          omega
      · refine turns (.wrappers item item.wrappers) ?_ ?_
        · rw [processLoop, if_neg more]
        · simp only [WorkerPc.toGo]
          omega
  | wrappers item remaining =>
      cases remaining with
      | nil => exact goes _ .drops rfl rfl (by simp [WorkerPc.toGo]) rfl {}
      | cons wrapper rest =>
          exact goes _ (.wrappers item rest) rfl rfl (by simp [WorkerPc.toGo]) rfl {}
  | drops =>
      refine goes _ _ rfl rfl ?_ rfl {}
      split <;> simp [WorkerPc.toGo]
  | notify d =>
      refine goes (notifyDrops s w d) .loop rfl ?_ (by simp [WorkerPc.toGo]) ?_ ?_
      · unfold notifyDrops
        split <;> rfl
      · unfold notifyDrops
        split <;> rfl
      · unfold notifyDrops
        split <;> exact {}
  | leave => exact goes _ .stop rfl rfl (by simp [WorkerPc.toGo]) rfl {}
  | stop => exact goes _ .finished rfl rfl (by simp [WorkerPc.toGo]) rfl {}
  | finished => exact absurd rfl working

theorem holder_not_waiting (pc : WorkerPc T W) (holds : pc.holdsMutex = true ∨ pc.holdsCallbacks = true) :
    pc ≠ .finished ∧ pc ≠ .lock ∧ ∀ item, pc ≠ .lockCallbacks item := by
  cases pc <;> simp [WorkerPc.holdsMutex, WorkerPc.holdsCallbacks] at holds ⊢

-- The holder of a lock goes first: of a qmutex, then of mutex_, then of cb_mu_.
theorem closing_advances (n : Nat) (s : State T W) (nonzero : 0 < n) (closing : Closing n s)
    (working : ¬ ∀ pc ∈ s.workers, pc.returned = true) :
    ∃ action after, Proceeds s action ∧ step s action = some after ∧ Less after.remaining s.remaining := by
  by_cases qmutexes : ∃ call ∈ s.calls, call.pc.qmutex.isSome = true
  · obtain ⟨call, member, held⟩ := qmutexes
    obtain ⟨i, found⟩ := List.mem_iff_getElem?.mp member
    obtain ⟨after, taken, less⟩ := holder_advances n s closing.range i call found held
    exact ⟨.call i, after, trivial, taken, less⟩
  have free : ∀ idx, s.qmutexFree idx = true := by
    intro idx
    apply List.all_eq_true.mpr
    intro call member
    have none : call.pc.qmutex = none := by
      simpa using fun held => qmutexes ⟨call, member, held⟩
    rw [none]
    rfl
  have busy : ∀ pc ∈ s.workers, pc.holdsMutex = true ∨ pc.holdsCallbacks = true →
      ∃ action after, Proceeds s action ∧ step s action = some after ∧ Less after.remaining s.remaining := by
    intro pc member holds
    obtain ⟨unfinished, unlocked, unwaiting⟩ := holder_not_waiting pc holds
    obtain ⟨w, found⟩ := List.mem_iff_getElem?.mp member
    exact worker_advances n s nonzero closing w pc found unfinished free (fun waits => absurd waits unlocked)
      (fun item waits => absurd waits (unwaiting item))
  by_cases mutex : s.mutexFree = true
  · by_cases cbMu : s.cbMuFree = true
    · simp only [not_forall] at working
      obtain ⟨pc, member, working⟩ := working
      obtain ⟨w, found⟩ := List.mem_iff_getElem?.mp member
      refine worker_advances n s nonzero closing w pc found ?_ free (fun _ => mutex) (fun _ _ => cbMu)
      rintro rfl
      exact working rfl
    · have held : ∃ pc ∈ s.workers, pc.holdsCallbacks = true := by simpa [State.cbMuFree] using cbMu
      obtain ⟨pc, member, holds⟩ := held
      exact busy pc member (.inr holds)
  · have held : ∃ pc ∈ s.workers, pc.holdsMutex = true := by simpa [State.mutexFree] using mutex
    obtain ⟨pc, member, holds⟩ := held
    exact busy pc member (.inl holds)

-- Once the destructor has signalled, the threads can go on until every worker
-- has returned, whatever they are doing.
theorem closing_ends (n : Nat) (s : State T W) (nonzero : 0 < n) (closing : Closing n s) :
    ∃ final, Machine.Reachable step Proceeds s final ∧ ∀ pc ∈ final.workers, pc.returned = true := by
  refine Machine.reachable_goal Less less_founded step Proceeds (Closing n) _ State.remaining ?_ s closing
  intro state closing working
  obtain ⟨action, after, proceeds, taken, less⟩ := closing_advances n state nonzero closing working
  exact ⟨action, after, proceeds, taken, proceeds_closing n state after action nonzero proceeds taken closing, less⟩

theorem default_steal_policy_answers : AnsweringPolicy fun sizes vic => vic == defaultStealPolicy sizes :=
  fun sizes _ => ⟨defaultStealPolicy sizes, beq_self_eq_true _⟩

theorem construct_answers (cfg : TaskProcessorConfig) (now : Int) (answers : PolicyAnswers cfg) :
    AnsweringPolicy (construct cfg now : State T W).stealPolicy := by
  cases chosen : cfg.stealPolicy with
  | none => simpa only [construct, chosen, Option.getD_none] using default_steal_policy_answers
  | some policy => simpa only [construct, chosen, Option.getD_some] using answers policy chosen

theorem move_steal_policy (s after : State T W) (action : Action T W) (moves : Move s action after) :
    after.stealPolicy = s.stealPolicy ∧ after.workers.length = s.workers.length := by
  cases moves with
  | call _ i call after acts found moves => cases moves <;> simp
  | worker _ w pc after acts found moves => cases moves <;> simp
  | destroy pc after here moves => cases moves <;> simp
  | _ => exact ⟨rfl, rfl⟩

theorem reachable_steal_policy (guard : State T W → Action T W → Prop) (cfg : TaskProcessorConfig) (now : Int)
    (s : State T W) (reachable : Machine.Reachable step guard (construct cfg now) s) :
    s.stealPolicy = (construct cfg now : State T W).stealPolicy ∧ s.workers.length = cfg.numThreads := by
  refine Machine.reachable_invariant step guard _ (fun s => s.stealPolicy = _ ∧ s.workers.length = _) ?_ ?_ s reachable
  · exact ⟨rfl, List.length_replicate⟩
  · intro before action after _ kept _ taken
    have same := move_steal_policy before after action (step_move before after action taken).2
    exact ⟨same.1.trans kept.1, same.2.trans kept.2⟩

def AwakeAfterSignal (s : State T W) : Prop := s.destructor.signalled = true → ∀ pc ∈ s.workers, pc ≠ .blocked

-- Every join can return: the threads have a way to go on in which every worker
-- returns.
def JoinsCanReturn (s : State T W) : Prop :=
  ∃ final, Machine.Reachable step Proceeds s final ∧ ∀ pc ∈ final.workers, pc.returned = true

def ClosesInRange (s : State T W) (action : Action T W) : Prop := SignalsNoneCommitted s action ∧ KeepsThreads s action

instance (s : State T W) (action : Action T W) : Decidable (ClosesInRange s action) :=
  inferInstanceAs (Decidable (_ ∧ _))

theorem joins_can_return (cfg : TaskProcessorConfig) (now : Int) (policy : PolicyInRange cfg)
    (answers : PolicyAnswers cfg) (s : State T W)
    (reachable : Machine.Reachable step ClosesInRange (construct cfg now) s)
    (signalled : s.destructor.signalled = true) : JoinsCanReturn s := by
  obtain ⟨chosen, length⟩ := reachable_steal_policy ClosesInRange cfg now s reachable
  by_cases threads : cfg.numThreads = 0
  · have none : s.workers = [] := List.eq_nil_of_length_eq_zero (length.trans threads)
    exact ⟨s, .start, by simp [none]⟩
  · have nonzero : 1 ≤ cfg.numThreads := Nat.pos_of_ne_zero threads
    have keeps := Machine.reachable_weaken step ClosesInRange KeepsThreads _ (fun _ _ _ both => both.2) s reachable
    have clear := Machine.reachable_weaken step ClosesInRange SignalsNoneCommitted _ (fun _ _ _ both => both.1) s reachable
    exact closing_ends cfg.numThreads s nonzero
      ⟨reachable_in_range cfg now nonzero policy s keeps, reachable_roused cfg now s clear, signalled,
        chosen ▸ construct_answers cfg now answers⟩

theorem no_wakeup_lost (cfg : TaskProcessorConfig) (now : Int) :
    (∀ s : State T W, Machine.Reachable step SignalsNoneCommitted (construct cfg now) s → AwakeAfterSignal s) ∧
    (PolicyInRange cfg → PolicyAnswers cfg → ∀ s : State T W,
      Machine.Reachable step ClosesInRange (construct cfg now) s → s.destructor.signalled = true → JoinsCanReturn s) := by
  constructor
  · intro s reachable signalled pc member blocked
    have awake := (reachable_roused cfg now s reachable).roused signalled pc member
    simp [blocked, WorkerPc.dozing] at awake
  · exact fun policy answers s => joins_can_return cfg now policy answers s

def single : TaskProcessorConfig := { numThreads := 1 }

-- The worker tests running_ and tasks_in_queue_, the destructor stores and
-- signals, and only then the worker waits: nobody signals again.
def lostWakeup : List (Action Nat Nat) := [List.replicate 4 (.worker 0), [.destroy, .destroy, .worker 0]].flatten

theorem wakeup_lost_at_shutdown :
    ¬ ∀ s : State Nat Nat, Machine.Reachable step (fun _ _ => True) (construct single 0) s → AwakeAfterSignal s := by
  intro claimed
  obtain ⟨s, reachable, shown⟩ := Machine.run_exhibits step (fun _ _ => True) (construct single 0) lostWakeup
    (fun s => s.destructor.signalled && s.workers.contains .blocked) (by decide)
  simp only [Bool.and_eq_true, List.contains_iff_mem] at shown
  exact claimed s reachable shown.1 .blocked shown.2 rfl

-- Here the worker waits before the destructor signals and goes on to leave.
theorem no_wakeup_lost_early :
    ∃ s : State Nat Nat, Machine.Reachable step ClosesInRange (construct single 0) s ∧
      s.destructor.signalled = true ∧ s.workers = [.lock] ∧ AwakeAfterSignal s ∧ JoinsCanReturn s := by
  obtain ⟨s, reachable, shown⟩ := Machine.run_exhibits step ClosesInRange (construct single 0)
    ([List.replicate 5 (.worker 0), [.destroy, .destroy]].flatten : List (Action Nat Nat))
    (fun s => s.destructor.signalled && s.workers == [.lock]) (by decide)
  simp only [Bool.and_eq_true, beq_iff_eq] at shown
  have clear := Machine.reachable_weaken step ClosesInRange SignalsNoneCommitted _ (fun _ _ _ both => both.1) s reachable
  exact ⟨s, reachable, shown.1, shown.2, (no_wakeup_lost single 0).1 s clear,
    (no_wakeup_lost single 0).2 (by simp [PolicyInRange, single]) (by simp [PolicyAnswers, single]) s reachable shown.1⟩

end Vectro.Pool
