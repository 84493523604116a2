import Vectro.PoolLedger

set_option autoImplicit false

namespace Vectro.Pool

open Tally Traces

variable {T W : Type}

def SubmitPc.counted : SubmitPc → Nat
  | .signal | .returned => 1
  | _ => 0

def SubmitPc.refused : SubmitPc → Nat
  | .dropped | .failed => 1
  | _ => 0

-- The worker has uncounted its task in tasks_in_queue_ and not counted it in
-- processed_count_ yet.
def WorkerPc.between : WorkerPc T W → Nat
  | .processed _ => 1
  | _ => 0

def State.counted (s : State T W) : Nat := s.callTally SubmitPc.counted

def State.refused (s : State T W) : Nat := s.callTally SubmitPc.refused

def State.between (s : State T W) : Nat := total WorkerPc.between s.workers

def Event.isTheft : Event T W → Bool
  | .taken w idx _ => w != idx
  | _ => false

def Event.isOwnTake : Event T W → Bool
  | .taken w idx _ => w == idx
  | _ => false

-- A steal policy may name the thief's own queue, and what is taken there counts
-- as stolen too.
structure Metered (s : State T W) : Prop where
  queue : (s.tasksInQueue.toNat + (subtractedItems s.trace).length) % 2 ^ 64 = s.counted % 2 ^ 64
  processed : (s.processedCount.toNat + s.between) % 2 ^ 64 = (subtractedItems s.trace).length % 2 ^ 64
  stolen : ∃ own ≤ s.trace.countP Event.isOwnTake, s.stolenCount.toNat = (s.trace.countP Event.isTheft + own) % 2 ^ 64

theorem count_quiet (kind : Event T W → Bool) (trace : List (Event T W)) (event : Event T W) (other : kind event = false) :
    (trace ++ [event]).countP kind = trace.countP kind := by
  rw [List.countP_append, List.countP_singleton, other]
  rfl

theorem metered_frame (s after : State T W) (metered : Metered s) (calls : after.counted = s.counted := by rfl)
    (workers : after.between = s.between := by rfl) (counter : after.tasksInQueue = s.tasksInQueue := by rfl)
    (processed : after.processedCount = s.processedCount := by rfl) (stolen : after.stolenCount = s.stolenCount := by rfl)
    (subtracted : subtractedItems after.trace = subtractedItems s.trace := by first | rfl | exact filter_map_quiet _ _ _ rfl)
    (thefts : after.trace.countP Event.isTheft = s.trace.countP Event.isTheft := by first | rfl | exact count_quiet _ _ _ rfl)
    (takes : after.trace.countP Event.isOwnTake = s.trace.countP Event.isOwnTake := by
      first | rfl | exact count_quiet _ _ _ rfl) : Metered after where
  queue := by
    rw [counter, subtracted, calls]
    exact metered.queue
  processed := by
    rw [processed, workers, subtracted]
    exact metered.processed
  stolen := by
    rw [stolen, thefts, takes]
    exact metered.stolen

theorem wake_between (workers : List (WorkerPc T W)) :
    total WorkerPc.between (workers.map WorkerPc.wake) = total WorkerPc.between workers := by
  apply total_map
  intro pc
  cases pc <;> rfl

theorem call_move_metered (s after : State T W) (i : Nat) (call : Call T W) (found : s.calls[i]? = some call)
    (moves : CallMove s i call after) (metered : Metered s) : Metered after := by
  have quiet : ∀ (next : State T W) (pc : SubmitPc), next.calls = s.calls.set i { call with pc := pc } →
      pc.counted = call.pc.counted → next.counted = s.counted := by
    intro next pc rewritten same
    exact Nat.add_right_cancel (call_tally_move s next i call found SubmitPc.counted pc rewritten _ _ rfl same)
  cases moves with
  | count here =>
      have more : ({ s with tasksInQueue := s.tasksInQueue + 1 }.setCall i call .signal).counted + 0 = s.counted + 1 :=
        call_tally_move s _ i call found SubmitPc.counted .signal rfl 0 1 (by rw [here]; rfl) rfl
      have one : (1 : UInt64).toNat = 1 := rfl
      have queue := metered.queue
      refine ⟨?_, metered.processed, metered.stolen⟩
      rw [Nat.add_zero] at more
      simp only [State.setCall, UInt64.toNat_add, one] at more ⊢
      omega
  | signal here free =>
      exact metered_frame s _ metered (quiet _ .returned rfl (by rw [here]; rfl)) (wake_between s.workers)
  | divide | outside => exact metered_frame s _ metered
  | pass curr next here passes goes =>
      refine metered_frame s _ metered (quiet _ next rfl ?_)
      rcases goes with rfl | rfl <;> rw [here] <;> rfl
  | fail here =>
      refine metered_frame s _ metered (quiet _ .failed rfl ?_)
      rcases here with here | ⟨idx, here⟩ <;> rw [here] <;> rfl
  | load here | trip _ here _ | drop here | backoff here | first here _ | spread here _ | rotate here | assign _ here _
  | push _ _ here _ _ _ | sample _ _ here _ | exchange _ _ _ here _ _ | retry _ _ _ here _ | settle _ _ _ here _ =>
      exact metered_frame s _ metered (quiet _ _ rfl (by rw [here]; rfl))

theorem take_metered (s after : State T W) (metered : Metered s) (w idx : Nat) (item : TaskItem T W)
    (trace : after.trace = s.trace ++ [.taken w idx item])
    (stolen : (w = idx ∧ after.stolenCount = s.stolenCount) ∨ after.stolenCount = s.stolenCount + 1)
    (workers : after.between = s.between) (calls : after.counted = s.counted := by rfl)
    (counter : after.tasksInQueue = s.tasksInQueue := by rfl)
    (processed : after.processedCount = s.processedCount := by rfl) : Metered after := by
  have subtracted : subtractedItems after.trace = subtractedItems s.trace := by
    rw [trace]
    exact filter_map_quiet _ _ _ rfl
  have thefts : after.trace.countP Event.isTheft = s.trace.countP Event.isTheft + if w = idx then 0 else 1 := by
    rw [trace, List.countP_append, List.countP_singleton]
    by_cases same : w = idx <;> simp [Event.isTheft, same]
  have takes : after.trace.countP Event.isOwnTake = s.trace.countP Event.isOwnTake + if w = idx then 1 else 0 := by
    rw [trace, List.countP_append, List.countP_singleton]
    by_cases same : w = idx <;> simp [Event.isOwnTake, same]
  obtain ⟨own, le, before⟩ := metered.stolen
  refine ⟨by rw [counter, subtracted, calls]; exact metered.queue, by rw [processed, workers, subtracted]; exact metered.processed, ?_⟩
  rw [thefts, takes]
  rcases stolen with ⟨same, still⟩ | more
  · rw [still, if_pos same, if_pos same]
    exact ⟨own, Nat.le_succ_of_le le, before⟩
  · have one : (1 : UInt64).toNat = 1 := rfl
    rw [more, UInt64.toNat_add, one, before]
    by_cases same : w = idx
    · exact ⟨own + 1, by rw [if_pos same]; omega, by rw [if_pos same]; omega⟩
    · exact ⟨own, by rw [if_neg same]; omega, by rw [if_neg same]; omega⟩

theorem worker_move_metered (s after : State T W) (w : Nat) (pc : WorkerPc T W) (found : s.workers[w]? = some pc)
    (moves : WorkerMove s w pc after) (metered : Metered s) : Metered after := by
  have one : (1 : UInt64).toNat = 1 := rfl
  have quiet : ∀ next : WorkerPc T W, next.between = pc.between → total WorkerPc.between (s.workers.set w next) = s.between :=
    fun next same => total_set_same s.workers w pc next found WorkerPc.between same
  cases moves with
  | take item rest inside free => exact take_metered s _ metered w w item rfl (.inl ⟨rfl, rfl⟩) (quiet _ rfl)
  | steal vic queue item inside free last => exact take_metered s _ metered w vic item rfl (.inr rfl) (quiet _ rfl)
  | subtract item =>
      have logged : subtractedItems (s.trace ++ [.subtracted w item]) = subtractedItems s.trace ++ [item] :=
        filter_map_logs _ _ _ _ rfl
      have more : total WorkerPc.between (s.workers.set w (.processed item)) + 0 = s.between + 1 :=
        worker_total_move s (s.setWorker w (.processed item)) w _ _ found WorkerPc.between rfl 0 1 rfl rfl
      have below := s.tasksInQueue.toNat_lt
      refine ⟨?_, ?_, ?_⟩
      · have queue := metered.queue
        change ((s.tasksInQueue - 1).toNat + (subtractedItems (s.trace ++ [.subtracted w item])).length) % 2 ^ 64 = s.counted % 2 ^ 64
        rw [logged, UInt64.toNat_sub, one, List.length_append, List.length_singleton]
        omega
      · have processed := metered.processed
        change (s.processedCount.toNat + total WorkerPc.between (s.workers.set w (.processed item))) % 2 ^ 64 =
          (subtractedItems (s.trace ++ [.subtracted w item])).length % 2 ^ 64
        rw [logged, List.length_append, List.length_singleton]
        omega
      · rw [State.emit, count_quiet _ _ _ rfl, count_quiet _ _ _ rfl]
        exact metered.stolen
  | processed item =>
      have fewer : total WorkerPc.between (s.workers.set w (.lockCallbacks item)) + 1 = s.between + 0 :=
        worker_total_move s (s.setWorker w (.lockCallbacks item)) w _ _ found WorkerPc.between rfl 1 0 rfl rfl
      have processed := metered.processed
      refine ⟨metered.queue, ?_, metered.stolen⟩
      change ((s.processedCount + 1).toNat + total WorkerPc.between (s.workers.set w (.lockCallbacks item))) % 2 ^ 64 = _
      rw [UInt64.toNat_add, one]
      simp only [State.setWorker]
      omega
  | outside => exact metered_frame s _ metered
  | _ => exact metered_frame s _ metered rfl (quiet _ rfl)

theorem move_metered (s after : State T W) (action : Action T W) (moves : Move s action after) (metered : Metered s) :
    Metered after := by
  cases moves with
  | submit owner payload wrappers sequential =>
      refine metered_frame s _ metered ?_
      simp [State.counted, State.callTally, SubmitPc.counted]
  | call _ i call after acts found moves => exact call_move_metered s after i call found moves metered
  | worker _ w pc after acts found moves => exact worker_move_metered s after w pc found moves metered
  | destroy pc after here moves =>
      cases moves with
      | signal => exact metered_frame s _ metered rfl (wake_between s.workers)
      | _ => exact metered_frame s _ metered
  | _ => exact metered_frame s _ metered

theorem reachable_metered (guard : State T W → Action T W → Prop) (cfg : TaskProcessorConfig) (now : Int) (s : State T W)
    (reachable : Machine.Reachable step guard (construct cfg now) s) : Metered s := by
  refine Machine.reachable_invariant step guard _ Metered ?_ ?_ s reachable
  · have idle : (construct cfg now : State T W).between = 0 := by
      simp [State.between, construct, total_eq_zero, WorkerPc.between]
    refine ⟨rfl, ?_, 0, Nat.zero_le _, rfl⟩
    rw [idle]
    rfl
  · intro before action after _ metered _ taken
    exact move_metered before after action (step_move before after action taken).2 metered

-- Between two statements of nobody: every Submit call has returned, and no
-- worker is about to change a counter.
def Resting (s : State T W) : Prop := (∀ call ∈ s.calls, call.pc.over = true) ∧ s.unsubtracted = 0 ∧ s.between = 0

theorem settled_calls (calls : List (Call T W)) (settled : ∀ call ∈ calls, call.pc.over = true) :
    total (fun call => call.pc.uncounted) calls = 0 ∧
      calls.length = total (fun call => call.pc.refused) calls + total (fun call => call.pc.counted) calls := by
  induction calls with
  | nil => exact ⟨rfl, rfl⟩
  | cons call rest ih =>
      obtain ⟨none, length⟩ := ih fun other member => settled other (List.mem_cons_of_mem call member)
      have here : call.pc.uncounted = 0 ∧ call.pc.refused + call.pc.counted = 1 := by
        have ended := settled call List.mem_cons_self
        cases pc : call.pc with
        | returned | dropped | failed => exact ⟨rfl, rfl⟩
        | _ => simp [pc, SubmitPc.over] at ended
      simp only [total_cons, List.length_cons]
      omega

-- The counters account for every Submit call at every moment, up to the
-- workers caught between two of them, and exactly while the pool rests.
theorem metrics_add_up (guard : State T W → Action T W → Prop) (cfg : TaskProcessorConfig) (now : Int) (s : State T W)
    (reachable : Machine.Reachable step guard (construct cfg now) s) :
    (s.tasksInQueue.toNat + s.processedCount.toNat + s.between) % 2 ^ 64 = s.counted % 2 ^ 64 ∧
      (s.processedCount.toNat + s.between) % 2 ^ 64 = (subtractedItems s.trace).length % 2 ^ 64 ∧
      (∃ own ≤ s.trace.countP Event.isOwnTake, s.stolenCount.toNat = (s.trace.countP Event.isTheft + own) % 2 ^ 64) ∧
      (Resting s → s.tasksInQueue.toNat = s.queued ∧
        s.calls.length % 2 ^ 64 = (s.refused + s.tasksInQueue.toNat + s.processedCount.toNat) % 2 ^ 64) := by
  obtain ⟨queue, processed, stolen⟩ := reachable_metered guard cfg now s reachable
  have ledger := reachable_ledger guard cfg now s reachable
  refine ⟨by omega, processed, stolen, ?_⟩
  intro resting
  obtain ⟨settled, held, idle⟩ := resting
  obtain ⟨uncounted, length⟩ := settled_calls s.calls settled
  have none : s.uncounted = 0 := uncounted
  have balanced := ledger.balanced
  have fits := ledger.fits
  have below := s.tasksInQueue.toNat_lt
  rw [State.outstanding, held, Nat.add_zero] at balanced fits
  rw [none, Nat.add_zero] at balanced
  have limit : itemLimit < 2 ^ 64 := by decide
  constructor
  · omega
  · rw [length]
    change (s.refused + s.counted) % 2 ^ 64 = _
    omega

def oneAtATime : TaskProcessorConfig := { numThreads := 1, maxQueueSize := 1 }

-- The second of three tasks is dropped, the third still waits.
def oneOfThree : List (Action Nat Nat) :=
  [[.submit 0 7 []], List.replicate 8 (.call 0), [.submit 0 8 []], List.replicate 3 (.call 1), List.replicate 12 (.worker 0),
    [.submit 0 9 []], List.replicate 8 (.call 2)].flatten

theorem one_of_three_adds_up :
    ∃ s : State Nat Nat, Machine.Reachable step (fun _ _ => True) (construct oneAtATime 0) s ∧ s.refused = 1 ∧
      s.tasksInQueue = 1 ∧ s.processedCount = 1 ∧
      s.calls.length % 2 ^ 64 = (s.refused + s.tasksInQueue.toNat + s.processedCount.toNat) % 2 ^ 64 := by
  obtain ⟨s, reachable, shown⟩ := Machine.run_exhibits step (fun _ _ => True) (construct oneAtATime 0) oneOfThree
    (fun s => s.refused == 1 && s.tasksInQueue == 1 && s.processedCount == 1 && s.calls.all (fun call => call.pc.over) &&
      s.unsubtracted == 0 && s.between == 0) (by decide)
  simp only [Bool.and_eq_true, beq_iff_eq, List.all_eq_true] at shown
  obtain ⟨⟨⟨⟨⟨refused, queued⟩, processed⟩, settled⟩, held⟩, idle⟩ := shown
  exact ⟨s, reachable, refused, queued, processed, ((metrics_add_up _ oneAtATime 0 s reachable).2.2.2 ⟨settled, held, idle⟩).2⟩

end Vectro.Pool
