import Vectro.LogAdapterMoves
import Vectro.PoolDrops

set_option autoImplicit false

namespace Vectro.Log

open Meter Tally Traces

variable {C : Type}

def Event.drop : Event C → Option Nat
  | .dropped call => some call
  | _ => none

def Event.reading : Event C → Option UInt64
  | .dropsRead count => some count
  | _ => none

def Event.notice : Event C → Option UInt64
  | .notified count _ => some count
  | _ => none

def droppedCalls (trace : List (Event C)) : List Nat := trace.filterMap Event.drop

def countsRead (trace : List (Event C)) : List UInt64 := trace.filterMap Event.reading

def countsNotified (trace : List (Event C)) : List UInt64 := trace.filterMap Event.notice

def WorkerPc.held : WorkerPc C → Nat
  | .notify dropped _ => dropped.toNat
  | _ => 0

def State.account (s : State C) : Account :=
  tallied (droppedCalls s.trace) s.droppedMessages (countsRead s.trace) s.worker.held (countsNotified s.trace)

-- What is logged beside the drops and their reports.
def Event.unmetered (event : Event C) : Prop := event.drop = none ∧ event.reading = none ∧ event.notice = none

theorem account_stays (s after : State C) (log : List (Event C)) (quiet : ∀ event ∈ log, event.unmetered)
    (trace : after.trace = s.trace ++ log) (held : after.worker.held = s.worker.held := by rfl)
    (counter : after.droppedMessages = s.droppedMessages := by rfl) : Change s.account after.account := by
  have counted : droppedCalls (s.trace ++ log) = droppedCalls s.trace :=
    filter_map_aside _ _ _ fun event member => (quiet event member).1
  have read : countsRead (s.trace ++ log) = countsRead s.trace :=
    filter_map_aside _ _ _ fun event member => (quiet event member).2.1
  have written : countsNotified (s.trace ++ log) = countsNotified s.trace :=
    filter_map_aside _ _ _ fun event member => (quiet event member).2.2
  have same : after.account = s.account := by
    rw [State.account, held, counter, trace, counted, read, written, State.account]
  rw [same]
  exact .stays

theorem silent_stays (s after : State C) (held : after.worker.held = s.worker.held := by rfl)
    (counter : after.droppedMessages = s.droppedMessages := by rfl) (trace : after.trace = s.trace := by rfl) :
    Change s.account after.account :=
  account_stays s after [] (List.forall_mem_nil _) (trace.trans (List.append_nil _).symm) held counter

theorem emit_stays (s after : State C) (event : Event C) (unmetered : event.unmetered)
    (held : after.worker.held = s.worker.held := by rfl)
    (counter : after.droppedMessages = s.droppedMessages := by rfl)
    (trace : after.trace = s.trace ++ [event] := by rfl) : Change s.account after.account := by
  apply account_stays s after [event] _ trace held counter
  intro other member
  rw [List.mem_singleton.mp member]
  exact unmetered

-- A Dispatch that ends after it has written to stderr.
theorem dispatched_stays (s after : State C) (text : String) (lm : LogMessage)
    (held : after.worker.held = s.worker.held) (counter : after.droppedMessages = s.droppedMessages := by rfl)
    (trace : after.trace = s.trace ++ [.stderr text] ++ [.dispatched lm] := by rfl) :
    Change s.account after.account := by
  rw [List.append_assoc] at trace
  apply account_stays s after ([.stderr text] ++ [.dispatched lm]) _ trace held counter
  intro event member
  rcases List.mem_cons.mp member with rfl | later
  · exact ⟨rfl, rfl, rfl⟩
  · rw [List.mem_singleton.mp later]
    exact ⟨rfl, rfl, rfl⟩

theorem drop_change (s : State C) (i : Nat) (call : Call) (fits : s.droppedMessages.toNat + 1 < 2 ^ 64) :
    Change s.account
      (({ s with droppedMessages := s.droppedMessages + 1 }.setCall i call .dropped).emit (.dropped i)).account := by
  have counted : droppedCalls (s.trace ++ [.dropped i]) = droppedCalls s.trace ++ [i] := filter_map_logs _ _ _ _ rfl
  have read : countsRead (s.trace ++ [.dropped i]) = countsRead s.trace := filter_map_quiet _ _ _ rfl
  have written : countsNotified (s.trace ++ [.dropped i]) = countsNotified s.trace := filter_map_quiet _ _ _ rfl
  simp only [State.account, State.setCall, State.emit, counted, read, written]
  exact tallied_counts _ _ _ _ _ i fits

theorem read_change (s : State C) :
    Change s.account ({ s with droppedMessages := 0 }.emit (.dropsRead s.droppedMessages)).account := by
  have read : countsRead (s.trace ++ [.dropsRead s.droppedMessages]) = countsRead s.trace ++ [s.droppedMessages] :=
    filter_map_logs _ _ _ _ rfl
  have counted : droppedCalls (s.trace ++ [.dropsRead s.droppedMessages]) = droppedCalls s.trace :=
    filter_map_quiet _ _ _ rfl
  have written : countsNotified (s.trace ++ [.dropsRead s.droppedMessages]) = countsNotified s.trace :=
    filter_map_quiet _ _ _ rfl
  simp only [State.account, State.emit, counted, read, written]
  apply tallied_reads

theorem after_drops_held (drained : Bool) : (afterDrops drained : WorkerPc C).held = 0 := by cases drained <;> rfl

theorem take_change (s : State C) (drained : Bool) (stands : s.worker = .drops drained) :
    Change s.account ({ s with droppedMessages := 0 }.goto (.notify s.droppedMessages drained)).account := by
  have held : s.worker.held = 0 := by
    rw [stands]
    rfl
  have grown : s.worker.held + s.droppedMessages.toNat = s.droppedMessages.toNat := by rw [held, Nat.zero_add]
  have taken := tallied_takes (droppedCalls s.trace) s.droppedMessages (countsRead s.trace) s.worker.held
    (countsNotified s.trace)
  rw [grown] at taken
  exact taken

theorem write_change (s : State C) (count : UInt64) (drained : Bool) (lm : LogMessage)
    (stands : s.worker = .notify count drained) :
    Change s.account ((({ s with lastDropNotification := s.now }.emit (.stderr (defaultLog s.platform lm))).goto
      (afterDrops drained)).emit (.notified count lm)).account := by
  have written : countsNotified (s.trace ++ [.stderr (defaultLog s.platform lm)] ++ [.notified count lm]) =
      countsNotified s.trace ++ [count] := by
    rw [countsNotified, filter_map_logs Event.notice _ _ count rfl, filter_map_quiet _ _ _ rfl, countsNotified]
  have counted : droppedCalls (s.trace ++ [.stderr (defaultLog s.platform lm)] ++ [.notified count lm]) =
      droppedCalls s.trace := by
    rw [droppedCalls, filter_map_quiet _ _ _ rfl, filter_map_quiet _ _ _ rfl, droppedCalls]
  have read : countsRead (s.trace ++ [.stderr (defaultLog s.platform lm)] ++ [.notified count lm]) =
      countsRead s.trace := by
    rw [countsRead, filter_map_quiet _ _ _ rfl, filter_map_quiet _ _ _ rfl, countsRead]
  simp only [State.account, State.goto, State.emit, counted, read, written]
  apply tallied_writes
  rw [stands, after_drops_held, WorkerPc.held, Nat.zero_add]

-- An Enqueue whose next step counts a drop: the first look at the queue has
-- found it full, or the second one is about to.
def State.drops (s : State C) (call : Call) : Bool :=
  match call.pc with
  | .drop => true
  | .push => decide (s.maxQueueSize ≤ s.queue.length)
  | _ => false

-- The same condition as for the tasks: a HandleDrops that has taken a count
-- may write it, and the counter has room for the drop. The other actions of the
-- same thread are not enabled there.
def heard (s : State C) : Action C → Bool
  | .worker | .callback _ =>
      match s.worker with
      | .notify _ _ => s.due
      | _ => true
  | .call i | .callFails i _ =>
      match s.calls[i]? with
      | some call => !s.drops call || decide (s.droppedMessages.toNat + 1 < 2 ^ 64)
      | none => true
  | _ => true

def Heard (s : State C) (action : Action C) : Prop := heard s action = true

instance (s : State C) (action : Action C) : Decidable (Heard s action) :=
  inferInstanceAs (Decidable (heard s action = true))

theorem heard_due (s : State C) (action : Action C) (count : UInt64) (drained : Bool) (allowed : Heard s action)
    (acts : action = .worker ∨ ∃ outcome, action = .callback outcome) (stands : s.worker = .notify count drained) :
    s.due = true := by
  rcases acts with rfl | ⟨outcome, rfl⟩ <;> simpa only [Heard, heard, stands] using allowed

theorem heard_room (s : State C) (action : Action C) (i : Nat) (call : Call) (allowed : Heard s action)
    (acts : action = .call i ∨ ∃ what, action = .callFails i what) (found : s.calls[i]? = some call)
    (drops : s.drops call = true) : s.droppedMessages.toNat + 1 < 2 ^ 64 := by
  rcases acts with rfl | ⟨what, rfl⟩ <;>
    simpa only [Heard, heard, found, drops, Bool.not_true, Bool.false_or, decide_eq_true_eq] using allowed

theorem wake_held (pc : WorkerPc C) : pc.wake.held = pc.held := by cases pc <;> rfl

theorem call_move_change (s after : State C) (i : Nat) (call : Call)
    (room : s.drops call = true → s.droppedMessages.toNat + 1 < 2 ^ 64) (moves : CallMove s i call after) :
    Change s.account after.account := by
  cases moves with
  | drop here =>
      apply drop_change s i call (room _)
      rcases here with here | ⟨here, full⟩
      · rw [State.drops, here]
      · rw [State.drops, here]
        exact decide_eq_true full
  | push here room => exact emit_stays s _ (.accepted i call.message) ⟨rfl, rfl, rfl⟩
  | signal here => exact silent_stays s _ (wake_held s.worker)
  | fail what here => exact emit_stays s _ (.stderr (enqueueReport what)) ⟨rfl, rfl, rfl⟩
  | _ => exact silent_stays s _

theorem worker_move_change (s after : State C) (pc : WorkerPc C) (stands : s.worker = pc)
    (due : ∀ count drained, pc = .notify count drained → s.due = true) (moves : WorkerMove s pc after) :
    Change s.account after.account := by
  cases moves with
  | leave _ _ | block _ _ | swap _ | drain => exact emit_stays s _ .locked ⟨rfl, rfl, rfl⟩ (by rw [stands]; rfl)
  | unset _ _ _ _ => exact silent_stays s _
  | default lm remaining drained empty => exact dispatched_stays s _ _ lm (by rw [stands]; rfl)
  | invoke outcome cb lm cbs remaining drained unset =>
      exact emit_stays s _ (.called cb lm outcome) ⟨rfl, rfl, rfl⟩ (by rw [stands]; rfl)
  | silent lm remaining drained silent => exact emit_stays s _ (.dispatched lm) ⟨rfl, rfl, rfl⟩ (by rw [stands]; rfl)
  | report lm remaining drained threw => exact dispatched_stays s _ _ lm (by rw [stands]; rfl)
  | undropped drained zero => exact silent_stays s _ (by rw [stands]; exact after_drops_held drained) zero.symm
  | drops drained nonzero => exact take_change s drained stands
  | early count drained early => exact absurd (due count drained rfl) (Bool.eq_false_iff.mp early)
  | notify count drained passed => exact write_change s count drained _ stands
  | batched _ | dispatch _ _ _ _ _ _ | stop => exact silent_stays s _ (by rw [stands]; rfl)

theorem move_change (s after : State C) (action : Action C) (allowed : Heard s action) (moves : Move s action after) :
    Change s.account after.account := by
  cases moves with
  | call _ i call after acts found moves =>
      exact call_move_change s after i call (heard_room s action i call allowed acts found) moves
  | worker _ pc after acts stands moves =>
      apply worker_move_change s after pc stands _ moves
      intro count drained here
      exact heard_due s action count drained allowed acts (stands.trans here)
  | wake | shutdown _ => exact silent_stays s _ (wake_held s.worker)
  | register _ i registration after acts found moves => cases moves <;> exact silent_stays s _
  | getDroppedCount => exact read_change s
  | _ => exact silent_stays s _

theorem construct_balanced (id : String) (platform : Platform) (now steady : Int) :
    Meter.Balanced (construct id platform now steady : State C).account := rfl

theorem reachable_balanced (id : String) (platform : Platform) (now steady : Int) (s : State C)
    (reachable : Machine.Reachable step Heard (construct id platform now steady) s) : Meter.Balanced s.account := by
  refine Machine.reachable_invariant step Heard _ (fun s => Meter.Balanced s.account)
    (construct_balanced id platform now steady) ?_ s reachable
  intro before action after _ balanced allowed taken
  have change := move_change before after action allowed (step_move before after action taken)
  exact change_balanced before.account after.account change balanced

-- What HandleDrops calls in progress have taken and not yet written counts
-- among the reports; it is zero where no such call is.
theorem every_drop_reported (T W C : Type) :
    (∀ (cfg : Pool.TaskProcessorConfig) (now : Int) (s : Pool.State T W),
      Machine.Reachable Pool.step Pool.Heard (Pool.construct cfg now) s →
        (Pool.droppedCalls s.trace).length = total UInt64.toNat (Pool.countsRead s.trace) +
          total UInt64.toNat (Pool.countsNotified s.trace) + s.droppedCount.toNat +
            total Pool.WorkerPc.held s.workers) ∧
    (∀ (id : String) (platform : Platform) (now steady : Int) (s : State C),
      Machine.Reachable step Heard (construct id platform now steady) s →
        (droppedCalls s.trace).length = total UInt64.toNat (countsRead s.trace) +
          total UInt64.toNat (countsNotified s.trace) + s.droppedMessages.toNat + s.worker.held) :=
  ⟨Pool.reachable_balanced, reachable_balanced⟩

def oneTask : Pool.TaskProcessorConfig where
  numThreads := 1
  maxQueueSize := 1

def quietPlatform : Platform := ⟨fun _ => "", fun thread => thread, 9⟩

-- One task is accepted and one is dropped; the worker processes the first and
-- gets to the rate limit of HandleDrops with the count of the second.
def taskDropped : List (Pool.Action Nat Nat) :=
  [[.submit 1 5 []], List.replicate 8 (.call 0), [.submit 2 6 []], List.replicate 3 (.call 1),
    List.replicate 11 (.worker 0)].flatten

-- The same for the messages of a logger.
def messageDropped : List (Action Nat) :=
  [[.clearCallbacks, .log 1 .info "up"], List.replicate 5 (.call 0), [.setMaxQueueSize 1, .log 2 .info "down"],
    List.replicate 3 (.call 1), List.replicate 4 .worker].flatten

-- Where the interval has passed, the count is written.
theorem every_drop_reported_due :
    (∃ s : Pool.State Nat Nat, Machine.Reachable Pool.step Pool.Heard (Pool.construct oneTask 0) s ∧
      Pool.countsNotified s.trace = [1] ∧
      (Pool.droppedCalls s.trace).length = total UInt64.toNat (Pool.countsRead s.trace) +
        total UInt64.toNat (Pool.countsNotified s.trace) + s.droppedCount.toNat + total Pool.WorkerPc.held s.workers) ∧
    (∃ s : State Nat, Machine.Reachable step Heard (construct "app" quietPlatform 0 0) s ∧
      countsNotified s.trace = [1] ∧
      (droppedCalls s.trace).length = total UInt64.toNat (countsRead s.trace) +
        total UInt64.toNat (countsNotified s.trace) + s.droppedMessages.toNat + s.worker.held) := by
  obtain ⟨task, tasks, written⟩ := Machine.run_exhibits Pool.step Pool.Heard (Pool.construct oneTask 0)
    (taskDropped ++ [.clock 1000, .worker 0]) (fun s => Pool.countsNotified s.trace == [1]) (by decide)
  obtain ⟨log, logs, noted⟩ := Machine.run_exhibits step Heard (construct "app" quietPlatform 0 0)
    (messageDropped ++ [.clock 1000000000 0, .worker]) (fun s => countsNotified s.trace == [1]) (by decide)
  have both := every_drop_reported Nat Nat Nat
  exact ⟨⟨task, tasks, beq_iff_eq.mp written, both.1 oneTask 0 task tasks⟩,
    ⟨log, logs, beq_iff_eq.mp noted, both.2 "app" quietPlatform 0 0 log logs⟩⟩

-- Before that HandleDrops empties the counter and writes nothing: a drop is in
-- no value read, in no notice, in no hand and not in the counter.
theorem drops_discarded :
    (∃ s : Pool.State Nat Nat, Machine.Reachable Pool.step (fun _ _ => True) (Pool.construct oneTask 0) s ∧
      total Pool.WorkerPc.held s.workers = 0 ∧
      (Pool.droppedCalls s.trace).length ≠ total UInt64.toNat (Pool.countsRead s.trace) +
        total UInt64.toNat (Pool.countsNotified s.trace) + s.droppedCount.toNat) ∧
    (∃ s : State Nat, Machine.Reachable step (fun _ _ => True) (construct "app" quietPlatform 0 0) s ∧
      s.worker.held = 0 ∧
      (droppedCalls s.trace).length ≠ total UInt64.toNat (countsRead s.trace) +
        total UInt64.toNat (countsNotified s.trace) + s.droppedMessages.toNat) := by
  obtain ⟨task, tasks, lost⟩ := Machine.run_exhibits Pool.step (fun _ _ => True) (Pool.construct oneTask 0)
    (taskDropped ++ [.worker 0]) (fun s => decide (total Pool.WorkerPc.held s.workers = 0 ∧
      (Pool.droppedCalls s.trace).length ≠ total UInt64.toNat (Pool.countsRead s.trace) +
        total UInt64.toNat (Pool.countsNotified s.trace) + s.droppedCount.toNat)) (by decide)
  obtain ⟨log, logs, gone⟩ := Machine.run_exhibits step (fun _ _ => True) (construct "app" quietPlatform 0 0)
    (messageDropped ++ [.worker]) (fun s => decide (s.worker.held = 0 ∧
      (droppedCalls s.trace).length ≠ total UInt64.toNat (countsRead s.trace) +
        total UInt64.toNat (countsNotified s.trace) + s.droppedMessages.toNat)) (by decide)
  exact ⟨⟨task, tasks, of_decide_eq_true lost⟩, ⟨log, logs, of_decide_eq_true gone⟩⟩

end Vectro.Log
