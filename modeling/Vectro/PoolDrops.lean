import Vectro.Meter
import Vectro.PoolLedger

set_option autoImplicit false

namespace Vectro.Pool

open Meter Tally Traces

variable {T W : Type}

def Event.drop : Event T W → Option Nat
  | .dropped call => some call
  | _ => none

def Event.reading : Event T W → Option UInt64
  | .dropsRead d => some d
  | _ => none

def Event.notice : Event T W → Option UInt64
  | .notified d _ => some d
  | _ => none

def droppedCalls (trace : List (Event T W)) : List Nat := trace.filterMap Event.drop

def countsRead (trace : List (Event T W)) : List UInt64 := trace.filterMap Event.reading

def countsNotified (trace : List (Event T W)) : List UInt64 := trace.filterMap Event.notice

-- What a HandleDrops between its exchange and its end has taken.
def WorkerPc.held : WorkerPc T W → Nat
  | .notify d => d.toNat
  | _ => 0

def State.account (s : State T W) : Account :=
  tallied (droppedCalls s.trace) s.droppedCount (countsRead s.trace) (total WorkerPc.held s.workers)
    (countsNotified s.trace)

-- What a step does not touch is told by computing, as for the ledger.
theorem account_stays (s after : State T W) (held : total WorkerPc.held after.workers = total WorkerPc.held s.workers := by rfl)
    (counter : after.droppedCount = s.droppedCount := by rfl)
    (counted : droppedCalls after.trace = droppedCalls s.trace := by first | rfl | exact filter_map_quiet _ _ _ rfl)
    (read : countsRead after.trace = countsRead s.trace := by first | rfl | exact filter_map_quiet _ _ _ rfl)
    (written : countsNotified after.trace = countsNotified s.trace := by
      first | rfl | exact filter_map_quiet _ _ _ rfl) : Change s.account after.account := by
  have same : after.account = s.account := by
    rw [State.account, held, counter, counted, read, written, State.account]
  rw [same]
  exact .stays

theorem wake_held_total (workers : List (WorkerPc T W)) :
    total WorkerPc.held (workers.map WorkerPc.wake) = total WorkerPc.held workers := by
  apply total_map
  intro pc
  cases pc <;> rfl

theorem drop_change (s : State T W) (i : Nat) (call : Call T W) (fits : s.droppedCount.toNat + 1 < 2 ^ 64) :
    Change s.account
      (({ s with droppedCount := s.droppedCount + 1 }.setCall i call .dropped).emit (.dropped i)).account := by
  have counted : droppedCalls (s.trace ++ [.dropped i]) = droppedCalls s.trace ++ [i] := filter_map_logs _ _ _ _ rfl
  have read : countsRead (s.trace ++ [.dropped i]) = countsRead s.trace := filter_map_quiet _ _ _ rfl
  have written : countsNotified (s.trace ++ [.dropped i]) = countsNotified s.trace := filter_map_quiet _ _ _ rfl
  simp only [State.account, State.setCall, State.emit, counted, read, written]
  exact tallied_counts _ _ _ _ _ i fits

theorem read_change (s : State T W) :
    Change s.account ({ s with droppedCount := 0 }.emit (.dropsRead s.droppedCount)).account := by
  have read : countsRead (s.trace ++ [.dropsRead s.droppedCount]) = countsRead s.trace ++ [s.droppedCount] :=
    filter_map_logs _ _ _ _ rfl
  have counted : droppedCalls (s.trace ++ [.dropsRead s.droppedCount]) = droppedCalls s.trace :=
    filter_map_quiet _ _ _ rfl
  have written : countsNotified (s.trace ++ [.dropsRead s.droppedCount]) = countsNotified s.trace :=
    filter_map_quiet _ _ _ rfl
  simp only [State.account, State.emit, counted, read, written]
  apply tallied_reads

theorem take_change (s : State T W) (w : Nat) (found : s.workers[w]? = some .drops) :
    Change s.account ({ s with droppedCount := 0 }.setWorker w (.notify s.droppedCount)).account := by
  have held : total WorkerPc.held (s.workers.set w (.notify s.droppedCount)) =
      total WorkerPc.held s.workers + s.droppedCount.toNat :=
    worker_total_move s (s.setWorker w (.notify s.droppedCount)) w .drops _ found WorkerPc.held rfl 0 _ rfl rfl
  simp only [State.account, State.setWorker, held]
  apply tallied_takes

theorem write_change (s : State T W) (w : Nat) (d : UInt64) (line : String) (last : Int)
    (found : s.workers[w]? = some (.notify d)) :
    Change s.account (({ s with lastDropNotification := last }.setWorker w .loop).emit (.notified d line)).account := by
  have held : total WorkerPc.held (s.workers.set w .loop) + d.toNat = total WorkerPc.held s.workers + 0 :=
    worker_total_move s (s.setWorker w .loop) w (.notify d) .loop found WorkerPc.held rfl _ 0 rfl rfl
  have written : countsNotified (s.trace ++ [.notified d line]) = countsNotified s.trace ++ [d] :=
    filter_map_logs _ _ _ _ rfl
  have counted : droppedCalls (s.trace ++ [.notified d line]) = droppedCalls s.trace := filter_map_quiet _ _ _ rfl
  have read : countsRead (s.trace ++ [.notified d line]) = countsRead s.trace := filter_map_quiet _ _ _ rfl
  simp only [State.account, State.setWorker, State.emit, counted, read, written]
  exact tallied_writes _ _ _ _ _ _ d held.symm

-- The rate limit lets HandleDrops write what it has taken.
def State.due (s : State T W) : Bool := decide (s.cfg.dropNotificationInterval ≤ s.now - s.lastDropNotification)

-- A HandleDrops that has taken a count may write it, and the counter has room
-- for the drop. The other actions of the same thread are not enabled there.
def heard (s : State T W) : Action T W → Bool
  | .worker w | .workerThrows w | .workerSteals w _ =>
      match s.workers[w]? with
      | some (.notify _) => s.due
      | _ => true
  | .call i | .callFails i =>
      match s.calls[i]? with
      | some call => call.pc != .drop || decide (s.droppedCount.toNat + 1 < 2 ^ 64)
      | none => true
  | _ => true

def Heard (s : State T W) (action : Action T W) : Prop := heard s action = true

instance (s : State T W) (action : Action T W) : Decidable (Heard s action) :=
  inferInstanceAs (Decidable (heard s action = true))

theorem heard_due (s : State T W) (action : Action T W) (w : Nat) (d : UInt64) (allowed : Heard s action)
    (acts : action = .worker w ∨ action = .workerThrows w ∨ ∃ vic, action = .workerSteals w vic)
    (found : s.workers[w]? = some (.notify d)) : s.due = true := by
  rcases acts with rfl | rfl | ⟨vic, rfl⟩ <;> simpa only [Heard, heard, found] using allowed

theorem heard_room (s : State T W) (action : Action T W) (i : Nat) (call : Call T W) (allowed : Heard s action)
    (acts : action = .call i ∨ action = .callFails i) (found : s.calls[i]? = some call) (drops : call.pc = .drop) :
    s.droppedCount.toNat + 1 < 2 ^ 64 := by
  rcases acts with rfl | rfl <;>
    simpa only [Heard, heard, found, drops, bne_self_eq_false, Bool.false_or, decide_eq_true_eq] using allowed

theorem call_move_change (s after : State T W) (i : Nat) (call : Call T W)
    (room : call.pc = .drop → s.droppedCount.toNat + 1 < 2 ^ 64) (moves : CallMove s i call after) :
    Change s.account after.account := by
  cases moves with
  | drop here => exact drop_change s i call (room here)
  | signal here free => exact account_stays s _ (wake_held_total s.workers)
  | _ => exact account_stays s _

theorem worker_move_change (s after : State T W) (w : Nat) (pc : WorkerPc T W) (found : s.workers[w]? = some pc)
    (due : ∀ d, pc = .notify d → s.due = true) (moves : WorkerMove s w pc after) : Change s.account after.account := by
  have quiet : ∀ next : WorkerPc T W, next.held = pc.held →
      total WorkerPc.held (s.workers.set w next) = total WorkerPc.held s.workers := by
    intro next same
    exact total_set_same s.workers w pc next found WorkerPc.held same
  cases moves with
  | undropped zero => exact account_stays s _ (quiet _ rfl) zero.symm
  | drops nonzero => exact take_change s w found
  | quiet d early => exact absurd (of_decide_eq_true (due d rfl)) early
  | notify d passed => exact write_change s w d _ _ found
  | outside => exact account_stays s _
  | _ => exact account_stays s _ (quiet _ rfl)

theorem move_change (s after : State T W) (action : Action T W) (allowed : Heard s action)
    (moves : Move s action after) : Change s.account after.account := by
  cases moves with
  | call _ i call after acts found moves =>
      exact call_move_change s after i call (heard_room s action i call allowed acts found) moves
  | worker _ w pc after acts found moves =>
      apply worker_move_change s after w pc found _ moves
      intro d stands
      exact heard_due s action w d allowed acts (stands ▸ found)
  | destroy pc after here moves =>
      cases moves with
      | signal => exact account_stays s _ (wake_held_total s.workers)
      | _ => exact account_stays s _
  | getDroppedCount => exact read_change s
  | _ => exact account_stays s _

theorem construct_balanced (cfg : TaskProcessorConfig) (now : Int) :
    Meter.Balanced (construct cfg now : State T W).account := by
  have idle : total WorkerPc.held (construct cfg now : State T W).workers = 0 := by
    simp [construct, total_eq_zero, WorkerPc.held]
  rw [Meter.Balanced, State.account, idle]
  rfl

theorem reachable_balanced (cfg : TaskProcessorConfig) (now : Int) (s : State T W)
    (reachable : Machine.Reachable step Heard (construct cfg now) s) : Meter.Balanced s.account := by
  refine Machine.reachable_invariant step Heard _ (fun s => Meter.Balanced s.account) (construct_balanced cfg now) ?_ s reachable
  intro before action after _ balanced allowed taken
  have change := move_change before after action allowed (step_move before after action taken).2
  exact change_balanced before.account after.account change balanced

end Vectro.Pool
