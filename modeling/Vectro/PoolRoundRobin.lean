import Vectro.PoolCallbacks
import Mathlib.Data.Int.CardIntervalMod

set_option autoImplicit false

namespace Vectro.Pool

open Tally Traces

variable {T W : Type}

-- The mode is RoundRobin and stays so, with the same number of threads.
def KeepsRotation (s : State T W) : Action T W → Prop
  | .updateConfig cfg => cfg.mode = .roundRobin ∧ cfg.numThreads = s.cfg.numThreads
  | _ => True

instance (s : State T W) (action : Action T W) : Decidable (KeepsRotation s action) :=
  match action with
  | .updateConfig cfg => inferInstanceAs (Decidable (cfg.mode = .roundRobin ∧ cfg.numThreads = s.cfg.numThreads))
  | .submit .. | .call .. | .callFails .. | .worker .. | .workerThrows .. | .workerSteals .. | .destroy
  | .registerCallback | .setFinalCallback | .getDroppedCount | .clock .. => isTrue trivial

def Event.pushedTo (idx : Nat) : Event T W → Option (TaskItem T W)
  | .pushed at_ item _ => if at_ = idx then some item else none
  | _ => none

def Event.takenBy (w : Nat) : Event T W → Option (TaskItem T W)
  | .taken worker _ item => if worker = w then some item else none
  | _ => none

def pushedTo (idx : Nat) (trace : List (Event T W)) : List (TaskItem T W) := trace.filterMap (Event.pushedTo idx)

def takenBy (w : Nat) (trace : List (Event T W)) : List (TaskItem T W) := trace.filterMap (Event.takenBy w)

-- What a worker does with a task.
def Event.handled : Event T W → Option (Nat × TaskItem T W)
  | .taken w _ item | .subtracted w item | .callback w _ item _ | .wrapper w _ item _ | .processed w item => some (w, item)
  | _ => none

def State.queueAt (s : State T W) (idx : Nat) : List (TaskItem T W) := (s.queues[idx]?).getD []

def Holds (workers : List (WorkerPc T W)) (w : Nat) (item : TaskItem T W) : Prop :=
  ∃ pc, workers[w]? = some pc ∧ pc.item = some item

structure Lanes (s : State T W) : Prop where
  mode : s.cfg.mode = .roundRobin
  plain : ∀ pc ∈ s.workers, pc.scanning = false
  order : ∀ w, pushedTo w s.trace = takenBy w s.trace ++ s.queueAt w
  held : ∀ w item, Holds s.workers w item → item ∈ takenBy w s.trace
  handled : ∀ event ∈ s.trace, ∀ w item, event.handled = some (w, item) → item ∈ takenBy w s.trace

theorem lanes_frame (s after : State T W) (lanes : Lanes s) (events : List (Event T W))
    (trace : after.trace = s.trace ++ events) (plain : ∀ pc ∈ after.workers, pc.scanning = false)
    (holds : ∀ w item, Holds after.workers w item → Holds s.workers w item)
    (handles : ∀ event ∈ events, ∀ w item, event.handled = some (w, item) → Holds s.workers w item)
    (quiet : ∀ event ∈ events, ∀ w, event.pushedTo w = none ∧ event.takenBy w = none)
    (mode : after.cfg = s.cfg := by rfl) (queues : after.queues = s.queues := by rfl) : Lanes after := by
  have pushed : ∀ w, pushedTo w after.trace = pushedTo w s.trace := by
    intro w
    rw [pushedTo, trace]
    exact filter_map_aside _ _ _ fun event member => (quiet event member w).1
  have taken : ∀ w, takenBy w after.trace = takenBy w s.trace := by
    intro w
    rw [takenBy, trace]
    exact filter_map_aside _ _ _ fun event member => (quiet event member w).2
  refine ⟨mode ▸ lanes.mode, plain, ?_, ?_, ?_⟩
  · intro w
    rw [pushed, taken, State.queueAt, queues]
    exact lanes.order w
  · intro w item held
    rw [taken]
    exact lanes.held w item (holds w item held)
  · intro event member w item does
    rw [taken]
    rw [trace] at member
    rcases List.mem_append.mp member with old | new
    · exact lanes.handled event old w item does
    · exact lanes.held w item (handles event new w item does)

theorem queue_at_set (s after : State T W) (idx : Nat) (queue next : List (TaskItem T W))
    (inside : s.queues[idx]? = some queue) (queues : after.queues = s.queues.set idx next) (w : Nat) :
    (w = idx ∧ s.queueAt w = queue ∧ after.queueAt w = next) ∨ (w ≠ idx ∧ after.queueAt w = s.queueAt w) := by
  by_cases hit : w = idx
  · subst w
    refine .inl ⟨rfl, by rw [State.queueAt, inside]; rfl, ?_⟩
    rw [State.queueAt, queues, List.getElem?_set_self (List.getElem?_eq_some_iff.mp inside).1]
    rfl
  · refine .inr ⟨hit, ?_⟩
    rw [State.queueAt, queues, List.getElem?_set_ne (Ne.symm hit), State.queueAt]

theorem pushed_to_logs (trace : List (Event T W)) (idx size : Nat) (item : TaskItem T W) (w : Nat) :
    pushedTo w (trace ++ [.pushed idx item size]) = if idx = w then pushedTo w trace ++ [item] else pushedTo w trace := by
  by_cases hit : idx = w
  · rw [if_pos hit]
    exact filter_map_logs _ _ _ item (if_pos hit)
  · rw [if_neg hit]
    exact filter_map_quiet _ _ _ (if_neg hit)

theorem taken_by_logs (trace : List (Event T W)) (v idx : Nat) (item : TaskItem T W) (w : Nat) :
    takenBy w (trace ++ [.taken v idx item]) = if v = w then takenBy w trace ++ [item] else takenBy w trace := by
  by_cases hit : v = w
  · rw [if_pos hit]
    exact filter_map_logs _ _ _ item (if_pos hit)
  · rw [if_neg hit]
    exact filter_map_quiet _ _ _ (if_neg hit)

theorem push_lanes (s after : State T W) (lanes : Lanes s) (idx size : Nat) (queue : List (TaskItem T W))
    (item : TaskItem T W) (inside : s.queues[idx]? = some queue) (trace : after.trace = s.trace ++ [.pushed idx item size])
    (queues : after.queues = s.queues.set idx (queue ++ [item])) (workers : after.workers = s.workers)
    (mode : after.cfg = s.cfg) : Lanes after := by
  have taken : ∀ w, takenBy w after.trace = takenBy w s.trace := by
    intro w
    rw [takenBy, trace]
    exact filter_map_quiet _ _ _ rfl
  refine ⟨mode ▸ lanes.mode, workers ▸ lanes.plain, ?_, ?_, ?_⟩
  · intro w
    have order := lanes.order w
    rw [taken, trace, pushed_to_logs]
    rcases queue_at_set s after idx queue _ inside queues w with ⟨rfl, before, grown⟩ | ⟨differs, same⟩
    · rw [if_pos rfl, grown, ← List.append_assoc, ← before, ← order]
    · rw [if_neg (Ne.symm differs), same]
      exact order
  · intro w held holds
    rw [taken]
    exact lanes.held w held (workers ▸ holds)
  · intro event member w handled does
    rw [taken]
    rw [trace] at member
    rcases List.mem_append.mp member with old | new
    · exact lanes.handled event old w handled does
    · rw [List.mem_singleton.mp new] at does
      cases does

theorem set_holds (workers : List (WorkerPc T W)) (w : Nat) (pc next : WorkerPc T W) (found : workers[w]? = some pc)
    (keeps : ∀ item, next.item = some item → pc.item = some item) (v : Nat) (item : TaskItem T W)
    (holds : Holds (workers.set w next) v item) : Holds workers v item := by
  obtain ⟨other, present, carried⟩ := holds
  by_cases hit : w = v
  · subst v
    rw [List.getElem?_set_self (List.getElem?_eq_some_iff.mp found).1] at present
    exact ⟨pc, found, keeps item (Option.some.inj present ▸ carried)⟩
  · rw [List.getElem?_set_ne hit] at present
    exact ⟨other, present, carried⟩

theorem wake_holds (workers : List (WorkerPc T W)) (w : Nat) (item : TaskItem T W)
    (holds : Holds (workers.map WorkerPc.wake) w item) : Holds workers w item := by
  obtain ⟨pc, present, carried⟩ := holds
  rw [List.getElem?_map] at present
  obtain ⟨old, found, rfl⟩ := Option.map_eq_some_iff.mp present
  exact ⟨old, found, wake_item old ▸ carried⟩

theorem take_lanes (s after : State T W) (lanes : Lanes s) (w : Nat) (item : TaskItem T W) (rest : List (TaskItem T W))
    (pc : WorkerPc T W) (found : s.workers[w]? = some pc) (inside : s.queues[w]? = some (item :: rest))
    (plain : ∀ pc ∈ after.workers, pc.scanning = false) (trace : after.trace = s.trace ++ [.taken w w item])
    (queues : after.queues = s.queues.set w rest) (workers : after.workers = s.workers.set w (.subtract item))
    (mode : after.cfg = s.cfg) : Lanes after := by
  have own : takenBy w after.trace = takenBy w s.trace ++ [item] := by rw [trace, taken_by_logs, if_pos rfl]
  have others : ∀ v, v ≠ w → takenBy v after.trace = takenBy v s.trace := by
    intro v differs
    rw [trace, taken_by_logs, if_neg (Ne.symm differs)]
  have grows : ∀ v held, held ∈ takenBy v s.trace → held ∈ takenBy v after.trace := by
    intro v held member
    by_cases hit : v = w
    · subst v
      rw [own]
      exact List.mem_append_left _ member
    · rw [others v hit]
      exact member
  refine ⟨mode ▸ lanes.mode, plain, ?_, ?_, ?_⟩
  · intro v
    have order := lanes.order v
    have pushed : pushedTo v after.trace = pushedTo v s.trace := by
      rw [pushedTo, trace]
      exact filter_map_quiet _ _ _ rfl
    rw [pushed]
    rcases queue_at_set s after w _ rest inside queues v with ⟨rfl, before, shrunk⟩ | ⟨differs, same⟩
    · rw [own, shrunk, order, before, List.append_assoc]
      rfl
    · rw [others v differs, same]
      exact order
  · rintro v held ⟨other, present, carried⟩
    rw [workers] at present
    by_cases hit : w = v
    · subst v
      rw [List.getElem?_set_self (List.getElem?_eq_some_iff.mp found).1] at present
      rw [← Option.some.inj present] at carried
      rw [own, ← Option.some.inj carried]
      exact List.mem_append_right _ List.mem_cons_self
    · rw [List.getElem?_set_ne hit] at present
      exact grows v held (lanes.held v held ⟨other, present, carried⟩)
  · intro event member v handled does
    rw [trace] at member
    rcases List.mem_append.mp member with old | new
    · exact grows v handled (lanes.handled event old v handled does)
    · rw [List.mem_singleton.mp new] at does
      cases does
      rw [own]
      exact List.mem_append_right _ List.mem_cons_self

theorem call_move_lanes (s after : State T W) (i : Nat) (call : Call T W) (moves : CallMove s i call after)
    (lanes : Lanes s) : Lanes after := by
  have same : ∀ w item, Holds s.workers w item → Holds s.workers w item := fun _ _ holds => holds
  cases moves with
  | push idx queue here inside free room =>
      exact push_lanes s _ lanes idx _ queue (call.item i) inside rfl rfl rfl rfl
  | signal here free =>
      exact lanes_frame s _ lanes [] (List.append_nil _).symm (wake_plain s.workers lanes.plain) (wake_holds s.workers)
        (List.forall_mem_nil _) (List.forall_mem_nil _)
  | load | drop =>
      refine lanes_frame s _ lanes [_] rfl lanes.plain same ?_ ?_
      · exact List.forall_mem_singleton.mpr fun w item does => by cases does
      · exact List.forall_mem_singleton.mpr fun w => ⟨rfl, rfl⟩
  | _ =>
      exact lanes_frame s _ lanes [] (List.append_nil _).symm lanes.plain same (List.forall_mem_nil _)
        (List.forall_mem_nil _)

theorem worker_move_lanes (s after : State T W) (w : Nat) (pc : WorkerPc T W) (found : s.workers[w]? = some pc)
    (moves : WorkerMove s w pc after) (lanes : Lanes s) : Lanes after := by
  have here := lanes.plain pc (List.mem_of_getElem? found)
  have plain : ∀ next : WorkerPc T W, next.scanning = false → ∀ other ∈ s.workers.set w next, other.scanning = false :=
    fun next => forall_mem_set (fun pc => pc.scanning = false) s.workers w next lanes.plain
  have carries := set_holds s.workers w pc
  cases moves with
  | take item rest inside free =>
      exact take_lanes s _ lanes w item rest .own found inside (plain _ rfl) rfl rfl rfl rfl
  | scan stealing =>
      have mode := lanes.mode
      rw [stealing] at mode
      cases mode
  | vector | size | scanned | policy | steal | miss => simp [WorkerPc.scanning] at here
  | outside =>
      exact lanes_frame s _ lanes [] (List.append_nil _).symm lanes.plain (fun _ _ holds => holds)
        (List.forall_mem_nil _) (List.forall_mem_nil _)
  | subtract item | callback item | wrapper item | done item =>
      refine lanes_frame s _ lanes [_] rfl (plain _ rfl) (carries _ found ?_) ?_ ?_
      · intro other holds
        first | exact holds | cases holds
      · refine List.forall_mem_singleton.mpr fun v other does => ?_
        cases does
        exact ⟨_, found, rfl⟩
      · exact List.forall_mem_singleton.mpr fun v => ⟨rfl, rfl⟩
  | notify d due =>
      refine lanes_frame s _ lanes [_] rfl (plain _ rfl) (carries _ found fun other holds => by cases holds) ?_ ?_
      · exact List.forall_mem_singleton.mpr fun v other does => by cases does
      · exact List.forall_mem_singleton.mpr fun v => ⟨rfl, rfl⟩
  | processed item | lockCallbacks item | called item =>
      exact lanes_frame s _ lanes [] (List.append_nil _).symm (plain _ rfl) (carries _ found fun _ holds => holds)
        (List.forall_mem_nil _) (List.forall_mem_nil _)
  | _ =>
      refine lanes_frame s _ lanes [] (List.append_nil _).symm (plain _ rfl) (carries _ found ?_)
        (List.forall_mem_nil _) (List.forall_mem_nil _)
      intro other holds
      cases holds

theorem move_lanes (s after : State T W) (action : Action T W) (moves : Move s action after)
    (keeps : KeepsRotation s action) (lanes : Lanes s) : Lanes after := by
  have same : ∀ w item, Holds s.workers w item → Holds s.workers w item := fun _ _ holds => holds
  have silent : ∀ after : State T W, after.workers = s.workers → after.trace = s.trace → after.cfg = s.cfg →
      after.queues = s.queues → Lanes after := by
    intro after workers trace mode queues
    exact lanes_frame s after lanes [] (trace.trans (List.append_nil _).symm) (workers ▸ lanes.plain)
      (workers ▸ same) (List.forall_mem_nil _) (List.forall_mem_nil _) mode queues
  have logs : ∀ (after : State T W) (event : Event T W), after.workers = s.workers → after.trace = s.trace ++ [event] →
      event.handled = none → (∀ w, event.pushedTo w = none ∧ event.takenBy w = none) → after.cfg = s.cfg →
      after.queues = s.queues → Lanes after := by
    intro after event workers trace aside quiet mode queues
    refine lanes_frame s after lanes [event] trace (workers ▸ lanes.plain) (workers ▸ same) ?_
      (List.forall_mem_singleton.mpr quiet) mode queues
    refine List.forall_mem_singleton.mpr fun w item does => ?_
    rw [aside] at does
    cases does
  cases moves with
  | submit => exact logs _ _ rfl rfl rfl (fun _ => ⟨rfl, rfl⟩) rfl rfl
  | call _ i call after acts found moves => exact call_move_lanes s after i call moves lanes
  | worker _ w pc after acts found moves => exact worker_move_lanes s after w pc found moves lanes
  | destroy pc after here moves =>
      cases moves with
      | signal =>
          exact lanes_frame s _ lanes [] (List.append_nil _).symm (wake_plain s.workers lanes.plain)
            (wake_holds s.workers) (List.forall_mem_nil _) (List.forall_mem_nil _)
      | store | final => exact logs _ _ rfl rfl rfl (fun _ => ⟨rfl, rfl⟩) rfl rfl
      | _ => exact silent _ rfl rfl rfl rfl
  | updateConfig cfg => exact { silent s rfl rfl rfl rfl with mode := keeps.1 }
  | registerCallback | getDroppedCount => exact logs _ _ rfl rfl rfl (fun _ => ⟨rfl, rfl⟩) rfl rfl
  | _ => exact silent _ rfl rfl rfl rfl

def Event.push : Event T W → Option (Nat × TaskItem T W)
  | .pushed idx item _ => some (idx, item)
  | _ => none

theorem pushes_items (trace : List (Event T W)) : pushedItems trace = (trace.filterMap Event.push).map Prod.snd := by
  rw [pushedItems, List.map_filterMap]
  congr 1
  funext event
  cases event <;> rfl

-- A call pushes its task once, so onto one queue.
theorem pushed_one_queue (s : State T W) (turned : Turned s) (i j m n : Nat) (item : TaskItem T W)
    (first : .pushed i item m ∈ s.trace) (second : .pushed j item n ∈ s.trace) : i = j := by
  have distinct : ((s.trace.filterMap Event.push).map fun push => push.2.call).Nodup := by
    have turns := turned.turns
    rw [pushes_items, List.pairwise_map] at turns
    refine List.pairwise_map.mpr (turns.imp fun {early late} turn same => ?_)
    rw [InTurn, same] at turn
    exact Nat.lt_irrefl _ (turn rfl)
  have one : (i, item) ∈ s.trace.filterMap Event.push := List.mem_filterMap.mpr ⟨_, first, rfl⟩
  have two : (j, item) ∈ s.trace.filterMap Event.push := List.mem_filterMap.mpr ⟨_, second, rfl⟩
  exact congrArg Prod.fst (List.inj_on_of_nodup_map distinct one two rfl)

theorem pushed_to_mem (idx : Nat) (trace : List (Event T W)) (item : TaskItem T W) (member : item ∈ pushedTo idx trace) :
    ∃ size, .pushed idx item size ∈ trace := by
  obtain ⟨event, present, reads⟩ := List.mem_filterMap.mp member
  cases event with
  | pushed at_ other size =>
      rw [Event.pushedTo] at reads
      split at reads
      · rename_i same
        exact ⟨size, same ▸ Option.some.inj reads ▸ present⟩
      · cases reads
  | _ => cases reads

theorem lanes_worker (s : State T W) (turned : Turned s) (lanes : Lanes s) (idx size w : Nat) (item : TaskItem T W)
    (pushed : .pushed idx item size ∈ s.trace) (took : item ∈ takenBy w s.trace) : w = idx := by
  have member : item ∈ pushedTo w s.trace := by
    rw [lanes.order w]
    exact List.mem_append_left _ took
  obtain ⟨other, present⟩ := pushed_to_mem w s.trace item member
  exact pushed_one_queue s turned w idx other size item present pushed

-- The fetch_add gave a call its queue, which its division by the number of
-- threads will find, or push_back threw afterwards.
inductive Turn where
  | assigned (idx : Nat)
  | lost (idx : Nat)
deriving DecidableEq, Repr

def SubmitPc.turn (threads : Nat) : SubmitPc → SubmitPc → List Turn
  | .rotate, .divide rr => [.assigned (rr.toNat % threads)]
  | .push idx, .failed => [.lost idx]
  | _, _ => []

def turns (before : State T W) (action : Action T W) (after : State T W) : List Turn :=
  match action with
  | .call i | .callFails i =>
      match before.calls[i]?, after.calls[i]? with
      | some call, some moved => call.pc.turn before.cfg.numThreads moved.pc
      | _, _ => []
  | _ => []

def Turn.gives : Turn → Option Nat
  | .assigned idx => some idx
  | .lost _ => none

def Turn.loses : Turn → Option Nat
  | .assigned _ => none
  | .lost idx => some idx

def assignments (log : List Turn) : List Nat := log.filterMap Turn.gives

def losses (log : List Turn) : List Nat := log.filterMap Turn.loses

def SubmitPc.aims (threads idx : Nat) : SubmitPc → Nat
  | .divide rr => [rr.toNat % threads].count idx
  | .push at_ => [at_].count idx
  | _ => 0

-- Calls that have been given queue idx and stand before its push_back.
def aiming (threads : Nat) (calls : List (Call T W)) (idx : Nat) : Nat := total (fun call => call.pc.aims threads idx) calls

-- What one step does to the rotation.
structure Rotates (threads : Nat) (s after : State T W) (log : List Turn) : Prop where
  counter : after.rrIndex = s.rrIndex + UInt64.ofNat (assignments log).length
  next : assignments log = [] ∨ assignments log = [s.rrIndex.toNat % threads]
  account : ∀ idx, (pushedTo idx after.trace).length + aiming threads after.calls idx + (losses log).count idx =
    (pushedTo idx s.trace).length + aiming threads s.calls idx + (assignments log).count idx

theorem rotates_quiet (threads : Nat) (s after : State T W) (log : List Turn) (none : log = [])
    (aims : ∀ idx, aiming threads after.calls idx = aiming threads s.calls idx)
    (pushed : ∀ idx, pushedTo idx after.trace = pushedTo idx s.trace := by
      first | exact fun _ => rfl | exact fun _ => filter_map_quiet _ _ _ rfl)
    (counter : after.rrIndex = s.rrIndex := by rfl) : Rotates threads s after log := by
  subst none
  refine ⟨by rw [counter]; exact (UInt64.add_zero _).symm, .inl rfl, ?_⟩
  intro idx
  rw [aims, pushed]
  rfl

theorem aiming_set (threads : Nat) (calls : List (Call T W)) (i : Nat) (call : Call T W) (next : SubmitPc)
    (found : calls[i]? = some call) (idx : Nat) :
    aiming threads (calls.set i { call with pc := next }) idx + call.pc.aims threads idx =
      aiming threads calls idx + next.aims threads idx :=
  total_set (fun call : Call T W => call.pc.aims threads idx) calls i call { call with pc := next } found

theorem aiming_same (threads : Nat) (calls : List (Call T W)) (i : Nat) (call : Call T W) (next : SubmitPc)
    (found : calls[i]? = some call) (same : ∀ idx, next.aims threads idx = call.pc.aims threads idx) (idx : Nat) :
    aiming threads (calls.set i { call with pc := next }) idx = aiming threads calls idx :=
  total_set_same calls i call { call with pc := next } found _ (same idx)

theorem pushed_to_length (trace : List (Event T W)) (idx size : Nat) (item : TaskItem T W) (w : Nat) :
    (pushedTo w (trace ++ [.pushed idx item size])).length = (pushedTo w trace).length + [idx].count w := by
  rw [pushed_to_logs, List.count_singleton]
  by_cases hit : idx = w
  · rw [if_pos hit, if_pos (beq_iff_eq.mpr hit), List.length_append, List.length_singleton]
  · rw [if_neg hit, if_neg (by simpa using hit), Nat.add_zero]

-- One call moves on, and as many items as it says arrive in each queue.
theorem account_move (threads : Nat) (s after : State T W) (i : Nat) (call : Call T W) (next : SubmitPc) (log : List Turn)
    (arrives : Nat → Nat) (found : s.calls[i]? = some call)
    (balance : ∀ idx, arrives idx + next.aims threads idx + (losses log).count idx =
      call.pc.aims threads idx + (assignments log).count idx)
    (pushed : ∀ idx, (pushedTo idx after.trace).length = (pushedTo idx s.trace).length + arrives idx)
    (calls : after.calls = s.calls.set i { call with pc := next } := by rfl) (idx : Nat) :
    (pushedTo idx after.trace).length + aiming threads after.calls idx + (losses log).count idx =
      (pushedTo idx s.trace).length + aiming threads s.calls idx + (assignments log).count idx := by
  have moved := aiming_set threads s.calls i call next found idx
  have even := balance idx
  rw [calls, pushed idx]
  omega

theorem call_turns (s after : State T W) (action : Action T W) (i : Nat) (call : Call T W) (next : SubmitPc)
    (acts : action = .call i ∨ action = .callFails i) (found : s.calls[i]? = some call)
    (calls : after.calls = s.calls.set i { call with pc := next }) :
    turns s action after = call.pc.turn s.cfg.numThreads next := by
  have present : after.calls[i]? = some { call with pc := next } := by
    rw [calls, List.getElem?_set_self (List.getElem?_eq_some_iff.mp found).1]
  rcases acts with rfl | rfl <;> rw [turns, found, present]

theorem call_move_rotates (s after : State T W) (action : Action T W) (i : Nat) (call : Call T W)
    (acts : action = .call i ∨ action = .callFails i) (found : s.calls[i]? = some call) (moves : CallMove s i call after)
    (lanes : Lanes s) : Rotates s.cfg.numThreads s after (turns s action after) := by
  have quiet : ∀ next : SubmitPc, (∀ idx, next.aims s.cfg.numThreads idx = call.pc.aims s.cfg.numThreads idx) → ∀ idx,
      aiming s.cfg.numThreads (s.calls.set i { call with pc := next }) idx = aiming s.cfg.numThreads s.calls idx :=
    fun next same => aiming_same s.cfg.numThreads s.calls i call next found same
  cases moves with
  | first here fifo =>
      rw [lanes.mode] at fifo
      cases fifo
  | rotate here =>
      rw [call_turns s _ action i call _ acts found rfl, here]
      refine ⟨rfl, .inr rfl, account_move _ s _ i call _ _ (fun _ => 0) found ?_ fun _ => rfl⟩
      intro idx
      rw [here]
      rfl
  | push idx queue here inside free room =>
      rw [call_turns s _ action i call _ acts found rfl, here]
      refine ⟨(UInt64.add_zero _).symm, .inl rfl, account_move _ s _ i call _ _ [idx].count found ?_ ?_⟩
      · intro w
        rw [here]
        rfl
      · exact pushed_to_length s.trace idx (queue.length + 1) (call.item i)
  | fail here =>
      rw [call_turns s _ action i call _ acts found rfl]
      rcases here with here | ⟨idx, here⟩
      · exact rotates_quiet _ s _ _ (by rw [here]; rfl) (quiet .failed fun idx => by rw [here]; rfl)
      · refine ⟨by rw [here]; exact (UInt64.add_zero _).symm, by rw [here]; exact .inl rfl, ?_⟩
        refine account_move _ s _ i call _ _ (fun _ => 0) found ?_ fun _ => rfl
        intro w
        rw [here]
        exact Nat.add_comm _ _
  | assign rr here some =>
      refine rotates_quiet _ s _ _ ?_ (quiet _ fun idx => by rw [here]; rfl)
      rw [call_turns s _ action i call _ acts found rfl, here]
      rfl
  | divide rr here | outside idx here =>
      have same : s.undefined.calls = s.calls.set i { call with pc := call.pc } := (set_found s.calls i call found).symm
      refine rotates_quiet _ s _ _ ?_ fun _ => rfl
      rw [call_turns s s.undefined action i call call.pc acts found same]
      first
        | rw [here]; rfl
        | rcases here with here | here <;> rw [here] <;> rfl
  | pass curr next here passes goes =>
      refine rotates_quiet _ s _ _ ?_ (quiet next fun idx => ?_)
      · rw [call_turns s _ action i call _ acts found rfl, here]
        rfl
      · rw [here]
        rcases goes with rfl | rfl <;> rfl
  | load here | trip _ here _ | drop here | backoff here | spread here _ | sample _ _ here _ | exchange _ _ _ here _ _ | retry _ _ _ here _
  | settle _ _ _ here _ | count here | signal here _ =>
      refine rotates_quiet _ s _ _ ?_ (quiet _ fun idx => by rw [here]; rfl)
      rw [call_turns s _ action i call _ acts found rfl, here]
      rfl

theorem other_turns (s after : State T W) (action : Action T W)
    (acts : ∀ i, action ≠ .call i ∧ action ≠ .callFails i) : turns s action after = [] := by
  cases action with
  | call i => exact absurd rfl (acts i).1
  | callFails i => exact absurd rfl (acts i).2
  | _ => rfl

theorem of_worker_not_pushed (idx : Nat) (event : Event T W) (worked : event.ofWorker = true) :
    event.pushedTo idx = none := by
  cases event <;> first | rfl | simp [Event.ofWorker] at worked

theorem move_rotates (s after : State T W) (action : Action T W) (moves : Move s action after) (lanes : Lanes s) :
    Rotates s.cfg.numThreads s after (turns s action after) := by
  cases moves with
  | submit owner payload wrappers sequential =>
      refine rotates_quiet _ s _ _ rfl ?_
      intro idx
      exact total_append _ s.calls [⟨owner, payload, wrappers, .load⟩]
  | call _ i call after acts found moves => exact call_move_rotates s after action i call acts found moves lanes
  | worker _ w pc after acts found moves =>
      have none : turns s action after = [] := by
        apply other_turns
        intro i
        rcases acts with rfl | rfl | ⟨vic, rfl⟩ <;> constructor <;> intro same <;> cases same
      obtain ⟨events, trace, worked⟩ := worker_move_emits s after w pc moves
      have side := worker_move_side s after w pc moves
      refine rotates_quiet _ s after _ none (fun _ => by rw [side.calls]) ?_ side.counter
      intro idx
      rw [pushedTo, trace]
      exact filter_map_aside _ _ _ fun event member => of_worker_not_pushed idx event (worked event member)
  | destroy pc after here moves => cases moves <;> exact rotates_quiet _ s _ _ rfl fun _ => rfl
  | _ => exact rotates_quiet _ s _ _ rfl fun _ => rfl

-- The k-th fetch_add gives queue k % n, until the counter wraps.
structure Rotation (n : Nat) (s : State T W) (log : List Turn) : Prop where
  lanes : Lanes s
  threads : s.cfg.numThreads = n
  queues : s.queues.length = n
  counter : s.rrIndex.toNat = (assignments log).length % 2 ^ 64
  turns : (assignments log).length ≤ 2 ^ 64 → assignments log = (List.range (assignments log).length).map (· % n)
  account : ∀ idx, (assignments log).count idx =
    (pushedTo idx s.trace).length + aiming n s.calls idx + (losses log).count idx

theorem rotates_rotation (n : Nat) (s after : State T W) (log more : List Turn) (rotates : Rotates n s after more)
    (lanes : Lanes after) (threads : after.cfg.numThreads = n) (queues : after.queues.length = n)
    (rotation : Rotation n s log) : Rotation n after (log ++ more) := by
  have both : assignments (log ++ more) = assignments log ++ assignments more := List.filterMap_append
  have lost : losses (log ++ more) = losses log ++ losses more := List.filterMap_append
  have counter := rotation.counter
  refine ⟨lanes, threads, queues, ?_, ?_, ?_⟩
  · rw [rotates.counter, both, List.length_append, UInt64.toNat_add, counter, UInt64.toNat_ofNat']
    omega
  · intro fits
    rw [both, List.length_append] at fits
    have sofar := rotation.turns (by omega)
    rcases rotates.next with none | one
    · rw [both, none, List.append_nil]
      exact sofar
    · rw [one, List.length_singleton] at fits
      have unwrapped : (assignments log).length % 2 ^ 64 = (assignments log).length := Nat.mod_eq_of_lt (by omega)
      rw [counter, unwrapped] at one
      rw [both, one, List.length_append, List.length_singleton, List.range_succ, List.map_append, ← sofar]
      rfl
  · intro idx
    have before := rotation.account idx
    have change := rotates.account idx
    rw [both, lost, List.count_append, List.count_append]
    omega

theorem dealt_count (n total i : Nat) (inside : i < n) :
    ((List.range total).map (· % n)).count i = total / n + if i < total % n then 1 else 0 := by
  have same : ((List.range total).map (· % n)).count i = Nat.count (· ≡ i [MOD n]) total := by
    induction total with
    | zero => rfl
    | succ total ih =>
        rw [List.range_succ, List.map_append, List.count_append, ih, Nat.count_succ, List.map_singleton,
          List.count_singleton]
        simp only [beq_iff_eq, Nat.ModEq, Nat.mod_eq_of_lt inside]
  rw [same, Nat.count_modEq_card total (Nat.lt_of_le_of_lt (Nat.zero_le i) inside), Nat.mod_eq_of_lt inside]

theorem dealt_even (n total i j : Nat) (first : i < n) (second : j < n) :
    ((List.range total).map (· % n)).count i ≤ ((List.range total).map (· % n)).count j + 1 := by
  rw [dealt_count n total i first, dealt_count n total j second]
  split <;> split <;> omega

theorem move_threads (s after : State T W) (action : Action T W) (moves : Move s action after)
    (keeps : KeepsRotation s action) : after.cfg.numThreads = s.cfg.numThreads := by
  rcases move_cfg s after action moves with same | ⟨cfg, rfl, given⟩
  · rw [same]
  · rw [given]
    exact keeps.2

theorem construct_lanes (cfg : TaskProcessorConfig) (now : Int) (mode : cfg.mode = .roundRobin) :
    Lanes (construct cfg now : State T W) where
  mode := mode
  plain := by
    intro pc member
    rw [(List.mem_replicate.mp member).2]
    rfl
  order := by
    intro w
    rw [State.queueAt, construct, List.getElem?_replicate]
    split <;> rfl
  held := by
    rintro w item ⟨pc, present, carried⟩
    rw [(List.mem_replicate.mp (List.mem_of_getElem? present)).2] at carried
    cases carried
  handled := List.forall_mem_nil _

abbrev Rotated (T W : Type) := Machine.Recorded (State T W) Turn

def rotatedStep : Rotated T W → Action T W → Option (Rotated T W) := Machine.recorded step turns

theorem reachable_rotation (cfg : TaskProcessorConfig) (now : Int) (mode : cfg.mode = .roundRobin) (m : Rotated T W)
    (reachable : Machine.Reachable rotatedStep (fun m => KeepsRotation m.state) ⟨construct cfg now, []⟩ m) :
    Machine.Reachable step (fun _ _ => True) (construct cfg now) m.state ∧ Rotation cfg.numThreads m.state m.log := by
  refine Machine.recorded_invariant step turns _ _ _ (Rotation cfg.numThreads) ?_ ?_ m reachable
  · exact ⟨construct_lanes cfg now mode, rfl, List.length_replicate, rfl, fun _ => rfl, fun _ => rfl⟩
  · intro before action after log _ rotation keeps taken
    have moves := (step_move before after action taken).2
    exact rotates_rotation _ before after log _ (rotation.threads ▸ move_rotates before after action moves rotation.lanes)
      (move_lanes before after action moves keeps rotation.lanes)
      ((move_threads before after action moves keeps).trans rotation.threads)
      ((move_queue_count before after action moves).trans rotation.queues) rotation

-- Every accepted task has been given a queue: it has been pushed there, its
-- push_back is to come, or push_back has thrown.
structure InTurns (n : Nat) (m : Rotated T W) : Prop where
  even : ∀ i < n, ∀ j < n, (assignments m.log).count i ≤ (assignments m.log).count j + 1
  accepted : ∀ i, (assignments m.log).count i =
    (pushedTo i m.state.trace).length + aiming n m.state.calls i + (losses m.log).count i
  worker : ∀ i item size, .pushed i item size ∈ m.state.trace → ∀ event ∈ m.state.trace, ∀ w,
    event.handled = some (w, item) → w = i
  order : ∀ i < n, ∃ queue, m.state.queues[i]? = some queue ∧
    takenBy i m.state.trace ++ queue = pushedTo i m.state.trace

theorem round_robin_in_turns (cfg : TaskProcessorConfig) (now : Int) (mode : cfg.mode = .roundRobin) (m : Rotated T W)
    (reachable : Machine.Reachable rotatedStep (fun m => KeepsRotation m.state) ⟨construct cfg now, []⟩ m)
    (few : (assignments m.log).length < 2 ^ 64) : InTurns cfg.numThreads m := by
  obtain ⟨reached, rotation⟩ := reachable_rotation cfg now mode m reachable
  have turned := reachable_turned _ cfg now m.state reached
  refine ⟨?_, rotation.account, ?_, ?_⟩
  · intro i first j second
    rw [rotation.turns (Nat.le_of_lt few)]
    exact dealt_even cfg.numThreads _ i j first second
  · intro i item size pushed event member w does
    exact lanes_worker m.state turned rotation.lanes i size w item pushed (rotation.lanes.handled event member w item does)
  · intro i inside
    rw [← rotation.queues] at inside
    refine ⟨m.state.queues[i], List.getElem?_eq_getElem inside, ?_⟩
    have order := rotation.lanes.order i
    rw [State.queueAt, List.getElem?_eq_getElem inside] at order
    exact order.symm

def twoLanes : TaskProcessorConfig := { numThreads := 2, mode := .roundRobin }

-- The second submitter is held up between its fetch_add and its push_back; the
-- third task goes to queue 0, whose worker already has the first one.
def heldUp : List (Action Nat Nat) :=
  [[.submit 0 7 []], List.replicate 10 (.call 0), [.submit 1 8 []], List.replicate 4 (.call 1), [.submit 0 9 []],
    List.replicate 10 (.call 2), List.replicate 5 (.worker 0)].flatten

theorem round_robin_in_turns_held_up :
    ∃ m : Rotated Nat Nat,
      Machine.Reachable rotatedStep (fun m => KeepsRotation m.state) ⟨construct twoLanes 0, []⟩ m ∧
      assignments m.log = [0, 1, 0] ∧ takenBy 0 m.state.trace = [⟨7, [], 0⟩] ∧ InTurns 2 m := by
  obtain ⟨m, reachable, shown⟩ := Machine.run_exhibits rotatedStep (fun m => KeepsRotation m.state)
    ⟨construct twoLanes 0, []⟩ heldUp
    (fun m => assignments m.log == [0, 1, 0] && takenBy 0 m.state.trace == [⟨7, [], 0⟩]) (by decide)
  rw [Bool.and_eq_true, beq_iff_eq, beq_iff_eq] at shown
  refine ⟨m, reachable, shown.1, shown.2, round_robin_in_turns twoLanes 0 rfl m reachable ?_⟩
  rw [shown.1]
  decide

end Vectro.Pool
