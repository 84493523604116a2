import Vectro.PoolPlaces

set_option autoImplicit false

namespace Vectro.Pool

open Tally Traces

variable {T W : Type}

-- The per-task callbacks a worker holds and has not called yet.
def WorkerPc.unrun : WorkerPc T W → List W
  | .subtract item | .processed item | .lockCallbacks item | .callbacks item _ => item.wrappers
  | .wrappers _ remaining => remaining
  | _ => []

def Event.ran : Event T W → Option W
  | .wrapper _ called _ _ => some called
  | _ => none

def ranWrappers (trace : List (Event T W)) : List W := trace.filterMap Event.ran

section
variable (keeps : W → Bool)

def Call.waiting (call : Call T W) : Nat := if call.pc.pushed then 0 else call.wrappers.countP keeps

def State.waiting (s : State T W) : Nat := total (Call.waiting keeps) s.calls

def queuedWrappers (queue : List (TaskItem T W)) : Nat := total (fun item => item.wrappers.countP keeps) queue

def State.lined (s : State T W) : Nat := total (queuedWrappers keeps) s.queues

def State.inHand (s : State T W) : Nat := total (fun pc => pc.unrun.countP keeps) s.workers

def State.ran (s : State T W) : Nat := (ranWrappers s.trace).countP keeps

def State.given (s : State T W) : Nat := total (fun call => call.wrappers.countP keeps) s.calls

-- Every callback that came with a task waits in its call, is in a queue, is in
-- the hands of a worker, or has been called.
def Carried (s : State T W) : Prop := s.waiting keeps + s.lined keeps + s.inHand keeps + s.ran keeps = s.given keeps

theorem carried_frame (s after : State T W) (carried : Carried keeps s)
    (waiting : after.waiting keeps = s.waiting keeps := by rfl) (given : after.given keeps = s.given keeps := by rfl)
    (hand : after.inHand keeps = s.inHand keeps := by rfl) (queues : after.queues = s.queues := by rfl)
    (ran : ranWrappers after.trace = ranWrappers s.trace := by first | rfl | exact filter_map_quiet _ _ _ rfl) :
    Carried keeps after := by
  rw [Carried, waiting, State.lined, queues, hand, State.ran, ran, given]
  exact carried

theorem given_set (s after : State T W) (i : Nat) (call : Call T W) (found : s.calls[i]? = some call) (pc : SubmitPc)
    (calls : after.calls = s.calls.set i { call with pc := pc }) : after.given keeps = s.given keeps := by
  rw [State.given, calls]
  exact total_set_same s.calls i call { call with pc := pc } found _ rfl

theorem waiting_set (s after : State T W) (i : Nat) (call : Call T W) (found : s.calls[i]? = some call) (pc : SubmitPc)
    (calls : after.calls = s.calls.set i { call with pc := pc }) (same : pc.pushed = call.pc.pushed) :
    after.waiting keeps = s.waiting keeps := by
  rw [State.waiting, calls]
  apply total_set_same s.calls i call { call with pc := pc } found
  rw [Call.waiting, same, Call.waiting]

theorem wake_in_hand (s after : State T W) (workers : after.workers = s.workers.map WorkerPc.wake) :
    after.inHand keeps = s.inHand keeps := by
  rw [State.inHand, workers]
  apply total_map
  intro pc
  cases pc <;> rfl

theorem push_carried (s after : State T W) (i idx : Nat) (call : Call T W) (queue : List (TaskItem T W))
    (found : s.calls[i]? = some call) (here : call.pc = .push idx) (inside : s.queues[idx]? = some queue)
    (carried : Carried keeps s) (calls : after.calls = s.calls.set i { call with pc := .sample idx })
    (queues : after.queues = s.queues.set idx (queue ++ [call.item i])) (workers : after.workers = s.workers)
    (ran : ranWrappers after.trace = ranWrappers s.trace) : Carried keeps after := by
  have given := given_set keeps s after i call found (.sample idx) calls
  have waiting : after.waiting keeps + call.wrappers.countP keeps = s.waiting keeps := by
    have moved := total_set (Call.waiting keeps) s.calls i call { call with pc := .sample idx } found
    have before : call.waiting keeps = call.wrappers.countP keeps := by rw [Call.waiting, here]; rfl
    rw [before] at moved
    rw [State.waiting, calls]
    exact moved
  have lined : after.lined keeps = s.lined keeps + call.wrappers.countP keeps := by
    have grown := total_set (queuedWrappers keeps) s.queues idx queue (queue ++ [call.item i]) inside
    have longer : queuedWrappers keeps (queue ++ [call.item i]) = queuedWrappers keeps queue + call.wrappers.countP keeps := by
      rw [queuedWrappers, total_append, total_cons, total_nil, Nat.add_zero]
      rfl
    rw [longer] at grown
    rw [State.lined, queues, State.lined]
    omega
  rw [Carried, given, State.inHand, workers, State.ran, ran, ← carried, State.inHand, State.ran]
  omega

theorem call_move_carried (s after : State T W) (i : Nat) (call : Call T W) (found : s.calls[i]? = some call)
    (moves : CallMove s i call after) (carried : Carried keeps s) : Carried keeps after := by
  cases moves with
  | push idx queue here inside free room =>
      exact push_carried keeps s _ i idx call queue found here inside carried rfl rfl rfl (filter_map_quiet _ _ _ rfl)
  | divide | outside => exact carried_frame keeps s _ carried
  | signal here free =>
      exact carried_frame keeps s _ carried (waiting_set keeps s _ i call found .returned rfl (by rw [here]; rfl))
        (given_set keeps s _ i call found .returned rfl) (wake_in_hand keeps s _ rfl)
  | pass curr next here passes goes =>
      apply carried_frame keeps s _ carried (waiting_set keeps s _ i call found next rfl _)
        (given_set keeps s _ i call found next rfl)
      rcases goes with rfl | rfl <;> rw [here] <;> rfl
  | fail here =>
      apply carried_frame keeps s _ carried (waiting_set keeps s _ i call found .failed rfl _)
        (given_set keeps s _ i call found .failed rfl)
      rcases here with here | ⟨idx, here⟩ <;> rw [here] <;> rfl
  | load here | trip _ here _ | drop here | backoff here | first here _ | spread here _ | rotate here | assign _ here _
  | sample _ _ here _ | exchange _ _ _ here _ _ | retry _ _ _ here _ | settle _ _ _ here _ | count here =>
      exact carried_frame keeps s _ carried (waiting_set keeps s _ i call found _ rfl (by rw [here]; rfl))
        (given_set keeps s _ i call found _ rfl)

theorem take_carried (s after : State T W) (w idx : Nat) (pc : WorkerPc T W) (queue rest : List (TaskItem T W))
    (item : TaskItem T W) (found : s.workers[w]? = some pc) (empty : pc.unrun = [])
    (inside : s.queues[idx]? = some queue)
    (removed : queuedWrappers keeps queue = queuedWrappers keeps rest + item.wrappers.countP keeps)
    (carried : Carried keeps s) (calls : after.calls = s.calls := by rfl)
    (queues : after.queues = s.queues.set idx rest := by rfl)
    (workers : after.workers = s.workers.set w (.subtract item) := by rfl)
    (ran : ranWrappers after.trace = ranWrappers s.trace := by exact filter_map_quiet _ _ _ rfl) :
    Carried keeps after := by
  have lined := total_set (queuedWrappers keeps) s.queues idx queue rest inside
  have hand := worker_total_move s after w pc (.subtract item) found (fun pc => pc.unrun.countP keeps) workers 0
    (item.wrappers.countP keeps) (by simp only [empty, List.countP_nil]) rfl
  unfold Carried State.waiting State.lined State.inHand State.ran State.given at *
  rw [calls, queues, ran]
  omega

theorem run_carried (s : State T W) (w : Nat) (item : TaskItem T W) (wrapper : W) (remaining : List W) (threw : Bool)
    (found : s.workers[w]? = some (.wrappers item (wrapper :: remaining))) (carried : Carried keeps s) :
    Carried keeps ((s.setWorker w (.wrappers item remaining)).emit (.wrapper w wrapper item threw)) := by
  have hand : total (fun pc => pc.unrun.countP keeps) (s.workers.set w (.wrappers item remaining)) +
      (wrapper :: remaining).countP keeps = total (fun pc => pc.unrun.countP keeps) s.workers + remaining.countP keeps :=
    total_set _ s.workers w _ (.wrappers item remaining) found
  have ran : ranWrappers (s.trace ++ [.wrapper w wrapper item threw]) = ranWrappers s.trace ++ [wrapper] :=
    filter_map_logs _ _ _ _ rfl
  rw [List.countP_cons] at hand
  unfold Carried State.waiting State.lined State.inHand State.ran State.given at *
  simp only [State.setWorker, State.emit, ran, List.countP_append, List.countP_singleton]
  omega

theorem worker_move_carried (s after : State T W) (w : Nat) (pc : WorkerPc T W) (found : s.workers[w]? = some pc)
    (moves : WorkerMove s w pc after) (carried : Carried keeps s) : Carried keeps after := by
  have quiet : ∀ (after : State T W) (next : WorkerPc T W), after.workers = s.workers.set w next →
      next.unrun = pc.unrun → after.inHand keeps = s.inHand keeps := by
    intro after next workers same
    rw [State.inHand, workers]
    exact total_set_same s.workers w pc next found _ (by rw [same])
  cases moves with
  | take item rest inside free =>
      have removed : queuedWrappers keeps (item :: rest) = queuedWrappers keeps rest + item.wrappers.countP keeps := by
        rw [queuedWrappers, total_cons, Nat.add_comm, queuedWrappers]
      exact take_carried keeps s _ w w .own (item :: rest) rest item found rfl inside removed carried
  | steal vic queue item inside free last =>
      have removed : queuedWrappers keeps queue = queuedWrappers keeps queue.dropLast + item.wrappers.countP keeps := by
        conv => lhs; rw [← List.dropLast_append_getLast? item last]
        rw [queuedWrappers, total_append, total_cons, total_nil, Nat.add_zero, queuedWrappers]
      exact take_carried keeps s _ w vic (.steal vic) queue queue.dropLast item found rfl inside removed carried
  | wrapper item wrapper remaining threw =>
      exact run_carried keeps s w item wrapper remaining threw found carried
  | outside => exact carried_frame keeps s _ carried
  | _ => exact carried_frame keeps s _ carried rfl rfl (quiet _ _ rfl rfl)

theorem submit_carried (s after : State T W) (owner : Nat) (payload : T) (wrappers : List W) (carried : Carried keeps s)
    (calls : after.calls = s.calls ++ [Call.mk owner payload wrappers .load]) (queues : after.queues = s.queues)
    (workers : after.workers = s.workers) (ran : ranWrappers after.trace = ranWrappers s.trace) : Carried keeps after := by
  have fresh : (Call.mk owner payload wrappers .load).waiting keeps = wrappers.countP keeps := rfl
  unfold Carried State.waiting State.lined State.inHand State.ran State.given at *
  rw [calls, queues, workers, ran, total_append, total_append, total_cons, total_cons, total_nil, total_nil, fresh]
  dsimp only
  omega

theorem move_carried (s after : State T W) (action : Action T W) (moves : Move s action after)
    (carried : Carried keeps s) : Carried keeps after := by
  cases moves with
  | submit owner payload wrappers sequential =>
      exact submit_carried keeps s _ owner payload wrappers carried rfl rfl rfl (filter_map_quiet _ _ _ rfl)
  | call _ i call after acts found moves => exact call_move_carried keeps s after i call found moves carried
  | worker _ w pc after acts found moves => exact worker_move_carried keeps s after w pc found moves carried
  | destroy pc after here moves =>
      cases moves with
      | signal => exact carried_frame keeps s _ carried rfl rfl (wake_in_hand keeps s _ rfl)
      | _ => exact carried_frame keeps s _ carried
  | _ => exact carried_frame keeps s _ carried

theorem construct_carried (cfg : TaskProcessorConfig) (now : Int) :
    Carried keeps (construct cfg now : State T W) := by
  have lined : (construct cfg now : State T W).lined keeps = 0 := by
    simp [State.lined, construct, total_eq_zero, queuedWrappers]
  have hand : (construct cfg now : State T W).inHand keeps = 0 := by
    simp [State.inHand, construct, total_eq_zero, WorkerPc.unrun]
  rw [Carried, lined, hand]
  rfl

theorem reachable_carried (guard : State T W → Action T W → Prop) (cfg : TaskProcessorConfig) (now : Int)
    (s : State T W) (reachable : Machine.Reachable step guard (construct cfg now) s) : Carried keeps s := by
  refine Machine.reachable_invariant step guard _ (Carried keeps) (construct_carried keeps cfg now) ?_ s reachable
  intro before action after _ carried _ taken
  exact move_carried keeps before after action (step_move before after action taken).2 carried

end

-- What a Submit call was given, which no later step of it changes.
def Call.task (call : Call T W) : T × List W := (call.payload, call.wrappers)

def Action.task : Action T W → List (T × List W)
  | .submit _ payload wrappers => [(payload, wrappers)]
  | _ => []

theorem set_tasks (calls : List (Call T W)) (i : Nat) (call : Call T W) (found : calls[i]? = some call) (pc : SubmitPc) :
    (calls.set i { call with pc := pc }).map Call.task = calls.map Call.task := by
  obtain ⟨bound, here⟩ := List.getElem?_eq_some_iff.mp found
  have inside : i < (calls.map Call.task).length := by
    rw [List.length_map]
    exact bound
  have same : Call.task { call with pc := pc } = (calls.map Call.task)[i] := by
    rw [List.getElem_map, here]
    rfl
  rw [List.map_set, same, List.set_getElem_self]

theorem move_tasks (s after : State T W) (action : Action T W) (moves : Move s action after) :
    after.calls.map Call.task = s.calls.map Call.task ++ action.task := by
  cases moves with
  | submit owner payload wrappers sequential => exact List.map_append
  | call _ i call after acts found moves =>
      have none : action.task = [] := by rcases acts with rfl | rfl <;> rfl
      rw [none, List.append_nil]
      cases moves with
      | divide | outside => rfl
      | _ => exact set_tasks s.calls i call found _
  | worker _ w pc after acts found moves =>
      have none : action.task = [] := by rcases acts with rfl | rfl | ⟨vic, rfl⟩ <;> rfl
      rw [none, List.append_nil, (worker_move_side s after w pc moves).calls]
  | destroy pc after here moves =>
      rw [(destructor_move_side s after pc moves).calls]
      exact (List.append_nil _).symm
  | _ => exact (List.append_nil _).symm

theorem given_tasks (keeps : W → Bool) (s : State T W) :
    s.given keeps = total (fun task => task.2.countP keeps) (s.calls.map Call.task) := by
  rw [State.given, total, total, List.map_map]
  rfl

-- A worker calls no per-task callback but those of the task it holds.
def Holding (s : State T W) : Prop :=
  ∀ pc ∈ s.workers, ∀ item, pc.item = some item → ∀ wrapper ∈ pc.unrun, wrapper ∈ item.wrappers

theorem holding_set (s after : State T W) (w : Nat) (next : WorkerPc T W) (holding : Holding s)
    (workers : after.workers = s.workers.set w next)
    (held : ∀ item, next.item = some item → ∀ wrapper ∈ next.unrun, wrapper ∈ item.wrappers) : Holding after := by
  rw [Holding, workers]
  exact forall_mem_set _ s.workers w next holding held

theorem holding_wake (s after : State T W) (holding : Holding s) (workers : after.workers = s.workers.map WorkerPc.wake) :
    Holding after := by
  intro pc member
  rw [workers] at member
  obtain ⟨old, present, rfl⟩ := List.mem_map.mp member
  have held := holding old present
  cases old <;> exact held

theorem worker_move_holding (s after : State T W) (w : Nat) (pc : WorkerPc T W) (found : s.workers[w]? = some pc)
    (moves : WorkerMove s w pc after) (holding : Holding s) : Holding after := by
  have held := holding pc (List.mem_of_getElem? found)
  cases moves with
  | outside => exact holding
  | take item rest inside free =>
      exact holding_set s _ w (.subtract item) holding rfl fun other same _ member => Option.some.inj same ▸ member
  | steal vic queue item inside free last =>
      exact holding_set s _ w (.subtract item) holding rfl fun other same _ member => Option.some.inj same ▸ member
  | called item k ended =>
      exact holding_set s _ w (.wrappers item item.wrappers) holding rfl
        fun other same _ member => Option.some.inj same ▸ member
  | wrapper item wrapper remaining threw =>
      apply holding_set s _ w (.wrappers item remaining) holding rfl
      intro other same later member
      exact held other same later (List.mem_cons_of_mem wrapper member)
  | subtract item | processed item | lockCallbacks item _ | callback item _ _ _ =>
      exact holding_set s _ w _ holding rfl fun other same => held other same
  | _ => exact holding_set s _ w _ holding rfl nofun

theorem move_holding (s after : State T W) (action : Action T W) (moves : Move s action after) (holding : Holding s) :
    Holding after := by
  cases moves with
  | call _ i call after acts found moves =>
      cases moves with
      | signal here free => exact holding_wake s _ holding rfl
      | _ => exact holding
  | worker _ w pc after acts found moves => exact worker_move_holding s after w pc found moves holding
  | destroy pc after here moves =>
      cases moves with
      | signal => exact holding_wake s _ holding rfl
      | _ => exact holding
  | _ => exact holding

theorem reachable_holding (guard : State T W → Action T W → Prop) (cfg : TaskProcessorConfig) (now : Int)
    (s : State T W) (reachable : Machine.Reachable step guard (construct cfg now) s) : Holding s := by
  refine Machine.reachable_invariant step guard _ Holding ?_ ?_ s reachable
  · intro pc member item holds
    rw [List.eq_of_mem_replicate member] at holds
    cases holds
  · intro before action after _ holding _ taken
    exact move_holding before after action (step_move before after action taken).2 holding

end Vectro.Pool
