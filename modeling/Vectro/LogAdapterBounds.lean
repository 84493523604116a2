import Vectro.LogAdapterMoves

set_option autoImplicit false

namespace Vectro.Log

variable {C : Type}

-- Read off the states around a step: the limit in force, and what a step of an
-- Enqueue call has done to the queue and to the drop counter.
inductive Sight where
  | limit (max : Nat)
  | appended (i : Nat)
  | counted (i : Nat)
deriving DecidableEq, Repr

def Call.sights (call : Call) (i : Nat) (before after : State C) : List Sight :=
  (if after.queue = before.queue ++ [call.message] then [.appended i] else []) ++
    (if after.droppedMessages = before.droppedMessages + 1 then [.counted i] else [])

def sights (before : State C) (action : Action C) (after : State C) : List Sight :=
  .limit after.maxQueueSize :: match action with
    | .call i | .callFails i _ => ((before.calls[i]?).map fun call => call.sights i before after).getD []
    | _ => []

abbrev Seen (C : Type) := Machine.Recorded (State C) Sight

def seenStep : Seen C → Action C → Option (Seen C) := Machine.recorded step sights

def seen (id : String) (platform : Platform) (now steady : Int) : Seen C :=
  ⟨construct id platform now steady, [.limit 10000]⟩

def Sight.held : Sight → Option Nat
  | .limit max => some max
  | _ => none

-- The values max_queue_size_ has held so far.
def limits (log : List Sight) : List Nat := log.filterMap Sight.held

structure Deeds where
  appended : Nat
  counted : Nat
deriving DecidableEq, Repr

def deeds (log : List Sight) (i : Nat) : Deeds := ⟨log.count (.appended i), log.count (.counted i)⟩

-- What a call has done by the time it stands here.
def EnqueuePc.done : EnqueuePc → Deeds
  | .signal | .returned => ⟨1, 0⟩
  | .dropped => ⟨0, 1⟩
  | _ => ⟨0, 0⟩

def State.done (s : State C) (i : Nat) : Deeds := ((s.calls[i]?).map fun call => call.pc.done).getD ⟨0, 0⟩

structure Limited (s : State C) (log : List Sight) : Prop where
  current : s.maxQueueSize ∈ limits log
  bounded : ∃ limit ∈ limits log, s.queue.length ≤ limit
  calls : ∀ i, deeds log i = s.done i

theorem limits_append (log more : List Sight) : limits (log ++ more) = limits log ++ limits more := List.filterMap_append

theorem deeds_limit (log : List Sight) (max i : Nat) : deeds (log ++ [.limit max]) i = deeds log i := by
  simp [deeds]

-- A step that leaves every call where it stands, or begins a new one.
theorem limited_frame (s after : State C) (log : List Sight) (limited : Limited s log)
    (shorter : after.queue.length ≤ s.queue.length) (calls : ∀ i, after.done i = s.done i) :
    Limited after (log ++ [.limit after.maxQueueSize]) where
  current := by
    rw [limits_append]
    exact List.mem_append_right _ List.mem_cons_self
  bounded := by
    obtain ⟨limit, member, bound⟩ := limited.bounded
    rw [limits_append]
    exact ⟨limit, List.mem_append_left _ member, Nat.le_trans shorter bound⟩
  calls := by
    intro i
    rw [deeds_limit, calls]
    exact limited.calls i

theorem counter_moves (n : UInt64) : n ≠ n + 1 := by
  intro same
  have values := congrArg UInt64.toNat same
  rw [UInt64.toNat_add] at values
  have one : (1 : UInt64).toNat = 1 := rfl
  omega

theorem sights_aside (s after : State C) (action : Action C) (queue : after.queue = s.queue)
    (dropped : after.droppedMessages = s.droppedMessages) : sights s action after = [.limit after.maxQueueSize] := by
  have none : ∀ (i : Nat) (call : Call), call.sights i s after = [] := by
    intro i call
    rw [Call.sights, queue, dropped, if_neg (counter_moves _), if_neg (by simp)]
    rfl
  cases action with
  | call i | callFails i _ =>
      rw [sights]
      cases s.calls[i]? with
      | none => rfl
      | some call => simp only [Option.map_some, Option.getD_some, none]
  | _ => rfl

theorem call_done_set (s : State C) (i j : Nat) (call new : Call) (found : s.calls[i]? = some call) :
    ((((s.calls.set i new)[j]?).map fun call => call.pc.done).getD ⟨0, 0⟩) = if i = j then new.pc.done else s.done j := by
  by_cases here : i = j
  · rw [if_pos here, ← here, List.getElem?_set_self (List.getElem?_eq_some_iff.mp found).1]
    rfl
  · rw [if_neg here, List.getElem?_set_ne here]
    rfl

-- A call that has done nothing so far appends its message or counts a drop.
theorem limited_call (s after : State C) (log : List Sight) (i : Nat) (call : Call) (pc : EnqueuePc) (sight : Sight)
    (found : s.calls[i]? = some call) (limited : Limited s log) (bounded : ∃ limit ∈ limits log, after.queue.length ≤ limit)
    (fresh : call.pc.done = ⟨0, 0⟩) (once : ∀ j, deeds [sight] j = if i = j then pc.done else ⟨0, 0⟩)
    (calls : after.calls = s.calls.set i { call with pc := pc } := by rfl) :
    Limited after (log ++ [.limit after.maxQueueSize, sight]) where
  current := by
    rw [limits_append]
    exact List.mem_append_right _ List.mem_cons_self
  bounded := by
    obtain ⟨limit, member, bound⟩ := bounded
    rw [limits_append]
    exact ⟨limit, List.mem_append_left _ member, bound⟩
  calls := by
    intro j
    have split : deeds (log ++ [.limit after.maxQueueSize, sight]) j =
        ⟨(s.done j).appended + (deeds [sight] j).appended, (s.done j).counted + (deeds [sight] j).counted⟩ := by
      rw [← limited.calls j]
      simp [deeds, List.count_cons]
    have moved : after.done j = if i = j then pc.done else s.done j := by
      rw [State.done, calls]
      exact call_done_set s i j call _ found
    rw [split, once, moved]
    by_cases here : i = j
    · have none : s.done j = ⟨0, 0⟩ := by rw [← here, State.done, found]; exact fresh
      rw [if_pos here, if_pos here, none, Nat.zero_add, Nat.zero_add]
    · rw [if_neg here, if_neg here]
      rfl

theorem limited_stays (s after : State C) (log : List Sight) (action : Action C) (i : Nat) (call : Call) (pc : EnqueuePc)
    (found : s.calls[i]? = some call) (limited : Limited s log) (same : pc.done = call.pc.done)
    (queue : after.queue = s.queue := by rfl) (dropped : after.droppedMessages = s.droppedMessages := by rfl)
    (calls : after.calls = s.calls.set i { call with pc := pc } := by rfl) :
    Limited after (log ++ sights s action after) := by
  rw [sights_aside s after action queue dropped]
  apply limited_frame s after log limited (Nat.le_of_eq (congrArg List.length queue))
  intro j
  rw [State.done, calls, call_done_set s i j call _ found]
  by_cases here : i = j
  · rw [if_pos here, ← here, State.done, found]
    exact same
  · rw [if_neg here]

theorem sights_call (s after : State C) (action : Action C) (i : Nat) (call : Call)
    (acts : action = .call i ∨ ∃ what, action = .callFails i what) (found : s.calls[i]? = some call) :
    sights s action after = .limit after.maxQueueSize :: call.sights i s after := by
  rcases acts with rfl | ⟨what, rfl⟩ <;> rw [sights, found] <;> rfl

theorem sights_appended (s after : State C) (i : Nat) (call : Call) (queue : after.queue = s.queue ++ [call.message])
    (dropped : after.droppedMessages = s.droppedMessages) : call.sights i s after = [.appended i] := by
  rw [Call.sights, if_pos queue, dropped, if_neg (counter_moves _)]
  rfl

theorem sights_counted (s after : State C) (i : Nat) (call : Call) (queue : after.queue = s.queue)
    (dropped : after.droppedMessages = s.droppedMessages + 1) : call.sights i s after = [.counted i] := by
  rw [Call.sights, queue, if_neg (by simp), if_pos dropped]
  rfl

theorem call_move_limited (s after : State C) (log : List Sight) (action : Action C) (i : Nat) (call : Call)
    (acts : action = .call i ∨ ∃ what, action = .callFails i what) (found : s.calls[i]? = some call)
    (moves : CallMove s i call after) (limited : Limited s log) : Limited after (log ++ sights s action after) := by
  cases moves with
  | drop here =>
      rw [sights_call s _ action i call acts found, sights_counted s _ i call]
      refine limited_call s _ log i call .dropped (.counted i) found limited limited.bounded ?_ fun j => ?_
      · rcases here with here | ⟨here, _⟩ <;> rw [here] <;> rfl
      · by_cases same : i = j <;> simp [deeds, same, EnqueuePc.done]
      · rfl
      · rfl
  | push here room =>
      rw [sights_call s _ action i call acts found, sights_appended s _ i call]
      refine limited_call s _ log i call .signal (.appended i) found limited ?_ (by rw [here]; rfl) fun j => ?_
      · -- The test and the push are in one critical section.
        refine ⟨s.maxQueueSize, limited.current, ?_⟩
        simp only [State.setCall, State.emit, List.length_append, List.length_singleton]
        omega
      · by_cases same : i = j <;> simp [deeds, same, EnqueuePc.done]
      · rfl
      · rfl
  | fail what here =>
      refine limited_stays s _ log action i call .failed found limited ?_
      rcases here with here | ⟨here, _⟩ <;> rw [here] <;> rfl
  | size here => exact limited_stays s _ log action i call (.check s.queue.length) found limited (by rw [here]; rfl)
  | full sz here _ => exact limited_stays s _ log action i call .drop found limited (by rw [here]; rfl)
  | fits sz here _ => exact limited_stays s _ log action i call (.threshold sz) found limited (by rw [here]; rfl)
  | above sz here _ => exact limited_stays s _ log action i call .backoff found limited (by rw [here]; rfl)
  | below _ here _ | backoff here => exact limited_stays s _ log action i call .push found limited (by rw [here]; rfl)
  | signal here => exact limited_stays s _ log action i call .returned found limited (by rw [here]; rfl)

def Action.calls : Action C → Bool
  | .call _ | .callFails _ _ => true
  | _ => false

theorem sights_other (s after : State C) (action : Action C) (other : action.calls = false) :
    sights s action after = [.limit after.maxQueueSize] := by
  cases action <;> first | rfl | cases other

theorem worker_move_queue (s after : State C) (pc : WorkerPc C) (moves : WorkerMove s pc after) :
    after.queue.length ≤ s.queue.length ∧ after.calls = s.calls := by
  cases moves with
  | swap | drain => exact ⟨Nat.zero_le _, rfl⟩
  | _ => exact ⟨Nat.le_refl _, rfl⟩

theorem register_move_queue (s after : State C) (i : Nat) (registration : Registration C)
    (moves : RegisterMove s i registration after) : after.queue = s.queue ∧ after.calls = s.calls := by
  cases moves <;> exact ⟨rfl, rfl⟩

theorem move_limited (s after : State C) (log : List Sight) (action : Action C) (moves : Move s action after)
    (limited : Limited s log) : Limited after (log ++ sights s action after) := by
  have other : action.calls = false → after.queue.length ≤ s.queue.length → (∀ i, after.done i = s.done i) →
      Limited after (log ++ sights s action after) := by
    intro aside shorter same
    rw [sights_other s after action aside]
    exact limited_frame s after log limited shorter same
  cases moves with
  | log thread level message =>
      refine other rfl (Nat.le_refl _) fun i => ?_
      rcases Nat.lt_trichotomy i s.calls.length with old | rfl | beyond
      · rw [State.done, State.done, List.getElem?_append_left old]
      · rw [State.done, State.done, List.getElem?_concat_length, List.getElem?_eq_none (Nat.le_refl _)]
        rfl
      · rw [State.done, State.done, List.getElem?_eq_none (Nat.le_of_lt beyond),
          List.getElem?_eq_none (by rw [List.length_append]; exact beyond)]
  | call _ i call after acts found moves => exact call_move_limited s after log action i call acts found moves limited
  | worker _ pc after acts stands moves =>
      obtain ⟨shorter, calls⟩ := worker_move_queue s after pc moves
      refine other ?_ shorter fun i => by rw [State.done, calls, State.done]
      rcases acts with rfl | ⟨outcome, rfl⟩ <;> rfl
  | register _ i registration after acts found moves =>
      obtain ⟨queue, calls⟩ := register_move_queue s after i registration moves
      refine other ?_ (Nat.le_of_eq (congrArg List.length queue)) fun i => by rw [State.done, calls, State.done]
      rcases acts with rfl | rfl <;> rfl
  | undefined _ gone =>
      rw [sights_aside s s.undefined action rfl rfl]
      exact limited_frame s _ log limited (Nat.le_refl _) fun _ => rfl
  | _ => exact other rfl (Nat.le_refl _) fun _ => rfl

theorem construct_limited (id : String) (platform : Platform) (now steady : Int) :
    Limited (construct id platform now steady : State C) [.limit 10000] :=
  ⟨List.mem_cons_self, ⟨10000, List.mem_cons_self, Nat.zero_le _⟩, fun _ => rfl⟩

theorem reachable_limited (id : String) (platform : Platform) (now steady : Int) (m : Seen C)
    (reachable : Machine.Reachable seenStep (fun _ _ => True) (seen id platform now steady) m) :
    Limited m.state m.log := by
  refine (Machine.recorded_invariant step sights (fun _ _ => True) _ _ Limited
    (construct_limited id platform now steady) ?_ m reachable).2
  intro before action after log _ limited _ taken
  exact move_limited before after log action (step_move before after action taken) limited

-- A call that ends without an exception has done one of the two, once.
theorem log_calls_settled (id : String) (platform : Platform) (now steady : Int) (m : Seen C)
    (reachable : Machine.Reachable seenStep (fun _ _ => True) (seen id platform now steady) m) :
    (∃ largest, (limits m.log).max? = some largest ∧ m.state.queue.length ≤ largest) ∧
    ∀ (i : Nat) (call : Call), m.state.calls[i]? = some call → call.pc.over = true → call.pc ≠ .failed →
      deeds m.log i = ⟨1, 0⟩ ∨ deeds m.log i = ⟨0, 1⟩ := by
  have limited := reachable_limited id platform now steady m reachable
  constructor
  · obtain ⟨limit, member, bound⟩ := limited.bounded
    obtain ⟨largest, greatest⟩ := Option.isSome_iff_exists.mp (List.isSome_max?_of_mem member)
    exact ⟨largest, greatest, Nat.le_trans bound ((List.max?_eq_some_iff.mp greatest).2 limit member)⟩
  · intro i call found ended healthy
    have done := limited.calls i
    rw [State.done, found] at done
    rw [done]
    cases here : call.pc with
    | returned => exact .inl (by simp [here, EnqueuePc.done])
    | dropped => exact .inr (by simp [here, EnqueuePc.done])
    | failed => exact absurd here healthy
    | size | check _ | drop | threshold _ | backoff | push | signal =>
        rw [here] at ended
        cases ended

-- The limit is lowered while the second call sleeps: it has passed the first
-- test and is dropped at the second.
theorem log_calls_settled_lowered :
    ∃ m : Seen Nat, Machine.Reachable seenStep (fun _ _ => True) (seen "app" ⟨toString, id, 9⟩ 0 0) m ∧
      m.state.queue.length = 1 ∧ m.state.maxQueueSize = 0 ∧
      (∃ largest, (limits m.log).max? = some largest ∧ m.state.queue.length ≤ largest) ∧
      (m.state.calls[1]?).map Call.pc = some .dropped ∧ (deeds m.log 1 = ⟨1, 0⟩ ∨ deeds m.log 1 = ⟨0, 1⟩) := by
  obtain ⟨m, reachable, shown⟩ := Machine.run_exhibits seenStep (fun _ _ => True)
    (seen "app" ⟨toString, id, 9⟩ 0 0 : Seen Nat)
    ([[.setBackpressureThreshold 0, .log 1 .info "one"], List.replicate 6 (.call 0), [.log 2 .info "two"],
      List.replicate 3 (.call 1), [.setMaxQueueSize 0], List.replicate 2 (.call 1)].flatten)
    (fun m => m.state.queue.length == 1 && m.state.maxQueueSize == 0 && (m.state.calls[1]?).map Call.pc == some .dropped)
    (by decide)
  simp only [Bool.and_eq_true, beq_iff_eq] at shown
  obtain ⟨⟨length, limit⟩, dropped⟩ := shown
  obtain ⟨call, found, here⟩ := Option.map_eq_some_iff.mp dropped
  obtain ⟨bounded, settled⟩ := log_calls_settled "app" ⟨toString, id, 9⟩ 0 0 m reachable
  exact ⟨m, reachable, length, limit, bounded, dropped, settled 1 call found (by rw [here]; rfl) (by rw [here]; decide)⟩

end Vectro.Log
