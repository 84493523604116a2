import Vectro.PoolFutures

set_option autoImplicit false

namespace Vectro.Futures

open Tally

variable {T R X : Type}

def about (k : Nat) (trace : List (Event T R X)) : List (Event T R X) := trace.filter fun event => event.promise == k

def insiders (k : Nat) (frames : List (Option Nat)) : Nat := total (fun frame => if frame = some k then 1 else 0) frames

-- Everything that can have happened to a promise, with its content, the number
-- of wrappers made for it, how many of them have run, and how many workers are
-- in its fn.
inductive Story (k : Nat) (item : T) : List (Event T R X) → Option (Content R X) → Nat → Nat → Nat → Prop where
  | refused : Story k item [.requested k true, .satisfied k beforeEnqueue] (some beforeEnqueue) 0 0 0
  | waiting : Story k item [.requested k false] none 1 0 0
  | inside : Story k item [.requested k false, .read k false, .invoked k item] none 1 0 1
  | canceled : Story k item [.requested k false, .read k true, .satisfied k beforeExecution] (some beforeExecution) 1 1 0
  | returned (r : R) :
      Story k item [.requested k false, .read k false, .invoked k item, .returned k r, .satisfied k (.value r)]
        (some (.value r)) 1 1 0
  | threw (x : X) :
      Story k item [.requested k false, .read k false, .invoked k item, .threw k x, .satisfied k (.exception x)]
        (some (.exception x)) 1 1 0

structure Kept (s : State T R X) : Prop where
  owned : ∀ task ∈ s.pool.calls.map Pool.Call.task, ∀ wrapper ∈ task.2,
    ∃ promise, s.promises[wrapper.promise]? = some promise ∧ promise.item = task.1
  inside : ∀ w k : Nat, s.frames[w]? = some (some k) →
    ∃ (item : Pool.TaskItem T Wrapper) (wrapper : Wrapper) (rest : List Wrapper),
      s.pool.workers[w]? = some (.wrappers item (wrapper :: rest)) ∧ wrapper.promise = k
  known : ∀ event ∈ s.trace, event.promise < s.promises.length
  told : ∀ k promise, s.promises[k]? = some promise →
    Story k promise.item (about k s.trace) promise.content (s.pool.given (carries k)) (s.pool.ran (carries k))
      (insiders k s.frames)

inductive Move (s : State T R X) : State T R X → Prop where
  | refuse (item : T) :
      Move s { s with promises := s.promises ++ [⟨item, some beforeEnqueue⟩]
                      trace := s.trace ++
                        [.requested s.promises.length true, .satisfied s.promises.length beforeEnqueue] }
  | request (owner : Nat) (item : T) (token : Option Nat) (pool : Pool.State T Wrapper)
      (taken : Pool.step s.pool (.submit owner item [⟨s.promises.length, token⟩]) = some pool) :
      Move s { s with pool := pool
                      promises := s.promises ++ [⟨item, none⟩]
                      trace := s.trace ++ [.requested s.promises.length false] }
  | invoke (w : Nat) (item : Pool.TaskItem T Wrapper) (wrapper : Wrapper) (rest : List Wrapper)
      (stands : s.pool.workers[w]? = some (.wrappers item (wrapper :: rest))) (idle : s.frames[w]? = some none) :
      Move s { s with frames := s.frames.set w (some wrapper.promise)
                      trace := s.trace ++ [.read wrapper.promise false, .invoked wrapper.promise item.payload] }
  | cancel (w : Nat) (item : Pool.TaskItem T Wrapper) (wrapper : Wrapper) (rest : List Wrapper) (after : State T R X)
      (stands : s.pool.workers[w]? = some (.wrappers item (wrapper :: rest))) (idle : s.frames[w]? = some none)
      (settled : satisfy { s with trace := s.trace ++ [.read wrapper.promise true] } w wrapper.promise beforeExecution =
        some after) : Move s after
  | returns (w k : Nat) (r : R) (after : State T R X) (inside : s.frames[w]? = some (some k))
      (settled : satisfy { s with trace := s.trace ++ [.returned k r] } w k (.value r) = some after) : Move s after
  | throws (w k : Nat) (x : X) (after : State T R X) (inside : s.frames[w]? = some (some k))
      (settled : satisfy { s with trace := s.trace ++ [.threw k x] } w k (.exception x) = some after) : Move s after
  | pool (action : Pool.Action T Wrapper) (pool : Pool.State T Wrapper) (other : plain s.pool action = true)
      (taken : Pool.step s.pool action = some pool) : Move s { s with pool := pool }
  | token (tokens : List Bool) : Move s { s with tokens := tokens }

theorem enter_move (s after : State T R X) (w : Nat) (taken : enter s w = some after) : Move s after := by
  rw [enter] at taken
  split at taken
  · rename_i item wrapper rest stands idle
    by_cases set : s.tokenSet wrapper.token = true
    · rw [if_pos set] at taken
      exact .cancel w item wrapper rest after stands idle taken
    · rw [if_neg set] at taken
      cases taken
      exact .invoke w item wrapper rest stands idle
  · cases taken

theorem step_move (s after : State T R X) (action : Action T R X) (taken : step s action = some after) : Move s after := by
  cases action with
  | submitWithResult owner item token =>
      rw [step, submitWithResult] at taken
      by_cases set : s.tokenSet token = true
      · rw [if_pos set] at taken
        cases taken
        exact .refuse item
      · rw [if_neg set] at taken
        obtain ⟨pool, submitted, rfl⟩ := Option.map_eq_some_iff.mp taken
        exact .request owner item token pool submitted
  | enter w => exact enter_move s after w taken
  | returns w r =>
      rw [step, returns] at taken
      split at taken
      · rename_i k inside
        exact .returns w k r after inside taken
      · cases taken
  | throws w x =>
      rw [step, throws] at taken
      split at taken
      · rename_i k inside
        exact .throws w k x after inside taken
      · cases taken
  | pool action =>
      rw [step] at taken
      obtain ⟨other, moved⟩ := Option.ite_none_right_eq_some.mp taken
      obtain ⟨pool, stepped, rfl⟩ := Option.map_eq_some_iff.mp moved
      exact .pool action pool other stepped
  | makeToken set =>
      cases taken
      exact .token _
  | setToken t set =>
      cases taken
      exact .token _

-- A plain step of the processor makes no wrapper, calls none and moves no
-- worker that stands at one.
theorem plain_task (pool : Pool.State T Wrapper) (action : Pool.Action T Wrapper) (other : plain pool action = true) :
    ∀ task ∈ action.task, task.2 = [] := by
  intro task member
  cases action with
  | submit owner payload wrappers =>
      rw [List.mem_singleton.mp member]
      exact List.isEmpty_iff.mp other
  | _ => cases member

theorem satisfy_pool (s after : State T R X) (w k : Nat) (content : Content R X)
    (settled : satisfy s w k content = some after) :
    ∃ action, Pool.step s.pool action = some after.pool ∧ action.task = [] := by
  rw [satisfy] at settled
  obtain ⟨promise, found, moved⟩ := Option.bind_eq_some_iff.mp settled
  split at moved
  · obtain ⟨pool, taken, rfl⟩ := Option.map_eq_some_iff.mp moved
    exact ⟨_, taken, rfl⟩
  · obtain ⟨pool, taken, rfl⟩ := Option.map_eq_some_iff.mp moved
    exact ⟨_, taken, rfl⟩

-- The processor below only ever makes steps of its own, and the only wrappers
-- it is given are those of the next promise.
theorem move_pool (s after : State T R X) (moves : Move s after) :
    after.pool = s.pool ∨ ∃ action, Pool.step s.pool action = some after.pool ∧
      ∀ task ∈ action.task, ∀ wrapper ∈ task.2, wrapper.promise = s.promises.length := by
  have settles : ∀ event w k content, satisfy { s with trace := s.trace ++ [event] } w k content = some after →
      ∃ action, Pool.step s.pool action = some after.pool ∧
        ∀ task ∈ action.task, ∀ wrapper ∈ task.2, wrapper.promise = s.promises.length := by
    intro event w k content settled
    obtain ⟨action, taken, none⟩ := satisfy_pool _ after w k content settled
    refine ⟨action, taken, ?_⟩
    rw [none]
    exact List.forall_mem_nil _
  cases moves with
  | refuse | invoke | token => exact .inl rfl
  | request owner item token pool taken =>
      refine .inr ⟨_, taken, ?_⟩
      intro task member wrapper inside
      rw [List.mem_singleton.mp member] at inside
      rw [List.mem_singleton.mp inside]
  | pool action pool other taken =>
      refine .inr ⟨_, taken, ?_⟩
      intro task member
      rw [plain_task s.pool action other task member]
      exact List.forall_mem_nil _
  | cancel w item wrapper rest _ stands idle settled => exact .inr (settles _ w _ _ settled)
  | returns w k r _ inside settled => exact .inr (settles _ w k _ settled)
  | throws w k x _ inside settled => exact .inr (settles _ w k _ settled)

abbrev Reached (cfg : Pool.TaskProcessorConfig) (now : Int) (pool : Pool.State T Wrapper) : Prop :=
  Machine.Reachable Pool.step (fun _ _ => True) (Pool.construct cfg now) pool

theorem reachable_pool (cfg : Pool.TaskProcessorConfig) (now : Int) (s : State T R X)
    (reachable : Machine.Reachable step (fun _ _ => True) (construct cfg now) s) : Reached cfg now s.pool := by
  refine Machine.reachable_invariant step _ _ (fun s => Reached cfg now s.pool) .start ?_ s reachable
  intro before action after _ reached _ taken
  rcases move_pool before after (step_move before after action taken) with same | ⟨inner, stepped, _⟩
  · rw [same]
    exact reached
  · exact .step before.pool after.pool inner reached trivial stepped

theorem carries_promise (wrapper : Wrapper) : carries wrapper.promise wrapper = true := beq_self_eq_true _

theorem in_hand_pos (pool : Pool.State T Wrapper) (w : Nat) (item : Pool.TaskItem T Wrapper) (wrapper : Wrapper)
    (rest : List Wrapper) (stands : pool.workers[w]? = some (.wrappers item (wrapper :: rest))) :
    0 < (Pool.WorkerPc.wrappers item (wrapper :: rest) : Pool.WorkerPc T Wrapper).unrun.countP (carries wrapper.promise) ∧
    0 < pool.inHand (carries wrapper.promise) := by
  have here : 0 < (Pool.WorkerPc.wrappers item (wrapper :: rest) : Pool.WorkerPc T Wrapper).unrun.countP
      (carries wrapper.promise) := List.countP_pos_iff.mpr ⟨wrapper, List.mem_cons_self, carries_promise wrapper⟩
  have below := weight_le_total (fun pc : Pool.WorkerPc T Wrapper => pc.unrun.countP (carries wrapper.promise))
    pool.workers _ (List.mem_of_getElem? stands)
  exact ⟨here, Nat.lt_of_lt_of_le here below⟩

-- A wrapper in the hands of a worker was made by the call that submitted its
-- task, for a promise of the same item.
theorem hand_owned (cfg : Pool.TaskProcessorConfig) (now : Int) (s : State T R X) (kept : Kept s)
    (reached : Reached cfg now s.pool) (w : Nat) (item : Pool.TaskItem T Wrapper) (wrapper : Wrapper)
    (rest : List Wrapper) (stands : s.pool.workers[w]? = some (.wrappers item (wrapper :: rest))) :
    ∃ promise, s.promises[wrapper.promise]? = some promise ∧ promise.item = item.payload := by
  have present := List.mem_of_getElem? stands
  have traced := (Pool.reachable_conserved _ cfg now s.pool reached).2
  obtain ⟨call, found, _, built⟩ := traced.genuine item (traced.held _ present item rfl)
  have mine := Pool.reachable_holding _ cfg now s.pool reached _ present item rfl wrapper List.mem_cons_self
  have task : (item.payload, item.wrappers) ∈ s.pool.calls.map Pool.Call.task := by
    rw [built]
    exact List.mem_map.mpr ⟨call, List.mem_of_getElem? found, rfl⟩
  exact kept.owned _ task wrapper mine

-- No two workers hold wrappers of one promise.
theorem lone_holder (pool : Pool.State T Wrapper) (k v w : Nat) (one : pool.inHand (carries k) = 1)
    (first second : Pool.WorkerPc T Wrapper) (former : pool.workers[v]? = some first)
    (latter : pool.workers[w]? = some second) (holds : 0 < first.unrun.countP (carries k))
    (keeps : 0 < second.unrun.countP (carries k)) : v = w := by
  obtain ⟨i, cell, _, _, unique⟩ := total_eq_one _ pool.workers one
  rw [unique v first former (Nat.pos_iff_ne_zero.mp holds), unique w second latter (Nat.pos_iff_ne_zero.mp keeps)]

theorem insider_exists (k : Nat) (frames : List (Option Nat)) (some : insiders k frames ≠ 0) :
    ∃ v : Nat, frames[v]? = .some (.some k) := by
  obtain ⟨frame, member, weighs⟩ := total_ne_zero _ frames some
  have same : frame = .some k := by
    by_contra other
    rw [if_neg other] at weighs
    exact Nat.lt_irrefl 0 weighs
  rw [same] at member
  exact List.mem_iff_getElem?.mp member

-- Where a worker is about to enter the wrapper of a promise, nothing has
-- happened to the promise since it was requested.
theorem entered_waiting (cfg : Pool.TaskProcessorConfig) (now : Int) (s : State T R X) (kept : Kept s)
    (reached : Reached cfg now s.pool) (w : Nat) (item : Pool.TaskItem T Wrapper) (wrapper : Wrapper)
    (rest : List Wrapper) (stands : s.pool.workers[w]? = some (.wrappers item (wrapper :: rest)))
    (idle : s.frames[w]? = some none) (promise : Promise T R X) (found : s.promises[wrapper.promise]? = some promise) :
    about wrapper.promise s.trace = [.requested wrapper.promise false] ∧ promise.content = none ∧
    s.pool.given (carries wrapper.promise) = 1 ∧ s.pool.ran (carries wrapper.promise) = 0 ∧
    insiders wrapper.promise s.frames = 0 := by
  obtain ⟨holds, hand⟩ := in_hand_pos s.pool w item wrapper rest stands
  have carried := Pool.reachable_carried (carries wrapper.promise) _ cfg now s.pool reached
  have told := kept.told wrapper.promise promise found
  rw [Pool.Carried] at carried
  generalize trace : about wrapper.promise s.trace = events at told
  generalize kind : promise.content = content at told
  generalize given : s.pool.given (carries wrapper.promise) = wrappers at told carried
  generalize ran : s.pool.ran (carries wrapper.promise) = calls at told carried
  generalize within : insiders wrapper.promise s.frames = inside at told
  cases told with
  | waiting => exact ⟨rfl, rfl, rfl, rfl, rfl⟩
  | inside =>
      obtain ⟨v, framed⟩ := insider_exists wrapper.promise s.frames (by omega)
      obtain ⟨other, second, later, there, same⟩ := kept.inside v wrapper.promise framed
      have keeps := (in_hand_pos s.pool v other second later there).1
      rw [same] at keeps
      have alone := lone_holder s.pool wrapper.promise v w (by omega) _ _ there stands keeps holds
      rw [alone, idle] at framed
      cases framed
  | refused | canceled | returned | threw => omega

-- Where a worker is in the fn of a promise, fn has been called on the item and
-- nothing more.
theorem framed_inside (cfg : Pool.TaskProcessorConfig) (now : Int) (s : State T R X) (kept : Kept s)
    (reached : Reached cfg now s.pool) (w k : Nat) (framed : s.frames[w]? = some (some k)) (promise : Promise T R X)
    (found : s.promises[k]? = some promise) :
    about k s.trace = [.requested k false, .read k false, .invoked k promise.item] ∧ promise.content = none ∧
    s.pool.given (carries k) = 1 ∧ s.pool.ran (carries k) = 0 ∧ insiders k s.frames = 1 := by
  obtain ⟨item, wrapper, rest, stands, same⟩ := kept.inside w k framed
  have hand := (in_hand_pos s.pool w item wrapper rest stands).2
  rw [same] at hand
  have carried := Pool.reachable_carried (carries k) _ cfg now s.pool reached
  have present := weight_le_total (fun frame => if frame = some k then 1 else 0) s.frames _ (List.mem_of_getElem? framed)
  rw [if_pos rfl] at present
  have told := kept.told k promise found
  rw [Pool.Carried] at carried
  rw [insiders] at told ⊢
  generalize trace : about k s.trace = events at told
  generalize kind : promise.content = content at told
  generalize given : s.pool.given (carries k) = wrappers at told carried
  generalize ran : s.pool.ran (carries k) = calls at told carried
  generalize within : total (fun frame => if frame = some k then 1 else 0) s.frames = inside at told present
  cases told with
  | inside => exact ⟨rfl, rfl, rfl, rfl, rfl⟩
  | waiting | refused | canceled | returned | threw => omega

theorem about_own (k : Nat) (trace events : List (Event T R X)) (own : ∀ event ∈ events, event.promise = k) :
    about k (trace ++ events) = about k trace ++ events := by
  rw [about, List.filter_append, about]
  congr 1
  apply List.filter_eq_self.mpr
  intro event member
  exact beq_iff_eq.mpr (own event member)

theorem about_other (j k : Nat) (trace events : List (Event T R X)) (own : ∀ event ∈ events, event.promise = k)
    (apart : j ≠ k) : about j (trace ++ events) = about j trace := by
  have none : events.filter (fun event => event.promise == j) = [] := by
    apply List.filter_eq_nil_iff.mpr
    intro event member same
    exact apart ((beq_iff_eq.mp same).symm.trans (own event member))
  rw [about, List.filter_append, none, List.append_nil, about]

theorem given_same (s after : State T R X) (k : Nat)
    (tasks : after.pool.calls.map Pool.Call.task = s.pool.calls.map Pool.Call.task) :
    after.pool.given (carries k) = s.pool.given (carries k) := by
  rw [Pool.given_tasks, tasks, ← Pool.given_tasks]

theorem plain_worker (pool : Pool.State T Wrapper) (action : Pool.Action T Wrapper) (w : Nat)
    (acts : action = .worker w ∨ action = .workerThrows w ∨ ∃ vic, action = .workerSteals w vic)
    (other : plain pool action = true) (item : Pool.TaskItem T Wrapper) (wrapper : Wrapper) (rest : List Wrapper) :
    pool.workers[w]? ≠ some (.wrappers item (wrapper :: rest)) := by
  intro stands
  rcases acts with rfl | rfl | ⟨vic, rfl⟩ <;> simp only [plain, stands, Bool.false_eq_true] at other

theorem plain_ran (pool after : Pool.State T Wrapper) (action : Pool.Action T Wrapper) (other : plain pool action = true)
    (moves : Pool.Move pool action after) : Pool.ranWrappers after.trace = Pool.ranWrappers pool.trace := by
  cases moves with
  | call _ i call after acts found moves =>
      cases moves <;> first | rfl | exact Traces.filter_map_quiet _ _ _ rfl
  | worker _ w pc after acts found moves =>
      cases moves with
      | wrapper item wrapper remaining threw => exact absurd found (plain_worker pool action w acts other item wrapper remaining)
      | _ => first | rfl | exact Traces.filter_map_quiet _ _ _ rfl
  | destroy pc after here moves =>
      cases moves <;> first | rfl | exact Traces.filter_map_quiet _ _ _ rfl
  | _ => first | rfl | exact Traces.filter_map_quiet _ _ _ rfl

theorem plain_stands (pool after : Pool.State T Wrapper) (action : Pool.Action T Wrapper) (other : plain pool action = true)
    (moves : Pool.Move pool action after) (v : Nat) (item : Pool.TaskItem T Wrapper) (wrapper : Wrapper)
    (rest : List Wrapper) (stands : pool.workers[v]? = some (.wrappers item (wrapper :: rest))) :
    after.workers[v]? = some (.wrappers item (wrapper :: rest)) := by
  have woken : (pool.workers.map Pool.WorkerPc.wake)[v]? = some (.wrappers item (wrapper :: rest)) := by
    rw [List.getElem?_map, stands]
    rfl
  cases moves with
  | call _ i call after acts found moves =>
      cases moves with
      | signal here free => exact woken
      | _ => exact stands
  | worker _ w pc after acts found moves =>
      have apart : w ≠ v := by
        intro same
        exact plain_worker pool action w acts other item wrapper rest (same ▸ stands)
      cases moves with
      | outside => exact stands
      | _ => exact (List.getElem?_set_ne apart).trans stands
  | destroy pc after here moves =>
      cases moves with
      | signal => exact woken
      | _ => exact stands
  | _ => exact stands

theorem plain_given (pool after : Pool.State T Wrapper) (action : Pool.Action T Wrapper) (other : plain pool action = true)
    (moves : Pool.Move pool action after) (k : Nat) : after.given (carries k) = pool.given (carries k) := by
  rw [Pool.given_tasks, Pool.move_tasks pool after action moves, total_append, ← Pool.given_tasks]
  have none : total (fun task : T × List Wrapper => task.2.countP (carries k)) action.task = 0 := by
    rw [total_eq_zero]
    intro task member
    rw [plain_task pool action other task member, List.countP_nil]
  rw [none, Nat.add_zero]

theorem pool_kept (s : State T R X) (kept : Kept s) (action : Pool.Action T Wrapper) (pool : Pool.State T Wrapper)
    (other : plain s.pool action = true) (taken : Pool.step s.pool action = some pool) :
    Kept { s with pool := pool } := by
  have moves := (Pool.step_move s.pool pool action taken).2
  refine ⟨?_, ?_, kept.known, ?_⟩
  · intro task member
    rw [Pool.move_tasks s.pool pool action moves] at member
    rcases List.mem_append.mp member with old | new
    · exact kept.owned task old
    · rw [plain_task s.pool action other task new]
      exact List.forall_mem_nil _
  · intro w k framed
    obtain ⟨item, wrapper, rest, stands, same⟩ := kept.inside w k framed
    exact ⟨item, wrapper, rest, plain_stands s.pool pool action other moves w item wrapper rest stands, same⟩
  · intro k promise found
    have ran : pool.ran (carries k) = s.pool.ran (carries k) := by
      rw [Pool.State.ran, plain_ran s.pool pool action other moves, Pool.State.ran]
    rw [plain_given s.pool pool action other moves k, ran]
    exact kept.told k promise found

-- The next promise has no wrapper and no history yet.
theorem fresh_given (s : State T R X) (kept : Kept s) : s.pool.given (carries s.promises.length) = 0 := by
  rw [Pool.given_tasks, total_eq_zero]
  intro task member
  rw [List.countP_eq_zero]
  intro wrapper inside same
  obtain ⟨promise, found, _⟩ := kept.owned task member wrapper inside
  have bound := (List.getElem?_eq_some_iff.mp found).1
  exact Nat.ne_of_lt bound (beq_iff_eq.mp same)

theorem fresh_about (s : State T R X) (kept : Kept s) : about s.promises.length s.trace = [] := by
  apply List.filter_eq_nil_iff.mpr
  intro event member same
  exact Nat.ne_of_lt (kept.known event member) (beq_iff_eq.mp same)

theorem fresh_insiders (cfg : Pool.TaskProcessorConfig) (now : Int) (s : State T R X) (kept : Kept s)
    (reached : Reached cfg now s.pool) : insiders s.promises.length s.frames = 0 := by
  by_contra some
  obtain ⟨v, framed⟩ := insider_exists _ s.frames some
  obtain ⟨item, wrapper, rest, stands, same⟩ := kept.inside v _ framed
  have hand := (in_hand_pos s.pool v item wrapper rest stands).2
  rw [same] at hand
  have carried := Pool.reachable_carried (carries s.promises.length) _ cfg now s.pool reached
  rw [Pool.Carried, fresh_given s kept] at carried
  omega

-- A new promise joins the others, of which nothing is said.
theorem new_kept (s after : State T R X) (kept : Kept s) (item : T) (content : Option (Content R X))
    (events : List (Event T R X)) (own : ∀ event ∈ events, event.promise = s.promises.length)
    (promises : after.promises = s.promises ++ [⟨item, content⟩]) (frames : after.frames = s.frames)
    (trace : after.trace = s.trace ++ events) (workers : after.pool.workers = s.pool.workers)
    (owned : ∀ task ∈ after.pool.calls.map Pool.Call.task, task ∈ s.pool.calls.map Pool.Call.task ∨
      ∀ wrapper ∈ task.2, wrapper.promise = s.promises.length ∧ item = task.1)
    (given : ∀ k, k ≠ s.promises.length → after.pool.given (carries k) = s.pool.given (carries k))
    (ran : ∀ k, after.pool.ran (carries k) = s.pool.ran (carries k))
    (story : Story s.promises.length item events content (after.pool.given (carries s.promises.length))
      (after.pool.ran (carries s.promises.length)) (insiders s.promises.length s.frames)) : Kept after := by
  have newest : (s.promises ++ [⟨item, content⟩])[s.promises.length]? = some ⟨item, content⟩ :=
    List.getElem?_concat_length
  have older : ∀ (k : Nat) (promise : Promise T R X), s.promises[k]? = some promise →
      (s.promises ++ [⟨item, content⟩])[k]? = some promise := by
    intro k promise found
    rw [List.getElem?_append_left (List.getElem?_eq_some_iff.mp found).1, found]
  refine ⟨?_, ?_, ?_, ?_⟩
  · intro task member wrapper inside
    rw [promises]
    rcases owned task member with old | new
    · obtain ⟨promise, found, same⟩ := kept.owned task old wrapper inside
      exact ⟨promise, older _ promise found, same⟩
    · obtain ⟨mine, same⟩ := new wrapper inside
      rw [mine]
      exact ⟨_, newest, same⟩
  · rw [frames, workers]
    exact kept.inside
  · intro event member
    rw [trace] at member
    rw [promises, List.length_append, List.length_singleton]
    rcases List.mem_append.mp member with old | new
    · exact Nat.lt_succ_of_lt (kept.known event old)
    · rw [own event new]
      exact Nat.lt_succ_self _
  · intro k promise found
    rw [promises] at found
    rw [trace, frames]
    by_cases last : k = s.promises.length
    · rw [last] at found ⊢
      cases Option.some.inj (newest.symm.trans found)
      rw [about_own _ _ _ own, fresh_about s kept, List.nil_append]
      exact story
    · have old : s.promises[k]? = some promise := by
        have bound := (List.getElem?_eq_some_iff.mp found).1
        rw [List.length_append, List.length_singleton] at bound
        rwa [List.getElem?_append_left (by omega)] at found
      rw [about_other k _ _ _ own last, given k last, ran k]
      exact kept.told k promise old

theorem refuse_kept (cfg : Pool.TaskProcessorConfig) (now : Int) (s : State T R X) (kept : Kept s)
    (reached : Reached cfg now s.pool) (item : T) :
    Kept { s with promises := s.promises ++ [⟨item, some beforeEnqueue⟩]
                  trace := s.trace ++
                    [.requested s.promises.length true, .satisfied s.promises.length beforeEnqueue] } := by
  have given := fresh_given s kept
  have carried := Pool.reachable_carried (carries s.promises.length) _ cfg now s.pool reached
  rw [Pool.Carried, given] at carried
  have ran : s.pool.ran (carries s.promises.length) = 0 := by omega
  refine new_kept s _ kept item (some beforeEnqueue) _ ?_ rfl rfl rfl rfl (fun _ member => .inl member)
    (fun _ _ => rfl) (fun _ => rfl) ?_
  · intro event member
    rcases List.mem_cons.mp member with rfl | later
    · rfl
    · rw [List.mem_singleton.mp later]
      rfl
  · rw [given, ran, fresh_insiders cfg now s kept reached]
    exact .refused

theorem submit_pool (pool after : Pool.State T Wrapper) (owner : Nat) (item : T) (wrappers : List Wrapper)
    (taken : Pool.step pool (.submit owner item wrappers) = some after) :
    after.workers = pool.workers ∧ Pool.ranWrappers after.trace = Pool.ranWrappers pool.trace := by
  cases (Pool.step_move pool after _ taken).2 with
  | submit _ _ _ sequential => exact ⟨rfl, Traces.filter_map_quiet _ _ _ rfl⟩
  | call _ i call _ acts found moves => rcases acts with acts | acts <;> cases acts
  | worker _ w pc _ acts found moves => rcases acts with acts | acts | ⟨vic, acts⟩ <;> cases acts

theorem request_kept (cfg : Pool.TaskProcessorConfig) (now : Int) (s : State T R X) (kept : Kept s)
    (reached : Reached cfg now s.pool) (owner : Nat) (item : T) (token : Option Nat) (pool : Pool.State T Wrapper)
    (taken : Pool.step s.pool (.submit owner item [⟨s.promises.length, token⟩]) = some pool) :
    Kept { s with pool := pool
                  promises := s.promises ++ [⟨item, none⟩]
                  trace := s.trace ++ [.requested s.promises.length false] } := by
  obtain ⟨workers, called⟩ := submit_pool s.pool pool owner item _ taken
  have tasks := Pool.move_tasks s.pool pool _ (Pool.step_move s.pool pool _ taken).2
  have ran : ∀ k, pool.ran (carries k) = s.pool.ran (carries k) := by
    intro k
    rw [Pool.State.ran, called, Pool.State.ran]
  have given : ∀ k, pool.given (carries k) =
      s.pool.given (carries k) + [(⟨s.promises.length, token⟩ : Wrapper)].countP (carries k) := by
    intro k
    rw [Pool.given_tasks, tasks, total_append, ← Pool.given_tasks]
    rfl
  have carried := Pool.reachable_carried (carries s.promises.length) _ cfg now s.pool reached
  rw [Pool.Carried, fresh_given s kept] at carried
  have unrun : s.pool.ran (carries s.promises.length) = 0 := by omega
  refine new_kept s _ kept item none [.requested s.promises.length false] ?_ rfl rfl rfl workers ?_ ?_ ran ?_
  · intro event member
    rw [List.mem_singleton.mp member]
    rfl
  · intro task member
    rw [tasks] at member
    rcases List.mem_append.mp member with old | new
    · exact .inl old
    · rw [List.mem_singleton.mp new]
      refine .inr fun wrapper inside => ?_
      rw [List.mem_singleton.mp inside]
      exact ⟨rfl, rfl⟩
  · intro k other
    have skipped : carries k (⟨s.promises.length, token⟩ : Wrapper) = false := beq_false_of_ne (Ne.symm other)
    rw [given, List.countP_singleton, skipped]
    rfl
  · rw [given, ran, fresh_given s kept, unrun, fresh_insiders cfg now s kept reached, List.countP_singleton, carries,
      beq_self_eq_true]
    exact .waiting

-- A step of one promise: what is told of the others stays.
theorem advance_kept (s after : State T R X) (kept : Kept s) (k : Nat) (promise : Promise T R X)
    (content : Option (Content R X)) (events : List (Event T R X)) (found : s.promises[k]? = some promise)
    (own : ∀ event ∈ events, event.promise = k) (promises : after.promises = s.promises.set k ⟨promise.item, content⟩)
    (trace : after.trace = s.trace ++ events)
    (tasks : after.pool.calls.map Pool.Call.task = s.pool.calls.map Pool.Call.task)
    (ran : ∀ j, j ≠ k → after.pool.ran (carries j) = s.pool.ran (carries j))
    (within : ∀ j, j ≠ k → insiders j after.frames = insiders j s.frames)
    (inside : ∀ w j : Nat, after.frames[w]? = some (some j) →
      ∃ (item : Pool.TaskItem T Wrapper) (wrapper : Wrapper) (rest : List Wrapper),
        after.pool.workers[w]? = some (.wrappers item (wrapper :: rest)) ∧ wrapper.promise = j)
    (story : Story k promise.item (about k s.trace ++ events) content (s.pool.given (carries k))
      (after.pool.ran (carries k)) (insiders k after.frames)) : Kept after := by
  have bound := (List.getElem?_eq_some_iff.mp found).1
  refine ⟨?_, inside, ?_, ?_⟩
  · intro task member wrapper carried
    rw [tasks] at member
    rw [promises]
    obtain ⟨other, there, same⟩ := kept.owned task member wrapper carried
    by_cases mine : k = wrapper.promise
    · rw [← mine] at there ⊢
      cases Option.some.inj (found.symm.trans there)
      exact ⟨_, List.getElem?_set_self bound, same⟩
    · exact ⟨other, (List.getElem?_set_ne mine).trans there, same⟩
  · intro event member
    rw [trace] at member
    rw [promises, List.length_set]
    rcases List.mem_append.mp member with old | new
    · exact kept.known event old
    · rw [own event new]
      exact bound
  · intro j other there
    rw [promises] at there
    rw [trace, given_same s after j tasks]
    by_cases mine : k = j
    · rw [← mine] at there ⊢
      rw [List.getElem?_set_self bound] at there
      cases Option.some.inj there
      rw [about_own k _ _ own]
      exact story
    · rw [List.getElem?_set_ne mine] at there
      rw [about_other j k _ _ own (Ne.symm mine), ran j (Ne.symm mine), within j (Ne.symm mine)]
      exact kept.told j other there

theorem insiders_set (frames : List (Option Nat)) (w k : Nat) (old new : Option Nat) (found : frames[w]? = some old) :
    insiders k (frames.set w new) + (if old = some k then 1 else 0) = insiders k frames + (if new = some k then 1 else 0) :=
  total_set _ frames w old new found

theorem invoke_kept (cfg : Pool.TaskProcessorConfig) (now : Int) (s : State T R X) (kept : Kept s)
    (reached : Reached cfg now s.pool) (w : Nat) (item : Pool.TaskItem T Wrapper) (wrapper : Wrapper)
    (rest : List Wrapper) (stands : s.pool.workers[w]? = some (.wrappers item (wrapper :: rest)))
    (idle : s.frames[w]? = some none) :
    Kept { s with frames := s.frames.set w (some wrapper.promise)
                  trace := s.trace ++ [.read wrapper.promise false, .invoked wrapper.promise item.payload] } := by
  obtain ⟨promise, found, same⟩ := hand_owned cfg now s kept reached w item wrapper rest stands
  obtain ⟨history, unsettled, given, ran, none⟩ :=
    entered_waiting cfg now s kept reached w item wrapper rest stands idle promise found
  have entered := fun k => insiders_set s.frames w k Option.none (some wrapper.promise) idle
  refine advance_kept s _ kept wrapper.promise promise Option.none _ found ?_ ?_ rfl rfl (fun _ _ => rfl) ?_ ?_ ?_
  · intro event member
    rcases List.mem_cons.mp member with rfl | later
    · rfl
    · rw [List.mem_singleton.mp later]
      rfl
  · have whole : (⟨promise.item, Option.none⟩ : Promise T R X) = promise := by rw [← unsettled]
    obtain ⟨bound, here⟩ := List.getElem?_eq_some_iff.mp found
    rw [whole, ← here, List.set_getElem_self]
  · intro j apart
    have moved := entered j
    rw [if_neg nofun, if_neg (fun mine => apart (Option.some.inj mine).symm)] at moved
    exact moved
  · intro v j framed
    by_cases mine : w = v
    · rw [← mine] at framed ⊢
      rw [List.getElem?_set_self (List.getElem?_eq_some_iff.mp idle).1] at framed
      exact ⟨item, wrapper, rest, stands, Option.some.inj (Option.some.inj framed)⟩
    · rw [List.getElem?_set_ne mine] at framed
      exact kept.inside v j framed
  · have moved := entered wrapper.promise
    rw [if_neg nofun, if_pos rfl, none] at moved
    have one : insiders wrapper.promise (s.frames.set w (some wrapper.promise)) = 1 := moved
    rw [history, given, ran, ← same]
    dsimp only
    rw [one]
    exact .inside

theorem wrapper_step (pool after : Pool.State T Wrapper) (w : Nat) (item : Pool.TaskItem T Wrapper) (wrapper : Wrapper)
    (rest : List Wrapper) (stands : pool.workers[w]? = some (.wrappers item (wrapper :: rest)))
    (taken : Pool.step pool (.worker w) = some after) :
    after.workers = pool.workers.set w (.wrappers item rest) ∧
    Pool.ranWrappers after.trace = Pool.ranWrappers pool.trace ++ [wrapper] := by
  cases (Pool.step_move pool after _ taken).2 with
  | call _ i call _ acts found moves => rcases acts with acts | acts <;> cases acts
  | worker _ v pc _ acts found moves =>
      rcases acts with acts | acts | ⟨vic, acts⟩ <;> cases acts
      cases Option.some.inj (stands.symm.trans found)
      cases moves with
      | wrapper _ _ _ threw => exact ⟨rfl, Traces.filter_map_logs _ _ _ _ rfl⟩
      | outside _ beyond => rcases beyond with ⟨other, _⟩ | ⟨_, _, other, _⟩ | ⟨_, other, _⟩ <;> cases other

theorem satisfy_settles (s after : State T R X) (w k : Nat) (content : Content R X) (promise : Promise T R X)
    (found : s.promises[k]? = some promise) (unsettled : promise.content = none)
    (settled : satisfy s w k content = some after) :
    ∃ pool, Pool.step s.pool (.worker w) = some pool ∧
      after = { s with pool := pool
                       promises := s.promises.set k { promise with content := some content }
                       frames := s.frames.set w none
                       trace := s.trace ++ [.satisfied k content] } := by
  rw [satisfy, found, Option.bind_some] at settled
  simp only [unsettled] at settled
  obtain ⟨pool, taken, rfl⟩ := Option.map_eq_some_iff.mp settled
  exact ⟨pool, taken, rfl⟩

-- The wrapper of a promise ends: the promise is satisfied, the wrapper has run
-- and the worker is in no fn.
theorem settle_kept (s after : State T R X) (kept : Kept s) (w k : Nat) (item : Pool.TaskItem T Wrapper)
    (wrapper : Wrapper) (rest : List Wrapper) (stands : s.pool.workers[w]? = some (.wrappers item (wrapper :: rest)))
    (mine : wrapper.promise = k) (frame : Option Nat) (framed : s.frames[w]? = some frame)
    (free : ∀ j, j ≠ k → frame ≠ some j) (event : Event T R X) (tells : event.promise = k) (content : Content R X)
    (promise : Promise T R X) (found : s.promises[k]? = some promise) (unsettled : promise.content = none)
    (given : s.pool.given (carries k) = 1) (ran : s.pool.ran (carries k) = 0)
    (within : insiders k s.frames = if frame = some k then 1 else 0)
    (story : Story k promise.item (about k s.trace ++ [event, .satisfied k content]) (some content) 1 1 0)
    (settled : satisfy { s with trace := s.trace ++ [event] } w k content = some after) : Kept after := by
  obtain ⟨pool, taken, rfl⟩ := satisfy_settles { s with trace := s.trace ++ [event] } after w k content promise found
    unsettled settled
  obtain ⟨workers, called⟩ := wrapper_step s.pool pool w item wrapper rest stands taken
  have left := fun j => insiders_set s.frames w j frame none framed
  have counted : ∀ j, pool.ran (carries j) = s.pool.ran (carries j) + if carries j wrapper = true then 1 else 0 := by
    intro j
    rw [Pool.State.ran, called, List.countP_append, List.countP_singleton, Pool.State.ran]
  refine advance_kept s _ kept k promise (some content) [event, .satisfied k content] found ?_ rfl
    (List.append_assoc _ _ _) ?_ ?_ ?_ ?_ ?_
  · intro other member
    rcases List.mem_cons.mp member with rfl | later
    · exact tells
    · rw [List.mem_singleton.mp later]
      rfl
  · have tasks := Pool.move_tasks s.pool pool _ (Pool.step_move s.pool pool _ taken).2
    rw [tasks]
    exact List.append_nil _
  · intro j apart
    have skipped : ¬ carries j wrapper = true := by
      intro same
      exact apart ((beq_iff_eq.mp same).symm.trans mine)
    exact (counted j).trans (by rw [if_neg skipped, Nat.add_zero])
  · intro j apart
    have moved := left j
    rw [if_neg (free j apart), if_neg (Option.some_ne_none j).symm] at moved
    exact moved
  · intro v j inside
    by_cases same : w = v
    · rw [← same, List.getElem?_set_self (List.getElem?_eq_some_iff.mp framed).1] at inside
      cases inside
    · rw [List.getElem?_set_ne same] at inside
      obtain ⟨other, next, later, there, whose⟩ := kept.inside v j inside
      refine ⟨other, next, later, ?_, whose⟩
      rw [workers, List.getElem?_set_ne same]
      exact there
  · have moved := left k
    have outside : ¬ (none : Option Nat) = some k := (Option.some_ne_none k).symm
    rw [within, if_neg outside] at moved
    have none : insiders k (s.frames.set w none) = 0 := by omega
    have once : pool.ran (carries k) = 1 := by
      rw [counted k, ran, ← mine, carries_promise, if_pos rfl]
    dsimp only
    rw [given, once, none]
    exact story

theorem cancel_kept (cfg : Pool.TaskProcessorConfig) (now : Int) (s after : State T R X) (kept : Kept s)
    (reached : Reached cfg now s.pool) (w : Nat) (item : Pool.TaskItem T Wrapper) (wrapper : Wrapper)
    (rest : List Wrapper) (stands : s.pool.workers[w]? = some (.wrappers item (wrapper :: rest)))
    (idle : s.frames[w]? = some none)
    (settled : satisfy { s with trace := s.trace ++ [.read wrapper.promise true] } w wrapper.promise beforeExecution =
      some after) : Kept after := by
  obtain ⟨promise, found, _⟩ := hand_owned cfg now s kept reached w item wrapper rest stands
  obtain ⟨history, unsettled, given, ran, none⟩ :=
    entered_waiting cfg now s kept reached w item wrapper rest stands idle promise found
  apply settle_kept s after kept w wrapper.promise item wrapper rest stands rfl Option.none idle nofun _ rfl
    beforeExecution promise found unsettled given ran none _ settled
  rw [history]
  exact .canceled

-- fn has returned or thrown, which the event tells.
theorem end_kept (cfg : Pool.TaskProcessorConfig) (now : Int) (s after : State T R X) (kept : Kept s)
    (reached : Reached cfg now s.pool) (w k : Nat) (framed : s.frames[w]? = some (some k)) (event : Event T R X)
    (tells : event.promise = k) (content : Content R X)
    (story : ∀ item : T, Story k item
      [.requested k false, .read k false, .invoked k item, event, .satisfied k content] (some content) 1 1 0)
    (settled : satisfy { s with trace := s.trace ++ [event] } w k content = some after) : Kept after := by
  obtain ⟨item, wrapper, rest, stands, mine⟩ := kept.inside w k framed
  obtain ⟨promise, found, _⟩ := hand_owned cfg now s kept reached w item wrapper rest stands
  rw [mine] at found
  obtain ⟨history, unsettled, given, ran, one⟩ := framed_inside cfg now s kept reached w k framed promise found
  apply settle_kept s after kept w k item wrapper rest stands mine (some k) framed _ event tells content promise found
    unsettled given ran _ _ settled
  · intro j apart same
    exact apart (Option.some.inj same).symm
  · rw [if_pos rfl]
    exact one
  · rw [history]
    exact story promise.item

theorem move_kept (cfg : Pool.TaskProcessorConfig) (now : Int) (s after : State T R X) (kept : Kept s)
    (reached : Reached cfg now s.pool) (moves : Move s after) : Kept after := by
  cases moves with
  | refuse item => exact refuse_kept cfg now s kept reached item
  | request owner item token pool taken => exact request_kept cfg now s kept reached owner item token pool taken
  | invoke w item wrapper rest stands idle => exact invoke_kept cfg now s kept reached w item wrapper rest stands idle
  | cancel w item wrapper rest _ stands idle settled =>
      exact cancel_kept cfg now s after kept reached w item wrapper rest stands idle settled
  | returns w k r _ inside settled =>
      exact end_kept cfg now s after kept reached w k inside (.returned k r) rfl _ (fun _ => .returned r) settled
  | throws w k x _ inside settled =>
      exact end_kept cfg now s after kept reached w k inside (.threw k x) rfl _ (fun _ => .threw x) settled
  | pool action pool other taken => exact pool_kept s kept action pool other taken
  | token tokens => exact ⟨kept.owned, kept.inside, kept.known, kept.told⟩

theorem construct_kept (cfg : Pool.TaskProcessorConfig) (now : Int) : Kept (construct cfg now : State T R X) := by
  refine ⟨List.forall_mem_nil _, ?_, List.forall_mem_nil _, ?_⟩
  · intro w k framed
    have none := List.eq_of_mem_replicate (List.mem_of_getElem? framed)
    cases none
  · intro k promise found
    cases found

theorem reachable_kept (cfg : Pool.TaskProcessorConfig) (now : Int) (s : State T R X)
    (reachable : Machine.Reachable step (fun _ _ => True) (construct cfg now) s) : Kept s := by
  refine Machine.reachable_invariant step _ _ Kept (construct_kept cfg now) ?_ s reachable
  intro before action after earlier kept _ taken
  exact move_kept cfg now before after kept (reachable_pool cfg now before earlier) (step_move before after action taken)

end Vectro.Futures
