import Vectro.PoolStories

set_option autoImplicit false

namespace Vectro.Futures

open Tally

variable {T R X : Type}

theorem alive_iff (pool : Pool.State T Wrapper) (k : Nat) :
    alive pool k = true ↔
      (∃ call ∈ pool.calls, call.pc.over = false ∧ call.wrappers.any (carries k) = true) ∨
      (pool.destructor ≠ .destroyed ∧ ∃ queue ∈ pool.queues, ∃ item ∈ queue, item.wrappers.any (carries k) = true) ∨
      (∃ pc ∈ pool.workers, pc.unrun.any (carries k) = true) := by
  simp only [alive, Bool.or_eq_true, Bool.and_eq_true, List.any_eq_true, Bool.not_eq_true', bne_iff_ne, or_assoc]

-- A copy of a promise only comes from another one. The steps are taken apart
-- by where the copy is found afterwards.
theorem set_call_alive (pool : Pool.State T Wrapper) (k i : Nat) (call other : Pool.Call T Wrapper) (pc : Pool.SubmitPc)
    (found : pool.calls[i]? = some call) (active : call.pc.over = false)
    (member : other ∈ pool.calls.set i { call with pc := pc }) (going : other.pc.over = false)
    (carried : other.wrappers.any (carries k) = true) : alive pool k = true := by
  rw [alive_iff]
  rcases List.mem_or_eq_of_mem_set member with old | rfl
  · exact .inl ⟨other, old, going, carried⟩
  · exact .inl ⟨call, List.mem_of_getElem? found, active, carried⟩

theorem call_move_alive (pool after : Pool.State T Wrapper) (k i : Nat) (call : Pool.Call T Wrapper)
    (found : pool.calls[i]? = some call) (moves : Pool.CallMove pool i call after) (lives : alive after k = true) :
    alive pool k = true := by
  have active := Pool.call_move_active pool after i call moves
  rcases (alive_iff after k).mp lives with ⟨other, member, going, carried⟩ | ⟨standing, queue, member, item, inside, carried⟩ |
    ⟨pc, member, carried⟩
  · cases moves with
    | divide | outside => exact (alive_iff pool k).mpr (.inl ⟨other, member, going, carried⟩)
    | _ => exact set_call_alive pool k i call other _ found active member going carried
  · cases moves with
    | push idx queue' here inside' free room =>
        rcases List.mem_or_eq_of_mem_set member with old | rfl
        · exact (alive_iff pool k).mpr (.inr (.inl ⟨standing, queue, old, item, inside, carried⟩))
        · rcases List.mem_append.mp inside with older | new
          · exact (alive_iff pool k).mpr
              (.inr (.inl ⟨standing, queue', List.mem_of_getElem? inside', item, older, carried⟩))
          · rw [List.mem_singleton.mp new] at carried
            exact (alive_iff pool k).mpr (.inl ⟨call, List.mem_of_getElem? found, active, carried⟩)
    | _ => exact (alive_iff pool k).mpr (.inr (.inl ⟨standing, queue, member, item, inside, carried⟩))
  · cases moves with
    | signal here free =>
        obtain ⟨old, present, rfl⟩ := List.mem_map.mp member
        refine (alive_iff pool k).mpr (.inr (.inr ⟨old, present, ?_⟩))
        cases old <;> exact carried
    | _ => exact (alive_iff pool k).mpr (.inr (.inr ⟨pc, member, carried⟩))

theorem taken_alive (pool after : Pool.State T Wrapper) (k w idx : Nat) (queue rest : List (Pool.TaskItem T Wrapper))
    (item : Pool.TaskItem T Wrapper) (standing : pool.destructor ≠ .destroyed) (inside : pool.queues[idx]? = some queue)
    (first : item ∈ queue) (fewer : ∀ other ∈ rest, other ∈ queue) (lives : alive after k = true)
    (calls : after.calls = pool.calls := by rfl) (queues : after.queues = pool.queues.set idx rest := by rfl)
    (workers : after.workers = pool.workers.set w (.subtract item) := by rfl) : alive pool k = true := by
  have present := List.mem_of_getElem? inside
  rw [alive_iff]
  rcases (alive_iff after k).mp lives with ⟨call, member, going, carried⟩ | ⟨_, other, member, task, within, carried⟩ |
    ⟨pc, member, carried⟩
  · exact .inl ⟨call, calls ▸ member, going, carried⟩
  · rw [queues] at member
    rcases List.mem_or_eq_of_mem_set member with old | rfl
    · exact .inr (.inl ⟨standing, other, old, task, within, carried⟩)
    · exact .inr (.inl ⟨standing, queue, present, task, fewer task within, carried⟩)
  · rw [workers] at member
    rcases List.mem_or_eq_of_mem_set member with old | rfl
    · exact .inr (.inr ⟨pc, old, carried⟩)
    · exact .inr (.inl ⟨standing, queue, present, item, first, carried⟩)

theorem moved_alive (pool after : Pool.State T Wrapper) (k w : Nat) (pc next : Pool.WorkerPc T Wrapper)
    (found : pool.workers[w]? = some pc) (workers : after.workers = pool.workers.set w next)
    (fewer : ∀ wrapper ∈ next.unrun, wrapper ∈ pc.unrun) (lives : alive after k = true)
    (calls : after.calls = pool.calls := by rfl) (queues : after.queues = pool.queues := by rfl)
    (destructor : after.destructor = pool.destructor := by rfl) : alive pool k = true := by
  rw [alive_iff]
  rw [alive_iff, calls, queues, destructor, workers] at lives
  rcases lives with called | queued | ⟨other, member, carried⟩
  · exact .inl called
  · exact .inr (.inl queued)
  · rcases List.mem_or_eq_of_mem_set member with old | rfl
    · exact .inr (.inr ⟨other, old, carried⟩)
    · obtain ⟨wrapper, within, mine⟩ := List.any_eq_true.mp carried
      exact .inr (.inr ⟨pc, List.mem_of_getElem? found, List.any_eq_true.mpr ⟨wrapper, fewer wrapper within, mine⟩⟩)

-- A worker that still moves has not been joined, so the processor stands.
theorem mover_standing (pool after : Pool.State T Wrapper) (w : Nat) (pc : Pool.WorkerPc T Wrapper)
    (joined : Pool.Joined pool) (found : pool.workers[w]? = some pc) (moves : Pool.WorkerMove pool w pc after) :
    pool.destructor ≠ .destroyed := by
  intro gone
  have bound := (List.getElem?_eq_some_iff.mp found).1
  have finished := joined.finished w pc (by rw [gone]; exact bound) found
  rw [finished] at moves
  cases moves with
  | outside _ beyond => rcases beyond with ⟨other, _⟩ | ⟨_, _, other, _⟩ | ⟨_, other, _⟩ <;> cases other

theorem worker_move_alive (pool after : Pool.State T Wrapper) (k w : Nat) (pc : Pool.WorkerPc T Wrapper)
    (joined : Pool.Joined pool) (found : pool.workers[w]? = some pc) (moves : Pool.WorkerMove pool w pc after)
    (lives : alive after k = true) : alive pool k = true := by
  have standing := mover_standing pool after w pc joined found moves
  cases moves with
  | take item rest inside free =>
      exact taken_alive pool _ k w w (item :: rest) rest item standing inside List.mem_cons_self
        (fun _ later => List.mem_cons_of_mem item later) lives
  | steal vic queue item inside free last =>
      exact taken_alive pool _ k w vic queue queue.dropLast item standing inside (List.mem_of_getLast? last)
        (fun _ member => List.dropLast_subset queue member) lives
  | wrapper item wrapper remaining threw =>
      exact moved_alive pool _ k w _ (.wrappers item remaining) found rfl
        (fun _ later => List.mem_cons_of_mem wrapper later) lives
  | outside => exact lives
  | subtract item => exact moved_alive pool _ k w _ (.processed item) found rfl (fun _ member => member) lives
  | processed item => exact moved_alive pool _ k w _ (.lockCallbacks item) found rfl (fun _ member => member) lives
  | lockCallbacks item free => exact moved_alive pool _ k w _ (.callbacks item 0) found rfl (fun _ member => member) lives
  | callback item j threw more =>
      exact moved_alive pool _ k w _ (.callbacks item (j + 1)) found rfl (fun _ member => member) lives
  | called item j ended =>
      exact moved_alive pool _ k w _ (.wrappers item item.wrappers) found rfl (fun _ member => member) lives
  | _ => exact moved_alive pool _ k w _ _ found rfl (List.forall_mem_nil _) lives

theorem move_alive (pool after : Pool.State T Wrapper) (action : Pool.Action T Wrapper) (k : Nat)
    (joined : Pool.Joined pool) (moves : Pool.Move pool action after)
    (others : ∀ task ∈ action.task, task.2.any (carries k) = false) (lives : alive after k = true) :
    alive pool k = true := by
  cases moves with
  | submit owner payload wrappers sequential =>
      have other : wrappers.any (carries k) = false := others (payload, wrappers) List.mem_cons_self
      rw [alive_iff] at lives ⊢
      rcases lives with ⟨call, member, going, carried⟩ | later
      · rcases List.mem_append.mp member with old | new
        · exact .inl ⟨call, old, going, carried⟩
        · rw [List.mem_singleton.mp new, other] at carried
          cases carried
      · exact .inr later
  | call _ i call after acts found moves => exact call_move_alive pool after k i call found moves lives
  | worker _ w pc after acts found moves => exact worker_move_alive pool after k w pc joined found moves lives
  | destroy pc after here moves =>
      have standing : pool.destructor ≠ .destroyed := by
        rw [here]
        cases moves with
        | drain next pc stands goes => rcases stands with rfl | ⟨start, rfl | rfl⟩ <;> nofun
        | _ => nofun
      rw [alive_iff] at lives ⊢
      rcases lives with called | ⟨_, queued⟩ | ⟨pc, member, carried⟩
      · refine .inl ?_
        cases moves <;> exact called
      · refine .inr (.inl ⟨standing, ?_⟩)
        cases moves <;> exact queued
      · cases moves with
        | signal =>
            obtain ⟨old, present, rfl⟩ := List.mem_map.mp member
            refine .inr (.inr ⟨old, present, ?_⟩)
            cases old <;> exact carried
        | _ => exact .inr (.inr ⟨pc, member, carried⟩)
  | _ => exact lives

theorem stands_alive (pool : Pool.State T Wrapper) (w : Nat) (item : Pool.TaskItem T Wrapper) (wrapper : Wrapper)
    (rest : List Wrapper) (stands : pool.workers[w]? = some (.wrappers item (wrapper :: rest))) :
    alive pool wrapper.promise = true := by
  rw [alive_iff]
  refine .inr (.inr ⟨_, List.mem_of_getElem? stands, ?_⟩)
  exact List.any_eq_true.mpr ⟨wrapper, List.mem_cons_self, carries_promise wrapper⟩

theorem satisfy_promises (s after : State T R X) (w j k : Nat) (content : Content R X) (promise : Promise T R X)
    (settled : satisfy s w j content = some after) (found : s.promises[k]? = some promise)
    (kept : promise.content ≠ none ∨ j ≠ k) : after.promises[k]? = some promise := by
  rw [satisfy] at settled
  obtain ⟨other, there, moved⟩ := Option.bind_eq_some_iff.mp settled
  split at moved
  · rename_i unsettled
    obtain ⟨pool, taken, rfl⟩ := Option.map_eq_some_iff.mp moved
    have apart : j ≠ k := by
      rcases kept with some | apart
      · intro same
        rw [same, found] at there
        cases there
        exact some unsettled
      · exact apart
    exact (List.getElem?_set_ne apart).trans found
  · obtain ⟨pool, taken, rfl⟩ := Option.map_eq_some_iff.mp moved
    exact found

-- Only a wrapper in the hands of a worker changes its promise, and only once.
theorem move_promises (s after : State T R X) (kept : Kept s) (k : Nat) (promise : Promise T R X)
    (found : s.promises[k]? = some promise) (moves : Move s after)
    (settled : promise.content ≠ none ∨ alive s.pool k = false) : after.promises[k]? = some promise := by
  have bound := (List.getElem?_eq_some_iff.mp found).1
  have apart : ∀ (w : Nat) (item : Pool.TaskItem T Wrapper) (wrapper : Wrapper) (rest : List Wrapper),
      s.pool.workers[w]? = some (.wrappers item (wrapper :: rest)) → promise.content ≠ none ∨ wrapper.promise ≠ k := by
    intro w item wrapper rest stands
    rcases settled with some | dead
    · exact .inl some
    · refine .inr fun same => ?_
      have lives := stands_alive s.pool w item wrapper rest stands
      rw [same, dead] at lives
      cases lives
  cases moves with
  | refuse item => exact (List.getElem?_append_left bound).trans found
  | request owner item token pool taken => exact (List.getElem?_append_left bound).trans found
  | invoke | pool | token => exact found
  | cancel w item wrapper rest _ stands idle ended =>
      exact satisfy_promises _ after w _ k _ promise ended found (apart w item wrapper rest stands)
  | returns w j r _ inside ended =>
      obtain ⟨item, wrapper, rest, stands, same⟩ := kept.inside w j inside
      exact satisfy_promises _ after w j k _ promise ended found (same ▸ apart w item wrapper rest stands)
  | throws w j x _ inside ended =>
      obtain ⟨item, wrapper, rest, stands, same⟩ := kept.inside w j inside
      exact satisfy_promises _ after w j k _ promise ended found (same ▸ apart w item wrapper rest stands)

theorem future_ready (s : State T R X) (k : Nat) (promise : Promise T R X) (content : Content R X)
    (found : s.promises[k]? = some promise) (settled : promise.content = some content) :
    s.future k = some (.ready content) := by
  rw [State.future, found, Option.map_some]
  simp only [settled]

theorem future_open (s : State T R X) (k : Nat) (promise : Promise T R X) (found : s.promises[k]? = some promise)
    (unsettled : promise.content = none) : s.future k = some (if alive s.pool k then .pending else .broken) := by
  rw [State.future, found, Option.map_some]
  simp only [unsettled]

theorem dead_stays (s after : State T R X) (joined : Pool.Joined s.pool) (k : Nat) (known : k < s.promises.length)
    (moves : Move s after) (dead : alive s.pool k = false) : alive after.pool k = false := by
  rcases move_pool s after moves with same | ⟨action, taken, others⟩
  · rw [same]
    exact dead
  · have foreign : ∀ task ∈ action.task, task.2.any (carries k) = false := by
      intro task member
      rw [List.any_eq_false]
      intro wrapper inside mine
      exact Nat.ne_of_lt known ((beq_iff_eq.mp mine).symm.trans (others task member wrapper inside))
    by_contra lives
    rw [Bool.not_eq_false] at lives
    have back := move_alive s.pool after.pool action k joined (Pool.step_move s.pool after.pool action taken).2 foreign
      lives
    rw [dead] at back
    cases back

-- A settled future shows the same ever after.
theorem future_stays (s after : State T R X) (kept : Kept s) (joined : Pool.Joined s.pool) (k : Nat)
    (promise : Promise T R X) (found : s.promises[k]? = some promise) (moves : Move s after)
    (settled : s.future k ≠ some .pending) : after.future k = s.future k := by
  cases kind : promise.content with
  | some content =>
      have same := move_promises s after kept k promise found moves (.inl (by rw [kind]; nofun))
      rw [future_ready s k promise content found kind, future_ready after k promise content same kind]
  | none =>
      have before := future_open s k promise found kind
      have dead : alive s.pool k = false := by
        by_contra lives
        rw [if_pos (Bool.not_eq_false _ ▸ lives)] at before
        exact settled before
      have gone := dead_stays s after joined k (List.getElem?_eq_some_iff.mp found).1 moves dead
      have same := move_promises s after kept k promise found moves (.inr dead)
      rw [before, future_open after k promise same kind, dead, gone]

-- What a story says about the calls of fn and of the promise.
section
variable {k : Nat} {item : T} {events : List (Event T R X)} {content : Option (Content R X)} {given ran inside : Nat}

theorem story_invocations (story : Story k item events content given ran inside) :
    invocations k events = [] ∨ invocations k events = [item] := by
  cases story <;> simp [invocations]

theorem story_satisfactions (story : Story k item events content given ran inside) :
    satisfactions k events = content.toList := by
  cases story <;> simp [satisfactions]

theorem story_refused (story : Story k item events content given ran inside) (refused : .requested k true ∈ events) :
    given = 0 ∧ invocations k events = [] ∧ content = some beforeEnqueue := by
  cases story <;> simp [invocations] at refused ⊢

theorem story_returned (story : Story k item events content given ran inside) (r : R)
    (returned : .returned k r ∈ events) : content = some (.value r) := by
  cases story <;> simp at returned
  rw [returned]

theorem story_threw (story : Story k item events content given ran inside) (x : X) (threw : .threw k x ∈ events) :
    content = some (.exception x) := by
  cases story <;> simp at threw
  rw [threw]

theorem story_canceled (story : Story k item events content given ran inside) (canceled : .read k true ∈ events) :
    invocations k events = [] ∧ content = some beforeExecution := by
  cases story <;> simp [invocations] at canceled ⊢

theorem story_ran (story : Story k item events content given ran inside) (called : ran ≠ 0) :
    (∃ r, .returned k r ∈ events) ∨ (∃ x, .threw k x ∈ events) ∨ .read k true ∈ events := by
  cases story <;> simp at called ⊢

theorem story_given (story : Story k item events content given ran inside) : given ≤ 1 := by
  cases story <;> decide

theorem story_waits (story : Story k item events content given ran inside) (made : given ≠ 0) (uncalled : ran = 0) :
    content = none := by
  cases story <;> simp at made uncalled ⊢

end

theorem mem_about (k : Nat) (trace : List (Event T R X)) (event : Event T R X) (tells : event.promise = k) :
    event ∈ trace ↔ event ∈ about k trace := by
  rw [about, List.mem_filter, tells, beq_self_eq_true]
  exact (and_iff_left rfl).symm

theorem invocations_about (k : Nat) (trace : List (Event T R X)) :
    invocations k trace = invocations k (about k trace) := by
  rw [invocations, invocations, about, List.filterMap_filter]
  apply List.filterMap_congr
  intro event _
  cases event <;> simp +contextual [Event.promise]

theorem satisfactions_about (k : Nat) (trace : List (Event T R X)) :
    satisfactions k trace = satisfactions k (about k trace) := by
  rw [satisfactions, satisfactions, about, List.filterMap_filter]
  apply List.filterMap_congr
  intro event _
  cases event <;> simp +contextual [Event.promise]

-- SubmitWithResult has returned: no call with the wrapper is in progress.
def Handed (s : State T R X) (k : Nat) : Prop :=
  ∀ call ∈ s.pool.calls, call.wrappers.any (carries k) = true → call.pc.over = true

-- Everything that is promised of the future of one SubmitWithResult.
structure Settled (s : State T R X) (k : Nat) (promise : Promise T R X) : Prop where
  invokedOnce : (invocations k s.trace).length ≤ 1
  invokedOnItem : ∀ item ∈ invocations k s.trace, item = promise.item
  satisfiedOnce : (satisfactions k s.trace).length ≤ 1
  refused : .requested k true ∈ s.trace →
    (∀ call ∈ s.pool.calls, call.wrappers.any (carries k) = false) ∧ invocations k s.trace = [] ∧
      s.future k = some (.ready beforeEnqueue)
  ran : (∃ wrapper ∈ Pool.ranWrappers s.pool.trace, wrapper.promise = k) →
    (∃ r, .returned k r ∈ s.trace) ∨ (∃ x, .threw k x ∈ s.trace) ∨ .read k true ∈ s.trace
  returned : ∀ r, .returned k r ∈ s.trace → s.future k = some (.ready (.value r))
  threw : ∀ x, .threw k x ∈ s.trace → s.future k = some (.ready (.exception x))
  canceled : .read k true ∈ s.trace → invocations k s.trace = [] ∧ s.future k = some (.ready beforeExecution)
  dropped : ∀ call ∈ s.pool.calls, call.wrappers.any (carries k) = true → call.pc = .dropped → s.future k = some .broken
  abandoned : s.pool.destructor = .destroyed → Handed s k →
    (∃ queue ∈ s.pool.queues, ∃ item ∈ queue, item.wrappers.any (carries k) = true) → s.future k = some .broken
  destroyed : s.pool.destructor = .destroyed → Handed s k → s.future k ≠ some .pending
  stays : ∀ (action : Action T R X) (after : State T R X), step s action = some after → s.future k ≠ some .pending →
    after.future k = s.future k

theorem any_count (k : Nat) (wrappers : List Wrapper) (carried : wrappers.any (carries k) = true) :
    0 < wrappers.countP (carries k) := by
  rw [List.countP_pos_iff]
  exact List.any_eq_true.mp carried

theorem lined_pos (pool : Pool.State T Wrapper) (k : Nat) (queue : List (Pool.TaskItem T Wrapper))
    (item : Pool.TaskItem T Wrapper) (present : queue ∈ pool.queues) (member : item ∈ queue)
    (carried : item.wrappers.any (carries k) = true) : 0 < pool.lined (carries k) := by
  have one := any_count k item.wrappers carried
  have queued := weight_le_total (fun item : Pool.TaskItem T Wrapper => item.wrappers.countP (carries k)) queue item member
  have total := weight_le_total (Pool.queuedWrappers (carries k)) pool.queues queue present
  exact Nat.lt_of_lt_of_le one (Nat.le_trans queued total)

theorem hand_pos (pool : Pool.State T Wrapper) (k : Nat) (pc : Pool.WorkerPc T Wrapper) (present : pc ∈ pool.workers)
    (carried : pc.unrun.any (carries k) = true) : 0 < pool.inHand (carries k) :=
  Nat.lt_of_lt_of_le (any_count k pc.unrun carried)
    (weight_le_total (fun pc : Pool.WorkerPc T Wrapper => pc.unrun.countP (carries k)) pool.workers pc present)

-- One call at most carries a promise.
theorem lone_call (pool : Pool.State T Wrapper) (k : Nat) (one : pool.given (carries k) = 1)
    (first second : Pool.Call T Wrapper) (former : first ∈ pool.calls) (latter : second ∈ pool.calls)
    (holds : first.wrappers.any (carries k) = true) (keeps : second.wrappers.any (carries k) = true) : first = second := by
  obtain ⟨i, cell, _, _, unique⟩ := total_eq_one _ pool.calls one
  obtain ⟨v, there⟩ := List.mem_iff_getElem?.mp former
  obtain ⟨w, here⟩ := List.mem_iff_getElem?.mp latter
  have same : v = w := by
    rw [unique v first there (Nat.pos_iff_ne_zero.mp (any_count k _ holds)),
      unique w second here (Nat.pos_iff_ne_zero.mp (any_count k _ keeps))]
  rw [same, here] at there
  exact (Option.some.inj there).symm

theorem future_broken (s : State T R X) (k : Nat) (promise : Promise T R X) (found : s.promises[k]? = some promise)
    (unsettled : promise.content = none) (dead : ¬ alive s.pool k = true) : s.future k = some .broken := by
  rw [future_open s k promise found unsettled, if_neg dead]

section
variable (cfg : Pool.TaskProcessorConfig) (now : Int) (s : State T R X) (k : Nat) (promise : Promise T R X)
variable (reached : Reached cfg now s.pool) (kept : Kept s) (found : s.promises[k]? = some promise)
include reached kept found

theorem dropped_broken (call : Pool.Call T Wrapper) (present : call ∈ s.pool.calls)
    (mine : call.wrappers.any (carries k) = true) (dropped : call.pc = .dropped) : s.future k = some .broken := by
  have told := kept.told k promise found
  have carried := Pool.reachable_carried (carries k) _ cfg now s.pool reached
  have bounded := story_given told
  have waits : 0 < s.pool.waiting (carries k) := by
    have counted : call.waiting (carries k) = call.wrappers.countP (carries k) := by
      rw [Pool.Call.waiting, dropped]
      rfl
    have below := weight_le_total (Pool.Call.waiting (carries k)) s.pool.calls call present
    rw [counted] at below
    exact Nat.lt_of_lt_of_le (any_count k call.wrappers mine) below
  rw [Pool.Carried] at carried
  apply future_broken s k promise found (story_waits told (by omega) (by omega))
  rw [alive_iff]
  rintro (⟨other, member, going, same⟩ | ⟨_, queue, member, item, inside, same⟩ | ⟨pc, member, same⟩)
  · rw [lone_call s.pool k (by omega) other call member present same mine, dropped] at going
    cases going
  · have queued := lined_pos s.pool k queue item member inside same
    omega
  · have held := hand_pos s.pool k pc member same
    omega

theorem abandoned_broken (gone : s.pool.destructor = .destroyed) (handed : Handed s k)
    (queue : List (Pool.TaskItem T Wrapper)) (item : Pool.TaskItem T Wrapper) (present : queue ∈ s.pool.queues)
    (inside : item ∈ queue) (mine : item.wrappers.any (carries k) = true) : s.future k = some .broken := by
  have told := kept.told k promise found
  have carried := Pool.reachable_carried (carries k) _ cfg now s.pool reached
  have bounded := story_given told
  have queued := lined_pos s.pool k queue item present inside mine
  rw [Pool.Carried] at carried
  apply future_broken s k promise found (story_waits told (by omega) (by omega))
  rw [alive_iff]
  rintro (⟨other, member, going, same⟩ | ⟨standing, _⟩ | ⟨pc, member, same⟩)
  · rw [handed other member same] at going
    cases going
  · exact standing gone
  · have held := hand_pos s.pool k pc member same
    omega

omit kept in
theorem destroyed_settled (gone : s.pool.destructor = .destroyed) (handed : Handed s k) : s.future k ≠ some .pending := by
  have joined := Pool.reachable_joined _ cfg now s.pool reached
  cases kind : promise.content with
  | some content =>
      rw [future_ready s k promise content found kind]
      nofun
  | none =>
      have dead : ¬ alive s.pool k = true := by
        rw [alive_iff]
        rintro (⟨other, member, going, same⟩ | ⟨standing, _⟩ | ⟨pc, member, same⟩)
        · rw [handed other member same] at going
          cases going
        · exact standing gone
        · obtain ⟨w, there⟩ := List.mem_iff_getElem?.mp member
          have bound := (List.getElem?_eq_some_iff.mp there).1
          rw [joined.finished w pc (by rw [gone]; exact bound) there] at same
          cases same
      rw [future_broken s k promise found kind dead]
      nofun

end

theorem refused_settled (s : State T R X) (k : Nat) (promise : Promise T R X) (kept : Kept s)
    (found : s.promises[k]? = some promise) (refused : .requested k true ∈ s.trace) :
    (∀ call ∈ s.pool.calls, call.wrappers.any (carries k) = false) ∧ invocations k s.trace = [] ∧
      s.future k = some (.ready beforeEnqueue) := by
  have told := kept.told k promise found
  obtain ⟨none, uncalled, settled⟩ := story_refused told ((mem_about k s.trace (.requested k true) rfl).mp refused)
  refine ⟨?_, (invocations_about k s.trace).trans uncalled, future_ready s k promise _ found settled⟩
  intro call member
  by_contra carried
  rw [Bool.not_eq_false] at carried
  have weightless := (total_eq_zero _ s.pool.calls).mp none call member
  exact Nat.lt_irrefl 0 (weightless ▸ any_count k call.wrappers carried)

theorem futures_settled (cfg : Pool.TaskProcessorConfig) (now : Int) (s : State T R X)
    (reachable : Machine.Reachable step (fun _ _ => True) (construct cfg now) s) (k : Nat) (promise : Promise T R X)
    (found : s.promises[k]? = some promise) : Settled s k promise := by
  have reached := reachable_pool cfg now s reachable
  have kept := reachable_kept cfg now s reachable
  have joined := Pool.reachable_joined _ cfg now s.pool reached
  have told := kept.told k promise found
  refine ⟨?_, ?_, ?_, refused_settled s k promise kept found, ?_, ?_, ?_, ?_,
    dropped_broken cfg now s k promise reached kept found, ?_, destroyed_settled cfg now s k promise reached found, ?_⟩
  · rw [invocations_about]
    rcases story_invocations told with none | one
    · rw [none]
      exact Nat.zero_le 1
    · rw [one]
      exact Nat.le_refl 1
  · intro item member
    rw [invocations_about] at member
    rcases story_invocations told with none | one
    · rw [none] at member
      cases member
    · rw [one] at member
      exact List.mem_singleton.mp member
  · rw [satisfactions_about, story_satisfactions told]
    cases promise.content with
    | none => exact Nat.zero_le 1
    | some content => exact Nat.le_refl 1
  · rintro ⟨wrapper, called, mine⟩
    have counted : s.pool.ran (carries k) ≠ 0 := by
      rw [Pool.State.ran, Ne, List.countP_eq_zero]
      intro none
      exact none wrapper called (beq_iff_eq.mpr mine)
    rcases story_ran told counted with ⟨r, returned⟩ | ⟨x, threw⟩ | canceled
    · exact .inl ⟨r, (mem_about k s.trace (.returned k r) rfl).mpr returned⟩
    · exact .inr (.inl ⟨x, (mem_about k s.trace (.threw k x) rfl).mpr threw⟩)
    · exact .inr (.inr ((mem_about k s.trace (.read k true) rfl).mpr canceled))
  · intro r returned
    exact future_ready s k promise _ found (story_returned told r ((mem_about k s.trace _ rfl).mp returned))
  · intro x threw
    exact future_ready s k promise _ found (story_threw told x ((mem_about k s.trace _ rfl).mp threw))
  · intro canceled
    obtain ⟨uncalled, settled⟩ := story_canceled told ((mem_about k s.trace _ rfl).mp canceled)
    exact ⟨(invocations_about k s.trace).trans uncalled, future_ready s k promise _ found settled⟩
  · rintro gone handed ⟨queue, present, item, inside, mine⟩
    exact abandoned_broken cfg now s k promise reached kept found gone handed queue item present inside mine
  · intro action after taken settled
    exact future_stays s after kept joined k promise found (step_move s after action taken) settled

def oneWorker : Pool.TaskProcessorConfig := { numThreads := 1 }

-- The token is set while fn runs on the first item, and before the second is
-- submitted: the first future gets the value, the second is refused.
def canceledLate : List (Action Nat Nat String) :=
  [[.makeToken false, .submitWithResult 1 5 (some 0)], List.replicate 8 (.pool (.call 0)),
    List.replicate 9 (.pool (.worker 0)), [.enter 0, .setToken 0 true, .submitWithResult 2 6 (some 0), .returns 0 42]].flatten

theorem futures_settled_canceled_late :
    ∃ s : State Nat Nat String, Machine.Reachable step (fun _ _ => True) (construct oneWorker 0) s ∧
      s.future 0 = some (.ready (.value 42)) ∧ s.future 1 = some (.ready beforeEnqueue) ∧
      Settled s 0 ⟨5, some (.value 42)⟩ ∧ Settled s 1 ⟨6, some beforeEnqueue⟩ := by
  obtain ⟨s, reachable, shown⟩ := Machine.run_exhibits step (fun _ _ => True) (construct oneWorker 0) canceledLate
    (fun s => s.promises == [⟨5, some (.value 42)⟩, ⟨6, some beforeEnqueue⟩]) (by decide)
  have promises := beq_iff_eq.mp shown
  have first : s.promises[0]? = some ⟨5, some (.value 42)⟩ := by rw [promises]; rfl
  have second : s.promises[1]? = some ⟨6, some beforeEnqueue⟩ := by rw [promises]; rfl
  exact ⟨s, reachable, future_ready s 0 _ _ first rfl, future_ready s 1 _ _ second rfl,
    futures_settled oneWorker 0 s reachable 0 _ first, futures_settled oneWorker 0 s reachable 1 _ second⟩

end Vectro.Futures
