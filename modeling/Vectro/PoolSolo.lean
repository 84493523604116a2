import Vectro.PoolMoves

set_option autoImplicit false

namespace Vectro.Pool

variable {T W : Type}

def SubmitPc.aimsFirst (threads : Nat) : SubmitPc → Prop
  | .rotate | .divide _ => threads = 1
  | .push idx => idx = 0
  | _ => True

def WorkerPc.bystander : WorkerPc T W → Bool
  | .vector | .sizes _ _ | .policy _ | .steal _ | .subtract _ | .processed _ | .lockCallbacks _ | .callbacks _ _
  | .wrappers _ _ => false
  | _ => true

-- In FIFO mode, or with a single thread, every task goes through queue 0 and
-- only worker 0 ever takes one.
structure Solo (s : State T W) : Prop where
  single : s.cfg.mode = .fifo ∨ s.cfg.numThreads = 1
  threads : s.workers.length = s.cfg.numThreads
  aims : ∀ call ∈ s.calls, call.pc.aimsFirst s.cfg.numThreads
  queues : ∀ (q : Nat) (queue : List (TaskItem T W)), s.queues[q]? = some queue → q ≠ 0 → queue = []
  workers : ∀ (w : Nat) (pc : WorkerPc T W), s.workers[w]? = some pc → w ≠ 0 → pc.bystander = true

theorem construct_solo (cfg : TaskProcessorConfig) (now : Int) (single : cfg.mode = .fifo ∨ cfg.numThreads = 1) :
    Solo (construct cfg now : State T W) where
  single := single
  threads := List.length_replicate
  aims := by simp [construct]
  queues := fun q queue inside _ => (List.mem_replicate.mp (List.mem_of_getElem? inside)).2
  workers := by
    intro w pc found _
    rw [(List.mem_replicate.mp (List.mem_of_getElem? found)).2]
    rfl

theorem solo_other_queue (s : State T W) (solo : Solo s) (idx : Nat) (queue next : List (TaskItem T W))
    (inside : s.queues[idx]? = some queue) (nonempty : queue ≠ []) (q : Nat) (other : List (TaskItem T W))
    (present : (s.queues.set idx next)[q]? = some other) (later : q ≠ 0) : other = [] := by
  have differs : idx ≠ q := by
    rintro rfl
    exact nonempty (solo.queues idx queue inside later)
  rw [List.getElem?_set_ne differs] at present
  exact solo.queues q other present later

theorem call_move_solo (s after : State T W) (i : Nat) (call : Call T W) (found : s.calls[i]? = some call)
    (moves : CallMove s i call after) (solo : Solo s) : Solo after := by
  have kept : ∀ pc : SubmitPc, pc.aimsFirst s.cfg.numThreads →
      ∀ other ∈ s.calls.set i { call with pc := pc }, other.pc.aimsFirst s.cfg.numThreads :=
    fun pc => Tally.forall_mem_set (fun call => call.pc.aimsFirst s.cfg.numThreads) s.calls i { call with pc := pc } solo.aims
  have aims := solo.aims call (List.mem_of_getElem? found)
  cases moves with
  | first here fifo => exact { solo with aims := kept (.push 0) rfl }
  | spread here spread => exact { solo with aims := kept .rotate (solo.single.resolve_left spread) }
  | rotate here =>
      rw [here] at aims
      exact { solo with aims := kept (.divide s.rrIndex) aims }
  | assign rr here some =>
      rw [here] at aims
      have one : s.cfg.numThreads = 1 := aims
      exact { solo with aims := kept (.push _) (by rw [one]; exact Nat.mod_one _) }
  | push idx queue here inside free room =>
      have zero : idx = 0 := by rwa [here] at aims
      refine { solo with aims := kept (.sample idx) trivial, queues := fun q other present later => ?_ }
      have same : s.queues[q]? = some other := by
        simpa only [State.setCall, State.emit, zero, List.getElem?_set_ne (Ne.symm later)] using present
      exact solo.queues q other same later
  | signal here free =>
      refine { solo with aims := kept .returned trivial, threads := by simpa using solo.threads, workers := ?_ }
      intro w pc present later
      simp only [State.setCall, State.signalAll, List.getElem?_map, Option.map_eq_some_iff] at present
      obtain ⟨old, known, rfl⟩ := present
      have stands := solo.workers w old known later
      cases old <;> exact stands
  | divide | outside => exact { solo with }
  | pass curr next here passes goes =>
      refine { solo with aims := kept next ?_ }
      rcases goes with rfl | rfl <;> trivial
  | _ => exact { solo with aims := kept _ trivial }

theorem worker_move_solo (s after : State T W) (w : Nat) (pc : WorkerPc T W) (found : s.workers[w]? = some pc)
    (moves : WorkerMove s w pc after) (solo : Solo s) : Solo after := by
  have kept : ∀ next : WorkerPc T W, (w ≠ 0 → pc.bystander = true → next.bystander = true) →
      ∀ (j : Nat) (other : WorkerPc T W), (s.workers.set w next)[j]? = some other → j ≠ 0 → other.bystander = true := by
    intro next stays j other present later
    by_cases same : w = j
    · subst j
      rw [List.getElem?_set_self (List.getElem?_eq_some_iff.mp found).1] at present
      exact Option.some.inj present ▸ stays later (solo.workers w pc found later)
    · rw [List.getElem?_set_ne same] at present
      exact solo.workers j other present later
  have length : ∀ next : WorkerPc T W, (s.workers.set w next).length = s.cfg.numThreads := fun next => by
    simpa using solo.threads
  cases moves with
  | take item rest inside free =>
      refine { solo with threads := length _, workers := kept _ fun later _ => ?_,
                         queues := solo_other_queue s solo w _ rest inside (by simp) }
      exact absurd (solo.queues w _ inside later) (by simp)
  | scan stealing =>
      refine { solo with threads := length _, workers := kept _ fun later _ => ?_ }
      have one : s.cfg.numThreads = 1 := solo.single.resolve_left (by simp [stealing])
      have bound := (List.getElem?_eq_some_iff.mp found).1
      rw [solo.threads, one] at bound
      omega
  | steal vic queue item inside free last =>
      have nonempty : queue ≠ [] := fun empty => by simp [empty] at last
      exact { solo with threads := length _, workers := kept _ fun _ stands => stands,
                        queues := solo_other_queue s solo vic queue _ inside nonempty }
  | outside => exact { solo with }
  | vector | size | scanned | policy | subtract | processed | lockCallbacks | callback | called | wrapper =>
      exact { solo with threads := length _, workers := kept _ fun _ stands => by simp [WorkerPc.bystander] at stands }
  | _ => exact { solo with threads := length _, workers := kept _ fun _ _ => rfl }

theorem move_solo (s after : State T W) (action : Action T W) (moves : Move s action after)
    (fixed : ∀ cfg, action ≠ .updateConfig cfg) (solo : Solo s) : Solo after := by
  cases moves with
  | submit owner payload wrappers sequential =>
      refine { solo with aims := ?_ }
      intro call member
      rcases List.mem_append.mp member with old | new
      · exact solo.aims call old
      · rw [List.mem_singleton.mp new]
        trivial
  | call _ i call after acts found moves => exact call_move_solo s after i call found moves solo
  | worker _ w pc after acts found moves => exact worker_move_solo s after w pc found moves solo
  | destroy pc after here moves =>
      cases moves with
      | signal =>
          refine { solo with threads := by simpa using solo.threads, workers := ?_ }
          intro w pc present later
          simp only [State.signalAll, List.getElem?_map, Option.map_eq_some_iff] at present
          obtain ⟨old, known, rfl⟩ := present
          have stands := solo.workers w old known later
          cases old <;> exact stands
      | _ => exact { solo with }
  | updateConfig cfg => exact absurd rfl (fixed cfg)
  | _ => exact { solo with }

theorem reachable_solo (guard : State T W → Action T W → Prop)
    (fixed : ∀ s cfg, ¬ guard s (.updateConfig cfg)) (cfg : TaskProcessorConfig) (now : Int)
    (single : cfg.mode = .fifo ∨ cfg.numThreads = 1) (s : State T W)
    (reachable : Machine.Reachable step guard (construct cfg now) s) : Solo s := by
  refine Machine.reachable_invariant step guard _ Solo (construct_solo cfg now single) ?_ s reachable
  intro before action after _ solo allowed taken
  refine move_solo before after action (step_move before after action taken).2 ?_ solo
  rintro cfg rfl
  exact fixed before cfg allowed

end Vectro.Pool
