import Vectro.PoolMoves

set_option autoImplicit false

namespace Vectro.Pool

variable {T W : Type}

def InRangePolicy (policy : StealPolicy) : Prop :=
  ∀ sizes vic, policy sizes vic = true → sizes ≠ [] → vic < sizes.length

theorem foldl_max_mem (sizes : List Nat) (start : Nat) : sizes.foldl max start = start ∨ sizes.foldl max start ∈ sizes := by
  induction sizes generalizing start with
  | nil => exact .inl rfl
  | cons size rest ih =>
      rw [List.foldl_cons]
      rcases ih (max start size) with same | later
      · rcases Nat.le_total start size with less | more
        · exact .inr (by rw [same, Nat.max_eq_right less]; exact List.mem_cons_self)
        · exact .inl (by rw [same, Nat.max_eq_left more])
      · exact .inr (List.mem_cons_of_mem size later)

theorem default_steal_policy_in_range : InRangePolicy fun sizes vic => vic == defaultStealPolicy sizes := by
  intro sizes vic answer nonempty
  have same : vic = defaultStealPolicy sizes := by simpa using answer
  rw [same, defaultStealPolicy, List.idxOf_lt_length_iff]
  cases sizes with
  | nil => exact absurd rfl nonempty
  | cons size rest =>
      rw [List.foldl_cons, Nat.zero_max]
      rcases foldl_max_mem rest size with first | later
      · rw [first]
        exact List.mem_cons_self
      · exact List.mem_cons_of_mem size later

-- steal_policy_ is chosen by the constructor: the configured one, if there
-- is one, or the default.
def PolicyInRange (cfg : TaskProcessorConfig) : Prop := ∀ policy, cfg.stealPolicy = some policy → InRangePolicy policy

def KeepsThreads (s : State T W) : Action T W → Prop
  | .updateConfig cfg => cfg.numThreads = s.cfg.numThreads
  | _ => True

instance (s : State T W) (action : Action T W) : Decidable (KeepsThreads s action) :=
  match action with
  | .updateConfig cfg => inferInstanceAs (Decidable (cfg.numThreads = s.cfg.numThreads))
  | .submit .. | .call .. | .callFails .. | .worker .. | .workerThrows .. | .workerSteals .. | .destroy
  | .registerCallback | .setFinalCallback | .getDroppedCount | .clock .. => isTrue trivial

def SubmitPc.inRange (n : Nat) : SubmitPc → Prop
  | .push idx | .sample idx => idx < n
  | _ => True

def WorkerPc.inRange (n : Nat) : WorkerPc T W → Prop
  | .sizes seen _ | .policy seen => seen.length = n
  | .steal vic => vic < n
  | _ => True

structure InRange (n : Nat) (s : State T W) : Prop where
  threads : s.cfg.numThreads = n
  queues : s.queues.length = n
  workers : s.workers.length = n
  calls : ∀ call ∈ s.calls, call.pc.inRange n
  pcs : ∀ pc ∈ s.workers, pc.inRange n
  policy : InRangePolicy s.stealPolicy
  sound : s.fault = false

theorem construct_in_range (cfg : TaskProcessorConfig) (now : Int) (policy : PolicyInRange cfg) :
    InRange cfg.numThreads (construct cfg now : State T W) where
  threads := rfl
  queues := List.length_replicate
  workers := List.length_replicate
  calls := by simp [construct]
  pcs := by
    intro pc member
    rw [(List.mem_replicate.mp member).2]
    trivial
  policy := by
    cases chosen : cfg.stealPolicy with
    | none => simpa only [construct, chosen, Option.getD_none] using default_steal_policy_in_range
    | some given => simpa only [construct, chosen, Option.getD_some] using policy given chosen
  sound := rfl

theorem wake_in_range (n : Nat) (pc : WorkerPc T W) (range : pc.inRange n) : pc.wake.inRange n := by
  cases pc <;> exact range

theorem call_move_in_range (n : Nat) (s after : State T W) (i : Nat) (call : Call T W) (nonzero : 0 < n)
    (found : s.calls[i]? = some call) (moves : CallMove s i call after) (range : InRange n s) : InRange n after := by
  have here := range.calls call (List.mem_of_getElem? found)
  have kept : ∀ pc : SubmitPc, pc.inRange n → ∀ other ∈ s.calls.set i { call with pc := pc }, other.pc.inRange n :=
    fun pc => Tally.forall_mem_set (fun call => call.pc.inRange n) s.calls i { call with pc := pc } range.calls
  cases moves with
  | first pick fifo => exact { range with calls := kept (.push 0) nonzero }
  | assign rr dividing some =>
      have inside : rr.toNat % s.cfg.numThreads < n := range.threads ▸ Nat.mod_lt _ (Nat.pos_of_ne_zero some)
      exact { range with calls := kept (.push _) inside }
  | divide rr dividing none =>
      rw [range.threads] at none
      omega
  | push idx queue pushing inside free room =>
      rw [pushing] at here
      exact { range with queues := by simpa using range.queues, calls := kept (.sample idx) here }
  | outside idx pushing absent =>
      have inside : idx < n := by rcases pushing with pushing | pushing <;> rw [pushing] at here <;> exact here
      rw [List.getElem?_eq_none_iff, range.queues] at absent
      omega
  | signal signalling free =>
      refine { range with calls := kept .returned trivial, workers := by simpa using range.workers, pcs := ?_ }
      intro pc member
      obtain ⟨old, present, rfl⟩ := List.mem_map.mp member
      exact wake_in_range n old (range.pcs old present)
  | pass curr next checking passes goes =>
      refine { range with calls := kept next ?_ }
      rcases goes with rfl | rfl <;> trivial
  | _ => exact { range with calls := kept _ trivial }

theorem worker_move_in_range (n : Nat) (s after : State T W) (w : Nat) (pc : WorkerPc T W) (nonzero : 0 < n)
    (found : s.workers[w]? = some pc) (moves : WorkerMove s w pc after) (range : InRange n s) : InRange n after := by
  have here := range.pcs pc (List.mem_of_getElem? found)
  have index : w < n := by
    have bound := (List.getElem?_eq_some_iff.mp found).1
    rwa [range.workers] at bound
  have kept : ∀ next : WorkerPc T W, next.inRange n → ∀ other ∈ s.workers.set w next, other.inRange n :=
    fun next => Tally.forall_mem_set (WorkerPc.inRange n) s.workers w next range.pcs
  have same : ∀ next : WorkerPc T W, (s.workers.set w next).length = n := fun next => by simpa using range.workers
  cases moves with
  | take item rest inside free =>
      exact { range with queues := by simpa using range.queues, workers := same _, pcs := kept _ trivial }
  | vector =>
      exact { range with workers := same _, pcs := kept (.sizes _ 0) (by simpa [WorkerPc.inRange] using range.threads) }
  | size sizes i queue inside found bound =>
      exact { range with workers := same _, pcs := kept (.sizes _ _) (by simpa [WorkerPc.inRange] using here) }
  | scanned sizes i ended => exact { range with workers := same _, pcs := kept (.policy sizes) here }
  | policy sizes vic answer =>
      have length : sizes.length = n := here
      have inside : vic < sizes.length := range.policy sizes vic answer (List.ne_nil_of_length_pos (by omega))
      exact { range with workers := same _, pcs := kept (.steal vic) (length ▸ inside) }
  | steal vic queue item inside free last =>
      exact { range with queues := by simpa using range.queues, workers := same _, pcs := kept _ trivial }
  | outside pc beyond =>
      exfalso
      rcases beyond with ⟨_, absent⟩ | ⟨sizes, i, rfl, inside, absent | beyond⟩ | ⟨vic, rfl, absent⟩
      · rw [List.getElem?_eq_none_iff, range.queues] at absent
        omega
      · rw [List.getElem?_eq_none_iff, range.queues] at absent
        rw [range.threads] at inside
        omega
      · have length : sizes.length = n := here
        rw [range.threads] at inside
        omega
      · have bound : vic < n := here
        rw [List.getElem?_eq_none_iff, range.queues] at absent
        omega
  | _ => exact { range with workers := same _, pcs := kept _ trivial }

theorem move_in_range (n : Nat) (s after : State T W) (action : Action T W) (nonzero : 0 < n)
    (keeps : KeepsThreads s action) (moves : Move s action after) (range : InRange n s) : InRange n after := by
  cases moves with
  | submit owner payload wrappers sequential =>
      refine { range with calls := ?_ }
      intro call member
      rcases List.mem_append.mp member with old | new
      · exact range.calls call old
      · rw [List.mem_singleton.mp new]
        trivial
  | call _ i call after acts found moves => exact call_move_in_range n s after i call nonzero found moves range
  | worker _ w pc after acts found moves => exact worker_move_in_range n s after w pc nonzero found moves range
  | destroy pc after here moves =>
      cases moves with
      | signal =>
          refine { range with workers := by simpa using range.workers, pcs := ?_ }
          intro pc member
          obtain ⟨old, present, rfl⟩ := List.mem_map.mp member
          exact wake_in_range n old (range.pcs old present)
      | _ => exact { range with }
  | updateConfig cfg => exact { range with threads := keeps.trans range.threads }
  | _ => exact { range with }

theorem reachable_in_range (cfg : TaskProcessorConfig) (now : Int) (threads : 1 ≤ cfg.numThreads)
    (policy : PolicyInRange cfg) (s : State T W)
    (reachable : Machine.Reachable step KeepsThreads (construct cfg now) s) : InRange cfg.numThreads s := by
  refine Machine.reachable_invariant step KeepsThreads _ _ (construct_in_range cfg now policy) ?_ s reachable
  intro before action after _ range keeps taken
  exact move_in_range _ before after action threads keeps (step_move before after action taken).2 range

end Vectro.Pool
