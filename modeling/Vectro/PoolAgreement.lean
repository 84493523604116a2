import Mathlib.Data.List.Infix
import Vectro.PoolCallbacks

set_option autoImplicit false

namespace Vectro.Pool

open Tally Traces

variable {T W : Type}

section
variable {Item : Type}

-- Rounds of calls, each with the number of callees it went through. Callee k has
-- been called in the rounds that went further than k.
def column (rounds : List (Item × Nat)) (k : Nat) : List Item :=
  (rounds.filter fun round => k < round.2).map Prod.fst

theorem column_append (rounds : List (Item × Nat)) (item : Item) (n k : Nat) :
    column (rounds ++ [(item, n)]) k = column rounds k ++ if k < n then [item] else [] := by
  by_cases reached : k < n
  · simp [column, List.filter_append, reached]
  · simp [column, List.filter_append, reached]

-- Where no round is shorter than one before it, a later callee has missed only
-- the first rounds.
theorem column_suffix (rounds : List (Item × Nat)) (grows : rounds.Pairwise fun a b => a.2 ≤ b.2) (j k : Nat) (le : j ≤ k) :
    column rounds k <:+ column rounds j := by
  induction rounds with
  | nil => exact List.suffix_refl _
  | cons first rest ih =>
      obtain ⟨longer, later⟩ := List.pairwise_cons.mp grows
      by_cases reached : k < first.2
      · have all : ∀ i ≤ k, column (first :: rest) i = (first :: rest).map Prod.fst := by
          intro i below
          rw [column, List.filter_eq_self.mpr]
          intro round member
          rcases List.mem_cons.mp member with rfl | behind
          · exact decide_eq_true (by omega)
          · have := longer round behind
            exact decide_eq_true (by omega)
        rw [all k (Nat.le_refl k), all j le]
      · have skipped : column (first :: rest) k = column rest k := by simp [column, reached]
        rw [skipped]
        by_cases called : j < first.2
        · have kept : column (first :: rest) j = first.1 :: column rest j := by simp [column, called]
          rw [kept]
          exact (ih later).trans (List.suffix_cons _ _)
        · have missed : column (first :: rest) j = column rest j := by simp [column, called]
          rw [missed]
          exact ih later

end

def Event.seenBy (k : Nat) : Event T W → Option (TaskItem T W)
  | .callback _ j item _ => if j = k then some item else none
  | _ => none

-- The tasks the k-th registered callback has been called with, in order.
def seen (trace : List (Event T W)) (k : Nat) : List (TaskItem T W) := trace.filterMap (Event.seenBy k)

def Event.submits (c : Nat) : Event T W → Bool
  | .submitted call _ => call == c
  | _ => false

-- The callbacks registered before the c-th Submit call began.
def registeredBefore (trace : List (Event T W)) (c : Nat) : Nat :=
  (trace.takeWhile fun event => !event.submits c).countP Event.isRegistered

-- Where a worker stands with the callbacks: inside cb_mu_ with the number of
-- those it has called, or beyond.
def WorkerPc.stage : WorkerPc T W → Option (TaskItem T W × Option Nat)
  | .callbacks item i => some (item, some i)
  | .wrappers item _ => some (item, none)
  | _ => none

def State.stages (s : State T W) : List (Option (TaskItem T W × Option Nat)) := s.workers.map WorkerPc.stage

def Event.calm : Event T W → Bool
  | .callback _ _ _ _ | .processed _ _ | .registered => false
  | _ => true

-- What a step can do to the callbacks.
inductive CallbackStep (s after : State T W) : Prop where
  | quiet (events : List (Event T W)) (trace : after.trace = s.trace ++ events) (calm : ∀ event ∈ events, event.calm = true)
      (stages : after.stages = s.stages) (callbacks : after.globalCallbacks = s.globalCallbacks)
  | lock (w : Nat) (item : TaskItem T W) (found : s.stages[w]? = some none) (free : s.cbMuFree = true)
      (stages : after.stages = s.stages.set w (some (item, some 0))) (trace : after.trace = s.trace)
      (callbacks : after.globalCallbacks = s.globalCallbacks)
  | call (w i : Nat) (item : TaskItem T W) (threw : Bool) (found : s.stages[w]? = some (some (item, some i)))
      (more : i < s.globalCallbacks) (stages : after.stages = s.stages.set w (some (item, some (i + 1))))
      (trace : after.trace = s.trace ++ [.callback w i item threw]) (callbacks : after.globalCallbacks = s.globalCallbacks)
  | leave (w i : Nat) (item : TaskItem T W) (found : s.stages[w]? = some (some (item, some i)))
      (ended : ¬ i < s.globalCallbacks) (stages : after.stages = s.stages.set w (some (item, none)))
      (trace : after.trace = s.trace) (callbacks : after.globalCallbacks = s.globalCallbacks)
  | done (w : Nat) (item : TaskItem T W) (found : s.stages[w]? = some (some (item, none)))
      (stages : after.stages = s.stages.set w none) (trace : after.trace = s.trace ++ [.processed w item])
      (callbacks : after.globalCallbacks = s.globalCallbacks)
  | register (free : s.cbMuFree = true) (stages : after.stages = s.stages) (trace : after.trace = s.trace ++ [.registered])
      (callbacks : after.globalCallbacks = s.globalCallbacks + 1)

theorem stages_set (s : State T W) (w : Nat) (next : WorkerPc T W) :
    (s.workers.set w next).map WorkerPc.stage = s.stages.set w next.stage := List.map_set

theorem stages_set_same (s : State T W) (w : Nat) (pc next : WorkerPc T W) (found : s.workers[w]? = some pc)
    (same : next.stage = pc.stage) : (s.workers.set w next).map WorkerPc.stage = s.stages := by
  rw [stages_set, same]
  apply set_found
  rw [State.stages, List.getElem?_map, found, Option.map_some]

theorem stages_wake (workers : List (WorkerPc T W)) : (workers.map WorkerPc.wake).map WorkerPc.stage = workers.map WorkerPc.stage := by
  rw [List.map_map]
  apply List.map_congr_left
  intro pc _
  cases pc <;> rfl

theorem stage_found (s : State T W) (w : Nat) (pc : WorkerPc T W) (found : s.workers[w]? = some pc) :
    s.stages[w]? = some pc.stage := by
  rw [State.stages, List.getElem?_map, found, Option.map_some]

theorem worker_move_callback_step (s after : State T W) (w : Nat) (pc : WorkerPc T W) (found : s.workers[w]? = some pc)
    (moves : WorkerMove s w pc after) : CallbackStep s after := by
  have here := stage_found s w pc found
  cases moves with
  | lockCallbacks item free => exact .lock w item here free (stages_set s w _) rfl rfl
  | callback item k threw more => exact .call w k item threw here more (stages_set s w _) rfl rfl
  | called item k ended => exact .leave w k item here ended (stages_set s w _) rfl rfl
  | done item => exact .done w item here (stages_set s w _) rfl rfl
  | outside pc beyond => exact .quiet [] (List.append_nil _).symm (by simp) rfl rfl
  | take | steal | subtract | wrapper | notify =>
      exact .quiet [_] rfl (by simp [Event.calm]) (stages_set_same s w _ _ found rfl) rfl
  | _ => exact .quiet [] (List.append_nil _).symm (by simp) (stages_set_same s w _ _ found rfl) rfl

theorem call_move_callback_step (s after : State T W) (i : Nat) (call : Call T W) (moves : CallMove s i call after) : CallbackStep s after := by
  cases moves with
  | load | drop | push => exact .quiet [_] rfl (by simp [Event.calm]) rfl rfl
  | signal => exact .quiet [] (List.append_nil _).symm (by simp) (stages_wake s.workers) rfl
  | _ => exact .quiet [] (List.append_nil _).symm (by simp) rfl rfl

theorem move_callback_step (s after : State T W) (action : Action T W) (moves : Move s action after) : CallbackStep s after := by
  cases moves with
  | submit => exact .quiet [_] rfl (by simp [Event.calm]) rfl rfl
  | call _ i call after acts found moves => exact call_move_callback_step s after i call moves
  | worker _ w pc after acts found moves => exact worker_move_callback_step s after w pc found moves
  | destroy pc after here moves =>
      cases moves with
      | store | final => exact .quiet [_] rfl (by simp [Event.calm]) rfl rfl
      | signal => exact .quiet [] (List.append_nil _).symm (by simp) (stages_wake s.workers) rfl
      | _ => exact .quiet [] (List.append_nil _).symm (by simp) rfl rfl
  | registerCallback free => exact .register free rfl rfl rfl
  | getDroppedCount => exact .quiet [_] rfl (by simp [Event.calm]) rfl rfl
  | _ => exact .quiet [] (List.append_nil _).symm (by simp) rfl rfl

def reached (c : Nat) : Option (TaskItem T W × Option Nat) → Nat
  | some (item, none) => if item.call = c then 1 else 0
  | _ => 0

-- Every round of callbacks so far, with the number of callbacks it went through.
-- Rounds do not overlap, and the one under way has called the first i of them.
structure InRounds (s : State T W) (rounds : List (TaskItem T W × Nat)) : Prop where
  grows : rounds.Pairwise fun a b => a.2 ≤ b.2
  within : ∀ round ∈ rounds, round.2 ≤ s.globalCallbacks
  alone : ∀ (w v i j : Nat) (a b : TaskItem T W), s.stages[w]? = some (some (a, some i)) →
    s.stages[v]? = some (some (b, some j)) → w = v
  free : s.cbMuFree = true → ∀ k, seen s.trace k = column rounds k
  held : ∀ (w i : Nat) (item : TaskItem T W), s.stages[w]? = some (some (item, some i)) → i ≤ s.globalCallbacks ∧
    ∀ k, seen s.trace k = column rounds k ++ if k < i then [item] else []
  counted : ∀ c, (rounds.countP fun round => round.1.call == c) = processedOf s.trace c + total (reached c) s.stages
  known : ∀ round ∈ rounds, round.1 ∈ pushedItems s.trace ∧ registeredBefore s.trace round.1.call ≤ round.2

theorem free_iff (s : State T W) :
    s.cbMuFree = true ↔ ∀ (w i : Nat) (item : TaskItem T W), s.stages[w]? ≠ some (some (item, some i)) := by
  rw [State.cbMuFree, List.all_eq_true]
  constructor
  · intro free w i item found
    rw [State.stages, List.getElem?_map, Option.map_eq_some_iff] at found
    obtain ⟨pc, there, stage⟩ := found
    have outside := free pc (List.mem_of_getElem? there)
    cases pc with
    | callbacks => simp [WorkerPc.holdsCallbacks] at outside
    | _ => simp [WorkerPc.stage] at stage
  · intro none pc member
    obtain ⟨w, there⟩ := List.mem_iff_getElem?.mp member
    cases pc with
    | callbacks item i => exact absurd (stage_found s w _ there) (none w i item)
    | _ => rfl

theorem free_stages (s after : State T W) (stages : after.stages = s.stages) : after.cbMuFree = true ↔ s.cbMuFree = true := by
  rw [free_iff, free_iff, stages]

theorem calm_unseen (k : Nat) (event : Event T W) (calm : event.calm = true) : event.seenBy k = none := by
  cases event with
  | callback => cases calm
  | _ => rfl

theorem calm_processed (trace events : List (Event T W)) (calm : ∀ event ∈ events, event.calm = true) (c : Nat) :
    processedOf (trace ++ events) c = processedOf trace c := by
  rw [processedOf, processedItems, filter_map_aside]
  · rfl
  · intro event member
    have still := calm event member
    cases event with
    | processed => cases still
    | _ => rfl

-- Every Submit call has been logged when it began.
def Announced (s : State T W) : Prop := ∀ c < s.calls.length, ∃ event ∈ s.trace, event.submits c = true

theorem announced_frame (s after : State T W) (announced : Announced s) (events : List (Event T W))
    (trace : after.trace = s.trace ++ events) (calls : after.calls.length = s.calls.length) : Announced after := by
  intro c below
  obtain ⟨event, member, submits⟩ := announced c (calls ▸ below)
  exact ⟨event, by rw [trace]; exact List.mem_append_left _ member, submits⟩

theorem move_announced (s after : State T W) (action : Action T W) (moves : Move s action after) (announced : Announced s) :
    Announced after := by
  cases moves with
  | submit owner payload wrappers sequential =>
      intro c below
      simp only [State.emit, List.length_append, List.length_singleton] at below
      by_cases fresh : c = s.calls.length
      · exact ⟨.submitted s.calls.length owner, by simp, by simp [Event.submits, fresh]⟩
      · obtain ⟨event, member, submits⟩ := announced c (by omega)
        exact ⟨event, List.mem_append_left _ member, submits⟩
  | call _ i call after acts found moves =>
      obtain ⟨events, trace, _⟩ := call_move_emits s after i call moves
      cases moves with
      | divide | outside => exact announced_frame s _ announced events trace rfl
      | _ => exact announced_frame s _ announced events trace (List.length_set ..)
  | worker _ w pc after acts found moves =>
      obtain ⟨events, trace, _⟩ := worker_move_emits s after w pc moves
      exact announced_frame s after announced events trace (by rw [(worker_move_side s after w pc moves).calls])
  | destroy pc after here moves =>
      cases moves with
      | store | final => exact announced_frame s _ announced [_] rfl rfl
      | _ => exact announced_frame s _ announced [] (List.append_nil _).symm rfl
  | registerCallback | getDroppedCount => exact announced_frame s _ announced [_] rfl rfl
  | _ => exact announced_frame s _ announced [] (List.append_nil _).symm rfl

theorem registered_before_append (trace events : List (Event T W)) (c : Nat) (known : ∃ event ∈ trace, event.submits c = true) :
    registeredBefore (trace ++ events) c = registeredBefore trace c := by
  rw [registeredBefore, take_while_stopped, ← registeredBefore]
  obtain ⟨event, member, submits⟩ := known
  exact ⟨event, member, by rw [submits]; rfl⟩

theorem known_grows (s : State T W) (rounds : List (TaskItem T W × Nat)) (events : List (Event T W)) (traced : Traced s)
    (announced : Announced s) (inRounds : InRounds s rounds) :
    ∀ round ∈ rounds, round.1 ∈ pushedItems (s.trace ++ events) ∧
      registeredBefore (s.trace ++ events) round.1.call ≤ round.2 := by
  intro round member
  obtain ⟨pushed, le⟩ := inRounds.known round member
  obtain ⟨call, found, _⟩ := traced.genuine round.1 pushed
  have begun := announced round.1.call (List.getElem?_eq_some_iff.mp found).1
  rw [registered_before_append s.trace events round.1.call begun]
  refine ⟨?_, le⟩
  rw [pushedItems, List.filterMap_append]
  exact List.mem_append_left _ pushed

theorem quiet_in_rounds (s after : State T W) (rounds : List (TaskItem T W × Nat)) (events : List (Event T W)) (traced : Traced s)
    (announced : Announced s) (inRounds : InRounds s rounds) (trace : after.trace = s.trace ++ events)
    (calm : ∀ event ∈ events, event.calm = true) (stages : after.stages = s.stages)
    (callbacks : after.globalCallbacks = s.globalCallbacks) : InRounds after rounds := by
  have same : ∀ k, seen after.trace k = seen s.trace k := by
    intro k
    rw [trace, seen, filter_map_aside _ _ _ fun event member => calm_unseen k event (calm event member), ← seen]
  refine ⟨inRounds.grows, ?_, ?_, ?_, ?_, ?_, ?_⟩
  · rw [callbacks]
    exact inRounds.within
  · rw [stages]
    exact inRounds.alone
  · intro free k
    rw [same, inRounds.free ((free_stages s after stages).mp free)]
  · intro w i item found
    rw [stages] at found
    obtain ⟨le, columns⟩ := inRounds.held w i item found
    exact ⟨callbacks ▸ le, fun k => (same k).trans (columns k)⟩
  · intro c
    rw [trace, calm_processed s.trace events calm, stages]
    exact inRounds.counted c
  · rw [trace]
    exact known_grows s rounds events traced announced inRounds

theorem stage_set_eq (stages : List (Option (TaskItem T W × Option Nat))) (w v : Nat) (old new stage : Option (TaskItem T W × Option Nat))
    (found : stages[w]? = some old) (there : (stages.set w new)[v]? = some stage) :
    (v = w ∧ stage = new) ∨ (v ≠ w ∧ stages[v]? = some stage) := by
  by_cases same : v = w
  · subst same
    rw [List.getElem?_set_self (List.getElem?_eq_some_iff.mp found).1] at there
    exact .inl ⟨rfl, (Option.some.inj there).symm⟩
  · rw [List.getElem?_set_ne (Ne.symm same)] at there
    exact .inr ⟨same, there⟩

theorem lock_in_rounds (s after : State T W) (rounds : List (TaskItem T W × Nat)) (inRounds : InRounds s rounds) (w : Nat)
    (item : TaskItem T W) (found : s.stages[w]? = some none) (free : s.cbMuFree = true)
    (stages : after.stages = s.stages.set w (some (item, some 0))) (trace : after.trace = s.trace)
    (callbacks : after.globalCallbacks = s.globalCallbacks) : InRounds after rounds := by
  have vacant := (free_iff s).mp free
  have sole : ∀ (v i : Nat) (other : TaskItem T W), after.stages[v]? = some (some (other, some i)) → v = w ∧ other = item ∧ i = 0 := by
    intro v i other there
    rw [stages] at there
    rcases stage_set_eq s.stages w v _ _ _ found there with ⟨here, same⟩ | ⟨_, before⟩
    · simp only [Option.some.injEq, Prod.mk.injEq] at same
      exact ⟨here, same⟩
    · exact absurd before (vacant v i other)
  refine ⟨inRounds.grows, ?_, ?_, ?_, ?_, ?_, ?_⟩
  · rw [callbacks]
    exact inRounds.within
  · intro v u i j a b first second
    exact (sole v i a first).1.trans (sole u j b second).1.symm
  · intro free' k
    have bound := (List.getElem?_eq_some_iff.mp found).1
    have here : after.stages[w]? = some (some (item, some 0)) := by rw [stages, List.getElem?_set_self bound]
    exact absurd here ((free_iff after).mp free' w 0 item)
  · intro v i other there
    obtain ⟨_, _, rfl⟩ := sole v i other there
    refine ⟨Nat.zero_le _, fun k => ?_⟩
    rw [trace, inRounds.free free, if_neg (Nat.not_lt_zero k), List.append_nil]
  · intro c
    have weighed := total_set (reached c) s.stages w none (some (item, some 0)) found
    rw [trace, stages, inRounds.counted c]
    simp only [reached] at weighed
    omega
  · rw [trace]
    exact inRounds.known

theorem call_in_rounds (s after : State T W) (rounds : List (TaskItem T W × Nat)) (traced : Traced s) (announced : Announced s)
    (inRounds : InRounds s rounds) (w i : Nat) (item : TaskItem T W) (threw : Bool)
    (found : s.stages[w]? = some (some (item, some i))) (more : i < s.globalCallbacks)
    (stages : after.stages = s.stages.set w (some (item, some (i + 1))))
    (trace : after.trace = s.trace ++ [.callback w i item threw]) (callbacks : after.globalCallbacks = s.globalCallbacks) :
    InRounds after rounds := by
  have sole : ∀ (v j : Nat) (other : TaskItem T W), after.stages[v]? = some (some (other, some j)) →
      v = w ∧ other = item ∧ j = i + 1 := by
    intro v j other there
    rw [stages] at there
    rcases stage_set_eq s.stages w v _ _ _ found there with ⟨here, same⟩ | ⟨apart, before⟩
    · simp only [Option.some.injEq, Prod.mk.injEq] at same
      exact ⟨here, same⟩
    · exact absurd (inRounds.alone v w j i other item before found) apart
  have here : after.stages[w]? = some (some (item, some (i + 1))) := by
    rw [stages, List.getElem?_set_self (List.getElem?_eq_some_iff.mp found).1]
  refine ⟨inRounds.grows, ?_, ?_, ?_, ?_, ?_, ?_⟩
  · rw [callbacks]
    exact inRounds.within
  · intro v u j k a b first second
    exact (sole v j a first).1.trans (sole u k b second).1.symm
  · intro free k
    exact absurd here ((free_iff after).mp free w (i + 1) item)
  · intro v j other there
    obtain ⟨_, rfl, rfl⟩ := sole v j other there
    refine ⟨callbacks ▸ more, fun k => ?_⟩
    have before := (inRounds.held w i other found).2 k
    by_cases called : i = k
    · subst called
      rw [trace, seen, filter_map_logs _ _ _ other (by simp [Event.seenBy]), ← seen, before]
      simp
    · rw [trace, seen, filter_map_quiet _ _ _ (by simp [Event.seenBy, called]), ← seen, before]
      by_cases earlier : k < i
      · rw [if_pos earlier, if_pos (by omega)]
      · rw [if_neg earlier, if_neg (by omega)]
  · intro c
    have weighed := total_set (reached c) s.stages w _ (some (item, some (i + 1))) found
    have logged : processedOf after.trace c = processedOf s.trace c := by
      rw [trace, processedOf, processedItems, filter_map_quiet _ _ _ rfl]
      rfl
    rw [logged, stages, inRounds.counted c]
    simp only [reached] at weighed
    omega
  · rw [trace]
    exact known_grows s rounds _ traced announced inRounds

theorem leave_in_rounds (s after : State T W) (rounds : List (TaskItem T W × Nat)) (traced : Traced s) (registry : Registry s)
    (inRounds : InRounds s rounds) (w i : Nat) (item : TaskItem T W) (found : s.stages[w]? = some (some (item, some i)))
    (ended : ¬ i < s.globalCallbacks) (stages : after.stages = s.stages.set w (some (item, none)))
    (trace : after.trace = s.trace) (callbacks : after.globalCallbacks = s.globalCallbacks) :
    InRounds after (rounds ++ [(item, s.globalCallbacks)]) := by
  obtain ⟨le, columns⟩ := inRounds.held w i item found
  have whole : i = s.globalCallbacks := by omega
  subst whole
  have vacant : ∀ (v j : Nat) (other : TaskItem T W), after.stages[v]? ≠ some (some (other, some j)) := by
    intro v j other there
    rw [stages] at there
    rcases stage_set_eq s.stages w v _ _ _ found there with ⟨_, same⟩ | ⟨apart, before⟩
    · simp at same
    · exact apart (inRounds.alone v w j _ other item before found)
  refine ⟨?_, ?_, ?_, ?_, ?_, ?_, ?_⟩
  · rw [List.pairwise_append]
    refine ⟨inRounds.grows, List.pairwise_singleton _ _, ?_⟩
    intro round member last here
    rw [List.mem_singleton.mp here]
    exact inRounds.within round member
  · intro round member
    rw [callbacks]
    rcases List.mem_append.mp member with old | new
    · exact inRounds.within round old
    · rw [List.mem_singleton.mp new]
  · intro v u j k a b first
    exact absurd first (vacant v j a)
  · intro _ k
    rw [trace, columns k, column_append]
  · intro v j other there
    exact absurd there (vacant v j other)
  · intro c
    have weighed := total_set (reached c) s.stages w _ (some (item, none)) found
    have before := inRounds.counted c
    rw [List.countP_append, List.countP_singleton, trace, stages]
    simp only [reached, beq_iff_eq] at weighed ⊢
    omega
  · rw [trace]
    intro round member
    rcases List.mem_append.mp member with old | new
    · exact inRounds.known round old
    · rw [List.mem_singleton.mp new]
      constructor
      · rw [State.stages, List.getElem?_map, Option.map_eq_some_iff] at found
        obtain ⟨pc, there, stage⟩ := found
        apply traced.held pc (List.mem_of_getElem? there)
        cases pc with
        | callbacks held j =>
            simp only [WorkerPc.stage, Option.some.injEq, Prod.mk.injEq] at stage
            rw [WorkerPc.item, stage.1]
        | _ => simp [WorkerPc.stage] at stage
      · rw [← registry.counted]
        exact (List.takeWhile_sublist _).countP_le

theorem done_in_rounds (s after : State T W) (rounds : List (TaskItem T W × Nat)) (traced : Traced s) (announced : Announced s)
    (inRounds : InRounds s rounds) (w : Nat) (item : TaskItem T W) (found : s.stages[w]? = some (some (item, none)))
    (stages : after.stages = s.stages.set w none) (trace : after.trace = s.trace ++ [.processed w item])
    (callbacks : after.globalCallbacks = s.globalCallbacks) : InRounds after rounds := by
  have same : ∀ k, seen after.trace k = seen s.trace k := by
    intro k
    rw [trace, seen, filter_map_quiet _ _ _ rfl, ← seen]
  have inside : ∀ (v i : Nat) (other : TaskItem T W), after.stages[v]? = some (some (other, some i)) ↔
      s.stages[v]? = some (some (other, some i)) := by
    intro v i other
    rw [stages]
    by_cases here : v = w
    · subst here
      rw [List.getElem?_set_self (List.getElem?_eq_some_iff.mp found).1, found]
      simp
    · rw [List.getElem?_set_ne (Ne.symm here)]
  refine ⟨inRounds.grows, ?_, ?_, ?_, ?_, ?_, ?_⟩
  · rw [callbacks]
    exact inRounds.within
  · intro v u i j a b first second
    exact inRounds.alone v u i j a b ((inside v i a).mp first) ((inside u j b).mp second)
  · intro free k
    rw [same]
    apply inRounds.free
    rw [free_iff] at free ⊢
    intro v i other there
    exact free v i other ((inside v i other).mpr there)
  · intro v i other there
    obtain ⟨le, columns⟩ := inRounds.held v i other ((inside v i other).mp there)
    exact ⟨callbacks ▸ le, fun k => (same k).trans (columns k)⟩
  · intro c
    have weighed := total_set (reached c) s.stages w _ none found
    have before := inRounds.counted c
    have logged : processedOf after.trace c = processedOf s.trace c + if item.call = c then 1 else 0 := by
      have longer : processedItems after.trace = processedItems s.trace ++ [item] := by
        rw [trace]
        exact filter_map_logs _ _ _ item rfl
      rw [processedOf, longer, List.countP_append, List.countP_singleton, processedOf]
      simp only [beq_iff_eq]
    rw [logged, stages, before]
    simp only [reached] at weighed
    omega
  · rw [trace]
    exact known_grows s rounds _ traced announced inRounds

theorem register_in_rounds (s after : State T W) (rounds : List (TaskItem T W × Nat)) (traced : Traced s) (announced : Announced s)
    (inRounds : InRounds s rounds) (free : s.cbMuFree = true) (stages : after.stages = s.stages)
    (trace : after.trace = s.trace ++ [.registered]) (callbacks : after.globalCallbacks = s.globalCallbacks + 1) :
    InRounds after rounds := by
  have vacant := (free_iff s).mp free
  refine ⟨inRounds.grows, ?_, ?_, ?_, ?_, ?_, ?_⟩
  · intro round member
    rw [callbacks]
    exact Nat.le_succ_of_le (inRounds.within round member)
  · rw [stages]
    exact inRounds.alone
  · intro _ k
    rw [trace, seen, filter_map_quiet _ _ _ rfl, ← seen]
    exact inRounds.free free k
  · intro w i item there
    rw [stages] at there
    exact absurd there (vacant w i item)
  · intro c
    rw [trace, processedOf, processedItems, filter_map_quiet _ _ _ rfl, stages]
    exact inRounds.counted c
  · rw [trace]
    exact known_grows s rounds _ traced announced inRounds

theorem move_in_rounds (s after : State T W) (action : Action T W) (moves : Move s action after) (traced : Traced s)
    (announced : Announced s) (registry : Registry s) (inRounds : ∃ rounds, InRounds s rounds) :
    ∃ rounds, InRounds after rounds := by
  obtain ⟨rounds, inRounds⟩ := inRounds
  cases move_callback_step s after action moves with
  | quiet events trace calm stages callbacks =>
      exact ⟨rounds, quiet_in_rounds s after rounds events traced announced inRounds trace calm stages callbacks⟩
  | lock w item found free stages trace callbacks =>
      exact ⟨rounds, lock_in_rounds s after rounds inRounds w item found free stages trace callbacks⟩
  | call w i item threw found more stages trace callbacks =>
      exact ⟨rounds, call_in_rounds s after rounds traced announced inRounds w i item threw found more stages trace callbacks⟩
  | leave w i item found ended stages trace callbacks =>
      exact ⟨_, leave_in_rounds s after rounds traced registry inRounds w i item found ended stages trace callbacks⟩
  | done w item found stages trace callbacks =>
      exact ⟨rounds, done_in_rounds s after rounds traced announced inRounds w item found stages trace callbacks⟩
  | register free stages trace callbacks =>
      exact ⟨rounds, register_in_rounds s after rounds traced announced inRounds free stages trace callbacks⟩

theorem construct_stages (cfg : TaskProcessorConfig) (now : Int) (w : Nat) (stage : TaskItem T W × Option Nat) :
    (construct cfg now : State T W).stages[w]? ≠ some (some stage) := by
  intro found
  rw [State.stages, construct, List.map_replicate, List.getElem?_replicate] at found
  by_cases below : w < cfg.numThreads
  · simp [below, WorkerPc.stage] at found
  · simp [below] at found

theorem construct_in_rounds (cfg : TaskProcessorConfig) (now : Int) : InRounds (construct cfg now : State T W) [] where
  grows := List.Pairwise.nil
  within := by simp
  alone := fun w _ _ _ _ _ found => absurd found (construct_stages cfg now w _)
  free := fun _ _ => rfl
  held := fun w _ _ found => absurd found (construct_stages cfg now w _)
  counted := by
    intro c
    have idle : total (reached c) (construct cfg now : State T W).stages = 0 := by
      simp [total_eq_zero, State.stages, construct, WorkerPc.stage, reached]
    rw [idle]
    rfl
  known := by simp

theorem reachable_in_rounds (guard : State T W → Action T W → Prop) (cfg : TaskProcessorConfig) (now : Int) (s : State T W)
    (reachable : Machine.Reachable step guard (construct cfg now) s) : ∃ rounds, InRounds s rounds := by
  have all : (Registry s ∧ Announced s) ∧ ∃ rounds, InRounds s rounds := by
    refine Machine.reachable_invariant step guard _ (fun s => (Registry s ∧ Announced s) ∧ ∃ rounds, InRounds s rounds) ?_ ?_ s reachable
    · exact ⟨⟨⟨rfl, fun _ => rfl⟩, fun c below => absurd below (Nat.not_lt_zero c)⟩, [], construct_in_rounds cfg now⟩
    · intro before action after earlier all allowed taken
      obtain ⟨⟨registry, announced⟩, inRounds⟩ := all
      have moves := (step_move before after action taken).2
      have traced := (reachable_conserved guard cfg now before earlier).2
      exact ⟨⟨move_registry before after action moves registry, move_announced before after action moves announced⟩,
        move_in_rounds before after action moves traced announced registry inRounds⟩
  exact all.2

def engaged (c : Nat) : Option (TaskItem T W × Option Nat) → Nat
  | some (item, _) => if item.call = c then 1 else 0
  | none => 0

theorem reached_le_engaged (c : Nat) (stage : Option (TaskItem T W × Option Nat)) : reached c stage ≤ engaged c stage := by
  cases stage with
  | none => exact Nat.le_refl _
  | some held =>
      obtain ⟨item, inside⟩ := held
      cases inside with
      | none => exact Nat.le_refl _
      | some i => exact Nat.zero_le _

theorem engaged_le_hands (s : State T W) (c : Nat) : total (engaged c) s.stages ≤ inHands s.workers c := by
  have mapped : total (engaged c) s.stages = total (fun pc => engaged c (WorkerPc.stage pc)) s.workers := by
    simp only [total, State.stages, List.map_map]
    rfl
  rw [mapped]
  apply total_le_total
  intro pc
  cases pc with
  | callbacks | wrappers => exact Nat.le_refl _
  | _ => exact Nat.zero_le _

-- No task goes through the callbacks twice.
theorem rounds_once (s : State T W) (rounds : List (TaskItem T W × Nat)) (conserved : Conserved s) (inRounds : InRounds s rounds)
    (c : Nat) : (rounds.countP fun round => round.1.call == c) ≤ 1 ∧
      ∀ (w i : Nat) (item : TaskItem T W), s.stages[w]? = some (some (item, some i)) → item.call = c →
        (rounds.countP fun round => round.1.call == c) = 0 := by
  have counted := inRounds.counted c
  have places := conserved c
  have hands := engaged_le_hands s c
  have one : (if c < s.calls.length then 1 else 0) ≤ 1 := by split <;> omega
  constructor
  · have less := total_le_total (reached c) (engaged c) (reached_le_engaged c) s.stages
    omega
  · intro w i item found same
    have less := total_le_total (reached c) (engaged c) (reached_le_engaged c) (s.stages.set w none)
    have lighter := total_set (reached c) s.stages w _ none found
    have heavier := total_set (engaged c) s.stages w _ none found
    simp only [reached] at lighter
    simp only [engaged, if_pos same] at heavier
    omega

theorem column_calls_nodup (rounds : List (TaskItem T W × Nat)) (k : Nat)
    (once : ∀ c, (rounds.countP fun round => round.1.call == c) ≤ 1) : ((column rounds k).map TaskItem.call).Nodup := by
  have all : (rounds.map fun round => round.1.call).Nodup := by
    rw [List.nodup_iff_count_le_one]
    intro c
    rw [List.count, List.countP_map]
    exact once c
  rw [column, List.map_map]
  exact (List.filter_sublist.map _).nodup all

theorem column_fresh (rounds : List (TaskItem T W × Nat)) (k c : Nat)
    (fresh : (rounds.countP fun round => round.1.call == c) = 0) : c ∉ (column rounds k).map TaskItem.call := by
  intro member
  rw [column, List.map_map, List.mem_map] at member
  obtain ⟨round, kept, same⟩ := member
  exact (List.countP_eq_zero.mp fresh) round (List.mem_filter.mp kept).1 (by simpa using same)

-- What callback k has seen: the rounds that came to it, and the task of the
-- round under way once it has been called with it.
theorem seen_rounds (s : State T W) (rounds : List (TaskItem T W × Nat)) (inRounds : InRounds s rounds) :
    (∀ k, seen s.trace k = column rounds k) ∨
      ∃ (w i : Nat) (item : TaskItem T W), s.cbMuFree = false ∧ s.stages[w]? = some (some (item, some i)) ∧
        ∀ k, seen s.trace k = column rounds k ++ if k < i then [item] else [] := by
  by_cases free : s.cbMuFree = true
  · exact .inl (inRounds.free free)
  · have inside := mt (free_iff s).mpr free
    push Not at inside
    obtain ⟨w, i, item, found⟩ := inside
    exact .inr ⟨w, i, item, by simpa using free, found, (inRounds.held w i item found).2⟩

theorem seen_suffix (s : State T W) (rounds : List (TaskItem T W × Nat)) (inRounds : InRounds s rounds) (j k : Nat) (le : j ≤ k) :
    ∃ pending, pending.length ≤ 1 ∧ (s.cbMuFree = true → pending = []) ∧ seen s.trace k ++ pending <:+ seen s.trace j := by
  have columns := column_suffix rounds inRounds.grows j k le
  rcases seen_rounds s rounds inRounds with whole | ⟨w, i, item, busy, found, part⟩
  · rw [whole, whole]
    exact ⟨[], Nat.zero_le _, fun _ => rfl, by rwa [List.append_nil]⟩
  · rw [part, part]
    by_cases later : k < i
    · refine ⟨[], Nat.zero_le _, fun _ => rfl, ?_⟩
      rw [if_pos later, if_pos (by omega), List.append_nil]
      exact (List.suffix_append_inj_of_length_eq rfl).mpr ⟨columns, rfl⟩
    · by_cases earlier : j < i
      · refine ⟨[item], Nat.le_refl _, fun free => absurd (free.symm.trans busy) (by decide), ?_⟩
        rw [if_neg later, if_pos earlier, List.append_nil]
        exact (List.suffix_append_inj_of_length_eq rfl).mpr ⟨columns, rfl⟩
      · refine ⟨[], Nat.zero_le _, fun _ => rfl, ?_⟩
        rw [if_neg later, if_neg earlier]
        simpa using columns

theorem seen_nodup (s : State T W) (rounds : List (TaskItem T W × Nat)) (conserved : Conserved s) (inRounds : InRounds s rounds)
    (k : Nat) : ((seen s.trace k).map TaskItem.call).Nodup := by
  have once := fun c => (rounds_once s rounds conserved inRounds c).1
  have columns := column_calls_nodup rounds k once
  rcases seen_rounds s rounds inRounds with whole | ⟨w, i, item, _, found, part⟩
  · rwa [whole]
  · rw [part]
    by_cases called : k < i
    · have fresh := column_fresh rounds k item.call ((rounds_once s rounds conserved inRounds item.call).2 w i item found rfl)
      rw [if_pos called, List.map_append, List.map_singleton, List.nodup_append]
      refine ⟨columns, List.nodup_singleton _, ?_⟩
      intro a member b here
      rw [List.mem_singleton.mp here]
      exact fun same => fresh (same ▸ member)
    · rwa [if_neg called, List.append_nil]

theorem processed_seen (s : State T W) (rounds : List (TaskItem T W × Nat)) (traced : Traced s) (inRounds : InRounds s rounds)
    (item : TaskItem T W) (member : item ∈ processedItems s.trace) (k : Nat) (early : k < registeredBefore s.trace item.call) :
    item ∈ seen s.trace k := by
  have counted := inRounds.counted item.call
  have logged : 0 < processedOf s.trace item.call :=
    List.countP_pos_iff.mpr ⟨item, member, by simp⟩
  obtain ⟨round, there, same⟩ := List.countP_pos_iff.mp (counted ▸ Nat.lt_add_right _ logged)
  rw [beq_iff_eq] at same
  obtain ⟨pushed, enough⟩ := inRounds.known round there
  have genuine := traced.genuine item (traced.processed item member)
  obtain ⟨call, found, _, built⟩ := genuine
  have equal : round.1 = item := by
    have other := genuine_item s.calls call round.1 (traced.genuine round.1 pushed) (same ▸ found)
    rw [other, built, same]
  have column : item ∈ column rounds k := by
    rw [column, List.mem_map]
    refine ⟨round, List.mem_filter.mpr ⟨there, decide_eq_true ?_⟩, equal⟩
    rw [← same] at early
    omega
  rcases seen_rounds s rounds inRounds with whole | ⟨w, i, other, _, _, part⟩
  · rwa [whole]
  · rw [part]
    exact List.mem_append_left _ column

-- One mutex around the callbacks of a task makes all callbacks agree on one
-- order of the tasks, however many workers there are and whatever they throw.
theorem callbacks_agree (guard : State T W → Action T W → Prop) (cfg : TaskProcessorConfig) (now : Int) (s : State T W)
    (reachable : Machine.Reachable step guard (construct cfg now) s) :
    (∀ j k, j ≤ k → ∃ pending, pending.length ≤ 1 ∧ (s.cbMuFree = true → pending = []) ∧
      seen s.trace k ++ pending <:+ seen s.trace j) ∧
    (∀ k, ((seen s.trace k).map TaskItem.call).Nodup) ∧
    ∀ item ∈ processedItems s.trace, ∀ k < registeredBefore s.trace item.call, item ∈ seen s.trace k := by
  obtain ⟨conserved, traced⟩ := reachable_conserved guard cfg now s reachable
  obtain ⟨rounds, inRounds⟩ := reachable_in_rounds guard cfg now s reachable
  refine ⟨seen_suffix s rounds inRounds, seen_nodup s rounds conserved inRounds, ?_⟩
  intro item member k early
  exact processed_seen s rounds traced inRounds item member k early

def twoInTurn : TaskProcessorConfig := { numThreads := 2, mode := .roundRobin }

-- The second callback is registered between the two tasks.
def lateCallback : List (Action Nat Nat) :=
  [[.registerCallback, .submit 0 7 []], List.replicate 10 (.call 0), List.replicate 13 (.worker 0),
    [.registerCallback, .submit 0 8 []], List.replicate 10 (.call 1), List.replicate 15 (.worker 1)].flatten

theorem late_callback_agrees :
    ∃ s : State Nat Nat, Machine.Reachable step (fun _ _ => True) (construct twoInTurn 0) s ∧
      (seen s.trace 0).map TaskItem.payload = [7, 8] ∧ (seen s.trace 1).map TaskItem.payload = [8] ∧
      ∃ pending, pending.length ≤ 1 ∧ (s.cbMuFree = true → pending = []) ∧ seen s.trace 1 ++ pending <:+ seen s.trace 0 := by
  obtain ⟨s, reachable, shown⟩ := Machine.run_exhibits step (fun _ _ => True) (construct twoInTurn 0) lateCallback
    (fun s => (seen s.trace 0).map TaskItem.payload == [7, 8] && (seen s.trace 1).map TaskItem.payload == [8]) (by decide)
  simp only [Bool.and_eq_true, beq_iff_eq] at shown
  exact ⟨s, reachable, shown.1, shown.2, (callbacks_agree _ twoInTurn 0 s reachable).1 0 1 (by decide)⟩

end Vectro.Pool
