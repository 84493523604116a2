import Vectro.PoolLedger
import Vectro.PoolRange
import Mathlib.Data.Int.ModEq
import Mathlib.Data.List.Nodup

set_option autoImplicit false

namespace Vectro.Pool

open Tally Traces

variable {T W : Type}

def SubmitPc.pushed : SubmitPc → Bool
  | .sample _ | .exchange _ _ _ | .count | .signal | .returned => true
  | _ => false

def WorkerPc.item : WorkerPc T W → Option (TaskItem T W)
  | .subtract item | .processed item | .lockCallbacks item | .callbacks item _ | .wrappers item _ => some item
  | _ => none

def unpushed (calls : List (Call T W)) (c : Nat) : Nat :=
  match calls[c]? with
  | some call => if call.pc.pushed then 0 else 1
  | none => 0

def inQueues (queues : List (List (TaskItem T W))) (c : Nat) : Nat :=
  total (fun queue => queue.countP fun item => item.call == c) queues

def WorkerPc.holds (c : Nat) (pc : WorkerPc T W) : Nat :=
  match pc.item with
  | some item => if item.call = c then 1 else 0
  | none => 0

def inHands (workers : List (WorkerPc T W)) (c : Nat) : Nat := total (WorkerPc.holds c) workers

def processedOf (trace : List (Event T W)) (c : Nat) : Nat := (processedItems trace).countP fun item => item.call == c

-- Conservation, call by call: a task that has been submitted is in one place,
-- and one that has not is nowhere.
def Conserved (s : State T W) : Prop :=
  ∀ c, unpushed s.calls c + inQueues s.queues c + inHands s.workers c + processedOf s.trace c =
    if c < s.calls.length then 1 else 0

theorem unpushed_set (calls : List (Call T W)) (i : Nat) (call : Call T W) (found : calls[i]? = some call)
    (pc : SubmitPc) (c : Nat) :
    unpushed (calls.set i { call with pc := pc }) c =
      if c = i then (if pc.pushed then 0 else 1) else unpushed calls c := by
  have bound := (List.getElem?_eq_some_iff.mp found).1
  by_cases same : c = i
  · subst c
    simp [unpushed, List.getElem?_set_self bound]
  · rw [if_neg same, unpushed, unpushed, List.getElem?_set_ne (Ne.symm same)]

theorem unpushed_set_same (calls : List (Call T W)) (i : Nat) (call : Call T W) (found : calls[i]? = some call)
    (pc : SubmitPc) (same : pc.pushed = call.pc.pushed) (c : Nat) :
    unpushed (calls.set i { call with pc := pc }) c = unpushed calls c := by
  rw [unpushed_set calls i call found pc c]
  split
  · rename_i hit
    rw [hit, unpushed, found, same]
  · rfl

theorem conserved_frame (s after : State T W) (conserved : Conserved s)
    (calls : ∀ c, unpushed after.calls c = unpushed s.calls c)
    (workers : ∀ c, inHands after.workers c = inHands s.workers c)
    (length : after.calls.length = s.calls.length := by rfl) (queues : after.queues = s.queues := by rfl)
    (processed : processedItems after.trace = processedItems s.trace := by
      first | rfl | exact filter_map_quiet _ _ _ rfl) : Conserved after := by
  intro c
  rw [calls c, queues, workers c, processedOf, processed, length]
  exact conserved c

theorem wake_in_hands (workers : List (WorkerPc T W)) (c : Nat) :
    inHands (workers.map WorkerPc.wake) c = inHands workers c := by
  apply total_map
  intro pc
  cases pc <;> rfl

theorem call_move_conserved (s after : State T W) (i : Nat) (call : Call T W) (found : s.calls[i]? = some call)
    (moves : CallMove s i call after) (conserved : Conserved s) : Conserved after := by
  have quiet : ∀ pc : SubmitPc, pc.pushed = call.pc.pushed →
      ∀ c, unpushed (s.calls.set i { call with pc := pc }) c = unpushed s.calls c :=
    fun pc same => unpushed_set_same s.calls i call found pc same
  have length : ∀ pc : SubmitPc, (s.calls.set i { call with pc := pc }).length = s.calls.length := by simp
  cases moves with
  | push idx queue here inside free room =>
      intro c
      have before := conserved c
      have grown := total_set (fun queue => queue.countP fun item => item.call == c) s.queues idx queue
        (queue ++ [call.item i]) inside
      have waiting : unpushed s.calls i = 1 := by simp [unpushed, found, here, SubmitPc.pushed]
      have pushed := unpushed_set s.calls i call found (.sample idx) c
      have unprocessed : processedItems (s.trace ++ [.pushed idx (call.item i) (queue.length + 1)]) =
          processedItems s.trace := by simp [processedItems]
      simp only [State.setCall, State.emit, processedOf, unprocessed, List.length_set]
      simp only [processedOf] at before
      rw [pushed]
      by_cases hit : c = i
      · subst c
        simp only [List.countP_append, Call.item, List.countP_singleton, beq_self_eq_true, if_true] at grown
        simp only [SubmitPc.pushed, if_true]
        rw [inQueues] at *
        simp only [Call.item]
        omega
      · have other : ((call.item i).call == c) = false := by simpa [Call.item] using Ne.symm hit
        simp only [List.countP_append, List.countP_singleton, other, Bool.false_eq_true, if_false] at grown
        rw [if_neg hit, inQueues]
        rw [inQueues] at before
        omega
  | signal here free =>
      exact conserved_frame s _ conserved (quiet .returned (by rw [here]; rfl)) (wake_in_hands s.workers) (length _)
  | divide | outside => exact conserved_frame s _ conserved (fun _ => rfl) (fun _ => rfl)
  | pass curr next here passes goes =>
      refine conserved_frame s _ conserved (quiet next ?_) (fun _ => rfl) (length _)
      rcases goes with rfl | rfl <;> rw [here] <;> rfl
  | fail here =>
      refine conserved_frame s _ conserved (quiet .failed ?_) (fun _ => rfl) (length _)
      rcases here with here | ⟨idx, here⟩ <;> rw [here] <;> rfl
  | load here | trip _ here _ | drop here | backoff here | first here _ | spread here _ | rotate here | assign _ here _
  | sample _ _ here _ | exchange _ _ _ here _ _ | retry _ _ _ here _ | settle _ _ _ here _ | count here =>
      exact conserved_frame s _ conserved (quiet _ (by rw [here]; rfl)) (fun _ => rfl) (length _)

theorem take_conserved (s after : State T W) (w idx : Nat) (pc : WorkerPc T W) (queue rest : List (TaskItem T W))
    (item : TaskItem T W) (found : s.workers[w]? = some pc) (empty : pc.item = none)
    (inside : s.queues[idx]? = some queue)
    (removed : ∀ c, (queue.countP fun item => item.call == c) =
      (rest.countP fun item => item.call == c) + if item.call = c then 1 else 0)
    (conserved : Conserved s) (calls : after.calls = s.calls := by rfl)
    (queues : after.queues = s.queues.set idx rest := by rfl)
    (workers : after.workers = s.workers.set w (.subtract item) := by rfl)
    (processed : processedItems after.trace = processedItems s.trace := by
      first | rfl | exact filter_map_quiet _ _ _ rfl) : Conserved after := by
  intro c
  have before := conserved c
  have shrunk := total_set (fun queue => queue.countP fun item => item.call == c) s.queues idx queue rest inside
  have held : inHands after.workers c + 0 = inHands s.workers c + if item.call = c then 1 else 0 :=
    worker_total_move s after w pc (.subtract item) found (WorkerPc.holds c) workers _ _ (by simp [WorkerPc.holds, empty]) rfl
  have gone := removed c
  rw [calls, queues, processedOf, processed, inQueues]
  rw [inQueues, processedOf] at before
  omega

theorem worker_move_conserved (s after : State T W) (w : Nat) (pc : WorkerPc T W) (found : s.workers[w]? = some pc)
    (moves : WorkerMove s w pc after) (conserved : Conserved s) : Conserved after := by
  have quiet : ∀ next : WorkerPc T W, next.item = pc.item →
      ∀ c, inHands (s.workers.set w next) c = inHands s.workers c := by
    intro next same c
    exact total_set_same s.workers w pc next found (WorkerPc.holds c) (by simp only [WorkerPc.holds, same])
  cases moves with
  | take item rest inside free =>
      refine take_conserved s _ w w _ (item :: rest) rest item found rfl inside ?_ conserved
      intro c
      simp [List.countP_cons]
  | steal vic queue item inside free last =>
      refine take_conserved s _ w vic _ queue queue.dropLast item found rfl inside ?_ conserved
      intro c
      have rebuilt : queue = queue.dropLast ++ [item] := (List.dropLast_append_getLast? item last).symm
      conv => lhs; rw [rebuilt]
      simp [List.countP_append, List.countP_singleton]
  | done item =>
      intro c
      have before := conserved c
      have released : inHands (s.workers.set w .drops) c + (if item.call = c then 1 else 0) = inHands s.workers c + 0 :=
        worker_total_move s (s.setWorker w .drops) w _ .drops found (WorkerPc.holds c) rfl _ _ rfl rfl
      have logged : processedItems (s.trace ++ [.processed w item]) = processedItems s.trace ++ [item] := by
        simp [processedItems]
      change unpushed s.calls c + inQueues s.queues c + inHands (s.workers.set w .drops) c +
        processedOf (s.trace ++ [.processed w item]) c = if c < s.calls.length then 1 else 0
      rw [processedOf, logged, List.countP_append, List.countP_singleton, ← before, processedOf]
      simp only [beq_iff_eq]
      omega
  | outside => exact conserved_frame s _ conserved (fun _ => rfl) (fun _ => rfl)
  | _ => exact conserved_frame s _ conserved (fun _ => rfl) (quiet _ rfl)

theorem move_conserved (s after : State T W) (action : Action T W) (moves : Move s action after)
    (conserved : Conserved s) : Conserved after := by
  cases moves with
  | submit owner payload wrappers sequential =>
      intro c
      have before := conserved c
      have logged : processedItems (s.trace ++ [.submitted s.calls.length owner]) = processedItems s.trace := by
        simp [processedItems]
      simp only [State.emit, processedOf, logged, List.length_append, List.length_singleton]
      rw [processedOf] at before
      have fresh : unpushed (s.calls ++ [Call.mk owner payload wrappers .load]) c =
          unpushed s.calls c + if c = s.calls.length then 1 else 0 := by
        rcases Nat.lt_trichotomy c s.calls.length with less | same | more
        · simp [unpushed, List.getElem?_append_left less, Nat.ne_of_lt less]
        · simp [unpushed, same, SubmitPc.pushed]
        · have beyond : (s.calls ++ [Call.mk owner payload wrappers .load])[c]? = none := by
            rw [List.getElem?_eq_none_iff, List.length_append, List.length_singleton]
            omega
          simp [unpushed, beyond, Nat.ne_of_gt more, List.getElem?_eq_none_iff.mpr (Nat.le_of_lt more)]
      rw [fresh]
      split at before <;> split <;> split <;> omega
  | call _ i call after acts found moves => exact call_move_conserved s after i call found moves conserved
  | worker _ w pc after acts found moves => exact worker_move_conserved s after w pc found moves conserved
  | destroy pc after here moves =>
      cases moves with
      | signal => exact conserved_frame s _ conserved (fun _ => rfl) (wake_in_hands s.workers)
      | _ => exact conserved_frame s _ conserved (fun _ => rfl) (fun _ => rfl)
  | _ => exact conserved_frame s _ conserved (fun _ => rfl) (fun _ => rfl)

def Genuine (calls : List (Call T W)) (item : TaskItem T W) : Prop :=
  ∃ call, calls[item.call]? = some call ∧ call.pc.pushed = true ∧ item = call.item item.call

-- Every item anywhere was pushed, and is what its Submit call built.
structure Traced (s : State T W) : Prop where
  genuine : ∀ item ∈ pushedItems s.trace, Genuine s.calls item
  queued : ∀ queue ∈ s.queues, ∀ item ∈ queue, item ∈ pushedItems s.trace
  held : ∀ pc ∈ s.workers, ∀ item, pc.item = some item → item ∈ pushedItems s.trace
  processed : ∀ item ∈ processedItems s.trace, item ∈ pushedItems s.trace

theorem genuine_set (calls : List (Call T W)) (i : Nat) (call : Call T W) (found : calls[i]? = some call)
    (pc : SubmitPc) (stays : call.pc.pushed = true → pc.pushed = true) (item : TaskItem T W)
    (genuine : Genuine calls item) : Genuine (calls.set i { call with pc := pc }) item := by
  obtain ⟨other, present, pushed, built⟩ := genuine
  by_cases same : i = item.call
  · subst i
    have eq : call = other := Option.some.inj (found.symm.trans present)
    have bound := (List.getElem?_eq_some_iff.mp found).1
    exact ⟨{ call with pc := pc }, List.getElem?_set_self bound, stays (eq ▸ pushed), by rw [built, ← eq]; rfl⟩
  · exact ⟨other, by rw [List.getElem?_set_ne same]; exact present, pushed, built⟩

theorem traced_frame (s after : State T W) (traced : Traced s)
    (calls : ∀ item, Genuine s.calls item → Genuine after.calls item)
    (workers : ∀ pc ∈ after.workers, ∀ item, pc.item = some item → ∃ old ∈ s.workers, old.item = some item)
    (queues : after.queues = s.queues := by rfl)
    (pushed : pushedItems after.trace = pushedItems s.trace := by first | rfl | exact filter_map_quiet _ _ _ rfl)
    (processed : processedItems after.trace = processedItems s.trace := by
      first | rfl | exact filter_map_quiet _ _ _ rfl) : Traced after where
  genuine := by
    intro item member
    exact calls item (traced.genuine item (pushed ▸ member))
  queued := by
    rw [queues, pushed]
    exact traced.queued
  held := by
    intro pc member item holds
    obtain ⟨old, present, held⟩ := workers pc member item holds
    rw [pushed]
    exact traced.held old present item held
  processed := by
    rw [processed, pushed]
    exact traced.processed

theorem wake_held (workers : List (WorkerPc T W)) (pc : WorkerPc T W) (member : pc ∈ workers.map WorkerPc.wake)
    (item : TaskItem T W) (holds : pc.item = some item) : ∃ old ∈ workers, old.item = some item := by
  obtain ⟨old, present, rfl⟩ := List.mem_map.mp member
  refine ⟨old, present, ?_⟩
  cases old <;> exact holds

theorem push_traced (s after : State T W) (idx : Nat) (queue : List (TaskItem T W)) (item : TaskItem T W)
    (inside : s.queues[idx]? = some queue) (built : Genuine after.calls item)
    (calls : ∀ item, Genuine s.calls item → Genuine after.calls item)
    (queues : after.queues = s.queues.set idx (queue ++ [item])) (workers : after.workers = s.workers)
    (pushed : pushedItems after.trace = pushedItems s.trace ++ [item])
    (processed : processedItems after.trace = processedItems s.trace) (traced : Traced s) : Traced after where
  genuine := by
    intro other member
    rw [pushed] at member
    rcases List.mem_append.mp member with old | new
    · exact calls other (traced.genuine other old)
    · exact List.mem_singleton.mp new ▸ built
  queued := by
    intro other member held present
    rw [queues] at member
    rw [pushed]
    rcases List.mem_or_eq_of_mem_set member with old | new
    · exact List.mem_append_left _ (traced.queued other old held present)
    · rw [new] at present
      rcases List.mem_append.mp present with earlier | last
      · exact List.mem_append_left _ (traced.queued queue (List.mem_of_getElem? inside) held earlier)
      · exact List.mem_append_right _ last
  held := by
    intro pc member held holds
    rw [pushed]
    exact List.mem_append_left _ (traced.held pc (workers ▸ member) held holds)
  processed := by
    intro other member
    rw [pushed]
    exact List.mem_append_left _ (traced.processed other (processed ▸ member))

theorem call_move_traced (s after : State T W) (i : Nat) (call : Call T W) (found : s.calls[i]? = some call)
    (moves : CallMove s i call after) (traced : Traced s) : Traced after := by
  have kept : ∀ pc : SubmitPc, (call.pc.pushed = true → pc.pushed = true) → ∀ item : TaskItem T W,
      Genuine s.calls item → Genuine (s.calls.set i { call with pc := pc }) item :=
    fun pc => genuine_set s.calls i call found pc
  have same : ∀ pc ∈ s.workers, ∀ item, pc.item = some item → ∃ old ∈ s.workers, old.item = some item :=
    fun pc member item holds => ⟨pc, member, holds⟩
  cases moves with
  | push idx queue here inside free room =>
      have bound := (List.getElem?_eq_some_iff.mp found).1
      exact push_traced s _ idx queue (call.item i) inside ⟨_, List.getElem?_set_self bound, rfl, rfl⟩
        (kept _ fun _ => rfl) rfl rfl (filter_map_logs _ _ _ _ rfl) (filter_map_quiet _ _ _ rfl) traced
  | signal here free =>
      exact traced_frame s _ traced (kept .returned fun _ => rfl) (wake_held s.workers)
  | divide | outside => exact traced_frame s _ traced (fun _ genuine => genuine) same
  | pass curr next here passes goes =>
      exact traced_frame s _ traced (kept next (by simp [here, SubmitPc.pushed])) same
  | fail here =>
      refine traced_frame s _ traced (kept .failed ?_) same
      rcases here with here | ⟨idx, here⟩ <;> simp [here, SubmitPc.pushed]
  | load here | trip _ here _ | drop here | backoff here | first here _ | spread here _ | rotate here | assign _ here _
  | sample _ _ here _ | exchange _ _ _ here _ _ | retry _ _ _ here _ | settle _ _ _ here _ | count here =>
      exact traced_frame s _ traced (kept _ (by simp [here, SubmitPc.pushed])) same

theorem take_traced (s after : State T W) (w idx : Nat) (queue rest : List (TaskItem T W)) (item : TaskItem T W)
    (inside : s.queues[idx]? = some queue) (smaller : ∀ other ∈ rest, other ∈ queue) (taken : item ∈ queue)
    (traced : Traced s) (calls : after.calls = s.calls := by rfl)
    (queues : after.queues = s.queues.set idx rest := by rfl)
    (workers : after.workers = s.workers.set w (.subtract item) := by rfl)
    (pushed : pushedItems after.trace = pushedItems s.trace := by first | rfl | exact filter_map_quiet _ _ _ rfl)
    (processed : processedItems after.trace = processedItems s.trace := by
      first | rfl | exact filter_map_quiet _ _ _ rfl) : Traced after := by
  have known := traced.queued queue (List.mem_of_getElem? inside)
  refine ⟨?_, ?_, ?_, ?_⟩
  · rw [pushed, calls]
    exact traced.genuine
  · intro other member
    rw [queues] at member
    rw [pushed]
    rcases List.mem_or_eq_of_mem_set member with old | new
    · exact traced.queued other old
    · exact fun item present => known item (smaller item (new ▸ present))
  · intro pc member held holds
    rw [workers] at member
    rw [pushed]
    rcases List.mem_or_eq_of_mem_set member with old | new
    · exact traced.held pc old held holds
    · have eq : item = held := by simpa [new, WorkerPc.item] using holds
      exact eq ▸ known item taken
  · rw [processed, pushed]
    exact traced.processed

theorem done_traced (s after : State T W) (item : TaskItem T W) (known : item ∈ pushedItems s.trace)
    (calls : after.calls = s.calls) (queues : after.queues = s.queues)
    (workers : ∀ pc ∈ after.workers, ∀ item, pc.item = some item → ∃ old ∈ s.workers, old.item = some item)
    (pushed : pushedItems after.trace = pushedItems s.trace)
    (processed : processedItems after.trace = processedItems s.trace ++ [item]) (traced : Traced s) :
    Traced after where
  genuine := by
    rw [pushed, calls]
    exact traced.genuine
  queued := by
    rw [queues, pushed]
    exact traced.queued
  held := by
    intro pc member held holds
    obtain ⟨old, present, same⟩ := workers pc member held holds
    exact pushed ▸ traced.held old present held same
  processed := by
    intro other member
    rw [processed] at member
    rw [pushed]
    rcases List.mem_append.mp member with old | new
    · exact traced.processed other old
    · exact List.mem_singleton.mp new ▸ known

theorem worker_move_traced (s after : State T W) (w : Nat) (pc : WorkerPc T W) (found : s.workers[w]? = some pc)
    (moves : WorkerMove s w pc after) (traced : Traced s) : Traced after := by
  have quiet : ∀ next : WorkerPc T W, (∀ item, next.item = some item → pc.item = some item) →
      ∀ other ∈ s.workers.set w next, ∀ item, other.item = some item → ∃ old ∈ s.workers, old.item = some item := by
    intro next kept other member item holds
    rcases List.mem_or_eq_of_mem_set member with old | new
    · exact ⟨other, old, holds⟩
    · exact ⟨pc, List.mem_of_getElem? found, kept item (new ▸ holds)⟩
  cases moves with
  | take item rest inside free =>
      exact take_traced s _ w w (item :: rest) rest item inside (fun _ => List.mem_cons_of_mem item)
        List.mem_cons_self traced
  | steal vic queue item inside free last =>
      exact take_traced s _ w vic queue queue.dropLast item inside (fun _ => (List.dropLast_sublist queue).mem)
        (List.mem_of_getLast? last) traced
  | done item =>
      exact done_traced s _ item (traced.held _ (List.mem_of_getElem? found) item rfl) rfl rfl
        (quiet .drops (by simp [WorkerPc.item]))
        (filter_map_quiet _ _ _ rfl) (filter_map_logs _ _ _ _ rfl) traced
  | outside => exact traced_frame s _ traced (fun _ genuine => genuine) (fun pc member item holds => ⟨pc, member, holds⟩)
  | _ => exact traced_frame s _ traced (fun _ genuine => genuine) (quiet _ (by simp [WorkerPc.item]))

theorem move_traced (s after : State T W) (action : Action T W) (moves : Move s action after) (traced : Traced s) :
    Traced after := by
  have same : ∀ pc ∈ s.workers, ∀ item, pc.item = some item → ∃ old ∈ s.workers, old.item = some item :=
    fun pc member item holds => ⟨pc, member, holds⟩
  cases moves with
  | submit owner payload wrappers sequential =>
      refine traced_frame s _ traced ?_ same
      rintro item ⟨call, present, pushed, built⟩
      have bound := (List.getElem?_eq_some_iff.mp present).1
      exact ⟨call, (List.getElem?_append_left bound).trans present, pushed, built⟩
  | call _ i call after acts found moves => exact call_move_traced s after i call found moves traced
  | worker _ w pc after acts found moves => exact worker_move_traced s after w pc found moves traced
  | destroy pc after here moves =>
      cases moves with
      | signal => exact traced_frame s _ traced (fun _ genuine => genuine) (wake_held s.workers)
      | _ => exact traced_frame s _ traced (fun _ genuine => genuine) same
  | _ => exact traced_frame s _ traced (fun _ genuine => genuine) same

theorem reachable_conserved (guard : State T W → Action T W → Prop) (cfg : TaskProcessorConfig) (now : Int)
    (s : State T W) (reachable : Machine.Reachable step guard (construct cfg now) s) : Conserved s ∧ Traced s := by
  refine Machine.reachable_invariant step guard _ (fun s => Conserved s ∧ Traced s) ?_ ?_ s reachable
  · constructor
    · intro c
      have empty : inQueues (construct cfg now : State T W).queues c = 0 := by
        simp [inQueues, construct, total_eq_zero]
      have idle : inHands (construct cfg now : State T W).workers c = 0 := by
        simp [inHands, construct, total_eq_zero, WorkerPc.holds, WorkerPc.item]
      rw [empty, idle]
      rfl
    · refine ⟨?_, ?_, ?_, ?_⟩ <;> simp [construct, pushedItems, processedItems, WorkerPc.item]
  · intro before action after _ both _ taken
    obtain ⟨conserved, traced⟩ := both
    have moves := (step_move before after action taken).2
    exact ⟨move_conserved before after action moves conserved, move_traced before after action moves traced⟩

inductive Place where
  | unpushed
  | dropped
  | queue (q pos : Nat)
  | held (w : Nat)
  | processed

-- A call whose push_back threw stays unpushed for ever.
def Occupies (s : State T W) (c : Nat) : Place → Prop
  | .unpushed => ∃ call, s.calls[c]? = some call ∧ call.pc.pushed = false ∧ call.pc ≠ .dropped
  | .dropped => ∃ call, s.calls[c]? = some call ∧ call.pc = .dropped
  | .queue q pos => ∃ call queue, s.calls[c]? = some call ∧ s.queues[q]? = some queue ∧ queue[pos]? = some (call.item c)
  | .held w => ∃ call pc, s.calls[c]? = some call ∧ s.workers[w]? = some pc ∧ pc.item = some (call.item c)
  | .processed => ∃ call, s.calls[c]? = some call ∧ call.item c ∈ processedItems s.trace

def placeWeight (s : State T W) (c : Nat) : Place → Nat
  | .unpushed | .dropped => unpushed s.calls c
  | .queue _ _ => inQueues s.queues c
  | .held _ => inHands s.workers c
  | .processed => processedOf s.trace c

theorem occupies_weight (s : State T W) (c : Nat) (place : Place) (occupies : Occupies s c place) :
    0 < placeWeight s c place := by
  cases place with
  | unpushed =>
      obtain ⟨call, found, waiting, _⟩ := occupies
      simp [placeWeight, unpushed, found, waiting]
  | dropped =>
      obtain ⟨call, found, here⟩ := occupies
      simp [placeWeight, unpushed, found, here, SubmitPc.pushed]
  | queue q pos =>
      obtain ⟨call, queue, found, inside, present⟩ := occupies
      have some : 0 < queue.countP fun item => item.call == c :=
        List.countP_pos_iff.mpr ⟨_, List.mem_of_getElem? present, by simp [Call.item]⟩
      exact Nat.lt_of_lt_of_le some (weight_le_total (fun queue : List (TaskItem T W) => queue.countP fun item => item.call == c)
        s.queues queue (List.mem_of_getElem? inside))
  | held w =>
      obtain ⟨call, pc, found, inside, holds⟩ := occupies
      have one : WorkerPc.holds c pc = 1 := by simp [WorkerPc.holds, holds, Call.item]
      exact Nat.lt_of_lt_of_le (by omega) (weight_le_total (WorkerPc.holds c) s.workers pc (List.mem_of_getElem? inside))
  | processed =>
      obtain ⟨call, found, present⟩ := occupies
      exact List.countP_pos_iff.mpr ⟨_, present, by simp [Call.item]⟩

theorem genuine_item (calls : List (Call T W)) (call : Call T W) (item : TaskItem T W) (genuine : Genuine calls item)
    (found : calls[item.call]? = some call) : item = call.item item.call := by
  obtain ⟨other, present, _, built⟩ := genuine
  have same : other = call := Option.some.inj (present.symm.trans found)
  exact same ▸ built

theorem queued_once (s : State T W) (c : Nat) (call : Call T W) (found : s.calls[c]? = some call) (traced : Traced s)
    (once : inQueues s.queues c = 1) :
    ∃ q pos, Occupies s c (.queue q pos) ∧ ∀ q' pos', Occupies s c (.queue q' pos') → q' = q ∧ pos' = pos := by
  obtain ⟨q, queue, inside, one, onlyQueue⟩ := total_eq_one _ s.queues once
  rw [countP_total] at one
  obtain ⟨pos, item, present, hit, onlyPos⟩ := total_eq_one _ queue one
  have named : item.call = c := by simpa using hit
  have known := traced.genuine item
    (traced.queued queue (List.mem_of_getElem? inside) item (List.mem_of_getElem? present))
  have built : item = call.item c := by
    subst c
    exact genuine_item s.calls call item known found
  refine ⟨q, pos, ⟨call, queue, found, inside, built ▸ present⟩, ?_⟩
  rintro q' pos' ⟨other, queue', _, inside', present'⟩
  have sameQueue : q' = q := by
    apply onlyQueue q' queue' inside'
    exact Nat.pos_iff_ne_zero.mp (List.countP_pos_iff.mpr ⟨_, List.mem_of_getElem? present', by simp [Call.item]⟩)
  subst q'
  have same : queue' = queue := Option.some.inj (inside'.symm.trans inside)
  subst queue'
  exact ⟨rfl, onlyPos pos' _ present' (by simp [Call.item])⟩

theorem held_once (s : State T W) (c : Nat) (call : Call T W) (found : s.calls[c]? = some call) (traced : Traced s)
    (once : inHands s.workers c = 1) :
    ∃ w, Occupies s c (.held w) ∧ ∀ w', Occupies s c (.held w') → w' = w := by
  obtain ⟨w, pc, inside, one, only⟩ := total_eq_one _ s.workers once
  cases holds : pc.item with
  | none => simp [WorkerPc.holds, holds] at one
  | some item =>
      have named : item.call = c := by simpa [WorkerPc.holds, holds] using one
      have known := traced.genuine item (traced.held pc (List.mem_of_getElem? inside) item holds)
      have built : item = call.item c := by
        subst c
        exact genuine_item s.calls call item known found
      refine ⟨w, ⟨call, pc, found, inside, built ▸ holds⟩, ?_⟩
      rintro w' ⟨other, pc', _, inside', holds'⟩
      exact only w' pc' inside' (by simp [WorkerPc.holds, holds', Call.item])

theorem exactly_one_place (s : State T W) (conserved : Conserved s) (traced : Traced s) (c : Nat)
    (submitted : c < s.calls.length) : ∃! place, Occupies s c place := by
  have sum := conserved c
  rw [if_pos submitted] at sum
  have found : s.calls[c]? = some s.calls[c] := List.getElem?_eq_getElem submitted
  generalize s.calls[c] = call at found
  have weighs := occupies_weight s c
  cases pushed : call.pc.pushed with
  | false =>
      have waiting : unpushed s.calls c = 1 := by simp [unpushed, found, pushed]
      have nowhere : ∀ place, Occupies s c place → place = .unpushed ∨ place = .dropped := by
        intro place occupies
        have positive := weighs place occupies
        cases place <;> simp only [placeWeight] at positive <;> first | omega | simp
      by_cases dropped : call.pc = .dropped
      · refine ⟨.dropped, ⟨call, found, dropped⟩, ?_⟩
        intro place occupies
        rcases nowhere place occupies with rfl | rfl
        · obtain ⟨other, present, _, different⟩ := occupies
          have same : other = call := Option.some.inj (present.symm.trans found)
          exact absurd (same ▸ dropped) different
        · rfl
      · refine ⟨.unpushed, ⟨call, found, pushed, dropped⟩, ?_⟩
        intro place occupies
        rcases nowhere place occupies with rfl | rfl
        · rfl
        · obtain ⟨other, present, here⟩ := occupies
          have same : other = call := Option.some.inj (present.symm.trans found)
          exact absurd (same ▸ here) dropped
  | true =>
      have gone : unpushed s.calls c = 0 := by simp [unpushed, found, pushed]
      have cases : inQueues s.queues c = 1 ∨ inHands s.workers c = 1 ∨ processedOf s.trace c = 1 := by omega
      rcases cases with once | once | once
      · obtain ⟨q, pos, occupied, only⟩ := queued_once s c call found traced once
        refine ⟨.queue q pos, occupied, ?_⟩
        intro place occupies
        have positive := weighs place occupies
        cases place with
        | queue q' pos' =>
            obtain ⟨rfl, rfl⟩ := only q' pos' occupies
            rfl
        | _ => simp only [placeWeight] at positive; omega
      · obtain ⟨w, occupied, only⟩ := held_once s c call found traced once
        refine ⟨.held w, occupied, ?_⟩
        intro place occupies
        have positive := weighs place occupies
        cases place with
        | held w' => rw [only w' occupies]
        | _ => simp only [placeWeight] at positive; omega
      · obtain ⟨item, present, hit⟩ := List.countP_pos_iff.mp (show 0 < processedOf s.trace c by omega)
        have named : item.call = c := by simpa using hit
        have known := traced.genuine item (traced.processed item present)
        have built : item = call.item c := by
          subst c
          exact genuine_item s.calls call item known found
        refine ⟨.processed, ⟨call, found, built ▸ present⟩, ?_⟩
        intro place occupies
        have positive := weighs place occupies
        cases place with
        | processed => rfl
        | _ => simp only [placeWeight] at positive; omega

-- A task is among the pushed ones exactly when its call is past push_back.
theorem pushed_iff (s : State T W) (conserved : Conserved s) (traced : Traced s) (c : Nat) (call : Call T W)
    (found : s.calls[c]? = some call) : call.item c ∈ pushedItems s.trace ↔ call.pc.pushed = true := by
  constructor
  · intro member
    obtain ⟨other, present, pushed, _⟩ := traced.genuine _ member
    have same : other = call := Option.some.inj (present.symm.trans found)
    exact same ▸ pushed
  · intro pushed
    have single : ∀ other, s.calls[c]? = some other → other = call := fun other present =>
      Option.some.inj (present.symm.trans found)
    obtain ⟨place, occupies, _⟩ := exactly_one_place s conserved traced c (List.getElem?_eq_some_iff.mp found).1
    cases place with
    | unpushed =>
        obtain ⟨other, present, waiting, _⟩ := occupies
        rw [single other present, pushed] at waiting
        cases waiting
    | dropped =>
        obtain ⟨other, present, here⟩ := occupies
        rw [single other present] at here
        rw [here] at pushed
        cases pushed
    | queue q pos =>
        obtain ⟨other, queue, present, inside, queued⟩ := occupies
        exact single other present ▸ traced.queued queue (List.mem_of_getElem? inside) _ (List.mem_of_getElem? queued)
    | held w =>
        obtain ⟨other, pc, present, inside, holds⟩ := occupies
        exact single other present ▸ traced.held pc (List.mem_of_getElem? inside) _ holds
    | processed =>
        obtain ⟨other, present, done⟩ := occupies
        exact single other present ▸ traced.processed _ done

theorem processed_once (s : State T W) (conserved : Conserved s) :
    ((processedItems s.trace).map TaskItem.call).Nodup := by
  rw [List.nodup_iff_count_le_one]
  intro c
  have sum := conserved c
  have same : ((processedItems s.trace).map TaskItem.call).count c = processedOf s.trace c := by
    rw [List.count_eq_countP, List.countP_map]
    rfl
  rw [same]
  split at sum <;> omega

-- With fewer items alive than the counter can hold, the congruence is an
-- equation as soon as no thread stands between a queue and the counter.
theorem tasks_conserved (cfg : TaskProcessorConfig) (now : Int) (threads : 1 ≤ cfg.numThreads)
    (policy : PolicyInRange cfg) (s : State T W)
    (reachable : Machine.Reachable step KeepsThreads (construct cfg now) s) :
    s.fault = false ∧
      (∀ c < s.calls.length, ∃! place, Occupies s c place) ∧
      ((processedItems s.trace).map TaskItem.call).Nodup ∧
      (s.tasksInQueue.toNat : ℤ) ≡ s.queued + s.unsubtracted - s.uncounted [ZMOD 2 ^ 64] ∧
      ((∀ call ∈ s.calls, call.pc.uncounted = 0) → (∀ pc ∈ s.workers, pc.unsubtracted = 0) →
        s.tasksInQueue.toNat = s.queued) := by
  obtain ⟨conserved, traced⟩ := reachable_conserved KeepsThreads cfg now s reachable
  have ledger := reachable_ledger KeepsThreads cfg now s reachable
  have balanced := ledger.balanced
  have fits := ledger.fits
  have limit : itemLimit < 2 ^ 64 := by decide
  refine ⟨(reachable_in_range cfg now threads policy s reachable).sound,
    exactly_one_place s conserved traced, processed_once s conserved, ?_, ?_⟩
  · rw [Int.ModEq]
    rw [State.outstanding] at balanced
    omega
  · intro submits pops
    have counted : s.uncounted = 0 := (total_eq_zero _ s.calls).mpr submits
    have subtracted : s.unsubtracted = 0 := (total_eq_zero _ s.workers).mpr pops
    have below := s.tasksInQueue.toNat_lt
    rw [State.outstanding] at balanced fits
    omega

def stealingPair : TaskProcessorConfig := { numThreads := 2, mode := .workStealing }

-- Worker 1 finds its own queue empty and has just stolen the task of queue 0.
def stolenTask : List (Action Nat Nat) :=
  [[.submit 0 7 []], List.replicate 10 (.call 0), List.replicate 10 (.worker 1), [.workerSteals 1 0, .worker 1]].flatten

theorem stolen_task_conserved :
    ∃ s : State Nat Nat, Machine.Reachable step KeepsThreads (construct stealingPair 0) s ∧
      s.unsubtracted = 1 ∧ s.queued = 0 ∧ Occupies s 0 (.held 1) ∧ (∃! place, Occupies s 0 place) := by
  obtain ⟨s, reachable, shown⟩ := Machine.run_exhibits step KeepsThreads (construct stealingPair 0) stolenTask
    (fun s => s.calls.length == 1 && s.unsubtracted == 1 && s.queued == 0 &&
      s.calls[0]? == some ⟨0, 7, [], .returned⟩ && s.workers[1]? == some (.subtract ⟨7, [], 0⟩)) (by decide)
  simp only [Bool.and_eq_true, beq_iff_eq] at shown
  obtain ⟨⟨⟨⟨length, popped⟩, empty⟩, found⟩, held⟩ := shown
  have conserved := tasks_conserved stealingPair 0 (by decide) (by intro policy chosen; simp [stealingPair] at chosen)
    s reachable
  exact ⟨s, reachable, popped, empty, ⟨_, _, found, held, rfl⟩, conserved.2.1 0 (by omega)⟩

end Vectro.Pool
