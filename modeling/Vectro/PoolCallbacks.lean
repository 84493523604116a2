import Vectro.PoolFifo

set_option autoImplicit false

namespace Vectro.Pool

open Traces

variable {T W : Type}

inductive Invocation (W : Type) where
  | callback (k : Nat)
  | wrapper (wrapper : W)

def invocations (log : List (Event T W)) : List (Invocation W × TaskItem T W) :=
  log.filterMap fun
    | .callback _ k item _ => some (.callback k, item)
    | .wrapper _ wrapper item _ => some (.wrapper wrapper, item)
    | _ => none

def callbackRun (item : TaskItem T W) (m : Nat) : List (Invocation W × TaskItem T W) :=
  (List.range m).map fun k => (.callback k, item)

def wrapperRun (item : TaskItem T W) (wrappers : List W) : List (Invocation W × TaskItem T W) :=
  wrappers.map fun wrapper => (.wrapper wrapper, item)

-- The callbacks of one task: the m registered ones, then its own.
def block (m : Nat) (item : TaskItem T W) : List (Invocation W × TaskItem T W) :=
  callbackRun item m ++ wrapperRun item item.wrappers

def Event.isSubmitted : Event T W → Bool
  | .submitted _ _ => true
  | _ => false

def Event.isRegistered : Event T W → Bool
  | .registered => true
  | _ => false

-- How many callbacks were registered before the first Submit.
def registeredFirst (log : List (Event T W)) : Nat :=
  (log.takeWhile fun event => !event.isSubmitted).countP Event.isRegistered

theorem none_registered (events : List (Event T W)) (silent : ∀ event ∈ events, event.isRegistered = false) :
    events.countP Event.isRegistered = 0 := by
  rw [List.countP_eq_zero]
  intro event member
  simp [silent event member]

theorem registered_first_append (log events : List (Event T W))
    (silent : (∀ event ∈ events, event.isRegistered = false) ∨ ∃ event ∈ log, event.isSubmitted = true) :
    registeredFirst (log ++ events) = registeredFirst log := by
  rw [registeredFirst, List.takeWhile_append]
  split
  · rename_i all
    have whole := List.IsPrefix.eq_of_length (List.takeWhile_prefix (fun event : Event T W => !event.isSubmitted)) all
    rcases silent with silent | ⟨event, member, submitted⟩
    · have none := none_registered (events.takeWhile fun event => !event.isSubmitted) fun event member =>
        silent event ((List.takeWhile_sublist _).subset member)
      rw [registeredFirst, whole, List.countP_append, none, Nat.add_zero]
    · have kept := List.all_eq_true.mp List.all_takeWhile event (whole.symm ▸ member)
      simp [submitted] at kept
  · rfl

theorem registered_first_le (log : List (Event T W)) : registeredFirst log ≤ log.countP Event.isRegistered :=
  (List.takeWhile_sublist _).countP_le

structure Registry (s : State T W) : Prop where
  counted : s.trace.countP Event.isRegistered = s.globalCallbacks
  unused : (∀ event ∈ s.trace, event.isSubmitted = false) → s.calls = []

theorem registry_frame (s after : State T W) (registry : Registry s) (events : List (Event T W))
    (trace : after.trace = s.trace ++ events) (silent : ∀ event ∈ events, event.isRegistered = false)
    (callbacks : after.globalCallbacks = s.globalCallbacks) (calls : after.calls.length = s.calls.length) :
    Registry after where
  counted := by
    rw [trace, List.countP_append, none_registered events silent, callbacks, Nat.add_zero]
    exact registry.counted
  unused := by
    intro quiet
    have none := registry.unused fun event member => quiet event (by rw [trace]; exact List.mem_append_left _ member)
    exact List.eq_nil_of_length_eq_zero (by rw [calls, none]; rfl)

theorem of_call_not_registered (event : Event T W) (called : event.ofCall = true) : event.isRegistered = false := by
  cases event <;> first | rfl | simp [Event.ofCall] at called

theorem of_worker_not_registered (event : Event T W) (worked : event.ofWorker = true) : event.isRegistered = false := by
  cases event <;> first | rfl | simp [Event.ofWorker] at worked

theorem move_registry (s after : State T W) (action : Action T W) (moves : Move s action after)
    (registry : Registry s) : Registry after := by
  cases moves with
  | submit owner payload wrappers sequential =>
      refine ⟨?_, fun quiet => ?_⟩
      · simpa [Event.isRegistered] using registry.counted
      · have said := quiet (.submitted s.calls.length owner) (by simp)
        cases said
  | call _ i call after acts found moves =>
      obtain ⟨events, trace, called⟩ := call_move_emits s after i call moves
      have silent := fun event member => of_call_not_registered event (called event member)
      cases moves with
      | divide | outside => exact registry_frame s _ registry events trace silent rfl rfl
      | _ => exact registry_frame s _ registry events trace silent rfl (List.length_set ..)
  | worker _ w pc after acts found moves =>
      obtain ⟨events, trace, worked⟩ := worker_move_emits s after w pc moves
      have silent := fun event member => of_worker_not_registered event (worked event member)
      cases moves <;> exact registry_frame s _ registry events trace silent rfl rfl
  | destroy pc after here moves =>
      cases moves with
      | store | final => exact registry_frame s _ registry [_] rfl (by simp [Event.isRegistered]) rfl rfl
      | _ => exact registry_frame s _ registry [] (List.append_nil _).symm (by simp) rfl rfl
  | registerCallback free =>
      refine ⟨?_, fun quiet => registry.unused fun event member => quiet event (List.mem_append_left _ member)⟩
      have counted := registry.counted
      simp only [State.emit, List.countP_append, counted]
      rfl
  | getDroppedCount => exact registry_frame s _ registry [_] rfl (by simp [Event.isRegistered]) rfl rfl
  | _ => exact registry_frame s _ registry [] (List.append_nil _).symm (by simp) rfl rfl

-- How far worker 0 has come with the callbacks of the task it holds.
def Progress (bound : Nat) : WorkerPc T W → List (Invocation W × TaskItem T W) → Prop
  | .callbacks item k, ongoing => ongoing = callbackRun item k
  | .wrappers item remaining, ongoing => ∃ m finished, bound ≤ m ∧ item.wrappers = finished ++ remaining ∧
      ongoing = callbackRun item m ++ wrapperRun item finished
  | _, ongoing => ongoing = []

def Blocked (s : State T W) : Prop :=
  ∃ counts ongoing, counts.length = (processedItems s.trace).length ∧
    (∀ m ∈ counts, registeredFirst s.trace ≤ m) ∧
    invocations s.trace = (List.zipWith block counts (processedItems s.trace)).flatten ++ ongoing ∧
    Progress (registeredFirst s.trace) s.first ongoing

theorem blocked_frame (s after : State T W) (blocked : Blocked s) (events : List (Event T W))
    (trace : after.trace = s.trace ++ events)
    (silent : (∀ event ∈ events, event.isRegistered = false) ∨ ∃ event ∈ s.trace, event.isSubmitted = true)
    (progress : ∀ ongoing, Progress (registeredFirst s.trace) s.first ongoing →
      Progress (registeredFirst s.trace) after.first ongoing)
    (processed : processedItems after.trace = processedItems s.trace := by
      first | rfl | exact filter_map_quiet _ _ _ rfl)
    (invoked : invocations after.trace = invocations s.trace := by
      first | rfl | exact filter_map_quiet _ _ _ rfl) : Blocked after := by
  obtain ⟨counts, ongoing, length, enough, calls, done⟩ := blocked
  have same : registeredFirst after.trace = registeredFirst s.trace := by
    rw [trace]
    exact registered_first_append s.trace events silent
  refine ⟨counts, ongoing, by rw [processed]; exact length, by rw [same]; exact enough, ?_, ?_⟩
  · rw [invoked, processed]
    exact calls
  · rw [same]
    exact progress ongoing done

theorem invoke_blocked (s after : State T W) (blocked : Blocked s) (event : Event T W)
    (invocation : Invocation W × TaskItem T W) (trace : after.trace = s.trace ++ [event])
    (silent : event.isRegistered = false) (processed : processedItems after.trace = processedItems s.trace)
    (invoked : invocations after.trace = invocations s.trace ++ [invocation])
    (progress : ∀ ongoing, Progress (registeredFirst s.trace) s.first ongoing →
      Progress (registeredFirst s.trace) after.first (ongoing ++ [invocation])) : Blocked after := by
  obtain ⟨counts, ongoing, length, enough, calls, done⟩ := blocked
  have same : registeredFirst after.trace = registeredFirst s.trace := by
    rw [trace]
    exact registered_first_append s.trace [event] (.inl (by simpa using silent))
  refine ⟨counts, ongoing ++ [invocation], by rw [processed]; exact length, by rw [same]; exact enough, ?_, ?_⟩
  · rw [invoked, processed, calls, List.append_assoc]
  · rw [same]
    exact progress ongoing done

theorem done_blocked (s after : State T W) (blocked : Blocked s) (w : Nat) (item : TaskItem T W)
    (here : s.first = .wrappers item []) (gone : after.first = .drops)
    (trace : after.trace = s.trace ++ [.processed w item]) : Blocked after := by
  obtain ⟨counts, ongoing, length, enough, calls, done⟩ := blocked
  rw [here] at done
  obtain ⟨m, finished, bound, split, rest⟩ := done
  have all : ongoing = block m item := by
    rw [rest, block, split, List.append_nil]
  have same : registeredFirst after.trace = registeredFirst s.trace := by
    rw [trace]
    exact registered_first_append s.trace _ (.inl (by simp [Event.isRegistered]))
  have processed : processedItems after.trace = processedItems s.trace ++ [item] := by rw [trace]; simp [processedItems]
  have invoked : invocations after.trace = invocations s.trace := by rw [trace]; simp [invocations]
  refine ⟨counts ++ [m], [], ?_, ?_, ?_, ?_⟩
  · rw [processed, List.length_append, List.length_append, length]
    rfl
  · rw [same]
    intro count member
    rcases List.mem_append.mp member with old | new
    · exact enough count old
    · exact List.mem_singleton.mp new ▸ bound
  · rw [invoked, processed, calls, List.zipWith_append length, all]
    simp
  · rw [gone]
    rfl

theorem callback_run_succ (item : TaskItem T W) (k : Nat) :
    callbackRun item (k + 1) = callbackRun item k ++ [(.callback k, item)] := by
  simp [callbackRun, List.range_succ]

theorem wrapper_run_append (item : TaskItem T W) (finished : List W) (wrapper : W) :
    wrapperRun item (finished ++ [wrapper]) = wrapperRun item finished ++ [(.wrapper wrapper, item)] := by
  simp [wrapperRun]

theorem progress_idle (bound : Nat) (pc : WorkerPc T W) (idle : pc.item = .none)
    (ongoing : List (Invocation W × TaskItem T W)) : Progress bound pc ongoing ↔ ongoing = [] := by
  cases pc <;> first | exact Iff.rfl | simp [WorkerPc.item] at idle

theorem progress_wake (bound : Nat) (pc : WorkerPc T W) (ongoing : List (Invocation W × TaskItem T W))
    (progress : Progress bound pc ongoing) : Progress bound pc.wake ongoing := by
  cases pc <;> exact progress

theorem worker_move_blocked (s after : State T W) (w : Nat) (pc : WorkerPc T W) (found : s.workers[w]? = some pc)
    (moves : WorkerMove s w pc after) (solo : Solo s) (registry : Registry s) (blocked : Blocked s) :
    Blocked after := by
  obtain ⟨events, trace, worked⟩ := worker_move_emits s after w pc moves
  have silent := fun event member => of_worker_not_registered event (worked event member)
  have same : ∀ (after : State T W) (next : WorkerPc T W), after.workers = s.workers.set w next →
      (∀ ongoing, Progress (registeredFirst s.trace) pc ongoing → Progress (registeredFirst s.trace) next ongoing) →
      ∀ ongoing, Progress (registeredFirst s.trace) s.first ongoing →
        Progress (registeredFirst s.trace) after.first ongoing := by
    intro after next workers kept ongoing progress
    rcases set_first s after w pc next found workers with ⟨_, was, is⟩ | ⟨_, is⟩
    · rw [is]
      exact kept ongoing (was ▸ progress)
    · rwa [is]
  have mine : pc.bystander = false → ∀ (after : State T W) (next : WorkerPc T W),
      after.workers = s.workers.set w next → s.first = pc ∧ after.first = next := by
    intro takes after next workers
    rcases set_first s after w pc next found workers with ⟨_, was, is⟩ | ⟨later, _⟩
    · exact ⟨was, is⟩
    · have stands := solo.workers w pc found later
      rw [takes] at stands
      cases stands
  cases moves with
  | callback item k threw more =>
      obtain ⟨was, is⟩ := mine rfl ((s.setWorker w (.callbacks item (k + 1))).emit (.callback w k item threw)) _ rfl
      refine invoke_blocked s _ blocked _ (.callback k, item) rfl rfl (filter_map_quiet _ _ _ rfl)
        (filter_map_logs _ _ _ _ rfl) ?_
      intro ongoing progress
      rw [was] at progress
      rw [is]
      have sofar : ongoing = callbackRun item k := progress
      rw [sofar, ← callback_run_succ]
      rfl
  | called item k ended =>
      refine blocked_frame s _ blocked events trace (.inl silent) (same _ _ rfl ?_)
      intro ongoing progress
      have sofar : ongoing = callbackRun item k := progress
      have first := registered_first_le s.trace
      rw [registry.counted] at first
      exact ⟨k, [], by omega, rfl, by rw [sofar]; simp [wrapperRun]⟩
  | wrapper item wrapper remaining threw =>
      obtain ⟨was, is⟩ := mine rfl ((s.setWorker w (.wrappers item remaining)).emit (.wrapper w wrapper item threw)) _ rfl
      refine invoke_blocked s _ blocked _ (.wrapper wrapper, item) rfl rfl (filter_map_quiet _ _ _ rfl)
        (filter_map_logs _ _ _ _ rfl) ?_
      intro ongoing progress
      rw [was] at progress
      rw [is]
      obtain ⟨m, finished, bound, split, rest⟩ := progress
      refine ⟨m, finished ++ [wrapper], bound, by rw [split, List.append_assoc]; rfl, ?_⟩
      rw [rest, wrapper_run_append, List.append_assoc]
  | done item =>
      obtain ⟨was, is⟩ := mine rfl ((s.setWorker w .drops).emit (.processed w item)) _ rfl
      exact done_blocked s _ blocked w item was is rfl
  | outside => exact blocked_frame s _ blocked events trace (.inl silent) fun _ progress => progress
  | lockCallbacks item free =>
      exact blocked_frame s _ blocked events trace (.inl silent) (same _ _ rfl fun _ progress => progress)
  | _ => exact blocked_frame s _ blocked events trace (.inl silent) (same _ _ rfl fun _ progress => progress)

theorem call_move_blocked (s after : State T W) (i : Nat) (call : Call T W) (moves : CallMove s i call after)
    (blocked : Blocked s) : Blocked after := by
  obtain ⟨events, trace, called⟩ := call_move_emits s after i call moves
  have silent := fun event member => of_call_not_registered event (called event member)
  cases moves with
  | signal here free =>
      apply blocked_frame s _ blocked events trace (.inl silent)
      intro ongoing progress
      rw [wake_first s _ rfl]
      exact progress_wake _ _ ongoing progress
  | _ => exact blocked_frame s _ blocked events trace (.inl silent) fun _ progress => progress

-- Before the first Submit there is no task, so a callback registered then
-- misses none.
theorem register_blocked (s after : State T W) (blocked : Blocked s) (ordered : Ordered s) (traced : Traced s)
    (registry : Registry s) (trace : after.trace = s.trace ++ [.registered]) (first : after.first = s.first) :
    Blocked after := by
  have processed : processedItems after.trace = processedItems s.trace := by rw [trace]; simp [processedItems]
  have invoked : invocations after.trace = invocations s.trace := by rw [trace]; simp [invocations]
  by_cases quiet : ∀ event ∈ s.trace, event.isSubmitted = false
  · have none : pushedItems s.trace = [] := by
      rw [List.eq_nil_iff_forall_not_mem]
      intro item member
      obtain ⟨call, found, _⟩ := traced.genuine item member
      simp [registry.unused quiet] at found
    have order := ordered.order
    rw [none, List.append_assoc] at order
    obtain ⟨undone, rest⟩ := List.append_eq_nil_iff.mp order.symm
    have idle : s.first.item = .none := by
      cases hand : s.first.item with
      | none => rfl
      | some item => simp [hand] at rest
    obtain ⟨counts, ongoing, length, _, calls, progress⟩ := blocked
    have empty := (progress_idle _ s.first idle ongoing).mp progress
    rw [undone] at length calls
    have zero : counts = [] := List.eq_nil_of_length_eq_zero length
    refine ⟨[], [], by rw [processed, undone]; rfl, by simp, ?_, ?_⟩
    · rw [invoked, calls, empty, processed, undone, zero]
    · rw [first]
      exact (progress_idle _ s.first idle []).mpr rfl
  · have said : ∃ event ∈ s.trace, event.isSubmitted = true := by
      by_contra nothing
      exact quiet fun event member => by
        cases submitted : event.isSubmitted with
        | false => rfl
        | true => exact absurd ⟨event, member, submitted⟩ nothing
    exact blocked_frame s after blocked [_] trace (.inr said) (fun _ progress => first ▸ progress) processed invoked

theorem move_blocked (s after : State T W) (action : Action T W) (moves : Move s action after) (solo : Solo s)
    (ordered : Ordered s) (traced : Traced s) (registry : Registry s) (blocked : Blocked s) : Blocked after := by
  cases moves with
  | submit =>
      exact blocked_frame s _ blocked [_] rfl (.inl (by simp [Event.isRegistered])) fun _ progress => progress
  | call _ i call after acts found moves => exact call_move_blocked s after i call moves blocked
  | worker _ w pc after acts found moves => exact worker_move_blocked s after w pc found moves solo registry blocked
  | destroy pc after here moves =>
      cases moves with
      | signal =>
          refine blocked_frame s _ blocked [] (List.append_nil _).symm (.inl (by simp)) fun ongoing progress => ?_
          rw [wake_first s _ rfl]
          exact progress_wake _ _ ongoing progress
      | store | final =>
          exact blocked_frame s _ blocked [_] rfl (.inl (by simp [Event.isRegistered])) fun _ progress => progress
      | _ =>
          exact blocked_frame s _ blocked [] (List.append_nil _).symm (.inl (by simp)) fun _ progress => progress
  | registerCallback free => exact register_blocked s _ blocked ordered traced registry rfl rfl
  | getDroppedCount =>
      exact blocked_frame s _ blocked [_] rfl (.inl (by simp [Event.isRegistered])) fun _ progress => progress
  | _ =>
      exact blocked_frame s _ blocked [] (List.append_nil _).symm (.inl (by simp)) fun _ progress => progress

theorem reachable_blocked (cfg : TaskProcessorConfig) (now : Int) (fifo : cfg.mode = .fifo) (s : State T W)
    (reachable : Machine.Reachable step KeepsConfig (construct cfg now) s) : Blocked s := by
  have both : Registry s ∧ Blocked s := by
    refine Machine.reachable_invariant step KeepsConfig _ (fun s => Registry s ∧ Blocked s) ?_ ?_ s reachable
    · refine ⟨⟨rfl, fun _ => rfl⟩, [], [], rfl, by simp, rfl, ?_⟩
      rw [construct_first]
      rfl
    · intro before action after earlier both fixed taken
      obtain ⟨registry, blocked⟩ := both
      have moves := (step_move before after action taken).2
      obtain ⟨solo, ordered⟩ := reachable_ordered cfg now fifo before earlier
      have traced := (reachable_conserved KeepsConfig cfg now before earlier).2
      exact ⟨move_registry before after action moves registry,
        move_blocked before after action moves solo ordered traced registry blocked⟩
  exact both.2

-- The calls of one submitter follow each other.
def Sequential (calls : List (Call T W)) : Prop :=
  ∀ (i j : Nat) (early late : Call T W), i < j → calls[i]? = some early → calls[j]? = some late →
    early.owner = late.owner → early.pc.over = true

def InTurn (calls : List (Call T W)) (earlier later : TaskItem T W) : Prop :=
  (calls[earlier.call]?).map Call.owner = (calls[later.call]?).map Call.owner → earlier.call < later.call

theorem owner_set (calls : List (Call T W)) (i : Nat) (call : Call T W) (found : calls[i]? = some call)
    (pc : SubmitPc) (c : Nat) :
    ((calls.set i { call with pc := pc })[c]?).map Call.owner = (calls[c]?).map Call.owner := by
  by_cases same : i = c
  · subst c
    rw [List.getElem?_set_self (List.getElem?_eq_some_iff.mp found).1, found]
    rfl
  · rw [List.getElem?_set_ne same]

theorem set_sequential (calls : List (Call T W)) (i : Nat) (call : Call T W) (found : calls[i]? = some call)
    (active : call.pc.over = false) (pc : SubmitPc) (sequential : Sequential calls) :
    Sequential (calls.set i { call with pc := pc }) := by
  have old : ∀ (j : Nat) (other : Call T W), (calls.set i { call with pc := pc })[j]? = some other →
      ∃ before, calls[j]? = some before ∧ before.owner = other.owner ∧ (j ≠ i → before = other) := by
    intro j other present
    by_cases same : i = j
    · subst j
      rw [List.getElem?_set_self (List.getElem?_eq_some_iff.mp found).1] at present
      exact ⟨call, found, by rw [← Option.some.inj present], fun differs => absurd rfl differs⟩
    · rw [List.getElem?_set_ne same] at present
      exact ⟨other, present, rfl, fun _ => rfl⟩
  intro j k early late before present known owner
  obtain ⟨first, was, mine, same⟩ := old j early present
  obtain ⟨second, known, yours, _⟩ := old k late known
  have settled := sequential j k first second before was known (by rw [mine, yours, owner])
  by_cases hit : j = i
  · subst j
    have eq : first = call := Option.some.inj (was.symm.trans found)
    rw [eq, active] at settled
    cases settled
  · exact same hit ▸ settled

structure Turned (s : State T W) : Prop where
  sequential : Sequential s.calls
  turns : (pushedItems s.trace).Pairwise (InTurn s.calls)

theorem turned_frame (s after : State T W) (turned : Turned s) (traced : Traced s)
    (sequential : Sequential after.calls)
    (owners : ∀ c < s.calls.length, (after.calls[c]?).map Call.owner = (s.calls[c]?).map Call.owner)
    (pushed : pushedItems after.trace = pushedItems s.trace := by first | rfl | exact filter_map_quiet _ _ _ rfl) :
    Turned after where
  sequential := sequential
  turns := by
    rw [pushed]
    refine turned.turns.imp_of_mem fun {earlier later} old new turn => ?_
    obtain ⟨_, here, _⟩ := traced.genuine earlier old
    obtain ⟨_, there, _⟩ := traced.genuine later new
    rw [InTurn, owners _ (List.getElem?_eq_some_iff.mp here).1, owners _ (List.getElem?_eq_some_iff.mp there).1]
    exact turn

theorem push_turned (s after : State T W) (i : Nat) (call : Call T W) (pc : SubmitPc) (found : s.calls[i]? = some call)
    (unpushed : call.pc.pushed = false) (active : call.pc.over = false)
    (calls : after.calls = s.calls.set i { call with pc := pc })
    (pushed : pushedItems after.trace = pushedItems s.trace ++ [call.item i]) (traced : Traced s) (turned : Turned s) :
    Turned after := by
  have owners : ∀ c, (after.calls[c]?).map Call.owner = (s.calls[c]?).map Call.owner := fun c => by
    rw [calls]
    exact owner_set s.calls i call found pc c
  refine ⟨by rw [calls]; exact set_sequential s.calls i call found active pc turned.sequential, ?_⟩
  rw [pushed, List.pairwise_append]
  refine ⟨turned.turns.imp fun {earlier later} turn => ?_, List.pairwise_singleton _ _, ?_⟩
  · rw [InTurn, owners, owners]
    exact turn
  · intro earlier old later new
    rw [List.mem_singleton.mp new, InTurn, owners, owners]
    intro same
    obtain ⟨other, present, past, _⟩ := traced.genuine earlier old
    simp only [Call.item, present, found, Option.map_some, Option.some.injEq] at same
    rcases Nat.lt_trichotomy earlier.call i with before | equal | behind
    · exact before
    · rw [equal, found] at present
      rw [← Option.some.inj present, unpushed] at past
      cases past
    · have settled := turned.sequential i earlier.call call other behind found present same.symm
      rw [active] at settled
      cases settled

theorem call_move_turned (s after : State T W) (i : Nat) (call : Call T W) (found : s.calls[i]? = some call)
    (moves : CallMove s i call after) (traced : Traced s) (turned : Turned s) : Turned after := by
  have active := call_move_active s after i call moves
  have sequential : ∀ pc : SubmitPc, Sequential (s.calls.set i { call with pc := pc }) := fun pc =>
    set_sequential s.calls i call found active pc turned.sequential
  have owners : ∀ (pc : SubmitPc) (c : Nat),
      ((s.calls.set i { call with pc := pc })[c]?).map Call.owner = (s.calls[c]?).map Call.owner := fun pc c =>
    owner_set s.calls i call found pc c
  cases moves with
  | push idx queue here inside free room =>
      exact push_turned s _ i call (.sample idx) found (by rw [here]; rfl) active rfl (filter_map_logs _ _ _ _ rfl) traced turned
  | divide | outside => exact turned_frame s _ turned traced turned.sequential fun _ _ => rfl
  | _ => exact turned_frame s _ turned traced (sequential _) fun c _ => owners _ c

theorem move_turned (s after : State T W) (action : Action T W) (moves : Move s action after) (traced : Traced s)
    (turned : Turned s) : Turned after := by
  cases moves with
  | submit owner payload wrappers idle =>
      refine turned_frame s _ turned traced ?_ fun c bound => ?_
      · intro i j early late before present known same
        have below : i < s.calls.length := by
          have bound := (List.getElem?_eq_some_iff.mp known).1
          simp only [State.emit, List.length_append, List.length_singleton] at bound
          omega
        simp only [State.emit, List.getElem?_append_left below] at present
        rcases Nat.lt_or_ge j s.calls.length with inside | last
        · simp only [State.emit, List.getElem?_append_left inside] at known
          exact turned.sequential i j early late before present known same
        · apply idle early (List.mem_of_getElem? present)
          simp only [State.emit, List.getElem?_append_right last] at known
          have new := List.mem_singleton.mp (List.mem_of_getElem? known)
          rw [same, new]
      · simp only [State.emit, List.getElem?_append_left bound]
  | call _ i call after acts found moves => exact call_move_turned s after i call found moves traced turned
  | worker _ w pc after acts found moves =>
      cases moves <;> exact turned_frame s _ turned traced turned.sequential fun _ _ => rfl
  | destroy pc after here moves =>
      cases moves <;> exact turned_frame s _ turned traced turned.sequential fun _ _ => rfl
  | _ => exact turned_frame s _ turned traced turned.sequential fun _ _ => rfl

theorem reachable_turned (guard : State T W → Action T W → Prop) (cfg : TaskProcessorConfig) (now : Int)
    (s : State T W) (reachable : Machine.Reachable step guard (construct cfg now) s) : Turned s := by
  refine Machine.reachable_invariant step guard _ Turned ?_ ?_ s reachable
  · refine ⟨fun i j early late _ present => ?_, List.Pairwise.nil⟩
    simp [construct] at present
  · intro before action after earlier turned _ taken
    exact move_turned before after action (step_move before after action taken).2
      (reachable_conserved guard cfg now before earlier).2 turned

def callbackPayloads (log : List (Event T W)) (k : Nat) : List T :=
  log.filterMap fun
    | .callback _ j item _ => if j = k then some item.payload else none
    | _ => none

def Invocation.payloadOf (k : Nat) : Invocation W × TaskItem T W → Option T
  | (.callback j, item) => if j = k then some item.payload else none
  | (.wrapper _, _) => none

theorem callback_payloads_eq (log : List (Event T W)) (k : Nat) :
    callbackPayloads log k = (invocations log).filterMap (Invocation.payloadOf k) := by
  rw [invocations, List.filterMap_filterMap, callbackPayloads]
  congr 1
  funext event
  cases event <;> rfl

theorem callback_run_payloads (item : TaskItem T W) (m k : Nat) :
    (callbackRun item m).filterMap (Invocation.payloadOf k) = if k < m then [item.payload] else [] := by
  induction m with
  | zero => rfl
  | succ m ih =>
      rw [callback_run_succ, List.filterMap_append, ih]
      rcases Nat.lt_trichotomy k m with below | same | above
      · rw [if_pos below, if_pos (by omega)]
        simp [Invocation.payloadOf, Nat.ne_of_gt below]
      · subst k
        simp [Invocation.payloadOf]
      · rw [if_neg (by omega), if_neg (by omega)]
        simp [Invocation.payloadOf, Nat.ne_of_lt above]

theorem wrapper_run_payloads (item : TaskItem T W) (wrappers : List W) (k : Nat) :
    (wrapperRun item wrappers).filterMap (Invocation.payloadOf k) = [] := by
  rw [wrapperRun, List.filterMap_map, List.filterMap_eq_nil_iff]
  intro wrapper _
  rfl

theorem blocks_payloads (counts : List Nat) (items : List (TaskItem T W)) (k : Nat) (length : counts.length = items.length)
    (enough : ∀ m ∈ counts, k < m) :
    (List.zipWith block counts items).flatten.filterMap (Invocation.payloadOf k) = items.map TaskItem.payload := by
  induction counts generalizing items with
  | nil =>
      rw [List.eq_nil_of_length_eq_zero length.symm]
      rfl
  | cons m counts ih =>
      cases items with
      | nil => cases length
      | cons item items =>
          have rest := ih items (Nat.succ.inj length) fun other member => enough other (List.mem_cons_of_mem m member)
          rw [List.zipWith_cons_cons, List.flatten_cons, List.filterMap_append, rest, block, List.filterMap_append,
            callback_run_payloads, wrapper_run_payloads, if_pos (enough m List.mem_cons_self)]
          rfl

theorem progress_payloads (bound k : Nat) (within : k < bound) (pc : WorkerPc T W)
    (ongoing : List (Invocation W × TaskItem T W)) (progress : Progress bound pc ongoing) :
    ongoing.filterMap (Invocation.payloadOf k) <+: pc.item.toList.map TaskItem.payload := by
  cases pc with
  | callbacks item j =>
      have sofar : ongoing = callbackRun item j := progress
      rw [sofar, callback_run_payloads]
      split
      · exact List.prefix_rfl
      · exact List.nil_prefix
  | wrappers item remaining =>
      obtain ⟨m, finished, enough, _, sofar⟩ := progress
      rw [sofar, List.filterMap_append, callback_run_payloads, wrapper_run_payloads, if_pos (by omega)]
      exact List.prefix_rfl
  | _ =>
      have none : ongoing = [] := progress
      rw [none]
      exact List.nil_prefix

-- Every task that is done has had its callbacks, whole and in order; at most
-- one further task has had a beginning of them.
def InBlocks (s : State T W) : Prop :=
  ∃ counts ongoing, counts.length = (processedItems s.trace).length ∧ (∀ m ∈ counts, registeredFirst s.trace ≤ m) ∧
    invocations s.trace = (List.zipWith block counts (processedItems s.trace)).flatten ++ ongoing ∧
    (ongoing = [] ∨ ∃ m item, registeredFirst s.trace ≤ m ∧ ongoing <+: block m item ∧
      processedItems s.trace ++ [item] <+: pushedItems s.trace)

theorem callback_run_starts (item : TaskItem T W) (k m : Nat) (less : k ≤ m) : callbackRun item k <+: block m item := by
  refine List.IsPrefix.trans ?_ (List.prefix_append _ _)
  obtain ⟨extra, rfl⟩ := Nat.exists_eq_add_of_le less
  induction extra with
  | zero => exact List.prefix_rfl
  | succ extra ih =>
      rw [← Nat.add_assoc, callback_run_succ]
      exact (ih (Nat.le_add_right _ _)).trans (List.prefix_append _ _)

theorem progress_block (bound : Nat) (pc : WorkerPc T W) (ongoing : List (Invocation W × TaskItem T W))
    (progress : Progress bound pc ongoing) :
    ongoing = [] ∨ ∃ m item, bound ≤ m ∧ ongoing <+: block m item ∧ pc.item = some item := by
  cases pc with
  | callbacks item k =>
      have sofar : ongoing = callbackRun item k := progress
      refine .inr ⟨max bound k, item, Nat.le_max_left _ _, ?_, rfl⟩
      rw [sofar]
      exact callback_run_starts item k _ (Nat.le_max_right _ _)
  | wrappers item remaining =>
      obtain ⟨m, finished, enough, split, sofar⟩ := progress
      refine .inr ⟨m, item, enough, ?_, rfl⟩
      rw [sofar, block, split]
      refine (List.prefix_append_right_inj _).mpr ?_
      rw [wrapperRun, wrapperRun, List.map_append]
      exact List.prefix_append _ _
  | _ => exact .inl progress

theorem ordered_hand_starts (s : State T W) (ordered : Ordered s) :
    processedItems s.trace ++ s.first.item.toList <+: pushedItems s.trace := by
  rw [ordered.order]
  exact List.prefix_append _ _

theorem blocked_in_blocks (s : State T W) (ordered : Ordered s) (blocked : Blocked s) : InBlocks s := by
  obtain ⟨counts, ongoing, length, enough, calls, progress⟩ := blocked
  refine ⟨counts, ongoing, length, enough, calls, ?_⟩
  rcases progress_block _ s.first ongoing progress with none | ⟨m, item, bound, part, hand⟩
  · exact .inl none
  · have order := ordered_hand_starts s ordered
    rw [hand] at order
    exact .inr ⟨m, item, bound, part, order⟩

theorem blocked_payloads (s : State T W) (ordered : Ordered s) (blocked : Blocked s) (k : Nat)
    (early : k < registeredFirst s.trace) :
    callbackPayloads s.trace k <+: (pushedItems s.trace).map TaskItem.payload := by
  obtain ⟨counts, ongoing, length, enough, calls, progress⟩ := blocked
  rw [callback_payloads_eq, calls, List.filterMap_append,
    blocks_payloads counts _ k length fun m member => Nat.lt_of_lt_of_le early (enough m member)]
  have part := progress_payloads _ k early s.first ongoing progress
  refine ((List.prefix_append_right_inj _).mpr part).trans ?_
  rw [← List.map_append]
  exact (ordered_hand_starts s ordered).map _

theorem fifo_arrival_order (cfg : TaskProcessorConfig) (now : Int) (fifo : cfg.mode = .fifo) (s : State T W)
    (reachable : Machine.Reachable step KeepsConfig (construct cfg now) s) :
    (∀ k < registeredFirst s.trace, callbackPayloads s.trace k <+: (pushedItems s.trace).map TaskItem.payload) ∧
      InBlocks s ∧ processedItems s.trace <+: pushedItems s.trace ∧
      (processedItems s.trace).Pairwise (InTurn s.calls) := by
  obtain ⟨_, ordered⟩ := reachable_ordered cfg now fifo s reachable
  have blocked := reachable_blocked cfg now fifo s reachable
  have done : processedItems s.trace <+: pushedItems s.trace :=
    (List.prefix_append _ _).trans (ordered_hand_starts s ordered)
  exact ⟨blocked_payloads s ordered blocked, blocked_in_blocks s ordered blocked, done,
    (reachable_turned _ cfg now s reachable).turns.sublist done.sublist⟩

def pairInOrder : TaskProcessorConfig := { numThreads := 2 }

-- The callback throws on the first payload and is called with the second one
-- all the same.
def orderedPair : List (Action Nat Nat) :=
  [[.registerCallback, .submit 0 7 [5]], List.replicate 8 (.call 0), [.submit 0 8 []], List.replicate 8 (.call 1),
    List.replicate 8 (.worker 0), [.workerThrows 0], List.replicate 14 (.worker 0)].flatten

theorem ordered_pair_arrival_order :
    ∃ s : State Nat Nat, Machine.Reachable step KeepsConfig (construct pairInOrder 0) s ∧
      callbackPayloads s.trace 0 = [7, 8] ∧ callbackPayloads s.trace 0 <+: (pushedItems s.trace).map TaskItem.payload := by
  obtain ⟨s, reachable, shown⟩ := Machine.run_exhibits step KeepsConfig (construct pairInOrder 0) orderedPair
    (fun s => callbackPayloads s.trace 0 == [7, 8] && registeredFirst s.trace == 1) (by decide)
  simp only [Bool.and_eq_true, beq_iff_eq] at shown
  exact ⟨s, reachable, shown.1, (fifo_arrival_order pairInOrder 0 rfl s reachable).1 0 (by omega)⟩

end Vectro.Pool
