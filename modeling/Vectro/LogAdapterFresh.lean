import Vectro.LogAdapterDelivery
import Vectro.Tally

set_option autoImplicit false

namespace Vectro.Log

open Tally

variable {C : Type}

-- What Dispatch does with a message, read off the states around a step of the
-- worker: the list it loads, the callbacks it calls and what DefaultLog writes.
-- Beside it, the calls of ClearCallbacks.
inductive Delivery (C : Type) where
  | cleared
  | loaded (lm : LogMessage) (cbs : List (Option C))
  | passed (cb : Option C) (lm : LogMessage)
  | written (text : String)
deriving DecidableEq, Repr

def Event.passing : Event C → Option (Delivery C)
  | .called cb lm _ => some (.passed cb lm)
  | _ => none

def Event.writing : Event C → Option (Delivery C)
  | .stderr text => some (.written text)
  | _ => none

def WorkerPc.deliveries (published : Option (List (Option C))) (news : List (Event C)) : WorkerPc C → List (Delivery C)
  | .batch (lm :: _) _ => (published.toList.map fun cbs => .loaded lm cbs) ++ news.filterMap Event.writing
  | .callbacks _ _ _ _ => news.filterMap Event.passing
  | _ => []

def deliveries (before : State C) (action : Action C) (after : State C) : List (Delivery C) :=
  if after.fault then []
  else match action with
    | .clearCallbacks => [.cleared]
    | .worker | .callback _ => before.worker.deliveries before.published (after.trace.drop before.trace.length)
    | _ => []

abbrev Dispatching (C : Type) := Machine.Recorded (State C) (Delivery C)

def dispatchingStep : Dispatching C → Action C → Option (Dispatching C) := Machine.recorded step deliveries

def Delivery.load : Delivery C → Option (LogMessage × List (Option C))
  | .loaded lm cbs => some (lm, cbs)
  | _ => none

def Delivery.makes : Delivery C → Bool
  | .passed _ _ | .written _ => true
  | _ => false

def loads (log : List (Delivery C)) : List (LogMessage × List (Option C)) := log.filterMap Delivery.load

def made (log : List (Delivery C)) : List (Delivery C) := log.filter Delivery.makes

-- Every callback of the list once and in its order, or DefaultLog.
def owed (platform : Platform) : LogMessage × List (Option C) → List (Delivery C)
  | (lm, []) => [.written (defaultLog platform lm)]
  | (lm, cb :: cbs) => (cb :: cbs).map fun cb => .passed cb lm

-- The callbacks that the Dispatch in progress has yet to call, and its message.
def WorkerPc.unpassed : WorkerPc C → List (Delivery C)
  | .callbacks lm cbs _ _ => cbs.map fun cb => .passed cb lm
  | _ => []

def WorkerPc.current : WorkerPc C → List LogMessage
  | .callbacks lm _ _ _ => [lm]
  | _ => []

-- A fault that is not the destructor's doing is a null pointer dereferenced.
structure Works (m : Dispatching C) : Prop where
  defined : m.state.fault = true → m.state.destructor.over = true
  delivered : made m.log ++ m.state.worker.unpassed = (loads m.log).flatMap (owed m.state.platform)
  each : (loads m.log).map Prod.fst = dispatchedMessages m.state.trace ++ m.state.worker.current

-- RegisterCallback and Dispatch are at their load of callbacks_.
def State.loadsCallbacks (s : State C) : Action C → Bool
  | .register i | .exchangeFails i =>
      match s.registrations[i]? with
      | some ⟨_, .load⟩ => true
      | _ => false
  | .worker | .callback _ =>
      match s.worker with
      | .batch (_ :: _) _ => true
      | _ => false
  | _ => false

-- A ClearCallbacks call comes before every such load.
def ClearedFirst (m : Dispatching C) (action : Action C) : Prop :=
  m.state.loadsCallbacks action = true → .cleared ∈ m.log

instance [DecidableEq C] (m : Dispatching C) (action : Action C) : Decidable (ClearedFirst m action) :=
  inferInstanceAs (Decidable (m.state.loadsCallbacks action = true → .cleared ∈ m.log))

-- A list that is held or published has been built.
def RegisterPc.Listed (built : Nat) (published : Bool) : RegisterPc → Prop
  | .copy old => (∃ k, old = some k ∧ k < built) ∧ published = true
  | .exchange _ new => new < built ∧ published = true
  | _ => True

structure Listed (s : State C) : Prop where
  published : ∀ k, s.callbacks = some k → k < s.lists.length
  copies : ∀ registration ∈ s.registrations, registration.pc.Listed s.lists.length s.callbacks.isSome

theorem listed_grows (built more : Nat) (published after : Bool) (pc : RegisterPc) (grows : built ≤ more)
    (stays : published = true → after = true) (listed : pc.Listed built published) : pc.Listed more after := by
  cases pc with
  | copy old =>
      obtain ⟨⟨k, held, inside⟩, set⟩ := listed
      exact ⟨⟨k, held, Nat.lt_of_lt_of_le inside grows⟩, stays set⟩
  | exchange old new => exact ⟨Nat.lt_of_lt_of_le listed.1 grows, stays listed.2⟩
  | load | registered => exact trivial

theorem listed_frame (s after : State C) (listed : Listed s) (registrations : after.registrations = s.registrations)
    (lists : after.lists = s.lists) (callbacks : after.callbacks = s.callbacks) : Listed after :=
  ⟨callbacks ▸ lists ▸ listed.published, registrations ▸ callbacks ▸ lists ▸ listed.copies⟩

theorem register_move_listed (s after : State C) (i : Nat) (registration : Registration C)
    (found : s.registrations[i]? = some registration) (set : registration.pc = .load → s.callbacks.isSome = true)
    (moves : RegisterMove s i registration after) (listed : Listed s) : Listed after ∧ after.fault = s.fault := by
  have here := listed.copies registration (List.mem_of_getElem? found)
  -- Reading callbacks_ gives a list that has been built.
  have current : s.callbacks.isSome = true → (RegisterPc.copy s.callbacks).Listed s.lists.length s.callbacks.isSome := by
    intro some
    obtain ⟨k, held⟩ := Option.isSome_iff_exists.mp some
    exact ⟨⟨k, held, listed.published k held⟩, some⟩
  cases moves with
  | load stands =>
      exact ⟨⟨listed.published, forall_mem_set _ _ _ _ listed.copies (current (set stands))⟩, rfl⟩
  | null old stands absent =>
      rw [stands] at here
      obtain ⟨⟨k, rfl, inside⟩, _⟩ := here
      rw [Option.bind_some, List.getElem?_eq_getElem inside] at absent
      cases absent
  | copy old cbs stands source =>
      rw [stands] at here
      have longer : s.lists.length ≤ (s.lists ++ [cbs ++ [registration.cb]]).length := by
        rw [List.length_append]
        exact Nat.le_add_right _ _
      refine ⟨⟨fun k held => Nat.lt_of_lt_of_le (listed.published k held) longer, ?_⟩, rfl⟩
      refine forall_mem_set _ _ _ _ (fun other member => ?_) ?_
      · exact listed_grows _ _ _ _ other.pc longer (fun some => some) (listed.copies other member)
      · exact ⟨by simp, here.2⟩
  | publish old new stands same =>
      rw [stands] at here
      refine ⟨⟨fun k held => Option.some.inj held ▸ here.1, ?_⟩, rfl⟩
      refine forall_mem_set _ _ _ _ (fun other member => ?_) trivial
      exact listed_grows _ _ _ _ other.pc (Nat.le_refl _) (fun _ => rfl) (listed.copies other member)
  | retry old new stands =>
      rw [stands] at here
      exact ⟨⟨listed.published, forall_mem_set _ _ _ _ listed.copies (current here.2)⟩, rfl⟩

-- Only the destructor's end and a null list can make a step undefined.
theorem move_listed (s after : State C) (action : Action C) (taken : step s action = some after)
    (set : s.loadsCallbacks action = true → s.callbacks.isSome = true) (listed : Listed s) :
    Listed after ∧ (after.fault = true → after.destructor.over = true) := by
  have sound := step_sound s after action taken
  have quiet : after.fault = s.fault → after.fault = true → after.destructor.over = true := by
    intro same faulty
    rw [same, sound] at faulty
    cases faulty
  cases step_move s after action taken with
  | register _ i registration after acts found moves =>
      have here : registration.pc = .load → s.callbacks.isSome = true := by
        intro stands
        obtain ⟨cb, pc⟩ := registration
        obtain rfl : pc = .load := stands
        rcases acts with rfl | rfl <;> exact set (by rw [State.loadsCallbacks, found])
      obtain ⟨kept, same⟩ := register_move_listed s after i registration found here moves listed
      exact ⟨kept, quiet same⟩
  | worker _ pc after acts stands moves =>
      have here : ∀ lm remaining drained, pc = .batch (lm :: remaining) drained → s.callbacks.isSome = true := by
        rintro lm remaining drained rfl
        rcases acts with rfl | ⟨outcome, rfl⟩ <;> exact set (by rw [State.loadsCallbacks, stands])
      cases moves with
      | unset lm remaining drained null =>
          obtain ⟨k, held⟩ := Option.isSome_iff_exists.mp (here lm remaining drained rfl)
          rw [State.published, held, Option.bind_some, List.getElem?_eq_getElem (listed.published k held)] at null
          cases null
      | _ => exact ⟨listed_frame s _ listed rfl rfl rfl, quiet rfl⟩
  | undefined _ gone => exact ⟨listed_frame s _ listed rfl rfl rfl, fun _ => gone⟩
  | call _ i call after acts found moves =>
      refine ⟨listed_frame s after listed ?_ ?_ ?_, quiet ?_⟩ <;> cases moves <;> rfl
  | registerCallback cb =>
      refine ⟨⟨listed.published, fun registration member => ?_⟩, quiet rfl⟩
      rcases List.mem_append.mp member with old | new
      · exact listed.copies registration old
      · rw [List.mem_singleton.mp new]
        exact trivial
  | clearCallbacks =>
      have longer : s.lists.length ≤ (s.lists ++ [[]]).length := by
        rw [List.length_append]
        exact Nat.le_add_right _ _
      refine ⟨⟨fun k held => ?_, fun registration member => ?_⟩, quiet rfl⟩
      · obtain rfl := Option.some.inj held
        simp
      · exact listed_grows _ _ _ _ registration.pc longer (fun _ => rfl) (listed.copies registration member)
  | _ => exact ⟨listed_frame s _ listed rfl rfl rfl, quiet rfl⟩

theorem works_deliveries (s after : State C) (action : Action C) (acts : action = .worker ∨ ∃ outcome, action = .callback outcome)
    (sound : after.fault = false) :
    deliveries s action after = s.worker.deliveries s.published (after.trace.drop s.trace.length) := by
  have defined : ¬ after.fault = true := by simp [sound]
  rcases acts with rfl | ⟨outcome, rfl⟩ <;> exact if_neg defined

theorem worker_deliveries_uncleared (published : Option (List (Option C))) (news : List (Event C)) (pc : WorkerPc C) :
    .cleared ∉ pc.deliveries published news := by
  intro member
  cases pc with
  | batch remaining drained =>
      cases remaining with
      | nil => cases member
      | cons lm remaining =>
          rcases List.mem_append.mp member with load | write
          · obtain ⟨_, _, loaded⟩ := List.mem_map.mp load
            cases loaded
          · obtain ⟨event, _, written⟩ := List.mem_filterMap.mp write
            cases event <;> cases written
  | callbacks lm cbs remaining drained =>
      obtain ⟨event, _, passed⟩ := List.mem_filterMap.mp member
      cases event <;> cases passed
  | _ => cases member

-- RegisterCallback publishes a list only in place of another, so the first one
-- comes from ClearCallbacks.
theorem move_cleared (s after : State C) (log : List (Delivery C)) (action : Action C) (taken : step s action = some after)
    (listed : Listed s) (cleared : .cleared ∈ log ↔ s.callbacks.isSome = true) :
    .cleared ∈ log ++ deliveries s action after ↔ after.callbacks.isSome = true := by
  have aside : .cleared ∉ deliveries s action after → after.callbacks.isSome = s.callbacks.isSome →
      (.cleared ∈ log ++ deliveries s action after ↔ after.callbacks.isSome = true) := by
    intro none same
    rw [List.mem_append, same, ← cleared]
    exact or_iff_left none
  have quiet : deliveries s action after = [] → .cleared ∉ deliveries s action after := by
    intro none
    rw [none]
    exact List.not_mem_nil
  cases step_move s after action taken with
  | clearCallbacks =>
      have sound := step_sound s _ _ taken
      refine ⟨fun _ => rfl, fun _ => List.mem_append_right _ ?_⟩
      rw [deliveries, if_neg (by simp [sound])]
      exact List.mem_singleton_self _
  | worker _ pc after acts stands moves =>
      refine aside ?_ (by cases moves <;> rfl)
      cases sound : after.fault with
      | true => exact quiet (if_pos sound)
      | false =>
          rw [works_deliveries s after action acts sound]
          exact worker_deliveries_uncleared _ _ _
  | register _ i registration after acts found moves =>
      refine aside (quiet (by rcases acts with rfl | rfl <;> exact ite_self _)) ?_
      cases moves with
      | publish old new stands same =>
          have here := listed.copies registration (List.mem_of_getElem? found)
          rw [stands] at here
          exact here.2.symm
      | _ => rfl
  | call _ i call after acts found moves =>
      refine aside (quiet (by rcases acts with rfl | ⟨what, rfl⟩ <;> exact ite_self _)) ?_
      cases moves <;> rfl
  | undefined _ gone => exact aside (quiet (if_pos rfl)) rfl
  | _ => exact aside (quiet (ite_self _)) rfl

structure Passes (s : State C) (log : List (Delivery C)) : Prop where
  delivered : made log ++ s.worker.unpassed = (loads log).flatMap (owed s.platform)
  each : (loads log).map Prod.fst = dispatchedMessages s.trace ++ s.worker.current

-- What a step loads, it owes.
theorem passes_grows (s after : State C) (log more : List (Delivery C)) (ended : List LogMessage) (passes : Passes s log)
    (dispatched : dispatchedMessages after.trace = dispatchedMessages s.trace ++ ended)
    (delivers : made more ++ after.worker.unpassed = s.worker.unpassed ++ (loads more).flatMap (owed s.platform))
    (each : s.worker.current ++ (loads more).map Prod.fst = ended ++ after.worker.current)
    (platform : after.platform = s.platform := by rfl) : Passes after (log ++ more) where
  delivered := by
    rw [made, List.filter_append, List.append_assoc, loads, List.filterMap_append, List.flatMap_append, platform]
    exact (congrArg (made log ++ ·) delivers).trans ((List.append_assoc _ _ _).symm.trans
      (congrArg (· ++ (loads more).flatMap (owed s.platform)) passes.delivered))
  each := by
    rw [loads, List.filterMap_append, List.map_append, dispatched, List.append_assoc, ← each, ← List.append_assoc]
    exact congrArg (· ++ (loads more).map Prod.fst) passes.each

theorem passes_frame (s after : State C) (log : List (Delivery C)) (passes : Passes s log)
    (dispatched : dispatchedMessages after.trace = dispatchedMessages s.trace)
    (unpassed : after.worker.unpassed = s.worker.unpassed) (current : after.worker.current = s.worker.current)
    (platform : after.platform = s.platform := by rfl) : Passes after (log ++ []) :=
  passes_grows s after log [] [] passes (dispatched.trans (List.append_nil _).symm)
    (unpassed.trans (List.append_nil _).symm) ((List.append_nil _).trans current.symm) platform

theorem wake_unpassed (pc : WorkerPc C) : pc.wake.unpassed = pc.unpassed ∧ pc.wake.current = pc.current := by
  cases pc <;> exact ⟨rfl, rfl⟩

theorem passes_works (s after : State C) (log : List (Delivery C)) (pc : WorkerPc C) (news : List (Event C))
    (stands : s.worker = pc) (passes : Passes s log) (trace : after.trace = s.trace ++ news)
    (delivers : made (pc.deliveries s.published news) ++ after.worker.unpassed =
      pc.unpassed ++ (loads (pc.deliveries s.published news)).flatMap (owed s.platform))
    (each : pc.current ++ (loads (pc.deliveries s.published news)).map Prod.fst =
      dispatchedMessages news ++ after.worker.current)
    (platform : after.platform = s.platform := by rfl) :
    Passes after (log ++ s.worker.deliveries s.published (after.trace.drop s.trace.length)) := by
  rw [trace, List.drop_left, stands]
  refine passes_grows s after log _ (dispatchedMessages news) passes ?_ (stands ▸ delivers) (stands ▸ each) platform
  rw [trace]
  exact List.filterMap_append

theorem after_drops_unpassed (drained : Bool) :
    (afterDrops drained : WorkerPc C).unpassed = [] ∧ (afterDrops drained : WorkerPc C).current = [] := by
  cases drained <;> exact ⟨rfl, rfl⟩

theorem worker_move_passes (s after : State C) (log : List (Delivery C)) (pc : WorkerPc C) (stands : s.worker = pc)
    (moves : WorkerMove s pc after) (passes : Passes s log) (sound : after.fault = false) :
    Passes after (log ++ s.worker.deliveries s.published (after.trace.drop s.trace.length)) := by
  cases moves with
  | leave | block | swap | drain => exact passes_works s _ log _ [.locked] stands passes rfl rfl rfl
  | batched | stop => exact passes_works s _ log _ [] stands passes (List.append_nil _).symm rfl rfl
  | unset lm remaining drained null => cases sound
  | default lm remaining drained empty =>
      refine passes_works s _ log _ [.stderr (defaultLog s.platform lm), .dispatched lm] stands passes
        (List.append_assoc _ _ _) ?_ ?_
      · rw [empty]
        rfl
      · rw [empty]
        rfl
  | dispatch lm remaining drained cb cbs loaded =>
      refine passes_works s _ log _ [] stands passes (List.append_nil _).symm ?_ ?_
      · rw [loaded]
        exact (List.append_nil _).symm
      · rw [loaded]
        rfl
  | invoke outcome cb lm cbs remaining drained =>
      exact passes_works s _ log _ [.called cb lm outcome] stands passes rfl (List.append_nil _).symm rfl
  | silent lm remaining drained silent => exact passes_works s _ log _ [.dispatched lm] stands passes rfl rfl rfl
  | report lm remaining drained threw =>
      exact passes_works s _ log _ [.stderr s.errorBuffer, .dispatched lm] stands passes (List.append_assoc _ _ _) rfl rfl
  | drops drained nonzero => exact passes_works s _ log _ [] stands passes (List.append_nil _).symm rfl rfl
  | undropped drained zero | early dropped drained early =>
      have done := after_drops_unpassed (C := C) drained
      exact passes_works s _ log _ [] stands passes (List.append_nil _).symm done.1 done.2.symm
  | notify dropped drained due =>
      have done := after_drops_unpassed (C := C) drained
      exact passes_works s _ log _ [.stderr _, .notified dropped (dropNotice s dropped)] stands passes
        (List.append_assoc _ _ _) done.1 done.2.symm

theorem move_passes (s after : State C) (log : List (Delivery C)) (action : Action C) (taken : step s action = some after)
    (passes : Passes s log) : Passes after (log ++ deliveries s action after) := by
  have idle : deliveries s action after = [] → dispatchedMessages after.trace = dispatchedMessages s.trace →
      after.worker.unpassed = s.worker.unpassed ∧ after.worker.current = s.worker.current →
      after.platform = s.platform → Passes after (log ++ deliveries s action after) := by
    intro none dispatched same platform
    rw [none]
    exact passes_frame s after log passes dispatched same.1 same.2 platform
  cases step_move s after action taken with
  | worker _ pc after acts stands moves =>
      cases sound : after.fault with
      | true =>
          have same : after.trace = s.trace ∧ after.worker = s.worker ∧ after.platform = s.platform := by
            have before := step_sound s after action taken
            cases moves <;> first | exact ⟨rfl, rfl, rfl⟩ | exact absurd (before.symm.trans sound) (by decide)
          refine idle ?_ (by rw [same.1]) (by rw [same.2.1]; exact ⟨rfl, rfl⟩) same.2.2
          exact if_pos sound
      | false =>
          rw [works_deliveries s after action acts sound]
          exact worker_move_passes s after log pc stands moves passes sound
  | undefined _ gone => exact idle (if_pos rfl) rfl ⟨rfl, rfl⟩ rfl
  | clearCallbacks =>
      have sound := step_sound s _ _ taken
      rw [deliveries, if_neg (by simp [sound])]
      exact passes_grows s _ log [.cleared] [] passes (List.append_nil _).symm (List.append_nil _).symm (List.append_nil _) rfl
  | call _ i call after acts found moves =>
      refine idle (by rcases acts with rfl | ⟨what, rfl⟩ <;> exact ite_self _) ?_ ?_ ?_
      · cases moves <;> first | rfl | exact Traces.filter_map_quiet _ _ _ rfl
      · cases moves with
        | signal here => exact wake_unpassed s.worker
        | _ => exact ⟨rfl, rfl⟩
      · cases moves <;> rfl
  | register _ i registration after acts found moves =>
      refine idle (by rcases acts with rfl | rfl <;> exact ite_self _) ?_ ?_ ?_ <;>
        cases moves <;> first | rfl | exact ⟨rfl, rfl⟩
  | wake | shutdown => exact idle (ite_self _) rfl (wake_unpassed s.worker) rfl
  | getDroppedCount => exact idle (ite_self _) (Traces.filter_map_quiet _ _ _ rfl) ⟨rfl, rfl⟩ rfl
  | _ => exact idle (ite_self _) rfl ⟨rfl, rfl⟩ rfl

structure Fresh (s : State C) (log : List (Delivery C)) : Prop where
  listed : Listed s
  cleared : .cleared ∈ log ↔ s.callbacks.isSome = true
  defined : s.fault = true → s.destructor.over = true
  passes : Passes s log

theorem construct_fresh (id : String) (platform : Platform) (now steady : Int) :
    Fresh (construct id platform now steady : State C) [] where
  listed := by
    refine ⟨?_, List.forall_mem_nil _⟩
    intro k held
    cases held
  cleared := ⟨fun member => absurd member List.not_mem_nil, fun set => absurd set Bool.false_ne_true⟩
  defined := by
    intro faulty
    cases faulty
  passes := ⟨rfl, rfl⟩

theorem reachable_fresh (id : String) (platform : Platform) (now steady : Int) (m : Dispatching C)
    (reachable : Machine.Reachable dispatchingStep ClearedFirst ⟨construct id platform now steady, []⟩ m) :
    Fresh m.state m.log := by
  refine (Machine.recorded_invariant step deliveries ClearedFirst _ _ Fresh
    (construct_fresh id platform now steady) ?_ m reachable).2
  intro before action after log _ fresh first taken
  obtain ⟨listed, defined⟩ := move_listed before after action taken (fun loads => fresh.cleared.mp (first loads)) fresh.listed
  exact ⟨listed, move_cleared before after log action taken fresh.listed fresh.cleared, defined,
    move_passes before after log action taken fresh.passes⟩

theorem register_loads (s : State C) (action : Action C) (i : Nat) (acts : action = .register i ∨ action = .exchangeFails i)
    (loads : s.loadsCallbacks action = true) : ∃ cb, s.registrations[i]? = some ⟨cb, .load⟩ := by
  have read : s.loadsCallbacks (.register i) = true := by
    rcases acts with rfl | rfl <;> exact loads
  rw [State.loadsCallbacks] at read
  split at read
  · rename_i cb found
    exact ⟨cb, found⟩
  · cases read

theorem worker_loads (s : State C) (action : Action C) (acts : action = .worker ∨ ∃ outcome, action = .callback outcome)
    (loads : s.loadsCallbacks action = true) : ∃ lm remaining drained, s.worker = .batch (lm :: remaining) drained := by
  have read : s.loadsCallbacks .worker = true := by
    rcases acts with rfl | ⟨outcome, rfl⟩ <;> exact loads
  rw [State.loadsCallbacks] at read
  split at read
  · rename_i lm remaining drained stands
    exact ⟨lm, remaining, drained, stands⟩
  · cases read

-- Dispatch dereferences the null pointer at once, RegisterCallback in its next
-- step.
theorem null_load_step (s after : State C) (action : Action C) (taken : step s action = some after)
    (alive : s.destructor.over = false) (loads : s.loadsCallbacks action = true) (null : s.callbacks = none) :
    after = s.undefined ∨ ∃ i, step after (.register i) = some after.undefined ∧ after.destructor = s.destructor := by
  have sound := step_sound s after action taken
  simp only [step, sound, alive, Bool.false_eq_true, if_false] at taken
  cases action with
  | register i =>
      obtain ⟨cb, found⟩ := register_loads s _ i (.inl rfl) loads
      simp only [found, Option.bind_some, registerCallback, Option.some.injEq] at taken
      have moved : after.registrations[i]? = some ⟨cb, .copy none⟩ := by
        rw [← taken, ← null]
        exact List.getElem?_set_self (List.getElem?_eq_some_iff.mp found).1
      refine .inr ⟨i, ?_, by rw [← taken]; rfl⟩
      have still : after.fault = false ∧ after.destructor.over = false := by
        rw [← taken]
        exact ⟨sound, alive⟩
      simp only [step, still.1, still.2, Bool.false_eq_true, if_false, moved, Option.bind_some, registerCallback, Option.bind_none]
  | exchangeFails i =>
      obtain ⟨cb, found⟩ := register_loads s _ i (.inr rfl) loads
      simp only [found, Option.bind_some, exchangeFails] at taken
      cases taken
  | worker =>
      obtain ⟨lm, remaining, drained, stands⟩ := worker_loads s _ (.inl rfl) loads
      simp only [processLoop, stands, dispatch, null, Option.bind_none, Option.some.injEq] at taken
      exact .inl taken.symm
  | callback outcome =>
      obtain ⟨lm, remaining, drained, stands⟩ := worker_loads s _ (.inr ⟨outcome, rfl⟩) loads
      simp only [callback, stands] at taken
      cases taken
  | _ => cases loads

theorem undefined_not_works (m : Dispatching C) (alive : m.state.destructor.over = false) (faulty : m.state.fault = true) :
    ¬ Works m := fun works => absurd (alive.symm.trans (works.defined faulty)) (by decide)

theorem fresh_adapter_works (id : String) (platform : Platform) (now steady : Int) (m : Dispatching C)
    (reachable : Machine.Reachable dispatchingStep ClearedFirst ⟨construct id platform now steady, []⟩ m) :
    Works m ∧ ∀ action after, dispatchingStep m action = some after → m.state.destructor.over = false →
      ¬ ClearedFirst m action → ∃ final, Machine.Reachable dispatchingStep (fun _ _ => True) after final ∧ ¬ Works final := by
  have fresh := reachable_fresh id platform now steady m reachable
  refine ⟨⟨fresh.defined, fresh.passes.delivered, fresh.passes.each⟩, ?_⟩
  intro action after taken alive late
  obtain ⟨next, stepped, rfl⟩ := Option.map_eq_some_iff.mp taken
  obtain ⟨loads, uncleared⟩ := Classical.not_imp.mp late
  have null : m.state.callbacks = none := by simpa using mt fresh.cleared.mpr uncleared
  rcases null_load_step m.state next action stepped alive loads null with rfl | ⟨i, broken, same⟩
  · exact ⟨_, .start, undefined_not_works _ alive rfl⟩
  · refine ⟨_, .step _ _ (.register i) .start trivial (Option.map_eq_some_iff.mpr ⟨_, broken, rfl⟩), ?_⟩
    exact undefined_not_works _ (by rw [← alive, ← same]; rfl) rfl

-- After a clear, one message goes to DefaultLog; then two callbacks are
-- registered, and the second message has been given to the first, which threw.
theorem fresh_adapter_works_throwing :
    ∃ m : Dispatching Nat, Machine.Reachable dispatchingStep ClearedFirst ⟨construct "app" ⟨toString, id, 9⟩ 0 0, []⟩ m ∧
      (loads m.log).map (fun load => (load.1.message, load.2)) = [("up", []), ("down", [some 7, some 8])] ∧
      m.state.worker.unpassed.length = 1 ∧ Works m := by
  obtain ⟨m, reachable, shown⟩ := Machine.run_exhibits dispatchingStep ClearedFirst
    ⟨(construct "app" ⟨toString, id, 9⟩ 0 0 : State Nat), []⟩
    ([[.clearCallbacks, .log 1 .info "up"], List.replicate 5 (.call 0), List.replicate 4 .worker,
      [.registerCallback 7, .register 0, .register 0, .register 0, .registerCallback 8, .register 1, .register 1, .register 1,
        .log 1 .alert "down"], List.replicate 5 (.call 1), List.replicate 2 .worker, [.callback (.threw "full")]].flatten)
    (fun m => (loads m.log).map (fun load => (load.1.message, load.2)) == [("up", []), ("down", [some 7, some 8])] &&
      m.state.worker.unpassed.length == 1) (by decide)
  simp only [Bool.and_eq_true, beq_iff_eq] at shown
  exact ⟨m, reachable, shown.1, shown.2, (fresh_adapter_works "app" _ 0 0 m reachable).1⟩

-- Nobody has registered anything, and the first message is logged.
theorem first_message_faults :
    ¬ ∀ (id : String) (platform : Platform) (now steady : Int) (m : Dispatching Nat),
      Machine.Reachable dispatchingStep (fun _ _ => True) ⟨construct id platform now steady, []⟩ m → Works m := by
  intro always
  obtain ⟨m, reachable, shown⟩ := Machine.run_exhibits dispatchingStep (fun _ _ => True)
    ⟨(construct "app" ⟨toString, id, 9⟩ 0 0 : State Nat), []⟩
    ([[.log 1 .info "up"], List.replicate 5 (.call 0), List.replicate 2 .worker].flatten)
    (fun m => m.state.fault && !m.state.destructor.over) (by decide)
  simp only [Bool.and_eq_true, Bool.not_eq_true'] at shown
  exact undefined_not_works m shown.2 shown.1 (always "app" _ 0 0 m reachable)

end Vectro.Log
