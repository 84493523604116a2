import Vectro.ChannelHooks

set_option autoImplicit false

namespace Vectro.Hooks

open Pool (TaskItem TaskProcessorConfig seen)

variable {M W : Type}

-- A step of the processor that runs no callback.
structure Undisturbed (before after : Pool.State M W) : Prop where
  seen : seen after.trace 0 = seen before.trace 0
  callbacks : after.globalCallbacks = before.globalCallbacks

theorem worker_undisturbed (before after : Pool.State M W) (w : Nat) (pc : Pool.WorkerPc M W)
    (moves : Pool.WorkerMove before w pc after) (calls : ∀ item k, pc = .callbacks item k → before.globalCallbacks ≤ k) :
    Undisturbed before after := by
  cases moves with
  | callback item k threw more =>
      have ended := calls item k rfl
      omega
  | take | steal | subtract | wrapper | done | notify => exact ⟨Traces.filter_map_quiet _ _ _ rfl, rfl⟩
  | _ => exact ⟨rfl, rfl⟩

theorem call_undisturbed (before after : Pool.State M W) (i : Nat) (call : Pool.Call M W)
    (moves : Pool.CallMove before i call after) : Undisturbed before after := by
  cases moves with
  | load | drop | push => exact ⟨Traces.filter_map_quiet _ _ _ rfl, rfl⟩
  | _ => exact ⟨rfl, rfl⟩

theorem plain_undisturbed (before after : Pool.State M W) (action : Pool.Action M W) (other : plain before action = true)
    (taken : Pool.step before action = some after) : Undisturbed before after := by
  obtain ⟨sound, moves⟩ := Pool.step_move before after action taken
  cases moves with
  | submit | destroy | registerCallback | setFinalCallback | getDroppedCount => cases other
  | call _ i call after acts found moves => exact call_undisturbed before after i call moves
  | worker _ w pc after acts found moves =>
      apply worker_undisturbed before after w pc moves
      rintro item k rfl
      rcases acts with rfl | rfl | ⟨vic, rfl⟩
      · simpa [plain, found] using other
      · cases other
      · simp [Pool.step, sound, found, Pool.stealFrom] at taken
  | updateConfig | clock => exact ⟨rfl, rfl⟩

theorem submit_undisturbed (before after : Pool.State M W) (owner : Nat) (msg : M)
    (taken : Pool.step before (.submit owner msg []) = some after) : Undisturbed before after := by
  obtain ⟨_, moves⟩ := Pool.step_move before after _ taken
  cases moves with
  | submit => exact ⟨Traces.filter_map_quiet _ _ _ rfl, rfl⟩
  | call _ i call after acts => rcases acts with same | same <;> cases same
  | worker _ w pc after acts => rcases acts with same | same | ⟨vic, same⟩ <;> cases same

theorem destroy_undisturbed (before after : Pool.State M W) (taken : Pool.step before .destroy = some after) :
    Undisturbed before after := by
  obtain ⟨_, moves⟩ := Pool.step_move before after _ taken
  cases moves with
  | destroy pc after here moves =>
      cases moves with
      | store | final => exact ⟨Traces.filter_map_quiet _ _ _ rfl, rfl⟩
      | _ => exact ⟨rfl, rfl⟩
  | call _ i call after acts => rcases acts with same | same <;> cases same
  | worker _ w pc after acts => rcases acts with same | same | ⟨vic, same⟩ <;> cases same

-- A worker that stands before the callback stays there.
theorem undisturbed_stands (before after : Pool.State M W) (step : Pool.CallbackStep before after) (calm : Undisturbed before after)
    (one : before.globalCallbacks = 1) (w : Nat) (item : TaskItem M W)
    (here : before.stages[w]? = some (some (item, some 0))) : after.stages[w]? = some (some (item, some 0)) := by
  have other : ∀ (v : Nat) (old new : Option (TaskItem M W × Option Nat)), before.stages[v]? = some old →
      old ≠ some (item, some 0) → (before.stages.set v new)[w]? = some (some (item, some 0)) := by
    intro v old new found apart
    have away : v ≠ w := by
      rintro rfl
      exact apart (Option.some.inj (found.symm.trans here))
    rw [List.getElem?_set_ne away]
    exact here
  cases step with
  | quiet events trace calmly stages callbacks =>
      rw [stages]
      exact here
  | lock v other' found free stages trace callbacks =>
      rw [stages]
      exact other v _ _ found (by simp)
  | call v i other' threw found more stages trace callbacks =>
      have first : i = 0 := by omega
      have grown := calm.seen
      rw [trace, seen, Traces.filter_map_logs _ _ _ other' (by simp [Pool.Event.seenBy, first])] at grown
      simp [seen] at grown
  | leave v i other' found ended stages trace callbacks =>
      rw [stages]
      refine other v _ _ found fun same => ?_
      simp only [Option.some.injEq, Prod.mk.injEq] at same
      omega
  | done v other' found stages trace callbacks =>
      rw [stages]
      exact other v _ _ found (by simp)
  | register free stages trace callbacks =>
      rw [stages]
      exact here

-- The end of a run of the callback, seen from the processor.
theorem leave_proc (before after : Pool.State M W) (w : Nat) (item : TaskItem M W) (threw : Bool)
    (here : before.stages[w]? = some (some (item, some 0))) (more : 0 < before.globalCallbacks)
    (taken : Pool.step before (if threw then .workerThrows w else .worker w) = some after) :
    seen after.trace 0 = seen before.trace 0 ++ [item] ∧ after.globalCallbacks = before.globalCallbacks := by
  rw [Pool.State.stages, List.getElem?_map, Option.map_eq_some_iff] at here
  obtain ⟨pc, found, stage⟩ := here
  have stands : pc = .callbacks item 0 := by
    cases pc <;> simp [Pool.WorkerPc.stage] at stage
    rw [stage.1, stage.2]
  subst stands
  have sound := (Pool.step_move before after _ taken).1
  have ran : after = (before.setWorker w (.callbacks item 1)).emit (.callback w 0 item threw) := by
    have invoked : Pool.invoke before w threw (.callbacks item 0) = some after := by
      cases threw with
      | true => simpa [Pool.step, sound, found] using taken
      | false => simpa [Pool.step, sound, found, Pool.processLoop, more] using taken
    rw [Pool.invoke, if_pos more] at invoked
    exact (Option.some.inj invoked).symm
  rw [ran]
  exact ⟨Traces.filter_map_logs _ _ _ item rfl, rfl⟩

-- The event with which a run of the callback ends.
inductive Ends : Stage M W → Event M W → Prop where
  | returned (item : TaskItem M W) : Ends (.processing item) (.returned item)
  | raised (item : TaskItem M W) : Ends (.processing item) (.raised item false)
  | reported (item : TaskItem M W) (threw : Bool) : Ends (.failing item) (.reported item threw)

theorem rounds_end (log : List (Event M W)) (items : List (TaskItem M W)) (stage : Stage M W) (event : Event M W)
    (rounds : Rounds log items (some stage)) (ends : Ends stage event) : Rounds (log ++ [event]) (items ++ [stage.item]) none := by
  cases ends with
  | returned item => exact .returns log items item rounds
  | raised item => exact .raises log items item rounds
  | reported item threw => exact .reports log items item threw rounds

inductive Moves (s : State M W) : Action M W → State M W → Prop where
  | register (proc : Pool.State M W) (fresh : s.life = .constructing) (ran : Pool.step s.proc .registerCallback = some proc) :
      Moves s .register { s with proc := proc, life := .active }
  | aside (action : Action M W) (after : State M W) (events : List (Event M W)) (proc : after.proc = s.proc)
      (inside : after.inside = s.inside) (trace : after.trace = s.trace ++ events)
      (others : ∀ event ∈ events, event.ofCallback = false ∧ (event = .onStop → s.proc.destructor = .destroyed))
      (life : after.life = .constructing ↔ s.life = .constructing) : Moves s action after
  | quiet (action : Action M W) (inner : Pool.Action M W) (after : State M W) (ran : Pool.step s.proc inner = some after.proc)
      (calm : Undisturbed s.proc after.proc) (inside : after.inside = s.inside) (trace : after.trace = s.trace)
      (life : after.life = s.life) (registers : inner ≠ .registerCallback)
      (submits : ∀ owner msg wrappers, inner = .submit owner msg wrappers → s.life ≠ .constructing)
      (updates : ∀ cfg, inner = .updateConfig cfg → action = .proc (.updateConfig cfg)) : Moves s action after
  | enter (w : Nat) (item : TaskItem M W) (here : s.proc.stages[w]? = some (some (item, some 0))) (vacant : s.inside[w]? = some none)
      (more : 0 < s.proc.globalCallbacks) :
      Moves s (.callback w) ({ s with inside := s.inside.set w (some (.processing item)) }.emit (.onProcessed item))
  | skip (w : Nat) (item : TaskItem M W) (proc : Pool.State M W) (here : s.proc.stages[w]? = some (some (item, some 0)))
      (vacant : s.inside[w]? = some none) (more : 0 < s.proc.globalCallbacks) (ran : Pool.step s.proc (.worker w) = some proc) :
      Moves s (.callback w) ({ s with proc := proc, inside := s.inside.set w none }.emit (.unheeded item))
  | fails (w : Nat) (item : TaskItem M W) (found : s.inside[w]? = some (some (.processing item))) :
      Moves s (.raises w)
        (({ s with inside := s.inside.set w (some (.failing item)) }.emit (.raised item true)).emit (.onError item))
  | leave (action : Action M W) (w : Nat) (stage : Stage M W) (event : Event M W) (threw : Bool) (proc : Pool.State M W)
      (found : s.inside[w]? = some (some stage)) (ends : Ends stage event)
      (ran : Pool.step s.proc (if threw then .workerThrows w else .worker w) = some proc) :
      Moves s action ({ s with proc := proc, inside := s.inside.set w none }.emit event)

theorem submit_moves (s base after : State M W) (action : Action M W) (owner : Nat) (msg : M) (begun : s.life ≠ .constructing)
    (proc : base.proc = s.proc) (inside : base.inside = s.inside) (trace : base.trace = s.trace) (life : base.life = s.life)
    (taken : base.submit owner msg = some after) : Moves s action after := by
  obtain ⟨next, ran, rfl⟩ := Option.map_eq_some_iff.mp taken
  rw [proc] at ran
  exact .quiet action _ _ ran (submit_undisturbed s.proc next owner msg ran) inside trace life (by simp) (fun _ _ _ _ => begun) (by simp)

theorem leave_moves (s after : State M W) (action : Action M W) (w : Nat) (stage : Stage M W) (event : Event M W) (threw : Bool)
    (found : s.inside[w]? = some (some stage)) (ends : Ends stage event) (taken : s.leave w event threw = some after) :
    Moves s action after := by
  obtain ⟨proc, ran, rfl⟩ := Option.map_eq_some_iff.mp taken
  exact .leave action w stage event threw proc found ends ran

theorem step_moves (s after : State M W) (action : Action M W) (taken : step s action = some after) : Moves s action after := by
  by_cases faulty : s.fault = true
  · rw [step, if_pos faulty] at taken
    cases taken
  · rw [step, if_neg faulty] at taken
    cases action with
    | register =>
        rw [State.act] at taken
        split at taken
        · rename_i fresh
          obtain ⟨proc, ran, rfl⟩ := Option.map_eq_some_iff.mp taken
          exact .register proc fresh ran
        · cases taken
    | assign hooks =>
        rw [State.act] at taken
        split at taken
        · cases taken
        · obtain rfl := Option.some.inj taken
          exact .aside _ _ [] rfl rfl (List.append_nil _).symm (by simp) .rfl
    | enqueue owner msg =>
        rw [State.act] at taken
        split at taken
        · cases taken
        · rename_i begun
          rw [State.enqueue] at taken
          split at taken
          · obtain rfl := Option.some.inj taken
            exact .aside _ _ [_] rfl rfl rfl (by simp [Event.ofCallback]) .rfl
          · exact submit_moves s s after _ owner msg (fun fresh => begun (.inl fresh)) rfl rfl rfl rfl taken
    | entered i raises =>
        rw [State.act] at taken
        split at taken
        · cases taken
        · rename_i begun
          obtain ⟨call, found, left⟩ := Option.bind_eq_some_iff.mp taken
          split at left
          · obtain rfl := Option.some.inj left
            exact .aside _ _ [] rfl rfl (List.append_nil _).symm (by simp) .rfl
          · exact submit_moves s { s with entering := s.entering.eraseIdx i } after _ call.1 call.2 begun rfl rfl rfl rfl left
    | proc inner =>
        rw [State.act] at taken
        split at taken
        · rename_i other
          obtain ⟨proc, ran, rfl⟩ := Option.map_eq_some_iff.mp taken
          refine .quiet _ inner _ ran (plain_undisturbed s.proc proc inner other ran) rfl rfl rfl ?_ ?_ ?_
          · rintro rfl
            cases other
          · rintro owner msg wrappers rfl
            cases other
          · rintro cfg rfl
            rfl
        · cases taken
    | callback w =>
        rw [State.act] at taken
        split at taken
        · rename_i item found vacant
          have here := Pool.stage_found s.proc w _ found
          split at taken
          · rename_i more
            rw [State.callback] at taken
            split at taken
            · obtain rfl := Option.some.inj taken
              exact .enter w item here vacant more
            · obtain ⟨proc, ran, rfl⟩ := Option.map_eq_some_iff.mp taken
              exact .skip w item proc here vacant more ran
          · cases taken
        · cases taken
    | returns w =>
        rw [State.act] at taken
        split at taken
        · rename_i stage found
          cases stage with
          | processing item => exact leave_moves s after _ w _ _ false found (.returned item) taken
          | failing item => exact leave_moves s after _ w _ _ false found (.reported item false) taken
        · cases taken
    | raises w =>
        rw [State.act] at taken
        split at taken
        · rename_i stage found
          cases stage with
          | processing item =>
              rw [State.raises] at taken
              split at taken
              · obtain rfl := Option.some.inj taken
                exact .fails w item found
              · exact leave_moves s after _ w _ _ false found (.raised item) taken
          | failing item => exact leave_moves s after _ w _ _ true found (.reported item true) taken
        · cases taken
    | shutdown force raises =>
        rw [State.act, State.shutdown] at taken
        split at taken
        · cases taken
        · rename_i opened
          by_cases set : s.hooks.onShutdown = true
          · rw [if_pos set] at taken
            split at taken
            · obtain rfl := Option.some.inj taken
              exact .aside _ _ [_] rfl rfl rfl (by simp [Event.ofCallback]) .rfl
            · obtain rfl := Option.some.inj taken
              exact .aside _ _ [_] rfl rfl rfl (by simp [Event.ofCallback]) (by simp [opened])
          · rw [if_neg set] at taken
            split at taken
            · obtain rfl := Option.some.inj taken
              exact .aside _ _ [] rfl rfl (List.append_nil _).symm (by simp) .rfl
            · obtain rfl := Option.some.inj taken
              exact .aside _ _ [] rfl rfl (List.append_nil _).symm (by simp) (by simp [opened])
        · obtain rfl := Option.some.inj taken
          exact .aside _ _ [] rfl rfl (List.append_nil _).symm (by simp) .rfl
    | destroy =>
        rw [State.act] at taken
        split at taken
        · rename_i closing
          obtain ⟨proc, ran, rfl⟩ := Option.map_eq_some_iff.mp taken
          exact .quiet _ .destroy _ ran (destroy_undisturbed s.proc proc ran) rfl rfl rfl (by simp) (by simp) (by simp)
        · cases taken
    | stop =>
        rw [State.act] at taken
        split at taken
        · rename_i closing gone
          obtain rfl := Option.some.inj taken
          split
          · exact .aside _ _ [.onStop] rfl rfl rfl (by simp [Event.ofCallback, gone]) (by simp [State.emit, closing])
          · exact .aside _ _ [] rfl rfl (List.append_nil _).symm (by simp) (by simp [closing])
        · cases taken

theorem proc_emits (before after : Pool.State M W) (inner : Pool.Action M W) (ran : Pool.step before inner = some after) :
    ∃ events, after.trace = before.trace ++ events ∧
      (∀ event ∈ events, event.isRegistered = true → inner = .registerCallback) ∧
      ∀ event ∈ events, event.isSubmitted = true → ∃ owner msg wrappers, inner = .submit owner msg wrappers := by
  obtain ⟨_, moves⟩ := Pool.step_move before after inner ran
  cases moves with
  | submit owner payload wrappers => exact ⟨[_], rfl, by simp [Pool.Event.isRegistered], by simp⟩
  | call _ i call after acts found moves =>
      obtain ⟨events, trace, called⟩ := Pool.call_move_emits before after i call moves
      refine ⟨events, trace, fun event member tells => ?_, fun event member tells => ?_⟩
      · rw [Pool.of_call_not_registered event (called event member)] at tells
        cases tells
      · have ofCall := called event member
        cases event with
        | submitted => cases ofCall
        | _ => cases tells
  | worker _ w pc after acts found moves =>
      obtain ⟨events, trace, worked⟩ := Pool.worker_move_emits before after w pc moves
      refine ⟨events, trace, fun event member tells => ?_, fun event member tells => ?_⟩
      · rw [Pool.of_worker_not_registered event (worked event member)] at tells
        cases tells
      · have ofWorker := worked event member
        cases event with
        | submitted => cases ofWorker
        | _ => cases tells
  | destroy pc after here moves =>
      cases moves with
      | store | final => exact ⟨[_], rfl, by simp [Pool.Event.isRegistered], by simp [Pool.Event.isSubmitted]⟩
      | _ => exact ⟨[], (List.append_nil _).symm, by simp, by simp⟩
  | registerCallback => exact ⟨[_], rfl, by simp, by simp [Pool.Event.isSubmitted]⟩
  | getDroppedCount => exact ⟨[_], rfl, by simp [Pool.Event.isRegistered], by simp [Pool.Event.isSubmitted]⟩
  | _ => exact ⟨[], (List.append_nil _).symm, by simp, by simp⟩

theorem proc_destroyed (before after : Pool.State M W) (inner : Pool.Action M W) (ran : Pool.step before inner = some after)
    (gone : before.destructor = .destroyed) : after.destructor = .destroyed := by
  obtain ⟨sound, moves⟩ := Pool.step_move before after inner ran
  cases moves with
  | call _ i call after acts found moves => cases moves <;> exact gone
  | worker _ w pc after acts found moves => cases moves <;> exact gone
  | destroy => simp [Pool.step, sound, Pool.destructor, gone] at ran
  | _ => exact gone

end Vectro.Hooks
