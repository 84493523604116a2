import Vectro.ChannelMoves

set_option autoImplicit false

namespace Vectro.Hooks

open Pool (TaskItem TaskProcessorConfig seen)

variable {M W : Type}

structure Kept (cfg : TaskProcessorConfig) (now : Int) (s : State M W) : Prop where
  pool : Machine.Reachable Pool.step (fun _ _ => True) (Pool.construct cfg now) s.proc
  callbacks : s.proc.globalCallbacks = if s.life = .constructing then 0 else 1
  framed : ∀ (w : Nat) (stage : Stage M W), s.inside[w]? = some (some stage) → s.proc.globalCallbacks = 1 ∧
    s.proc.stages[w]? = some (some (stage.item, some 0))
  turns : ∃ stage, Rounds s.trace (seen s.proc.trace 0) stage ∧ Stands s.inside stage
  unused : s.life = .constructing → ∀ event ∈ s.proc.trace, event.isSubmitted = false
  early : s.life ≠ .constructing → 0 < Pool.registeredFirst s.proc.trace
  stopped : .onStop ∈ s.trace → s.proc.destructor = .destroyed
  silent : s.trace.Pairwise fun earlier later => earlier = .onStop → later.ofCallback = false

section
variable (cfg : TaskProcessorConfig) (now : Int) (s after : State M W) (kept : Kept cfg now s)
include kept

-- Nobody is inside the callback once the processor has been destroyed.
theorem stopped_outside (w : Nat) (item : TaskItem M W) (i : Nat) (here : s.proc.stages[w]? = some (some (item, some i))) :
    .onStop ∉ s.trace := by
  intro stopped
  have gone := kept.stopped stopped
  have joined := Pool.reachable_joined _ cfg now s.proc kept.pool
  have finished := Pool.joined_workers s.proc joined (by rw [gone]; rfl)
  rw [Pool.State.stages, List.getElem?_map, Option.map_eq_some_iff] at here
  obtain ⟨pc, found, stage⟩ := here
  rw [finished pc (List.mem_of_getElem? found)] at stage
  cases stage

theorem silent_append (events : List (Event M W)) (allowed : .onStop ∈ s.trace → ∀ event ∈ events, event.ofCallback = false)
    (quiet : events.Pairwise fun earlier later => earlier = .onStop → later.ofCallback = false) :
    (s.trace ++ events).Pairwise fun earlier later => earlier = .onStop → later.ofCallback = false := by
  rw [List.pairwise_append]
  refine ⟨kept.silent, quiet, ?_⟩
  intro earlier before later member isStop
  exact allowed (isStop ▸ before) later member

-- The callback holds cb_mu_, so that nobody else can be inside.
theorem vacant_elsewhere (w : Nat) (item : TaskItem M W) (here : s.proc.stages[w]? = some (some (item, some 0)))
    (vacant : s.inside[w]? = some none) : ∀ frame ∈ s.inside, frame = none := by
  intro frame member
  obtain ⟨v, found⟩ := List.mem_iff_getElem?.mp member
  cases frame with
  | none => rfl
  | some stage =>
      obtain ⟨rounds, inRounds⟩ := Pool.reachable_in_rounds _ cfg now s.proc kept.pool
      have same := inRounds.alone v w 0 0 stage.item item (kept.framed v stage found).2 here
      rw [same, vacant] at found
      cases found

theorem register_kept (proc : Pool.State M W) (fresh : s.life = .constructing)
    (ran : Pool.step s.proc .registerCallback = some proc) : Kept cfg now { s with proc := proc, life := .active } := by
  have none := kept.callbacks
  rw [if_pos fresh] at none
  have moved : proc = { s.proc with globalCallbacks := s.proc.globalCallbacks + 1 }.emit .registered := by
    obtain ⟨_, moves⟩ := Pool.step_move s.proc proc _ ran
    cases moves with
    | registerCallback => rfl
    | call _ i call after acts => rcases acts with same | same <;> cases same
    | worker _ w pc after acts => rcases acts with same | same | ⟨vic, same⟩ <;> cases same
  have unseen : seen proc.trace 0 = seen s.proc.trace 0 := by
    rw [moved]
    exact Traces.filter_map_quiet _ _ _ rfl
  refine ⟨.step _ proc _ kept.pool trivial ran, ?_, ?_, ?_, ?_, ?_, ?_, kept.silent⟩
  · rw [moved]
    simp [none]
  · intro w stage found
    have framed := (kept.framed w stage found).1
    omega
  · rw [unseen]
    exact kept.turns
  · intro constructing
    cases constructing
  · intro _
    have before : ∀ event ∈ s.proc.trace, (!event.isSubmitted) = true := by
      intro event member
      rw [kept.unused fresh event member]
      rfl
    rw [moved]
    change 0 < Pool.registeredFirst (s.proc.trace ++ [.registered])
    rw [Pool.registeredFirst, List.takeWhile_append_of_pos before]
    simp [Pool.Event.isSubmitted, Pool.Event.isRegistered]
  · intro stopped
    exact proc_destroyed s.proc proc _ ran (kept.stopped stopped)

theorem aside_kept (events : List (Event M W)) (proc : after.proc = s.proc) (inside : after.inside = s.inside)
    (trace : after.trace = s.trace ++ events)
    (others : ∀ event ∈ events, event.ofCallback = false ∧ (event = .onStop → s.proc.destructor = .destroyed))
    (life : after.life = .constructing ↔ s.life = .constructing) : Kept cfg now after := by
  obtain ⟨stage, rounds, stands⟩ := kept.turns
  refine ⟨?_, ?_, ?_, ⟨stage, ?_, ?_⟩, ?_, ?_, ?_, ?_⟩
  · rw [proc]
    exact kept.pool
  · rw [proc, kept.callbacks]
    by_cases fresh : s.life = .constructing
    · rw [if_pos fresh, if_pos (life.mpr fresh)]
    · rw [if_neg fresh, if_neg fun still => fresh (life.mp still)]
  · rw [proc, inside]
    exact kept.framed
  · rw [proc, trace]
    exact rounds_aside s.trace events _ stage rounds fun event member => (others event member).1
  · rw [inside]
    exact stands
  · rw [proc]
    exact fun fresh => kept.unused (life.mp fresh)
  · rw [proc]
    exact fun begun => kept.early fun fresh => begun (life.mpr fresh)
  · rw [proc, trace]
    intro stopped
    rcases List.mem_append.mp stopped with before | now
    · exact kept.stopped before
    · exact (others _ now).2 rfl
  · rw [trace]
    apply silent_append cfg now s kept events fun _ event member => (others event member).1
    apply List.Pairwise.imp_of_mem (R := fun _ _ => True) _ (List.pairwise_of_forall fun _ _ => trivial)
    intro earlier later _ member _ _
    exact (others later member).1

theorem quiet_kept (inner : Pool.Action M W) (ran : Pool.step s.proc inner = some after.proc)
    (calm : Undisturbed s.proc after.proc) (inside : after.inside = s.inside) (trace : after.trace = s.trace)
    (life : after.life = s.life) (registers : inner ≠ .registerCallback)
    (submits : ∀ owner msg wrappers, inner = .submit owner msg wrappers → s.life ≠ .constructing) : Kept cfg now after := by
  obtain ⟨events, emitted, unregistered, submitted⟩ := proc_emits s.proc after.proc inner ran
  have calls := Pool.move_callback_step s.proc after.proc inner (Pool.step_move s.proc after.proc inner ran).2
  refine ⟨.step _ after.proc inner kept.pool trivial ran, ?_, ?_, ?_, ?_, ?_, ?_, ?_⟩
  · rw [calm.callbacks, kept.callbacks, life]
  · rw [inside, calm.callbacks]
    intro w stage found
    obtain ⟨one, here⟩ := kept.framed w stage found
    exact ⟨one, undisturbed_stands s.proc after.proc calls calm one w stage.item here⟩
  · rw [trace, inside, calm.seen]
    exact kept.turns
  · rw [life, emitted]
    intro fresh event member
    rcases List.mem_append.mp member with before | now
    · exact kept.unused fresh event before
    · by_contra submits'
      obtain ⟨owner, msg, wrappers, same⟩ := submitted event now (by simpa using submits')
      exact submits owner msg wrappers same fresh
  · rw [life, emitted]
    intro begun
    rw [Pool.registered_first_append]
    · exact kept.early begun
    · refine .inl fun event member => ?_
      by_contra registered
      exact registers (unregistered event member (by simpa using registered))
  · rw [trace]
    exact fun stopped => proc_destroyed s.proc after.proc inner ran (kept.stopped stopped)
  · rw [trace]
    exact kept.silent

-- Steps of a callback that leave the processor alone.
theorem inside_kept (w : Nat) (stage : Stage M W) (old : Option (Stage M W)) (events : List (Event M W)) (found : s.inside[w]? = some old)
    (here : s.proc.stages[w]? = some (some (stage.item, some 0))) (more : 0 < s.proc.globalCallbacks)
    (sole : ∀ (v : Nat) (other : Stage M W), s.inside[v]? = some (some other) → v = w)
    (proc : after.proc = s.proc) (life : after.life = s.life) (inside : after.inside = s.inside.set w (some stage))
    (trace : after.trace = s.trace ++ events) (stops : .onStop ∉ events)
    (rounds : Rounds after.trace (seen s.proc.trace 0) (some stage)) : Kept cfg now after := by
  have one : s.proc.globalCallbacks = 1 := by
    have callbacks := kept.callbacks
    split at callbacks <;> omega
  refine ⟨?_, ?_, ?_, ⟨some stage, ?_, ?_⟩, ?_, ?_, ?_, ?_⟩
  · rw [proc]
    exact kept.pool
  · rw [proc, life]
    exact kept.callbacks
  · rw [proc, inside]
    intro v other there
    obtain ⟨rfl, same⟩ := set_found s.inside w v (some stage) other sole there
    rw [← Option.some.inj same]
    exact ⟨one, here⟩
  · rw [proc]
    exact rounds
  · rw [inside]
    exact stands_enter s.inside w old stage found sole
  · rw [proc, life]
    exact kept.unused
  · rw [proc, life]
    exact kept.early
  · rw [proc, trace]
    intro stopped
    rcases List.mem_append.mp stopped with before | now
    · exact kept.stopped before
    · exact absurd now stops
  · rw [trace]
    have running := stopped_outside cfg now s kept w stage.item 0 here
    apply silent_append cfg now s kept events fun stopped => absurd stopped running
    apply List.Pairwise.imp_of_mem (R := fun _ _ => True) _ (List.pairwise_of_forall fun _ _ => trivial)
    intro earlier later member _ _ isStop
    exact absurd (isStop ▸ member) stops

-- The end of a run of the callback.
theorem ended_kept (w : Nat) (item : TaskItem M W) (event : Event M W) (threw : Bool) (proc : Pool.State M W)
    (here : s.proc.stages[w]? = some (some (item, some 0))) (more : 0 < s.proc.globalCallbacks)
    (sole : ∀ (v : Nat) (other : Stage M W), s.inside[v]? = some (some other) → v = w) (stops : event ≠ .onStop)
    (ran : Pool.step s.proc (if threw then .workerThrows w else .worker w) = some proc)
    (rounds : Rounds (s.trace ++ [event]) (seen s.proc.trace 0 ++ [item]) none) :
    Kept cfg now ({ s with proc := proc, inside := s.inside.set w none }.emit event) := by
  obtain ⟨grown, callbacks⟩ := leave_proc s.proc proc w item threw here more ran
  obtain ⟨events, emitted, unregistered, submitted⟩ := proc_emits s.proc proc _ ran
  have running := stopped_outside cfg now s kept w item 0 here
  have begun : s.life ≠ .constructing := by
    intro fresh
    have none := kept.callbacks
    rw [if_pos fresh] at none
    omega
  have unheard : (if threw then .workerThrows w else .worker w : Pool.Action M W) ≠ .registerCallback := by split <;> simp
  refine ⟨.step _ proc _ kept.pool trivial ran, ?_, ?_, ⟨none, ?_, stands_leave s.inside w sole⟩, ?_, ?_, ?_, ?_⟩
  · exact callbacks.trans kept.callbacks
  · intro v other there
    have gone := stands_leave s.inside w sole (some other) (List.mem_of_getElem? there)
    cases gone
  · change Rounds (s.trace ++ [event]) (seen proc.trace 0) none
    rw [grown]
    exact rounds
  · exact fun fresh => absurd fresh begun
  · intro _
    change 0 < Pool.registeredFirst proc.trace
    rw [emitted, Pool.registered_first_append]
    · exact kept.early begun
    · refine .inl fun event member => ?_
      by_contra registered
      exact unheard (unregistered event member (by simpa using registered))
  · intro stopped
    rcases List.mem_append.mp stopped with before | now
    · exact absurd before running
    · exact absurd (List.mem_singleton.mp now).symm stops
  · exact silent_append cfg now s kept [event] (fun stopped => absurd stopped running) (List.pairwise_singleton _ _)

theorem moves_kept (action : Action M W) (moves : Moves s action after) : Kept cfg now after := by
  cases moves with
  | register proc fresh ran => exact register_kept cfg now s kept proc fresh ran
  | aside _ _ events proc inside trace others life => exact aside_kept cfg now s after kept events proc inside trace others life
  | quiet _ inner _ ran calm inside trace life registers submits _ =>
      exact quiet_kept cfg now s after kept inner ran calm inside trace life registers submits
  | enter w item here vacant more =>
      have others := vacant_elsewhere cfg now s kept w item here vacant
      obtain ⟨stage, rounds, stands⟩ := kept.turns
      obtain rfl := stands_vacant s.inside stage stands others
      exact inside_kept cfg now s _ kept w (.processing item) none [.onProcessed item] vacant here more
        (fun v other found => by cases others _ (List.mem_of_getElem? found)) rfl rfl rfl rfl (by simp) (.enter _ _ item rounds)
  | skip w item proc here vacant more ran =>
      have others := vacant_elsewhere cfg now s kept w item here vacant
      obtain ⟨stage, rounds, stands⟩ := kept.turns
      obtain rfl := stands_vacant s.inside stage stands others
      exact ended_kept cfg now s kept w item (.unheeded item) false proc here more
        (fun v other found => by cases others _ (List.mem_of_getElem? found)) (by simp) ran (.unheeded _ _ item rounds)
  | fails w item found =>
      obtain ⟨one, here⟩ := kept.framed w _ found
      obtain ⟨stage, rounds, stands⟩ := kept.turns
      obtain ⟨rfl, sole⟩ := stands_found s.inside w _ stage stands found
      exact inside_kept cfg now s _ kept w (.failing item) _ [.raised item true, .onError item] found here (by omega) sole rfl rfl rfl
        (by simp [State.emit]) (by simp) (.fails _ _ item rounds)
  | leave _ w stage event threw proc found ends ran =>
      obtain ⟨one, here⟩ := kept.framed w _ found
      obtain ⟨under, rounds, stands⟩ := kept.turns
      obtain ⟨rfl, sole⟩ := stands_found s.inside w _ under stands found
      have other : event ≠ .onStop := by cases ends <;> simp
      exact ended_kept cfg now s kept w stage.item event threw proc here (by omega) sole other ran (rounds_end _ _ stage event rounds ends)

end

theorem reachable_kept (guard : State M W → Action M W → Prop) (cfg : TaskProcessorConfig) (now : Int) (s : State M W)
    (reachable : Machine.Reachable step guard (construct cfg now) s) : Kept cfg now s := by
  apply Machine.reachable_invariant step guard (construct cfg now) (Kept cfg now) _ _ s reachable
  · have vacant : ∀ frame ∈ (construct cfg now : State M W).inside, frame = none := fun frame member => List.eq_of_mem_replicate member
    refine ⟨.start, rfl, ?_, ⟨none, .start, vacant⟩, ?_, ?_, ?_, .nil⟩
    · intro w stage found
      cases vacant _ (List.mem_of_getElem? found)
    · intro _ event member
      cases member
    · exact fun begun => absurd rfl begun
    · intro stopped
      cases stopped
  · intro before action after _ kept _ taken
    exact moves_kept cfg now before after kept action (step_moves before after action taken)

-- What the processor has handed to the callback, and what it is handing to it.
theorem turn_items (cfg : TaskProcessorConfig) (now : Int) (s : State M W) (kept : Kept cfg now s) (stage : Option (Stage M W))
    (stands : Stands s.inside stage) :
    ((seen s.proc.trace 0 ++ (stage.map Stage.item).toList).map TaskItem.call).Nodup ∧
    ∀ item ∈ seen s.proc.trace 0 ++ (stage.map Stage.item).toList, Pool.Genuine s.proc.calls item := by
  obtain ⟨conserved, traced⟩ := Pool.reachable_conserved _ cfg now s.proc kept.pool
  obtain ⟨rounds, inRounds⟩ := Pool.reachable_in_rounds _ cfg now s.proc kept.pool
  have nodup := Pool.seen_nodup s.proc rounds conserved inRounds 0
  have handed : ∀ (w : Nat) (item : TaskItem M W) (i : Nat), s.proc.stages[w]? = some (some (item, some i)) →
      Pool.Genuine s.proc.calls item := by
    intro w item i here
    rw [Pool.State.stages, List.getElem?_map, Option.map_eq_some_iff] at here
    obtain ⟨pc, found, at'⟩ := here
    refine traced.genuine item (traced.held pc (List.mem_of_getElem? found) item ?_)
    cases pc <;> simp [Pool.WorkerPc.stage] at at'
    rw [at'.1]
    rfl
  have genuine : ∀ item ∈ seen s.proc.trace 0, Pool.Genuine s.proc.calls item := by
    intro item member
    have column : item ∈ Pool.column rounds 0 → Pool.Genuine s.proc.calls item := by
      intro inside
      rw [Pool.column, List.mem_map] at inside
      obtain ⟨round, kept', rfl⟩ := inside
      exact traced.genuine _ (inRounds.known round (List.mem_filter.mp kept').1).1
    rcases Pool.seen_rounds s.proc rounds inRounds with whole | ⟨w, i, held, _, here, part⟩
    · exact column (whole 0 ▸ member)
    · rw [part 0] at member
      rcases List.mem_append.mp member with before | last
      · exact column before
      · split at last
        · rw [List.mem_singleton.mp last]
          exact handed w held i here
        · cases last
  cases stage with
  | none =>
      rw [Option.map_none, Option.toList_none, List.append_nil]
      exact ⟨nodup, genuine⟩
  | some stage =>
      obtain ⟨w, found, _⟩ := stands
      have here := (kept.framed w stage found).2
      have fresh := Pool.column_fresh rounds 0 stage.item.call
        ((Pool.rounds_once s.proc rounds conserved inRounds stage.item.call).2 w 0 stage.item here rfl)
      have before := (inRounds.held w 0 stage.item here).2 0
      rw [if_neg (Nat.lt_irrefl 0), List.append_nil] at before
      rw [← before] at fresh
      rw [Option.map_some, Option.toList_some, List.map_append, List.map_singleton]
      refine ⟨List.nodup_append.mpr ⟨nodup, List.nodup_singleton _, ?_⟩, ?_⟩
      · intro a member b last
        rw [List.mem_singleton.mp last]
        exact fun same => fresh (same ▸ member)
      · intro item member
        rcases List.mem_append.mp member with earlier | last
        · exact genuine item earlier
        · rw [List.mem_singleton.mp last]
          exact handed w stage.item 0 here

theorem registered_before_first (trace : List (Pool.Event M W)) (c : Nat) : Pool.registeredFirst trace ≤ Pool.registeredBefore trace c := by
  induction trace with
  | nil => exact Nat.le_refl _
  | cons event rest ih =>
      rw [Pool.registeredFirst, Pool.registeredBefore, List.takeWhile_cons, List.takeWhile_cons]
      cases event with
      | submitted => exact Nat.zero_le _
      | registered =>
          change List.countP _ (_ :: _) ≤ List.countP _ (_ :: _)
          rw [List.countP_cons, List.countP_cons]
          exact Nat.add_le_add_right ih 1
      | _ => exact ih

theorem payloads_seen (trace : List (Pool.Event M W)) (k : Nat) :
    Pool.callbackPayloads trace k = (seen trace k).map TaskItem.payload := by
  rw [Pool.callbackPayloads, seen, List.map_filterMap]
  congr 1
  funext event
  cases event with
  | callback w j item threw =>
      change (if j = k then some item.payload else none) = (if j = k then some item else none).map TaskItem.payload
      split <;> rfl
  | _ => rfl

theorem fresh_calls (cfg : TaskProcessorConfig) (now : Int) (s : State M W) (kept : Kept cfg now s) (fresh : s.life = .constructing) :
    s.proc.calls = [] := by
  have registry : Pool.Registry s.proc := by
    apply Machine.reachable_invariant Pool.step (fun _ _ => True) (Pool.construct cfg now) Pool.Registry _ _ s.proc kept.pool
    · exact ⟨rfl, fun _ => rfl⟩
    · intro before action after _ registry _ taken
      exact Pool.move_registry before after action (Pool.step_move before after action taken).2 registry
  exact registry.unused (kept.unused fresh)

-- The processor of a channel whose config is never updated.
theorem keeps_config (cfg : TaskProcessorConfig) (now : Int) (s : State M W)
    (reachable : Machine.Reachable step (fun _ action => ∀ other, action ≠ .proc (.updateConfig other)) (construct cfg now) s) :
    Machine.Reachable Pool.step Pool.KeepsConfig (Pool.construct cfg now) s.proc := by
  induction reachable with
  | start => exact .start
  | step before after action previous allowed taken ih =>
      have ran : ∀ (inner : Pool.Action M W) (proc : Pool.State M W), Pool.step before.proc inner = some proc →
          (∀ other, inner ≠ .updateConfig other) → Machine.Reachable Pool.step Pool.KeepsConfig (Pool.construct cfg now) proc := by
        intro inner proc taken' same
        refine .step before.proc proc inner ih ?_ taken'
        cases inner with
        | updateConfig other => exact absurd rfl (same other)
        | _ => trivial
      cases step_moves before after action taken with
      | register proc fresh ran' => exact ran _ proc ran' (by simp)
      | aside _ _ events proc =>
          rw [proc]
          exact ih
      | quiet _ inner _ ran' calm inside trace life registers submits updates =>
          exact ran inner _ ran' fun other same => allowed other (updates other same)
      | enter | fails => exact ih
      | skip w item proc here vacant more ran' => exact ran _ proc ran' (by simp)
      | leave _ w stage event threw proc found ends ran' => exact ran _ proc ran' (by intro other; split <;> simp)

theorem hooks_in_turn (cfg : TaskProcessorConfig) (now : Int) (s : State M W)
    (reachable : Machine.Reachable step (fun _ _ => True) (construct cfg now) s) : InTurn cfg now s := by
  have kept := reachable_kept _ cfg now s reachable
  obtain ⟨stage, rounds, stands⟩ := kept.turns
  have called := rounds_processed s.trace _ stage rounds
  obtain ⟨nodup, genuine⟩ := turn_items cfg now s kept stage stands
  obtain ⟨_, traced⟩ := Pool.reachable_conserved _ cfg now s.proc kept.pool
  obtain ⟨columns, inRounds⟩ := Pool.reachable_in_rounds _ cfg now s.proc kept.pool
  exact {
    turns := ⟨stage, rounds, stands⟩
    once := (called.map _).nodup nodup
    genuine := fun item member => genuine item (called.subset member)
    errors := rounds_errors s.trace _ stage rounds
    complete := by
      intro item member
      by_cases fresh : s.life = .constructing
      · obtain ⟨call, found, _⟩ := traced.genuine item (traced.processed item member)
        rw [fresh_calls cfg now s kept fresh] at found
        cases found
      · exact Pool.processed_seen s.proc columns traced inRounds item member 0
          (Nat.lt_of_lt_of_le (kept.early fresh) (registered_before_first _ _))
    silent := kept.silent
    arrival := by
      intro fifo unchanged
      by_cases fresh : s.life = .constructing
      · have unseen : seen s.proc.trace 0 = [] := by
          apply List.eq_nil_iff_forall_not_mem.mpr
          intro item member
          obtain ⟨call, found, _⟩ := genuine item (List.mem_append_left _ member)
          rw [fresh_calls cfg now s kept fresh] at found
          cases found
        rw [unseen]
        exact List.nil_prefix
      · have pool := keeps_config cfg now s unchanged
        obtain ⟨_, ordered⟩ := Pool.reachable_ordered cfg now fifo s.proc pool
        have blocked := Pool.reachable_blocked cfg now fifo s.proc pool
        rw [← payloads_seen]
        exact Pool.blocked_payloads s.proc ordered blocked 0 (kept.early fresh) }

def oneChannel : TaskProcessorConfig := { numThreads := 1, enableDrainOnShutdown := false }

-- OnProcessed raises on the first message, and so does OnError. The second
-- message is processed all the same, and the channel is shut down.
def raisingHooks : List (Action Nat Nat) :=
  [[.register, .assign ⟨true, true, true, true, true⟩, .enqueue 0 7, .entered 0 false], List.replicate 8 (.proc (.call 0)),
    [.enqueue 0 8, .entered 0 false], List.replicate 8 (.proc (.call 1)), List.replicate 8 (.proc (.worker 0)),
    [.callback 0, .raises 0, .raises 0], List.replicate 11 (.proc (.worker 0)), [.callback 0, .returns 0],
    [.shutdown true false, .destroy, .destroy, .destroy], List.replicate 6 (.proc (.worker 0)), List.replicate 5 .destroy,
    [.stop]].flatten

theorem raising_hooks_in_turn :
    ∃ s : State Nat Nat, Machine.Reachable step (fun _ _ => True) (construct oneChannel 0) s ∧
      (processed s.trace).map TaskItem.payload = [7, 8] ∧ (errors s.trace).map TaskItem.payload = [7] ∧ .onStop ∈ s.trace ∧
      InTurn oneChannel 0 s := by
  obtain ⟨s, reachable, shown⟩ := Machine.run_exhibits step (fun _ _ => True) (construct oneChannel 0) raisingHooks
    (fun s => (processed s.trace).map TaskItem.payload == [7, 8] && (errors s.trace).map TaskItem.payload == [7] &&
      s.trace.contains .onStop) (by decide)
  simp only [Bool.and_eq_true, beq_iff_eq, List.contains_iff_mem] at shown
  exact ⟨s, reachable, shown.1.1, shown.1.2, shown.2, hooks_in_turn oneChannel 0 s reachable⟩

end Vectro.Hooks
