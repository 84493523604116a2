import Vectro.AcceptorLoop

set_option autoImplicit false

namespace Vectro.Acceptor

open Tally

variable {E : Type}

-- Both handlers of an accept keep a pointer to the loop until they have run.
def Accept.holders (accept : Accept) : Nat := accept.outstanding + if accept.timer = .handled then 0 else 1

def State.holders (s : State E) : Nat := total Accept.holders s.accepts + if s.starting = .dispatched then 1 else 0

-- The timer of an accept that waits has its handler still to come, and that of
-- an accept that was handled is not running any more.
structure Accept.Watched (stopped : Bool) (accept : Accept) : Prop where
  timed : accept.op = .waiting → stopped = false ∧ (accept.timer = .pending ∨ accept.timer = .expired)
  cancelled : accept.op = .handled → accept.timer ≠ .pending

-- Nobody connects, and nobody calls a function of the loop.
def Unassisted (_ : State E) : Action E → Prop
  | .expires _ | .acceptHandler .. | .timerHandler _ => True
  | _ => False

def RunsHandler (_ : State E) : Action E → Prop
  | .firstAccept | .acceptHandler .. | .timerHandler _ => True
  | _ => False

structure Settling (s after : State E) (action : Action E) : Prop where
  stopped : after.stopped = true
  silent : after.accepts.length = s.accepts.length
  fewer : after.holders ≤ s.holders
  lowered : RunsHandler s action → after.holders < s.holders

-- While it runs, the loop renews its accept by itself. Once stopped, it lets go
-- of every handler and issues no other.
structure WindsDown (s : State E) : Prop where
  watched : ∀ accept ∈ s.accepts, accept.Watched s.stopped
  renews : s.starting = .begun → s.stopped = false →
    ∃ later, Machine.Reachable step Unassisted s later ∧ later.accepts.length = s.accepts.length + 1
  settles : s.stopped = true → ∀ action after, step s action = some after → Settling s after action
  releases : s.stopped = true → ∃ final, Machine.Reachable step RunsHandler s final ∧ final.holders = 0

theorem cancel_holders (accept : Accept) : accept.cancel.holders = accept.holders := by
  have timer : accept.cancel.timer = accept.timer := by
    rw [Accept.cancel]
    split <;> rfl
  rw [Accept.holders, Accept.holders, accept_cancel_outstanding, timer]

theorem timer_cancel_holders (accept : Accept) (error : Bool) (completed : accept.op = .completed error) :
    Accept.holders ⟨.handled, accept.timer.cancel⟩ + 1 = accept.holders := by
  rw [Accept.holders, Accept.holders, Accept.outstanding, Accept.outstanding, completed]
  cases accept.timer <;> rfl

theorem cancel_watched (stopped : Bool) (accept : Accept) (cancelled : accept.op = .handled → accept.timer ≠ .pending) :
    accept.cancel.Watched stopped := by
  rw [Accept.cancel]
  split
  · exact ⟨fun waiting => (by cases waiting), fun handled => (by cases handled)⟩
  · rename_i busy
    exact ⟨fun waiting => absurd waiting busy, cancelled⟩

-- The accepts after the handler of one of them: the socket, the filter and the
-- flags decide about the log alone.
theorem accept_handler_accepts (s : State E) (i : Nat) (error : Bool) (remote : Option E) (answer : Bool) :
    (s.acceptHandler i error remote answer).stopped = s.stopped ∧
    (s.acceptHandler i error remote answer).starting = s.starting ∧
    (s.acceptHandler i error remote answer).accepts =
      if s.stopped then s.accepts else s.accepts ++ [⟨.waiting, .pending⟩] := by
  have admits : ∀ (logged : State E) (passed : Bool), (logged.admitRemote i error remote passed).stopped = logged.stopped ∧
      (logged.admitRemote i error remote passed).starting = logged.starting ∧
      (logged.admitRemote i error remote passed).accepts = logged.accepts := by
    intro logged passed
    unfold State.admitRemote
    repeat' split
    all_goals exact ⟨rfl, rfl, rfl⟩
  rw [State.acceptHandler]
  by_cases stopped : s.stopped = true
  · rw [if_pos stopped, if_pos stopped]
    exact ⟨rfl, rfl, rfl⟩
  · rw [if_neg stopped, if_neg stopped]
    obtain ⟨flag, started, accepts⟩ :=
      admits (s.log (.handled i error remote (!s.hasFilter || answer) s.draining s.stopped)) (!s.hasFilter || answer)
    have running : ((s.log (.handled i error remote (!s.hasFilter || answer) s.draining s.stopped)).admitRemote i error remote
        (!s.hasFilter || answer)).stopped ≠ true := by
      rw [flag]
      exact stopped
    rw [State.doAccept, if_neg running]
    exact ⟨flag, started, congrArg (· ++ _) accepts⟩

theorem watched_set (stopped : Bool) (accepts : List Accept) (i : Nat) (new : Accept)
    (watched : ∀ accept ∈ accepts, accept.Watched stopped) (renewed : new.Watched stopped) :
    ∀ accept ∈ accepts.set i new, accept.Watched stopped :=
  forall_mem_set (fun accept => accept.Watched stopped) accepts i new watched renewed

theorem watched_cancel (stopped : Bool) (accepts : List Accept)
    (cancelled : ∀ accept ∈ accepts, accept.op = .handled → accept.timer ≠ .pending) :
    ∀ accept ∈ accepts.map Accept.cancel, accept.Watched stopped := by
  intro accept member
  obtain ⟨old, present, rfl⟩ := List.mem_map.mp member
  exact cancel_watched stopped old (cancelled old present)

theorem watched_append (accepts : List Accept) (watched : ∀ accept ∈ accepts, accept.Watched false) :
    ∀ accept ∈ accepts ++ [⟨.waiting, .pending⟩], accept.Watched false := by
  intro accept member
  rcases List.mem_append.mp member with old | new
  · exact watched accept old
  · rw [List.mem_singleton.mp new]
    exact ⟨fun _ => ⟨rfl, .inl rfl⟩, fun handled => (by cases handled)⟩

-- What a step makes of the accepts. An accept is added only while the loop runs.
inductive Moves (s after : State E) : Action E → Prop where
  | start : after.accepts = s.accepts → after.stopped = s.stopped → s.starting = .uncalled →
      after.starting = (if s.stopped then .returned else .dispatched) → Moves s after .start
  | firstAccept : after.stopped = s.stopped → s.starting = .dispatched → after.starting = .begun →
      after.accepts = (if s.stopped then s.accepts else s.accepts ++ [⟨.waiting, .pending⟩]) → Moves s after .firstAccept
  | completes (i : Nat) (error : Bool) (accept : Accept) : s.accepts[i]? = some accept → accept.op = .waiting →
      after.accepts = s.accepts.set i { accept with op := .completed error } → after.stopped = s.stopped →
      after.starting = s.starting → Moves s after (.completes i error)
  | expires (i : Nat) (accept : Accept) : s.accepts[i]? = some accept → accept.timer = .pending →
      after.accepts = s.accepts.set i { accept with timer := .expired } → after.stopped = s.stopped →
      after.starting = s.starting → Moves s after (.expires i)
  | acceptHandler (i : Nat) (accept : Accept) (error : Bool) (remote : Option E) (answer : Bool) : s.accepts[i]? = some accept →
      accept.op = .completed error → after.stopped = s.stopped → after.starting = s.starting →
      after.accepts = (if s.stopped then s.accepts.set i ⟨.handled, accept.timer.cancel⟩
        else s.accepts.set i ⟨.handled, accept.timer.cancel⟩ ++ [⟨.waiting, .pending⟩]) →
      Moves s after (.acceptHandler i remote answer)
  | expired (i : Nat) (accept : Accept) : s.accepts[i]? = some accept → accept.timer = .expired →
      after.accepts = (s.accepts.set i { accept with timer := .handled }).map Accept.cancel → after.stopped = s.stopped →
      after.starting = s.starting → Moves s after (.timerHandler i)
  | aborted (i : Nat) (accept : Accept) : s.accepts[i]? = some accept → accept.timer = .aborted →
      after.accepts = s.accepts.set i { accept with timer := .handled } → after.stopped = s.stopped →
      after.starting = s.starting → Moves s after (.timerHandler i)
  | aside (action : Action E) : after.accepts = s.accepts → after.stopped = s.stopped → after.starting = s.starting →
      ¬ RunsHandler s action → Moves s after action
  | stop : after.accepts = s.accepts.map Accept.cancel → after.stopped = true → after.starting = s.starting → Moves s after .stop

theorem step_moves (s after : State E) (action : Action E) (taken : step s action = some after) : Moves s after action := by
  cases action with
  | start =>
      rw [step] at taken
      split at taken
      · rename_i uncalled
        obtain rfl := Option.some.inj taken
        exact .start rfl rfl uncalled rfl
      · cases taken
  | firstAccept =>
      rw [step] at taken
      split at taken
      · rename_i dispatched
        obtain rfl := Option.some.inj taken
        rw [State.doAccept]
        by_cases stopped : s.stopped = true
        · rw [if_pos stopped]
          exact .firstAccept rfl dispatched rfl (if_pos stopped).symm
        · rw [if_neg stopped]
          exact .firstAccept rfl dispatched rfl (if_neg stopped).symm
      · cases taken
  | completes i error =>
      obtain ⟨accept, found, matched⟩ := Option.bind_eq_some_iff.mp taken
      split at matched
      · rename_i waiting
        obtain rfl := Option.some.inj matched
        exact .completes i error accept found waiting rfl rfl rfl
      · cases matched
  | expires i =>
      obtain ⟨accept, found, matched⟩ := Option.bind_eq_some_iff.mp taken
      split at matched
      · rename_i pending
        obtain rfl := Option.some.inj matched
        exact .expires i accept found pending rfl rfl rfl
      · cases matched
  | acceptHandler i remote answer =>
      obtain ⟨accept, found, matched⟩ := Option.bind_eq_some_iff.mp taken
      split at matched
      · rename_i error completed
        obtain rfl := Option.some.inj matched
        obtain ⟨flag, started, accepts⟩ :=
          accept_handler_accepts { s with accepts := s.accepts.set i ⟨.handled, accept.timer.cancel⟩ } i error remote answer
        exact .acceptHandler i accept error remote answer found completed flag started accepts
      · cases matched
  | timerHandler i =>
      obtain ⟨accept, found, matched⟩ := Option.bind_eq_some_iff.mp taken
      split at matched
      · rename_i expired
        obtain rfl := Option.some.inj matched
        exact .expired i accept found expired rfl rfl rfl
      · rename_i aborted
        obtain rfl := Option.some.inj matched
        exact .aborted i accept found aborted rfl rfl rfl
      · cases matched
  | enableDraining enable now =>
      obtain rfl := Option.some.inj taken
      rw [State.enableDraining]
      split
      · exact .aside _ rfl rfl rfl id
      · exact .aside _ rfl rfl rfl id
  | setDrainCallback set =>
      obtain rfl := Option.some.inj taken
      exact .aside _ rfl rfl rfl id
  | stop =>
      obtain rfl := Option.some.inj taken
      exact .stop rfl rfl rfl

theorem step_watched (s after : State E) (action : Action E) (watched : ∀ accept ∈ s.accepts, accept.Watched s.stopped)
    (taken : step s action = some after) : ∀ accept ∈ after.accepts, accept.Watched after.stopped := by
  have issues : ∀ kept : List Accept, (∀ accept ∈ kept, accept.Watched s.stopped) →
      ∀ accept ∈ (if s.stopped then kept else kept ++ [⟨.waiting, .pending⟩]), accept.Watched s.stopped := by
    intro kept held
    by_cases stopped : s.stopped = true
    · rw [if_pos stopped]
      exact held
    · rw [if_neg stopped]
      rw [eq_false_of_ne_true stopped] at held ⊢
      exact watched_append kept held
  cases step_moves s after action taken with
  | start same flag _ _ =>
      rw [same, flag]
      exact watched
  | firstAccept flag _ _ accepts =>
      rw [accepts, flag]
      exact issues s.accepts watched
  | completes i error accept found waiting accepts flag _ =>
      rw [accepts, flag]
      exact watched_set s.stopped s.accepts i _ watched ⟨fun still => (by cases still), fun handled => (by cases handled)⟩
  | expires i accept found pending accepts flag _ =>
      have old := watched accept (List.mem_of_getElem? found)
      rw [accepts, flag]
      refine watched_set s.stopped s.accepts i _ watched ⟨fun waiting => ⟨(old.timed waiting).1, .inr rfl⟩, fun _ still => ?_⟩
      cases still
  | acceptHandler i accept error remote answer found completed flag _ accepts =>
      rw [accepts, flag]
      refine issues _ (watched_set s.stopped s.accepts i _ watched ⟨fun waiting => (by cases waiting), fun _ => ?_⟩)
      cases accept.timer <;> simp [Timer.cancel]
  | expired i accept found expired accepts flag _ =>
      rw [accepts]
      apply watched_cancel after.stopped
      exact forall_mem_set (fun accept => accept.op = .handled → accept.timer ≠ .pending) s.accepts i
        { accept with timer := .handled } (fun other member => (watched other member).cancelled) (fun _ still => (by cases still))
  | aborted i accept found aborted accepts flag _ =>
      have old := watched accept (List.mem_of_getElem? found)
      rw [accepts, flag]
      refine watched_set s.stopped s.accepts i _ watched ⟨fun waiting => ?_, fun _ still => (by cases still)⟩
      rcases (old.timed waiting).2 with pending | expired
      · exact absurd (pending.symm.trans aborted) (by decide)
      · exact absurd (expired.symm.trans aborted) (by decide)
  | aside _ same flag _ _ =>
      rw [same, flag]
      exact watched
  | stop accepts flag _ =>
      rw [accepts]
      exact watched_cancel after.stopped s.accepts fun accept member => (watched accept member).cancelled

theorem holders_set (accepts : List Accept) (i : Nat) (old new : Accept) (found : accepts[i]? = some old)
    (same : new.holders = old.holders) : total Accept.holders (accepts.set i new) = total Accept.holders accepts := by
  have moved := total_set Accept.holders accepts i old new found
  omega

theorem holders_lowered (accepts : List Accept) (i : Nat) (old new : Accept) (found : accepts[i]? = some old)
    (one : new.holders + 1 = old.holders) : total Accept.holders (accepts.set i new) + 1 = total Accept.holders accepts := by
  have moved := total_set Accept.holders accepts i old new found
  omega

theorem timer_handled_holders (accept : Accept) (open' : accept.timer ≠ .handled) :
    Accept.holders { accept with timer := .handled } + 1 = accept.holders := by
  simp [Accept.holders, Accept.outstanding, open']

theorem stopped_settles (s after : State E) (action : Action E) (stopped : s.stopped = true)
    (taken : step s action = some after) : Settling s after action := by
  cases step_moves s after action taken with
  | start same flag uncalled starting =>
      rw [if_pos stopped] at starting
      have held : after.holders = s.holders := by simp [State.holders, same, uncalled, starting]
      exact ⟨flag.trans stopped, congrArg List.length same, Nat.le_of_eq held, False.elim⟩
  | firstAccept flag dispatched begun accepts =>
      rw [if_pos stopped] at accepts
      have held : after.holders + 1 = s.holders := by simp [State.holders, accepts, dispatched, begun]
      exact ⟨flag.trans stopped, congrArg List.length accepts, by omega, fun _ => by omega⟩
  | completes i error accept found waiting accepts flag starting =>
      have held := holders_set s.accepts i accept { accept with op := .completed error } found (by
        simp [Accept.holders, Accept.outstanding, waiting])
      have same : after.holders = s.holders := by rw [State.holders, State.holders, accepts, starting, held]
      exact ⟨flag.trans stopped, by rw [accepts, List.length_set], Nat.le_of_eq same, False.elim⟩
  | expires i accept found pending accepts flag starting =>
      have held := holders_set s.accepts i accept { accept with timer := .expired } found (by
        simp [Accept.holders, Accept.outstanding, pending])
      have same : after.holders = s.holders := by rw [State.holders, State.holders, accepts, starting, held]
      exact ⟨flag.trans stopped, by rw [accepts, List.length_set], Nat.le_of_eq same, False.elim⟩
  | acceptHandler i accept error remote answer found completed flag starting accepts =>
      rw [if_pos stopped] at accepts
      have held := holders_lowered s.accepts i accept _ found (timer_cancel_holders accept error completed)
      have lowered : after.holders + 1 = s.holders := by rw [State.holders, State.holders, accepts, starting]; omega
      exact ⟨flag.trans stopped, by rw [accepts, List.length_set], by omega, fun _ => by omega⟩
  | expired i accept found expired accepts flag starting =>
      have held := holders_lowered s.accepts i accept _ found (timer_handled_holders accept (by rw [expired]; decide))
      have lowered : after.holders + 1 = s.holders := by
        rw [State.holders, State.holders, accepts, starting, total_map Accept.holders Accept.cancel cancel_holders]
        omega
      exact ⟨flag.trans stopped, by rw [accepts, List.length_map, List.length_set], by omega, fun _ => by omega⟩
  | aborted i accept found aborted accepts flag starting =>
      have held := holders_lowered s.accepts i accept _ found (timer_handled_holders accept (by rw [aborted]; decide))
      have lowered : after.holders + 1 = s.holders := by rw [State.holders, State.holders, accepts, starting]; omega
      exact ⟨flag.trans stopped, by rw [accepts, List.length_set], by omega, fun _ => by omega⟩
  | aside _ same flag starting other =>
      have held : after.holders = s.holders := by rw [State.holders, State.holders, same, starting]
      exact ⟨flag.trans stopped, congrArg List.length same, Nat.le_of_eq held, fun runs => absurd runs other⟩
  | stop accepts flag starting =>
      have held : after.holders = s.holders := by
        rw [State.holders, State.holders, accepts, starting, total_map Accept.holders Accept.cancel cancel_holders]
      exact ⟨flag, by rw [accepts, List.length_map], Nat.le_of_eq held, False.elim⟩

-- A handler that is still to come can run, in a loop that has been stopped.
theorem stopped_advances (s : State E) (stopped : s.stopped = true) (watched : ∀ accept ∈ s.accepts, accept.Watched s.stopped)
    (held : s.holders ≠ 0) : ∃ action after, RunsHandler s action ∧ step s action = some after := by
  by_cases dispatched : s.starting = .dispatched
  · exact ⟨.firstAccept, _, trivial, by rw [step, dispatched]⟩
  · rw [State.holders, if_neg dispatched, Nat.add_zero] at held
    obtain ⟨accept, member, heavy⟩ := total_ne_zero Accept.holders s.accepts held
    obtain ⟨i, found⟩ := List.mem_iff_getElem?.mp member
    cases op : accept.op with
    | waiting =>
        have running := ((watched accept member).timed op).1
        exact absurd (running.symm.trans stopped) (by decide)
    | completed error => exact ⟨.acceptHandler i Option.none false, _, trivial, by rw [step, found, Option.bind_some, op]⟩
    | handled =>
        have left := (watched accept member).cancelled op
        cases timer : accept.timer with
        | pending => exact absurd timer left
        | expired => exact ⟨.timerHandler i, _, trivial, by simp only [step, found, Option.bind_some, timer]; rfl⟩
        | aborted => exact ⟨.timerHandler i, _, trivial, by simp only [step, found, Option.bind_some, timer]; rfl⟩
        | handled => simp [Accept.holders, Accept.outstanding, op, timer] at heavy

theorem stopped_releases (s : State E) (stopped : s.stopped = true) (watched : ∀ accept ∈ s.accepts, accept.Watched s.stopped) :
    ∃ final, Machine.Reachable step RunsHandler s final ∧ final.holders = 0 := by
  apply Machine.reachable_goal (· < ·) Nat.lt_wfRel.wf step RunsHandler
    (fun s => s.stopped = true ∧ ∀ accept ∈ s.accepts, accept.Watched s.stopped) (fun s => s.holders = 0) State.holders _ s
    ⟨stopped, watched⟩
  intro before kept held
  obtain ⟨action, after, runs, taken⟩ := stopped_advances before kept.1 kept.2 held
  have settles := stopped_settles before after action kept.1 taken
  exact ⟨action, after, runs, taken, ⟨settles.stopped, step_watched before after action kept.2 taken⟩, settles.lowered runs⟩

theorem accept_completed (s : State E) (i : Nat) (accept : Accept) (error : Bool) (running : s.stopped = false)
    (found : s.accepts[i]? = some accept) (completed : accept.op = .completed error) :
    ∃ later, Machine.Reachable step Unassisted s later ∧ later.accepts.length = s.accepts.length + 1 := by
  obtain ⟨_, _, accepts⟩ := accept_handler_accepts
    { s with accepts := s.accepts.set i ⟨.handled, accept.timer.cancel⟩ } i error none false
  rw [if_neg (by rw [running]; decide)] at accepts
  refine ⟨_, .step s _ (.acceptHandler i none false) .start trivial (by rw [step, found, Option.bind_some, completed]), ?_⟩
  rw [accepts, List.length_append, List.length_set]
  rfl

theorem accept_expired (s : State E) (i : Nat) (accept : Accept) (running : s.stopped = false)
    (found : s.accepts[i]? = some accept) (waiting : accept.op = .waiting) (expired : accept.timer = .expired) :
    ∃ later, Machine.Reachable step Unassisted s later ∧ later.accepts.length = s.accepts.length + 1 := by
  obtain ⟨bound, _⟩ := List.getElem?_eq_some_iff.mp found
  let failed : State E := { s with accepts := s.accepts.set i { accept with timer := .handled } }
  have fails : step s (.timerHandler i) = some failed.cancelAcceptor := by
    simp only [step, found, Option.bind_some, expired]
    rfl
  have now : failed.cancelAcceptor.accepts[i]? = some ⟨.completed true, .handled⟩ := by
    simp [failed, State.cancelAcceptor, bound, Accept.cancel, waiting]
  obtain ⟨later, reachable, more⟩ := accept_completed failed.cancelAcceptor i _ true running now rfl
  refine ⟨later, Machine.reachable_trans step Unassisted s _ later (.step s _ (.timerHandler i) .start trivial fails) reachable, ?_⟩
  rw [more, State.cancelAcceptor, List.length_map, List.length_set]

theorem running_renews (s : State E) (running : s.stopped = false) (watched : ∀ accept ∈ s.accepts, accept.Watched s.stopped)
    (one : s.busy.sum = 1) :
    ∃ later, Machine.Reachable step Unassisted s later ∧ later.accepts.length = s.accepts.length + 1 := by
  have busy : total Accept.outstanding s.accepts ≠ 0 := by
    change s.busy.sum ≠ 0
    omega
  obtain ⟨accept, member, heavy⟩ := total_ne_zero Accept.outstanding s.accepts busy
  obtain ⟨i, found⟩ := List.mem_iff_getElem?.mp member
  obtain ⟨bound, _⟩ := List.getElem?_eq_some_iff.mp found
  cases op : accept.op with
  | waiting =>
      rcases ((watched accept member).timed op).2 with pending | expired
      · let late : State E := { s with accepts := s.accepts.set i { accept with timer := .expired } }
        have expires : step s (.expires i) = some late := by simp only [step, found, Option.bind_some, pending]; rfl
        have now : late.accepts[i]? = some { accept with timer := .expired } := List.getElem?_set_self bound
        obtain ⟨later, reachable, more⟩ := accept_expired late i _ running now op rfl
        refine ⟨later, Machine.reachable_trans step Unassisted s late later (.step s late (.expires i) .start trivial expires)
          reachable, ?_⟩
        rw [more, List.length_set]
      · exact accept_expired s i accept running found op expired
  | completed error => exact accept_completed s i accept error running found op
  | handled => simp [Accept.outstanding, op] at heavy

theorem reachable_watched (hasFilter : Bool) (s : State E)
    (reachable : Machine.Reachable step (fun _ _ => True) (construct hasFilter) s) :
    ∀ accept ∈ s.accepts, accept.Watched s.stopped := by
  apply Machine.reachable_invariant step (fun _ _ => True) (construct hasFilter)
    (fun s => ∀ accept ∈ s.accepts, accept.Watched s.stopped) _ _ s reachable
  · intro accept member
    cases member
  · intro before action after _ watched _ taken
    exact step_watched before after action watched taken

theorem loop_winds_down (hasFilter : Bool) (s : State E)
    (reachable : Machine.Reachable step (fun _ _ => True) (construct hasFilter) s) : WindsDown s := by
  have watched := reachable_watched hasFilter s reachable
  have kept := reachable_kept hasFilter s reachable
  exact {
    watched := watched
    renews := fun begun running => running_renews s running watched (kept.single begun running)
    settles := fun stopped action after taken => stopped_settles s after action stopped taken
    releases := fun stopped => stopped_releases s stopped watched }

-- Stop comes between an accept whose timer has expired and the handlers of both.
theorem stopped_late_winds_down :
    ∃ s : State Nat, Machine.Reachable step (fun _ _ => True) (construct true) s ∧ s.stopped = true ∧ s.holders = 3 ∧ WindsDown s := by
  obtain ⟨s, reachable, shown⟩ := Machine.run_exhibits step (fun _ _ => True) (construct true)
    ([.start, .firstAccept, .completes 0 false, .expires 0, .acceptHandler 0 (some 5) true, .stop] : List (Action Nat))
    (fun s => decide (s.stopped = true ∧ s.holders = 3)) (by decide)
  obtain ⟨stopped, held⟩ := of_decide_eq_true shown
  exact ⟨s, reachable, stopped, held, loop_winds_down true s reachable⟩

end Vectro.Acceptor
