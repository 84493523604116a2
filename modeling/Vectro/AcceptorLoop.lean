import Mathlib.Data.List.Nodup
import Mathlib.Data.List.Pairwise
import Vectro.Machine
import Vectro.Tally
import Vectro.Traces

set_option autoImplicit false

namespace Vectro.Acceptor

variable {E : Type}

-- An accept that has completed waits for its handler, with its error or without.
inductive Operation where
  | waiting
  | completed (error : Bool)
  | handled
deriving DecidableEq, Repr

-- A timer that has expired or was cancelled waits for its handler too. One that
-- has expired already cannot be cancelled any more.
inductive Timer where
  | pending
  | expired
  | aborted
  | handled
deriving DecidableEq, Repr

def Timer.cancel : Timer → Timer
  | .pending => .aborted
  | timer => timer

-- One async_accept with the timer DoAccept makes for it.
structure Accept where
  op : Operation
  timer : Timer
deriving DecidableEq, Repr

-- Start looks at stopped_ before it dispatches the first DoAccept.
inductive Starting where
  | uncalled
  | returned
  | dispatched
  | begun
deriving DecidableEq, Repr

-- handled is a run of an accept's handler, with the error it was given and what
-- it found: the remote endpoint if there was one, the filter's answer and the
-- two flags.
inductive Event (E : Type) where
  | issued (accept : Nat)
  | handled (accept : Nat) (error : Bool) (remote : Option E) (passed draining stopped : Bool)
  | sessionCreated (accept : Nat) (remote : E)
  | socketClosed (accept : Nat)
  | drainCallback (isDraining : Bool) (when : Int)
  | stopped
deriving DecidableEq, Repr

structure State (E : Type) where
  starting : Starting
  accepts : List Accept
  stopped : Bool
  draining : Bool
  hasFilter : Bool
  hasDrainCallback : Bool
  acceptorOpen : Bool
  trace : List (Event E)
deriving DecidableEq, Repr

def construct (hasFilter : Bool) : State E where
  starting := .uncalled
  accepts := []
  stopped := false
  draining := false
  hasFilter := hasFilter
  hasDrainCallback := false
  acceptorOpen := true
  trace := []

def State.log (s : State E) (event : Event E) : State E := { s with trace := s.trace ++ [event] }

-- cancel of the acceptor fails every accept that has not completed, whichever
-- timer it was for.
def Accept.cancel (accept : Accept) : Accept :=
  match accept.op with
  | .waiting => { accept with op := .completed true }
  | _ => accept

def State.cancelAcceptor (s : State E) : State E := { s with accepts := s.accepts.map Accept.cancel }

def State.doAccept (s : State E) : State E :=
  if s.stopped then s
  else
    let accept : Accept := { op := .waiting, timer := .pending }
    { s with accepts := s.accepts ++ [accept] }.log (.issued s.accepts.length)

-- passed is what !filter_ || filter_(remote) gives.
def State.admitRemote (s : State E) (accept : Nat) (error : Bool) (remote : Option E) (passed : Bool) : State E :=
  match error, remote with
  | false, some remote =>
      if passed then
        if s.draining then s.log (.socketClosed accept) else s.log (.sessionCreated accept remote)
      else s.log (.socketClosed accept)
  | false, none => s.log (.socketClosed accept)
  | true, _ => s

def State.acceptHandler (s : State E) (accept : Nat) (error : Bool) (remote : Option E) (answer : Bool) : State E :=
  let passed := !s.hasFilter || answer
  let logged := s.log (.handled accept error remote passed s.draining s.stopped)
  if s.stopped then logged else (logged.admitRemote accept error remote passed).doAccept

def State.stop (s : State E) : State E :=
  { s.cancelAcceptor with stopped := true, acceptorOpen := false }.log .stopped

def State.enableDraining (s : State E) (enable : Bool) (now : Int) : State E :=
  let set := { s with draining := enable }
  if s.hasDrainCallback then set.log (.drainCallback enable now) else set

-- The handlers of the strand run one after the other. In between, accepts
-- complete and timers expire.
inductive Action (E : Type) where
  | start
  | firstAccept
  | completes (accept : Nat) (error : Bool)
  | expires (accept : Nat)
  | acceptHandler (accept : Nat) (remote : Option E) (answer : Bool)
  | timerHandler (accept : Nat)
  | enableDraining (enable : Bool) (now : Int)
  | setDrainCallback (set : Bool)
  | stop
deriving DecidableEq, Repr

def step (s : State E) : Action E → Option (State E)
  | .start =>
      match s.starting with
      | .uncalled => some { s with starting := if s.stopped then .returned else .dispatched }
      | _ => none
  | .firstAccept =>
      match s.starting with
      | .dispatched => some { s with starting := .begun }.doAccept
      | _ => none
  | .completes i error =>
      (s.accepts[i]?).bind fun accept =>
        match accept.op with
        | .waiting => some { s with accepts := s.accepts.set i { accept with op := .completed error } }
        | _ => none
  | .expires i =>
      (s.accepts[i]?).bind fun accept =>
        match accept.timer with
        | .pending => some { s with accepts := s.accepts.set i { accept with timer := .expired } }
        | _ => none
  | .acceptHandler i remote answer =>
      (s.accepts[i]?).bind fun accept =>
        match accept.op with
        | .completed error =>
            some ({ s with accepts := s.accepts.set i ⟨.handled, accept.timer.cancel⟩ }.acceptHandler i error remote answer)
        | _ => none
  | .timerHandler i =>
      (s.accepts[i]?).bind fun accept =>
        let handled := { s with accepts := s.accepts.set i { accept with timer := .handled } }
        match accept.timer with
        | .expired => some handled.cancelAcceptor
        | .aborted => some handled
        | _ => none
  | .enableDraining enable now => some (s.enableDraining enable now)
  | .setDrainCallback set => some { s with hasDrainCallback := set }
  | .stop => some s.stop

def Accept.outstanding (accept : Accept) : Nat :=
  match accept.op with
  | .handled => 0
  | _ => 1

def State.outstanding (s : State E) : Nat := Tally.total Accept.outstanding s.accepts

-- What may not happen any more once Stop's handler has run.
def Event.launches : Event E → Bool
  | .issued _ | .sessionCreated _ _ => true
  | _ => false

def sessionsCreated (log : List (Event E)) : List Nat :=
  log.filterMap fun
    | .sessionCreated accept _ => some accept
    | _ => none

structure Orderly (s : State E) : Prop where
  single : s.starting = .begun → s.stopped = false → s.outstanding = 1
  silent : s.trace.Pairwise fun earlier later => earlier = .stopped → later.launches = false
  halted : s.stopped = true ↔ .stopped ∈ s.trace
  once : (sessionsCreated s.trace).Nodup
  exactly : ∀ accept remote, .sessionCreated accept remote ∈ s.trace ↔
    .handled accept false (some remote) true false false ∈ s.trace

def State.busy (s : State E) : List Nat := s.accepts.map Accept.outstanding

theorem accept_cancel_outstanding (accept : Accept) : accept.cancel.outstanding = accept.outstanding := by
  unfold Accept.cancel
  split
  · rename_i waiting
    simp [Accept.outstanding, waiting]
  · rfl

theorem cancel_acceptor_busy (s : State E) : s.cancelAcceptor.busy = s.busy := by
  rw [State.busy, State.busy, State.cancelAcceptor, List.map_map]
  exact List.map_congr_left fun accept _ => accept_cancel_outstanding accept

theorem set_busy (s : State E) (i : Nat) (old new : Accept) (found : s.accepts[i]? = some old)
    (same : new.outstanding = old.outstanding) : (s.accepts.set i new).map Accept.outstanding = s.busy := by
  apply List.ext_getElem?
  intro j
  rw [State.busy, List.getElem?_map, List.getElem?_map, List.getElem?_set]
  by_cases here : i = j
  · obtain ⟨bound, _⟩ := List.getElem?_eq_some_iff.mp found
    rw [if_pos here, if_pos bound, ← here, found, Option.map_some, Option.map_some, same]
  · rw [if_neg here]

-- The log of a run, beside the flag and the accepts that are still outstanding:
-- whatever was handled is not among them any more.
structure Recorded (stopped : Bool) (busy : List Nat) (trace : List (Event E)) : Prop where
  silent : trace.Pairwise fun earlier later => earlier = .stopped → later.launches = false
  halted : stopped = true ↔ .stopped ∈ trace
  once : (sessionsCreated trace).Nodup
  exactly : ∀ accept remote, .sessionCreated accept remote ∈ trace ↔
    .handled accept false (some remote) true false false ∈ trace
  ran : ∀ accept error remote passed draining found, .handled accept error remote passed draining found ∈ trace →
    busy[accept]? = some 0

theorem silent_log (stopped : Bool) (trace : List (Event E)) (event : Event E)
    (silent : trace.Pairwise fun earlier later => earlier = .stopped → later.launches = false)
    (halted : stopped = true ↔ .stopped ∈ trace) (allowed : event.launches = true → stopped = false) :
    (trace ++ [event]).Pairwise fun earlier later => earlier = .stopped → later.launches = false := by
  rw [List.pairwise_append]
  refine ⟨silent, List.pairwise_singleton _ _, ?_⟩
  intro earlier before later last isStop
  rw [List.mem_singleton.mp last]
  by_contra launches
  have running := allowed (eq_true_of_ne_false launches)
  rw [halted.mpr (isStop ▸ before)] at running
  cases running

-- Events nobody counts.
def Event.plain : Event E → Bool
  | .handled .. | .sessionCreated .. | .stopped => false
  | _ => true

theorem recorded_plain (stopped : Bool) (busy : List Nat) (trace : List (Event E)) (event : Event E)
    (recorded : Recorded stopped busy trace) (plain : event.plain = true) (allowed : event.launches = true → stopped = false) :
    Recorded stopped busy (trace ++ [event]) := by
  have other : ∀ counted : Event E, counted.plain = false → (counted ∈ trace ++ [event] ↔ counted ∈ trace) := by
    intro counted counts
    have apart : counted ≠ event := by
      intro same
      rw [same, plain] at counts
      cases counts
    simp [apart]
  refine ⟨silent_log stopped trace event recorded.silent recorded.halted allowed, ?_, ?_, ?_, ?_⟩
  · rw [other .stopped rfl]
    exact recorded.halted
  · have quiet : sessionsCreated (trace ++ [event]) = sessionsCreated trace :=
      Traces.filter_map_quiet _ _ _ (by cases event <;> first | rfl | cases plain)
    rw [quiet]
    exact recorded.once
  · intro accept remote
    rw [other _ rfl, other _ rfl]
    exact recorded.exactly accept remote
  · intro accept error remote passed draining found member
    rw [other _ rfl] at member
    exact recorded.ran accept error remote passed draining found member

theorem recorded_stop (stopped : Bool) (busy : List Nat) (trace : List (Event E)) (recorded : Recorded stopped busy trace) :
    Recorded true busy (trace ++ [.stopped]) := by
  refine ⟨silent_log stopped trace .stopped recorded.silent recorded.halted nofun, ?_, ?_, ?_, ?_⟩
  · simp
  · have quiet : sessionsCreated (trace ++ [Event.stopped]) = sessionsCreated trace := Traces.filter_map_quiet _ _ _ rfl
    rw [quiet]
    exact recorded.once
  · intro accept remote
    simpa using recorded.exactly accept remote
  · intro accept error remote passed draining found member
    exact recorded.ran accept error remote passed draining found (by simpa using member)

theorem recorded_more (stopped : Bool) (busy more : List Nat) (trace : List (Event E)) (recorded : Recorded stopped busy trace) :
    Recorded stopped (busy ++ more) trace := by
  refine ⟨recorded.silent, recorded.halted, recorded.once, recorded.exactly, ?_⟩
  intro accept error remote passed draining found member
  have zero := recorded.ran accept error remote passed draining found member
  obtain ⟨bound, _⟩ := List.getElem?_eq_some_iff.mp zero
  rw [List.getElem?_append_left bound]
  exact zero

theorem ran_set (busy : List Nat) (trace : List (Event E)) (i : Nat) (event : Event E) (more : List (Event E))
    (ran : ∀ accept error remote passed draining found, .handled accept error remote passed draining found ∈ trace →
      busy[accept]? = some 0)
    (outstanding : busy[i]? = some 1)
    (only : ∀ accept error remote passed draining found, .handled accept error remote passed draining found ∈ event :: more → accept = i)
    (accept : Nat) (error : Bool) (remote : Option E) (passed draining found : Bool)
    (member : .handled accept error remote passed draining found ∈ trace ++ event :: more) : (busy.set i 0)[accept]? = some 0 := by
  obtain ⟨bound, _⟩ := List.getElem?_eq_some_iff.mp outstanding
  rcases List.mem_append.mp member with before | now
  · have zero := ran accept error remote passed draining found before
    have apart : i ≠ accept := by
      intro same
      rw [← same, outstanding] at zero
      cases zero
    rw [List.getElem?_set_ne apart]
    exact zero
  · rw [only accept error remote passed draining found now]
    exact List.getElem?_set_self bound

theorem recorded_handled (stopped : Bool) (busy : List Nat) (trace : List (Event E)) (i : Nat) (error : Bool) (remote : Option E)
    (passed draining : Bool) (recorded : Recorded stopped busy trace) (outstanding : busy[i]? = some 1)
    (refused : ∀ endpoint, ¬ (error = false ∧ remote = some endpoint ∧ passed = true ∧ draining = false ∧ stopped = false)) :
    Recorded stopped (busy.set i 0) (trace ++ [.handled i error remote passed draining stopped]) := by
  refine ⟨silent_log stopped trace _ recorded.silent recorded.halted nofun, ?_, ?_, ?_, ?_⟩
  · simpa using recorded.halted
  · have quiet : sessionsCreated (trace ++ [Event.handled i error remote passed draining stopped]) = sessionsCreated trace :=
      Traces.filter_map_quiet _ _ _ rfl
    rw [quiet]
    exact recorded.once
  · intro accept endpoint
    have apart : Event.handled accept false (some endpoint) true false false ≠ .handled i error remote passed draining stopped := by
      intro same
      injection same with _ clean known filter undrained running
      exact refused endpoint ⟨clean.symm, known.symm, filter.symm, undrained.symm, running.symm⟩
    simpa [apart] using recorded.exactly accept endpoint
  · exact ran_set busy trace i _ [] recorded.ran outstanding (by simp +contextual)

theorem recorded_created (busy : List Nat) (trace : List (Event E)) (i : Nat) (remote : E)
    (recorded : Recorded false busy trace) (outstanding : busy[i]? = some 1) :
    Recorded false (busy.set i 0) (trace ++ [.handled i false (some remote) true false false, .sessionCreated i remote]) := by
  have first : i ∉ sessionsCreated trace := by
    intro before
    obtain ⟨event, member, reads⟩ := List.mem_filterMap.mp before
    split at reads
    · rename_i accept endpoint
      rw [Option.some.inj reads] at member
      have zero := recorded.ran i _ _ _ _ _ ((recorded.exactly i endpoint).mp member)
      rw [outstanding] at zero
      cases zero
    · cases reads
  have running : Event.stopped ∉ trace := fun stopped => Bool.false_ne_true (recorded.halted.mpr stopped)
  refine ⟨?_, ?_, ?_, ?_, ?_⟩
  · have handled := silent_log false trace (.handled i false (some remote) true false false) recorded.silent recorded.halted nofun
    have still : false = true ↔ Event.stopped ∈ trace ++ [Event.handled i false (some remote) true false false] := by simpa using running
    have created := silent_log false _ (.sessionCreated i remote) handled still fun _ => rfl
    simpa using created
  · simpa using running
  · have logs : sessionsCreated (trace ++ [.handled i false (some remote) true false false, .sessionCreated i remote]) =
        sessionsCreated trace ++ [i] := by simp [sessionsCreated]
    rw [logs, List.nodup_append_comm]
    exact List.nodup_cons.mpr ⟨first, recorded.once⟩
  · intro accept endpoint
    simp only [List.mem_append, recorded.exactly accept endpoint]
    simp [eq_comm]
  · exact ran_set busy trace i _ [.sessionCreated i remote] recorded.ran outstanding (by simp +contextual)

structure Kept (s : State E) : Prop where
  recorded : Recorded s.stopped s.busy s.trace
  single : s.starting = .begun → s.stopped = false → s.busy.sum = 1
  idle : s.starting ≠ .begun → s.busy = []

-- Steps that issue no accept, handle none and log nothing.
theorem kept_aside (s after : State E) (kept : Kept s) (busy : after.busy = s.busy)
    (starting : after.starting = .begun ↔ s.starting = .begun) (stopped : after.stopped = s.stopped := by rfl)
    (trace : after.trace = s.trace := by rfl) : Kept after := by
  refine ⟨?_, ?_, ?_⟩
  · rw [stopped, busy, trace]
    exact kept.recorded
  · intro begun running
    rw [busy]
    exact kept.single (starting.mp begun) (stopped.symm.trans running)
  · intro idle
    rw [busy]
    exact kept.idle fun begun => idle (starting.mpr begun)

theorem kept_do_accept (s : State E) (recorded : Recorded s.stopped s.busy s.trace) (begun : s.starting = .begun)
    (vacant : s.stopped = false → s.busy.sum = 0) : Kept s.doAccept := by
  by_cases stopped : s.stopped = true
  · rw [State.doAccept, if_pos stopped]
    refine ⟨recorded, fun _ running => ?_, fun idle => absurd begun idle⟩
    exact absurd (running.symm.trans stopped) Bool.false_ne_true
  · have running : s.stopped = false := eq_false_of_ne_true stopped
    rw [State.doAccept, if_neg stopped]
    have busy : (s.accepts ++ [(⟨.waiting, .pending⟩ : Accept)]).map Accept.outstanding = s.busy ++ [1] := by
      simp [State.busy, Accept.outstanding]
    refine ⟨?_, ?_, fun idle => absurd begun idle⟩
    · have more := recorded_plain s.stopped (s.busy ++ [1]) s.trace (.issued s.accepts.length)
        (recorded_more s.stopped s.busy [1] s.trace recorded) rfl fun _ => running
      rw [← busy] at more
      exact more
    · intro _ _
      change ((s.accepts ++ [(⟨.waiting, .pending⟩ : Accept)]).map Accept.outstanding).sum = 1
      rw [busy, List.sum_append, vacant running]
      rfl

-- An accept that is not turned into a session: its socket is closed, if it has one.
theorem recorded_refused (s : State E) (busy : List Nat) (i : Nat) (error : Bool) (remote : Option E) (passed : Bool)
    (recorded : Recorded s.stopped busy s.trace) (outstanding : busy[i]? = some 1) (handled : s.busy = busy.set i 0)
    (refused : ∀ endpoint, ¬ (error = false ∧ remote = some endpoint ∧ passed = true ∧ s.draining = false ∧ s.stopped = false)) :
    Recorded s.stopped s.busy (s.trace ++ [.handled i error remote passed s.draining s.stopped]) ∧
    Recorded s.stopped s.busy (s.trace ++ [.handled i error remote passed s.draining s.stopped] ++ [.socketClosed i]) := by
  have logged := recorded_handled s.stopped busy s.trace i error remote passed s.draining recorded outstanding refused
  rw [← handled] at logged
  exact ⟨logged, recorded_plain s.stopped s.busy _ (.socketClosed i) logged rfl nofun⟩

theorem recorded_admit (s : State E) (busy : List Nat) (i : Nat) (error : Bool) (remote : Option E) (passed : Bool)
    (recorded : Recorded s.stopped busy s.trace) (outstanding : busy[i]? = some 1) (handled : s.busy = busy.set i 0)
    (running : s.stopped = false) (after : State E)
    (admitted : (s.log (.handled i error remote passed s.draining s.stopped)).admitRemote i error remote passed = after) :
    Recorded after.stopped after.busy after.trace ∧ after.starting = s.starting ∧ after.stopped = s.stopped ∧ after.busy = s.busy := by
  have refusal := recorded_refused s busy i error remote passed recorded outstanding handled
  unfold State.admitRemote at admitted
  split at admitted
  · rename_i endpoint
    by_cases passes : passed = true
    · rw [if_pos passes] at admitted
      by_cases drains : s.draining = true
      · obtain rfl := (if_pos drains).symm.trans admitted
        exact ⟨(refusal fun _ good => Bool.false_ne_true (good.2.2.2.1.symm.trans drains)).2, rfl, rfl, rfl⟩
      · obtain rfl := (if_neg drains).symm.trans admitted
        refine ⟨?_, rfl, rfl, rfl⟩
        change Recorded s.stopped s.busy (s.trace ++ [_] ++ [_])
        rw [running] at recorded ⊢
        rw [handled, passes, eq_false_of_ne_true drains, List.append_assoc]
        exact recorded_created busy s.trace i endpoint recorded outstanding
    · rw [if_neg passes] at admitted
      subst admitted
      exact ⟨(refusal fun _ good => passes good.2.2.1).2, rfl, rfl, rfl⟩
  · subst admitted
    exact ⟨(refusal fun _ good => nomatch good.2.1).2, rfl, rfl, rfl⟩
  · subst admitted
    exact ⟨(refusal fun _ good => nomatch good.1).1, rfl, rfl, rfl⟩

theorem kept_accept_handler (s : State E) (i : Nat) (accept : Accept) (error : Bool) (remote : Option E) (answer : Bool)
    (kept : Kept s) (found : s.accepts[i]? = some accept) (completed : accept.op = .completed error) :
    Kept ({ s with accepts := s.accepts.set i ⟨.handled, accept.timer.cancel⟩ }.acceptHandler i error remote answer) := by
  have outstanding : s.busy[i]? = some 1 := by
    rw [State.busy, List.getElem?_map, found, Option.map_some, Accept.outstanding, completed]
  have begun : s.starting = .begun := by
    by_contra idle
    rw [kept.idle idle] at outstanding
    cases outstanding
  have busy : (s.accepts.set i ⟨.handled, accept.timer.cancel⟩).map Accept.outstanding = s.busy.set i 0 := by
    rw [List.map_set]
    rfl
  have vacant : s.stopped = false → (s.busy.set i 0).sum = 0 := by
    intro running
    have moved := Tally.total_set id s.busy i 1 0 outstanding
    have one := kept.single begun running
    simp only [Tally.total, List.map_id, id_eq] at moved
    omega
  rw [State.acceptHandler]
  by_cases stopped : s.stopped = true
  · rw [if_pos stopped]
    refine ⟨?_, fun _ running => absurd (running.symm.trans stopped) Bool.false_ne_true, fun idle => absurd begun idle⟩
    exact (recorded_refused { s with accepts := s.accepts.set i ⟨.handled, accept.timer.cancel⟩ } s.busy i error remote _
      kept.recorded outstanding busy fun _ good => Bool.false_ne_true (good.2.2.2.2.symm.trans stopped)).1
  · rw [if_neg stopped]
    have running : s.stopped = false := eq_false_of_ne_true stopped
    obtain ⟨recorded, still, unstopped, unchanged⟩ :=
      recorded_admit { s with accepts := s.accepts.set i ⟨.handled, accept.timer.cancel⟩ } s.busy i error remote _
        kept.recorded outstanding busy running _ rfl
    apply kept_do_accept _ recorded (still.trans begun)
    intro _
    rw [unchanged]
    exact (congrArg List.sum busy).trans (vacant running)

theorem kept_enable_draining (s : State E) (enable : Bool) (now : Int) (kept : Kept s) : Kept (s.enableDraining enable now) := by
  rw [State.enableDraining]
  by_cases calls : s.hasDrainCallback = true
  · rw [if_pos calls]
    refine ⟨?_, kept.single, kept.idle⟩
    exact recorded_plain s.stopped s.busy s.trace (.drainCallback enable now) kept.recorded rfl nofun
  · rw [if_neg calls]
    exact ⟨kept.recorded, kept.single, kept.idle⟩

theorem kept_stop (s : State E) (kept : Kept s) : Kept s.stop := by
  have busy : s.stop.busy = s.busy := cancel_acceptor_busy s
  refine ⟨?_, nofun, ?_⟩
  · rw [busy]
    exact recorded_stop s.stopped s.busy s.trace kept.recorded
  · rw [busy]
    exact kept.idle

theorem step_kept (s after : State E) (action : Action E) (kept : Kept s) (taken : step s action = some after) : Kept after := by
  cases action with
  | start =>
      rw [step] at taken
      split at taken
      · rename_i uncalled
        obtain rfl := Option.some.inj taken
        have early : (if s.stopped then Starting.returned else Starting.dispatched) = .begun ↔ s.starting = .begun := by
          rw [uncalled]
          split <;> simp
        exact kept_aside s _ kept rfl early
      · cases taken
  | firstAccept =>
      rw [step] at taken
      split at taken
      · rename_i dispatched
        obtain rfl := Option.some.inj taken
        have empty : s.busy = [] := kept.idle (by rw [dispatched]; exact nofun)
        apply kept_do_accept { s with starting := .begun } kept.recorded rfl
        intro _
        change s.busy.sum = 0
        rw [empty]
        rfl
      · cases taken
  | completes i error =>
      obtain ⟨accept, found, matched⟩ := Option.bind_eq_some_iff.mp taken
      split at matched
      · rename_i waiting
        obtain rfl := Option.some.inj matched
        have busy := set_busy s i accept { accept with op := .completed error } found (by simp [Accept.outstanding, waiting])
        exact kept_aside s _ kept busy .rfl
      · cases matched
  | expires i =>
      obtain ⟨accept, found, matched⟩ := Option.bind_eq_some_iff.mp taken
      split at matched
      · obtain rfl := Option.some.inj matched
        have busy := set_busy s i accept { accept with timer := .expired } found rfl
        exact kept_aside s _ kept busy .rfl
      · cases matched
  | acceptHandler i remote answer =>
      obtain ⟨accept, found, matched⟩ := Option.bind_eq_some_iff.mp taken
      split at matched
      · rename_i error completed
        obtain rfl := Option.some.inj matched
        exact kept_accept_handler s i accept error remote answer kept found completed
      · cases matched
  | timerHandler i =>
      obtain ⟨accept, found, matched⟩ := Option.bind_eq_some_iff.mp taken
      have busy := set_busy s i accept { accept with timer := .handled } found rfl
      split at matched
      · obtain rfl := Option.some.inj matched
        have cancelled := (cancel_acceptor_busy { s with accepts := s.accepts.set i { accept with timer := .handled } }).trans busy
        exact kept_aside s _ kept cancelled .rfl
      · obtain rfl := Option.some.inj matched
        exact kept_aside s _ kept busy .rfl
      · cases matched
  | enableDraining enable now =>
      obtain rfl := Option.some.inj taken
      exact kept_enable_draining s enable now kept
  | setDrainCallback set =>
      obtain rfl := Option.some.inj taken
      exact ⟨kept.recorded, kept.single, kept.idle⟩
  | stop =>
      obtain rfl := Option.some.inj taken
      exact kept_stop s kept

theorem reachable_kept (hasFilter : Bool) (s : State E)
    (reachable : Machine.Reachable step (fun _ _ => True) (construct hasFilter) s) : Kept s := by
  apply Machine.reachable_invariant step (fun _ _ => True) (construct hasFilter) Kept _ _ s reachable
  · refine ⟨⟨.nil, by simp [construct], .nil, by simp [construct], nofun⟩, nofun, fun _ => rfl⟩
  · intro before action after _ kept _ taken
    exact step_kept before after action kept taken

theorem accepts_orderly (hasFilter : Bool) (s : State E)
    (reachable : Machine.Reachable step (fun _ _ => True) (construct hasFilter) s) : Orderly s := by
  have kept := reachable_kept hasFilter s reachable
  exact ⟨kept.single, kept.recorded.silent, kept.recorded.halted, kept.recorded.once, kept.recorded.exactly⟩

-- The timer of the first accept expires just before its handler runs, and fails
-- the second; the third comes while the loop drains, and Stop cancels the fourth.
theorem accepts_orderly_stale_timer :
    ∃ s : State Nat, Machine.Reachable step (fun _ _ => True) (construct true) s ∧ sessionsCreated s.trace = [0] ∧
      s.accepts.length = 4 ∧ s.outstanding = 0 ∧ Orderly s := by
  obtain ⟨s, reachable, shown⟩ := Machine.run_exhibits step (fun _ _ => True) (construct true)
    ([.start, .firstAccept, .completes 0 false, .expires 0, .acceptHandler 0 (some 5) true, .timerHandler 0,
      .acceptHandler 1 none false, .enableDraining true 3, .completes 2 false, .acceptHandler 2 (some 6) true, .stop,
      .acceptHandler 3 none true] : List (Action Nat))
    (fun s => decide (sessionsCreated s.trace = [0] ∧ s.accepts.length = 4 ∧ s.outstanding = 0)) (by decide)
  obtain ⟨created, issued, none_left⟩ := of_decide_eq_true shown
  exact ⟨s, reachable, created, issued, none_left, accepts_orderly true s reachable⟩

end Vectro.Acceptor
