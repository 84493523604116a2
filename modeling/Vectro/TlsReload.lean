import Vectro.TlsProvider

set_option autoImplicit false

namespace Vectro.Tls

variable {F : Type}

-- A std::function<void()> of StartReloadTimer: empty, or holding the lambda
-- schedule with the copy of a std::function that the lambda captured.
inductive Callable where
  | empty
  | schedule (captured : Callable)
deriving DecidableEq, Repr

-- A variable whose initialiser captures it by copy: the copy is taken before the
-- variable holds the lambda, while it is empty.
def Callable.initialise (lambda : Callable → Callable) : Callable := lambda .empty

inductive Cause where
  | badFunctionCall
  | reload (what : String)
deriving DecidableEq, Repr

inductive HandlerStage where
  | reloading (call : Nat)
  | scheduling
  | returned
  | raised (cause : Cause)
deriving DecidableEq, Repr

def HandlerStage.over : HandlerStage → Bool
  | .returned | .raised _ => true
  | _ => false

-- A handler of async_wait that has begun to run, with the copy of schedule it
-- captured and the ReloadContext call it has made, if there was no error.
structure Handler where
  captured : Callable
  call : Option Nat
  stage : HandlerStage
deriving DecidableEq, Repr

-- The timer of one StartReloadTimer call. A wait is known by what its handler has
-- captured; a handler that is due has an error when its wait was cancelled. The
-- interval only decides when the timer expires.
structure ReloadTimer where
  waits : List Callable := []
  due : List (Callable × Bool) := []
  handlers : List Handler := []
  expirations : Nat := 0
deriving DecidableEq, Repr

def ReloadTimer.asyncWait (timer : ReloadTimer) (captured : Callable) : ReloadTimer :=
  { timer with waits := timer.waits ++ [captured] }

def ReloadTimer.expiresAfter (timer : ReloadTimer) : ReloadTimer :=
  { timer with waits := [], due := timer.due ++ timer.waits.map fun captured => (captured, false) }

def ReloadTimer.expire (timer : ReloadTimer) : Option ReloadTimer :=
  if timer.waits = [] then none
  else some { timer with
    waits := [], due := timer.due ++ timer.waits.map fun captured => (captured, true), expirations := timer.expirations + 1 }

-- Calling an empty std::function raises.
def Callable.call (timer : ReloadTimer) : Callable → Except Cause ReloadTimer
  | .empty => .error .badFunctionCall
  | .schedule captured => .ok (timer.asyncWait captured)

structure Timed (F : Type) where
  provider : State F
  timers : List ReloadTimer
deriving DecidableEq, Repr

def constructTimed (certPath keyPath : String) : Timed F := ⟨construct certPath keyPath, []⟩

def Timed.startReloadTimer (s : Timed F) : Option (Timed F) :=
  if s.provider.alive then
    match (Callable.initialise .schedule).call {} with
    | .ok timer => some { s with timers := s.timers ++ [timer] }
    | .error _ => some s
  else none

-- An io thread takes up the first handler that is due. ReloadContext begins
-- there when the wait has expired.
def Timed.runHandler (s : Timed F) (i : Nat) (timer : ReloadTimer) : Option (Timed F) :=
  match timer.due with
  | [] => none
  | (captured, true) :: rest =>
      (step s.provider .reloadContext).map fun provider =>
        ⟨provider, s.timers.set i { timer with
          due := rest
          handlers := timer.handlers ++ [⟨captured, some s.provider.calls.length, .reloading s.provider.calls.length⟩] }⟩
  | (captured, false) :: rest =>
      some { s with timers := s.timers.set i { timer with
        due := rest, handlers := timer.handlers ++ [⟨captured, none, .scheduling⟩] } }

def Timed.goto (s : Timed F) (i : Nat) (timer : ReloadTimer) (h : Nat) (handler : Handler) (stage : HandlerStage) : Timed F :=
  { s with timers := s.timers.set i { timer with handlers := timer.handlers.set h { handler with stage := stage } } }

def Timed.resumeHandler (s : Timed F) (i : Nat) (timer : ReloadTimer) (h : Nat) (handler : Handler) : Option (Timed F) :=
  match handler.stage with
  | .reloading call =>
      match s.provider.calls[call]? with
      | some (.returned _) => some (s.goto i timer h handler .scheduling)
      | some (.raised what) => some (s.goto i timer h handler (.raised (.reload what)))
      | _ => none
  | .scheduling =>
      match handler.captured.call timer.expiresAfter with
      | .ok armed => some (s.goto i armed h handler .returned)
      | .error cause => some (s.goto i timer.expiresAfter h handler (.raised cause))
  | _ => none

inductive TimedAction (F : Type) where
  | advance (call : Nat) (answer : Except String F)
  | getContext
  | startReloadTimer
  | expire (timer : Nat)
  | runHandler (timer : Nat)
  | resumeHandler (timer handler : Nat)

-- ReloadContext is private: beside the constructor only the handlers call it.
def timedStep (s : Timed F) : TimedAction F → Option (Timed F)
  | .advance call answer => (step s.provider (.advance call answer)).map fun provider => { s with provider := provider }
  | .getContext => (step s.provider .getContext).map fun provider => { s with provider := provider }
  | .startReloadTimer => s.startReloadTimer
  | .expire i =>
      (s.timers[i]?.bind ReloadTimer.expire).map fun timer => { s with timers := s.timers.set i timer }
  | .runHandler i => s.timers[i]?.bind (s.runHandler i)
  | .resumeHandler i h =>
      s.timers[i]?.bind fun timer => timer.handlers[h]?.bind (s.resumeHandler i timer h)

-- All a reload timer ever does: it waits, it expires, and its only handler ends
-- on the empty copy, whatever its ReloadContext call answers.
inductive Cycle (calls : Nat) : ReloadTimer → Prop where
  | waiting : Cycle calls ⟨[.empty], [], [], 0⟩
  | expired : Cycle calls ⟨[], [(.empty, true)], [], 1⟩
  | reloading (call : Nat) (later : call ≠ 0) (made : call < calls) :
      Cycle calls ⟨[], [], [⟨.empty, some call, .reloading call⟩], 1⟩
  | scheduling (call : Nat) : Cycle calls ⟨[], [], [⟨.empty, some call, .scheduling⟩], 1⟩
  | raised (call : Nat) : Cycle calls ⟨[], [], [⟨.empty, some call, .raised .badFunctionCall⟩], 1⟩

theorem cycle_mono (calls more : Nat) (timer : ReloadTimer) (le : calls ≤ more) (cycle : Cycle calls timer) :
    Cycle more timer := by
  cases cycle with
  | waiting => exact .waiting
  | expired => exact .expired
  | reloading call later made => exact .reloading call later (Nat.lt_of_lt_of_le made le)
  | scheduling call => exact .scheduling call
  | raised call => exact .raised call

-- The timers of a provider: each has been started on a constructed object, so
-- that the provider's part of a run is a run of the provider.
structure Wound (certPath keyPath : String) (s : Timed F) : Prop where
  provider : Reachable certPath keyPath s.provider
  started : s.timers ≠ [] → s.provider.alive = true
  cycles : ∀ timer ∈ s.timers, Cycle s.provider.calls.length timer

theorem wound_set (certPath keyPath : String) (s : Timed F) (i : Nat) (timer : ReloadTimer)
    (wound : Wound certPath keyPath s) (cycle : Cycle s.provider.calls.length timer) :
    Wound certPath keyPath { s with timers := s.timers.set i timer } where
  provider := wound.provider
  started some := wound.started (by simpa using some)
  cycles other member := by
    rcases List.mem_or_eq_of_mem_set member with before | rfl
    · exact wound.cycles other before
    · exact cycle

theorem step_alive (certPath keyPath : String) (s t : State F) (action : Action F) (reachable : Reachable certPath keyPath s)
    (taken : step s action = some t) (alive : s.alive = true) : t.alive = true := by
  have later : Reachable certPath keyPath t := .step _ _ action reachable trivial taken
  have flagged := (reachable_ready certPath keyPath s reachable).flag.trans alive
  exact (reachable_ready certPath keyPath t later).flag.symm.trans
    ((moved_calls s t (step_moved s t action taken)).2 flagged)

theorem wound_provider (certPath keyPath : String) (s : Timed F) (provider : State F) (action : Action F)
    (wound : Wound certPath keyPath s) (taken : step s.provider action = some provider) :
    Wound certPath keyPath { s with provider := provider } where
  provider := .step _ _ action wound.provider trivial taken
  started some := step_alive certPath keyPath s.provider provider action wound.provider taken (wound.started some)
  cycles timer member :=
    cycle_mono _ _ timer (moved_calls _ _ (step_moved _ _ action taken)).1 (wound.cycles timer member)

theorem start_wound (certPath keyPath : String) (s t : Timed F) (wound : Wound certPath keyPath s)
    (taken : s.startReloadTimer = some t) : Wound certPath keyPath t := by
  by_cases alive : s.provider.alive = true
  · obtain rfl : { s with timers := s.timers ++ [⟨[.empty], [], [], 0⟩] } = t := by
      rw [Timed.startReloadTimer, if_pos alive] at taken
      exact Option.some.inj taken
    refine ⟨wound.provider, fun _ => alive, ?_⟩
    intro timer member
    rcases List.mem_append.mp member with before | fresh
    · exact wound.cycles timer before
    · obtain rfl := List.mem_singleton.mp fresh
      exact .waiting
  · rw [Timed.startReloadTimer, if_neg alive] at taken
    cases taken

theorem expire_cycle (calls : Nat) (timer after : ReloadTimer) (cycle : Cycle calls timer)
    (expires : timer.expire = some after) : Cycle calls after := by
  cases cycle with
  | waiting =>
      obtain rfl := Option.some.inj expires
      exact .expired
  | _ => cases expires

theorem reload_fresh (s t : State F) (taken : step s .reloadContext = some t) :
    s.calls.length ≠ 0 ∧ s.calls.length < t.calls.length := by
  by_cases alive : s.alive = true
  · obtain rfl : _ = t := by simpa [step, alive] using taken
    refine ⟨?_, by simp⟩
    intro none
    rw [List.length_eq_zero_iff] at none
    simp [State.alive, none] at alive
  · simp [step, alive] at taken

theorem run_wound (certPath keyPath : String) (s t : Timed F) (i : Nat) (timer : ReloadTimer)
    (wound : Wound certPath keyPath s) (cycle : Cycle s.provider.calls.length timer) (taken : s.runHandler i timer = some t) :
    Wound certPath keyPath t := by
  cases cycle with
  | expired =>
      obtain ⟨provider, begun, rfl⟩ := Option.map_eq_some_iff.mp taken
      have reloaded := wound_provider certPath keyPath s provider .reloadContext wound begun
      obtain ⟨later, made⟩ := reload_fresh s.provider provider begun
      exact wound_set certPath keyPath _ i _ reloaded (.reloading _ later made)
  | _ => cases taken

-- ReloadContext does not raise in a handler: the object has been constructed.
theorem later_not_raised (certPath keyPath : String) (s : State F) (reachable : Reachable certPath keyPath s) (call : Nat)
    (what : String) (later : call ≠ 0) : s.calls[call]? ≠ some (.raised what) := by
  intro found
  have recorded := reachable_recorded certPath keyPath s reachable
  exact later (recorded.fits call (.raised what) found).1

theorem only_handler (only handler : Handler) (h : Nat) (there : [only][h]? = some handler) : h = 0 ∧ only = handler := by
  cases h with
  | zero => exact ⟨rfl, Option.some.inj there⟩
  | succ n => cases there

theorem resume_wound (certPath keyPath : String) (s t : Timed F) (i h : Nat) (timer : ReloadTimer) (handler : Handler)
    (wound : Wound certPath keyPath s) (cycle : Cycle s.provider.calls.length timer)
    (there : timer.handlers[h]? = some handler) (taken : s.resumeHandler i timer h handler = some t) : Wound certPath keyPath t := by
  cases cycle with
  | waiting => cases there
  | expired => cases there
  | reloading call later made =>
      obtain ⟨rfl, rfl⟩ := only_handler _ handler h there
      cases found : s.provider.calls[call]? with
      | none => simp [Timed.resumeHandler, found] at taken
      | some stage =>
          cases stage with
          | returned ok =>
              obtain rfl : _ = t := by simpa [Timed.resumeHandler, found] using taken
              exact wound_set certPath keyPath s i _ wound (.scheduling call)
          | raised what => exact absurd found (later_not_raised certPath keyPath s.provider wound.provider call what later)
          | _ => simp [Timed.resumeHandler, found] at taken
  | scheduling call =>
      obtain ⟨rfl, rfl⟩ := only_handler _ handler h there
      obtain rfl := Option.some.inj taken
      exact wound_set certPath keyPath s i _ wound (.raised call)
  | raised call =>
      obtain ⟨rfl, rfl⟩ := only_handler _ handler h there
      cases taken

theorem step_wound (certPath keyPath : String) (s t : Timed F) (action : TimedAction F) (wound : Wound certPath keyPath s)
    (taken : timedStep s action = some t) : Wound certPath keyPath t := by
  cases action with
  | advance call answer =>
      obtain ⟨provider, moved, rfl⟩ := Option.map_eq_some_iff.mp taken
      exact wound_provider certPath keyPath s provider _ wound moved
  | getContext =>
      obtain ⟨provider, moved, rfl⟩ := Option.map_eq_some_iff.mp taken
      exact wound_provider certPath keyPath s provider _ wound moved
  | startReloadTimer => exact start_wound certPath keyPath s t wound taken
  | expire i =>
      obtain ⟨after, expires, rfl⟩ := Option.map_eq_some_iff.mp taken
      obtain ⟨timer, found, expires⟩ := Option.bind_eq_some_iff.mp expires
      have cycle := wound.cycles timer (List.mem_of_getElem? found)
      exact wound_set certPath keyPath s i after wound (expire_cycle _ timer after cycle expires)
  | runHandler i =>
      obtain ⟨timer, found, runs⟩ := Option.bind_eq_some_iff.mp taken
      exact run_wound certPath keyPath s t i timer wound (wound.cycles timer (List.mem_of_getElem? found)) runs
  | resumeHandler i h =>
      obtain ⟨timer, found, resumes⟩ := Option.bind_eq_some_iff.mp taken
      obtain ⟨handler, there, resumes⟩ := Option.bind_eq_some_iff.mp resumes
      have cycle := wound.cycles timer (List.mem_of_getElem? found)
      exact resume_wound certPath keyPath s t i h timer handler wound cycle there resumes

theorem reachable_wound (certPath keyPath : String) (s : Timed F)
    (reachable : Machine.Reachable timedStep (fun _ _ => True) (constructTimed certPath keyPath) s) :
    Wound certPath keyPath s := by
  apply Machine.reachable_invariant _ _ _ (Wound certPath keyPath) _ _ s reachable
  · exact ⟨.start, fun some => absurd rfl some, fun timer member => (by cases member)⟩
  · intro before action after _ wound _ taken
    exact step_wound certPath keyPath before after action wound taken

def ReloadTimer.reloads (timer : ReloadTimer) : Nat := timer.handlers.countP fun handler => handler.call.isSome

-- Every expiration has been handled.
def ReloadTimer.Settled (timer : ReloadTimer) : Prop :=
  timer.due = [] ∧ ∀ handler ∈ timer.handlers, handler.stage.over = true

def ReloadTimer.KeepsGoing (timer : ReloadTimer) : Prop :=
  (∀ handler ∈ timer.handlers, ∀ cause, handler.stage ≠ .raised cause) ∧ timer.reloads = timer.expirations ∧
    timer.waits.length = 1

-- The one handler has ended on the empty copy of schedule, and nothing waits.
def ReloadTimer.Ended (timer : ReloadTimer) : Prop :=
  timer.waits = [] ∧ ∃ captured call, timer.handlers = [⟨captured, some call, .raised .badFunctionCall⟩]

-- The loads answer as the oracle says; nothing else is restricted.
def Answers (oracle : State F → Except String F) (s : Timed F) (action : TimedAction F) : Prop :=
  ∀ call answer, action = .advance call answer → answer = oracle s.provider

theorem provider_run (oracle : State F → Except String F) (call : Nat) (s : Timed F) (final : State F)
    (run : Machine.Reachable step (fun t action => action = .advance call (oracle t)) s.provider final) :
    Machine.Reachable timedStep (Answers oracle) s { s with provider := final } := by
  induction run with
  | start => exact .start
  | step before after action previous allowed taken ih =>
      subst allowed
      refine .step _ _ (.advance call (oracle before)) ih ?_ (by rw [timedStep, taken, Option.map_some])
      intro other answer same
      exact (TimedAction.advance.inj same).2.symm

theorem resume_step (oracle : State F → Except String F) (s t : Timed F) (i : Nat) (timer : ReloadTimer) (only : Handler)
    (found : s.timers[i]? = some timer) (handlers : timer.handlers = [only])
    (resumes : s.resumeHandler i timer 0 only = some t) : Machine.Reachable timedStep (Answers oracle) s t := by
  refine .step _ _ (.resumeHandler i 0) .start (fun call answer same => (by cases same)) ?_
  rw [timedStep, found, Option.bind_some, handlers]
  exact resumes

theorem timer_set (s : Timed F) (i : Nat) (old timer : ReloadTimer) (found : s.timers[i]? = some old) :
    (s.timers.set i timer)[i]? = some timer :=
  List.getElem?_set_self (List.getElem?_eq_some_iff.mp found).1

theorem scheduling_settles (oracle : State F → Except String F) (s : Timed F) (i call : Nat)
    (found : s.timers[i]? = some ⟨[], [], [⟨.empty, some call, .scheduling⟩], 1⟩) :
    ∃ final, Machine.Reachable timedStep (Answers oracle) s final ∧
      final.timers[i]? = some ⟨[], [], [⟨.empty, some call, .raised .badFunctionCall⟩], 1⟩ :=
  ⟨_, resume_step oracle s _ i _ _ found rfl rfl, timer_set s i _ _ found⟩

theorem reloading_settles (certPath keyPath : String) (oracle : State F → Except String F) (s : Timed F) (i call : Nat)
    (wound : Wound certPath keyPath s) (later : call ≠ 0) (made : call < s.provider.calls.length)
    (found : s.timers[i]? = some ⟨[], [], [⟨.empty, some call, .reloading call⟩], 1⟩) :
    ∃ final, Machine.Reachable timedStep (Answers oracle) s final ∧
      final.timers[i]? = some ⟨[], [], [⟨.empty, some call, .raised .badFunctionCall⟩], 1⟩ := by
  obtain ⟨provider, loads, stage, there, ended⟩ := call_ends s.provider call oracle made
  have loaded := provider_run oracle call s provider loads
  have reachable : Reachable certPath keyPath provider :=
    Machine.reachable_trans _ _ _ _ _ wound.provider (Machine.reachable_weaken _ _ _ _ (fun _ _ _ _ => trivial) _ loads)
  obtain ⟨ok, rfl⟩ : ∃ ok, stage = .returned ok := by
    cases stage with
    | returned ok => exact ⟨ok, rfl⟩
    | raised what => exact absurd there (later_not_raised certPath keyPath provider reachable call what later)
    | _ => cases ended
  have resumed := resume_step oracle { s with provider := provider }
    ⟨provider, s.timers.set i ⟨[], [], [⟨.empty, some call, .scheduling⟩], 1⟩⟩ i _ _ found rfl
    (by simp [Timed.resumeHandler, there, Timed.goto])
  obtain ⟨final, raised, stopped⟩ := scheduling_settles oracle
    ⟨provider, s.timers.set i ⟨[], [], [⟨.empty, some call, .scheduling⟩], 1⟩⟩ i call (timer_set s i _ _ found)
  exact ⟨final, Machine.reachable_trans _ _ _ _ _ loaded (Machine.reachable_trans _ _ _ _ _ resumed raised), stopped⟩

-- A handler that is due or under way can always be brought to its end, and it
-- is the same end whatever the loads answer.
theorem expirations_handled (certPath keyPath : String) (oracle : State F → Except String F) (s : Timed F)
    (reachable : Machine.Reachable timedStep (fun _ _ => True) (constructTimed certPath keyPath) s) (i : Nat)
    (timer : ReloadTimer) (found : s.timers[i]? = some timer) :
    ∃ final after, Machine.Reachable timedStep (Answers oracle) s final ∧ final.timers[i]? = some after ∧ after.Settled ∧
      after.expirations = timer.expirations ∧ (timer.expirations ≠ 0 → after.Ended) := by
  have wound := reachable_wound certPath keyPath s reachable
  have settled (call : Nat) : ReloadTimer.Settled ⟨[], [], [⟨.empty, some call, .raised .badFunctionCall⟩], 1⟩ :=
    ⟨rfl, by simp [HandlerStage.over]⟩
  have ended (call : Nat) : ReloadTimer.Ended ⟨[], [], [⟨.empty, some call, .raised .badFunctionCall⟩], 1⟩ :=
    ⟨rfl, .empty, call, rfl⟩
  have member := List.mem_of_getElem? found
  cases wound.cycles timer member with
  | waiting => exact ⟨s, _, .start, found, ⟨rfl, by simp⟩, rfl, fun expired => absurd rfl expired⟩
  | raised call => exact ⟨s, _, .start, found, settled call, rfl, fun _ => ended call⟩
  | scheduling call =>
      obtain ⟨final, run, stopped⟩ := scheduling_settles oracle s i call found
      exact ⟨final, _, run, stopped, settled call, rfl, fun _ => ended call⟩
  | reloading call later made =>
      obtain ⟨final, run, stopped⟩ := reloading_settles certPath keyPath oracle s i call wound later made found
      exact ⟨final, _, run, stopped, settled call, rfl, fun _ => ended call⟩
  | expired =>
      have alive := wound.started (List.ne_nil_of_mem member)
      obtain ⟨provider, begun⟩ : ∃ provider, step s.provider .reloadContext = some provider :=
        ⟨_, by rw [step, if_pos alive]⟩
      obtain ⟨later, made⟩ := reload_fresh s.provider provider begun
      have runs : s.runHandler i ⟨[], [(.empty, true)], [], 1⟩ = some ⟨provider, s.timers.set i
          ⟨[], [], [⟨.empty, some s.provider.calls.length, .reloading s.provider.calls.length⟩], 1⟩⟩ := by
        rw [Timed.runHandler, begun]
        rfl
      have enabled : timedStep s (.runHandler i) = s.runHandler i ⟨[], [(.empty, true)], [], 1⟩ := by
        rw [timedStep, found, Option.bind_some]
      have running := run_wound certPath keyPath s _ i _ wound .expired runs
      obtain ⟨final, run, stopped⟩ := reloading_settles certPath keyPath oracle _ i _ running later made
        (timer_set s i _ _ found)
      refine ⟨final, _, Machine.reachable_trans _ _ _ _ _ (.step _ _ (.runHandler i) .start ?_ (enabled.trans runs)) run, stopped,
        settled s.provider.calls.length, rfl, fun _ => ended s.provider.calls.length⟩
      intro call answer same
      cases same

def dueExpiration : List (TimedAction Nat) :=
  [.advance 0 (.ok 0), .advance 0 (.ok 1), .advance 0 (.ok 2), .advance 0 (.ok 0), .advance 0 (.ok 0), .startReloadTimer, .expire 0]

-- The handler is due, and every load of the reload it makes fails.
theorem due_expiration_handled :
    ∃ s final : Timed Nat, ∃ after, Machine.Reachable timedStep (fun _ _ => True) (constructTimed "cert.pem" "key.pem") s ∧
      Machine.Reachable timedStep (Answers fun _ => .error "no such file") s final ∧ final.timers[0]? = some after ∧
      after.Settled ∧ after.expirations = 1 ∧ after.Ended := by
  obtain ⟨s, reachable, shown⟩ := Machine.run_exhibits timedStep (fun _ _ => True)
    (constructTimed "cert.pem" "key.pem" : Timed Nat) dueExpiration
    (fun s => s.timers == [⟨[], [(.empty, true)], [], 1⟩]) (by decide)
  rw [beq_iff_eq] at shown
  obtain ⟨final, after, run, found, settled, kept, ends⟩ := expirations_handled "cert.pem" "key.pem" (fun _ => .error "no such file") s
    reachable 0 ⟨[], [(.empty, true)], [], 1⟩ (by rw [shown]; rfl)
  exact ⟨s, final, after, reachable, run, found, settled, kept, ends (by decide)⟩

-- The first expiration is the last one, however the reloads end: the handler
-- raises on the empty copy and leaves no wait behind.
theorem reloading_stops (certPath keyPath : String) (s : Timed F)
    (reachable : Machine.Reachable timedStep (fun _ _ => True) (constructTimed certPath keyPath) s)
    (timer : ReloadTimer) (member : timer ∈ s.timers) (settled : timer.Settled) :
    (timer.KeepsGoing ↔ timer.expirations = 0) ∧ timer.expirations ≤ 1 ∧
      (timer.expirations = 1 → timer.reloads = 1 ∧ timer.waits = [] ∧
        ∃ handler ∈ timer.handlers, handler.stage = .raised .badFunctionCall) := by
  cases (reachable_wound certPath keyPath s reachable).cycles timer member with
  | waiting => exact ⟨⟨fun _ => rfl, fun _ => ⟨by simp, rfl, rfl⟩⟩, Nat.zero_le 1, fun one => (by cases one)⟩
  | expired => cases settled.1
  | reloading call later made => cases settled.2 _ List.mem_cons_self
  | scheduling call => cases settled.2 _ List.mem_cons_self
  | raised call =>
      refine ⟨?_, Nat.le_refl 1, fun _ => ⟨rfl, rfl, _, List.mem_cons_self, rfl⟩⟩
      constructor
      · intro going
        exact absurd rfl (going.1 _ List.mem_cons_self .badFunctionCall)
      · intro none
        cases none

def firstExpiration : List (TimedAction Nat) :=
  [.advance 0 (.ok 0), .advance 0 (.ok 1), .advance 0 (.ok 2), .advance 0 (.ok 0), .advance 0 (.ok 0),
    .startReloadTimer, .expire 0, .runHandler 0, .advance 1 (.ok 0), .advance 1 (.error "no such file"), .advance 1 (.ok 0),
    .resumeHandler 0 0, .resumeHandler 0 0]

-- Two timers: the handler of the first one has ended, the second still waits.
theorem reloading_stops_one_of_two :
    ∃ s : Timed Nat, Machine.Reachable timedStep (fun _ _ => True) (constructTimed "cert.pem" "key.pem") s ∧
      ∃ stopped ∈ s.timers, ∃ waiting ∈ s.timers, stopped.expirations = 1 ∧ ¬ stopped.KeepsGoing ∧ waiting.KeepsGoing := by
  obtain ⟨s, reachable, shown⟩ := Machine.run_exhibits timedStep (fun _ _ => True)
    (constructTimed "cert.pem" "key.pem" : Timed Nat) (firstExpiration ++ [.startReloadTimer])
    (fun s => s.timers == [⟨[], [], [⟨.empty, some 1, .raised .badFunctionCall⟩], 1⟩, ⟨[.empty], [], [], 0⟩]) (by decide)
  rw [beq_iff_eq] at shown
  have stopped : ⟨[], [], [⟨.empty, some 1, .raised .badFunctionCall⟩], 1⟩ ∈ s.timers := by simp [shown]
  have waiting : ⟨[.empty], [], [], 0⟩ ∈ s.timers := by simp [shown]
  refine ⟨s, reachable, _, stopped, _, waiting, rfl, ?_, ?_⟩
  · intro going
    cases (reloading_stops "cert.pem" "key.pem" s reachable _ stopped ⟨rfl, by simp [HandlerStage.over]⟩).1.mp going
  · exact (reloading_stops "cert.pem" "key.pem" s reachable _ waiting ⟨rfl, by simp⟩).1.mpr rfl

theorem first_expiration_stops :
    ¬ ∀ (certPath keyPath : String) (s : Timed Nat),
      Machine.Reachable timedStep (fun _ _ => True) (constructTimed certPath keyPath) s →
        ∀ timer ∈ s.timers, timer.Settled → timer.KeepsGoing := by
  intro always
  obtain ⟨s, reachable, shown⟩ := Machine.run_exhibits timedStep (fun _ _ => True)
    (constructTimed "cert.pem" "key.pem" : Timed Nat) firstExpiration
    (fun s => s.timers == [⟨[], [], [⟨.empty, some 1, .raised .badFunctionCall⟩], 1⟩]) (by decide)
  rw [beq_iff_eq] at shown
  have going := always "cert.pem" "key.pem" s reachable _ (shown ▸ List.mem_cons_self) ⟨rfl, by simp [HandlerStage.over]⟩
  exact absurd rfl (going.1 _ List.mem_cons_self .badFunctionCall)

end Vectro.Tls
