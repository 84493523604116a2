import Vectro.SessionTeardown

set_option autoImplicit false

namespace Vectro.Session

variable {B : Type}

-- A steady_timer: the waits that are pending, and those whose handlers are ready
-- to run, after the timer has expired or because the wait was cancelled.
structure Timer where
  pending : Nat := 0
  expired : Nat := 0
  aborted : Nat := 0
deriving DecidableEq, Repr

def Timer.cancel (timer : Timer) : Timer := { timer with pending := 0, aborted := timer.aborted + timer.pending }

-- A new expiry time cancels every wait that is pending.
def Timer.expiresAfter (timer : Timer) : Timer := timer.cancel

def Timer.asyncWait (timer : Timer) : Timer := { timer with pending := timer.pending + 1 }

def Timer.expire (timer : Timer) : Option Timer :=
  if timer.pending = 0 then none else some { timer with pending := 0, expired := timer.expired + timer.pending }

-- A handler runs, with an error if its wait was cancelled.
def Timer.handle (timer : Timer) (expired : Bool) : Option Timer :=
  if expired then
    if timer.expired = 0 then none else some { timer with expired := timer.expired - 1 }
  else if timer.aborted = 0 then none
  else some { timer with aborted := timer.aborted - 1 }

structure Timers where
  read : Timer := {}
  idle : Timer := {}
deriving DecidableEq, Repr

-- What the functions of the session do with its timers. s is the session at that
-- point of the function.
def Timers.startRead (t : Timers) (s : State B) : Timers :=
  if s.shutdownInProgress then t else { t with read := t.read.expiresAfter.asyncWait }

def Timers.startIdleTimer (t : Timers) : Timers := { t with idle := t.idle.expiresAfter.asyncWait }

def Timers.deliver (t : Timers) (s : State B) : Nat → Timers
  | 0 => t.startRead s
  | _ + 1 => if s.onMessage then t else t.startRead s

def Timers.readCompletes (t : Timers) (s : State B) (result : ReadResult) : Timers :=
  let renewed : Timers := { t with read := t.read.cancel.expiresAfter, idle := t.idle.expiresAfter }
  if s.shutdownInProgress then t
  else match result with
  | .failed => t
  | .messages count => renewed.deliver s count
  | .raised => renewed

def Timers.closeGraceful (t : Timers) (s : State B) : Timers :=
  if s.shutdownInProgress then t else { t with read := t.read.cancel, idle := t.idle.cancel }

def Timers.resume (t : Timers) (s : State B) : Timers :=
  match s.stack with
  | .messages remaining :: _ => t.deliver s remaining
  | _ => t

-- None of the others touches a timer.
def Timers.after (t : Timers) (s : State B) : Action B → Timers
  | .start _ _ => (t.startRead s).startIdleTimer
  | .readCompletes result _ => t.readCompletes s result
  | .callbackReturns _ _ => t.resume s
  | .close false inline => if inline.executor then t.closeGraceful s else t
  | .runWork i _ => if s.work[i]? = some false then t.closeGraceful s else t
  | _ => t

-- A session with its timers.
structure Timed (B : Type) where
  session : State B
  timers : Timers
  started : Bool

def constructTimed (useWriteQueue : Bool) : Timed B where
  session := construct useWriteQueue
  timers := {}
  started := false

inductive TimedAction (B : Type) where
  | session (action : Action B)
  | readExpires
  | idleExpires

-- The handlers of the timers are steps of the session; which of them are ready to
-- run, and with which error, is up to the timers.
def timedStep (t : Timed B) : TimedAction B → Option (Timed B)
  | .session (.readTimer expired inline) =>
      (t.timers.read.handle expired).bind fun read =>
        (step t.session (.readTimer expired inline)).map fun session =>
          { t with session := session, timers := { t.timers with read := read } }
  | .session (.idleTimer expired inline) =>
      (t.timers.idle.handle expired).bind fun idle =>
        (step t.session (.idleTimer expired inline)).map fun session =>
          { t with session := session, timers := { t.timers with idle := idle } }
  | .session action =>
      (step t.session action).map fun session =>
        { session := session, timers := t.timers.after t.session action
          started := t.started || (match action with | .start _ _ => true | _ => false) }
  | .readExpires => t.timers.read.expire.map fun read => { t with timers := { t.timers with read := read } }
  | .idleExpires => t.timers.idle.expire.map fun idle => { t with timers := { t.timers with idle := idle } }

def Timer.waits (timer : Timer) : Nat := timer.pending + timer.expired + timer.aborted

@[simp] theorem cancel_waits (timer : Timer) : timer.cancel.waits = timer.waits := by
  simp only [Timer.waits, Timer.cancel]
  omega

@[simp] theorem expires_after_waits (timer : Timer) : timer.expiresAfter.waits = timer.waits := cancel_waits timer

@[simp] theorem async_wait_waits (timer : Timer) : timer.asyncWait.waits = timer.waits + 1 := by
  simp only [Timer.waits, Timer.asyncWait]
  omega

theorem expire_waits (timer after : Timer) (expires : timer.expire = some after) : after.waits = timer.waits := by
  unfold Timer.expire at expires
  split at expires
  · cases expires
  · rw [← Option.some.inj expires]
    simp only [Timer.waits]
    omega

theorem handle_waits (timer after : Timer) (expired : Bool) (handled : timer.handle expired = some after) :
    after.waits = timer.waits - 1 := by
  unfold Timer.handle at handled
  split at handled
  all_goals
    split at handled
    · cases handled
    · rw [← Option.some.inj handled]
      simp only [Timer.waits]
      omega

-- The counts of the session are those of its timers: it has a handler to run
-- whenever they have.
structure Counted (t : Timers) (s : State B) : Prop where
  read : s.readWaits = t.read.waits
  idle : s.idleWaits = t.idle.waits

theorem counted_steady (t : Timers) (s after : State B) (counted : Counted t s) (steady : Steady s after) : Counted t after :=
  ⟨steady.readWaits.trans counted.read, steady.idleWaits.trans counted.idle⟩

theorem counted_start_read (t : Timers) (s : State B) (counted : Counted t s)
    (marked : s.framer = false → s.shutdownInProgress = true) : Counted (t.startRead s) s.startRead := by
  rw [Timers.startRead, State.startRead]
  by_cases flagged : s.shutdownInProgress = true
  · rw [if_pos flagged, if_pos flagged]
    exact counted
  · have present : s.framer = true := eq_true_of_ne_false fun absent => flagged (marked absent)
    rw [if_neg flagged, if_neg flagged, if_pos present]
    refine ⟨?_, counted.idle⟩
    rw [async_wait_waits, expires_after_waits, ← counted.read]

theorem counted_deliver (t : Timers) (s : State B) (count : Nat) (counted : Counted t s)
    (marked : s.framer = false → s.shutdownInProgress = true) : Counted (t.deliver s count) (s.deliver count) := by
  cases count with
  | zero => exact counted_start_read t s counted marked
  | succ remaining =>
      rw [Timers.deliver, State.deliver]
      by_cases calls : s.onMessage = true
      · rw [if_pos calls, if_pos calls]
        exact ⟨counted.read, counted.idle⟩
      · rw [if_neg calls, if_neg calls]
        exact counted_start_read t s counted marked

theorem counted_close_graceful (t : Timers) (s after : State B) (counted : Counted t after) : Counted (t.closeGraceful s) after := by
  rw [Timers.closeGraceful]
  split
  · exact counted
  · exact ⟨counted.read.trans (cancel_waits t.read).symm, counted.idle.trans (cancel_waits t.idle).symm⟩

theorem counted_read_completes (t : Timers) (s : State B) (result : ReadResult) (inline : Inline) (counted : Counted t s)
    (marked : s.framer = false → s.shutdownInProgress = true) : Counted (t.readCompletes s result) (s.readCompletes result inline) := by
  unfold Timers.readCompletes State.readCompletes
  dsimp only
  by_cases flagged : s.shutdownInProgress = true
  · rw [if_pos flagged, if_pos flagged]
    exact ⟨counted.read, counted.idle⟩
  · rw [if_neg flagged, if_neg flagged]
    have renewed : Counted ({ t with read := t.read.cancel.expiresAfter, idle := t.idle.expiresAfter } : Timers)
        { s with reads := s.reads - 1 } := by
      refine ⟨?_, ?_⟩
      · rw [expires_after_waits, cancel_waits]
        exact counted.read
      · rw [expires_after_waits]
        exact counted.idle
    cases result with
    | failed =>
        exact counted_steady t { s with reads := s.reads - 1 } _ ⟨counted.read, counted.idle⟩ (shutdown_steady _ inline)
    | messages count => exact counted_deliver _ _ count renewed marked
    | raised => exact renewed

theorem step_counted (t : Timers) (s after : State B) (action : Action B) (counted : Counted t s) (marked : Marked s)
    (kind : (match action with | .readTimer _ _ | .idleTimer _ _ => false | _ => true) = true) (taken : step s action = some after) :
    Counted (t.after s action) after := by
  by_cases writing : action.isWriting = true
  · have still := counted_steady t s after counted (step_steady s after action writing taken)
    unfold Timers.after
    split
    · cases writing
    · cases writing
    · cases writing
    · split
      · exact counted_close_graceful t s after still
      · exact still
    · split
      · exact counted_close_graceful t s after still
      · exact still
    · exact still
  unfold step at taken
  split at taken
  · cases taken
  cases action with
  | readTimer | idleTimer => cases kind
  | close | writeCompletes | queueCompletes | runWork | runStrand => exact absurd rfl writing
  | start onMessage onDisconnect =>
      obtain rfl := Option.some.inj taken
      have started := counted_start_read t { s with onMessage := onMessage, onDisconnect := onDisconnect }
        ⟨counted.read, counted.idle⟩ marked.framer
      refine ⟨started.read, ?_⟩
      change _ + 1 = Timer.waits (Timer.asyncWait _)
      rw [async_wait_waits, expires_after_waits, started.idle]
      rfl
  | asyncSend framed inline =>
      obtain rfl := Option.some.inj taken
      unfold State.asyncSend
      split
      · cases framed with
        | none => exact counted
        | some buffers => exact counted_steady t s _ counted (send_steady s buffers inline)
      · exact ⟨counted.read, counted.idle⟩
  | enableWriteQueue enable =>
      obtain rfl := Option.some.inj taken
      exact ⟨counted.read, counted.idle⟩
  | callbackReturns raises inline =>
      cases stack : s.stack with
      | nil => simp [stack] at taken
      | cons frame rest =>
          simp only [stack, Option.some.injEq] at taken
          subst taken
          rw [Timers.after, Timers.resume, stack]
          cases frame with
          | messages remaining => exact counted_deliver t { s with stack := rest } remaining ⟨counted.read, counted.idle⟩ marked.framer
          | disconnect =>
              cases raises with
              | true => exact ⟨counted.read, counted.idle⟩
              | false =>
                  exact counted_steady t { s with stack := rest } _ ⟨counted.read, counted.idle⟩ (finish_shutdown_steady _ inline)
  | readCompletes result inline =>
      simp only at taken
      split at taken
      · cases taken
      · obtain rfl := Option.some.inj taken
        exact counted_read_completes t s result inline counted marked.framer

theorem read_timer_counts (s after : State B) (expired : Bool) (inline : Inline) (taken : step s (.readTimer expired inline) = some after) :
    after.readWaits = s.readWaits - 1 ∧ after.idleWaits = s.idleWaits := by
  unfold step at taken
  split at taken
  · cases taken
  · simp only at taken
    split at taken
    · cases taken
    · obtain rfl := Option.some.inj taken
      split
      · have steady := shutdown_steady { s with readWaits := s.readWaits - 1 } inline
        exact ⟨steady.readWaits, steady.idleWaits⟩
      · exact ⟨rfl, rfl⟩

theorem idle_timer_counts (s after : State B) (expired : Bool) (inline : Inline) (taken : step s (.idleTimer expired inline) = some after) :
    after.readWaits = s.readWaits ∧ after.idleWaits = s.idleWaits - 1 := by
  unfold step at taken
  split at taken
  · cases taken
  · simp only at taken
    split at taken
    · cases taken
    · obtain rfl := Option.some.inj taken
      split
      · have steady := shutdown_steady { s with idleWaits := s.idleWaits - 1 } inline
        exact ⟨steady.readWaits, steady.idleWaits⟩
      · exact ⟨rfl, rfl⟩

-- A step of the timed session is a step of the session, or none of its business.
theorem timed_step_session (t after : Timed B) (action : TimedAction B) (marked : Marked t.session) (counted : Counted t.timers t.session)
    (taken : timedStep t action = some after) :
    (after.session = t.session ∨ ∃ taken, step t.session taken = some after.session) ∧ Counted after.timers after.session := by
  cases action with
  | readExpires =>
      obtain ⟨read, expires, rfl⟩ := Option.map_eq_some_iff.mp taken
      exact ⟨.inl rfl, counted.read.trans (expire_waits _ _ expires).symm, counted.idle⟩
  | idleExpires =>
      obtain ⟨idle, expires, rfl⟩ := Option.map_eq_some_iff.mp taken
      exact ⟨.inl rfl, counted.read, counted.idle.trans (expire_waits _ _ expires).symm⟩
  | session action =>
      cases action with
      | readTimer expired inline =>
          obtain ⟨read, handled, stepped⟩ := Option.bind_eq_some_iff.mp taken
          obtain ⟨session, run, rfl⟩ := Option.map_eq_some_iff.mp stepped
          obtain ⟨reads, idles⟩ := read_timer_counts _ _ expired inline run
          refine ⟨.inr ⟨_, run⟩, ?_, idles.trans counted.idle⟩
          rw [reads, counted.read, handle_waits _ _ expired handled]
      | idleTimer expired inline =>
          obtain ⟨idle, handled, stepped⟩ := Option.bind_eq_some_iff.mp taken
          obtain ⟨session, run, rfl⟩ := Option.map_eq_some_iff.mp stepped
          obtain ⟨reads, idles⟩ := idle_timer_counts _ _ expired inline run
          refine ⟨.inr ⟨_, run⟩, reads.trans counted.read, ?_⟩
          rw [idles, counted.idle, handle_waits _ _ expired handled]
      | start | asyncSend | enableWriteQueue | close | callbackReturns | readCompletes | writeCompletes | queueCompletes | runWork
      | runStrand =>
          obtain ⟨session, run, rfl⟩ := Option.map_eq_some_iff.mp taken
          exact ⟨.inr ⟨_, run⟩, step_counted t.timers t.session session _ counted marked rfl run⟩

theorem timed_refines (guard : Timed B → TimedAction B → Prop) (useWriteQueue : Bool) (t : Timed B)
    (reachable : Machine.Reachable timedStep guard (constructTimed useWriteQueue) t) :
    Machine.Reachable step (fun _ _ => True) (construct useWriteQueue) t.session ∧ Counted t.timers t.session := by
  apply Machine.reachable_invariant timedStep guard _
    (fun t => Machine.Reachable step (fun _ _ => True) (construct useWriteQueue) t.session ∧ Counted t.timers t.session) _ _ t reachable
  · exact ⟨.start, rfl, rfl⟩
  · intro before action after _ held _ taken
    obtain ⟨earlier, counted⟩ := held
    obtain ⟨moved, still⟩ :=
      timed_step_session before after action (reachable_marked _ useWriteQueue before.session earlier) counted taken
    refine ⟨?_, still⟩
    rcases moved with same | ⟨step, run⟩
    · rw [same]
      exact earlier
    · exact .step _ _ step earlier trivial run

-- Whenever nothing is going on and nothing is due.
def Armed (t : Timed B) : Prop :=
  t.started = true → t.session.shutdownInProgress = false → t.session.gracefulShutdown = false → t.session.stack = [] →
    t.timers.read.expired = 0 → t.timers.idle.expired = 0 → t.timers.read.pending = 1 ∧ t.timers.idle.pending = 1

-- A read that brings data moves the expiry of the idle timer, which cancels the
-- wait; StartRead waits on the read timer only. No read does so unless the
-- session is closing.
def NoData (t : Timed B) : TimedAction B → Prop
  | .session (.readCompletes .failed _) => True
  | .session (.readCompletes _ _) => t.session.shutdownInProgress = true ∨ t.session.gracefulShutdown = true
  | _ => True

instance (t : Timed B) (action : TimedAction B) : Decidable (NoData t action) :=
  match action with
  | .session (.readCompletes .failed _) => isTrue trivial
  | .session (.readCompletes (.messages _) _) | .session (.readCompletes .raised _) => inferInstanceAs (Decidable (_ ∨ _))
  | .session (.start ..) | .session (.asyncSend ..) | .session (.enableWriteQueue ..) | .session (.close ..)
  | .session (.writeCompletes ..) | .session (.queueCompletes ..) | .session (.readTimer ..) | .session (.idleTimer ..)
  | .session (.callbackReturns ..) | .session (.runWork ..) | .session .runStrand => isTrue trivial
  | .readExpires | .idleExpires => isTrue trivial

-- No step takes back a flag.
theorem step_flags (s after : State B) (action : Action B) (taken : step s action = some after) :
    (s.shutdownInProgress = true → after.shutdownInProgress = true) ∧
      (s.gracefulShutdown = true → after.gracefulShutdown = true) := by
  have steady : ∀ before after : State B, Aside s before → Steady before after →
      (s.shutdownInProgress = true → after.shutdownInProgress = true) ∧
        (s.gracefulShutdown = true → after.gracefulShutdown = true) := by
    intro before after aside steady
    exact ⟨fun flagged => steady.shutdownInProgress (aside.shutdownInProgress.trans flagged),
      fun flagged => steady.gracefulShutdown (aside.gracefulShutdown.trans flagged)⟩
  have here := fun after => steady s after (aside_refl s)
  apply step_preserves _ s after action taken
  · exact fun after aside => steady after after aside {}
  · exact fun buffers inline _ _ => here _ (send_steady s buffers inline)
  · exact fun _ _ => ⟨id, id⟩
  · exact fun _ _ _ => ⟨id, id⟩
  · exact fun force inline _ _ => here _ (run_close_steady s force inline)
  · exact fun i force inline _ _ => here _ (steady_trans s _ _ {} (run_close_steady { s with work := s.work.eraseIdx i } force inline))
  · exact fun before inline aside _ _ => steady before _ aside (shutdown_steady before inline)
  · exact fun before inline _ aside _ => steady before _ aside (finish_shutdown_steady before inline)
  · exact fun i buffers inline _ _ =>
      here _ (steady_trans s _ _ {} (write_next_steady { s.completed i buffers true with writeInProgress := false } inline))
  · exact fun i buffers inline _ _ _ => here _ (steady_trans s _ _ {} (shutdown_steady (s.completed i buffers false) inline))
  · exact fun _ _ _ _ _ _ => ⟨id, id⟩
  · exact fun _ _ _ _ _ => ⟨id, id⟩
  · exact fun call rest _ _ => here _ (steady_trans s _ _ {} (run_queue_steady { s with strandWork := rest } call))

def State.closing (s : State B) : Prop := s.shutdownInProgress = true ∨ s.gracefulShutdown = true

theorem step_closing_stays (s after : State B) (action : Action B) (taken : step s action = some after) (closing : s.closing) :
    after.closing := by
  obtain ⟨shut, graceful⟩ := step_flags s after action taken
  exact closing.imp shut graceful

theorem shutdown_flagged (s : State B) (inline : Inline) : (s.shutdown inline).shutdownInProgress = true := by
  by_cases marked : s.shutdownInProgress = true
  · rw [State.shutdown, if_pos marked]
    exact marked
  · exact (shutdown_ended s inline (eq_false_of_ne_true marked)).marked

-- A read that fails and a timer that has expired end the session.
theorem failed_read_flagged (s after : State B) (inline : Inline) (taken : step s (.readCompletes .failed inline) = some after) :
    after.shutdownInProgress = true := by
  unfold step at taken
  split at taken
  · cases taken
  · simp only at taken
    split at taken
    · cases taken
    · obtain rfl := Option.some.inj taken
      unfold State.readCompletes
      dsimp only
      split
      · assumption
      · exact shutdown_flagged _ inline

theorem expired_flagged (s after : State B) (inline : Inline)
    (taken : step s (.readTimer true inline) = some after ∨ step s (.idleTimer true inline) = some after) :
    after.shutdownInProgress = true := by
  by_cases marked : s.shutdownInProgress = true
  · rcases taken with taken | taken
    · exact (step_flags s after _ taken).1 marked
    · exact (step_flags s after _ taken).1 marked
  · rcases taken with taken | taken
    all_goals
      unfold step at taken
      split at taken
      · cases taken
      · simp only at taken
        split at taken
        · cases taken
        · obtain rfl := Option.some.inj taken
          rw [if_pos (by simpa using marked)]
          exact shutdown_flagged _ inline

theorem close_graceful_closing_flag (s : State B) (inline : Inline) : (s.closeGraceful inline).closing := by
  by_cases marked : s.shutdownInProgress = true
  · exact .inl ((run_close_steady s false inline).shutdownInProgress marked)
  · right
    rw [State.closeGraceful, if_neg marked]
    dsimp only
    split
    · exact (dispatch_queue_steady { s.emit (.closed false) with gracefulShutdown := true } _ inline).gracefulShutdown rfl
    · split
      · exact (dispatch_forced_steady { s.emit (.closed false) with gracefulShutdown := true } inline).gracefulShutdown rfl
      · rfl

structure Waiting (t : Timed B) : Prop where
  read : t.started = true → ¬ t.session.closing → t.timers.read.expired = 0 → t.timers.read.pending = 1
  idle : t.started = true → ¬ t.session.closing → t.timers.idle.expired = 0 → t.timers.idle.pending = 1

theorem waiting_closing (t : Timed B) (closing : t.session.closing) : Waiting t :=
  ⟨fun _ running => absurd closing running, fun _ running => absurd closing running⟩

-- A step of the session that leaves the timers as they are.
theorem waiting_aside (t after : Timed B) (action : Action B) (waiting : Waiting t) (taken : step t.session action = some after.session)
    (timers : after.timers = t.timers) (started : after.started = true → t.started = true) : Waiting after := by
  have open_ : ¬ after.session.closing → ¬ t.session.closing := fun running closing =>
    running (step_closing_stays t.session after.session action taken closing)
  refine ⟨?_, ?_⟩
  · intro begun running
    rw [timers]
    exact waiting.read (started begun) (open_ running)
  · intro begun running
    rw [timers]
    exact waiting.idle (started begun) (open_ running)

theorem expires_after_pending (timer : Timer) : timer.expiresAfter.asyncWait.pending = 1 := by
  rw [Timer.asyncWait, Timer.expiresAfter, Timer.cancel]

theorem start_read_waits (t : Timers) (s : State B) (running : s.shutdownInProgress = false) :
    (t.startRead s).read.pending = 1 ∧ (t.startRead s).idle = t.idle := by
  rw [Timers.startRead, if_neg (by simp [running])]
  exact ⟨expires_after_pending t.read, rfl⟩

theorem deliver_waits (t : Timers) (s : State B) (remaining : Nat) (running : s.shutdownInProgress = false) :
    ((t.deliver s remaining).read = t.read ∨ (t.deliver s remaining).read.pending = 1) ∧ (t.deliver s remaining).idle = t.idle := by
  cases remaining with
  | zero =>
      obtain ⟨read, idle⟩ := start_read_waits t s running
      exact ⟨.inr read, idle⟩
  | succ remaining =>
      rw [Timers.deliver]
      split
      · exact ⟨.inl rfl, rfl⟩
      · obtain ⟨read, idle⟩ := start_read_waits t s running
        exact ⟨.inr read, idle⟩

theorem resume_waits (t : Timers) (s : State B) (running : s.shutdownInProgress = false) :
    ((t.resume s).read = t.read ∨ (t.resume s).read.pending = 1) ∧ (t.resume s).idle = t.idle := by
  unfold Timers.resume
  split
  · exact deliver_waits t s _ running
  · exact ⟨.inl rfl, rfl⟩

-- An expiry makes a handler ready.
theorem expire_expired (timer after : Timer) (expires : timer.expire = some after) : after.expired ≠ 0 := by
  unfold Timer.expire at expires
  split at expires
  · cases expires
  · rename_i pending
    rw [← Option.some.inj expires]
    change timer.expired + timer.pending ≠ 0
    omega

theorem handle_aborted (timer after : Timer) (handled : timer.handle false = some after) :
    after.pending = timer.pending ∧ after.expired = timer.expired := by
  rw [Timer.handle, if_neg (by decide)] at handled
  split at handled
  · cases handled
  · rw [← Option.some.inj handled]
    exact ⟨rfl, rfl⟩

theorem not_closing (s : State B) (running : ¬ s.closing) : s.shutdownInProgress = false :=
  eq_false_of_ne_true fun marked => running (.inl marked)

theorem close_runs_closing (s after : State B) (inline : Inline) (inside : inline.executor = true)
    (taken : step s (.close false inline) = some after) : after.closing := by
  unfold step at taken
  split at taken
  · cases taken
  · obtain rfl := Option.some.inj taken
    rw [State.close, if_pos inside]
    exact close_graceful_closing_flag s inline

theorem work_runs_closing (s after : State B) (i : Nat) (inline : Inline) (posted : s.work[i]? = some false)
    (taken : step s (.runWork i inline) = some after) : after.closing := by
  unfold step at taken
  split at taken
  · cases taken
  · simp only [posted] at taken
    split at taken
    · cases taken
    · obtain rfl := Option.some.inj taken
      exact close_graceful_closing_flag _ inline

-- The callback that returns is the last of a read, which reads on, or it is not.
theorem waiting_resume (t after : Timed B) (raises : Bool) (inline : Inline) (waiting : Waiting t)
    (taken : step t.session (.callbackReturns raises inline) = some after.session)
    (timers : after.timers = t.timers.resume t.session) (started : after.started = true → t.started = true) :
    Waiting after := by
  have before := waiting_aside t { after with timers := t.timers } _ waiting taken rfl started
  have resumed : ¬ after.session.closing → (after.timers.read = t.timers.read ∨ after.timers.read.pending = 1) ∧
      after.timers.idle = t.timers.idle := by
    intro running
    rw [timers]
    exact resume_waits t.timers t.session (not_closing _ fun closing => running (step_closing_stays _ _ _ taken closing))
  refine ⟨?_, ?_⟩
  · intro begun running
    rcases (resumed running).1 with same | rearmed
    · rw [same]
      exact before.read begun running
    · exact fun _ => rearmed
  · intro begun running
    rw [(resumed running).2]
    exact before.idle begun running

theorem step_waiting (t after : Timed B) (action : TimedAction B) (waiting : Waiting t) (quiet : NoData t action)
    (taken : timedStep t action = some after) : Waiting after := by
  cases action with
  | readExpires =>
      obtain ⟨read, expires, rfl⟩ := Option.map_eq_some_iff.mp taken
      exact ⟨fun _ _ unexpired => absurd unexpired (expire_expired _ _ expires), waiting.idle⟩
  | idleExpires =>
      obtain ⟨idle, expires, rfl⟩ := Option.map_eq_some_iff.mp taken
      exact ⟨waiting.read, fun _ _ unexpired => absurd unexpired (expire_expired _ _ expires)⟩
  | session action =>
      cases action with
      | readTimer expired inline =>
          obtain ⟨read, handled, stepped⟩ := Option.bind_eq_some_iff.mp taken
          obtain ⟨session, run, rfl⟩ := Option.map_eq_some_iff.mp stepped
          cases expired with
          | true => exact waiting_closing _ (.inl (expired_flagged _ _ inline (.inl run)))
          | false =>
              obtain ⟨pending, unexpired⟩ := handle_aborted _ _ handled
              have before := waiting_aside t { t with session := session } _ waiting run rfl id
              exact ⟨fun begun running none => pending.trans (before.read begun running (unexpired.symm.trans none)), before.idle⟩
      | idleTimer expired inline =>
          obtain ⟨idle, handled, stepped⟩ := Option.bind_eq_some_iff.mp taken
          obtain ⟨session, run, rfl⟩ := Option.map_eq_some_iff.mp stepped
          cases expired with
          | true => exact waiting_closing _ (.inl (expired_flagged _ _ inline (.inr run)))
          | false =>
              obtain ⟨pending, unexpired⟩ := handle_aborted _ _ handled
              have before := waiting_aside t { t with session := session } _ waiting run rfl id
              exact ⟨before.read, fun begun running none => pending.trans (before.idle begun running (unexpired.symm.trans none))⟩
      | start onMessage onDisconnect =>
          obtain ⟨session, run, rfl⟩ := Option.map_eq_some_iff.mp taken
          refine ⟨fun _ running _ => ?_, fun _ _ _ => expires_after_pending _⟩
          have before : ¬ t.session.closing := fun closing => running (step_closing_stays _ _ _ run closing)
          exact (start_read_waits t.timers t.session (not_closing _ before)).1
      | readCompletes result inline =>
          obtain ⟨session, run, rfl⟩ := Option.map_eq_some_iff.mp taken
          apply waiting_closing
          cases result with
          | failed => exact .inl (failed_read_flagged _ _ inline run)
          | messages count => exact step_closing_stays _ _ _ run quiet
          | raised => exact step_closing_stays _ _ _ run quiet
      | callbackReturns raises inline =>
          obtain ⟨session, run, rfl⟩ := Option.map_eq_some_iff.mp taken
          exact waiting_resume t _ raises inline waiting run rfl (by simp)
      | close force inline =>
          obtain ⟨session, run, rfl⟩ := Option.map_eq_some_iff.mp taken
          cases force with
          | true => exact waiting_aside t _ _ waiting run rfl (by simp)
          | false =>
              by_cases inside : inline.executor = true
              · exact waiting_closing _ (close_runs_closing _ _ inline inside run)
              · exact waiting_aside t _ _ waiting run (if_neg inside) (by simp)
      | runWork i inline =>
          obtain ⟨session, run, rfl⟩ := Option.map_eq_some_iff.mp taken
          by_cases posted : t.session.work[i]? = some false
          · exact waiting_closing _ (work_runs_closing _ _ i inline posted run)
          · exact waiting_aside t _ _ waiting run (if_neg posted) (by simp)
      | asyncSend | enableWriteQueue | writeCompletes | queueCompletes | runStrand =>
          obtain ⟨session, run, rfl⟩ := Option.map_eq_some_iff.mp taken
          exact waiting_aside t _ _ waiting run rfl (by simp)

theorem timers_stay_armed (useWriteQueue : Bool) (t : Timed B)
    (reachable : Machine.Reachable timedStep NoData (constructTimed useWriteQueue) t) : Armed t := by
  have waiting : Waiting t := by
    have unstarted : Waiting (constructTimed useWriteQueue : Timed B) :=
      ⟨fun begun => absurd begun Bool.false_ne_true, fun begun => absurd begun Bool.false_ne_true⟩
    apply Machine.reachable_invariant timedStep NoData _ Waiting unstarted _ t reachable
    intro before action after _ waiting quiet taken
    exact step_waiting before after action waiting quiet taken
  intro started unmarked ungraceful _ unread unidle
  have running : ¬ t.session.closing := by
    rintro (marked | graceful)
    · exact Bool.false_ne_true (unmarked.symm.trans marked)
    · exact Bool.false_ne_true (ungraceful.symm.trans graceful)
  exact ⟨waiting.read started running unread, waiting.idle started running unidle⟩

theorem timers_stay_armed_sending :
    ∃ t : Timed Nat, Machine.Reachable timedStep NoData (constructTimed false) t ∧
      t.session.trace = [.sent 5, .handed 5, .completed 5 true] ∧
      t.timers = ⟨⟨1, 0, 0⟩, ⟨1, 0, 0⟩⟩ ∧ Armed t := by
  obtain ⟨t, reachable, shown⟩ := Machine.run_exhibits timedStep NoData (constructTimed false)
    ([.session (.start true true), .session (.asyncSend (some 5) inlined), .session (.writeCompletes 0 true inlined)] :
      List (TimedAction Nat))
    (fun t => decide (t.session.trace = [.sent 5, .handed 5, .completed 5 true] ∧ t.timers = ⟨⟨1, 0, 0⟩, ⟨1, 0, 0⟩⟩)) (by decide)
  obtain ⟨logged, armed⟩ := of_decide_eq_true shown
  exact ⟨t, reachable, logged, armed, timers_stay_armed false t reachable⟩

-- One read brings data, and the idle timer has nobody waiting on it any more.
theorem idle_wait_lost :
    ¬ ∀ t : Timed Nat, Machine.Reachable timedStep (fun _ _ => True) (constructTimed false) t → Armed t := by
  intro claimed
  obtain ⟨t, reachable, shown⟩ := Machine.run_exhibits timedStep (fun _ _ => True) (constructTimed false)
    ([.session (.start true true), .session (.readCompletes (.messages 0) inlined), .session (.readTimer false inlined),
      .session (.idleTimer false inlined)] : List (TimedAction Nat))
    (fun t => decide (t.started = true ∧ t.session.shutdownInProgress = false ∧ t.session.gracefulShutdown = false ∧
      t.session.stack = [] ∧ t.timers = ⟨⟨1, 0, 0⟩, ⟨0, 0, 0⟩⟩)) (by decide)
  obtain ⟨started, unmarked, ungraceful, idle, timers⟩ := of_decide_eq_true shown
  have armed := claimed t reachable started unmarked ungraceful idle
  rw [timers] at armed
  exact absurd (armed rfl rfl).2 (by decide)

end Vectro.Session
