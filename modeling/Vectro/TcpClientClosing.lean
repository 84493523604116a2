import Vectro.TcpClientConnection

set_option autoImplicit false

namespace Vectro.Connection

-- What Close(true) is for.
def ClosesTotally (s : State) : Prop :=
  ∃ after, s.close true = .ok after ∧ after.shutdown = true ∧ after.socketOpen = false ∧ after.queueForced = true ∧
    after.connectTimer.pending = 0 ∧ after.readTimer.pending = 0 ∧ after.idleTimer.pending = 0

theorem closes_totally_iff (s : State) : ClosesTotally s ↔ s.socketOpen = true := by
  unfold ClosesTotally State.close State.finishClose
  cases s.socketOpen with
  | false =>
      refine ⟨?_, fun impossible => by cases impossible⟩
      rintro ⟨after, closed, _⟩
      simp [State.emit] at closed
  | true =>
      refine ⟨fun _ => rfl, fun _ => ⟨_, rfl, ?_⟩⟩
      cases s.onDisconnect <;> exact ⟨rfl, rfl, rfl, rfl, rfl, rfl⟩

-- Whoever calls it, a forced Close finds the socket open, and a Close that has an
-- on_disconnect_ to call is the first since the last successful connect.
def ClosesOnce (s : State) (action : Action) : Prop :=
  ∀ force ∈ action.closes, (force = true → s.socketOpen = true) ∧
    (s.onDisconnect = true → s.sinceConnected.countP Event.isClose = 0)

instance (s : State) (action : Action) : Decidable (ClosesOnce s action) :=
  inferInstanceAs (Decidable (∀ force ∈ action.closes, _))

theorem since_connected_front (s after : State) (front : List Event) (trace : after.trace = front ++ s.trace)
    (unmarked : ∀ event ∈ front, event.isConnected = false) : after.sinceConnected = front ++ s.sinceConnected := by
  rw [State.sinceConnected, trace]
  exact since_front _ front s.trace unmarked

structure ClosedOnce (s : State) : Prop where
  unraised : .closeRaised ∉ s.trace
  once : s.sinceConnected.count .onDisconnect ≤ 1
  disconnects : s.sinceConnected.count .onDisconnect ≤ s.sinceConnected.countP Event.isClose

-- Neither a Close nor a successful connect.
def Event.passing : Event → Bool
  | .connect _ _ | .connectExpired | .onConnect _ _ _ | .cancelRaised => true
  | _ => false

theorem passing_apart (event : Event) (passes : event.passing = true) : event.isConnected = false ∧ event.isClose = false := by
  cases event <;> first | exact ⟨rfl, rfl⟩ | cases passes

theorem closed_once_passing (s after : State) (front : List Event) (trace : after.trace = front ++ s.trace)
    (passing : ∀ event ∈ front, event.passing = true) (once : ClosedOnce s) : ClosedOnce after := by
  have since := since_connected_front s after front trace fun event member => (passing_apart event (passing event member)).1
  have closes : front.countP Event.isClose = 0 := List.countP_eq_zero.mpr fun event member => by
    rw [(passing_apart event (passing event member)).2]
    exact Bool.false_ne_true
  have silent : front.count .onDisconnect = 0 := List.count_eq_zero.mpr fun member => by cases passing _ member
  refine ⟨?_, ?_, ?_⟩
  · rw [trace, List.mem_append]
    exact fun raised => raised.elim (fun here => by cases passing _ here) once.unraised
  · rw [since, List.count_append, silent, Nat.zero_add]
    exact once.once
  · rw [since, List.countP_append, List.count_append, closes, silent, Nat.zero_add, Nat.zero_add]
    exact once.disconnects

theorem fail_closed_once (s : State) (i : Nat) (id : Nat) (once : ClosedOnce s) : ClosedOnce (s.fail i id) := by
  rw [fail_eq]
  refine closed_once_passing s _ _ rfl (fun event member => ?_) once
  rw [report_events_mem s id false event member]
  rfl

theorem succeed_closed_once (s : State) (i : Nat) (id : Nat) (once : ClosedOnce s) : ClosedOnce (s.succeed i id) := by
  have fresh : ClosedOnce (s.emit (.connected id)) := by
    refine ⟨?_, Nat.zero_le 1, Nat.le_refl 0⟩
    rintro (_ | ⟨_, raised⟩)
    exact once.unraised raised
  rw [succeed_eq]
  refine closed_once_passing (s.emit (.connected id)) _ (s.reportEvents id true) (List.append_assoc _ _ _) (fun event member => ?_)
    fresh
  rw [report_events_mem s id true event member]
  rfl

theorem close_closed_once (s before : State) (force : Bool) (same : Same s before) (opened : force = true → s.socketOpen = true)
    (first : s.onDisconnect = true → s.sinceConnected.countP Event.isClose = 0) (once : ClosedOnce s) : ClosedOnce (before.callClose force) := by
  have succeeds : before.closeRaises force = false := by
    rw [State.closeRaises, same.socketOpen]
    cases force with
    | false => rfl
    | true => rw [opened rfl]; rfl
  have events : before.closingEvents force = if s.onDisconnect then [.onDisconnect] else [] := by
    rw [State.closingEvents, succeeds, if_neg Bool.false_ne_true, same.onDisconnect]
  have trace := call_close_trace before force
  rw [events, same.trace] at trace
  have since := since_connected_front s _ _ trace fun event member => by
    rcases List.mem_append.mp member with reported | closed
    · split at reported
      · rw [List.mem_singleton.mp reported]
        rfl
      · cases reported
    · rw [List.mem_singleton.mp closed]
      rfl
  have disconnects := once.disconnects
  have before := once.once
  refine ⟨?_, ?_, ?_⟩
  · have unraised := once.unraised
    rw [trace]
    split <;> simp [unraised]
  · rw [since, List.count_append]
    split
    · rename_i calls
      have none := first calls
      simp
      omega
    · simpa using before
  · rw [since, List.countP_append, List.count_append]
    split <;> simp [Event.isClose] <;> omega

theorem step_closed_once (s after : State) (action : Action) (taken : step s action = some after) (allowed : ClosesOnce s action)
    (once : ClosedOnce s) : ClosedOnce after := by
  have unchanged : ∀ after : State, after.trace = s.trace → ClosedOnce after := fun after trace =>
    closed_once_passing s after [] trace (by simp) once
  cases step_moves s after action taken with
  | connect handler next =>
      exact next ▸ closed_once_passing s _ [.connect (s.connects + 1) handler] rfl (by simp [Event.passing]) once
  | resolved i opens id found next | shakes i opens id found tls next => exact unchanged after (next ▸ rfl)
  | unresolved i opens id found next => exact next ▸ fail_closed_once _ i id (unchanged _ rfl)
  | fails i opens chain found resolved next => exact next ▸ fail_closed_once s i chain.id once
  | succeeds i opens chain found last next => exact next ▸ succeed_closed_once s i chain.id once
  | closes _ before force closing same _ next =>
      obtain ⟨opened, first⟩ := allowed force closing
      exact next ▸ close_closed_once s before force same opened first once
  | expires timer next => exact next ▸ closed_once_passing s _ [.connectExpired] rfl (by simp [Event.passing]) once
  | reads outstanding next => exact unchanged after (next ▸ rfl)
  | returns raises underway next =>
      refine unchanged after (next ▸ ?_)
      unfold State.startRead
      cases raises <;> cases s.shutdown <;> rfl
  | quiet _ calm quiet =>
      rcases quiet.trace with same | raised
      · exact unchanged after same
      · exact closed_once_passing s after [.cancelRaised] raised (by simp [Event.passing]) once

theorem reachable_closed_once (tls : Bool) (s : State) (reachable : Machine.Reachable step ClosesOnce (construct tls) s) :
    ClosedOnce s := by
  refine Machine.reachable_invariant step ClosesOnce _ ClosedOnce ?_ ?_ s reachable
  · exact ⟨List.not_mem_nil, Nat.zero_le 1, Nat.le_refl 0⟩
  · exact fun before action after _ once allowed taken => step_closed_once before after action taken allowed once

-- The first connection ends with a read that fails, the second with a Close(true).
def twoConnections : List Action :=
  [.setOnDisconnect true, .connect true, .complete 0 true true, .complete 0 true true, .returns false, .readCompletes false,
    .connect true, .complete 0 true true, .complete 0 true true, .returns false, .close true]

end Vectro.Connection
