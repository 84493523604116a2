import Vectro.TcpClientConnection

set_option autoImplicit false

namespace Vectro.Connection

-- on_connect_ has been called with success for the latest Connect.
def Established (s : State) : Prop := .onConnect s.connects s.connects true ∈ s.sinceConnect

def State.closedSince (s : State) : Bool := s.sinceConnect.any Event.isClose

-- Where no completion handler is under way, a connected client reads.
def Reads (s : State) : Prop :=
  s.starting = 0 → Established s → s.closedSince = false → s.reads = 1 ∧ Waiting s.readTimer ∧ Waiting s.idleTimer

-- When a Connect succeeds, Close has been called since the latest one; or shutdown_
-- is not set, and no other read goes on. A handler that is to end in StartRead
-- does not raise, unless shutdown_ is set.
def ReadsOnce (s : State) : Action → Prop
  | .complete i true _ =>
      (s.chains[i]?).any (·.last s.tls) = true →
        if s.shutdown then s.closedSince = true else s.reads = 0 ∧ s.starting = 0
  | .returns raises => raises = true → s.shutdown = true
  | _ => True

instance (s : State) (action : Action) : Decidable (ReadsOnce s action) :=
  match action with
  | .complete i true _ =>
      inferInstanceAs (Decidable ((s.chains[i]?).any (·.last s.tls) = true →
        if s.shutdown then s.closedSince = true else s.reads = 0 ∧ s.starting = 0))
  | .returns raises => inferInstanceAs (Decidable (raises = true → s.shutdown = true))
  | .complete _ false _ | .connect .. | .nextEndpoint .. | .readCompletes .. | .connectExpires | .readExpires | .idleExpires
  | .connectTimer .. | .readTimer .. | .idleTimer .. | .close .. | .setOnDisconnect .. | .destroy => isTrue trivial

structure Reading (s : State) : Prop where
  closing : s.shutdown = true → Established s → s.closedSince = true
  single : s.shutdown = false → s.reads + s.starting ≤ 1
  reading : s.shutdown = false → Established s → s.reads + s.starting = 1
  waiting : s.shutdown = false → s.reads = 1 → Waiting s.readTimer ∧ Waiting s.idleTimer

theorem reading_reads (s : State) (reading : Reading s) : Reads s := by
  intro idle established unclosed
  have running : s.shutdown = false := by
    by_contra shut
    rw [reading.closing (eq_true_of_ne_false shut) established] at unclosed
    cases unclosed
  have one : s.reads = 1 := by
    have total := reading.reading running established
    omega
  exact ⟨one, reading.waiting running one⟩

theorem since_connect_front (s after : State) (front : List Event) (trace : after.trace = front ++ s.trace)
    (unmarked : ∀ event ∈ front, event.isConnect = false) : after.sinceConnect = front ++ s.sinceConnect := by
  rw [State.sinceConnect, trace]
  exact since_front _ front s.trace unmarked

-- Neither a Connect nor the success of one.
def Event.unsuccessful : Event → Bool
  | .connect _ _ | .connected _ | .onConnect _ _ true => false
  | _ => true

theorem established_before (s after : State) (front : List Event) (trace : after.trace = front ++ s.trace)
    (connects : after.connects = s.connects) (quiet : ∀ event ∈ front, event.unsuccessful = true) :
    (Established after → Established s) ∧ (s.closedSince = true → after.closedSince = true) := by
  have since := since_connect_front s after front trace fun event member => by
    have unsuccessful := quiet event member
    cases event <;> first | rfl | cases unsuccessful
  refine ⟨fun established => ?_, fun closed => ?_⟩
  · rw [Established, since, connects] at established
    rcases List.mem_append.mp established with new | old
    · cases quiet _ new
    · exact old
  · rw [State.closedSince, since, List.any_append]
    rw [State.closedSince] at closed
    rw [closed, Bool.or_true]

-- The reads and the waits are as before, and no Connect has succeeded.
theorem reading_frame (s after : State) (front : List Event) (trace : after.trace = front ++ s.trace)
    (quiet : ∀ event ∈ front, event.unsuccessful = true) (reading : Reading s)
    (connects : after.connects = s.connects := by rfl) (shutdown : after.shutdown = s.shutdown := by rfl)
    (reads : after.reads = s.reads := by rfl) (starting : after.starting = s.starting := by rfl)
    (read : Waiting s.readTimer → Waiting after.readTimer := by exact fun waiting => waiting)
    (idle : Waiting s.idleTimer → Waiting after.idleTimer := by exact fun waiting => waiting) : Reading after := by
  obtain ⟨established, closed⟩ := established_before s after front trace connects quiet
  refine ⟨fun shut known => ?_, fun running => ?_, fun running known => ?_, fun running one => ?_⟩
  · exact closed (reading.closing (shutdown ▸ shut) (established known))
  · rw [reads, starting]
    exact reading.single (shutdown ▸ running)
  · rw [reads, starting]
    exact reading.reading (shutdown ▸ running) (established known)
  · obtain ⟨waitsRead, waitsIdle⟩ := reading.waiting (shutdown ▸ running) (reads ▸ one)
    exact ⟨read waitsRead, idle waitsIdle⟩

theorem fail_reading (s : State) (i : Nat) (id : Nat) (reading : Reading s) : Reading (s.fail i id) := by
  rw [fail_eq]
  refine reading_frame s _ (s.reportEvents id false) rfl (fun event member => ?_) reading
  rw [report_events_mem s id false event member]
  rfl

theorem succeed_reading (s : State) (i : Nat) (id : Nat)
    (alone : if s.shutdown then s.closedSince = true else s.reads = 0 ∧ s.starting = 0) : Reading (s.succeed i id) := by
  rw [succeed_eq]
  refine ⟨fun shut _ => ?_, fun running => ?_, fun running _ => ?_, fun running one => ?_⟩
  · change s.shutdown = true at shut
    rw [if_pos shut, State.closedSince] at alone
    rw [State.closedSince, since_connect_front s _ _ rfl, List.any_append, alone, Bool.or_true]
    intro event member
    rcases List.mem_append.mp member with reported | connected
    · rw [report_events_mem s id true event reported]
      rfl
    · rw [List.mem_singleton.mp connected]
      rfl
  all_goals
    change s.shutdown = false at running
    rw [running, if_neg Bool.false_ne_true] at alone
  · show s.reads + (s.starting + 1) ≤ 1
    omega
  · show s.reads + (s.starting + 1) = 1
    omega
  · change s.reads = 1 at one
    omega

theorem close_reading (s : State) (force : Bool) : Reading (s.callClose force) := by
  obtain ⟨shut, _⟩ := call_close_keeps s force
  refine ⟨fun _ _ => ?_, fun running => ?_, fun running => ?_, fun running => ?_⟩
  · rw [State.closedSince, since_connect_front s _ _ (call_close_trace s force)]
    · simp [Event.isClose]
    · intro event member
      rcases List.mem_append.mp member with closing | closed
      · rcases closing_events_mem s force event closing with rfl | rfl <;> rfl
      · rw [List.mem_singleton.mp closed]
        rfl
  all_goals
    rw [shut] at running
    cases running

theorem start_read_reading (s : State) (started : s.shutdown = false → s.reads = 0 ∧ s.starting = 0)
    (closing : s.shutdown = true → Established s → s.closedSince = true) : Reading s.startRead := by
  unfold State.startRead
  by_cases shut : s.shutdown = true
  · rw [if_pos shut]
    refine ⟨closing, fun running => ?_, fun running => ?_, fun running => ?_⟩
    all_goals
      rw [shut] at running
      cases running
  · obtain ⟨none, alone⟩ := started (eq_false_of_ne_true shut)
    rw [if_neg shut]
    refine ⟨fun shutting => absurd shutting shut, fun _ => ?_, fun _ _ => ?_, fun _ _ => ⟨.inl rfl, .inl rfl⟩⟩
    · show s.reads + 1 + s.starting ≤ 1
      omega
    · show s.reads + 1 + s.starting = 1
      omega

theorem step_reading (s after : State) (action : Action) (taken : step s action = some after) (allowed : ReadsOnce s action)
    (reading : Reading s) : Reading after := by
  cases step_moves s after action taken with
  | connect handler next =>
      obtain rfl := next
      refine ⟨fun _ established => ?_, reading.single, fun _ established => ?_, reading.waiting⟩
      all_goals cases established
  | resolved i opens id found next | shakes i opens id found tls next => exact next ▸ reading_frame s _ [] rfl (by simp) reading
  | unresolved i opens id found next => exact next ▸ fail_reading _ i id (reading_frame s _ [] rfl (by simp) reading)
  | fails i opens chain found resolved next => exact next ▸ fail_reading s i chain.id reading
  | succeeds i opens chain found last next =>
      rw [ReadsOnce, found] at allowed
      exact next ▸ succeed_reading s i chain.id (allowed last)
  | closes _ before force closing same _ next => exact next ▸ close_reading before force
  | expires timer next => exact next ▸ reading_frame s _ [.connectExpired] rfl (by simp [Event.unsuccessful]) reading
  | reads outstanding next =>
      obtain rfl := next
      refine ⟨reading.closing, fun running => ?_, fun running established => ?_, fun running one => ?_⟩
      · have single := reading.single running
        show s.reads - 1 + (s.starting + 1) ≤ 1
        omega
      · have total := reading.reading running established
        show s.reads - 1 + (s.starting + 1) = 1
        omega
      · have single := reading.single running
        change s.reads - 1 = 1 at one
        omega
  | returns raises underway next =>
      have returned : Reading { s with starting := s.starting - 1 }.startRead := by
        refine start_read_reading _ (fun running => ?_) reading.closing
        have single := reading.single running
        exact ⟨by show s.reads = 0; omega, by show s.starting - 1 = 0; omega⟩
      cases raises with
      | false => exact next ▸ returned
      | true =>
          have shut := allowed rfl
          rw [State.startRead, if_pos shut] at returned
          exact next ▸ returned
  | quiet _ calm quiet =>
      obtain same | raised := quiet.trace
      · exact reading_frame s after [] same (by simp) reading quiet.connects quiet.shutdown quiet.reads quiet.starting quiet.read
          quiet.idle
      · exact reading_frame s after [.cancelRaised] raised (by simp [Event.unsuccessful]) reading quiet.connects quiet.shutdown
          quiet.reads quiet.starting quiet.read quiet.idle

theorem reachable_reading (tls : Bool) (s : State) (reachable : Machine.Reachable step ReadsOnce (construct tls) s) : Reading s := by
  refine Machine.reachable_invariant step ReadsOnce _ Reading ?_ ?_ s reachable
  · refine ⟨fun shut => (by cases shut), fun _ => Nat.zero_le 1, fun _ established => (by cases established), fun _ one => ?_⟩
    cases one
  · exact fun before action after _ reading allowed taken => step_reading before after action taken allowed reading

theorem connected_client_reads (tls : Bool) (s : State) (reachable : Machine.Reachable step ReadsOnce (construct tls) s) : Reads s :=
  reading_reads s (reachable_reading tls s reachable)

theorem connected_since (s : State) (id : Nat) (since : s.sinceConnect = [.onConnect id id true, .connected id])
    (latest : s.connects = id) : Established s ∧ s.closedSince = false := by
  rw [Established, State.closedSince, since, latest]
  exact ⟨List.mem_cons_self, rfl⟩

-- A resolution that fails, a connection with a handshake, data, and a timer that
-- has expired.
def readingRun : List Action :=
  [.connect true, .complete 0 false false, .connect true, .complete 0 true true, .complete 0 true false, .complete 0 true false,
    .returns false, .readCompletes true, .readTimer false, .returns false, .idleExpires]

theorem connected_client_reads_reading :
    ∃ s, Machine.Reachable step ReadsOnce (construct true) s ∧ s.starting = 0 ∧ Established s ∧ s.closedSince = false ∧
      s.connects = 2 ∧ s.reads = 1 ∧ Waiting s.readTimer ∧ Waiting s.idleTimer := by
  obtain ⟨s, reachable, shown⟩ := Machine.run_exhibits step ReadsOnce (construct true) readingRun
    (fun s => s.starting == 0 && s.sinceConnect == [.onConnect 2 2 true, .connected 2] && s.connects == 2) (by decide +kernel)
  simp only [Bool.and_eq_true, beq_iff_eq] at shown
  obtain ⟨⟨idle, since⟩, second⟩ := shown
  obtain ⟨established, unclosed⟩ := connected_since s 2 since second
  exact ⟨s, reachable, idle, established, unclosed, second, connected_client_reads true s reachable idle established unclosed⟩

-- A read fails, which closes the client, and the client connects again.
theorem reconnected_never_reads :
    ∃ s, Machine.Reachable step (fun _ _ => True) (construct false) s ∧ s.starting = 0 ∧ Established s ∧ s.closedSince = false ∧
      s.reads = 0 ∧ s.readTimer.pending = 0 ∧ s.idleTimer.pending = 0 ∧ ¬ Reads s := by
  obtain ⟨s, reachable, shown⟩ := Machine.run_exhibits step (fun _ _ => True) (construct false)
    [.connect true, .complete 0 true true, .complete 0 true true, .returns false, .readCompletes false, .connect true,
      .complete 0 true true, .complete 0 true true, .returns false]
    (fun s => s.starting == 0 && s.sinceConnect == [.onConnect 2 2 true, .connected 2] && s.connects == 2 && s.reads == 0 &&
      s.readTimer.pending == 0 && s.idleTimer.pending == 0) (by decide +kernel)
  simp only [Bool.and_eq_true, beq_iff_eq] at shown
  obtain ⟨⟨⟨⟨⟨idle, since⟩, second⟩, none⟩, unread⟩, idling⟩ := shown
  obtain ⟨established, unclosed⟩ := connected_since s 2 since second
  refine ⟨s, reachable, idle, established, unclosed, none, unread, idling, fun reads => ?_⟩
  have one := (reads idle established unclosed).1
  omega

end Vectro.Connection
