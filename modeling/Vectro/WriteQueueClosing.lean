import Vectro.WriteQueueOrder

set_option autoImplicit false

namespace Vectro.Stream

variable {B H : Type}

-- An AsyncSend that was executed after a Close and was taken in.
def Late (log : List (Event B H)) (entry : Entry B H) : Prop :=
  ∃ before force after, log = before ++ .closed force :: after ∧ entry ∈ accepted after

def TakesNothing (s : State B H) : Prop := ∀ entry, Late s.trace entry → entry ∉ handed s.trace

def Drained (s : State B H) : Prop :=
  s.stack = [] → s.outstanding = [] → ∀ before after, s.trace = before ++ .closed false :: after →
    ∀ entry ∈ accepted before, entry ∈ handed s.trace

def isClosed : Event B H → Bool
  | .closed _ => true
  | _ => false

-- A failed write has left writing_ set, and there is no completion to come.
def State.stuck (s : State B H) : Bool :=
  s.writing && s.outstanding.isEmpty && s.stack.all fun
    | .rejected => true
    | .completed _ => false

-- AsyncSend does not look at graceful_shutdown_, and Close(true) leaves no
-- mark. What keeps new data out is a full queue, or one that is stuck.
def ClosedToSends (s : State B H) : Action B H → Prop
  | .asyncSend .. => s.trace.any isClosed = true → s.full = true ∨ s.stuck = true
  | _ => True

instance (s : State B H) (action : Action B H) : Decidable (ClosedToSends s action) :=
  match action with
  | .asyncSend .. => inferInstanceAs (Decidable (s.trace.any isClosed = true → s.full = true ∨ s.stuck = true))
  | .complete .. | .close .. | .handlerReturns | .enableMaxQueue .. => isTrue trivial

theorem late_closed (log : List (Event B H)) (entry : Entry B H) (late : Late log entry) : log.any isClosed = true := by
  obtain ⟨before, force, after, rfl, _⟩ := late
  simp [isClosed]

theorem late_snoc (log : List (Event B H)) (event : Event B H) (entry : Entry B H) (late : Late (log ++ [event]) entry) :
    Late log entry ∨ (event = .accepted entry ∧ log.any isClosed = true) := by
  obtain ⟨before, force, after, split, member⟩ := late
  rcases List.eq_nil_or_concat after with rfl | ⟨front, last, rfl⟩
  · simp [accepted] at member
  · rw [List.concat_eq_append, ← List.cons_append, ← List.append_assoc] at split
    obtain ⟨rfl, same⟩ := List.append_inj' split rfl
    obtain rfl := List.cons.inj same |>.1
    rw [List.concat_eq_append, accepted, List.filterMap_append, List.mem_append] at member
    rcases member with old | new
    · exact .inl ⟨before, force, front, rfl, old⟩
    · refine .inr ⟨?_, by simp [isClosed]⟩
      cases event <;> simp_all

theorem late_quiet (log : List (Event B H)) (event : Event B H) (quiet : accepted [event] = [])
    (entry : Entry B H) (late : Late (log ++ [event]) entry) : Late log entry := by
  rcases late_snoc log event entry late with old | ⟨rfl, _⟩
  · exact old
  · simp [accepted] at quiet

-- A late entry has not been handed over. If it waits, the queue is stuck, and
-- only being cleared will move it.
structure Sealed (s : State B H) : Prop where
  unhanded : TakesNothing s
  waits : ∀ entry ∈ s.writeQueue, Late s.trace entry → s.stuck = true

theorem sealed_frame (s after : State B H) (holds : Sealed s) (late : ∀ entry, Late after.trace entry → Late s.trace entry)
    (hands : handed after.trace = handed s.trace) (queue : ∀ entry ∈ after.writeQueue, entry ∈ s.writeQueue)
    (stuck : after.writeQueue ≠ [] → s.stuck = true → after.stuck = true) : Sealed after where
  unhanded := fun entry later => hands ▸ holds.unhanded entry (late entry later)
  waits := fun entry queued later => stuck (List.ne_nil_of_mem queued) (holds.waits entry (queue entry queued) (late entry later))

theorem do_write_sealed (s : State B H) (unhanded : TakesNothing s)
    (unqueued : ∀ entry ∈ s.writeQueue, ¬ Late s.trace entry) : Sealed s.doWrite := by
  unfold State.doWrite
  split
  · exact ⟨unhanded, by simp_all⟩
  · rename_i first rest queue
    have late : ∀ entry, Late (s.trace ++ [.handed first]) entry → Late s.trace entry :=
      late_quiet s.trace _ rfl
    have hands : handed (s.trace ++ [.handed first]) = handed s.trace ++ [first] := by simp [handed]
    refine ⟨fun entry later given => ?_, fun entry queued later => ?_⟩
    · rw [State.emit, hands] at given
      rcases List.mem_append.mp given with old | new
      · exact unhanded entry (late entry later) old
      · rw [List.mem_singleton] at new
        exact unqueued entry (by rw [queue, new]; exact List.mem_cons_self) (late entry later)
    · exact absurd (late entry later) (unqueued entry (queue ▸ List.mem_cons_of_mem first queued))

theorem resume_sealed (s : State B H) (frame : Frame) (holds : Sealed { s with stack := frame :: s.stack }) :
    Sealed (s.resume frame) := by
  cases frame with
  | rejected =>
      refine sealed_frame _ _ holds (fun _ late => late) rfl (fun _ queued => queued) fun _ stuck => ?_
      simpa [State.stuck, State.resume] using stuck
  | completed ok =>
      have moving : ({ s with stack := .completed ok :: s.stack } : State B H).stuck = false := by simp [State.stuck]
      cases ok with
      | true =>
          apply do_write_sealed s holds.unhanded
          intro entry queued late
          exact absurd (moving.symm.trans (holds.waits entry queued late)) (by decide)
      | false => exact ⟨holds.unhanded, fun entry queued => by simp [State.resume] at queued⟩

theorem answer_sealed (s : State B H) (entry : Entry B H) (ok : Bool) (frame : Frame)
    (holds : Sealed { s with stack := frame :: s.stack }) : Sealed (s.answer entry ok frame) := by
  unfold State.answer
  split
  · exact resume_sealed s frame holds
  · exact sealed_frame _ _ holds (late_quiet _ _ rfl) (by simp [State.emit, handed])
      (fun _ queued => queued) (fun _ stuck => stuck)

theorem enqueue_sealed (s : State B H) (entry : Entry B H) (holds : Sealed s) (fresh : entry ∉ handed s.trace)
    (stuck : s.trace.any isClosed = true → s.stuck = true) : Sealed (s.enqueue entry) := by
  have hands : handed (s.enqueue entry).trace = handed s.trace := by simp [State.enqueue, State.emit, handed]
  refine ⟨fun other late => ?_, fun other queued late => ?_⟩
  · rw [hands]
    rcases late_snoc s.trace _ other late with old | ⟨new, _⟩
    · exact holds.unhanded other old
    · obtain rfl := Event.accepted.inj new
      exact fresh
  · rcases late_snoc s.trace _ other late with old | ⟨_, closed⟩
    · exact stuck (late_closed s.trace other old)
    · exact stuck closed

theorem async_send_sealed (s : State B H) (buffers : B) (handler : Option H) (inOrder : InOrder s) (holds : Sealed s)
    (closed : s.trace.any isClosed = true → s.full = true ∨ s.stuck = true) : Sealed (s.asyncSend buffers handler) := by
  have fresh : (⟨buffers, handler, s.sends⟩ : Entry B H) ∉ handed s.trace := fun given =>
    Nat.lt_irrefl _ (inOrder.below _ (inOrder.sublist.subset (List.mem_append_left _ given)))
  unfold State.asyncSend
  split
  · refine answer_sealed _ _ false .rejected (sealed_frame s _ holds (late_quiet _ _ rfl) ?_
      (fun _ queued => queued) fun _ stuck => ?_)
    · simp [State.emit, handed]
    · simpa [State.stuck, State.emit] using stuck
  · rename_i room
    have stuck : s.trace.any isClosed = true → s.stuck = true := fun shut => (closed shut).resolve_left room
    have enqueued : Sealed (State.enqueue { s with sends := s.sends + 1 } ⟨buffers, handler, s.sends⟩) :=
      enqueue_sealed _ _ (sealed_frame s _ holds (fun _ late => late) rfl (fun _ queued => queued) fun _ stuck => stuck)
        fresh stuck
    split
    · exact enqueued
    · rename_i idle
      -- writing_ is false, so the queue is not stuck, and nothing is late.
      apply do_write_sealed _ enqueued.unhanded
      intro entry queued late
      have flagged := enqueued.waits entry queued late
      simp_all [State.stuck, State.enqueue, State.emit]

theorem close_sealed (s : State B H) (force : Bool) (holds : Sealed s) : Sealed (s.close force) := by
  have late : ∀ entry, Late (s.trace ++ [.closed force]) entry → Late s.trace entry :=
    late_quiet s.trace _ rfl
  cases force with
  | true =>
      refine sealed_frame s _ holds late (by simp [State.close, State.emit, handed]) ?_ ?_ <;>
        simp [State.close, State.emit]
  | false =>
      exact sealed_frame s _ holds late (by simp [State.close, State.emit, handed]) (fun _ queued => queued)
        (fun _ stuck => stuck)

theorem complete_sealed (s : State B H) (i : Nat) (entry : Entry B H) (ok : Bool)
    (found : s.outstanding[i]? = some entry) (holds : Sealed s) : Sealed (s.complete i entry ok) := by
  have moving : s.stuck = false := by
    cases writes : s.outstanding with
    | nil => simp [writes] at found
    | cons _ _ => simp [State.stuck, writes]
  refine answer_sealed _ entry ok _ (sealed_frame s _ holds (late_quiet _ _ rfl) ?_
    (fun _ queued => queued) fun _ stuck => ?_)
  · simp [State.emit, handed]
  · exact absurd (moving.symm.trans stuck) (by decide)

theorem reachable_sealed (maxQueue : Nat) (s : State B H)
    (reachable : Machine.Reachable step ClosedToSends (construct maxQueue) s) : Sealed s := by
  refine Machine.reachable_invariant step ClosedToSends _ Sealed ?_ ?_ s reachable
  · refine ⟨fun entry late => absurd (late_closed _ entry late) (by simp [construct]), by simp [construct]⟩
  · intro before action after earlier holds shut taken
    have inOrder := reachable_in_order _ maxQueue before earlier
    refine step_preserves Sealed before after action taken ?_ ?_ ?_ ?_ ?_
    · rintro buffers handler rfl
      exact async_send_sealed before buffers handler inOrder holds shut
    · exact fun _ _ => sealed_frame before _ holds (fun _ late => late) rfl (fun _ queued => queued) fun _ stuck => stuck
    · exact fun force _ => close_sealed before force holds
    · exact fun i entry ok _ _ found => complete_sealed before i entry ok found holds
    · intro frame rest _ stack
      apply resume_sealed _ frame
      have same : ({ before with stack := frame :: rest } : State B H) = before := by rw [← stack]
      rw [same]
      exact holds

theorem reachable_drained (maxQueue : Nat) (s : State B H)
    (reachable : Machine.Reachable step Undisturbed (construct maxQueue) s) : Drained s := by
  intro quiet idle before after split entry member
  have steady := reachable_steady maxQueue s reachable
  have unwritten : s.pending = 0 := by simp [State.pending, quiet, idle]
  have empty : s.writeQueue = [] := by
    by_contra nonempty
    have one := steady.flag.mp (steady.busy nonempty)
    exact absurd (unwritten.symm.trans one) (by decide)
  have whole := steady.whole
  rw [empty, List.append_nil] at whole
  rw [whole, split, accepted, List.filterMap_append]
  exact List.mem_append_left _ member

theorem closed_takes_nothing (maxQueue : Nat) :
    (∀ s : State B H, Machine.Reachable step ClosedToSends (construct maxQueue) s → TakesNothing s) ∧
    (∀ s : State B H, Machine.Reachable step Undisturbed (construct maxQueue) s → Drained s) :=
  ⟨fun s reachable => (reachable_sealed maxQueue s reachable).unhanded, fun s => reachable_drained maxQueue s⟩

theorem taken_after_close :
    ¬ ∀ s : State Nat Nat, Machine.Reachable step (fun _ _ => True) (construct 1024) s → TakesNothing s := by
  intro claimed
  obtain ⟨s, reachable, shown⟩ := Machine.run_exhibits step (fun _ _ => True) (construct 1024)
    ([.close false, .asyncSend 7 none] : List (Action Nat Nat))
    (fun s => s.trace == [.closed false, .accepted ⟨7, none, 0⟩, .handed ⟨7, none, 0⟩]) (by decide)
  have trace := beq_iff_eq.mp shown
  apply claimed s reachable ⟨7, none, 0⟩ ⟨[], false, _, trace, by simp [accepted]⟩
  simp [trace, handed]

-- One send is being written and one is waiting when the queue is closed; the
-- full queue turns the third away, and the other two are written out.
theorem closed_takes_nothing_full :
    ∃ s : State Nat Nat, Machine.Reachable step ClosedToSends (construct 1) s ∧ TakesNothing s ∧ Drained s ∧
      s.stack = [] ∧ s.outstanding = [] ∧ (handed s.trace).map Entry.buffers = [7, 8] ∧
      s.trace.any isClosed = true ∧ s.sends = 3 := by
  obtain ⟨s, reachable, shown⟩ := Machine.run_exhibits step
    (fun s action => ClosedToSends s action ∧ Undisturbed s action) (construct 1)
    ([.asyncSend 7 none, .asyncSend 8 none, .close false, .asyncSend 9 none, .complete 0 true, .complete 0 true] :
      List (Action Nat Nat))
    (fun s => s.stack == [] && s.outstanding == [] && (handed s.trace).map Entry.buffers == [7, 8] &&
      s.trace.any isClosed && s.sends == 3) (by decide)
  simp only [Bool.and_eq_true, beq_iff_eq] at shown
  obtain ⟨⟨⟨⟨quiet, idle⟩, hands⟩, closed⟩, sends⟩ := shown
  have shut := Machine.reachable_weaken step _ ClosedToSends _ (fun _ _ _ both => both.1) s reachable
  have calm := Machine.reachable_weaken step _ Undisturbed _ (fun _ _ _ both => both.2) s reachable
  exact ⟨s, shut, (closed_takes_nothing 1).1 s shut, (closed_takes_nothing 1).2 s calm, quiet, idle, hands, closed, sends⟩

end Vectro.Stream
