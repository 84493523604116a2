import Vectro.WriteQueue

set_option autoImplicit false

namespace Vectro.Stream

variable {B H : Type}

-- Between strand steps, a queue with something to do has a write whose
-- completion will take it on.
def Unstuck (s : State B H) : Prop :=
  s.stack = [] → s.writeQueue ≠ [] ∨ s.writing = true → s.outstanding ≠ []

-- Whether Close(true) has been executed since the write of this AsyncSend was
-- handed to async_write.
def Event.forces (send : Nat) (closed : Bool) : Event B H → Bool
  | .handed entry => if entry.send = send then false else closed
  | .closed true => true
  | _ => closed

def closedSince (log : List (Event B H)) (send : Nat) : Bool := log.foldl (Event.forces send) false

def Event.completes (last : Option Nat) : Event B H → Option Nat
  | .completed entry _ => some entry.send
  | _ => last

-- The write whose completion is running, or was the last to run.
def lastCompleted (log : List (Event B H)) : Option Nat := log.foldl Event.completes none

-- A write fails only after a Close(true) that was executed since it was handed
-- over. With a handler that is asked when the handler returns, so that it may
-- itself be the one to force the queue shut.
def FailsClosed (s : State B H) : Action B H → Prop
  | .complete i false => ∀ entry ∈ s.outstanding[i]?, entry.handler = none → closedSince s.trace entry.send = true
  | .handlerReturns =>
      s.stack.head? = some (.completed false) → ∀ send ∈ lastCompleted s.trace, closedSince s.trace send = true
  | _ => True

instance (s : State B H) (action : Action B H) : Decidable (FailsClosed s action) :=
  match action with
  | .complete i false =>
      inferInstanceAs (Decidable (∀ entry ∈ s.outstanding[i]?, entry.handler = none → closedSince s.trace entry.send = true))
  | .handlerReturns =>
      inferInstanceAs (Decidable (s.stack.head? = some (.completed false) →
        ∀ send ∈ lastCompleted s.trace, closedSince s.trace send = true))
  | .complete _ true | .close .. | .asyncSend .. | .enableMaxQueue .. => isTrue trivial

theorem closed_since_logs (log : List (Event B H)) (event : Event B H) (send : Nat) :
    closedSince (log ++ [event]) send = event.forces send (closedSince log send) := by
  rw [closedSince, List.foldl_append]
  rfl

theorem last_completed_logs (log : List (Event B H)) (event : Event B H) :
    lastCompleted (log ++ [event]) = event.completes (lastCompleted log) := by
  rw [lastCompleted, List.foldl_append]
  rfl

-- Nothing but Close(true) ends a write that has been handed over.
theorem live_logs (log : List (Event B H)) (event : Event B H) (send : Nat) (live : closedSince log send = false)
    (other : event ≠ .closed true) : closedSince (log ++ [event]) send = false := by
  rw [closed_since_logs, live]
  cases event with
  | handed entry => exact ite_self false
  | closed force =>
      cases force with
      | true => exact absurd rfl other
      | false => rfl
  | _ => rfl

theorem live_handed (log : List (Event B H)) (entry : Entry B H) : closedSince (log ++ [.handed entry]) entry.send = false := by
  rw [closed_since_logs]
  exact if_pos rfl

-- A queue with something to do has writing_ set, and while that is set some write
-- has been handed over since the last Close(true): it is outstanding, or its
-- completion is running.
structure Live (s : State B H) : Prop where
  flagged : s.writeQueue ≠ [] → s.writing = true
  held : s.writing = true → (∃ entry ∈ s.outstanding, closedSince s.trace entry.send = false) ∨
    (∃ ok, .completed ok ∈ s.stack) ∧ ∃ send ∈ lastCompleted s.trace, closedSince s.trace send = false

theorem emit_live (s : State B H) (event : Event B H) (live : Live s) (other : event ≠ .closed true)
    (same : event.completes (lastCompleted s.trace) = lastCompleted s.trace) : Live (s.emit event) where
  flagged := live.flagged
  held writing := by
    rcases live.held writing with ⟨entry, member, lasts⟩ | ⟨inside, send, last, lasts⟩
    · exact .inl ⟨entry, member, live_logs s.trace event entry.send lasts other⟩
    · refine .inr ⟨inside, send, ?_, live_logs s.trace event send lasts other⟩
      rw [State.emit, last_completed_logs, same]
      exact last

theorem do_write_live (s : State B H) : Live s.doWrite := by
  unfold State.doWrite
  split
  · rename_i empty
    refine ⟨fun queued => ?_, fun writing => by cases writing⟩
    exact absurd (by simp [empty]) queued
  · rename_i entry rest _
    refine ⟨fun _ => rfl, fun _ => .inl ⟨entry, ?_, live_handed s.trace entry⟩⟩
    exact List.mem_append_right _ List.mem_cons_self

theorem resume_live (s : State B H) (frame : Frame) (live : Live { s with stack := frame :: s.stack })
    (closed : frame = .completed false → ∀ send ∈ lastCompleted s.trace, closedSince s.trace send = true) :
    Live (s.resume frame) := by
  cases frame with
  | rejected =>
      refine ⟨live.flagged, fun writing => ?_⟩
      rcases live.held writing with writes | ⟨⟨ok, member⟩, running⟩
      · exact .inl writes
      · rcases List.mem_cons.mp member with head | tail
        · cases head
        · exact .inr ⟨⟨ok, tail⟩, running⟩
  | completed ok =>
      cases ok with
      | true => exact do_write_live s
      | false =>
          refine ⟨fun queued => absurd rfl queued, fun writing => ?_⟩
          rcases live.held writing with writes | ⟨_, send, last, lasts⟩
          · exact .inl writes
          · exact absurd (lasts.symm.trans (closed rfl send last)) (by decide)

theorem answer_live (s : State B H) (entry : Entry B H) (ok : Bool) (frame : Frame)
    (live : Live { s with stack := frame :: s.stack })
    (closed : entry.handler = none → frame = .completed false → ∀ send ∈ lastCompleted s.trace, closedSince s.trace send = true) :
    Live (s.answer entry ok frame) := by
  unfold State.answer
  split
  · rename_i silent
    exact resume_live s frame live (closed silent)
  · exact emit_live _ _ live (fun same => by cases same) rfl

theorem async_send_live (s : State B H) (buffers : B) (handler : Option H) (live : Live s) :
    Live (s.asyncSend buffers handler) := by
  unfold State.asyncSend
  split
  · refine answer_live _ _ false .rejected ?_ (fun _ other => by cases other)
    have rejected := emit_live { s with sends := s.sends + 1 } (.rejected ⟨buffers, handler, s.sends⟩) ⟨live.flagged, live.held⟩
      (fun same => by cases same) rfl
    refine ⟨rejected.flagged, fun writing => ?_⟩
    rcases rejected.held writing with writes | ⟨⟨ok, member⟩, running⟩
    · exact .inl writes
    · exact .inr ⟨⟨ok, List.mem_cons_of_mem _ member⟩, running⟩
  · split
    · rename_i writing
      have queued : Live { s with sends := s.sends + 1, writeQueue := s.writeQueue ++ [⟨buffers, handler, s.sends⟩] } :=
        ⟨fun _ => writing, live.held⟩
      exact emit_live _ _ queued (fun same => by cases same) rfl
    · exact do_write_live _

theorem complete_live (s : State B H) (i : Nat) (entry : Entry B H) (ok : Bool) (quiet : s.stack = [])
    (found : s.outstanding[i]? = some entry) (live : Live s)
    (closed : entry.handler = none → ok = false → closedSince s.trace entry.send = true) : Live (s.complete i entry ok) := by
  have same : closedSince (s.trace ++ [.completed entry ok]) entry.send = closedSince s.trace entry.send :=
    closed_since_logs s.trace _ entry.send
  have last : lastCompleted (s.trace ++ [.completed entry ok]) = some entry.send := last_completed_logs s.trace _
  apply answer_live
  · refine ⟨live.flagged, fun writing => ?_⟩
    rcases live.held writing with ⟨other, member, lasts⟩ | ⟨⟨_, inside⟩, _⟩
    · by_cases stays : other ∈ s.outstanding.eraseIdx i
      · exact .inl ⟨other, stays, live_logs s.trace _ other.send lasts (fun same => by cases same)⟩
      · obtain rfl : other = entry := by
          obtain ⟨j, there⟩ := List.mem_iff_getElem?.mp member
          by_cases here : j = i
          · rw [here, found] at there
            exact (Option.some.inj there).symm
          · exact absurd (List.mem_eraseIdx_iff_getElem?.mpr ⟨j, here, there⟩) stays
        exact .inr ⟨⟨ok, List.mem_cons_self⟩, other.send, last, same.trans lasts⟩
    · rw [quiet] at inside
      cases inside
  · intro silent failed send completed
    obtain rfl : entry.send = send := Option.some.inj (last.symm.trans completed)
    exact same.trans (closed silent (by simpa using failed))

theorem close_live (s : State B H) (force : Bool) (live : Live s) : Live (s.close force) := by
  cases force with
  | true => exact ⟨fun queued => absurd rfl queued, fun writing => by cases writing⟩
  | false =>
      exact emit_live { s with gracefulShutdown := true } (.closed false) ⟨live.flagged, live.held⟩ (fun same => by cases same) rfl

theorem reachable_live (maxQueue : Nat) (s : State B H)
    (reachable : Machine.Reachable step FailsClosed (construct maxQueue) s) : Live s := by
  refine Machine.reachable_invariant step FailsClosed _ Live ?_ ?_ s reachable
  · exact ⟨fun queued => absurd rfl queued, fun writing => by cases writing⟩
  · intro before action after _ live closed taken
    refine step_preserves Live before after action taken ?_ ?_ ?_ ?_ ?_
    · exact fun buffers handler _ => async_send_live before buffers handler live
    · exact fun _ _ => ⟨live.flagged, live.held⟩
    · exact fun force _ => close_live before force live
    · rintro i entry ok rfl quiet found
      apply complete_live before i entry ok quiet found live
      rintro silent rfl
      exact closed entry found silent
    · rintro frame rest rfl stack
      apply resume_live { before with stack := rest } frame
      · exact ⟨live.flagged, by simpa only [stack] using live.held⟩
      · rintro rfl
        exact closed (by rw [stack]; rfl)

theorem never_stuck (maxQueue : Nat) (s : State B H)
    (reachable : Machine.Reachable step FailsClosed (construct maxQueue) s) : Unstuck s := by
  intro quiet busy
  have live := reachable_live maxQueue s reachable
  have writing : s.writing = true := busy.elim live.flagged id
  rcases live.held writing with ⟨entry, member, _⟩ | ⟨⟨_, inside⟩, _⟩
  · exact List.ne_nil_of_mem member
  · rw [quiet] at inside
    cases inside

-- A write fails, and the queue believes ever after that one is going on.
theorem stuck_after_failure :
    ¬ ∀ s : State Nat Nat, Machine.Reachable step (fun _ _ => True) (construct 1024) s → Unstuck s := by
  intro claimed
  obtain ⟨s, reachable, shown⟩ := Machine.run_exhibits step (fun _ _ => True) (construct 1024)
    ([.asyncSend 7 none, .complete 0 false, .asyncSend 8 none] : List (Action Nat Nat))
    (fun s => s.stack == [] && s.writing && s.outstanding == []) (by decide)
  simp only [Bool.and_eq_true, beq_iff_eq] at shown
  exact claimed s reachable shown.1.1 (.inr shown.1.2) shown.2

-- The handler of the failed write forces the queue shut, which releases it, and
-- the send after it is written.
theorem never_stuck_released :
    ∃ s : State Nat Nat, Machine.Reachable step FailsClosed (construct 1024) s ∧
      s.stack = [] ∧ s.writing = true ∧ s.outstanding ≠ [] := by
  obtain ⟨s, reachable, shown⟩ := Machine.run_exhibits step FailsClosed (construct 1024)
    ([.asyncSend 7 (some 0), .complete 0 false, .close true, .handlerReturns, .asyncSend 8 none] : List (Action Nat Nat))
    (fun s => s.stack == [] && s.writing) (by decide)
  simp only [Bool.and_eq_true, beq_iff_eq] at shown
  exact ⟨s, reachable, shown.1, shown.2, never_stuck 1024 s reachable shown.1 (.inr shown.2)⟩

end Vectro.Stream
