import Vectro.WriteQueueOrder

set_option autoImplicit false

namespace Vectro.Stream

open Tally

variable {B H : Type}

-- Runs without a forced Close.
def Graceful (_ : State B H) : Action B H → Prop
  | .close force => force = false
  | _ => True

instance (s : State B H) (action : Action B H) : Decidable (Graceful s action) :=
  match action with
  | .close force => inferInstanceAs (Decidable (force = false))
  | .asyncSend .. | .enableMaxQueue .. | .complete .. | .handlerReturns => isTrue trivial

-- A write has failed: writing_ stays set, and nobody will call DoWrite.
def Broken (s : State B H) : Prop := s.writing = true ∧ s.pending = 0

structure Flow (s : State B H) : Prop where
  exclusive : Exclusive s
  busy : s.writeQueue ≠ [] → s.writing = true
  failed : .completed false ∈ s.stack → Broken s
  whole : handed s.trace ++ s.writeQueue = accepted s.trace ∨ (Broken s ∧ handed s.trace <+: accepted s.trace)

theorem flow_frame (s after : State B H) (flow : Flow s) (pending : after.pending = s.pending)
    (stack : .completed false ∈ after.stack → .completed false ∈ s.stack) (hands : handed after.trace = handed s.trace)
    (accepts : accepted after.trace = accepted s.trace) (queue : after.writeQueue = s.writeQueue := by rfl)
    (writing : after.writing = s.writing := by rfl) : Flow after := by
  have broken : Broken s → Broken after := fun broken => ⟨writing.trans broken.1, pending.trans broken.2⟩
  refine ⟨exclusive_frame s after flow.exclusive pending writing, ?_, fun member => broken (flow.failed (stack member)), ?_⟩
  · rw [queue, writing]
    exact flow.busy
  · rw [hands, accepts, queue]
    exact flow.whole.imp id fun other => ⟨broken other.1, other.2⟩

theorem do_write_flow (s : State B H) (idle : s.pending = 0) (unfailed : .completed false ∉ s.stack)
    (whole : handed s.trace ++ s.writeQueue = accepted s.trace) : Flow s.doWrite := by
  have stack : s.doWrite.stack = s.stack := by
    unfold State.doWrite
    split <;> rfl
  refine ⟨do_write_exclusive s idle, ?_, ?_, .inl ?_⟩
  · unfold State.doWrite
    split
    · rename_i empty
      simp [empty]
    · exact fun _ => rfl
  · rw [stack]
    exact fun member => absurd member unfailed
  · rw [do_write_hands, do_write_accepts, whole]

theorem resume_flow (s : State B H) (frame : Frame) (flow : Flow { s with stack := frame :: s.stack }) : Flow (s.resume frame) := by
  have pending := pending_push s frame
  have exclusive := resume_exclusive s frame flow.exclusive
  cases frame with
  | rejected => exact flow_frame _ _ flow pending.symm (fun member => List.mem_cons_of_mem _ member) rfl rfl
  | completed ok =>
      cases ok with
      | true =>
          have single := flow.exclusive.single
          rw [pending] at single
          have awaited : ¬ Broken { s with stack := .completed true :: s.stack } := by
            intro broken
            have none := pending.symm.trans broken.2
            simp [Frame.success] at none
          apply do_write_flow s
          · exact Nat.le_zero.mp (Nat.le_of_succ_le_succ single)
          · exact fun member => awaited (flow.failed (List.mem_cons_of_mem _ member))
          · exact flow.whole.resolve_right fun other => awaited other.1
      | false =>
          have broken := flow.failed List.mem_cons_self
          have still : Broken { s with writeQueue := [] } := ⟨broken.1, pending.symm.trans broken.2⟩
          refine ⟨exclusive, fun some => absurd rfl some, fun _ => still, .inr ⟨still, ?_⟩⟩
          rcases flow.whole with all | ⟨_, part⟩
          · exact ⟨s.writeQueue, all⟩
          · exact part

theorem answer_flow (s : State B H) (entry : Entry B H) (ok : Bool) (frame : Frame)
    (flow : Flow { s with stack := frame :: s.stack }) : Flow (s.answer entry ok frame) := by
  unfold State.answer
  split
  · exact resume_flow s frame flow
  · exact flow_frame _ _ flow rfl id (Traces.filter_map_quiet _ _ _ rfl) (Traces.filter_map_quiet _ _ _ rfl)

theorem enqueue_flow (s : State B H) (entry : Entry B H) (flow : Flow s) (writing : s.writing = true) : Flow (s.enqueue entry) := by
  refine ⟨exclusive_frame s _ flow.exclusive rfl rfl, fun _ => writing, flow.failed, ?_⟩
  rcases flow.whole with all | ⟨broken, part⟩
  · exact .inl (enqueue_whole s entry all)
  · refine .inr ⟨broken, ?_⟩
    have more : accepted (s.enqueue entry).trace = accepted s.trace ++ [entry] := by simp [State.enqueue, State.emit, accepted]
    have same : handed (s.enqueue entry).trace = handed s.trace := by simp [State.enqueue, State.emit, handed]
    rw [more, same]
    exact part.trans (List.prefix_append _ _)

theorem async_send_flow (s : State B H) (buffers : B) (handler : Option H) (flow : Flow s) : Flow (s.asyncSend buffers handler) := by
  unfold State.asyncSend
  split
  · apply answer_flow _ _ false .rejected
    exact flow_frame s _ flow (pending_push _ .rejected) (fun member => by simpa [State.emit] using member)
      (Traces.filter_map_quiet _ _ _ rfl) (Traces.filter_map_quiet _ _ _ rfl)
  · split
    · rename_i writing
      exact enqueue_flow _ _ (flow_frame s _ flow rfl id rfl rfl) writing
    · rename_i idle
      have none : s.pending = 0 := by
        have single := flow.exclusive.single
        have unflagged : ¬ s.pending = 1 := fun one => idle (flow.exclusive.flagged one)
        omega
      have sound : ¬ Broken s := fun broken => idle broken.1
      apply do_write_flow
      · exact none
      · exact fun member => sound (flow.failed member)
      · exact enqueue_whole _ _ (flow.whole.resolve_right fun other => sound other.1)

-- A completion can only be that of the one write under way.
theorem complete_lone (s : State B H) (i : Nat) (entry : Entry B H) (flow : Flow s) (found : s.outstanding[i]? = some entry) :
    s.outstanding = [entry] ∧ i = 0 ∧ s.pending = 1 ∧ s.writing = true := by
  have inside := (List.getElem?_eq_some_iff.mp found).1
  have single := flow.exclusive.single
  have one : s.outstanding.length = 1 := by
    rw [State.pending] at single
    omega
  have pending : s.pending = 1 := by
    rw [State.pending] at single ⊢
    omega
  obtain ⟨only, same⟩ := List.length_eq_one_iff.mp one
  obtain rfl : i = 0 := by omega
  rw [same] at found
  exact ⟨by rw [same, Option.some.inj found], rfl, pending, flow.exclusive.flagged pending⟩

theorem complete_flow (s : State B H) (i : Nat) (entry : Entry B H) (ok : Bool) (quiet : s.stack = [])
    (found : s.outstanding[i]? = some entry) (flow : Flow s) : Flow (s.complete i entry ok) := by
  obtain ⟨lone, rfl, pending, writing⟩ := complete_lone s i entry flow found
  have whole : handed s.trace ++ s.writeQueue = accepted s.trace := by
    refine flow.whole.resolve_right fun other => ?_
    have none := other.1.2
    omega
  have hands : handed (s.trace ++ [.completed entry ok]) = handed s.trace := Traces.filter_map_quiet _ _ _ rfl
  have accepts : accepted (s.trace ++ [.completed entry ok]) = accepted s.trace := Traces.filter_map_quiet _ _ _ rfl
  have left : (s.outstanding.eraseIdx 0).length = 0 := by rw [lone]; rfl
  refine answer_flow _ entry ok _ ⟨⟨?_, fun _ => writing⟩, fun _ => writing, ?_, .inl ?_⟩
  · simp only [State.pending, State.emit, quiet, total_cons, total_nil, left]
    cases ok <;> decide
  · intro member
    refine ⟨writing, ?_⟩
    simp only [State.emit, quiet, List.mem_singleton, Frame.completed.injEq] at member
    simp [State.pending, State.emit, quiet, lone, ← member, Frame.success]
  · change handed (s.trace ++ [_]) ++ s.writeQueue = accepted (s.trace ++ [_])
    rw [hands, accepts, whole]

theorem step_flow (s after : State B H) (action : Action B H) (flow : Flow s) (graceful : Graceful s action)
    (taken : step s action = some after) : Flow after := by
  refine step_preserves Flow s after action taken ?_ ?_ ?_ ?_ ?_
  · exact fun buffers handler _ => async_send_flow s buffers handler flow
  · exact fun _ _ => flow_frame s _ flow rfl id rfl rfl
  · rintro force rfl
    obtain rfl : force = false := graceful
    exact flow_frame s _ flow rfl id (Traces.filter_map_quiet _ _ _ rfl) (Traces.filter_map_quiet _ _ _ rfl)
  · exact fun i entry ok _ quiet found => complete_flow s i entry ok quiet found flow
  · intro frame rest _ stack
    apply resume_flow { s with stack := rest } frame
    have same : ({ s with stack := frame :: rest } : State B H) = s := by rw [← stack]
    rw [same]
    exact flow

-- What a step makes of the writes under way: it leaves them, or hands over the
-- next entry when there is none.
inductive Outcome (s after : State B H) : Prop where
  | keeps (hands : handed after.trace = handed s.trace) (outstanding : after.outstanding = s.outstanding)
      (broken : Broken s → Broken after)
  | hands (entry : Entry B H) (more : handed after.trace = handed s.trace ++ [entry]) (idle : s.outstanding = [])
      (outstanding : after.outstanding = [entry]) (sound : ¬ Broken s)

theorem do_write_outcome (s base : State B H) (idle : s.outstanding = []) (sound : ¬ Broken base)
    (hands : handed s.trace = handed base.trace) (outstanding : base.outstanding = []) : Outcome base s.doWrite := by
  unfold State.doWrite
  split
  · exact .keeps hands (idle.trans outstanding.symm) fun broken => absurd broken sound
  · rename_i entry rest queue
    refine .hands entry ?_ outstanding ?_ sound
    · rw [← hands]
      simp [State.emit, handed]
    · change s.outstanding ++ [entry] = [entry]
      rw [idle, List.nil_append]

theorem resume_outcome (s : State B H) (frame : Frame) (flow : Flow { s with stack := frame :: s.stack }) :
    Outcome { s with stack := frame :: s.stack } (s.resume frame) := by
  have pending := pending_push s frame
  cases frame with
  | rejected => exact .keeps rfl rfl fun broken => ⟨broken.1, pending.symm.trans broken.2⟩
  | completed ok =>
      cases ok with
      | true =>
          have single := flow.exclusive.single
          rw [pending] at single
          have none : s.pending = 0 := Nat.le_zero.mp (Nat.le_of_succ_le_succ single)
          have idle : s.outstanding = [] := by
            rw [State.pending] at none
            exact List.eq_nil_of_length_eq_zero (by omega)
          apply do_write_outcome s { s with stack := .completed true :: s.stack } idle _ rfl idle
          intro broken
          have zero := pending.symm.trans broken.2
          simp [Frame.success] at zero
      | false => exact .keeps rfl rfl fun broken => ⟨broken.1, pending.symm.trans broken.2⟩

theorem async_send_outcome (s : State B H) (buffers : B) (handler : Option H) (flow : Flow s) :
    Outcome s (s.asyncSend buffers handler) := by
  unfold State.asyncSend
  split
  · cases handler with
    | none => exact .keeps (Traces.filter_map_quiet _ _ _ rfl) rfl id
    | some handler =>
      refine .keeps ?_ rfl fun broken => ⟨broken.1, (pending_push _ .rejected).trans broken.2⟩
      change handed (s.trace ++ [_] ++ [_]) = handed s.trace
      rw [handed, Traces.filter_map_quiet _ _ _ rfl, Traces.filter_map_quiet _ _ _ rfl, ← handed]
  · split
    · exact .keeps (Traces.filter_map_quiet _ _ _ rfl) rfl id
    · rename_i idle
      have none : s.outstanding = [] := by
        have single := flow.exclusive.single
        have unflagged : ¬ s.pending = 1 := fun one => idle (flow.exclusive.flagged one)
        rw [State.pending] at single unflagged
        exact List.eq_nil_of_length_eq_zero (by omega)
      exact do_write_outcome _ s none (fun broken => idle broken.1) (Traces.filter_map_quiet _ _ _ rfl) none

theorem step_outcome (s after : State B H) (action : Action B H) (flow : Flow s) (graceful : Graceful s action)
    (other : ∀ i ok, action ≠ .complete i ok) (taken : step s action = some after) : Outcome s after := by
  refine step_preserves (Outcome s) s after action taken ?_ ?_ ?_ ?_ ?_
  · exact fun buffers handler _ => async_send_outcome s buffers handler flow
  · exact fun _ _ => .keeps rfl rfl id
  · rintro force rfl
    obtain rfl : force = false := graceful
    exact .keeps (Traces.filter_map_quiet _ _ _ rfl) rfl id
  · exact fun i _ ok same _ _ => absurd same (other i ok)
  · intro frame rest _ stack
    have same : ({ s with stack := frame :: rest } : State B H) = s := by rw [← stack]
    have outcome := resume_outcome { s with stack := rest } frame (by rw [same]; exact flow)
    rw [same] at outcome
    exact outcome

theorem complete_outcome (s after : State B H) (i : Nat) (ok : Bool) (flow : Flow s) (taken : step s (.complete i ok) = some after) :
    i = 0 ∧ ¬ Broken s ∧ (∃ entry, s.outstanding = [entry]) ∧
      ((handed after.trace = handed s.trace ∧ after.outstanding = [] ∧ (ok = false → Broken after)) ∨
        ∃ entry, ok = true ∧ handed after.trace = handed s.trace ++ [entry] ∧ after.outstanding = [entry]) := by
  rw [step] at taken
  split at taken
  · rename_i quiet
    obtain ⟨entry, found, rfl⟩ := Option.map_eq_some_iff.mp taken
    obtain ⟨lone, rfl, pending, writing⟩ := complete_lone s i entry flow found
    have sound : ¬ Broken s := fun broken => by
      have none := broken.2
      omega
    have hands : handed (s.trace ++ [.completed entry ok]) = handed s.trace := Traces.filter_map_quiet _ _ _ rfl
    refine ⟨rfl, sound, ⟨entry, lone⟩, ?_⟩
    unfold State.complete State.answer
    split
    · cases ok with
      | false =>
          refine .inl ⟨hands, by simp [State.resume, State.emit, lone], fun _ => ⟨writing, ?_⟩⟩
          simp [State.pending, State.resume, State.emit, lone, quiet]
      | true =>
          have idle : s.outstanding.eraseIdx 0 = [] := by rw [lone]; rfl
          have outcome := do_write_outcome ({ s with outstanding := s.outstanding.eraseIdx 0 }.emit (.completed entry true))
            { s with outstanding := [], writing := false } idle (fun broken => by cases broken.1) hands rfl
          cases outcome with
          | keeps same outstanding _ => exact .inl ⟨same, outstanding, fun failed => by cases failed⟩
          | hands next more _ outstanding _ => exact .inr ⟨next, rfl, more, outstanding⟩
    · refine .inl ⟨?_, by simp [State.emit, lone], ?_⟩
      · change handed (s.trace ++ [_] ++ [_]) = handed s.trace
        rw [handed, Traces.filter_map_quiet _ _ _ rfl, ← handed, hands]
      · rintro rfl
        exact ⟨writing, by simp [State.pending, State.emit, lone, quiet, Frame.success]⟩
  · cases taken

theorem construct_flow (maxQueue : Nat) : Flow (construct maxQueue : State B H) where
  exclusive := ⟨Nat.zero_le _, fun one => by simp [State.pending, construct] at one⟩
  busy := fun some => absurd rfl some
  failed := fun member => by cases member
  whole := .inl rfl

theorem resume_accepts (s : State B H) (frame : Frame) : accepted (s.resume frame).trace = accepted s.trace := by
  cases frame with
  | rejected => rfl
  | completed ok =>
      cases ok with
      | true => exact do_write_accepts s
      | false => rfl

theorem answer_accepts (s : State B H) (entry : Entry B H) (ok : Bool) (frame : Frame) :
    accepted (s.answer entry ok frame).trace = accepted s.trace := by
  unfold State.answer
  split
  · exact resume_accepts s frame
  · exact Traces.filter_map_quiet _ _ _ rfl

theorem step_accepts (s after : State B H) (action : Action B H) (taken : step s action = some after) :
    ∀ entry ∈ accepted after.trace, entry ∈ accepted s.trace ∨ ∃ handler, action = .asyncSend entry.buffers handler := by
  refine step_preserves (fun after => ∀ entry ∈ accepted after.trace, entry ∈ accepted s.trace ∨
    ∃ handler, action = .asyncSend entry.buffers handler) s after action taken ?_ ?_ ?_ ?_ ?_
  · intro buffers handler acts entry member
    have more : ∀ base : State B H, base.trace = s.trace →
        accepted (base.enqueue ⟨buffers, handler, s.sends⟩).trace = accepted s.trace ++ [⟨buffers, handler, s.sends⟩] := by
      intro base same
      simp [State.enqueue, State.emit, accepted, same]
    unfold State.asyncSend at member
    split at member
    · rw [answer_accepts] at member
      exact .inl (by simpa [State.emit, accepted] using member)
    · have appended : entry ∈ accepted s.trace ++ [⟨buffers, handler, s.sends⟩] := by
        split at member
        · rw [more { s with sends := s.sends + 1 } rfl] at member
          exact member
        · rw [do_write_accepts, more { s with sends := s.sends + 1 } rfl] at member
          exact member
      rcases List.mem_append.mp appended with before | last
      · exact .inl before
      · rw [List.mem_singleton.mp last]
        exact .inr ⟨handler, acts⟩
  · exact fun _ _ entry member => .inl member
  · intro force _ entry member
    cases force with
    | true => exact .inl (by simpa [State.close, State.emit, accepted] using member)
    | false => exact .inl (by simpa [State.close, State.emit, accepted] using member)
  · intro i entry ok _ _ _ other member
    rw [State.complete, answer_accepts] at member
    exact .inl (by simpa [State.emit, accepted] using member)
  · intro frame rest _ _ entry member
    rw [resume_accepts] at member
    exact .inl member

end Vectro.Stream
