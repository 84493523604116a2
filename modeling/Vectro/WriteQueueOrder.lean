import Vectro.WriteQueueExclusive
import Mathlib.Data.List.Perm.Basic
import Mathlib.Data.List.Nodup

set_option autoImplicit false

namespace Vectro.Stream

open Tally

variable {B H : Type}

def accepted (log : List (Event B H)) : List (Entry B H) :=
  log.filterMap fun
    | .accepted entry => some entry
    | _ => none

def handed (log : List (Event B H)) : List (Entry B H) :=
  log.filterMap fun
    | .handed entry => some entry
    | _ => none

def completed (log : List (Event B H)) : List (Entry B H × Bool) :=
  log.filterMap fun
    | .completed entry ok => some (entry, ok)
    | _ => none

-- The arguments the handler of one AsyncSend has been called with.
def callsOf (log : List (Event B H)) (send : Nat) : List Bool :=
  log.filterMap fun
    | .called other ok => if other = send then some ok else none
    | _ => none

theorem calls_of_called (log : List (Event B H)) (send : Nat) (ok : Bool) :
    callsOf (log ++ [.called send ok]) send = callsOf log send ++ [ok] := by
  simp [callsOf]

theorem calls_of_other (log : List (Event B H)) (send other : Nat) (ok : Bool) (differs : other ≠ send) :
    callsOf (log ++ [.called other ok]) send = callsOf log send := by
  simp [callsOf, differs]

-- The ideal queue: what has been handed over and what is waiting are accepted
-- sends, in their order, with nothing twice.
structure InOrder (s : State B H) : Prop where
  numbered : (accepted s.trace).Pairwise fun earlier later => earlier.send < later.send
  below : ∀ entry ∈ accepted s.trace, entry.send < s.sends
  sublist : (handed s.trace ++ s.writeQueue).Sublist (accepted s.trace)

theorem in_order_frame (s after : State B H) (inOrder : InOrder s) (sends : s.sends ≤ after.sends)
    (same : accepted after.trace = accepted s.trace)
    (fewer : (handed after.trace ++ after.writeQueue).Sublist (handed s.trace ++ s.writeQueue)) : InOrder after where
  numbered := same ▸ inOrder.numbered
  below := fun entry member => Nat.lt_of_lt_of_le (inOrder.below entry (same ▸ member)) sends
  sublist := same ▸ fewer.trans inOrder.sublist

theorem do_write_hands (s : State B H) :
    handed s.doWrite.trace ++ s.doWrite.writeQueue = handed s.trace ++ s.writeQueue := by
  unfold State.doWrite
  split
  · rename_i empty
    simp only [empty, ite_self]
  · rename_i entry rest queue
    simp [State.emit, handed, queue]

theorem do_write_accepts (s : State B H) : accepted s.doWrite.trace = accepted s.trace := by
  unfold State.doWrite
  split
  · rfl
  · simp [State.emit, accepted]

theorem do_write_sends (s : State B H) : s.doWrite.sends = s.sends := by
  unfold State.doWrite
  split <;> rfl

theorem do_write_in_order (s : State B H) (inOrder : InOrder s) : InOrder s.doWrite :=
  in_order_frame s _ inOrder (Nat.le_of_eq (do_write_sends s).symm) (do_write_accepts s)
    (do_write_hands s ▸ List.Sublist.refl _)

theorem resume_in_order (s : State B H) (frame : Frame) (inOrder : InOrder s) : InOrder (s.resume frame) := by
  cases frame with
  | rejected => exact inOrder
  | completed ok =>
      cases ok with
      | true => exact do_write_in_order s inOrder
      | false =>
          refine in_order_frame s _ inOrder (Nat.le_refl _) rfl ?_
          simp only [State.resume, List.append_nil]
          exact List.sublist_append_left _ _

theorem answer_in_order (s : State B H) (entry : Entry B H) (ok : Bool) (frame : Frame) (inOrder : InOrder s) :
    InOrder (s.answer entry ok frame) := by
  unfold State.answer
  split
  · exact resume_in_order s frame inOrder
  · refine in_order_frame s _ inOrder (Nat.le_refl _) (by simp [State.emit, accepted]) ?_
    simp [State.emit, handed]

theorem enqueue_in_order (s : State B H) (buffers : B) (handler : Option H) (inOrder : InOrder s) :
    InOrder (State.enqueue { s with sends := s.sends + 1 } ⟨buffers, handler, s.sends⟩) := by
  have more : accepted (State.enqueue { s with sends := s.sends + 1 } ⟨buffers, handler, s.sends⟩).trace =
      accepted s.trace ++ [⟨buffers, handler, s.sends⟩] := by simp [State.enqueue, State.emit, accepted]
  have same : handed (State.enqueue { s with sends := s.sends + 1 } ⟨buffers, handler, s.sends⟩).trace =
      handed s.trace := by simp [State.enqueue, State.emit, handed]
  refine ⟨?_, ?_, ?_⟩
  · rw [more, List.pairwise_append]
    refine ⟨inOrder.numbered, List.pairwise_singleton _ _, fun earlier old later new => ?_⟩
    rw [List.mem_singleton.mp new]
    exact inOrder.below earlier old
  · rw [more]
    intro entry member
    rcases List.mem_append.mp member with old | new
    · exact Nat.lt_succ_of_lt (inOrder.below entry old)
    · rw [List.mem_singleton.mp new]
      exact Nat.lt_succ_self _
  · rw [more, same]
    show (handed s.trace ++ (s.writeQueue ++ [_])).Sublist _
    rw [← List.append_assoc]
    exact inOrder.sublist.append (List.Sublist.refl _)

theorem async_send_in_order (s : State B H) (buffers : B) (handler : Option H) (inOrder : InOrder s) :
    InOrder (s.asyncSend buffers handler) := by
  unfold State.asyncSend
  split
  · refine answer_in_order _ _ false .rejected (in_order_frame s _ inOrder (Nat.le_succ _) ?_ ?_)
    · simp [State.emit, accepted]
    · simp [State.emit, handed]
  · split
    · exact enqueue_in_order s buffers handler inOrder
    · exact do_write_in_order _ (enqueue_in_order s buffers handler inOrder)

theorem close_in_order (s : State B H) (force : Bool) (inOrder : InOrder s) : InOrder (s.close force) := by
  cases force with
  | true =>
      refine in_order_frame s _ inOrder (Nat.le_refl _) (by simp [State.close, State.emit, accepted]) ?_
      simp only [State.close, State.emit, if_true, handed, List.filterMap_append, List.append_nil]
      simp
  | false =>
      refine in_order_frame s _ inOrder (Nat.le_refl _) (by simp [State.close, State.emit, accepted]) ?_
      simp [State.close, State.emit, handed]

theorem complete_in_order (s : State B H) (i : Nat) (entry : Entry B H) (ok : Bool) (inOrder : InOrder s) :
    InOrder (s.complete i entry ok) := by
  refine answer_in_order _ entry ok _ (in_order_frame s _ inOrder (Nat.le_refl _) ?_ ?_)
  · simp [State.emit, accepted]
  · simp [State.emit, handed]

theorem reachable_in_order (guard : State B H → Action B H → Prop) (maxQueue : Nat) (s : State B H)
    (reachable : Machine.Reachable step guard (construct maxQueue) s) : InOrder s := by
  refine Machine.reachable_invariant step guard _ InOrder ?_ ?_ s reachable
  · exact ⟨List.Pairwise.nil, by simp [construct, accepted], List.Sublist.refl _⟩
  · intro before action after _ inOrder _ taken
    refine step_preserves InOrder before after action taken ?_ ?_ ?_ ?_ ?_
    · exact fun buffers handler _ => async_send_in_order before buffers handler inOrder
    · exact fun _ _ => in_order_frame before _ inOrder (Nat.le_refl _) rfl (List.Sublist.refl _)
    · exact fun force _ => close_in_order before force inOrder
    · exact fun i entry ok _ _ _ => complete_in_order before i entry ok inOrder
    · exact fun frame rest _ _ => resume_in_order _ frame
        (in_order_frame before _ inOrder (Nat.le_refl _) rfl (List.Sublist.refl _))

-- No write fails and nobody forces the queue shut.
def Undisturbed (_ : State B H) : Action B H → Prop
  | .complete _ ok => ok = true
  | .close force => force = false
  | _ => True

instance (s : State B H) (action : Action B H) : Decidable (Undisturbed s action) :=
  match action with
  | .complete _ ok => inferInstanceAs (Decidable (ok = true))
  | .close force => inferInstanceAs (Decidable (force = false))
  | .asyncSend .. | .enableMaxQueue .. | .handlerReturns => isTrue trivial

structure Steady (s : State B H) : Prop where
  whole : handed s.trace ++ s.writeQueue = accepted s.trace
  single : s.pending ≤ 1
  flag : s.writing = true ↔ s.pending = 1
  busy : s.writeQueue ≠ [] → s.writing = true
  frames : ∀ ok, .completed ok ∈ s.stack → ok = true

theorem steady_frame (s after : State B H) (steady : Steady s)
    (whole : handed after.trace ++ after.writeQueue = accepted after.trace) (pending : after.pending = s.pending)
    (writing : after.writing = s.writing) (queue : after.writeQueue ≠ [] → s.writeQueue ≠ [] ∨ s.writing = true)
    (frames : ∀ ok, .completed ok ∈ after.stack → ok = true) : Steady after where
  whole := whole
  single := pending ▸ steady.single
  flag := by rw [writing, pending]; exact steady.flag
  busy := by
    intro nonempty
    rw [writing]
    rcases queue nonempty with before | flagged
    · exact steady.busy before
    · exact flagged
  frames := frames

theorem do_write_steady (s : State B H) (idle : s.pending = 0)
    (whole : handed s.trace ++ s.writeQueue = accepted s.trace) (frames : ∀ ok, .completed ok ∈ s.stack → ok = true) :
    Steady s.doWrite := by
  have kept : handed s.doWrite.trace ++ s.doWrite.writeQueue = accepted s.doWrite.trace := by
    rw [do_write_hands, do_write_accepts, whole]
  have exclusive := do_write_exclusive s idle
  cases queue : s.writeQueue with
  | nil =>
      have written : s.doWrite = { s with writing := false, writeQueue := [] } := by
        simp only [State.doWrite, queue, ite_self]
      rw [written] at kept exclusive ⊢
      refine ⟨kept, exclusive.single, ⟨fun flagged => by simp at flagged, fun one => ?_⟩, fun some => absurd rfl some, frames⟩
      exact absurd (idle.symm.trans one) (by decide)
  | cons entry rest =>
      have written : s.doWrite =
          { s with writing := true, writeQueue := rest, outstanding := s.outstanding ++ [entry] }.emit (.handed entry) := by
        simp only [State.doWrite, queue]
      rw [written] at kept exclusive ⊢
      refine ⟨kept, exclusive.single, ⟨fun _ => ?_, fun _ => rfl⟩, fun _ => rfl, frames⟩
      rw [State.pending] at idle
      simp only [State.pending, State.emit, List.length_append, List.length_singleton]
      omega

theorem resume_steady (s : State B H) (frame : Frame) (steady : Steady { s with stack := frame :: s.stack }) :
    Steady (s.resume frame) := by
  have pending := pending_push s frame
  have frames : ∀ ok, .completed ok ∈ s.stack → ok = true := fun ok member =>
    steady.frames ok (List.mem_cons_of_mem frame member)
  cases frame with
  | rejected => exact steady_frame _ _ steady steady.whole pending.symm rfl .inl frames
  | completed ok =>
      cases ok with
      | true =>
          have single := steady.single
          rw [pending] at single
          exact do_write_steady s (Nat.le_zero.mp (Nat.le_of_succ_le_succ single)) steady.whole frames
      | false => exact absurd (steady.frames false List.mem_cons_self) (by decide)

theorem answer_steady (s : State B H) (entry : Entry B H) (ok : Bool) (frame : Frame)
    (steady : Steady { s with stack := frame :: s.stack }) : Steady (s.answer entry ok frame) := by
  unfold State.answer
  split
  · exact resume_steady s frame steady
  · refine steady_frame _ _ steady ?_ rfl rfl .inl steady.frames
    simpa [State.emit, handed, accepted] using steady.whole

theorem enqueue_whole (s : State B H) (entry : Entry B H) (whole : handed s.trace ++ s.writeQueue = accepted s.trace) :
    handed (s.enqueue entry).trace ++ (s.enqueue entry).writeQueue = accepted (s.enqueue entry).trace := by
  have more : accepted (s.enqueue entry).trace = accepted s.trace ++ [entry] := by
    simp [State.enqueue, State.emit, accepted]
  have same : handed (s.enqueue entry).trace = handed s.trace := by simp [State.enqueue, State.emit, handed]
  rw [more, same, ← whole, List.append_assoc]
  rfl

theorem async_send_steady (s : State B H) (buffers : B) (handler : Option H) (steady : Steady s) :
    Steady (s.asyncSend buffers handler) := by
  unfold State.asyncSend
  split
  · refine answer_steady _ _ false .rejected (steady_frame s _ steady ?_ (pending_push _ .rejected) rfl .inl ?_)
    · simpa [State.emit, handed, accepted] using steady.whole
    · intro ok member
      rcases List.mem_cons.mp member with head | tail
      · cases head
      · exact steady.frames ok tail
  · have whole := enqueue_whole { s with sends := s.sends + 1 } ⟨buffers, handler, s.sends⟩ steady.whole
    split
    · rename_i flagged
      exact steady_frame s _ steady whole rfl rfl (fun _ => .inr flagged) steady.frames
    · rename_i idle
      have single := steady.single
      have unflagged : ¬ s.pending = 1 := fun one => idle (steady.flag.mpr one)
      exact do_write_steady _ (show s.pending = 0 by omega) whole steady.frames

theorem complete_steady (s : State B H) (i : Nat) (entry : Entry B H) (quiet : s.stack = [])
    (found : s.outstanding[i]? = some entry) (steady : Steady s) : Steady (s.complete i entry true) := by
  have inside := (List.getElem?_eq_some_iff.mp found).1
  have shorter := List.length_eraseIdx_of_lt inside
  refine answer_steady _ entry true _ (steady_frame s _ steady ?_ ?_ rfl .inl ?_)
  · simpa [State.emit, handed, accepted] using steady.whole
  · simp only [State.pending, State.emit, quiet, total_cons, total_nil, shorter, Frame.success]
    omega
  · intro ok member
    have only : ok = true := by simpa [State.emit, quiet] using member
    exact only

theorem reachable_steady (maxQueue : Nat) (s : State B H)
    (reachable : Machine.Reachable step Undisturbed (construct maxQueue) s) : Steady s := by
  refine Machine.reachable_invariant step Undisturbed _ Steady ?_ ?_ s reachable
  · refine ⟨rfl, Nat.zero_le _, ?_, fun some => absurd rfl some, by simp [construct]⟩
    simp [construct, State.pending]
  · intro before action after _ steady calm taken
    refine step_preserves Steady before after action taken ?_ ?_ ?_ ?_ ?_
    · exact fun buffers handler _ => async_send_steady before buffers handler steady
    · exact fun _ _ => steady_frame before _ steady steady.whole rfl rfl .inl steady.frames
    · rintro force rfl
      have graceful : force = false := calm
      subst force
      refine steady_frame before _ steady ?_ rfl rfl .inl steady.frames
      simpa [State.close, State.emit, handed, accepted] using steady.whole
    · rintro i entry ok rfl quiet found
      have success : ok = true := calm
      subst ok
      exact complete_steady before i entry quiet found steady
    · intro frame rest _ stack
      exact resume_steady _ frame (steady_frame before _ steady steady.whole (by simp only [State.pending, stack]) rfl .inl
        (by simpa only [stack] using steady.frames))

-- Handlers are called when their write completes, once, and not before.
structure Answered (s : State B H) : Prop where
  balance : (handed s.trace).Perm (s.outstanding ++ (completed s.trace).map Prod.fst)
  future : ∀ send, s.sends ≤ send → callsOf s.trace send = []
  waiting : ∀ entry ∈ s.writeQueue ++ s.outstanding, callsOf s.trace entry.send = []
  answered : ∀ entry ok, (entry, ok) ∈ completed s.trace →
    callsOf s.trace entry.send = if entry.handler.isSome then [ok] else []

theorem answered_frame (s after : State B H) (answered : Answered s) (sends : s.sends ≤ after.sends)
    (outstanding : after.outstanding = s.outstanding) (queue : ∀ entry ∈ after.writeQueue, entry ∈ s.writeQueue)
    (hands : handed after.trace = handed s.trace) (completes : completed after.trace = completed s.trace)
    (calls : ∀ send, callsOf after.trace send = callsOf s.trace send) : Answered after where
  balance := by rw [hands, completes, outstanding]; exact answered.balance
  future := fun send later => by rw [calls]; exact answered.future send (Nat.le_trans sends later)
  waiting := by
    intro entry member
    rw [calls]
    apply answered.waiting entry
    rcases List.mem_append.mp member with queued | writing
    · exact List.mem_append_left _ (queue entry queued)
    · exact List.mem_append_right _ (outstanding ▸ writing)
  answered := by
    intro entry ok member
    rw [calls]
    exact answered.answered entry ok (completes ▸ member)

theorem do_write_answered (s : State B H) (answered : Answered s) : Answered s.doWrite := by
  cases queue : s.writeQueue with
  | nil =>
      have written : s.doWrite = { s with writing := false, writeQueue := [] } := by
        simp only [State.doWrite, queue, ite_self]
      rw [written]
      exact answered_frame s _ answered (Nat.le_refl _) rfl (by simp) rfl rfl fun _ => rfl
  | cons entry rest =>
      have written : s.doWrite =
          { s with writing := true, writeQueue := rest, outstanding := s.outstanding ++ [entry] }.emit (.handed entry) := by
        simp only [State.doWrite, queue]
      have hands : handed (s.trace ++ [.handed entry]) = handed s.trace ++ [entry] := by simp [handed]
      have calls : ∀ send, callsOf (s.trace ++ [.handed entry]) send = callsOf s.trace send := by simp [callsOf]
      have completes : completed (s.trace ++ [.handed entry]) = completed s.trace := by simp [completed]
      rw [written]
      refine ⟨?_, fun send later => (calls send).trans (answered.future send later), ?_, ?_⟩
      · simp only [State.emit, hands, completes, List.append_assoc]
        refine (answered.balance.append_right [entry]).trans ?_
        rw [List.append_assoc]
        exact List.perm_append_comm.append_left _
      · intro other member
        refine (calls other.send).trans (answered.waiting other ?_)
        simp only [State.emit, List.mem_append, List.mem_singleton] at member
        rw [queue]
        simp only [List.mem_append, List.mem_cons]
        tauto
      · intro other ok member
        refine (calls other.send).trans (answered.answered other ok ?_)
        exact completes ▸ member

theorem resume_answered (s : State B H) (frame : Frame) (answered : Answered s) : Answered (s.resume frame) := by
  cases frame with
  | rejected => exact answered
  | completed ok =>
      cases ok with
      | true => exact do_write_answered s answered
      | false => exact answered_frame s _ answered (Nat.le_refl _) rfl (by simp [State.resume]) rfl rfl fun _ => rfl

-- The numbers of the sends that are waiting, outstanding or completed.
theorem in_order_distinct (s : State B H) (inOrder : InOrder s) (answered : Answered s) :
    ((s.writeQueue ++ (s.outstanding ++ (completed s.trace).map Prod.fst)).map Entry.send).Nodup := by
  have ids : ((handed s.trace ++ s.writeQueue).map Entry.send).Nodup := by
    apply List.Nodup.sublist (inOrder.sublist.map Entry.send)
    rw [List.Nodup, List.pairwise_map]
    exact inOrder.numbered.imp Nat.ne_of_lt
  refine ((List.Perm.map Entry.send ?_).nodup_iff).mp ids
  exact List.perm_append_comm.trans (answered.balance.append_left _)

theorem in_order_below (s : State B H) (inOrder : InOrder s) (answered : Answered s) :
    ∀ entry ∈ s.writeQueue ++ (s.outstanding ++ (completed s.trace).map Prod.fst), entry.send < s.sends := by
  intro entry member
  refine inOrder.below entry (inOrder.sublist.subset ?_)
  rcases List.mem_append.mp member with queued | written
  · exact List.mem_append_right _ queued
  · exact List.mem_append_left _ (answered.balance.mem_iff.mpr written)

theorem called_answered (s : State B H) (stack : List Frame) (send : Nat) (ok : Bool) (answered : Answered s)
    (known : send < s.sends)
    (fresh : ∀ entry ∈ s.writeQueue ++ (s.outstanding ++ (completed s.trace).map Prod.fst), entry.send ≠ send) :
    Answered ({ s with stack := stack }.emit (.called send ok)) := by
  have calls : ∀ other, other ≠ send → callsOf (s.trace ++ [.called send ok]) other = callsOf s.trace other :=
    fun other differs => calls_of_other s.trace other send ok (Ne.symm differs)
  have completes : completed (s.trace ++ [.called send ok]) = completed s.trace := by simp [completed]
  have hands : handed (s.trace ++ [.called send ok]) = handed s.trace := by simp [handed]
  refine ⟨?_, fun other later => ?_, fun entry member => ?_, fun entry result member => ?_⟩
  · simp only [State.emit, hands, completes]
    exact answered.balance
  · exact (calls other (Nat.ne_of_gt (Nat.lt_of_lt_of_le known later))).trans (answered.future other later)
  · refine (calls entry.send (fresh entry ?_)).trans (answered.waiting entry member)
    rw [← List.append_assoc]
    exact List.mem_append_left _ member
  · have before : (entry, result) ∈ completed s.trace := completes ▸ member
    refine (calls entry.send (fresh entry ?_)).trans (answered.answered entry result before)
    exact List.mem_append_right _ (List.mem_append_right _ (List.mem_map_of_mem before))

theorem enqueue_answered (s : State B H) (buffers : B) (handler : Option H) (answered : Answered s) :
    Answered (State.enqueue { s with sends := s.sends + 1 } ⟨buffers, handler, s.sends⟩) := by
  have hands : handed (State.enqueue { s with sends := s.sends + 1 } ⟨buffers, handler, s.sends⟩).trace =
      handed s.trace := by simp [State.enqueue, State.emit, handed]
  have completes : completed (State.enqueue { s with sends := s.sends + 1 } ⟨buffers, handler, s.sends⟩).trace =
      completed s.trace := by simp [State.enqueue, State.emit, completed]
  have calls : ∀ send, callsOf (State.enqueue { s with sends := s.sends + 1 } ⟨buffers, handler, s.sends⟩).trace send =
      callsOf s.trace send := by simp [State.enqueue, State.emit, callsOf]
  refine ⟨?_, fun send later => ?_, fun entry member => ?_, fun entry ok member => ?_⟩
  · rw [hands, completes]
    exact answered.balance
  · rw [calls]
    exact answered.future send (Nat.le_of_succ_le later)
  · rw [calls]
    have cases : entry ∈ s.writeQueue ++ s.outstanding ∨ entry = ⟨buffers, handler, s.sends⟩ := by
      simp only [State.enqueue, State.emit, List.mem_append, List.mem_singleton] at member ⊢
      tauto
    rcases cases with old | rfl
    · exact answered.waiting entry old
    · exact answered.future _ (Nat.le_refl _)
  · rw [calls]
    exact answered.answered entry ok (completes ▸ member)

theorem async_send_answered (s : State B H) (buffers : B) (handler : Option H) (inOrder : InOrder s)
    (answered : Answered s) : Answered (s.asyncSend buffers handler) := by
  unfold State.asyncSend
  split
  · have refused : Answered (State.emit { s with sends := s.sends + 1 } (.rejected ⟨buffers, handler, s.sends⟩)) :=
      answered_frame s _ answered (Nat.le_succ _) rfl (fun _ queued => queued) (by simp [State.emit, handed])
        (by simp [State.emit, completed]) (by simp [State.emit, callsOf])
    cases handler with
    | none => exact refused
    | some handler =>
        refine called_answered _ _ s.sends false refused (Nat.lt_succ_self _) fun entry member => Nat.ne_of_lt ?_
        have completes : completed (s.trace ++ [.rejected ⟨buffers, some handler, s.sends⟩]) = completed s.trace := by
          simp [completed]
        simp only [State.emit, completes] at member
        exact in_order_below s inOrder answered entry member
  · split
    · exact enqueue_answered s buffers handler answered
    · exact do_write_answered _ (enqueue_answered s buffers handler answered)

theorem completed_answered (s after : State B H) (i : Nat) (entry : Entry B H) (ok : Bool)
    (found : s.outstanding[i]? = some entry) (inOrder : InOrder s) (answered : Answered s)
    (sends : after.sends = s.sends) (queue : after.writeQueue = s.writeQueue)
    (outstanding : after.outstanding = s.outstanding.eraseIdx i) (hands : handed after.trace = handed s.trace)
    (completes : completed after.trace = completed s.trace ++ [(entry, ok)])
    (calls : ∀ send, callsOf after.trace send =
      callsOf s.trace send ++ if send = entry.send ∧ entry.handler.isSome then [ok] else []) : Answered after := by
  have inside := (List.getElem?_eq_some_iff.mp found).1
  have split : (entry :: s.outstanding.eraseIdx i).Perm s.outstanding := by
    have here := (List.getElem?_eq_some_iff.mp found).2
    exact here ▸ List.getElem_cons_eraseIdx_perm inside
  have distinct := in_order_distinct s inOrder answered
  have others : ∀ other ∈ s.writeQueue ++ (s.outstanding.eraseIdx i ++ (completed s.trace).map Prod.fst),
      other.send ≠ entry.send := by
    have moved : (entry :: (s.writeQueue ++ (s.outstanding.eraseIdx i ++ (completed s.trace).map Prod.fst))).Perm
        (s.writeQueue ++ (s.outstanding ++ (completed s.trace).map Prod.fst)) :=
      List.perm_middle.symm.trans ((split.append_right _).append_left _)
    have apart := (((moved.map Entry.send).nodup_iff).mpr distinct)
    rw [List.map_cons, List.nodup_cons] at apart
    exact fun other member same => apart.1 (same ▸ List.mem_map_of_mem member)
  have same : ∀ other : Entry B H, other.send ≠ entry.send → callsOf after.trace other.send = callsOf s.trace other.send := by
    intro other differs
    rw [calls, if_neg fun both => differs both.1, List.append_nil]
  refine ⟨?_, fun send later => ?_, fun other member => ?_, fun other result member => ?_⟩
  · rw [hands, completes, outstanding, List.map_append]
    refine answered.balance.trans ((split.symm.append_right _).trans ?_)
    rw [← List.append_assoc]
    exact @List.perm_append_comm _ [entry] _
  · have below := in_order_below s inOrder answered entry
      (List.mem_append_right _ (List.mem_append_left _ (List.mem_of_getElem? found)))
    rw [calls, if_neg fun both => by omega, List.append_nil]
    exact answered.future send (sends ▸ later)
  · rw [queue, outstanding] at member
    have early : other ∈ s.writeQueue ++ (s.outstanding.eraseIdx i ++ (completed s.trace).map Prod.fst) := by
      rw [← List.append_assoc]
      exact List.mem_append_left _ member
    rw [same other (others other early)]
    apply answered.waiting other
    rcases List.mem_append.mp member with queued | writing
    · exact List.mem_append_left _ queued
    · exact List.mem_append_right _ (List.mem_of_mem_eraseIdx writing)
  · rw [completes] at member
    rcases List.mem_append.mp member with old | new
    · rw [same other (others other ?_)]
      · exact answered.answered other result old
      · exact List.mem_append_right _ (List.mem_append_right _ (List.mem_map_of_mem old))
    · obtain ⟨rfl, rfl⟩ := Prod.mk.inj (List.mem_singleton.mp new)
      rw [calls, answered.waiting other (List.mem_append_right _ (List.mem_of_getElem? found)), List.nil_append]
      simp

theorem complete_answered (s : State B H) (i : Nat) (entry : Entry B H) (ok : Bool)
    (found : s.outstanding[i]? = some entry) (inOrder : InOrder s) (answered : Answered s) :
    Answered (s.complete i entry ok) := by
  unfold State.complete State.answer
  split
  · rename_i silent
    refine resume_answered _ _ (completed_answered s _ i entry ok found inOrder answered rfl rfl rfl ?_ ?_ ?_)
    · simp [State.emit, handed]
    · simp [State.emit, completed]
    · simp [State.emit, callsOf, silent]
  · rename_i handler present
    refine completed_answered s _ i entry ok found inOrder answered rfl rfl rfl ?_ ?_ ?_
    · simp [State.emit, handed]
    · simp [State.emit, completed]
    · intro send
      by_cases same : send = entry.send
      · simp [State.emit, callsOf, present, same]
      · simp [State.emit, callsOf, same, Ne.symm same]

theorem reachable_answered (guard : State B H → Action B H → Prop) (maxQueue : Nat) (s : State B H)
    (reachable : Machine.Reachable step guard (construct maxQueue) s) : Answered s := by
  refine Machine.reachable_invariant step guard _ Answered ?_ ?_ s reachable
  · refine ⟨List.Perm.refl _, fun _ _ => rfl, ?_, ?_⟩ <;> simp [construct, completed]
  · intro before action after earlier answered _ taken
    have inOrder := reachable_in_order guard maxQueue before earlier
    refine step_preserves Answered before after action taken ?_ ?_ ?_ ?_ ?_
    · exact fun buffers handler _ => async_send_answered before buffers handler inOrder answered
    · exact fun _ _ => answered_frame before _ answered (Nat.le_refl _) rfl (fun _ queued => queued) rfl rfl fun _ => rfl
    · intro force _
      cases force <;> exact answered_frame before _ answered (Nat.le_refl _) rfl (by simp [State.close, State.emit])
        (by simp [State.close, State.emit, handed]) (by simp [State.close, State.emit, completed])
        (by simp [State.close, State.emit, callsOf])
    · exact fun i entry ok _ _ found => complete_answered before i entry ok found inOrder answered
    · intro frame rest _ _
      exact resume_answered _ frame
        (answered_frame before _ answered (Nat.le_refl _) rfl (fun _ queued => queued) rfl rfl fun _ => rfl)

structure Settled (s : State B H) : Prop where
  whole : handed s.trace ++ s.writeQueue = accepted s.trace
  flag : s.writing = true ↔ s.outstanding.length = 1
  busy : s.writeQueue ≠ [] → s.writing = true
  called : ∀ entry ok, (entry, ok) ∈ completed s.trace →
    ok = true ∧ (entry.handler ≠ none → callsOf s.trace entry.send = [true])

def Succeeded (s : State B H) : Prop := ∀ entry ok, (entry, ok) ∈ completed s.trace → ok = true

theorem do_write_completes (s : State B H) : completed s.doWrite.trace = completed s.trace := by
  unfold State.doWrite
  split
  · rfl
  · simp [State.emit, completed]

theorem resume_completes (s : State B H) (frame : Frame) : completed (s.resume frame).trace = completed s.trace := by
  cases frame with
  | rejected => rfl
  | completed ok =>
      cases ok with
      | true => exact do_write_completes s
      | false => rfl

theorem answer_completes (s : State B H) (entry : Entry B H) (ok : Bool) (frame : Frame) :
    completed (s.answer entry ok frame).trace = completed s.trace := by
  unfold State.answer
  split
  · exact resume_completes s frame
  · simp [State.emit, completed]

theorem async_send_completes (s : State B H) (buffers : B) (handler : Option H) :
    completed (s.asyncSend buffers handler).trace = completed s.trace := by
  unfold State.asyncSend
  split
  · rw [answer_completes]
    simp [State.emit, completed]
  · split
    · simp [State.enqueue, State.emit, completed]
    · rw [do_write_completes]
      simp [State.enqueue, State.emit, completed]

theorem reachable_succeeded (maxQueue : Nat) (s : State B H)
    (reachable : Machine.Reachable step Undisturbed (construct maxQueue) s) : Succeeded s := by
  refine Machine.reachable_invariant step Undisturbed _ Succeeded ?_ ?_ s reachable
  · simp [Succeeded, construct, completed]
  · intro before action after _ succeeded calm taken
    refine step_preserves Succeeded before after action taken ?_ ?_ ?_ ?_ ?_
    · intro buffers handler _
      rw [Succeeded, async_send_completes]
      exact succeeded
    · exact fun _ _ => succeeded
    · intro force _
      have same : completed (before.close force).trace = completed before.trace := by
        cases force <;> simp [State.close, State.emit, completed]
      rw [Succeeded, same]
      exact succeeded
    · rintro i entry ok rfl _ _
      have more : completed (before.complete i entry ok).trace = completed before.trace ++ [(entry, ok)] := by
        rw [State.complete, answer_completes]
        simp [State.emit, completed]
      rw [Succeeded, more]
      intro other result member
      rcases List.mem_append.mp member with old | new
      · exact succeeded other result old
      · rw [(Prod.mk.inj (List.mem_singleton.mp new)).2]
        exact calm
    · intro frame rest _ _
      rw [Succeeded, resume_completes]
      exact succeeded

theorem writes_in_order (maxQueue : Nat) :
    (∀ s : State B H, Machine.Reachable step (fun _ _ => True) (construct maxQueue) s →
      (handed s.trace).Sublist (accepted s.trace) ∧ ((accepted s.trace).map Entry.send).Nodup) ∧
    (∀ s : State B H, Machine.Reachable step Undisturbed (construct maxQueue) s → s.stack = [] → Settled s) := by
  constructor
  · intro s reachable
    have inOrder := reachable_in_order _ maxQueue s reachable
    refine ⟨(List.sublist_append_left _ _).trans inOrder.sublist, ?_⟩
    rw [List.Nodup, List.pairwise_map]
    exact inOrder.numbered.imp Nat.ne_of_lt
  · intro s reachable quiet
    have steady := reachable_steady maxQueue s reachable
    have answered := reachable_answered _ maxQueue s reachable
    have flag := steady.flag
    rw [State.pending, quiet] at flag
    refine ⟨steady.whole, flag, steady.busy, fun entry ok member => ?_⟩
    have success := reachable_succeeded maxQueue s reachable entry ok member
    refine ⟨success, fun handler => ?_⟩
    rw [answered.answered entry ok member, success, if_pos (Option.isSome_iff_ne_none.mpr handler)]

-- The handler of the first write sends again before DoWrite is called.
theorem writes_in_order_reentrant :
    ∃ s : State Nat Nat, Machine.Reachable step Undisturbed (construct 1024) s ∧ Settled s ∧
      (handed s.trace).map Entry.buffers = [7, 8] ∧ s.writeQueue.map Entry.buffers = [9] ∧ callsOf s.trace 0 = [true] := by
  obtain ⟨s, reachable, shown⟩ := Machine.run_exhibits step Undisturbed (construct 1024)
    ([.asyncSend 7 (some 0), .asyncSend 8 none, .complete 0 true, .asyncSend 9 none, .handlerReturns] :
      List (Action Nat Nat))
    (fun s => s.stack == [] && (handed s.trace).map Entry.buffers == [7, 8] && s.writeQueue.map Entry.buffers == [9] &&
      callsOf s.trace 0 == [true]) (by decide)
  simp only [Bool.and_eq_true, beq_iff_eq] at shown
  obtain ⟨⟨⟨quiet, hands⟩, waits⟩, calls⟩ := shown
  exact ⟨s, reachable, (writes_in_order 1024).2 s reachable quiet, hands, waits, calls⟩

end Vectro.Stream
