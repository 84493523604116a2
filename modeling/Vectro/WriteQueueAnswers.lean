import Vectro.WriteQueueOrder

set_option autoImplicit false

namespace Vectro.Stream

open Traces

variable {B H : Type}

def refused (log : List (Event B H)) : List (Entry B H) :=
  log.filterMap fun
    | .rejected entry => some entry
    | _ => none

-- Where the handler of a send can be. A handler that has been called is told
-- whether its buffers were written.
inductive Place where
  | waiting
  | writing
  | called (ok : Bool)

def copies (entries : List (Entry B H)) (send : Nat) : Nat := entries.countP fun entry => entry.send == send

def Stands (s : State B H) (entry : Entry B H) : Place → Prop
  | .waiting => copies s.writeQueue entry.send = 1 ∧ copies s.outstanding entry.send = 0 ∧ callsOf s.trace entry.send = []
  | .writing => copies s.writeQueue entry.send = 0 ∧ copies s.outstanding entry.send = 1 ∧ callsOf s.trace entry.send = []
  | .called ok =>
      copies s.writeQueue entry.send = 0 ∧ copies s.outstanding entry.send = 0 ∧ callsOf s.trace entry.send = [ok] ∧
        (if ok then (entry, true) ∈ completed s.trace
        else entry ∈ refused s.trace ∨ (entry, false) ∈ completed s.trace)

def EachAnswered (s : State B H) : Prop :=
  ∀ entry ∈ accepted s.trace ++ refused s.trace, entry.handler ≠ none → ∃! place, Stands s entry place

-- Nobody listens for what is waiting.
def State.unheard (s : State B H) : Prop := ∀ entry ∈ s.writeQueue, entry.handler = none

-- The queue is cleared by a forced Close and at the end of the completion of a
-- failed write; neither calls the handlers of what it throws away.
def DiscardsUnheard (s : State B H) : Action B H → Prop
  | .close true => s.unheard
  | .complete i false => ∀ entry ∈ s.outstanding[i]?, entry.handler = none → s.unheard
  | .handlerReturns => s.stack.head? = some (.completed false) → s.unheard
  | _ => True

instance (s : State B H) : Decidable s.unheard :=
  inferInstanceAs (Decidable (∀ entry ∈ s.writeQueue, entry.handler = none))

instance (s : State B H) (action : Action B H) : Decidable (DiscardsUnheard s action) :=
  match action with
  | .close true => inferInstanceAs (Decidable s.unheard)
  | .complete i false => inferInstanceAs (Decidable (∀ entry ∈ s.outstanding[i]?, entry.handler = none → s.unheard))
  | .handlerReturns => inferInstanceAs (Decidable (s.stack.head? = some (.completed false) → s.unheard))
  | .close false | .complete _ true | .asyncSend .. | .enableMaxQueue .. => isTrue trivial

structure Kept (s : State B H) : Prop where
  kept : ∀ entry ∈ accepted s.trace, entry.handler ≠ none → entry ∈ handed s.trace ++ s.writeQueue
  below : ∀ entry ∈ refused s.trace, entry.send < s.sends
  apart : ∀ entry ∈ refused s.trace, ∀ other ∈ accepted s.trace, other.send ≠ entry.send
  told : ∀ entry ∈ refused s.trace, entry.handler ≠ none → callsOf s.trace entry.send = [false]

-- The part that is about refusals: it holds in every run.
structure Told (s : State B H) : Prop where
  below : ∀ entry ∈ refused s.trace, entry.send < s.sends
  apart : ∀ entry ∈ refused s.trace, ∀ other ∈ accepted s.trace, other.send ≠ entry.send
  told : ∀ entry ∈ refused s.trace, callsOf s.trace entry.send = entry.handler.toList.map fun _ => false

theorem told_frame (s after : State B H) (told : Told s) (sends : s.sends ≤ after.sends)
    (accepts : accepted after.trace = accepted s.trace) (refuses : refused after.trace = refused s.trace)
    (calls : ∀ entry ∈ refused s.trace, callsOf after.trace entry.send = callsOf s.trace entry.send) : Told after where
  below := fun entry member => Nat.lt_of_lt_of_le (told.below entry (refuses ▸ member)) sends
  apart := fun entry member other taken => told.apart entry (refuses ▸ member) other (accepts ▸ taken)
  told := by
    intro entry member
    rw [refuses] at member
    exact (calls entry member).trans (told.told entry member)

theorem do_write_told (s : State B H) (told : Told s) : Told s.doWrite := by
  refine told_frame s _ told (Nat.le_of_eq (do_write_sends s).symm) (do_write_accepts s) ?_ ?_
  · unfold State.doWrite
    split
    · rfl
    · exact filter_map_quiet _ _ _ rfl
  · intro entry _
    unfold State.doWrite
    split
    · rfl
    · exact filter_map_quiet _ _ _ rfl

theorem resume_told (s : State B H) (frame : Frame) (told : Told s) : Told (s.resume frame) := by
  cases frame with
  | rejected => exact told
  | completed ok =>
      cases ok with
      | true => exact do_write_told s told
      | false => exact told_frame s _ told (Nat.le_refl _) rfl rfl fun _ _ => rfl

-- A call for a send that has not been refused.
theorem answer_told (s : State B H) (entry : Entry B H) (ok : Bool) (frame : Frame) (told : Told s)
    (fresh : ∀ other ∈ refused s.trace, other.send ≠ entry.send) : Told (s.answer entry ok frame) := by
  unfold State.answer
  split
  · exact resume_told s frame told
  · refine told_frame s _ told (Nat.le_refl _) (filter_map_quiet _ _ _ rfl) (filter_map_quiet _ _ _ rfl) ?_
    intro other member
    exact calls_of_other _ _ _ _ (Ne.symm (fresh other member))

theorem rejected_told (s after : State B H) (entry : Entry B H) (told : Told s) (inOrder : InOrder s)
    (number : entry.send = s.sends) (sends : after.sends = s.sends + 1)
    (accepts : accepted after.trace = accepted s.trace) (refuses : refused after.trace = refused s.trace ++ [entry])
    (calls : ∀ send, send ≠ s.sends → callsOf after.trace send = callsOf s.trace send)
    (once : callsOf after.trace s.sends = entry.handler.toList.map fun _ => false) : Told after where
  below := by
    rw [refuses, sends]
    intro other member
    rcases List.mem_append.mp member with old | new
    · exact Nat.lt_succ_of_lt (told.below other old)
    · rw [List.mem_singleton.mp new, number]
      exact Nat.lt_succ_self _
  apart := by
    rw [refuses, accepts]
    intro other member taken found
    rcases List.mem_append.mp member with old | new
    · exact told.apart other old taken found
    · rw [List.mem_singleton.mp new, number]
      exact Nat.ne_of_lt (inOrder.below taken found)
  told := by
    rw [refuses]
    intro other member
    rcases List.mem_append.mp member with old | new
    · rw [calls other.send (Nat.ne_of_lt (told.below other old))]
      exact told.told other old
    · cases List.mem_singleton.mp new
      rw [number]
      exact once

theorem enqueue_told (s : State B H) (buffers : B) (handler : Option H) (told : Told s) :
    Told (State.enqueue { s with sends := s.sends + 1 } ⟨buffers, handler, s.sends⟩) := by
  have accepts : accepted (s.trace ++ [.accepted ⟨buffers, handler, s.sends⟩]) =
      accepted s.trace ++ [⟨buffers, handler, s.sends⟩] := filter_map_logs _ _ _ _ rfl
  have refuses : refused (s.trace ++ [.accepted ⟨buffers, handler, s.sends⟩]) = refused s.trace :=
    filter_map_quiet _ _ _ rfl
  have calls : ∀ send, callsOf (s.trace ++ [.accepted ⟨buffers, handler, s.sends⟩]) send = callsOf s.trace send :=
    fun _ => filter_map_quiet _ _ _ rfl
  refine ⟨?_, ?_, ?_⟩
  · simp only [State.enqueue, State.emit, refuses]
    exact fun entry member => Nat.lt_succ_of_lt (told.below entry member)
  · simp only [State.enqueue, State.emit, refuses, accepts]
    intro entry member other taken
    rcases List.mem_append.mp taken with old | new
    · exact told.apart entry member other old
    · rw [List.mem_singleton.mp new]
      exact Nat.ne_of_gt (told.below entry member)
  · simp only [State.enqueue, State.emit, refuses, calls]
    exact told.told

theorem async_send_told (s : State B H) (buffers : B) (handler : Option H) (told : Told s) (inOrder : InOrder s)
    (answered : Answered s) : Told (s.asyncSend buffers handler) := by
  have before : callsOf (s.trace ++ [.rejected ⟨buffers, handler, s.sends⟩]) s.sends = [] :=
    (filter_map_quiet _ _ _ rfl).trans (answered.future _ (Nat.le_refl _))
  unfold State.asyncSend
  split
  · cases handler with
    | none =>
        refine rejected_told s _ ⟨buffers, none, s.sends⟩ told inOrder rfl rfl ?_ ?_ ?_ before
        · exact filter_map_quiet _ _ _ rfl
        · exact filter_map_logs _ _ _ _ rfl
        · exact fun _ _ => filter_map_quiet _ _ _ rfl
    | some handler =>
        refine rejected_told s _ ⟨buffers, some handler, s.sends⟩ told inOrder rfl rfl ?_ ?_ ?_ ?_
        · exact (filter_map_quiet _ _ _ rfl).trans (filter_map_quiet _ _ _ rfl)
        · exact (filter_map_quiet _ _ _ rfl).trans (filter_map_logs _ _ _ _ rfl)
        · intro send other
          exact (calls_of_other _ _ _ _ (Ne.symm other)).trans (filter_map_quiet _ _ _ rfl)
        · exact (calls_of_called _ _ _).trans (congrArg (· ++ [false]) before)
  · split
    · exact enqueue_told s buffers handler told
    · exact do_write_told _ (enqueue_told s buffers handler told)

theorem complete_told (s : State B H) (i : Nat) (entry : Entry B H) (ok : Bool) (found : s.outstanding[i]? = some entry)
    (told : Told s) (inOrder : InOrder s) (answered : Answered s) : Told (s.complete i entry ok) := by
  have written : entry ∈ handed s.trace :=
    answered.balance.mem_iff.mpr (List.mem_append_left _ (List.mem_of_getElem? found))
  have taken : entry ∈ accepted s.trace := inOrder.sublist.subset (List.mem_append_left _ written)
  have quiet : refused (s.trace ++ [.completed entry ok]) = refused s.trace := filter_map_quiet _ _ _ rfl
  refine answer_told _ entry ok _ (told_frame s _ told (Nat.le_refl _) (filter_map_quiet _ _ _ rfl) quiet ?_) ?_
  · exact fun _ _ => filter_map_quiet _ _ _ rfl
  · intro other member same
    simp only [State.emit, quiet] at member
    exact told.apart other member entry taken same.symm

theorem reachable_told (guard : State B H → Action B H → Prop) (maxQueue : Nat) (s : State B H)
    (reachable : Machine.Reachable step guard (construct maxQueue) s) : Told s := by
  refine Machine.reachable_invariant step guard _ Told ?_ ?_ s reachable
  · refine ⟨?_, ?_, ?_⟩ <;> simp [construct, refused]
  · intro before action after earlier told _ taken
    have inOrder := reachable_in_order _ maxQueue before earlier
    have answered := reachable_answered _ maxQueue before earlier
    refine step_preserves Told before after action taken ?_ ?_ ?_ ?_ ?_
    · exact fun buffers handler _ => async_send_told before buffers handler told inOrder answered
    · exact fun _ _ => told_frame before _ told (Nat.le_refl _) rfl rfl fun _ _ => rfl
    · intro force _
      cases force <;>
        exact told_frame before _ told (Nat.le_refl _) (filter_map_quiet _ _ _ rfl) (filter_map_quiet _ _ _ rfl)
          fun _ _ => filter_map_quiet _ _ _ rfl
    · exact fun i entry ok _ _ found => complete_told before i entry ok found told inOrder answered
    · intro frame rest _ _
      exact resume_told _ frame (told_frame before _ told (Nat.le_refl _) rfl rfl fun _ _ => rfl)

-- What has a handler leaves the queue only to be written.
def Keeps (s : State B H) : Prop :=
  ∀ entry ∈ accepted s.trace, entry.handler ≠ none → entry ∈ handed s.trace ++ s.writeQueue

theorem do_write_keeps (s : State B H) (keeps : Keeps s) : Keeps s.doWrite := by
  rw [Keeps, do_write_accepts, do_write_hands]
  exact keeps

theorem resume_keeps (s : State B H) (frame : Frame) (keeps : Keeps s) (unheard : frame = .completed false → s.unheard) :
    Keeps (s.resume frame) := by
  cases frame with
  | rejected => exact keeps
  | completed ok =>
      cases ok with
      | true => exact do_write_keeps s keeps
      | false =>
          intro entry member heard
          rcases List.mem_append.mp (keeps entry member heard) with written | queued
          · exact List.mem_append_left _ written
          · exact absurd (unheard rfl entry queued) heard

-- Events that are about something else.
theorem keeps_quiet (s : State B H) (event : Event B H) (keeps : Keeps s)
    (unaccepted : accepted [event] = [] := by rfl) (unhanded : handed [event] = [] := by rfl) : Keeps (s.emit event) := by
  have accepts : accepted (s.trace ++ [event]) = accepted s.trace ++ accepted [event] := List.filterMap_append
  have hands : handed (s.trace ++ [event]) = handed s.trace ++ handed [event] := List.filterMap_append
  rw [unaccepted, List.append_nil] at accepts
  rw [unhanded, List.append_nil] at hands
  simp only [Keeps, State.emit, accepts, hands]
  exact keeps

theorem answer_keeps (s : State B H) (entry : Entry B H) (ok : Bool) (frame : Frame) (keeps : Keeps s)
    (unheard : entry.handler = none → frame = .completed false → s.unheard) : Keeps (s.answer entry ok frame) := by
  unfold State.answer
  split
  · rename_i silent
    exact resume_keeps s frame keeps (unheard silent)
  · exact keeps_quiet { s with stack := frame :: s.stack } _ keeps

theorem enqueue_keeps (s : State B H) (entry : Entry B H) (keeps : Keeps s) : Keeps (s.enqueue entry) := by
  have accepts : accepted (s.trace ++ [.accepted entry]) = accepted s.trace ++ [entry] := filter_map_logs _ _ _ _ rfl
  have hands : handed (s.trace ++ [.accepted entry]) = handed s.trace := filter_map_quiet _ _ _ rfl
  simp only [Keeps, State.enqueue, State.emit, accepts, hands]
  intro other member heard
  rw [← List.append_assoc]
  rcases List.mem_append.mp member with old | new
  · exact List.mem_append_left _ (keeps other old heard)
  · exact List.mem_append_right _ new

theorem async_send_keeps (s : State B H) (buffers : B) (handler : Option H) (keeps : Keeps s) :
    Keeps (s.asyncSend buffers handler) := by
  unfold State.asyncSend
  split
  · refine answer_keeps _ _ false .rejected (keeps_quiet { s with sends := s.sends + 1 } _ keeps) ?_
    rintro _ ⟨⟩
  · split
    · exact enqueue_keeps { s with sends := s.sends + 1 } _ keeps
    · exact do_write_keeps _ (enqueue_keeps { s with sends := s.sends + 1 } _ keeps)

theorem reachable_keeps (maxQueue : Nat) (s : State B H)
    (reachable : Machine.Reachable step DiscardsUnheard (construct maxQueue) s) : Keeps s := by
  refine Machine.reachable_invariant step DiscardsUnheard _ Keeps ?_ ?_ s reachable
  · simp [Keeps, construct, accepted]
  · intro before action after _ keeps unheard taken
    refine step_preserves Keeps before after action taken ?_ ?_ ?_ ?_ ?_
    · exact fun buffers handler _ => async_send_keeps before buffers handler keeps
    · exact fun _ _ => keeps
    · rintro force rfl
      cases force with
      | true =>
          refine keeps_quiet { before with writeQueue := [], writing := false } _ fun entry member heard => ?_
          rcases List.mem_append.mp (keeps entry member heard) with written | queued
          · exact List.mem_append_left _ written
          · exact absurd (unheard entry queued) heard
      | false => exact keeps_quiet { before with gracefulShutdown := true } _ keeps
    · rintro i entry ok rfl _ found
      refine answer_keeps _ entry ok _ (keeps_quiet { before with outstanding := before.outstanding.eraseIdx i } _ keeps) ?_
      intro silent failed
      obtain rfl : ok = false := by simpa using failed
      exact unheard entry found silent
    · rintro frame rest rfl stack
      apply resume_keeps { before with stack := rest } frame keeps
      rintro rfl
      exact unheard (by rw [stack]; rfl)

theorem reachable_kept (maxQueue : Nat) (s : State B H)
    (reachable : Machine.Reachable step DiscardsUnheard (construct maxQueue) s) : Kept s := by
  have told := reachable_told _ maxQueue s reachable
  refine ⟨reachable_keeps maxQueue s reachable, told.below, told.apart, ?_⟩
  intro entry member heard
  obtain ⟨handler, present⟩ := Option.ne_none_iff_exists'.mp heard
  rw [told.told entry member, present]
  rfl

theorem copies_count (entries : List (Entry B H)) (send : Nat) :
    copies entries send = (entries.map Entry.send).count send := by
  rw [copies, List.count, List.countP_map]
  rfl

theorem copies_one (entries : List (Entry B H)) (distinct : (entries.map Entry.send).Nodup) (entry : Entry B H)
    (member : entry ∈ entries) : copies entries entry.send = 1 := by
  rw [copies_count]
  exact List.count_eq_one_of_mem distinct (List.mem_map_of_mem member)

theorem copies_zero (entries : List (Entry B H)) (send : Nat) (others : ∀ entry ∈ entries, entry.send ≠ send) :
    copies entries send = 0 := by
  apply List.countP_eq_zero.mpr
  intro entry member
  simpa using others entry member

theorem stands_unique (s : State B H) (entry : Entry B H) (first second : Place) (stands : Stands s entry first)
    (also : Stands s entry second) : second = first := by
  cases first with
  | waiting =>
      cases second with
      | waiting => rfl
      | writing => exact absurd (stands.1.symm.trans also.1) (by decide)
      | called ok => exact absurd (stands.2.2.symm.trans also.2.2.1) (by simp)
  | writing =>
      cases second with
      | waiting => exact absurd (stands.1.symm.trans also.1) (by decide)
      | writing => rfl
      | called ok => exact absurd (stands.2.2.symm.trans also.2.2.1) (by simp)
  | called ok =>
      cases second with
      | waiting => exact absurd (stands.2.2.1.symm.trans also.2.2) (by simp)
      | writing => exact absurd (stands.2.2.1.symm.trans also.2.2) (by simp)
      | called other =>
          have same := stands.2.2.1.symm.trans also.2.2.1
          rw [List.singleton_inj.mp same]

theorem accepted_stands (s : State B H) (kept : Kept s) (inOrder : InOrder s) (answered : Answered s)
    (entry : Entry B H) (member : entry ∈ accepted s.trace) (heard : entry.handler ≠ none) :
    ∃ place, Stands s entry place := by
  have distinct := in_order_distinct s inOrder answered
  rw [List.map_append, List.map_append, List.nodup_append] at distinct
  obtain ⟨queueDistinct, written, queueApart⟩ := distinct
  rw [List.nodup_append] at written
  obtain ⟨outstandingDistinct, _, outstandingApart⟩ := written
  rcases List.mem_append.mp (kept.kept entry member heard) with hands | queued
  · have absent : copies s.writeQueue entry.send = 0 := by
      refine copies_zero _ _ fun other found => queueApart _ (List.mem_map_of_mem found) _ ?_
      rw [← List.map_append]
      exact List.mem_map_of_mem (answered.balance.mem_iff.mp hands)
    rcases List.mem_append.mp (answered.balance.mem_iff.mp hands) with writing | ended
    · exact ⟨.writing, absent, copies_one _ outstandingDistinct entry writing,
        answered.waiting entry (List.mem_append_right _ writing)⟩
    · obtain ⟨⟨other, ok⟩, found, rfl⟩ := List.mem_map.mp ended
      have gone : copies s.outstanding other.send = 0 :=
        copies_zero _ _ fun another writes =>
          outstandingApart _ (List.mem_map_of_mem writes) _ (List.mem_map_of_mem (List.mem_map_of_mem found))
      have calls := answered.answered other ok found
      rw [if_pos (Option.isSome_iff_ne_none.mpr heard)] at calls
      refine ⟨.called ok, absent, gone, calls, ?_⟩
      cases ok with
      | true => exact found
      | false => exact .inr found
  · refine ⟨.waiting, copies_one _ queueDistinct entry queued, copies_zero _ _ fun other writes same => ?_,
      answered.waiting entry (List.mem_append_left _ queued)⟩
    refine queueApart _ (List.mem_map_of_mem queued) _ ?_ same.symm
    exact List.mem_append_left _ (List.mem_map_of_mem writes)

theorem refused_stands (s : State B H) (kept : Kept s) (inOrder : InOrder s) (answered : Answered s)
    (entry : Entry B H) (member : entry ∈ refused s.trace) (heard : entry.handler ≠ none) :
    Stands s entry (.called false) := by
  have apart : ∀ other ∈ handed s.trace ++ s.writeQueue, other.send ≠ entry.send := fun other found =>
    kept.apart entry member other (inOrder.sublist.subset found)
  refine ⟨copies_zero _ _ fun other queued => apart other (List.mem_append_right _ queued),
    copies_zero _ _ fun other writes => apart other (List.mem_append_left _ ?_), kept.told entry member heard, .inl member⟩
  exact answered.balance.mem_iff.mpr (List.mem_append_left _ writes)

theorem each_send_answered (maxQueue : Nat) (s : State B H)
    (reachable : Machine.Reachable step DiscardsUnheard (construct maxQueue) s) : EachAnswered s := by
  have kept := reachable_kept maxQueue s reachable
  have inOrder := reachable_in_order _ maxQueue s reachable
  have answered := reachable_answered _ maxQueue s reachable
  intro entry member heard
  have somewhere : ∃ place, Stands s entry place := by
    rcases List.mem_append.mp member with taken | turned
    · exact accepted_stands s kept inOrder answered entry taken heard
    · exact ⟨_, refused_stands s kept inOrder answered entry turned heard⟩
  obtain ⟨place, stands⟩ := somewhere
  exact ⟨place, stands, fun other also => stands_unique s entry place other stands also⟩

-- The second send is waiting for the first when the queue is forced shut.
def discardedSend : List (Action Nat Nat) := [.asyncSend 7 none, .asyncSend 8 (some 0), .close true]

theorem handler_discarded :
    ¬ ∀ s : State Nat Nat, Machine.Reachable step (fun _ _ => True) (construct 1024) s → EachAnswered s := by
  intro claimed
  obtain ⟨s, reachable, shown⟩ := Machine.run_exhibits step (fun _ _ => True) (construct 1024) discardedSend
    (fun s => (accepted s.trace).contains ⟨8, some 0, 1⟩ && copies s.writeQueue 1 == 0 && copies s.outstanding 1 == 0 &&
      callsOf s.trace 1 == []) (by decide)
  simp only [Bool.and_eq_true, List.contains_iff_mem, beq_iff_eq] at shown
  obtain ⟨⟨⟨sent, unqueued⟩, unwritten⟩, uncalled⟩ := shown
  obtain ⟨place, stands, _⟩ := claimed s reachable _ (List.mem_append_left _ sent) (by simp)
  cases place with
  | waiting => exact absurd (unqueued.symm.trans stands.1) (by decide)
  | writing => exact absurd (unwritten.symm.trans stands.2.1) (by decide)
  | called ok => exact absurd (uncalled.symm.trans stands.2.2.1) (by simp)

-- One handler has been told of its write, one of its rejection, and the third
-- belongs to the write that is outstanding.
theorem each_send_answered_mixed :
    ∃ s : State Nat Nat, Machine.Reachable step DiscardsUnheard (construct 1) s ∧ EachAnswered s ∧
      callsOf s.trace 0 = [true] ∧ callsOf s.trace 1 = [] ∧ callsOf s.trace 2 = [false] := by
  obtain ⟨s, reachable, shown⟩ := Machine.run_exhibits step DiscardsUnheard (construct 1)
    ([.asyncSend 7 (some 0), .asyncSend 8 (some 1), .asyncSend 9 (some 2), .handlerReturns, .complete 0 true,
      .handlerReturns, .close true] : List (Action Nat Nat))
    (fun s => callsOf s.trace 0 == [true] && callsOf s.trace 1 == [] && callsOf s.trace 2 == [false]) (by decide)
  simp only [Bool.and_eq_true, beq_iff_eq] at shown
  exact ⟨s, reachable, each_send_answered 1 s reachable, shown.1.1, shown.1.2, shown.2⟩

end Vectro.Stream
