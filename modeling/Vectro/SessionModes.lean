import Vectro.SessionGraceful

set_option autoImplicit false

namespace Vectro.Session

open Traces

variable {B : Type}

-- The direct path and the write queue follow one discipline: what waits, the
-- writes that are outstanding, and the flag that says there is one.
structure Lane {E : Type} (waiting outstanding : List E) (flag : Bool) : Prop where
  single : outstanding.length ≤ 1
  busy : outstanding ≠ [] → flag = true
  waits : waiting ≠ [] → flag = true
  flag : flag = true → outstanding.length = 1

theorem lane_rests {E : Type} : Lane ([] : List E) [] false :=
  ⟨Nat.zero_le 1, fun busy => absurd rfl busy, fun waits => absurd rfl waits, fun flagged => nomatch flagged⟩

theorem lane_writes {E : Type} (first : E) (rest : List E) : Lane rest [first] true :=
  ⟨Nat.le_refl 1, fun _ => rfl, fun _ => rfl, fun _ => rfl⟩

theorem lane_idle {E : Type} (waiting outstanding : List E) (lane : Lane waiting outstanding false) :
    waiting = [] ∧ outstanding = [] := by
  constructor
  · by_contra waits
    exact absurd (lane.waits waits) (by decide)
  · by_contra busy
    exact absurd (lane.busy busy) (by decide)

theorem lane_queues {E : Type} (waiting outstanding : List E) (more : E) (lane : Lane waiting outstanding true) :
    Lane (waiting ++ [more]) outstanding true :=
  ⟨lane.single, lane.busy, fun _ => rfl, lane.flag⟩

-- The queue after a forced close: a write may still be outstanding, but there
-- is nothing to follow it.
structure Shut (queue : Stream.State B Unit) : Prop where
  empty : queue.writeQueue = []
  idle : queue.writing = false
  single : queue.outstanding.length ≤ 1

def Silent (queue : Stream.State B Unit) : Prop := ∀ entry ∈ queue.writeQueue ++ queue.outstanding, entry.handler = none

-- A call of the queue hands some buffers over, and keeps the others in order.
def Moves (queue after : Stream.State B Unit) (incoming : List B) : Prop :=
  ∃ fresh, Stream.handed after.trace = Stream.handed queue.trace ++ fresh ∧
    ((fresh ++ after.writeQueue).map Stream.Entry.buffers).Sublist (queue.writeQueue.map Stream.Entry.buffers ++ incoming)

theorem moves_quiet (queue after : Stream.State B Unit) (incoming : List B)
    (hands : Stream.handed after.trace = Stream.handed queue.trace)
    (fewer : (after.writeQueue.map Stream.Entry.buffers).Sublist (queue.writeQueue.map Stream.Entry.buffers ++ incoming)) :
    Moves queue after incoming :=
  ⟨[], by rw [hands, List.append_nil], fewer⟩

theorem do_write_moves (queue : Stream.State B Unit) : Moves queue queue.doWrite [] := by
  unfold Stream.State.doWrite
  split
  · rename_i empty
    exact moves_quiet queue _ [] rfl (by simp [empty])
  · rename_i first rest waiting
    exact ⟨[first], filter_map_logs _ _ _ _ rfl, by simp [waiting, Stream.State.emit]⟩

theorem do_write_lane (queue : Stream.State B Unit) (idle : queue.outstanding = []) :
    Lane queue.doWrite.writeQueue queue.doWrite.outstanding queue.doWrite.writing := by
  unfold Stream.State.doWrite
  split
  · rename_i empty
    simp only [empty, ite_self, idle]
    exact lane_rests
  · rename_i first rest waiting
    simp only [Stream.State.emit, idle, List.nil_append]
    exact lane_writes first rest

theorem do_write_silent (queue : Stream.State B Unit) (silent : Silent queue) : Silent queue.doWrite := by
  unfold Stream.State.doWrite
  split
  · rename_i empty
    simpa [Silent, empty] using silent
  · rename_i first rest waiting
    intro entry member
    apply silent entry
    simp only [Stream.State.emit, List.mem_append, List.mem_singleton] at member
    simp only [waiting, List.mem_append, List.mem_cons]
    tauto

theorem enqueue_silent (queue : Stream.State B Unit) (buffers : B) (send : Nat) (silent : Silent queue) :
    Silent (queue.enqueue ⟨buffers, none, send⟩) := by
  intro entry member
  simp only [Stream.State.enqueue, Stream.State.emit, List.mem_append, List.mem_singleton] at member
  rcases member with (old | rfl) | writes
  · exact silent entry (List.mem_append_left _ old)
  · rfl
  · exact silent entry (List.mem_append_right _ writes)

-- AsyncSend of the queue rejects the buffers, queues them, or starts to write.
theorem async_send_queue (queue : Stream.State B Unit) (buffers : B) (silent : Silent queue)
    (lane : Lane queue.writeQueue queue.outstanding queue.writing) :
    Lane (queue.asyncSend buffers none).writeQueue (queue.asyncSend buffers none).outstanding
      (queue.asyncSend buffers none).writing ∧
    Silent (queue.asyncSend buffers none) ∧ Moves queue (queue.asyncSend buffers none) [buffers] := by
  unfold Stream.State.asyncSend
  dsimp only
  split
  · refine ⟨lane, silent, moves_quiet queue _ _ ?_ (List.sublist_append_left _ _)⟩
    exact filter_map_quiet _ _ _ rfl
  · have enqueued : Silent (Stream.State.enqueue { queue with sends := queue.sends + 1 } ⟨buffers, none, queue.sends⟩) :=
      enqueue_silent _ buffers queue.sends silent
    have hands : Stream.handed (Stream.State.enqueue { queue with sends := queue.sends + 1 }
        ⟨buffers, none, queue.sends⟩).trace = Stream.handed queue.trace := filter_map_quiet _ _ _ rfl
    split
    · rename_i writing
      refine ⟨?_, enqueued, moves_quiet queue _ _ hands ?_⟩
      · have queued := lane_queues queue.writeQueue queue.outstanding ⟨buffers, none, queue.sends⟩ (writing ▸ lane)
        exact writing.symm ▸ queued
      · simp [Stream.State.enqueue, Stream.State.emit]
    · rename_i unflagged
      have idle : queue.writing = false := by simpa using unflagged
      have free := (lane_idle _ _ (idle ▸ lane)).2
      refine ⟨do_write_lane _ free, do_write_silent _ enqueued, ?_⟩
      obtain ⟨fresh, more, kept⟩ := do_write_moves
        (Stream.State.enqueue { queue with sends := queue.sends + 1 } ⟨buffers, none, queue.sends⟩)
      refine ⟨fresh, more.trans (by rw [hands]), ?_⟩
      simpa [Stream.State.enqueue, Stream.State.emit] using kept

theorem complete_queue (queue : Stream.State B Unit) (i : Nat) (entry : Stream.Entry B Unit)
    (found : queue.outstanding[i]? = some entry) (silent : Silent queue) :
    queue.complete i entry true =
      (Stream.State.emit { queue with outstanding := queue.outstanding.eraseIdx i } (.completed entry true)).doWrite := by
  have unheard := silent entry (List.mem_append_right _ (List.mem_of_getElem? found))
  rw [Stream.State.complete, Stream.State.answer, unheard]
  rfl

theorem complete_silent (queue : Stream.State B Unit) (i : Nat) (entry : Stream.Entry B Unit)
    (found : queue.outstanding[i]? = some entry) (silent : Silent queue) : Silent (queue.complete i entry true) := by
  rw [complete_queue queue i entry found silent]
  refine do_write_silent _ fun other member => silent other ?_
  rcases List.mem_append.mp member with waits | writes
  · exact List.mem_append_left _ waits
  · exact List.mem_append_right _ (List.mem_of_mem_eraseIdx writes)

theorem complete_moves (queue : Stream.State B Unit) (i : Nat) (entry : Stream.Entry B Unit)
    (found : queue.outstanding[i]? = some entry) (silent : Silent queue) :
    Moves queue (queue.complete i entry true) [] := by
  rw [complete_queue queue i entry found silent]
  obtain ⟨fresh, more, kept⟩ := do_write_moves
    (Stream.State.emit { queue with outstanding := queue.outstanding.eraseIdx i } (.completed entry true))
  exact ⟨fresh, more.trans (congrArg (· ++ fresh) (filter_map_quiet _ _ _ rfl)), kept⟩

theorem complete_lane (queue : Stream.State B Unit) (i : Nat) (entry : Stream.Entry B Unit)
    (found : queue.outstanding[i]? = some entry) (silent : Silent queue)
    (lane : Lane queue.writeQueue queue.outstanding queue.writing) :
    Lane (queue.complete i entry true).writeQueue (queue.complete i entry true).outstanding
      (queue.complete i entry true).writing := by
  rw [complete_queue queue i entry found silent]
  exact do_write_lane _ (single_write queue.outstanding i entry lane.single found).2

theorem complete_shut (queue : Stream.State B Unit) (i : Nat) (entry : Stream.Entry B Unit)
    (found : queue.outstanding[i]? = some entry) (silent : Silent queue) (shut : Shut queue) :
    Shut (queue.complete i entry true) := by
  have none := (single_write queue.outstanding i entry shut.single found).2
  rw [complete_queue queue i entry found silent]
  have written : (Stream.State.emit { queue with outstanding := queue.outstanding.eraseIdx i } (.completed entry true)).doWrite =
      { Stream.State.emit { queue with outstanding := queue.outstanding.eraseIdx i } (.completed entry true) with
        writing := false, writeQueue := [] } := by
    simp only [Stream.State.doWrite, Stream.State.emit, shut.empty, ite_self]
  rw [written]
  refine ⟨rfl, rfl, ?_⟩
  simp only [Stream.State.emit, none]
  exact Nat.zero_le 1

def QueueCall.isClose : QueueCall B → Bool
  | .close _ => true
  | .asyncSend _ => false

-- What the strand has been asked to send and has not sent yet.
def deferred (calls : List (QueueCall B)) : List B :=
  calls.filterMap fun
    | .asyncSend buffers => some buffers
    | .close _ => none

def ClosesLast (calls : List (QueueCall B)) : Prop :=
  calls.Pairwise fun first second => first.isClose = true → second.isClose = true

-- What holds of the write queue and of what is posted, whatever the direct path
-- is doing. Shutdown is the only one to post a forced close.
structure QueueSide (s : State B) : Prop where
  queue : Lane s.queue.writeQueue s.queue.outstanding s.queue.writing ∨
    (s.framer = false ∧ (∀ call ∈ s.strandWork, call.isClose = true) ∧ Shut s.queue)
  silent : Silent s.queue
  strand : s.framer = true → ∀ call ∈ s.strandWork, call.isClose = false
  sorted : ClosesLast s.strandWork
  work : ∀ force ∈ s.work, force = true ∧ s.shutdownInProgress = true
  graceful : s.gracefulShutdown = false

-- The messages that have not been handed over, in the order they were sent.
def State.unwritten (s : State B) : List B :=
  s.queue.writeQueue.map Stream.Entry.buffers ++ (s.writeDeque ++ deferred s.strandWork)

-- At most one of the two paths has anything to do, and together they keep the
-- order of the sends.
structure Lanes (s : State B) : Prop extends QueueSide s where
  direct : Lane s.writeDeque s.outstanding s.writeInProgress
  apart : (s.outstanding = [] ∧ s.writeDeque = []) ∨ (s.queue.outstanding = [] ∧ s.queue.writeQueue = [])
  order : (handed s.trace ++ s.unwritten).Sublist (sent s.trace)

theorem queue_side_frame (s after : State B) (side : QueueSide s)
    (work : ∀ force ∈ after.work, force = true ∧ after.shutdownInProgress = true)
    (same : (after.framer, after.queue, after.strandWork, after.gracefulShutdown) =
      (s.framer, s.queue, s.strandWork, s.gracefulShutdown)) : QueueSide after := by
  obtain ⟨framer, queue, strandWork, graceful⟩ : after.framer = s.framer ∧ after.queue = s.queue ∧
      after.strandWork = s.strandWork ∧ after.gracefulShutdown = s.gracefulShutdown := by simpa only [Prod.mk.injEq] using same
  refine ⟨?_, ?_, ?_, ?_, work, graceful.trans side.graceful⟩
  · rw [queue, framer, strandWork]
    exact side.queue
  · rw [queue]
    exact side.silent
  · rw [framer, strandWork]
    exact side.strand
  · rw [strandWork]
    exact side.sorted

theorem lanes_frame (s after : State B) (lanes : Lanes s)
    (work : ∀ force ∈ after.work, force = true ∧ after.shutdownInProgress = true) (trace : Quiet s.trace after.trace)
    (same : (after.framer, after.writeDeque, after.writeInProgress, after.outstanding, after.queue, after.strandWork,
      after.gracefulShutdown) =
      (s.framer, s.writeDeque, s.writeInProgress, s.outstanding, s.queue, s.strandWork, s.gracefulShutdown)) : Lanes after := by
  obtain ⟨more, log, quiet⟩ := trace
  obtain ⟨framer, deque, flag, outstanding, queue, strandWork, graceful⟩ : after.framer = s.framer ∧
      after.writeDeque = s.writeDeque ∧ after.writeInProgress = s.writeInProgress ∧ after.outstanding = s.outstanding ∧
      after.queue = s.queue ∧ after.strandWork = s.strandWork ∧ after.gracefulShutdown = s.gracefulShutdown := by
    simpa only [Prod.mk.injEq] using same
  have side : QueueSide after := queue_side_frame s after lanes.toQueueSide work (by rw [framer, queue, strandWork, graceful])
  refine ⟨side, ?_, ?_, ?_⟩
  · rw [deque, outstanding, flag]
    exact lanes.direct
  · rw [outstanding, deque, queue]
    exact lanes.apart
  · rw [log, handed_quiet _ _ quiet, sent_quiet _ _ quiet, State.unwritten, queue, strandWork, deque]
    exact lanes.order

theorem deferred_append (calls more : List (QueueCall B)) : deferred (calls ++ more) = deferred calls ++ deferred more :=
  List.filterMap_append

-- The queue has run a call: the session sees what it handed over.
theorem with_queue_order (s : State B) (after : Stream.State B Unit) (incoming later : List B)
    (moves : Moves s.queue after incoming)
    (order : (handed s.trace ++ (s.queue.writeQueue.map Stream.Entry.buffers ++ (incoming ++ later))).Sublist (sent s.trace)) :
    (handed (s.withQueue after).trace ++ (after.writeQueue.map Stream.Entry.buffers ++ later)).Sublist
      (sent (s.withQueue after).trace) := by
  obtain ⟨fresh, more, kept⟩ := moves
  have newly : newlyHanded s.queue after = fresh.map Stream.Entry.buffers := by
    rw [newlyHanded, more, List.drop_left]
  have hands : handed (s.withQueue after).trace = handed s.trace ++ fresh.map Stream.Entry.buffers := by
    rw [State.withQueue, newly, handed, List.filterMap_append, List.filterMap_map]
    exact congrArg (handed s.trace ++ ·) List.filterMap_some
  have sends : sent (s.withQueue after).trace = sent s.trace := by
    rw [State.withQueue, sent]
    apply filter_map_aside _ _ _
    intro event member
    obtain ⟨buffers, _, rfl⟩ := List.mem_map.mp member
    rfl
  rw [hands, sends]
  refine List.Sublist.trans ?_ order
  rw [List.append_assoc, ← List.append_assoc (List.map _ fresh), ← List.map_append, ← List.append_assoc (List.map _ _) incoming]
  exact (List.Sublist.refl _).append (kept.append (List.Sublist.refl _))

-- The direct path takes its next message while the write queue rests.
theorem write_next_lanes (s : State B) (inline : Inline) (side : QueueSide s) (idle : s.outstanding = [])
    (rests : s.queue.outstanding = [] ∧ s.queue.writeQueue = [])
    (order : (handed s.trace ++ s.unwritten).Sublist (sent s.trace)) : Lanes (s.writeNext inline) := by
  unfold State.writeNext
  split
  · rename_i empty
    rw [if_neg (by simp [side.graceful])]
    refine ⟨queue_side_frame s _ side side.work rfl, ?_, .inr rests, order⟩
    rw [empty, idle]
    exact lane_rests
  · rename_i buffers rest waiting
    have hands : handed (s.trace ++ [.handed buffers]) = handed s.trace ++ [buffers] := filter_map_logs _ _ _ _ rfl
    have sends : sent (s.trace ++ [.handed buffers]) = sent s.trace := filter_map_quiet _ _ _ rfl
    refine ⟨queue_side_frame s _ side side.work rfl, ?_, .inr rests, ?_⟩
    · simp only [State.emit, idle, List.nil_append]
      exact lane_writes buffers rest
    · simp only [State.unwritten, rests.2, waiting, List.map_nil, List.nil_append, List.cons_append] at order
      simp only [State.emit, State.unwritten, rests.2, hands, sends, List.map_nil, List.nil_append, List.append_assoc,
        List.cons_append]
      exact order

theorem completes_lanes (s : State B) (i : Nat) (buffers : B) (inline : Inline)
    (found : s.outstanding[i]? = some buffers) (lanes : Lanes s) :
    Lanes ({ s.completed i buffers true with writeInProgress := false }.writeNext inline) := by
  obtain ⟨only, none⟩ := single_write s.outstanding i buffers lanes.direct.single found
  have hands : handed (s.trace ++ [.completed buffers true]) = handed s.trace := filter_map_quiet _ _ _ rfl
  have sends : sent (s.trace ++ [.completed buffers true]) = sent s.trace := filter_map_quiet _ _ _ rfl
  have rests : s.queue.outstanding = [] ∧ s.queue.writeQueue = [] := by
    rcases lanes.apart with ⟨idle, _⟩ | rests
    · exact absurd (idle.symm.trans only) (by simp)
    · exact rests
  have side : QueueSide { s.completed i buffers true with writeInProgress := false } :=
    queue_side_frame s _ lanes.toQueueSide lanes.work rfl
  apply write_next_lanes _ inline side none rests
  simp only [State.completed, State.emit, hands, sends]
  exact lanes.order

-- Nothing else waits when a message takes the direct path.
def State.queueIdle (s : State B) : Bool :=
  s.queue.outstanding.isEmpty && s.queue.writeQueue.isEmpty && (deferred s.strandWork).isEmpty

def State.directIdle (s : State B) : Bool := s.outstanding.isEmpty && s.writeDeque.isEmpty

theorem queue_idle_empty (s : State B) (idle : s.queueIdle = true) :
    (s.queue.outstanding = [] ∧ s.queue.writeQueue = []) ∧ deferred s.strandWork = [] := by
  simpa [State.queueIdle, List.isEmpty_iff] using idle

theorem direct_idle_empty (s : State B) (idle : s.directIdle = true) : s.outstanding = [] ∧ s.writeDeque = [] := by
  simpa [State.directIdle, List.isEmpty_iff] using idle

theorem send_direct_lanes (s : State B) (buffers : B) (inline : Inline) (lanes : Lanes s) (mode : s.useWriteQueue = false)
    (free : s.queueIdle = true) : Lanes (s.send buffers inline) := by
  obtain ⟨rests, undeferred⟩ := queue_idle_empty s free
  have hands : handed (s.trace ++ [.sent buffers]) = handed s.trace := filter_map_quiet _ _ _ rfl
  have sends : sent (s.trace ++ [.sent buffers]) = sent s.trace ++ [buffers] := filter_map_logs _ _ _ _ rfl
  have side : QueueSide { s.emit (.sent buffers) with writeDeque := s.writeDeque ++ [buffers] } :=
    queue_side_frame s _ lanes.toQueueSide lanes.work rfl
  have order : (handed (s.trace ++ [Event.sent buffers]) ++
      State.unwritten { s.emit (.sent buffers) with writeDeque := s.writeDeque ++ [buffers] }).Sublist
        (sent (s.trace ++ [Event.sent buffers])) := by
    have before := lanes.order
    simp only [State.unwritten, rests.2, undeferred, List.map_nil, List.nil_append, List.append_nil] at before
    simp only [State.unwritten, State.emit, rests.2, undeferred, hands, sends, List.map_nil, List.nil_append,
      List.append_nil]
    rw [← List.append_assoc]
    exact before.append (List.Sublist.refl [buffers])
  rw [State.send, if_neg (by simp [mode])]
  dsimp only
  split
  · rename_i busy
    refine ⟨side, ?_, .inr rests, order⟩
    have queued := lane_queues s.writeDeque s.outstanding buffers (busy ▸ lanes.direct)
    exact busy.symm ▸ queued
  · rename_i unflagged
    have idle : s.writeInProgress = false := by simpa using unflagged
    exact write_next_lanes _ inline side (lane_idle _ _ (idle ▸ lanes.direct)).2 rests order

-- The write queue takes a message while the direct path rests.
theorem run_send_lanes (s : State B) (buffers : B) (side : QueueSide s)
    (lane : Lane s.queue.writeQueue s.queue.outstanding s.queue.writing)
    (direct : Lane s.writeDeque s.outstanding s.writeInProgress) (rests : s.outstanding = [] ∧ s.writeDeque = [])
    (order : (handed s.trace ++
      (s.queue.writeQueue.map Stream.Entry.buffers ++ ([buffers] ++ deferred s.strandWork))).Sublist (sent s.trace)) :
    Lanes (s.runQueue (.asyncSend buffers)) := by
  obtain ⟨onward, silent, moves⟩ := async_send_queue s.queue buffers side.silent lane
  refine ⟨⟨.inl onward, silent, side.strand, side.sorted, side.work, side.graceful⟩, direct, .inl rests, ?_⟩
  have kept := with_queue_order s _ [buffers] (deferred s.strandWork) moves order
  rw [State.unwritten]
  simp only [State.runQueue, State.withQueue, rests.2, List.nil_append] at kept ⊢
  exact kept

-- Shutdown is the last to use the strand.
theorem queue_side_open (s : State B) (side : QueueSide s) (present : s.framer = true) :
    Lane s.queue.writeQueue s.queue.outstanding s.queue.writing := by
  rcases side.queue with lane | ⟨gone, _, _⟩
  · exact lane
  · exact absurd (gone.symm.trans present) (by decide)

theorem send_queue_lanes (s : State B) (buffers : B) (inline : Inline) (lanes : Lanes s) (present : s.framer = true)
    (mode : s.useWriteQueue = true) (free : inline.strand = true → s.strandWork = [] → s.directIdle = true) :
    Lanes (s.send buffers inline) := by
  have hands : handed (s.trace ++ [.sent buffers]) = handed s.trace := filter_map_quiet _ _ _ rfl
  have sends : sent (s.trace ++ [.sent buffers]) = sent s.trace ++ [buffers] := filter_map_logs _ _ _ _ rfl
  have side : QueueSide (s.emit (.sent buffers)) :=
    queue_side_frame s _ lanes.toQueueSide lanes.work rfl
  have grown : (handed s.trace ++ (s.unwritten ++ [buffers])).Sublist (sent s.trace ++ [buffers]) := by
    rw [← List.append_assoc]
    exact lanes.order.append (List.Sublist.refl [buffers])
  rw [State.send, if_pos mode, State.dispatchQueue]
  split
  · rename_i inside
    have both : inline.strand = true ∧ s.strandWork = [] := by simpa [State.emit, List.isEmpty_iff] using inside
    have rests := direct_idle_empty s (free both.1 both.2)
    apply run_send_lanes _ buffers side (queue_side_open s lanes.toQueueSide present) lanes.direct rests
    simp only [State.unwritten, rests.2, both.2, deferred, List.filterMap_nil, List.append_nil] at grown
    simp only [State.emit, hands, sends, both.2, deferred, List.filterMap_nil, List.append_nil]
    exact grown
  · have posted : ∀ call ∈ s.strandWork ++ [.asyncSend buffers], call.isClose = false := by
      intro call member
      rcases List.mem_append.mp member with earlier | last
      · exact lanes.strand present call earlier
      · rw [List.mem_singleton.mp last]
        rfl
    have sorted : ClosesLast (s.strandWork ++ [.asyncSend buffers]) := by
      refine List.pairwise_append.mpr ⟨lanes.sorted, List.pairwise_singleton _ _, fun first member _ _ closes => ?_⟩
      exact absurd ((lanes.strand present first member).symm.trans closes) (by decide)
    have later : deferred (s.strandWork ++ [.asyncSend buffers]) = deferred s.strandWork ++ [buffers] :=
      deferred_append s.strandWork [.asyncSend buffers]
    refine ⟨⟨.inl (queue_side_open s lanes.toQueueSide present), lanes.silent, fun _ => posted, sorted, lanes.work,
      lanes.graceful⟩, lanes.direct, lanes.apart, ?_⟩
    simp only [State.emit, State.unwritten, hands, sends, later]
    simp only [State.unwritten, List.append_assoc] at grown
    exact grown

theorem queue_completes_lanes (s : State B) (i : Nat) (entry : Stream.Entry B Unit)
    (found : s.queue.outstanding[i]? = some entry) (lanes : Lanes s) : Lanes (s.queueCompletes i entry true) := by
  have hands : handed (s.trace ++ [.completed entry.buffers true]) = handed s.trace := filter_map_quiet _ _ _ rfl
  have sends : sent (s.trace ++ [.completed entry.buffers true]) = sent s.trace := filter_map_quiet _ _ _ rfl
  have rests : s.outstanding = [] ∧ s.writeDeque = [] := by
    rcases lanes.apart with rests | ⟨idle, _⟩
    · exact rests
    · exact absurd found (by simp [idle])
  have queue : Lane (s.queue.complete i entry true).writeQueue (s.queue.complete i entry true).outstanding
      (s.queue.complete i entry true).writing ∨
        (s.framer = false ∧ (∀ call ∈ s.strandWork, call.isClose = true) ∧ Shut (s.queue.complete i entry true)) := by
    rcases lanes.queue with lane | ⟨gone, closes, shut⟩
    · exact .inl (complete_lane s.queue i entry found lanes.silent lane)
    · exact .inr ⟨gone, closes, complete_shut s.queue i entry found lanes.silent shut⟩
  have kept := with_queue_order (s.emit (.completed entry.buffers true)) (s.queue.complete i entry true) []
    (s.writeDeque ++ deferred s.strandWork) (complete_moves s.queue i entry found lanes.silent)
    (by simpa only [State.emit, hands, sends, List.nil_append, State.unwritten] using lanes.order)
  exact ⟨⟨queue, complete_silent s.queue i entry found lanes.silent, lanes.strand, lanes.sorted, lanes.work,
    lanes.graceful⟩, lanes.direct, .inl rests, kept⟩

theorem close_queue_silent (queue : Stream.State B Unit) (force : Bool) (silent : Silent queue) :
    Silent (queue.close force) := by
  cases force with
  | true => exact fun entry member => silent entry (List.mem_append_right _ member)
  | false => exact silent

theorem close_queue_moves (queue : Stream.State B Unit) (force : Bool) : Moves queue (queue.close force) [] := by
  cases force with
  | true => exact moves_quiet queue _ [] (filter_map_quiet _ _ _ rfl) (List.nil_sublist _)
  | false => exact moves_quiet queue _ [] (filter_map_quiet _ _ _ rfl) (by rw [List.append_nil]; exact List.Sublist.refl _)

theorem close_queue_shut (queue : Stream.State B Unit) (force : Bool) (single : queue.outstanding.length ≤ 1)
    (before : Shut queue ∨ force = true) : Shut (queue.close force) := by
  cases force with
  | true => exact ⟨rfl, rfl, single⟩
  | false =>
      rcases before with shut | forced
      · exact ⟨shut.empty, shut.idle, shut.single⟩
      · cases forced

theorem queue_side_single (s : State B) (side : QueueSide s) : s.queue.outstanding.length ≤ 1 := by
  rcases side.queue with lane | ⟨_, _, shut⟩
  · exact lane.single
  · exact shut.single

-- A close runs when there is no framer and only closes are left.
theorem run_close_lanes (s : State B) (force : Bool) (lanes : Lanes s) (gone : s.framer = false)
    (last : ∀ call ∈ s.strandWork, call.isClose = true) : Lanes (s.runQueue (.close force)) := by
  have queue : Lane (s.queue.close force).writeQueue (s.queue.close force).outstanding (s.queue.close force).writing ∨
      (s.framer = false ∧ (∀ call ∈ s.strandWork, call.isClose = true) ∧ Shut (s.queue.close force)) := by
    cases force with
    | true => exact .inr ⟨gone, last, close_queue_shut s.queue true (queue_side_single s lanes.toQueueSide) (.inr rfl)⟩
    | false =>
        rcases lanes.queue with lane | ⟨_, _, shut⟩
        · exact .inl lane
        · exact .inr ⟨gone, last, close_queue_shut s.queue false shut.single (.inl shut)⟩
  have apart : (s.outstanding = [] ∧ s.writeDeque = []) ∨
      ((s.queue.close force).outstanding = [] ∧ (s.queue.close force).writeQueue = []) := by
    rcases lanes.apart with rests | ⟨idle, empty⟩
    · exact .inl rests
    · cases force with
      | true => exact .inr ⟨idle, rfl⟩
      | false => exact .inr ⟨idle, empty⟩
  have kept := with_queue_order s (s.queue.close force) [] (s.writeDeque ++ deferred s.strandWork)
    (close_queue_moves s.queue force) (by simpa only [List.nil_append, State.unwritten] using lanes.order)
  exact ⟨⟨queue, close_queue_silent s.queue force lanes.silent, lanes.strand, lanes.sorted, lanes.work, lanes.graceful⟩,
    lanes.direct, apart, kept⟩

theorem strand_lanes (s : State B) (call : QueueCall B) (rest : List (QueueCall B)) (strand : s.strandWork = call :: rest)
    (lanes : Lanes s) (free : call.isClose = false → s.directIdle = true) :
    Lanes ({ s with strandWork := rest }.runQueue call) := by
  have split := List.pairwise_cons.mp (strand ▸ lanes.sorted)
  cases call with
  | asyncSend buffers =>
      have rests := direct_idle_empty s (free rfl)
      have lane : Lane s.queue.writeQueue s.queue.outstanding s.queue.writing := by
        rcases lanes.queue with lane | ⟨_, closes, _⟩
        · exact lane
        · exact absurd (closes _ (strand ▸ List.mem_cons_self)) (by simp [QueueCall.isClose])
      have side : QueueSide { s with strandWork := rest } :=
        ⟨.inl lane, lanes.silent, fun present other member => lanes.strand present other (strand ▸ List.mem_cons_of_mem _ member),
          split.2, lanes.work, lanes.graceful⟩
      apply run_send_lanes _ buffers side lane lanes.direct rests
      have order := lanes.order
      rw [State.unwritten, rests.2, strand] at order
      exact order
  | close force =>
      have gone : s.framer = false := by
        by_contra present
        exact absurd (lanes.strand (by simpa using present) _ (strand ▸ List.mem_cons_self)) (by simp [QueueCall.isClose])
      have last : ∀ call ∈ rest, call.isClose = true := fun other member => split.1 other member rfl
      have order := lanes.order
      rw [State.unwritten, strand] at order
      have popped : Lanes { s with strandWork := rest } := by
        refine ⟨⟨?_, lanes.silent, fun present => absurd (gone.symm.trans present) (by decide), split.2, lanes.work,
          lanes.graceful⟩, lanes.direct, lanes.apart, order⟩
        rcases lanes.queue with lane | ⟨_, _, shut⟩
        · exact .inl lane
        · exact .inr ⟨gone, last, shut⟩
      exact run_close_lanes _ force popped gone last

theorem dispatch_close_lanes (s : State B) (inline : Inline) (lanes : Lanes s) (gone : s.framer = false) :
    Lanes (s.dispatchQueue (.close true) inline) := by
  unfold State.dispatchQueue
  split
  · rename_i inside
    have empty : s.strandWork = [] := by
      simp only [Bool.and_eq_true, List.isEmpty_iff] at inside
      exact inside.2
    exact run_close_lanes s true lanes gone (by simp [empty])
  · have closing : ∀ call ∈ [QueueCall.close (B := B) true], call.isClose = true := by simp [QueueCall.isClose]
    have sorted : ClosesLast (s.strandWork ++ [.close true]) :=
      List.pairwise_append.mpr ⟨lanes.sorted, List.pairwise_singleton _ _, fun _ _ second member _ => closing second member⟩
    have same : deferred (s.strandWork ++ [.close true]) = deferred s.strandWork :=
      (deferred_append s.strandWork [.close true]).trans (List.append_nil _)
    refine ⟨⟨?_, lanes.silent, fun present => absurd (gone.symm.trans present) (by decide), sorted, lanes.work,
      lanes.graceful⟩, lanes.direct, lanes.apart, ?_⟩
    · rcases lanes.queue with lane | ⟨_, closes, shut⟩
      · exact .inl lane
      · refine .inr ⟨gone, fun call member => ?_, shut⟩
        rcases List.mem_append.mp member with earlier | last
        · exact closes call earlier
        · exact closing call last
    · simp only [State.unwritten, same]
      exact lanes.order

theorem dispatch_again_lanes (s : State B) (inline : Inline) (lanes : Lanes s) (marked : s.shutdownInProgress = true) :
    Lanes (s.dispatchForced inline) := by
  unfold State.dispatchForced
  split
  · rw [close_forced_again s inline marked]
    exact lanes_frame s _ lanes lanes.work (quiet_logs _ _ rfl) rfl
  · refine lanes_frame s _ lanes ?_ (quiet_refl _) rfl
    intro force member
    rcases List.mem_append.mp member with earlier | last
    · exact lanes.work force earlier
    · exact ⟨List.mem_singleton.mp last, marked⟩

-- What Shutdown drops was not handed over.
theorem cleared_lanes (s : State B) (lanes : Lanes s) :
    Lanes { s with writeDeque := [], framer := false, onMessage := false, onDisconnect := false } := by
  refine ⟨⟨?_, lanes.silent, fun present => absurd present Bool.false_ne_true, lanes.sorted, lanes.work, lanes.graceful⟩, ?_, ?_, ?_⟩
  · rcases lanes.queue with lane | ⟨_, closes, shut⟩
    · exact .inl lane
    · exact .inr ⟨rfl, closes, shut⟩
  · exact ⟨lanes.direct.single, lanes.direct.busy, fun waits => absurd rfl waits, lanes.direct.flag⟩
  · rcases lanes.apart with ⟨idle, _⟩ | rests
    · exact .inl ⟨idle, rfl⟩
    · exact .inr rests
  · refine List.Sublist.trans ?_ lanes.order
    have fewer : (([] : List B) ++ deferred s.strandWork).Sublist (s.writeDeque ++ deferred s.strandWork) :=
      (List.nil_sublist _).append (List.Sublist.refl _)
    exact (List.Sublist.refl _).append ((List.Sublist.refl _).append fewer)

theorem finish_shutdown_lanes (s : State B) (inline : Inline) (lanes : Lanes s) (marked : s.shutdownInProgress = true) :
    Lanes (s.finishShutdown inline) := by
  have cleared := cleared_lanes _ (dispatch_again_lanes s inline lanes marked)
  unfold State.finishShutdown
  dsimp only
  split
  · have closed := dispatch_close_lanes _ inline cleared rfl
    unfold State.dispatchQueue at closed ⊢
    dsimp only at closed ⊢
    split
    · rename_i inside
      rw [if_pos inside] at closed
      exact closed
    · rename_i outside
      rw [if_neg outside] at closed
      exact closed
  · exact cleared

theorem shutdown_lanes (s : State B) (inline : Inline) (lanes : Lanes s) (unmarked : s.shutdownInProgress = false) :
    Lanes (s.shutdown inline) := by
  have work : ∀ force ∈ s.work, force = true ∧ true = true := fun force member => ⟨(lanes.work force member).1, rfl⟩
  rw [State.shutdown, if_neg (by simp [unmarked])]
  dsimp only
  split
  · exact lanes_frame s _ lanes work (quiet_logs _ _ rfl) rfl
  · refine finish_shutdown_lanes _ inline ?_ rfl
    exact lanes_frame s _ lanes work (quiet_refl _) rfl

-- No Close, and no write fails.
def Unbroken (_ : State B) : Action B → Prop
  | .close _ _ => False
  | .writeCompletes _ ok _ | .queueCompletes _ ok => ok = true
  | _ => True

-- A message goes to one path when the other has nothing to write.
def State.pathFree (s : State B) : Action B → Bool
  | .asyncSend (some _) inline =>
      if !s.framer then true
      else if !s.useWriteQueue then s.queueIdle
      else if inline.strand && s.strandWork.isEmpty then s.directIdle
      else true
  | .runStrand =>
      match s.strandWork with
      | .asyncSend _ :: _ => s.directIdle
      | _ => true
  | _ => true

def PathFree (s : State B) (action : Action B) : Prop := Unbroken s action ∧ s.pathFree action = true

instance (s : State B) (action : Action B) : Decidable (Unbroken s action) :=
  match action with
  | .close _ _ => isFalse id
  | .writeCompletes _ ok _ | .queueCompletes _ ok => inferInstanceAs (Decidable (ok = true))
  | .start .. | .asyncSend .. | .enableWriteQueue .. | .readCompletes .. | .readTimer .. | .idleTimer ..
  | .callbackReturns .. | .runWork .. | .runStrand => isTrue trivial

instance (s : State B) (action : Action B) : Decidable (PathFree s action) := inferInstanceAs (Decidable (_ ∧ _))

theorem send_lanes (s : State B) (buffers : B) (inline : Inline) (lanes : Lanes s) (present : s.framer = true)
    (free : s.pathFree (.asyncSend (some buffers) inline) = true) : Lanes (s.send buffers inline) := by
  rw [State.pathFree, if_neg (by simp [present])] at free
  cases mode : s.useWriteQueue with
  | false =>
      rw [if_pos (by simp [mode])] at free
      exact send_direct_lanes s buffers inline lanes mode free
  | true =>
      rw [if_neg (by simp [mode])] at free
      apply send_queue_lanes s buffers inline lanes present mode
      intro inside empty
      rw [if_pos (by simp [inside, empty])] at free
      exact free

theorem step_lanes (s after : State B) (action : Action B) (marked : Marked s) (lanes : Lanes s)
    (allowed : PathFree s action) (taken : step s action = some after) : Lanes after := by
  obtain ⟨unbroken, free⟩ := allowed
  have asides : ∀ after, Aside s after → Lanes after := fun after aside =>
    lanes_frame s after lanes (by rw [aside.work, aside.shutdownInProgress]; exact lanes.work)
      (aside.trace ▸ quiet_refl _) (by rw [aside.framer, aside.writeDeque, aside.writeInProgress, aside.outstanding,
        aside.queue, aside.strandWork, aside.gracefulShutdown])
  refine step_preserves Lanes s after action taken asides ?_ ?_ ?_ ?_ ?_ ?_ ?_ ?_ ?_ ?_ ?_ ?_
  · rintro buffers inline rfl present
    exact send_lanes s buffers inline lanes present free
  · exact fun _ _ => lanes_frame s _ lanes lanes.work (quiet_refl _) rfl
  · rintro force inline rfl
    exact unbroken.elim
  · rintro force inline rfl _
    exact unbroken.elim
  · intro i force inline _ found
    obtain ⟨rfl, ended⟩ := lanes.work force (List.mem_of_getElem? found)
    have again := close_forced_again { s with work := s.work.eraseIdx i } inline ended
    rw [State.runClose, if_pos rfl, again]
    exact lanes_frame s _ lanes
      (fun force member => lanes.work force (List.mem_of_mem_eraseIdx member)) (quiet_logs _ _ rfl) rfl
  · intro before inline aside _ ends
    exact shutdown_lanes before inline (asides before aside) (aside.shutdownInProgress.trans (ends_unmarked s action ends))
  · exact fun before inline _ aside waiting => finish_shutdown_lanes before inline (asides before aside)
      (aside.shutdownInProgress.trans (marked.stack (List.mem_of_head? waiting)))
  · exact fun i buffers inline _ found => completes_lanes s i buffers inline found lanes
  · rintro i buffers inline rfl _ _
    cases unbroken
  · rintro i buffers inline rfl _ _
    cases unbroken
  · rintro i entry ok rfl found
    have fine : ok = true := unbroken
    subst fine
    exact queue_completes_lanes s i entry found lanes
  · rintro call rest rfl strand
    apply strand_lanes s call rest strand lanes
    intro sends
    cases call with
    | asyncSend buffers =>
        rw [State.pathFree, strand] at free
        exact free
    | close force => cases sends

structure OneAtATime (s : State B) : Prop where
  single : s.outstanding.length + s.queue.outstanding.length ≤ 1
  order : (handed s.trace).Sublist (sent s.trace)

theorem lanes_one_at_a_time (s : State B) (lanes : Lanes s) : OneAtATime s where
  single := by
    rcases lanes.apart with ⟨idle, _⟩ | ⟨idle, _⟩
    · rw [idle, List.length_nil, Nat.zero_add]
      exact queue_side_single s lanes.toQueueSide
    · rw [idle]
      exact lanes.direct.single
  order := (List.sublist_append_left _ _).trans lanes.order

theorem construct_lanes (useWriteQueue : Bool) : Lanes (construct useWriteQueue : State B) := by
  refine ⟨⟨.inl lane_rests, ?_, ?_, List.Pairwise.nil, ?_, rfl⟩, lane_rests, .inl ⟨rfl, rfl⟩, List.nil_sublist _⟩
  · exact fun entry member => nomatch member
  · exact fun _ call member => nomatch member
  · exact fun force member => nomatch member

-- EnableWriteQueue may be called at any time, as long as no message goes to one
-- path while the other is writing.
theorem mode_switches_keep_order (useWriteQueue : Bool) (s : State B)
    (reachable : Machine.Reachable step PathFree (construct useWriteQueue) s) : OneAtATime s := by
  refine lanes_one_at_a_time s (Machine.reachable_invariant step PathFree _ Lanes (construct_lanes useWriteQueue) ?_ s reachable)
  intro before action after earlier lanes allowed taken
  exact step_lanes before after action (reachable_marked _ useWriteQueue before earlier) lanes allowed taken

theorem mode_switch_overlaps :
    ¬ ∀ s : State Nat, Machine.Reachable step Unbroken (construct false) s → OneAtATime s := by
  intro always
  obtain ⟨s, reachable, shown⟩ := Machine.run_exhibits step Unbroken (construct false)
    ([.asyncSend (some 7) inlined, .enableWriteQueue true, .asyncSend (some 8) inlined] : List (Action Nat))
    (fun s => decide (s.outstanding.length + s.queue.outstanding.length = 2)) (by decide)
  have one := (always s reachable).single
  have two : s.outstanding.length + s.queue.outstanding.length = 2 := by simpa using shown
  omega

-- Messages take the direct path, the write queue and the direct path again, and
-- the last one is still being written.
theorem mode_switches_keep_order_twice :
    ∃ s : State Nat, Machine.Reachable step PathFree (construct false) s ∧ handed s.trace = [7, 8, 9, 10] ∧
      s.outstanding.length = 1 ∧ OneAtATime s := by
  obtain ⟨s, reachable, shown⟩ := Machine.run_exhibits step PathFree (construct false)
    ([.start true true, .asyncSend (some 7) inlined, .asyncSend (some 8) inlined, .enableWriteQueue true,
      .asyncSend (some 9) posted, .writeCompletes 0 true inlined, .writeCompletes 0 true inlined, .runStrand,
      .enableWriteQueue false, .queueCompletes 0 true, .asyncSend (some 10) inlined] : List (Action Nat))
    (fun s => handed s.trace == [7, 8, 9, 10] && s.outstanding.length == 1) (by decide)
  simp only [Bool.and_eq_true, beq_iff_eq] at shown
  exact ⟨s, reachable, shown.1, shown.2, mode_switches_keep_order false s reachable⟩

end Vectro.Session
