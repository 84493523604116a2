import Vectro.LineFramerRounds
import Vectro.WriteQueueStream

set_option autoImplicit false

namespace Vectro.Pipe

open Vectro.Frame Lines
open Vectro.Stream (Entry accepted handed Broken Flow Graceful Outcome)

variable {H : Type}

-- A write queue at one end of a connection and a line framer at the other. The
-- buffers of an entry are the bytes of its message; unsent holds what is left of
-- each write under way, and wire what the peer has been sent, of which it has
-- read the first bytes.
structure State (H : Type) where
  queue : Stream.State (List UInt8) H
  unsent : List (List UInt8)
  wire : List UInt8
  read : Nat
  feed : Feed
  raised : Bool

def construct (maxQueue : Nat) (framer : SimpleLineFramer) : State H where
  queue := Stream.construct maxQueue
  unsent := []
  wire := []
  read := 0
  feed := ⟨framer, []⟩
  raised := false

def fresh (before after : Stream.State (List UInt8) H) : List (List UInt8) :=
  ((handed after.trace).drop (handed before.trace).length).map Entry.buffers

def State.withQueue (p : State H) (queue : Stream.State (List UInt8) H) (unsent : List (List UInt8)) : State H :=
  { p with queue := queue, unsent := unsent ++ fresh p.queue queue }

def State.chunk (p : State H) (n : Nat) : List UInt8 := (p.wire.drop p.read).take n

-- What a round of the peer's framer leaves. After an exception it reads no more.
def State.receive (p : State H) (n : Nat) : Except Raised Feed → State H
  | .ok feed => { p with feed := feed, read := p.read + n }
  | .error _ => { p with raised := true, read := p.read + n }

inductive Action (H : Type) where
  | queue (action : Stream.Action (List UInt8) H)
  | transmit (i n : Nat)
  | complete (i : Nat) (ok : Bool)
  | receive (n : Nat) (memory : Nat → UInt8) (clock : Nat → Int)

def completion : Stream.Action (List UInt8) H → Bool
  | .complete _ _ => true
  | _ => false

-- async_write succeeds once every byte has been written.
def step (p : State H) : Action H → Option (State H)
  | .queue action =>
      if completion action then none else (Stream.step p.queue action).map fun queue => p.withQueue queue p.unsent
  | .transmit i n =>
      (p.unsent[i]?).bind fun bytes =>
        if n ≤ bytes.length then some { p with wire := p.wire ++ bytes.take n, unsent := p.unsent.set i (bytes.drop n) } else none
  | .complete i ok =>
      (p.unsent[i]?).bind fun bytes =>
        if ok && !bytes.isEmpty then none
        else (Stream.step p.queue (.complete i ok)).map fun queue => p.withQueue queue (p.unsent.eraseIdx i)
  | .receive n memory clock =>
      if p.raised ∨ n = 0 ∨ p.wire.length < p.read + n then none else some (p.receive n (p.feed.round ⟨p.chunk n, memory, clock⟩))

-- What Frame makes of a message, in the line protocol: a line that is not empty,
-- and its end.
def Line (buffers : List UInt8) : Prop := ∃ line, line ≠ [] ∧ newline ∉ line ∧ buffers = line ++ [newline]

def content (entry : Entry (List UInt8) H) : List UInt8 := entry.buffers.dropLast

-- Only lines are sent, nobody forces the queue shut, and every read is one that
-- the framer appends.
def Clean (p : State H) : Action H → Prop
  | .queue action => Graceful p.queue action ∧ ∀ buffers handler, action = .asyncSend buffers handler → Line buffers
  | .receive n _ _ => Appends p.feed.framer (p.chunk n)
  | _ => True

def sent (log : List (Stream.Event (List UInt8) H)) : List UInt8 := ((handed log).map Entry.buffers).flatten

structure Carried (p : State H) : Prop where
  flow : Flow p.queue
  paired : p.unsent.length = p.queue.outstanding.length
  carried : p.wire ++ p.unsent.flatten = sent p.queue.trace ∨ (Broken p.queue ∧ p.wire <+: sent p.queue.trace)
  lines : ∀ entry ∈ accepted p.queue.trace, Line entry.buffers
  within : p.read ≤ p.wire.length
  framed : Framed (p.wire.take p.read) p.feed
  size : p.feed.framer.scratch.size = 4096
  sound : p.raised = false

theorem sent_lines (entries : List (Entry (List UInt8) H)) (whole : ∀ entry ∈ entries, Line entry.buffers) :
    lines newline ((entries.map Entry.buffers).flatten) = entries.map content ∧ [] ∉ entries.map content := by
  have split : ∀ entry ∈ entries, content entry ≠ [] ∧ newline ∉ content entry ∧ entry.buffers = content entry ++ [newline] := by
    intro entry member
    obtain ⟨line, nonempty, unmarked, same⟩ := whole entry member
    have cut : content entry = line := by rw [content, same, List.dropLast_concat]
    rw [cut]
    exact ⟨nonempty, unmarked, same⟩
  have joined : entries.map Entry.buffers = (entries.map content).map (· ++ [newline]) := by
    rw [List.map_map]
    exact List.map_congr_left fun entry member => (split entry member).2.2
  constructor
  · rw [joined, lines, cut_ended]
    intro line member
    obtain ⟨entry, there, rfl⟩ := List.mem_map.mp member
    exact (split entry there).2.1
  · intro member
    obtain ⟨entry, there, same⟩ := List.mem_map.mp member
    exact (split entry there).1 same

-- What has been read is the beginning of what was handed over, so that none of
-- its lines is empty.
theorem read_sent (p : State H) (carried : Carried p) (n : Nat) : p.wire.take n <+: sent p.queue.trace := by
  have written : p.wire <+: sent p.queue.trace := by
    rcases carried.carried with all | ⟨_, part⟩
    · exact ⟨_, all⟩
    · exact part
  exact (List.take_prefix n p.wire).trans written

theorem handed_accepted (p : State H) (carried : Carried p) : handed p.queue.trace <+: accepted p.queue.trace := by
  rcases carried.flow.whole with all | ⟨_, part⟩
  · exact ⟨_, all⟩
  · exact part

theorem read_filled (p : State H) (carried : Carried p) (n : Nat) : NoEmptyLine (p.wire.take n) := by
  rw [no_empty_line_iff]
  obtain ⟨more, joined⟩ := read_sent p carried n
  obtain ⟨cut, filled⟩ := sent_lines (handed p.queue.trace) fun entry member =>
    carried.lines entry ((handed_accepted p carried).subset member)
  change lines newline (sent p.queue.trace) = _ at cut
  rw [← joined, lines_append] at cut
  intro empty
  exact filled (cut ▸ List.mem_append_left _ empty)

theorem fresh_none (before after : Stream.State (List UInt8) H) (same : handed after.trace = handed before.trace) :
    fresh before after = [] := by
  rw [fresh, same, List.drop_length, List.map_nil]

theorem fresh_one (before after : Stream.State (List UInt8) H) (entry : Entry (List UInt8) H)
    (more : handed after.trace = handed before.trace ++ [entry]) : fresh before after = [entry.buffers] := by
  rw [fresh, more, List.drop_left, List.map_singleton]

theorem sent_more (before after : Stream.State (List UInt8) H) (entry : Entry (List UInt8) H)
    (more : handed after.trace = handed before.trace ++ [entry]) : sent after.trace = sent before.trace ++ entry.buffers := by
  rw [sent, more, List.map_append, List.flatten_append, ← sent]
  simp

theorem lines_kept (p : State H) (carried : Carried p) (action : Stream.Action (List UInt8) H) (queue : Stream.State (List UInt8) H)
    (taken : Stream.step p.queue action = some queue) (line : ∀ buffers handler, action = .asyncSend buffers handler → Line buffers) :
    ∀ entry ∈ accepted queue.trace, Line entry.buffers := by
  intro entry member
  rcases Stream.step_accepts p.queue queue action taken entry member with before | ⟨handler, sends⟩
  · exact carried.lines entry before
  · exact line entry.buffers handler sends

-- A step of the queue that is not a completion.
theorem queue_carried (p : State H) (carried : Carried p) (action : Stream.Action (List UInt8) H)
    (queue : Stream.State (List UInt8) H) (other : ∀ i ok, action ≠ .complete i ok) (graceful : Graceful p.queue action)
    (line : ∀ buffers handler, action = .asyncSend buffers handler → Line buffers)
    (taken : Stream.step p.queue action = some queue) : Carried (p.withQueue queue p.unsent) := by
  have flow := Stream.step_flow p.queue queue action carried.flow graceful taken
  have lines := lines_kept p carried action queue taken line
  cases Stream.step_outcome p.queue queue action carried.flow graceful other taken with
  | keeps hands outstanding broken =>
      have none := fresh_none p.queue queue hands
      have same : sent queue.trace = sent p.queue.trace := by rw [sent, hands, ← sent]
      refine ⟨flow, ?_, ?_, lines, carried.within, carried.framed, carried.size, carried.sound⟩
      · change (p.unsent ++ fresh p.queue queue).length = queue.outstanding.length
        rw [none, List.append_nil, outstanding]
        exact carried.paired
      · change p.wire ++ (p.unsent ++ fresh p.queue queue).flatten = sent queue.trace ∨ (Broken queue ∧ p.wire <+: sent queue.trace)
        rw [none, List.append_nil, same]
        exact carried.carried.imp id fun part => ⟨broken part.1, part.2⟩
  | hands entry more idle outstanding sound =>
      have one := fresh_one p.queue queue entry more
      have nothing : p.unsent = [] := List.eq_nil_of_length_eq_zero (by rw [carried.paired, idle]; rfl)
      have all := carried.carried.resolve_right fun part => sound part.1
      refine ⟨flow, ?_, .inl ?_, lines, carried.within, carried.framed, carried.size, carried.sound⟩
      · change (p.unsent ++ fresh p.queue queue).length = queue.outstanding.length
        rw [nothing, one, outstanding]
        rfl
      · change p.wire ++ (p.unsent ++ fresh p.queue queue).flatten = sent queue.trace
        rw [nothing] at all
        rw [nothing, one, sent_more p.queue queue entry more, ← all]
        simp

theorem complete_carried (p : State H) (carried : Carried p) (i : Nat) (ok : Bool) (bytes : List UInt8)
    (queue : Stream.State (List UInt8) H) (found : p.unsent[i]? = some bytes) (written : ok = true → bytes = [])
    (taken : Stream.step p.queue (.complete i ok) = some queue) : Carried (p.withQueue queue (p.unsent.eraseIdx i)) := by
  have flow := Stream.step_flow p.queue queue (.complete i ok) carried.flow trivial taken
  have lines := lines_kept p carried _ queue taken (by simp)
  obtain ⟨rfl, sound, ⟨entry, lone⟩, ended⟩ := Stream.complete_outcome p.queue queue i ok carried.flow taken
  have only : p.unsent = [bytes] := by
    have one : p.unsent.length = 1 := by rw [carried.paired, lone]; rfl
    obtain ⟨single, same⟩ := List.length_eq_one_iff.mp one
    rw [same] at found
    rw [same, Option.some.inj found]
  have all := carried.carried.resolve_right fun part => sound part.1
  rw [only, List.flatten_singleton] at all
  rcases ended with ⟨hands, outstanding, failed⟩ | ⟨next, succeeded, more, outstanding⟩
  · have none := fresh_none p.queue queue hands
    have same : sent queue.trace = sent p.queue.trace := by rw [sent, hands, ← sent]
    refine ⟨flow, ?_, ?_, lines, carried.within, carried.framed, carried.size, carried.sound⟩
    · change (p.unsent.eraseIdx 0 ++ fresh p.queue queue).length = queue.outstanding.length
      rw [only, none, outstanding]
      rfl
    · change p.wire ++ (p.unsent.eraseIdx 0 ++ fresh p.queue queue).flatten = sent queue.trace ∨
        (Broken queue ∧ p.wire <+: sent queue.trace)
      rw [only, none, same]
      cases ok with
      | true =>
          rw [written rfl, List.append_nil] at all
          exact .inl (by simpa using all)
      | false => exact .inr ⟨failed rfl, ⟨bytes, all⟩⟩
  · have one := fresh_one p.queue queue next more
    rw [written succeeded, List.append_nil] at all
    refine ⟨flow, ?_, .inl ?_, lines, carried.within, carried.framed, carried.size, carried.sound⟩
    · change (p.unsent.eraseIdx 0 ++ fresh p.queue queue).length = queue.outstanding.length
      rw [only, one, outstanding]
      rfl
    · change p.wire ++ (p.unsent.eraseIdx 0 ++ fresh p.queue queue).flatten = sent queue.trace
      rw [only, one, sent_more p.queue queue next more, ← all]
      simp

theorem transmit_carried (p : State H) (carried : Carried p) (i n : Nat) (bytes : List UInt8) (found : p.unsent[i]? = some bytes) :
    Carried { p with wire := p.wire ++ bytes.take n, unsent := p.unsent.set i (bytes.drop n) } := by
  have bound := (List.getElem?_eq_some_iff.mp found).1
  have single := carried.flow.exclusive.single
  have paired := carried.paired
  rw [Stream.State.pending] at single
  have only : p.unsent = [bytes] := by
    obtain ⟨lone, same⟩ := List.length_eq_one_iff.mp (show p.unsent.length = 1 by omega)
    have first : i = 0 := by omega
    rw [same, first] at found
    rw [same, Option.some.inj found]
  have first : i = 0 := by
    rw [only] at bound
    exact Nat.lt_one_iff.mp bound
  have sound : ¬ Broken p.queue := by
    intro broken
    have none := broken.2
    rw [Stream.State.pending] at none
    omega
  have all := carried.carried.resolve_right fun part => sound part.1
  refine ⟨carried.flow, ?_, .inl ?_, carried.lines, ?_, ?_, carried.size, carried.sound⟩
  · rw [List.length_set]
    exact paired
  · rw [only, List.flatten_singleton] at all
    rw [only, first, List.set_cons_zero, List.flatten_singleton, List.append_assoc, List.take_append_drop, all]
  · rw [List.length_append]
    exact Nat.le_add_right_of_le carried.within
  · rw [List.take_append_of_le_length carried.within]
    exact carried.framed

theorem receive_carried (p : State H) (carried : Carried p) (n : Nat) (memory : Nat → UInt8) (clock : Nat → Int)
    (arrived : p.read + n ≤ p.wire.length) (appends : Appends p.feed.framer (p.chunk n)) : Carried (p.receive n (p.feed.round ⟨p.chunk n, memory, clock⟩)) := by
  have joined : p.wire.take p.read ++ p.chunk n = p.wire.take (p.read + n) := List.take_add.symm
  obtain ⟨feed, ran, framed, size⟩ := round_frames p.feed (p.wire.take p.read) ⟨p.chunk n, memory, clock⟩ carried.framed carried.size
    (by rw [joined]; exact read_filled p carried _) appends
  rw [joined] at framed
  rw [ran]
  exact ⟨carried.flow, carried.paired, carried.carried, carried.lines, arrived, framed, size, carried.sound⟩

theorem step_carried (p after : State H) (action : Action H) (carried : Carried p) (clean : Clean p action)
    (taken : step p action = some after) : Carried after := by
  cases action with
  | queue action =>
      rw [step] at taken
      split at taken
      · cases taken
      · rename_i other
        obtain ⟨queue, ran, rfl⟩ := Option.map_eq_some_iff.mp taken
        apply queue_carried p carried action queue _ clean.1 clean.2 ran
        rintro i ok rfl
        exact other rfl
  | transmit i n =>
      obtain ⟨bytes, found, moved⟩ := Option.bind_eq_some_iff.mp taken
      split at moved
      · obtain rfl := Option.some.inj moved
        exact transmit_carried p carried i n bytes found
      · cases moved
  | complete i ok =>
      obtain ⟨bytes, found, moved⟩ := Option.bind_eq_some_iff.mp taken
      split at moved
      · cases moved
      · rename_i written
        obtain ⟨queue, ran, rfl⟩ := Option.map_eq_some_iff.mp moved
        refine complete_carried p carried i ok bytes queue found ?_ ran
        rintro rfl
        simpa using written
  | receive n memory clock =>
      rw [step] at taken
      split at taken
      · cases taken
      · rename_i arrived
        obtain rfl := Option.some.inj taken
        have within : p.read + n ≤ p.wire.length := Nat.le_of_not_lt fun beyond => arrived (.inr (.inr beyond))
        exact receive_carried p carried n memory clock within clean

-- The peer's messages are the lines that were accepted, whole and in order, up
-- to some point; and all of them once the queue is idle and everything is read.
structure Arrives (p : State H) : Prop where
  sound : p.raised = false
  inOrder : payloads p.feed.messages <+: (accepted p.queue.trace).map content
  all : p.queue.writing = false → p.read = p.wire.length → payloads p.feed.messages = (accepted p.queue.trace).map content

theorem carried_arrives (p : State H) (carried : Carried p) : Arrives p := by
  have handedOver := handed_accepted p carried
  obtain ⟨cut, _⟩ := sent_lines (handed p.queue.trace) fun entry member => carried.lines entry (handedOver.subset member)
  have messages := ((framed_iff _ _).mp carried.framed).1
  refine ⟨carried.sound, ?_, fun idle whole => ?_⟩
  · obtain ⟨more, joined⟩ := read_sent p carried p.read
    change lines newline (sent p.queue.trace) = _ at cut
    rw [← joined, lines_append] at cut
    rw [messages]
    exact List.IsPrefix.trans ⟨_, cut⟩ (handedOver.map content)
  · have unbroken : ¬ Broken p.queue := fun broken => Bool.false_ne_true (idle.symm.trans broken.1)
    have quiet : p.queue.outstanding = [] := by
      have single := carried.flow.exclusive.single
      have unflagged : ¬ p.queue.pending = 1 := fun one => Bool.false_ne_true (idle.symm.trans (carried.flow.exclusive.flagged one))
      rw [Stream.State.pending] at single unflagged
      exact List.eq_nil_of_length_eq_zero (by omega)
    have empty : p.queue.writeQueue = [] := by
      by_contra waiting
      exact Bool.false_ne_true (idle.symm.trans (carried.flow.busy waiting))
    have written := carried.carried.resolve_right fun part => unbroken part.1
    have everything := carried.flow.whole.resolve_right fun part => unbroken part.1
    rw [empty, List.append_nil] at everything
    rw [List.eq_nil_of_length_eq_zero (carried.paired.trans (by rw [quiet]; rfl)), List.flatten_nil, List.append_nil] at written
    rw [messages, whole, List.take_length, written, sent, cut, everything]

theorem start_framed (memory : Nat → UInt8) (framer : SimpleLineFramer) (made : Frame.construct memory = .ok framer) :
    Framed [] ⟨framer, []⟩ ∧ framer.scratch.size = 4096 := by
  obtain ⟨other, same, start, size⟩ := construct_ok memory
  obtain rfl : framer = other := Except.ok.inj (made.symm.trans same)
  refine ⟨(framed_iff _ _).mpr ⟨rfl, ?_, ?_⟩, size⟩
  · change framer.scratch.bytes.take framer.writePos = []
    rw [start, List.take_zero]
  · change framer.writePos ≤ framer.scratch.size
    rw [start]
    exact Nat.zero_le _

theorem lines_arrive (memory : Nat → UInt8) (framer : SimpleLineFramer) (made : Frame.construct memory = .ok framer) (maxQueue : Nat)
    (p : State H) (reachable : Machine.Reachable step Clean (construct maxQueue framer) p) : Arrives p := by
  apply carried_arrives
  apply Machine.reachable_invariant step Clean (construct maxQueue framer) Carried _ _ p reachable
  · obtain ⟨framed, size⟩ := start_framed memory framer made
    refine ⟨Stream.construct_flow maxQueue, rfl, .inl rfl, ?_, Nat.le_refl 0, framed, size, rfl⟩
    intro entry member
    cases member
  · intro before action after _ carried clean taken
    exact step_carried before after action carried clean taken

theorem receive_rest (p : State H) (n : Nat) (result : Except Raised Feed) : (p.receive n result).queue = p.queue ∧
    (p.receive n result).wire = p.wire ∧ (p.receive n result).read = p.read + n := by
  cases result <;> exact ⟨rfl, rfl, rfl⟩

def splitLine : Entry (List UInt8) Nat := ⟨[97, newline], none, 0⟩

def handedOver (framer : SimpleLineFramer) : State Nat :=
  { (construct 8 framer : State Nat) with
    queue := { Stream.construct 8 with
      writing := true, outstanding := [splitLine], sends := 1, trace := [.accepted splitLine, .handed splitLine] }
    unsent := [[97, newline]] }

def written (framer : SimpleLineFramer) : State Nat :=
  { (construct 8 framer : State Nat) with
    queue := { Stream.construct 8 with sends := 1, trace := [.accepted splitLine, .handed splitLine, .completed splitLine true] }
    wire := [97, newline] }

-- The line goes out in two pieces, and the peer reads it at once.
theorem split_line_arrives :
    ∃ (framer : SimpleLineFramer) (p : State Nat), Frame.construct (fun _ => 0) = .ok framer ∧
      Machine.Reachable step Clean (construct 8 framer) p ∧ payloads p.feed.messages = [[97]] ∧ Arrives p := by
  obtain ⟨framer, made, _, _⟩ := construct_ok fun _ => 0
  obtain ⟨framed, size⟩ := start_framed _ framer made
  have line : Line [97, newline] := ⟨[97], by decide, by decide, rfl⟩
  have appends : Appends framer [97, newline] := framed_idle_appends ⟨framer, []⟩ [] [97, newline] framed rfl size (by decide)
  have queued : Machine.Reachable step Clean (construct 8 framer) (handedOver framer) :=
    .step _ _ (.queue (.asyncSend [97, newline] none)) .start ⟨trivial, by rintro _ _ ⟨⟩; exact line⟩ rfl
  have begun : Machine.Reachable step Clean (construct 8 framer) { handedOver framer with wire := [97], unsent := [[newline]] } :=
    .step _ _ (.transmit 0 1) queued trivial rfl
  have whole : Machine.Reachable step Clean (construct 8 framer) { handedOver framer with wire := [97, newline], unsent := [[]] } :=
    .step _ _ (.transmit 0 1) begun trivial rfl
  have completed : Machine.Reachable step Clean (construct 8 framer) (written framer) := .step _ _ (.complete 0 true) whole trivial rfl
  have read : step (written framer) (.receive 2 (fun _ => 0) fun _ => 0) =
      some ((written framer).receive 2 ((written framer).feed.round ⟨(written framer).chunk 2, fun _ => 0, fun _ => 0⟩)) := by
    rw [step, if_neg (by simp [written, construct])]
  have clean : Clean (written framer) (.receive 2 (fun _ => 0) fun _ => 0) := appends
  have arrived := completed.step _ _ _ clean read
  have arrives := lines_arrive _ framer made 8 _ arrived
  obtain ⟨queue, wire, taken⟩ := receive_rest (written framer) 2
    ((written framer).feed.round ⟨(written framer).chunk 2, fun _ => 0, fun _ => 0⟩)
  refine ⟨framer, _, made, arrived, ?_, arrives⟩
  rw [arrives.all (by rw [queue]; rfl) (by rw [taken, wire]; rfl), queue]
  rfl

end Vectro.Pipe
