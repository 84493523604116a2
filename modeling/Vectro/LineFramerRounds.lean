import Mathlib.Data.List.Induction
import Vectro.LineFramerScan

set_option autoImplicit false

namespace Vectro.Frame

open Lines

-- The messages so far are the lines of what was received, and the first bytes
-- of the buffer are what follows the last of them.
def Framed (received : List UInt8) (feed : Feed) : Prop :=
  payloads feed.messages ++ [feed.framer.scratch.bytes.take feed.framer.writePos] = received.splitOn newline ∧
    feed.framer.writePos ≤ feed.framer.scratch.size

theorem framed_iff (received : List UInt8) (feed : Feed) :
    Framed received feed ↔ payloads feed.messages = lines newline received ∧
      feed.framer.scratch.bytes.take feed.framer.writePos = rest newline received ∧
      feed.framer.writePos ≤ feed.framer.scratch.size := by
  rw [Framed, split_on_eq]
  constructor
  · rintro ⟨pieces, bound⟩
    obtain ⟨complete, last⟩ := List.append_inj' pieces rfl
    exact ⟨complete, List.singleton_inj.mp last, bound⟩
  · rintro ⟨complete, last, bound⟩
    exact ⟨by rw [complete, last], bound⟩

def NoEmptyLine (received : List UInt8) : Prop := [] ∉ (received.splitOn newline).dropLast

theorem no_empty_line_iff (received : List UInt8) : NoEmptyLine received ↔ [] ∉ lines newline received := by
  rw [NoEmptyLine, split_on_eq, List.dropLast_concat]

-- The state before a round in which the read does what the framer takes it to
-- do: the buffer stays, it has room for the bytes behind the pending ones, and
-- the read, which goes to the front of the buffer and not behind them, leaves
-- the bytes there that would stand there if it had gone behind them.
def Appends (framer : SimpleLineFramer) (chunk : List UInt8) : Prop :=
  framer.writePos + 1024 ≤ framer.scratch.size ∧ framer.writePos + chunk.length ≤ framer.scratch.size ∧
    chunk ++ (framer.scratch.bytes.drop chunk.length).take framer.writePos =
      framer.scratch.bytes.take framer.writePos ++ chunk

theorem fill_size (framer : SimpleLineFramer) (chunk : List UInt8) :
    (framer.fill chunk).scratch.size = framer.scratch.size := overwrite_length _ _

theorem fill_view (framer : SimpleLineFramer) (chunk : List UInt8) (fits : chunk.length ≤ framer.scratch.size) :
    (framer.fill chunk).view chunk.length = chunk ++ (framer.scratch.bytes.drop chunk.length).take framer.writePos := by
  change (overwrite framer.scratch.bytes chunk).take (framer.writePos + chunk.length) = _
  rw [overwrite_fits _ _ fits, Nat.add_comm, List.take_length_add_append]

-- The lines of what was received before, cut together with the chunk.
theorem lines_received (received chunk : List UInt8) :
    lines newline (received ++ chunk) = lines newline received ++ lines newline (rest newline received ++ chunk) ∧
      rest newline (received ++ chunk) = rest newline (rest newline received ++ chunk) := by
  have pending := cut_pending newline (rest newline received) chunk (rest_unmarked newline received)
  constructor
  · rw [lines_append, lines, lines, pending]
  · rw [rest_append]
    exact (congrArg Prod.snd pending).symm

section
variable (ready : SimpleLineFramer) (messages : List InternalMessage) (received : List UInt8) (read : Read)
  (complete : payloads messages = lines newline received) (fits : read.bytes.length ≤ ready.scratch.size)
  (small : ready.scratch.size < 2 ^ 63)

include complete fits small

-- What the framer does with the chunk once PrepareRead has returned: the lines
-- are right just when it looks at the pending bytes followed by the chunk.
theorem filled_frames (filled : [] ∉ lines newline (received ++ read.bytes))
    (room : ready.writePos + read.bytes.length ≤ ready.scratch.size)
    (same : read.bytes ++ (ready.scratch.bytes.drop read.bytes.length).take ready.writePos =
      rest newline received ++ read.bytes) :
    ∃ next out, (ready.fill read.bytes).onData read.memory read.clock read.bytes.length = .ok (next, out) ∧
      Framed (received ++ read.bytes) ⟨next, messages ++ out⟩ ∧ next.scratch.size = ready.scratch.size := by
  have size := fill_size ready read.bytes
  obtain ⟨grown, left⟩ := lines_received received read.bytes
  have beginning : [] ∉ lines newline (rest newline received ++ read.bytes) := fun blank =>
    filled (grown ▸ List.mem_append_right _ blank)
  rw [← fill_view ready read.bytes fits] at same
  obtain ⟨framer, lined, answered, cuts, tail, position, kept⟩ := on_data_spec read.memory read.clock
    (ready.fill read.bytes) read.bytes.length (size ▸ room) (by omega) (same ▸ beginning)
  refine ⟨framer, lined, answered, (framed_iff _ _).mpr ⟨?_, ?_, ?_⟩, kept.trans size⟩
  · rw [payloads, List.map_append, grown, ← same, ← cuts, ← complete]
    rfl
  · rw [tail, same, left]
  · change framer.writePos ≤ framer.scratch.size
    rw [position, kept, size]
    refine Nat.le_trans (rest_suffix newline _).length_le (Nat.le_trans ?_ room)
    exact List.length_take_le _ _

theorem filled_framed (bound : ready.writePos ≤ ready.scratch.size) (next : SimpleLineFramer)
    (out : List InternalMessage)
    (done : (ready.fill read.bytes).onData read.memory read.clock read.bytes.length = .ok (next, out))
    (framed : Framed (received ++ read.bytes) ⟨next, messages ++ out⟩) :
    ready.writePos + read.bytes.length ≤ ready.scratch.size ∧
      read.bytes ++ (ready.scratch.bytes.drop read.bytes.length).take ready.writePos =
        rest newline received ++ read.bytes := by
  have size := fill_size ready read.bytes
  obtain ⟨grown, left⟩ := lines_received received read.bytes
  rw [← fill_view ready read.bytes fits]
  by_cases bad : ready.scratch.size < ready.writePos + read.bytes.length ∨
      [] ∈ lines newline ((ready.fill read.bytes).view read.bytes.length)
  · obtain ⟨raised, failed⟩ := on_data_raises read.memory read.clock (ready.fill read.bytes) read.bytes.length
      (by change ready.writePos + _ < _; omega) (size ▸ bad)
    rw [failed] at done
    cases done
  · have good := not_or.mp bad
    obtain ⟨framer, lined, answered, cuts, tail, _, _⟩ := on_data_spec read.memory read.clock
      (ready.fill read.bytes) read.bytes.length (size ▸ Nat.le_of_not_lt good.1) (by omega) good.2
    rw [answered] at done
    cases done
    obtain ⟨all, ending, _⟩ := (framed_iff _ _).mp framed
    refine ⟨Nat.le_of_not_lt good.1, cut_injective newline _ _ (Prod.ext ?_ ?_)⟩
    · rw [payloads, List.map_append, grown] at all
      change payloads messages ++ payloads out = _ at all
      rw [complete, cuts] at all
      exact List.append_cancel_left all
    · exact (tail.symm.trans ending).trans left

end

theorem round_filled (feed : Feed) (read : Read) (ready : SimpleLineFramer)
    (prepared : feed.framer.prepareRead read.memory = .ok ready) (next : Feed) :
    feed.round read = .ok next ↔ ∃ framer out, (ready.fill read.bytes).onData read.memory read.clock read.bytes.length =
      .ok (framer, out) ∧ next = ⟨framer, feed.messages ++ out⟩ := by
  rw [Feed.round, prepared]
  simp only [bind, Except.bind]
  cases answered : (ready.fill read.bytes).onData read.memory read.clock read.bytes.length with
  | error raised => simp
  | ok result =>
      obtain ⟨framer, out⟩ := result
      constructor
      · intro done
        cases done
        exact ⟨framer, out, rfl, rfl⟩
      · rintro ⟨_, _, same, rfl⟩
        cases same
        rfl

theorem size_t_sub (size position : Nat) (bound : position ≤ size) (small : size < 2 ^ 63) :
    sizeT (size + 2 ^ 64 - position) = size - position := by
  rw [sizeT, Nat.sub_add_comm bound, Nat.add_mod_right, Nat.mod_eq_of_lt (by omega)]

theorem prepare_keeps (framer : SimpleLineFramer) (memory : Nat → UInt8)
    (room : framer.writePos + 1024 ≤ framer.scratch.size) (small : framer.scratch.size < 2 ^ 63) :
    framer.prepareRead memory = .ok framer := by
  rw [SimpleLineFramer.prepareRead, size_t_sub _ _ (by omega) small, if_neg (by omega)]

theorem prepare_replaces (framer : SimpleLineFramer) (memory : Nat → UInt8)
    (crowded : framer.scratch.size < framer.writePos + 1024) (bound : framer.writePos ≤ framer.scratch.size)
    (small : framer.scratch.size < 2 ^ 63) :
    ∃ ready, framer.prepareRead memory = .ok ready ∧ ready.writePos = 0 ∧
      ready.scratch.size = framer.writePos + 4096 := by
  have width : sizeT (framer.writePos + 4096) = framer.writePos + 4096 := Nat.mod_eq_of_lt (by omega)
  rw [SimpleLineFramer.prepareRead, size_t_sub _ _ bound small, if_pos (by omega), width, RawBuffer.make,
    dif_neg (by omega)]
  exact ⟨_, rfl, rfl, by rw [RawBuffer.size, List.length_map, List.length_range]⟩

-- Asio reads at least one byte, and no more than the buffer holds.
def Legal (framer : SimpleLineFramer) (read : Read) : Prop :=
  ∀ ready, framer.prepareRead read.memory = .ok ready →
    1 ≤ read.bytes.length ∧ read.bytes.length ≤ ready.scratch.size

theorem round_frames (feed : Feed) (received : List UInt8) (read : Read) (framed : Framed received feed)
    (size : feed.framer.scratch.size = 4096) (filled : NoEmptyLine (received ++ read.bytes))
    (appends : Appends feed.framer read.bytes) :
    ∃ next, feed.round read = .ok next ∧ Framed (received ++ read.bytes) next ∧ next.framer.scratch.size = 4096 := by
  obtain ⟨room, inside, same⟩ := appends
  obtain ⟨complete, tail, bound⟩ := (framed_iff _ _).mp framed
  have kept := prepare_keeps feed.framer read.memory room (by omega)
  obtain ⟨framer, out, done, after, still⟩ := filled_frames feed.framer feed.messages received read complete
    (by omega) (by omega) ((no_empty_line_iff _).mp filled) inside (tail ▸ same)
  exact ⟨_, (round_filled feed read _ kept _).mpr ⟨framer, out, done, rfl⟩, after, still.trans size⟩

theorem round_framed_appends (feed : Feed) (received : List UInt8) (read : Read) (framed : Framed received feed)
    (size : feed.framer.scratch.size = 4096) (legal : Legal feed.framer read) (next : Feed)
    (done : feed.round read = .ok next) (after : Framed (received ++ read.bytes) next) :
    Appends feed.framer read.bytes := by
  obtain ⟨complete, tail, bound⟩ := (framed_iff _ _).mp framed
  by_cases room : feed.framer.writePos + 1024 ≤ feed.framer.scratch.size
  · have kept := prepare_keeps feed.framer read.memory room (by omega)
    obtain ⟨framer, out, answered, rfl⟩ := (round_filled feed read _ kept next).mp done
    obtain ⟨inside, same⟩ := filled_framed feed.framer feed.messages received read complete (legal _ kept).2
      (by omega) bound framer out answered after
    exact ⟨room, inside, by rw [tail, same]⟩
  · -- The replaced buffer has lost the pending bytes, of which there are some.
    obtain ⟨ready, replaced, start, width⟩ := prepare_replaces feed.framer read.memory (by omega) bound (by omega)
    obtain ⟨framer, out, answered, rfl⟩ := (round_filled feed read _ replaced next).mp done
    obtain ⟨_, same⟩ := filled_framed ready feed.messages received read complete (legal _ replaced).2
      (by omega) (by omega) framer out answered after
    rw [start, List.take_zero, List.append_nil] at same
    have none : rest newline received = [] := List.self_eq_append_left.mp same
    have length := congrArg List.length (tail.trans none)
    rw [List.length_take_of_le bound, List.length_nil] at length
    omega

theorem construct_ok (memory : Nat → UInt8) :
    ∃ framer, construct memory = .ok framer ∧ framer.writePos = 0 ∧ framer.scratch.size = 4096 := by
  rw [construct, RawBuffer.make, dif_neg (by decide)]
  exact ⟨_, rfl, rfl, by rw [RawBuffer.size, List.length_map, List.length_range]⟩

theorem run_nil (memory : Nat → UInt8) :
    ∃ feed, run memory [] = .ok feed ∧ Framed [] feed ∧ feed.framer.scratch.size = 4096 := by
  obtain ⟨framer, made, start, size⟩ := construct_ok memory
  refine ⟨⟨framer, []⟩, by rw [run, made]; rfl, (framed_iff _ _).mpr ⟨rfl, ?_, start ▸ Nat.zero_le _⟩, size⟩
  rw [start, List.take_zero]
  rfl

theorem run_concat (memory : Nat → UInt8) (reads : List Read) (read : Read) (feed : Feed)
    (reached : run memory reads = .ok feed) : run memory (reads ++ [read]) = feed.round read := by
  obtain ⟨framer, made, _, _⟩ := construct_ok memory
  rw [run, made, ok_bind] at reached ⊢
  rw [List.foldlM_append, reached, ok_bind, List.foldlM_cons]
  simp only [List.foldlM_nil, bind_pure]

theorem stream_concat (reads : List Read) (read : Read) : stream (reads ++ [read]) = stream reads ++ read.bytes := by
  rw [stream, List.map_append, List.flatten_append]
  simp [stream]

theorem no_empty_line_before (received chunk : List UInt8) (filled : NoEmptyLine (received ++ chunk)) :
    NoEmptyLine received := by
  rw [no_empty_line_iff, lines_append] at filled
  exact (no_empty_line_iff _).mpr fun blank => filled (List.mem_append_left _ blank)

section
variable (memory : Nat → UInt8)

-- Before every round of a run.
def EachRound (reads : List Read) (holds : SimpleLineFramer → Read → Prop) : Prop :=
  ∀ done read, done ++ [read] <+: reads → ∀ feed, run memory done = .ok feed → holds feed.framer read

theorem each_round_before (reads more : List Read) (holds : SimpleLineFramer → Read → Prop)
    (each : EachRound memory (reads ++ more) holds) : EachRound memory reads holds :=
  fun done next before feed reached => each done next (before.trans (List.prefix_append _ _)) feed reached

theorem each_round_nil (holds : SimpleLineFramer → Read → Prop) : EachRound memory [] holds := by
  intro done read part
  exact absurd (List.prefix_nil.mp part) (by simp)

theorem each_round_concat (reads : List Read) (read : Read) (holds : SimpleLineFramer → Read → Prop)
    (each : EachRound memory reads holds) (last : ∀ feed, run memory reads = .ok feed → holds feed.framer read) :
    EachRound memory (reads ++ [read]) holds := by
  intro done current part feed reached
  rcases List.prefix_concat_iff.mp part with whole | part
  · obtain ⟨rfl, same⟩ := List.append_inj' whole rfl
    cases List.singleton_inj.mp same
    exact last feed reached
  · exact each done current part feed reached

theorem run_frames (reads : List Read) (filled : NoEmptyLine (stream reads))
    (appends : EachRound memory reads fun framer read => Appends framer read.bytes) :
    ∃ feed, run memory reads = .ok feed ∧ Framed (stream reads) feed ∧ feed.framer.scratch.size = 4096 := by
  induction reads using List.reverseRecOn with
  | nil => exact run_nil memory
  | append_singleton reads read ih =>
      rw [stream_concat] at filled ⊢
      obtain ⟨feed, reached, framed, size⟩ :=
        ih (no_empty_line_before _ _ filled) (each_round_before memory reads [read] _ appends)
      rw [run_concat memory reads read feed reached]
      exact round_frames feed _ read framed size filled (appends reads read (List.prefix_refl _) feed reached)

theorem prefix_frames (done reads : List Read) (part : done <+: reads) (filled : NoEmptyLine (stream reads))
    (appends : EachRound memory reads fun framer read => Appends framer read.bytes) :
    ∃ feed, run memory done = .ok feed ∧ Framed (stream done) feed ∧ feed.framer.scratch.size = 4096 := by
  obtain ⟨more, rfl⟩ := part
  rw [stream, List.map_append, List.flatten_append] at filled
  exact run_frames memory done (no_empty_line_before _ _ filled) (each_round_before memory done more _ appends)

-- A run that has framed everything so far has never replaced its buffer, so
-- only the last round is to be looked at.
theorem framed_run_appends (reads : List Read) (filled : NoEmptyLine (stream reads))
    (legal : EachRound memory reads Legal)
    (framed : ∀ done, done <+: reads → ∃ feed, run memory done = .ok feed ∧ Framed (stream done) feed) :
    EachRound memory reads fun framer read => Appends framer read.bytes := by
  induction reads using List.reverseRecOn with
  | nil => exact each_round_nil memory _
  | append_singleton reads read ih =>
      rw [stream_concat] at filled
      have settled := no_empty_line_before _ _ filled
      have before := ih settled (each_round_before memory reads [read] _ legal) fun done part =>
        framed done (part.trans (List.prefix_append _ _))
      obtain ⟨last, reached, complete, size⟩ := run_frames memory reads settled before
      obtain ⟨next, ended, after⟩ := framed _ (List.prefix_refl _)
      rw [run_concat memory reads read last reached] at ended
      rw [stream_concat] at after
      apply each_round_concat memory reads read _ before
      intro feed arrived
      cases reached.symm.trans arrived
      exact round_framed_appends last _ read complete size (legal _ _ (List.prefix_refl _) last reached) next ended after

end

theorem framed_idle_appends (feed : Feed) (received chunk : List UInt8) (framed : Framed received feed)
    (idle : rest newline received = []) (size : feed.framer.scratch.size = 4096) (fits : chunk.length ≤ 4096) :
    Appends feed.framer chunk := by
  obtain ⟨_, tail, bound⟩ := (framed_iff _ _).mp framed
  have start : feed.framer.writePos = 0 := by rw [← List.length_take_of_le bound, tail, idle, List.length_nil]
  refine ⟨by omega, by omega, ?_⟩
  rw [start, List.take_zero, List.take_zero, List.append_nil]
  rfl

theorem stream_ended (reads : List Read) (ended : ∀ read ∈ reads, read.bytes.getLast? = some newline) :
    rest newline (stream reads) = [] := by
  rcases List.eq_nil_or_concat reads with rfl | ⟨before, read, rfl⟩
  · rfl
  · rw [List.concat_eq_append] at ended ⊢
    apply rest_ended newline _
    rw [stream_concat, List.getLast?_append, ended read (List.mem_append_right _ List.mem_cons_self)]
    rfl

-- A read that ends a line leaves nothing pending, and the read after it has
-- nothing to overwrite.
theorem ended_reads_append (memory : Nat → UInt8) (reads : List Read) (read : Read)
    (filled : NoEmptyLine (stream reads)) (ended : ∀ current ∈ reads, current.bytes.getLast? = some newline)
    (short : ∀ current ∈ reads ++ [read], current.bytes.length ≤ 4096) :
    EachRound memory (reads ++ [read]) fun framer current => Appends framer current.bytes := by
  induction reads using List.reverseRecOn generalizing read with
  | nil =>
      obtain ⟨start, reached, framed, size⟩ := run_nil memory
      refine each_round_concat memory [] read _ (each_round_nil memory _) fun feed arrived => ?_
      cases reached.symm.trans arrived
      exact framed_idle_appends start [] read.bytes framed rfl size (short read (by simp))
  | append_singleton reads before ih =>
      have earlier := ih before (no_empty_line_before _ _ (stream_concat _ _ ▸ filled))
        (fun current member => ended current (List.mem_append_left _ member))
        (fun current member => short current (List.mem_append_left _ member))
      obtain ⟨last, reached, framed, size⟩ := run_frames memory _ filled earlier
      apply each_round_concat memory _ read _ earlier
      intro feed arrived
      cases reached.symm.trans arrived
      exact framed_idle_appends last _ read.bytes framed (stream_ended _ ended) size (short read (by simp))

theorem prepare_roomy (framer ready : SimpleLineFramer) (memory : Nat → UInt8)
    (bound : framer.writePos ≤ framer.scratch.size) (size : framer.scratch.size = 4096)
    (prepared : framer.prepareRead memory = .ok ready) : 4096 ≤ ready.scratch.size := by
  by_cases room : framer.writePos + 1024 ≤ framer.scratch.size
  · cases (prepare_keeps framer memory room (by omega)).symm.trans prepared
    omega
  · obtain ⟨other, replaced, _, width⟩ := prepare_replaces framer memory (by omega) bound (by omega)
    cases replaced.symm.trans prepared
    omega

theorem short_reads_legal (memory : Nat → UInt8) (reads : List Read) (read : Read)
    (filled : NoEmptyLine (stream reads))
    (appends : EachRound memory reads fun framer current => Appends framer current.bytes)
    (short : ∀ current ∈ reads ++ [read], 1 ≤ current.bytes.length ∧ current.bytes.length ≤ 4096) :
    EachRound memory (reads ++ [read]) Legal := by
  intro done current part feed arrived ready prepared
  have bounds := short current (part.subset (List.mem_append_right _ List.mem_cons_self))
  have earlier : done <+: reads := by
    rcases List.prefix_concat_iff.mp part with whole | part
    · exact (List.append_inj' whole rfl).1 ▸ List.prefix_refl _
    · exact (List.prefix_append _ _).trans part
  obtain ⟨last, reached, framed, size⟩ := prefix_frames memory done reads earlier filled appends
  cases reached.symm.trans arrived
  have roomy := prepare_roomy feed.framer ready current.memory framed.2 size prepared
  exact ⟨bounds.1, Nat.le_trans bounds.2 roomy⟩

theorem chunks_framed_iff (memory : Nat → UInt8) (reads : List Read) (filled : NoEmptyLine (stream reads))
    (legal : EachRound memory reads Legal) :
    (∀ done, done <+: reads → ∃ feed, run memory done = .ok feed ∧ Framed (stream done) feed) ↔
      EachRound memory reads fun framer read => Appends framer read.bytes := by
  refine ⟨framed_run_appends memory reads filled legal, fun appends done part => ?_⟩
  obtain ⟨feed, reached, framed, _⟩ := prefix_frames memory done reads part filled appends
  exact ⟨feed, reached, framed⟩

def quiet (bytes : List UInt8) : Read := ⟨bytes, fun _ => 0, fun _ => 0⟩

-- The first read ends a line; the second finds nothing to overwrite.
theorem chunks_framed_lines :
    ∃ feed, run (fun _ => 0) [quiet [97, 98, 10], quiet [99]] = .ok feed ∧ Framed [97, 98, 10, 99] feed := by
  have filled : NoEmptyLine (stream ([quiet [97, 98, 10]] ++ [quiet [99]])) := by
    rw [NoEmptyLine]
    decide
  have before : NoEmptyLine (stream [quiet [97, 98, 10]]) := no_empty_line_before _ _ filled
  have appends := ended_reads_append (fun _ => 0) [quiet [97, 98, 10]] (quiet [99]) before (by decide) (by decide)
  have legal := short_reads_legal (fun _ => 0) [quiet [97, 98, 10]] (quiet [99]) before
    (each_round_before _ _ _ _ appends) (by decide)
  exact (chunks_framed_iff _ _ filled legal).mpr appends _ (List.prefix_refl _)

-- "a" and then "b" with the end of the line: the second read goes over the
-- first, and the lines are not those of "ab".
theorem pending_bytes_overwritten :
    EachRound (fun _ => 0) [quiet [97], quiet [98, 10]] Legal ∧ NoEmptyLine (stream [quiet [97], quiet [98, 10]]) ∧
      ¬ ∀ done, done <+: [quiet [97], quiet [98, 10]] →
        ∃ feed, run (fun _ => 0) done = .ok feed ∧ Framed (stream done) feed := by
  have filled : NoEmptyLine (stream ([quiet [97]] ++ [quiet [98, 10]])) := by
    rw [NoEmptyLine]
    decide
  have before : NoEmptyLine (stream [quiet [97]]) := no_empty_line_before _ _ filled
  have first := ended_reads_append (fun _ => 0) [] (quiet [97]) (by rw [NoEmptyLine]; decide) (by decide) (by decide)
  have legal := short_reads_legal (fun _ => 0) [quiet [97]] (quiet [98, 10]) before first (by decide)
  refine ⟨legal, filled, fun framed => ?_⟩
  obtain ⟨feed, reached, complete, _⟩ := run_frames _ _ before first
  obtain ⟨_, _, same⟩ := framed_run_appends _ _ filled legal framed _ _ (List.prefix_refl _) feed reached
  rw [((framed_iff _ _).mp complete).2.1] at same
  change (98 : UInt8) :: _ = 97 :: _ at same
  exact absurd (List.cons.inj same).1 (by decide)

end Vectro.Frame
