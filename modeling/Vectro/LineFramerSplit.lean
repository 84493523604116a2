import Vectro.LineFramerScan

set_option autoImplicit false

namespace Vectro.Frame

open Lines

-- No '\n' comes first, and none right after another one.
def Spaced (text : List UInt8) : Prop :=
  text[0]? ≠ some newline ∧ ∀ i, text[i]? = some newline → text[i + 1]? ≠ some newline

theorem spaced_iff (text : List UInt8) : Spaced text ↔ [] ∉ lines newline text := by
  rw [lines, cut_blank_iff, Spaced]
  constructor
  · rintro ⟨first, apart⟩ (⟨_, leads⟩ | ⟨i, here, next⟩)
    · exact first leads
    · exact apart i here next
  · intro filled
    exact ⟨fun leads => filled (.inl ⟨rfl, leads⟩), fun i here next => filled (.inr ⟨i, here, next⟩)⟩

-- OnData returns one message for each '\n' it looks at, with the lines in order.
def Answers (framer : SimpleLineFramer) (memory : Nat → UInt8) (clock : Nat → Int) (n : Nat) : Prop :=
  ∃ next out, framer.onData memory clock n = .ok (next, out) ∧ out.length = (framer.view n).count newline ∧
    ∀ k : Nat, (payloads out)[k]? = ((framer.view n).splitOn newline).dropLast[k]?

section
variable (memory : Nat → UInt8) (clock : Nat → Int) (framer : SimpleLineFramer) (n : Nat)
  (inside : framer.writePos + n ≤ framer.scratch.size) (fits : framer.scratch.size < 2 ^ 64)

include inside fits

theorem on_data_answers (filled : [] ∉ lines newline (framer.view n)) : Answers framer memory clock n := by
  obtain ⟨next, out, answered, cuts, _, _, _⟩ := on_data_spec memory clock framer n inside fits filled
  refine ⟨next, out, answered, ?_, ?_⟩
  · have count := congrArg List.length cuts
    rw [payloads, List.length_map, lines, cut_lines_length] at count
    exact count
  · intro k
    rw [cuts, split_on_eq, List.dropLast_concat]

theorem on_data_returned (next : SimpleLineFramer) (out : List InternalMessage)
    (returned : framer.onData memory clock n = .ok (next, out)) : [] ∉ lines newline (framer.view n) := by
  intro blank
  obtain ⟨raised, failed⟩ := on_data_raises memory clock framer n (by omega) (.inr blank)
  rw [failed] at returned
  cases returned

end

theorem on_data_answers_iff (memory : Nat → UInt8) (clock : Nat → Int) (framer : SimpleLineFramer) (n : Nat)
    (inside : framer.writePos + n ≤ framer.scratch.size) (fits : framer.scratch.size < 2 ^ 64) :
    Answers framer memory clock n ↔ Spaced (framer.view n) := by
  rw [spaced_iff]
  constructor
  · rintro ⟨next, out, answered, _⟩
    exact on_data_returned memory clock framer n inside fits next out answered
  · intro filled
    exact on_data_answers memory clock framer n inside fits filled

-- "a\nb" with the 'a' pending: one line, and the rest of another.
theorem on_data_answers_pending :
    Answers ⟨⟨[97, 10, 98, 0], by simp⟩, 1⟩ (fun _ => 0) (fun _ => 0) 2 := by
  refine (on_data_answers_iff (fun _ => 0) (fun _ => 0) ⟨⟨[97, 10, 98, 0], by simp⟩, 1⟩ 2 (by decide) (by decide)).mpr ?_
  rw [spaced_iff]
  decide

-- A '\n' alone: RawBuffer::Make(0) raises where a message with an empty payload is due.
theorem blank_line_raises :
    ¬ ∀ (framer : SimpleLineFramer) (memory : Nat → UInt8) (clock : Nat → Int) (n : Nat),
      framer.writePos + n ≤ framer.scratch.size → framer.scratch.size < 2 ^ 64 → Answers framer memory clock n := by
  intro claimed
  obtain ⟨next, out, answered, _⟩ := claimed ⟨⟨[10], by simp⟩, 0⟩ (fun _ => 0) (fun _ => 0) 1 (by decide) (by decide)
  have filled := on_data_returned (fun _ => 0) (fun _ => 0) ⟨⟨[10], by simp⟩, 0⟩ 1 (by decide) (by decide) next out answered
  exact filled (by decide)

-- What one OnData makes of the bytes it looks at, and that it leaves nothing to
-- another one.
structure Splits (framer next : SimpleLineFramer) (n : Nat) (out : List InternalMessage) : Prop where
  joins : ((payloads out).map (· ++ [newline])).flatten ++ next.scratch.bytes.take next.writePos = framer.view n
  payload : ∀ line ∈ payloads out, newline ∉ line
  leftover : newline ∉ next.scratch.bytes.take next.writePos
  shorter : next.writePos ≤ framer.writePos + n
  held : next.writePos ≤ next.scratch.size
  settled : ∀ memory clock, ∃ same, next.onData memory clock 0 = .ok (same, []) ∧ same.writePos = next.writePos ∧
    same.scratch.bytes.take same.writePos = next.scratch.bytes.take next.writePos

theorem on_data_idle (memory : Nat → UInt8) (clock : Nat → Int) (framer : SimpleLineFramer)
    (held : framer.writePos ≤ framer.scratch.size) (fits : framer.scratch.size < 2 ^ 64)
    (leftover : newline ∉ framer.scratch.bytes.take framer.writePos) :
    ∃ same, framer.onData memory clock 0 = .ok (same, []) ∧ same.writePos = framer.writePos ∧
      same.scratch.bytes.take same.writePos = framer.scratch.bytes.take framer.writePos := by
  have uncut := cut_unmarked newline [] (framer.view 0) leftover
  have none : lines newline (framer.view 0) = [] := congrArg Prod.fst uncut
  have all : rest newline (framer.view 0) = framer.view 0 := congrArg Prod.snd uncut
  obtain ⟨same, out, answered, cuts, tail, position, _⟩ := on_data_spec memory clock framer 0 held fits
    (by rw [none]; exact List.not_mem_nil)
  have silent : out = [] := List.map_eq_nil_iff.mp (cuts.trans none)
  refine ⟨same, silent ▸ answered, ?_, tail.trans all⟩
  rw [position, all]
  exact List.length_take_of_le held

theorem on_data_splits (memory : Nat → UInt8) (clock : Nat → Int) (framer : SimpleLineFramer) (n : Nat)
    (inside : framer.writePos + n ≤ framer.scratch.size) (fits : framer.scratch.size < 2 ^ 64)
    (next : SimpleLineFramer) (out : List InternalMessage) (returned : framer.onData memory clock n = .ok (next, out)) :
    Splits framer next n out := by
  have filled := on_data_returned memory clock framer n inside fits next out returned
  obtain ⟨reached, lined, answered, cuts, tail, position, size⟩ := on_data_spec memory clock framer n inside fits filled
  rw [answered] at returned
  cases returned
  have width : (framer.view n).length = framer.writePos + n := List.length_take_of_le inside
  have short : next.writePos ≤ framer.writePos + n := by
    rw [position, ← width]
    exact (rest_suffix newline (framer.view n)).length_le
  have held : next.writePos ≤ next.scratch.size := size ▸ Nat.le_trans short inside
  have leftover : newline ∉ next.scratch.bytes.take next.writePos := tail ▸ rest_unmarked newline (framer.view n)
  refine ⟨?_, ?_, leftover, short, held, ?_⟩
  · rw [cuts, tail]
    exact cut_joins newline [] (framer.view n)
  · rw [cuts]
    exact fun line => cut_lines_unmarked newline [] (framer.view n) line List.not_mem_nil
  · exact fun memory clock => on_data_idle memory clock next held (size ▸ fits) leftover

-- "ab\ncd": the line goes out and the tail is moved to the front.
theorem on_data_splits_tail :
    ∃ next out, (⟨⟨[97, 98, 10, 99, 100, 0], by simp⟩, 2⟩ : SimpleLineFramer).onData (fun _ => 0) (fun _ => 0) 3 =
      .ok (next, out) ∧ payloads out = [[97, 98]] ∧ next.scratch.bytes.take next.writePos = [99, 100] ∧
      Splits ⟨⟨[97, 98, 10, 99, 100, 0], by simp⟩, 2⟩ next 3 out := by
  obtain ⟨next, out, answered, cuts, tail, _, _⟩ := on_data_spec (fun _ => 0) (fun _ => 0)
    ⟨⟨[97, 98, 10, 99, 100, 0], by simp⟩, 2⟩ 3 (by decide) (by decide) (by decide)
  exact ⟨next, out, answered, cuts, tail, on_data_splits _ _ _ 3 (by decide) (by decide) next out answered⟩

end Vectro.Frame
