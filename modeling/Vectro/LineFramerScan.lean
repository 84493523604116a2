import Vectro.LineFramer

set_option autoImplicit false

namespace Vectro.Frame

open Lines

section
variable (memory : Nat → UInt8) (clock : Nat → Int)

theorem overwrite_fits (bytes data : List UInt8) (fits : data.length ≤ bytes.length) :
    overwrite bytes data = data ++ bytes.drop data.length := by
  rw [overwrite, List.take_of_length_le fits]

theorem make_write (size : Nat) (data : List UInt8) (nonzero : size ≠ 0) (fits : data.length = size) :
    ∃ buffer, RawBuffer.make memory size = .ok buffer ∧ (buffer.write data).bytes = data := by
  refine ⟨⟨(List.range size).map memory, by simpa using nonzero⟩, by rw [RawBuffer.make, dif_neg nonzero], ?_⟩
  show overwrite ((List.range size).map memory) data = data
  rw [overwrite_fits _ _ (by simp [fits])]
  simp [fits]

def payloads (messages : List InternalMessage) : List (List UInt8) := messages.map fun message => message.buffer.bytes

theorem scan_mark_empty (data : List UInt8) (remaining i : Nat) (out : List InternalMessage)
    (found : data[i]? = some newline) : ∃ raised, scan memory clock data (remaining + 1) i i out = .error raised := by
  refine ⟨.invalidArgument "RawBuffer: invalid construction arguments.", ?_⟩
  simp only [scan, found, if_true, Nat.sub_self]
  rfl

theorem scan_mark (data : List UInt8) (remaining i start : Nat) (out : List InternalMessage)
    (found : data[i]? = some newline) (begun : start < i) (bound : i ≤ data.length) :
    ∃ message, message.buffer.bytes = (data.drop start).take (i - start) ∧
      scan memory clock data (remaining + 1) i start out =
        scan memory clock data remaining (i + 1) (i + 1) (out ++ [message]) := by
  have length : ((data.drop start).take (i - start)).length = i - start := by
    rw [List.length_take, List.length_drop]
    omega
  obtain ⟨buffer, made, written⟩ := make_write memory (i - start) _ (by omega) length
  refine ⟨⟨{ timestamp := clock out.length }, buffer.write ((data.drop start).take (i - start))⟩, written, ?_⟩
  simp only [scan, found, if_true, made]
  rfl

theorem scan_byte (data : List UInt8) (remaining i start : Nat) (out : List InternalMessage) (byte : UInt8)
    (found : data[i]? = some byte) (other : byte ≠ newline) :
    scan memory clock data (remaining + 1) i start out = scan memory clock data remaining (i + 1) start out := by
  simp only [scan, found, if_neg other]

-- The bytes from start to i are the beginning of the line that the loop is in.
-- An empty line raises, since no RawBuffer is empty.
theorem scan_cut (data : List UInt8) (remaining i start : Nat) (out : List InternalMessage)
    (inside : i + remaining ≤ data.length) (begun : start ≤ i) (part : List UInt8)
    (sofar : part = (data.drop start).take (i - start)) (cutting : List (List UInt8) × List UInt8)
    (cuts : cutting = cut newline part ((data.drop i).take remaining)) :
    if [] ∈ cutting.1 then ∃ raised, scan memory clock data remaining i start out = .error raised
    else ∃ messages, scan memory clock data remaining i start out = .ok (i + remaining - cutting.2.length, messages) ∧
      payloads messages = payloads out ++ cutting.1 := by
  have length : part.length = i - start := by
    rw [sofar, List.length_take, List.length_drop]
    omega
  induction remaining generalizing i start out part cutting with
  | zero =>
      rw [cuts, List.take_zero, cut, if_neg List.not_mem_nil]
      refine ⟨out, ?_, (List.append_nil _).symm⟩
      rw [scan, length, show i + 0 - (i - start) = start by omega]
  | succ remaining ih =>
      have bound : i < data.length := by omega
      have window : (data.drop i).take (remaining + 1) = data[i] :: (data.drop (i + 1)).take remaining := by
        rw [List.drop_eq_getElem_cons bound, List.take_succ_cons]
      have found : data[i]? = some data[i] := List.getElem?_eq_getElem bound
      have grown : (data.drop start).take (i + 1 - start) = part ++ [data[i]] := by
        have here : (data.drop start)[i - start]? = some data[i] := by
          rw [List.getElem?_drop, show start + (i - start) = i by omega, found]
        rw [show i + 1 - start = i - start + 1 by omega, List.take_add_one, here, ← sofar]
        rfl
      rw [window, cut] at cuts
      generalize data[i] = byte at cuts found grown
      by_cases ends : byte = newline
      · subst byte
        rw [if_pos rfl] at cuts
        by_cases empty : start = i
        · subst start
          have none : part = [] := List.eq_nil_of_length_eq_zero (by omega)
          rw [cuts, if_pos (by rw [none]; exact List.mem_cons_self)]
          exact scan_mark_empty memory clock data remaining i out found
        · obtain ⟨message, payload, scanned⟩ := scan_mark memory clock data remaining i start out found (by omega) (by omega)
          have some : part ≠ [] := List.ne_nil_of_length_pos (by omega)
          have next := ih (i + 1) (i + 1) (out ++ [message]) (by omega) (Nat.le_refl _) []
            (by rw [Nat.sub_self, List.take_zero]) _ rfl (by rw [Nat.sub_self]; rfl)
          rw [cuts, scanned]
          simp only [List.mem_cons, some.symm, false_or]
          split
          · rename_i blank
            rwa [if_pos blank] at next
          · rename_i filled
            rw [if_neg filled] at next
            obtain ⟨messages, done, all⟩ := next
            refine ⟨messages, by rw [done, show i + 1 + remaining = i + (remaining + 1) by omega], ?_⟩
            rw [all, payloads, List.map_append, List.append_assoc, sofar, ← payload]
            rfl
      · rw [if_neg ends] at cuts
        rw [scan_byte memory clock data remaining i start out byte found ends]
        have next := ih (i + 1) start out (by omega) (by omega) (part ++ [byte]) grown.symm cutting cuts
          (by rw [List.length_append, length, List.length_singleton]; omega)
        rwa [show i + 1 + remaining = i + (remaining + 1) by omega] at next

theorem scan_overruns (data : List UInt8) (remaining i start : Nat) (out : List InternalMessage)
    (beyond : data.length < i + remaining) (begun : start ≤ i) (bound : i ≤ data.length) :
    ∃ raised, scan memory clock data remaining i start out = .error raised := by
  induction remaining generalizing i start out with
  | zero => omega
  | succ remaining ih =>
      cases found : data[i]? with
      | none => exact ⟨.outOfBounds, by simp only [scan, found]⟩
      | some byte =>
          have inside := (List.getElem?_eq_some_iff.mp found).1
          by_cases ends : byte = newline
          · subst byte
            by_cases empty : start = i
            · subst start
              exact scan_mark_empty memory clock data remaining i out found
            · obtain ⟨message, _, scanned⟩ := scan_mark memory clock data remaining i start out found (by omega) bound
              rw [scanned]
              exact ih (i + 1) (i + 1) _ (by omega) (Nat.le_refl _) inside
          · rw [scan_byte memory clock data remaining i start out byte found ends]
            exact ih (i + 1) start out (by omega) (by omega) inside

-- OnData looks at the first bytes of the buffer, as many as were pending plus
-- as many as were read.
def SimpleLineFramer.view (framer : SimpleLineFramer) (n : Nat) : List UInt8 :=
  framer.scratch.bytes.take (framer.writePos + n)

-- The scan of OnData, which begins at the first byte.
theorem scan_view (framer : SimpleLineFramer) (n : Nat) (inside : framer.writePos + n ≤ framer.scratch.size) :
    if [] ∈ lines newline (framer.view n) then
      ∃ raised, scan memory clock framer.scratch.bytes (framer.writePos + n) 0 0 [] = .error raised
    else
      ∃ messages, scan memory clock framer.scratch.bytes (framer.writePos + n) 0 0 [] =
        .ok (framer.writePos + n - (rest newline (framer.view n)).length, messages) ∧
        payloads messages = lines newline (framer.view n) := by
  have scanned := scan_cut memory clock framer.scratch.bytes (framer.writePos + n) 0 0 []
    (by rw [Nat.zero_add]; exact inside) (Nat.le_refl 0) [] rfl _ rfl
  rw [List.drop_zero, Nat.zero_add] at scanned
  exact scanned

theorem on_data_spec (framer : SimpleLineFramer) (n : Nat) (inside : framer.writePos + n ≤ framer.scratch.size)
    (fits : framer.scratch.size < 2 ^ 64) (filled : [] ∉ lines newline (framer.view n)) :
    ∃ next out, framer.onData memory clock n = .ok (next, out) ∧ payloads out = lines newline (framer.view n) ∧
      next.scratch.bytes.take next.writePos = rest newline (framer.view n) ∧
      next.writePos = (rest newline (framer.view n)).length ∧ next.scratch.size = framer.scratch.size := by
  have scanned := scan_view memory clock framer n inside
  rw [if_neg filled] at scanned
  obtain ⟨messages, done, all⟩ := scanned
  have position : sizeT (framer.writePos + n) = framer.writePos + n := Nat.mod_eq_of_lt (by omega)
  have width : (framer.view n).length = framer.writePos + n := List.length_take_of_le inside
  have tail := rest_suffix newline (framer.view n)
  have short : (rest newline (framer.view n)).length ≤ framer.writePos + n := width ▸ tail.length_le
  generalize rest newline (framer.view n) = left at tail short done
  by_cases empty : left = []
  · refine ⟨⟨framer.scratch, 0⟩, messages, ?_, all, by rw [empty]; rfl, by rw [empty]; rfl, rfl⟩
    simp only [SimpleLineFramer.onData, position, done, empty, List.length_nil, Nat.sub_zero, Except.bind, bind,
      Nat.lt_irrefl, if_false]
  · have some := List.length_pos_iff.mpr empty
    have leftover : (framer.scratch.bytes.drop (framer.writePos + n - left.length)).take
        (framer.writePos + n - (framer.writePos + n - left.length)) = left := by
      rw [← List.drop_take]
      exact (width ▸ List.suffix_iff_eq_drop.mp tail).symm
    refine ⟨⟨framer.scratch.write left, left.length⟩, messages, ?_, all, ?_, rfl, overwrite_length _ _⟩
    · have less : framer.writePos + n - left.length < framer.writePos + n := by omega
      simp only [SimpleLineFramer.onData, position, done, Except.bind, bind]
      rw [if_pos less, leftover, show framer.writePos + n - (framer.writePos + n - left.length) = left.length by omega]
    · change (overwrite framer.scratch.bytes left).take left.length = left
      rw [overwrite_fits _ _ (Nat.le_trans short inside), List.take_left]

theorem on_data_raises (framer : SimpleLineFramer) (n : Nat) (fits : framer.writePos + n < 2 ^ 64)
    (bad : framer.scratch.size < framer.writePos + n ∨ [] ∈ lines newline (framer.view n)) :
    ∃ raised, framer.onData memory clock n = .error raised := by
  have position : sizeT (framer.writePos + n) = framer.writePos + n := Nat.mod_eq_of_lt fits
  have stopped : ∃ raised, scan memory clock framer.scratch.bytes (framer.writePos + n) 0 0 [] = .error raised := by
    by_cases inside : framer.writePos + n ≤ framer.scratch.size
    · have blank : [] ∈ lines newline (framer.view n) := bad.resolve_left (by omega)
      have scanned := scan_view memory clock framer n inside
      rwa [if_pos blank] at scanned
    · refine scan_overruns memory clock _ _ 0 0 [] ?_ (Nat.le_refl 0) (Nat.zero_le _)
      rw [Nat.zero_add]
      exact Nat.lt_of_not_le inside
  obtain ⟨raised, failed⟩ := stopped
  refine ⟨raised, ?_⟩
  simp only [SimpleLineFramer.onData, position, failed, Except.bind, bind]

end

end Vectro.Frame
