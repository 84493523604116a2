import Vectro.LineFramerRounds
import Vectro.Machine

set_option autoImplicit false

namespace Vectro.Rounds

open Vectro.Frame Lines

inductive Phase where
  | idle
  | prepared
  | filled (n : Nat)
deriving DecidableEq, Repr

-- The framer between the calls of a round. After a Reset that nothing has
-- followed there is no buffer.
structure State where
  scratch : Option RawBuffer
  writePos : Nat
  phase : Phase
  fault : Bool
deriving DecidableEq

def begin (framer : SimpleLineFramer) : State where
  scratch := some framer.scratch
  writePos := framer.writePos
  phase := .idle
  fault := false

def State.bytes (s : State) : List UInt8 := s.scratch.elim [] RawBuffer.bytes

def State.size (s : State) : Nat := s.bytes.length

def State.grows (s : State) : Bool := decide (sizeT (s.size + 2 ^ 64 - s.writePos) < 1024)

-- PrepareRead releases the buffer before it asks for another one: where
-- operator new raises, write_pos_ has kept its value.
def State.prepareRead (s : State) (alloc : Option (Nat → UInt8)) : State :=
  if s.grows then
    match alloc with
    | none => { s with scratch := none }
    | some memory =>
        match RawBuffer.make memory (sizeT (s.writePos + 4096)) with
        | .ok scratch => { s with scratch := some scratch, writePos := 0, phase := .prepared }
        | .error _ => { s with scratch := none }
  else { s with phase := .prepared }

-- OnData counts the bytes first; what raises later leaves the count and the
-- buffer as they are.
def State.onData (s : State) (memory : Nat → UInt8) (clock : Nat → Int) (n : Nat) : State :=
  match s.scratch with
  | none => if sizeT (s.writePos + n) = 0 then { s with writePos := 0, phase := .idle } else { s with fault := true }
  | some scratch =>
      match (⟨scratch, s.writePos⟩ : SimpleLineFramer).onData memory clock n with
      | .ok (next, _) => { s with scratch := some next.scratch, writePos := next.writePos, phase := .idle }
      | .error .outOfBounds => { s with fault := true }
      | .error (.invalidArgument _) => { s with writePos := sizeT (s.writePos + n), phase := .idle }

-- operator new gives fresh memory or raises.
inductive Action where
  | prepareRead (alloc : Option (Nat → UInt8))
  | read (bytes : List UInt8)
  | onData (memory : Nat → UInt8) (clock : Nat → Int)
  | onDataFails

-- No object is larger than PTRDIFF_MAX bytes, so operator new does not give
-- more. In OnData it may raise at any line, which is onDataFails.
def step (s : State) (action : Action) : Option State :=
  if s.fault then none
  else match s.phase, action with
  | .idle, .prepareRead alloc =>
      if s.grows ∧ alloc.isSome ∧ 2 ^ 63 ≤ sizeT (s.writePos + 4096) then none else some (s.prepareRead alloc)
  | .prepared, .read bytes =>
      if bytes.length ≤ s.size then
        some { s with scratch := s.scratch.map (RawBuffer.write · bytes), phase := .filled bytes.length }
      else none
  | .filled n, .onData memory clock => some (s.onData memory clock n)
  | .filled n, .onDataFails =>
      if newline ∈ s.bytes.take (sizeT (s.writePos + n)) then
        some { s with writePos := sizeT (s.writePos + n), phase := .idle }
      else none
  | _, _ => none

-- The indices OnData reads, copies from and moves, in order: the loop, the
-- memcpy of each line unless Make raises, and the memmove of what is left.
def looked (data : List UInt8) : Nat → Nat → Nat → List Nat
  | 0, i, start => List.range' start (i - start) ++ List.range (i - start)
  | remaining + 1, i, start =>
      match data[i]? with
      | none => [i]
      | some byte =>
          if byte = newline then
            if start = i then [i] else i :: List.range' start (i - start) ++ looked data remaining (i + 1) (i + 1)
          else i :: looked data remaining (i + 1) start

def State.touched (s : State) (n : Nat) : List Nat := looked s.bytes (sizeT (s.writePos + n)) 0 0

structure Bounded (s : State) : Prop where
  within : s.writePos ≤ s.size
  inside : ∀ n, s.phase = .filled n → ∀ index ∈ s.touched n, index < s.size
  unwrapped : sizeT (s.size + 2 ^ 64 - s.writePos) = s.size - s.writePos
  roomy : s.phase = .prepared → s.writePos + 1024 ≤ s.size

theorem looked_inside (data : List UInt8) (remaining i start : Nat) (inside : i + remaining ≤ data.length)
    (begun : start ≤ i) : ∀ index ∈ looked data remaining i start, index < data.length := by
  have copied : ∀ index ∈ List.range' start (i - start), index < data.length := by
    intro index member
    have bounds := List.mem_range'_1.mp member
    omega
  induction remaining generalizing i start with
  | zero =>
      intro index member
      rcases List.mem_append.mp member with source | target
      · exact copied index source
      · have bound := List.mem_range.mp target
        omega
  | succ remaining ih =>
      have bound : i < data.length := by omega
      have onward : ∀ start, start ≤ i + 1 → ∀ index ∈ looked data remaining (i + 1) start, index < data.length := by
        intro start begun
        apply ih (i + 1) start (by omega) begun
        intro index member
        have bounds := List.mem_range'_1.mp member
        omega
      intro index member
      rw [looked, List.getElem?_eq_getElem bound] at member
      dsimp only at member
      by_cases ends : data[i] = newline
      · rw [if_pos ends] at member
        by_cases blank : start = i
        · rw [if_pos blank] at member
          rw [List.mem_singleton.mp member]
          exact bound
        · rw [if_neg blank] at member
          rcases List.mem_append.mp member with here | later
          · rcases List.mem_cons.mp here with rfl | source
            · exact bound
            · exact copied index source
          · exact onward (i + 1) (Nat.le_refl _) index later
      · rw [if_neg ends] at member
        rcases List.mem_cons.mp member with rfl | later
        · exact bound
        · exact onward start (by omega) index later

-- Where no line ends, the loop gets to the end of the buffer and beyond.
theorem looked_beyond (data : List UInt8) (remaining i start : Nat) (unmarked : newline ∉ data)
    (before : i ≤ data.length) (beyond : data.length < i + remaining) :
    data.length ∈ looked data remaining i start := by
  induction remaining generalizing i with
  | zero => omega
  | succ remaining ih =>
      rw [looked]
      by_cases bound : i < data.length
      · have other : data[i] ≠ newline := fun ends => unmarked (ends ▸ List.getElem_mem bound)
        rw [List.getElem?_eq_getElem bound]
        dsimp only
        rw [if_neg other]
        exact List.mem_cons_of_mem i (ih (i + 1) (by omega) (by omega))
      · have last : i = data.length := by omega
        rw [List.getElem?_eq_none (by omega), last]
        exact List.mem_singleton_self _

theorem scan_inside (memory : Nat → UInt8) (clock : Nat → Int) (data : List UInt8) (remaining i start : Nat)
    (out : List InternalMessage) (inside : i + remaining ≤ data.length) (begun : start ≤ i) :
    scan memory clock data remaining i start out ≠ .error .outOfBounds := by
  induction remaining generalizing i start out with
  | zero =>
      intro failed
      cases failed
  | succ remaining ih =>
      have bound : i < data.length := by omega
      have found : data[i]? = some data[i] := List.getElem?_eq_getElem bound
      by_cases ends : data[i] = newline
      · rw [ends] at found
        by_cases blank : start = i
        · subst start
          simp only [scan, found, if_true, Nat.sub_self]
          intro failed
          cases failed
        · obtain ⟨message, _, scanned⟩ := scan_mark memory clock data remaining i start out found (by omega) (by omega)
          rw [scanned]
          exact ih (i + 1) (i + 1) _ (by omega) (Nat.le_refl _)
      · rw [scan_byte memory clock data remaining i start out _ found ends]
        exact ih (i + 1) start out (by omega) (by omega)

-- One call on a buffer that holds what it is told of: it returns, with no more
-- pending than there was, or it raises what a blank line raises.
theorem on_data_inside (framer : SimpleLineFramer) (memory : Nat → UInt8) (clock : Nat → Int) (n : Nat)
    (inside : framer.writePos + n ≤ framer.scratch.size) (fits : framer.scratch.size < 2 ^ 64) :
    (∃ next out, framer.onData memory clock n = .ok (next, out) ∧ next.writePos ≤ framer.writePos + n ∧
      next.scratch.size = framer.scratch.size) ∨
    ∃ what, framer.onData memory clock n = .error (.invalidArgument what) := by
  by_cases blank : [] ∈ lines newline (framer.view n)
  · right
    obtain ⟨raised, failed⟩ := on_data_raises memory clock framer n (by omega) (.inr blank)
    cases raised with
    | invalidArgument what => exact ⟨what, failed⟩
    | outOfBounds =>
        exfalso
        have position : sizeT (framer.writePos + n) = framer.writePos + n := Nat.mod_eq_of_lt (by omega)
        have never := scan_inside memory clock framer.scratch.bytes (framer.writePos + n) 0 0 []
          (by rw [Nat.zero_add]; exact inside) (Nat.le_refl 0)
        rw [SimpleLineFramer.onData, position] at failed
        cases scanned : scan memory clock framer.scratch.bytes (framer.writePos + n) 0 0 [] with
        | error other =>
            rw [scanned] at failed never
            cases failed
            exact never rfl
        | ok result =>
            simp only [scanned, bind, Except.bind] at failed
            split at failed <;> cases failed
  · left
    obtain ⟨next, out, answered, _, _, position, size⟩ := on_data_spec memory clock framer n inside fits blank
    refine ⟨next, out, answered, ?_, size⟩
    have width : (framer.view n).length = framer.writePos + n := List.length_take_of_le inside
    rw [position, ← width]
    exact (rest_suffix newline (framer.view n)).length_le

theorem prepare_read_refines (s : State) (scratch : RawBuffer) (memory : Nat → UInt8) (ready : SimpleLineFramer)
    (held : s.scratch = some scratch)
    (prepared : (⟨scratch, s.writePos⟩ : SimpleLineFramer).prepareRead memory = .ok ready) :
    s.prepareRead (some memory) = { s with scratch := some ready.scratch, writePos := ready.writePos, phase := .prepared } := by
  have size : s.size = scratch.size := by rw [State.size, State.bytes, held]; rfl
  rw [SimpleLineFramer.prepareRead] at prepared
  rw [State.prepareRead, State.grows, size]
  by_cases crowded : sizeT (scratch.size + 2 ^ 64 - s.writePos) < 1024
  · rw [if_pos crowded] at prepared
    rw [if_pos (decide_eq_true crowded)]
    cases made : RawBuffer.make memory (sizeT (s.writePos + 4096)) with
    | error raised =>
        rw [made] at prepared
        cases prepared
    | ok fresh =>
        rw [made] at prepared
        cases prepared
        rfl
  · rw [if_neg crowded] at prepared
    rw [if_neg (by simpa using crowded)]
    cases prepared
    rw [← held]

theorem on_data_refines (s : State) (scratch : RawBuffer) (memory : Nat → UInt8) (clock : Nat → Int) (n : Nat)
    (next : SimpleLineFramer) (out : List InternalMessage) (held : s.scratch = some scratch)
    (answered : (⟨scratch, s.writePos⟩ : SimpleLineFramer).onData memory clock n = .ok (next, out)) :
    s.onData memory clock n = { s with scratch := some next.scratch, writePos := next.writePos, phase := .idle } := by
  rw [State.onData, held]
  dsimp only
  rw [answered]

-- Each read brings no more bytes than are free behind the pending ones, and
-- PrepareRead gets the memory it asks for.
def Free (s : State) : Action → Prop
  | .prepareRead alloc => s.grows = true → alloc.isSome = true
  | .read bytes => s.writePos + bytes.length ≤ s.size
  | .onData _ _ | .onDataFails => True

structure Kept (s : State) : Prop where
  sound : s.fault = false
  within : s.writePos ≤ s.size
  small : s.size < 2 ^ 63
  roomy : s.phase = .prepared → s.writePos + 1024 ≤ s.size
  counted : ∀ n, s.phase = .filled n → s.writePos + n ≤ s.size

theorem grows_iff (s : State) (within : s.writePos ≤ s.size) (small : s.size < 2 ^ 63) :
    s.grows = true ↔ s.size < s.writePos + 1024 := by
  rw [State.grows, decide_eq_true_eq, size_t_sub s.size s.writePos within small]
  omega

theorem kept_idle (s : State) (sound : s.fault = false) (within : s.writePos ≤ s.size) (small : s.size < 2 ^ 63)
    (idle : s.phase = .idle) : Kept s where
  sound := sound
  within := within
  small := small
  roomy := by
    rw [idle]
    intro prepared
    cases prepared
  counted := by
    rw [idle]
    intro n filled
    cases filled

theorem make_size (memory : Nat → UInt8) (size : Nat) (nonzero : size ≠ 0) :
    ∃ buffer, RawBuffer.make memory size = .ok buffer ∧ buffer.bytes.length = size := by
  rw [RawBuffer.make, dif_neg nonzero]
  exact ⟨_, rfl, by rw [List.length_map, List.length_range]⟩

theorem prepare_read_replaces (s : State) (memory : Nat → UInt8) (crowded : s.grows = true) (small : s.writePos < 2 ^ 63)
    (limit : ¬ (s.grows = true ∧ (some memory).isSome = true ∧ 2 ^ 63 ≤ sizeT (s.writePos + 4096))) :
    ∃ fresh, s.prepareRead (some memory) = { s with scratch := some fresh, writePos := 0, phase := .prepared } ∧
      fresh.bytes.length = s.writePos + 4096 ∧ s.writePos + 4096 < 2 ^ 63 := by
  have width : sizeT (s.writePos + 4096) = s.writePos + 4096 := Nat.mod_eq_of_lt (by omega)
  have bound : s.writePos + 4096 < 2 ^ 63 := by
    rw [← width]
    exact Nat.lt_of_not_le fun large => limit ⟨crowded, rfl, large⟩
  obtain ⟨fresh, made, size⟩ := make_size memory (s.writePos + 4096) (by omega)
  refine ⟨fresh, ?_, size, bound⟩
  rw [State.prepareRead, if_pos crowded, width, made]

theorem prepare_read_kept (s : State) (alloc : Option (Nat → UInt8)) (kept : Kept s) (given : Free s (.prepareRead alloc))
    (limit : ¬ (s.grows = true ∧ alloc.isSome = true ∧ 2 ^ 63 ≤ sizeT (s.writePos + 4096))) : Kept (s.prepareRead alloc) := by
  have grows := grows_iff s kept.within kept.small
  have within := kept.within
  have small := kept.small
  by_cases crowded : s.grows = true
  · obtain ⟨memory, rfl⟩ := Option.isSome_iff_exists.mp (given crowded)
    obtain ⟨fresh, replaced, size, bound⟩ := prepare_read_replaces s memory crowded (by omega) limit
    rw [replaced]
    have here : ({ s with scratch := some fresh, writePos := 0, phase := .prepared } : State).size = s.writePos + 4096 := size
    have room : 0 + 1024 ≤ s.writePos + 4096 := by omega
    exact ⟨kept.sound, Nat.zero_le _, here ▸ bound, fun _ => here ▸ room, fun n filled => by cases filled⟩
  · unfold State.prepareRead
    rw [if_neg crowded]
    have room : s.writePos + 1024 ≤ s.size := Nat.le_of_not_lt fun less => crowded (grows.mpr less)
    exact ⟨kept.sound, kept.within, kept.small, fun _ => room, fun n filled => by cases filled⟩

theorem read_size (s : State) (bytes : List UInt8) (phase : Phase) :
    ({ s with scratch := s.scratch.map (RawBuffer.write · bytes), phase := phase } : State).size = s.size := by
  rw [State.size, State.bytes, State.size, State.bytes]
  cases s.scratch with
  | none => rfl
  | some scratch => exact overwrite_length scratch.bytes bytes

theorem on_data_kept (s : State) (memory : Nat → UInt8) (clock : Nat → Int) (n : Nat) (kept : Kept s)
    (counted : s.writePos + n ≤ s.size) : Kept (s.onData memory clock n) := by
  have small := kept.small
  have position : sizeT (s.writePos + n) = s.writePos + n := Nat.mod_eq_of_lt (by omega)
  rw [State.onData]
  cases held : s.scratch with
  | none =>
      have empty : s.size = 0 := by rw [State.size, State.bytes, held]; rfl
      have zero : sizeT (s.writePos + n) = 0 := by omega
      dsimp only
      rw [if_pos zero]
      exact kept_idle _ kept.sound (Nat.zero_le _) (Nat.two_pow_pos 63) rfl
  | some scratch =>
      have size : scratch.size = s.size := by rw [State.size, State.bytes, held]; rfl
      dsimp only
      rcases on_data_inside ⟨scratch, s.writePos⟩ memory clock n (size ▸ counted) (by dsimp only; omega) with
        ⟨next, out, answered, short, same⟩ | ⟨what, failed⟩
      · rw [answered]
        have width : next.scratch.bytes.length = s.size := same.trans size
        have held : next.writePos ≤ next.scratch.bytes.length := width ▸ Nat.le_trans short counted
        have fits : next.scratch.bytes.length < 2 ^ 63 := width ▸ small
        exact kept_idle _ kept.sound held fits rfl
      · rw [failed]
        dsimp only
        rw [position]
        have held : s.writePos + n ≤ scratch.bytes.length := Nat.le_trans counted (Nat.le_of_eq size.symm)
        have fits : scratch.bytes.length < 2 ^ 63 := Nat.lt_of_le_of_lt (Nat.le_of_eq size) small
        exact kept_idle _ kept.sound held fits rfl

theorem step_kept (s after : State) (action : Action) (kept : Kept s) (free : Free s action)
    (taken : step s action = some after) : Kept after := by
  have sound : ¬ s.fault = true := by rw [kept.sound]; decide
  unfold step at taken
  rw [if_neg sound] at taken
  split at taken
  · split at taken
    · cases taken
    · rename_i alloc idle limit
      rw [← Option.some.inj taken]
      exact prepare_read_kept s alloc kept free limit
  · split at taken
    · rename_i bytes prepared fits
      rw [← Option.some.inj taken]
      have size := read_size s bytes (.filled bytes.length)
      refine ⟨kept.sound, size ▸ kept.within, size ▸ kept.small, (fun prepared => by cases prepared), ?_⟩
      intro n same
      rw [size, ← Phase.filled.inj same]
      exact free
    · cases taken
  · rename_i n memory clock filled
    rw [← Option.some.inj taken]
    exact on_data_kept s memory clock n kept (kept.counted n filled)
  · split at taken
    · rename_i n filled ends
      rw [← Option.some.inj taken]
      have counted := kept.counted n filled
      have small := kept.small
      have position : sizeT (s.writePos + n) = s.writePos + n := Nat.mod_eq_of_lt (by omega)
      rw [position]
      exact kept_idle _ kept.sound counted kept.small rfl
    · cases taken
  · cases taken

theorem begin_kept (memory : Nat → UInt8) (framer : SimpleLineFramer) (made : Frame.construct memory = .ok framer) :
    Kept (begin framer) := by
  obtain ⟨other, constructed, start, size⟩ := construct_ok memory
  cases constructed.symm.trans made
  have width : (begin framer).size = 4096 := size
  refine kept_idle _ rfl ?_ (by omega) rfl
  rw [width]
  change framer.writePos ≤ 4096
  omega

theorem reachable_kept (memory : Nat → UInt8) (framer : SimpleLineFramer) (made : Frame.construct memory = .ok framer)
    (s : State) (reachable : Machine.Reachable step Free (begin framer) s) : Kept s := by
  apply Machine.reachable_invariant step Free _ Kept (begin_kept memory framer made) _ s reachable
  intro before action after _ kept free taken
  exact step_kept before after action kept free taken

theorem stays_bounded (memory : Nat → UInt8) (framer : SimpleLineFramer) (made : Frame.construct memory = .ok framer)
    (s : State) (reachable : Machine.Reachable step Free (begin framer) s) : Bounded s := by
  have kept := reachable_kept memory framer made s reachable
  refine ⟨kept.within, ?_, size_t_sub s.size s.writePos kept.within kept.small, kept.roomy⟩
  intro n filled
  have counted := kept.counted n filled
  have small := kept.small
  have position : sizeT (s.writePos + n) = s.writePos + n := Nat.mod_eq_of_lt (by omega)
  rw [State.touched, position]
  exact looked_inside s.bytes _ 0 0 (by rw [Nat.zero_add]; exact counted) (Nat.le_refl 0)

theorem step_prepare_idle (s : State) (alloc : Option (Nat → UInt8)) (sound : s.fault = false) (idle : s.phase = .idle)
    (limit : ¬ (s.grows = true ∧ alloc.isSome = true ∧ 2 ^ 63 ≤ sizeT (s.writePos + 4096))) :
    step s (.prepareRead alloc) = some (s.prepareRead alloc) := by
  unfold step
  rw [if_neg (by rw [sound]; exact Bool.false_ne_true), idle]
  dsimp only
  rw [if_neg limit]

theorem step_prepare (framer ready : SimpleLineFramer) (memory : Nat → UInt8)
    (prepared : framer.prepareRead memory = .ok ready) (limit : framer.writePos + 4096 < 2 ^ 63) :
    step (begin framer) (.prepareRead (some memory)) = some ⟨some ready.scratch, ready.writePos, .prepared, false⟩ := by
  have small : ¬ 2 ^ 63 ≤ sizeT ((begin framer).writePos + 4096) := by
    change ¬ 2 ^ 63 ≤ sizeT (framer.writePos + 4096)
    rw [sizeT, Nat.mod_eq_of_lt (by omega)]
    omega
  rw [step_prepare_idle (begin framer) (some memory) rfl rfl fun grown => small grown.2.2,
    prepare_read_refines (begin framer) framer.scratch memory ready rfl prepared]
  rfl

theorem step_read (scratch : RawBuffer) (writePos : Nat) (chunk : List UInt8) (fits : chunk.length ≤ scratch.size) :
    step ⟨some scratch, writePos, .prepared, false⟩ (.read chunk) =
      some ⟨some (scratch.write chunk), writePos, .filled chunk.length, false⟩ := by
  unfold step
  rw [if_neg Bool.false_ne_true]
  dsimp only
  exact if_pos fits

-- A round of the framer that returns is three steps here.
theorem round_reaches (framer ready next : SimpleLineFramer) (read : Read) (out : List InternalMessage)
    (prepared : framer.prepareRead read.memory = .ok ready) (limit : framer.writePos + 4096 < 2 ^ 63)
    (room : ready.writePos + read.bytes.length ≤ ready.scratch.size)
    (answered : (ready.fill read.bytes).onData read.memory read.clock read.bytes.length = .ok (next, out)) :
    Machine.Reachable step Free (begin framer) (begin next) := by
  have first := step_prepare framer ready read.memory prepared limit
  have second := step_read ready.scratch ready.writePos read.bytes (Nat.le_trans (Nat.le_add_left _ _) room)
  have third : step ⟨some (ready.scratch.write read.bytes), ready.writePos, .filled read.bytes.length, false⟩
      (.onData read.memory read.clock) = some (begin next) := by
    unfold step
    rw [if_neg Bool.false_ne_true]
    dsimp only
    rw [on_data_refines ⟨some (ready.scratch.write read.bytes), ready.writePos, .filled read.bytes.length, false⟩
      (ready.scratch.write read.bytes) read.memory read.clock read.bytes.length next out rfl answered]
    rfl
  refine .step _ _ _ (.step _ _ _ (.step _ _ _ .start ?_ first) ?_ second) ?_ third
  · exact fun _ => rfl
  · exact room
  · trivial

-- One read that ends no line, into the buffer the framer was made with.
theorem pending_reached (chunk : List UInt8) (short : chunk.length ≤ 4096) (unmarked : newline ∉ chunk) :
    ∃ framer next : SimpleLineFramer, Frame.construct (fun _ => 0) = .ok framer ∧
      Machine.Reachable step Free (begin framer) (begin next) ∧ next.writePos = chunk.length ∧ next.scratch.size = 4096 := by
  obtain ⟨framer, made, start, size⟩ := construct_ok fun _ => 0
  have prepared := prepare_keeps framer (fun _ => 0) (by omega) (by omega)
  have room : framer.writePos + chunk.length ≤ framer.scratch.size := by omega
  have looks : (framer.fill chunk).view chunk.length = chunk := by
    rw [fill_view framer chunk (by omega), start, List.take_zero, List.append_nil]
  have uncut := cut_unmarked newline [] ((framer.fill chunk).view chunk.length) (by rw [looks]; exact unmarked)
  have filled : [] ∉ lines newline ((framer.fill chunk).view chunk.length) := by
    rw [lines, uncut]
    exact List.not_mem_nil
  have width := fill_size framer chunk
  obtain ⟨next, out, answered, _, _, position, same⟩ := on_data_spec (fun _ => 0) (fun _ => 0) (framer.fill chunk)
    chunk.length (width ▸ room) (by omega) filled
  refine ⟨framer, next, made, ?_, ?_, same.trans (width.trans size)⟩
  · exact round_reaches framer framer next ⟨chunk, fun _ => 0, fun _ => 0⟩ out prepared (by omega) room answered
  · rw [position, rest, uncut, looks]
    rfl

theorem stays_bounded_pending :
    ∃ framer s, Frame.construct (fun _ => 0) = .ok framer ∧ Machine.Reachable step Free (begin framer) s ∧
      s.writePos = 1 ∧ s.size = 4096 ∧ Bounded s := by
  obtain ⟨framer, next, made, reached, position, size⟩ := pending_reached [97] (by decide) (by decide)
  exact ⟨framer, begin next, made, reached, position, size, stays_bounded (fun _ => 0) framer made _ reached⟩

theorem write_whole (buffer : RawBuffer) (chunk : List UInt8) (whole : chunk.length = buffer.size) :
    (buffer.write chunk).bytes = chunk := by
  change overwrite buffer.bytes chunk = chunk
  rw [overwrite_fits _ _ (Nat.le_of_eq whole), List.drop_of_length_le (Nat.le_of_eq whole.symm), List.append_nil]

-- With something pending, a read of as many bytes as the buffer holds makes
-- OnData read past its end.
theorem whole_read_overruns (framer : SimpleLineFramer) (chunk : List UInt8) (whole : chunk.length = framer.scratch.size)
    (unmarked : newline ∉ chunk) (pending : 0 < framer.writePos) (room : framer.writePos + 1024 ≤ framer.scratch.size)
    (small : framer.scratch.size + 4096 < 2 ^ 63) :
    ∃ s, Machine.Reachable step (fun _ _ => True) (begin framer) s ∧ ¬ Bounded s := by
  have kept := prepare_keeps framer (fun _ => 0) room (by omega)
  have first := step_prepare framer framer (fun _ => 0) kept (by omega)
  have second := step_read framer.scratch framer.writePos chunk (Nat.le_of_eq whole)
  refine ⟨_, .step _ _ _ (.step _ _ _ .start trivial first) trivial second, ?_⟩
  intro bounded
  have bytes := write_whole framer.scratch chunk whole
  have position : sizeT (framer.writePos + chunk.length) = framer.writePos + chunk.length := Nat.mod_eq_of_lt (by omega)
  have beyond := looked_beyond chunk (framer.writePos + chunk.length) 0 0 unmarked (Nat.zero_le _) (by omega)
  have inside := bounded.inside chunk.length rfl chunk.length
  rw [State.touched, State.size] at inside
  change chunk.length ∈ looked (framer.scratch.write chunk).bytes (sizeT (framer.writePos + chunk.length)) 0 0 →
    chunk.length < (framer.scratch.write chunk).bytes.length at inside
  rw [bytes, position] at inside
  exact Nat.lt_irrefl _ (inside beyond)

-- 'a', and then as many bytes as the buffer holds, none of which ends the line.
theorem full_read_overruns :
    ¬ ∀ (framer : SimpleLineFramer) (s : State), Frame.construct (fun _ => 0) = .ok framer →
      Machine.Reachable step (fun _ _ => True) (begin framer) s → Bounded s := by
  intro claimed
  obtain ⟨framer, next, made, reached, position, size⟩ := pending_reached [97] (by decide) (by decide)
  obtain ⟨s, overran, unbounded⟩ := whole_read_overruns next (List.replicate next.scratch.size 98) List.length_replicate
    (fun member => absurd (List.mem_replicate.mp member).2 (by decide)) (by rw [position]; decide)
    (by rw [position, size]; decide) (by rw [size]; decide)
  have free := Machine.reachable_weaken step Free (fun _ _ => True) _ (fun _ _ _ _ => trivial) _ reached
  exact unbounded (claimed framer s made (Machine.reachable_trans step _ _ _ _ free overran))

end Vectro.Rounds
