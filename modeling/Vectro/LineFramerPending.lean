import Vectro.LineFramerBounds

set_option autoImplicit false

namespace Vectro.Rounds

open Vectro.Frame

-- PrepareRead leaves the pending bytes where they are, with room behind them.
structure KeepsPending (s after : State) : Prop where
  position : after.writePos = s.writePos
  bytes : after.bytes.take s.writePos = s.bytes.take s.writePos
  room : after.writePos + 1024 ≤ after.size

-- What holds in every run, whatever is read and whatever raises.
structure Sized (s : State) : Prop where
  position : s.writePos < 2 ^ 64
  held : s.scratch ≠ none → 4096 ≤ s.size ∧ s.size < 2 ^ 63
  gone : s.scratch = none → 0 < s.writePos ∧ s.writePos < 2 ^ 63
  read : ∀ n, s.phase = .filled n → n ≤ s.size

theorem size_none (s : State) (gone : s.scratch = none) : s.size = 0 := by
  rw [State.size, State.bytes, gone]
  rfl

-- The difference is below 1024 only where it has not wrapped.
theorem sized_grows_iff (s : State) (sized : Sized s) :
    s.grows = true ↔ s.scratch ≠ none ∧ s.writePos ≤ s.size ∧ s.size < s.writePos + 1024 := by
  have position := sized.position
  by_cases gone : s.scratch = none
  · obtain ⟨pending, short⟩ := sized.gone gone
    have zero := size_none s gone
    have large : ¬ s.grows = true := by
      rw [State.grows, decide_eq_true_eq, zero, sizeT, Nat.mod_eq_of_lt (by omega)]
      omega
    exact ⟨fun grows => absurd grows large, fun held => absurd gone held.1⟩
  · obtain ⟨wide, small⟩ := sized.held gone
    by_cases within : s.writePos ≤ s.size
    · rw [grows_iff s within small]
      exact ⟨fun crowded => ⟨gone, within, crowded⟩, fun held => held.2.2⟩
    · have large : ¬ s.grows = true := by
        rw [State.grows, decide_eq_true_eq, sizeT, Nat.mod_eq_of_lt (by omega)]
        omega
      exact ⟨fun grows => absurd grows large, fun held => absurd held.2.1 within⟩

theorem prepare_read_sized (s : State) (alloc : Option (Nat → UInt8)) (sized : Sized s) (idle : s.phase = .idle)
    (limit : ¬ (s.grows = true ∧ alloc.isSome = true ∧ 2 ^ 63 ≤ sizeT (s.writePos + 4096))) :
    Sized (s.prepareRead alloc) := by
  by_cases crowded : s.grows = true
  · obtain ⟨held, within, close⟩ := (sized_grows_iff s sized).mp crowded
    obtain ⟨wide, small⟩ := sized.held held
    cases alloc with
    | none =>
        rw [State.prepareRead.eq_def, if_pos crowded]
        refine ⟨sized.position, fun held => absurd rfl held, fun _ => ?_, ?_⟩
        · change 0 < s.writePos ∧ s.writePos < 2 ^ 63
          omega
        · intro n filled
          have contrary := idle.symm.trans filled
          cases contrary
    | some memory =>
        obtain ⟨fresh, replaced, size, bound⟩ := prepare_read_replaces s memory crowded (by omega) limit
        rw [replaced]
        have here : ({ s with scratch := some fresh, writePos := 0, phase := .prepared } : State).size = s.writePos + 4096 := size
        refine ⟨Nat.two_pow_pos 64, fun _ => ?_, (fun gone => by cases gone), fun n filled => by cases filled⟩
        rw [here]
        exact ⟨Nat.le_add_left _ _, bound⟩
  · rw [State.prepareRead.eq_def, if_neg crowded]
    exact ⟨sized.position, sized.held, sized.gone, fun n filled => by cases filled⟩

theorem on_data_shape (framer next : SimpleLineFramer) (memory : Nat → UInt8) (clock : Nat → Int) (n : Nat)
    (out : List InternalMessage) (answered : framer.onData memory clock n = .ok (next, out)) :
    next.writePos < 2 ^ 64 ∧ next.scratch.size = framer.scratch.size := by
  have bound : sizeT (framer.writePos + n) < 2 ^ 64 := Nat.mod_lt _ (Nat.two_pow_pos 64)
  rw [SimpleLineFramer.onData] at answered
  cases scanned : scan memory clock framer.scratch.bytes (sizeT (framer.writePos + n)) 0 0 [] with
  | error raised =>
      simp only [scanned, bind, Except.bind] at answered
      cases answered
  | ok result =>
      simp only [scanned, bind, Except.bind] at answered
      split at answered
      · cases answered
        exact ⟨Nat.lt_of_le_of_lt (Nat.sub_le _ _) bound, overwrite_length _ _⟩
      · cases answered
        exact ⟨Nat.two_pow_pos 64, rfl⟩

theorem on_data_sized (s : State) (memory : Nat → UInt8) (clock : Nat → Int) (n : Nat) (sized : Sized s)
    (filled : s.phase = .filled n) : Sized (s.onData memory clock n) := by
  have bound : sizeT (s.writePos + n) < 2 ^ 64 := Nat.mod_lt _ (Nat.two_pow_pos 64)
  rw [State.onData.eq_def]
  split
  · rename_i gone
    obtain ⟨pending, short⟩ := sized.gone gone
    have none := sized.read n filled
    rw [size_none s gone] at none
    have nonzero : ¬ sizeT (s.writePos + n) = 0 := by
      rw [sizeT, Nat.mod_eq_of_lt (by omega)]
      omega
    rw [if_neg nonzero]
    exact ⟨sized.position, sized.held, sized.gone, sized.read⟩
  · rename_i scratch held
    obtain ⟨wide, small⟩ := sized.held (by rw [held]; exact Option.some_ne_none scratch)
    have size : scratch.size = s.size := by rw [State.size, State.bytes, held]; rfl
    split
    · rename_i next out answered
      obtain ⟨short, same⟩ := on_data_shape _ next memory clock n out answered
      refine ⟨short, fun _ => ?_, (fun gone => by cases gone), fun n filled => by cases filled⟩
      have width : next.scratch.bytes.length = s.size := same.trans size
      exact ⟨Nat.le_trans wide (Nat.le_of_eq width.symm), Nat.lt_of_le_of_lt (Nat.le_of_eq width) small⟩
    · exact ⟨sized.position, sized.held, sized.gone, sized.read⟩
    · refine ⟨bound, sized.held, fun gone => ?_, fun n filled => by cases filled⟩
      have contrary := held.symm.trans gone
      cases contrary

theorem step_sized (s after : State) (action : Action) (sized : Sized s) (taken : step s action = some after) :
    Sized after := by
  unfold step at taken
  split at taken
  · cases taken
  · split at taken
    · split at taken
      · cases taken
      · rename_i alloc idle limit
        rw [← Option.some.inj taken]
        exact prepare_read_sized s alloc sized idle limit
    · split at taken
      · rename_i bytes prepared fits
        rw [← Option.some.inj taken]
        have size := read_size s bytes (.filled bytes.length)
        refine ⟨sized.position, ?_, ?_, ?_⟩
        · intro held
          rw [size]
          exact sized.held fun gone => held (by rw [gone]; rfl)
        · exact fun gone => sized.gone (Option.map_eq_none_iff.mp gone)
        · intro n same
          rw [size, ← Phase.filled.inj same]
          exact fits
      · cases taken
    · rename_i n memory clock filled
      rw [← Option.some.inj taken]
      exact on_data_sized s memory clock n sized filled
    · split at taken
      · rename_i n filled ends
        rw [← Option.some.inj taken]
        have bound : sizeT (s.writePos + n) < 2 ^ 64 := Nat.mod_lt _ (Nat.two_pow_pos 64)
        refine ⟨bound, sized.held, fun gone => ?_, fun n filled => by cases filled⟩
        rw [State.bytes, gone] at ends
        simp at ends
      · cases taken
    · cases taken

theorem begin_sized (memory : Nat → UInt8) (framer : SimpleLineFramer) (made : Frame.construct memory = .ok framer) :
    Sized (begin framer) := by
  obtain ⟨other, constructed, start, size⟩ := construct_ok memory
  cases constructed.symm.trans made
  have width : (begin framer).size = 4096 := size
  refine ⟨?_, fun _ => ?_, (fun gone => by cases gone), fun n filled => by cases filled⟩
  · change framer.writePos < 2 ^ 64
    omega
  · rw [width]
    decide

theorem reachable_sized (memory : Nat → UInt8) (framer : SimpleLineFramer) (made : Frame.construct memory = .ok framer)
    (s : State) (reachable : Machine.Reachable step (fun _ _ => True) (begin framer) s) : Sized s := by
  apply Machine.reachable_invariant step _ _ Sized (begin_sized memory framer made) _ s reachable
  intro before action after _ sized _ taken
  exact step_sized before after action sized taken

theorem step_prepared (s after : State) (alloc : Option (Nat → UInt8)) (taken : step s (.prepareRead alloc) = some after) :
    ¬ (s.grows = true ∧ alloc.isSome = true ∧ 2 ^ 63 ≤ sizeT (s.writePos + 4096)) ∧ s.prepareRead alloc = after := by
  unfold step at taken
  by_cases faulty : s.fault = true
  · rw [if_pos faulty] at taken
    cases taken
  · rw [if_neg faulty] at taken
    cases phase : s.phase with
    | idle =>
        rw [phase] at taken
        dsimp only at taken
        split at taken
        · cases taken
        · rename_i limit
          exact ⟨limit, Option.some.inj taken⟩
    | prepared | filled n =>
        rw [phase] at taken
        cases taken

theorem pending_kept_iff (memory : Nat → UInt8) (framer : SimpleLineFramer) (made : Frame.construct memory = .ok framer)
    (s : State) (reachable : Machine.Reachable step (fun _ _ => True) (begin framer) s) (alloc : Option (Nat → UInt8))
    (after : State) (taken : step s (.prepareRead alloc) = some after) :
    KeepsPending s after ↔ s.writePos + 1024 ≤ s.size := by
  have sized := reachable_sized memory framer made s reachable
  obtain ⟨limit, rfl⟩ := step_prepared s after alloc taken
  by_cases crowded : s.grows = true
  · obtain ⟨held, within, close⟩ := (sized_grows_iff s sized).mp crowded
    have wide := sized.held held
    refine ⟨fun keeps => ?_, fun room => absurd room (Nat.not_le_of_lt close)⟩
    -- Nothing is pending in the new buffer, and there was something.
    exfalso
    cases alloc with
    | none =>
        have room := keeps.room
        have gone : (s.prepareRead none).size = 0 := by rw [State.prepareRead.eq_def, if_pos crowded]; rfl
        omega
    | some memory =>
        obtain ⟨fresh, replaced, _, _⟩ := prepare_read_replaces s memory crowded (by omega) limit
        have position := keeps.position
        rw [replaced] at position
        change 0 = s.writePos at position
        omega
  · have same : s.prepareRead alloc = { s with phase := .prepared } := by rw [State.prepareRead.eq_def, if_neg crowded]
    rw [same]
    exact ⟨fun keeps => keeps.room, fun room => ⟨rfl, rfl, room⟩⟩

theorem pending_kept_short :
    ∃ framer s after, Frame.construct (fun _ => 0) = .ok framer ∧
      Machine.Reachable step (fun _ _ => True) (begin framer) s ∧ s.writePos = 1 ∧
      step s (.prepareRead none) = some after ∧ KeepsPending s after := by
  obtain ⟨framer, next, made, reached, position, size⟩ := pending_reached [97] (by decide) (by decide)
  have free := Machine.reachable_weaken step Free (fun _ _ => True) _ (fun _ _ _ _ => trivial) _ reached
  have taken := step_prepare_idle (begin next) none rfl rfl fun grown => absurd grown.2.1 Bool.false_ne_true
  refine ⟨framer, begin next, _, made, free, position, taken, ?_⟩
  refine (pending_kept_iff (fun _ => 0) framer made (begin next) free none _ taken).mpr ?_
  change next.writePos + 1024 ≤ next.scratch.size
  rw [position, size]
  decide

-- A line of 3073 bytes without its end, and the next PrepareRead drops it.
theorem long_line_dropped :
    ¬ ∀ (framer : SimpleLineFramer) (s after : State) (alloc : Option (Nat → UInt8)),
      Frame.construct (fun _ => 0) = .ok framer → Machine.Reachable step (fun _ _ => True) (begin framer) s →
      step s (.prepareRead alloc) = some after → KeepsPending s after := by
  intro claimed
  obtain ⟨framer, next, made, reached, position, size⟩ := pending_reached (List.replicate 3073 97)
    (by rw [List.length_replicate]; decide) (fun member => absurd (List.mem_replicate.mp member).2 (by decide))
  rw [List.length_replicate] at position
  have free := Machine.reachable_weaken step Free (fun _ _ => True) _ (fun _ _ _ _ => trivial) _ reached
  have taken := step_prepare_idle (begin next) none rfl rfl fun grown => absurd grown.2.1 Bool.false_ne_true
  have sized := reachable_sized (fun _ => 0) framer made (begin next) free
  have crowded : (begin next).grows = true := by
    refine (sized_grows_iff (begin next) sized).mpr ⟨Option.some_ne_none _, ?_, ?_⟩
    · change next.writePos ≤ next.scratch.size
      omega
    · change next.scratch.size < next.writePos + 1024
      omega
  have room := (claimed framer (begin next) _ none made free taken).room
  have gone : ((begin next).prepareRead none).size = 0 := by rw [State.prepareRead.eq_def, if_pos crowded]; rfl
  omega

end Vectro.Rounds
