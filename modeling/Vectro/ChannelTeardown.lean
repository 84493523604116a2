import Vectro.Machine
import Vectro.Tally
import Mathlib.Data.List.Count

set_option autoImplicit false

namespace Vectro.Teardown

open Tally

-- The hook that raises in one call of a shutdown function, if any.
inductive Raises where
  | nothing
  | onShutdown
  | onStop
deriving DecidableEq, Repr

-- destroyed is one run of ~TaskMultiProcessor on proc_. From the second on it is
-- undefined what such a run does; that it is made is what is counted here.
inductive Event where
  | shutdown (force : Bool)
  | destroyed
  | stopped
deriving DecidableEq, Repr

-- held counts the owners of a Channel other than channels_, and gone says that
-- ~Channel and the destructors of the members have run.
structure Channel where
  onShutdown : Bool
  onStop : Bool
  held : Nat
  gone : Bool := false
  trace : List Event := []
deriving DecidableEq, Repr

def Channel.emit (c : Channel) (event : Event) : Channel := { c with trace := c.trace ++ [event] }

-- The body of both shutdown functions, and whether it raises.
def Channel.shutdown (c : Channel) (force : Bool) (raises : Raises) : Channel × Bool :=
  let told := if c.onShutdown then c.emit (.shutdown force) else c
  if c.onShutdown && raises == .onShutdown then (told, true)
  else
    let torn := told.emit .destroyed
    if c.onStop then (torn.emit .stopped, raises == .onStop) else (torn, false)

def Channel.shutdownGraceful (c : Channel) (raises : Raises) : Channel × Bool := c.shutdown false raises

def Channel.shutdownForce (c : Channel) (raises : Raises) : Channel × Bool := c.shutdown true raises

-- ~Channel, and then the destructors of its members. An exception cannot leave a
-- destructor: the program is terminated.
def Channel.destroy (c : Channel) (raises : Raises) : Option Channel :=
  match c.shutdownForce raises with
  | (_, true) => none
  | (shut, false) => some { shut.emit .destroyed with gone := true }

-- channels_ maps an id to a place on the heap.
structure State where
  channels : List (String × Nat)
  heap : List Channel
  terminated : Bool := false
deriving DecidableEq, Repr

def State.known (s : State) (ch : Nat) : Bool := s.channels.any fun entry => entry.2 == ch

def State.call (s : State) (ch : Nat) (force : Bool) (raises : Raises) : State × Bool :=
  match s.heap[ch]? with
  | none => (s, false)
  | some c =>
      let called := if force then c.shutdownForce raises else c.shutdownGraceful raises
      ({ s with heap := s.heap.set ch called.1 }, called.2)

-- The last owner that lets go destroys the channel.
def State.drop (s : State) (ch : Nat) (raises : Raises) : State :=
  match s.heap[ch]? with
  | none => s
  | some c =>
      if c.held = 0 && !s.known ch && !c.gone then
        match c.destroy raises with
        | none => { s with terminated := true }
        | some destroyed => { s with heap := s.heap.set ch destroyed }
      else s

def State.release (s : State) (ch : Nat) (c : Channel) (raises : Raises) : State :=
  { s with heap := s.heap.set ch { c with held := c.held - 1 } }.drop ch raises

-- The range for of ShutdownAllGraceful and ShutdownAllForce.
def State.callEach (force : Bool) (raises : Nat → Raises) : List (String × Nat) → State → State × Bool
  | [], s => (s, false)
  | (_, ch) :: rest, s =>
      match s.call ch force (raises ch) with
      | (called, true) => (called, true)
      | (called, false) => called.callEach force raises rest

def State.clear (raises : Nat → Raises) : List (String × Nat) → State → State
  | [], s => { s with channels := [] }
  | (_, ch) :: rest, s => ({ s with channels := rest }.drop ch (raises ch)).clear raises rest

-- An exception in the loop leaves channels_ as it is.
def State.shutdownAll (s : State) (force : Bool) (raises dying : Nat → Raises) : State :=
  match s.callEach force raises s.channels with
  | (called, true) => called
  | (called, false) => called.clear dying called.channels

inductive Action where
  | shutdown (ch : Nat) (force : Bool) (raises : Raises)
  | release (ch : Nat) (raises : Raises)
  | shutdownAll (force : Bool) (raises dying : Nat → Raises)

def step (s : State) (action : Action) : Option State :=
  if s.terminated then none
  else match action with
  | .shutdown ch force raises =>
      (s.heap[ch]?).bind fun c => if c.held = 0 then none else some (s.call ch force raises).1
  | .release ch raises => (s.heap[ch]?).bind fun c => if c.held = 0 then none else some (s.release ch c raises)
  | .shutdownAll force raises dying => some (s.shutdownAll force raises dying)

def Channel.destructions (c : Channel) : Nat := c.trace.count .destroyed

-- An orderly end of a channel.
structure Once (c : Channel) : Prop where
  processor : c.destructions = 1
  shutdown : c.onShutdown = true → c.trace.countP (fun | .shutdown _ => true | _ => false) = 1
  stopped : c.onStop = true → c.trace.count .stopped = 1

def Twice (c : Channel) : Prop := c.gone = true → 2 ≤ c.destructions

theorem shutdown_destructions (c : Channel) (force : Bool) (raises : Raises) :
    (c.shutdown force raises).1.gone = c.gone ∧ c.destructions ≤ (c.shutdown force raises).1.destructions ∧
      ((c.shutdown force raises).2 = false → c.destructions + 1 ≤ (c.shutdown force raises).1.destructions) := by
  simp only [Channel.shutdown]
  split
  · split <;> simp [Channel.emit, Channel.destructions]
  · split <;> split <;> simp [Channel.emit, Channel.destructions]

theorem destroy_destructions (c destroyed : Channel) (raises : Raises) (ended : c.destroy raises = some destroyed) :
    2 ≤ destroyed.destructions := by
  obtain ⟨_, _, shut⟩ := shutdown_destructions c true raises
  rw [Channel.destroy, Channel.shutdownForce] at ended
  split at ended
  · cases ended
  · rename_i after called
    rw [called] at shut
    have more := shut rfl
    rw [← Option.some.inj ended]
    simp only [Channel.destructions, Channel.emit, List.count_append, List.count_singleton_self] at more ⊢
    omega

-- No channel has come to its end with a single run.
def Doubled (s : State) : Prop := ∀ c ∈ s.heap, Twice c

theorem call_doubled (s : State) (ch : Nat) (force : Bool) (raises : Raises) (doubled : Doubled s) :
    Doubled (s.call ch force raises).1 := by
  rw [State.call]
  cases found : s.heap[ch]? with
  | none => exact doubled
  | some c =>
      have shut : ∀ force, Twice (c.shutdown force raises).1 := by
        intro force ended
        obtain ⟨same, more, _⟩ := shutdown_destructions c force raises
        exact Nat.le_trans (doubled c (List.mem_of_getElem? found) (same ▸ ended)) more
      refine forall_mem_set Twice s.heap ch _ doubled ?_
      cases force with
      | true => exact shut true
      | false => exact shut false

theorem drop_doubled (s : State) (ch : Nat) (raises : Raises) (doubled : Doubled s) : Doubled (s.drop ch raises) := by
  rw [State.drop]
  cases s.heap[ch]? with
  | none => exact doubled
  | some c =>
      by_cases last : (decide (c.held = 0) && !s.known ch && !c.gone) = true
      · simp only [if_pos last]
        cases ended : c.destroy raises with
        | none => exact doubled
        | some destroyed => exact forall_mem_set Twice s.heap ch _ doubled fun _ => destroy_destructions c destroyed raises ended
      · simp only [if_neg last]
        exact doubled

theorem release_doubled (s : State) (ch : Nat) (c : Channel) (raises : Raises) (found : s.heap[ch]? = some c)
    (doubled : Doubled s) : Doubled (s.release ch c raises) := by
  apply drop_doubled
  exact forall_mem_set Twice s.heap ch _ doubled (doubled c (List.mem_of_getElem? found))

theorem call_each_doubled (force : Bool) (raises : Nat → Raises) (entries : List (String × Nat)) (s : State) (doubled : Doubled s) :
    Doubled (s.callEach force raises entries).1 := by
  induction entries generalizing s with
  | nil => exact doubled
  | cons entry rest ih =>
      have called := call_doubled s entry.2 force (raises entry.2) doubled
      rw [State.callEach]
      split
      · rename_i after raised
        rw [raised] at called
        exact called
      · rename_i after returned
        rw [returned] at called
        exact ih after called

theorem clear_doubled (raises : Nat → Raises) (entries : List (String × Nat)) (s : State) (doubled : Doubled s) :
    Doubled (s.clear raises entries) := by
  induction entries generalizing s with
  | nil => exact doubled
  | cons entry rest ih => exact ih _ (drop_doubled { s with channels := rest } entry.2 (raises entry.2) doubled)

theorem shutdown_all_doubled (s : State) (force : Bool) (raises dying : Nat → Raises) (doubled : Doubled s) :
    Doubled (s.shutdownAll force raises dying) := by
  have called := call_each_doubled force raises s.channels s doubled
  rw [State.shutdownAll]
  split
  · rename_i after raised
    rw [raised] at called
    exact called
  · rename_i after returned
    rw [returned] at called
    exact clear_doubled dying _ after called

theorem step_doubled (s after : State) (action : Action) (taken : step s action = some after) (doubled : Doubled s) :
    Doubled after := by
  unfold step at taken
  split at taken
  · cases taken
  · cases action with
    | shutdown ch force raises =>
        obtain ⟨c, _, called⟩ := Option.bind_eq_some_iff.mp taken
        split at called
        · cases called
        · exact Option.some.inj called ▸ call_doubled s ch force raises doubled
    | release ch raises =>
        obtain ⟨c, found, released⟩ := Option.bind_eq_some_iff.mp taken
        split at released
        · cases released
        · exact Option.some.inj released ▸ release_doubled s ch c raises found doubled
    | shutdownAll force raises dying => exact Option.some.inj taken ▸ shutdown_all_doubled s force raises dying doubled

-- Whatever has been called on it before: ~Channel runs the destructor of proc_ by
-- hand, and the destruction of the members runs it again.
theorem never_torn_down_once (start s : State) (fresh : ∀ c ∈ start.heap, c.gone = false)
    (reachable : Machine.Reachable step (fun _ _ => True) start s) (c : Channel) (member : c ∈ s.heap) (ended : c.gone = true) :
    2 ≤ c.destructions ∧ ¬ Once c := by
  have doubled : Doubled s := by
    refine Machine.reachable_invariant step _ start Doubled ?_ ?_ s reachable
    · intro c member ended
      exact absurd ((fresh c member).symm.trans ended) (by decide)
    · intro before action after _ doubled _ taken
      exact step_doubled before after action taken doubled
  have twice := doubled c member ended
  refine ⟨twice, fun once => ?_⟩
  rw [once.processor] at twice
  exact absurd twice (by decide)

-- A channel with both hooks, owned by its creator alone.
def alone : State := ⟨[], [{ onShutdown := true, onStop := true, held := 1 }], false⟩

theorem never_torn_down_once_unused :
    ∃ s c, Machine.Reachable step (fun _ _ => True) alone s ∧ s.heap = [c] ∧ c.gone = true ∧
      c.trace = [.shutdown true, .destroyed, .stopped, .destroyed] ∧ 2 ≤ c.destructions ∧ ¬ Once c := by
  obtain ⟨s, reachable, shown⟩ := Machine.run_exhibits step (fun _ _ => True) alone [.release 0 .nothing]
    (fun s => s.heap == [⟨true, true, 0, true, [.shutdown true, .destroyed, .stopped, .destroyed]⟩]) (by decide)
  have heap := eq_of_beq shown
  exact ⟨s, _, reachable, heap, rfl, rfl,
    never_torn_down_once alone s (by decide) reachable _ (heap ▸ List.mem_cons_self) rfl⟩

theorem torn_down_twice :
    ¬ ∀ (start s : State), (∀ c ∈ start.heap, c.gone = false ∧ c.trace = []) →
      Machine.Reachable step (fun _ _ => True) start s → ∀ c ∈ s.heap, c.gone = true → Once c := by
  intro claimed
  obtain ⟨s, reachable, shown⟩ := Machine.run_exhibits step (fun _ _ => True) alone
    [.shutdown 0 false .nothing, .release 0 .nothing]
    (fun s => s.heap.any fun c => c.gone && c.destructions == 3) (by decide)
  obtain ⟨c, member, shows⟩ := List.any_eq_true.mp shown
  simp only [Bool.and_eq_true, beq_iff_eq] at shows
  have once := claimed alone s (by decide) reachable c member shows.1
  exact absurd (once.processor.symm.trans shows.2) (by decide)

end Vectro.Teardown
