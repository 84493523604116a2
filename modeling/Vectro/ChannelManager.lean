import Vectro.PoolCallbacks

set_option autoImplicit false

namespace Vectro.Channels

variable {M W : Type}

-- The hooks of a Channel other than OnProcessed can only be set through a
-- pointer that GetChannel, which is private, would have to give away.
structure Channel (M W : Type) where
  proc : Pool.State M W
  onProcessed : Bool

-- The callback a Channel registers is the first of its processor, and it
-- catches what OnProcessed throws.
def Channel.handled (channel : Channel M W) : List M :=
  if channel.onProcessed then Pool.callbackPayloads channel.proc.trace 0 else []

inductive Event (M : Type) where
  | dispatched (id : String) (msg : M) (ch : Option Nat)
deriving DecidableEq, Repr

-- channels_ maps an id to a place on the heap. The caller has the Dispatch
-- calls of calls still to make; while it is inside Enqueue, enqueuing holds the
-- channel and the number of the Submit call.
structure State (M W : Type) where
  channels : List (String × Nat)
  heap : List (Channel M W)
  calls : List (String × M)
  enqueuing : Option (Nat × Nat)
  fault : Bool
  trace : List (Event M)

def construct (calls : List (String × M)) : State M W where
  channels := []
  heap := []
  calls := calls
  enqueuing := none
  fault := false
  trace := []

-- Both branches return. The rest of the function, which makes a channel from
-- default_cfg_, wires it to handler_ and stores it, is never reached.
def State.getChannel (s : State M W) (id : String) : Option Nat :=
  match s.channels.lookup id with
  | some ch => some ch
  | none => none

def State.enqueue (s : State M W) (ch : Nat) (msg : M) : Option (State M W) :=
  (s.heap[ch]?).bind fun channel =>
    (Pool.step channel.proc (.submit 0 msg [])).map fun proc =>
      { s with heap := s.heap.set ch { channel with proc := proc }
               enqueuing := some (ch, channel.proc.calls.length) }

-- The test for a null channel has an empty body, and the call goes on.
def State.dispatch (s : State M W) (id : String) (msg : M) : Option (State M W) :=
  let logged : State M W := { s with trace := s.trace ++ [.dispatched id msg (s.getChannel id)] }
  match s.getChannel id with
  | none => some { logged with fault := true }
  | some ch => logged.enqueue ch msg

inductive Action (M W : Type) where
  | dispatch
  | enqueued
  | channel (ch : Nat) (action : Pool.Action M W)

-- What goes on inside a channel's processor by itself.
def internal : Pool.Action M W → Bool
  | .call _ | .worker _ | .clock _ => true
  | _ => false

def step (s : State M W) : Action M W → Option (State M W)
  | .dispatch =>
      match s.fault, s.enqueuing, s.calls with
      | false, none, (id, msg) :: rest => { s with calls := rest }.dispatch id msg
      | _, _, _ => none
  | .enqueued =>
      s.enqueuing.bind fun submit => (s.heap[submit.1]?).bind fun channel => (channel.proc.calls[submit.2]?).bind fun call =>
        if call.pc.over then some { s with enqueuing := none } else none
  | .channel ch action =>
      if internal action then
        (s.heap[ch]?).bind fun channel => (Pool.step channel.proc action).map fun proc =>
          { s with heap := s.heap.set ch { channel with proc := proc } }
      else none

def dispatchedTo (log : List (Event M)) (id : String) : List M :=
  log.filterMap fun
    | .dispatched other msg _ => if other = id then some msg else none

-- The ideal manager: there is a channel for every id that has been used, it is
-- the one every Dispatch to the id was given, and it hands on what was
-- dispatched to it, in order.
structure Delivers (s : State M W) : Prop where
  safe : s.fault = false
  same : ∀ id msg ch, .dispatched id msg ch ∈ s.trace → ∃ place, ch = some place ∧ s.channels.lookup id = some place
  inOrder : ∀ id ch channel, s.channels.lookup id = some ch → s.heap[ch]? = some channel →
    channel.handled <+: dispatchedTo s.trace id

-- Nobody ever puts a channel into the map.
structure Barren (s : State M W) : Prop where
  channels : s.channels = []
  heap : s.heap = []
  idle : s.enqueuing = none

theorem step_barren (s after : State M W) (action : Action M W) (barren : Barren s) (taken : step s action = some after) :
    Barren after ∧ ∃ id msg rest, s.calls = (id, msg) :: rest ∧ after.fault = true := by
  cases action with
  | dispatch =>
      rw [step] at taken
      split at taken
      · rename_i id msg rest healthy idle calls
        have unknown : s.getChannel id = none := by rw [State.getChannel, barren.channels]; rfl
        have fails : ({ s with calls := rest } : State M W).getChannel id = none := unknown
        rw [State.dispatch, fails] at taken
        obtain rfl := Option.some.inj taken
        exact ⟨⟨barren.channels, barren.heap, barren.idle⟩, id, msg, rest, calls, rfl⟩
      · cases taken
  | enqueued => simp [step, barren.idle] at taken
  | channel ch action => simp [step, barren.heap] at taken

theorem reachable_barren (calls : List (String × M)) (s : State M W)
    (reachable : Machine.Reachable step (fun _ _ => True) (construct calls) s) : Barren s :=
  Machine.reachable_invariant step _ _ Barren ⟨rfl, rfl, rfl⟩
    (fun before action after _ barren _ taken => (step_barren before after action barren taken).1) s reachable

theorem delivers_only_nothing (calls : List (String × M)) :
    (∀ s : State M W, Machine.Reachable step (fun _ _ => True) (construct calls) s → Delivers s) ↔ calls = [] := by
  constructor
  · intro claimed
    cases calls with
    | nil => rfl
    | cons first rest =>
        obtain ⟨after, taken⟩ : ∃ after, step (construct (first :: rest) : State M W) .dispatch = some after := ⟨_, rfl⟩
        obtain ⟨_, _, _, _, _, faulty⟩ := step_barren _ after .dispatch ⟨rfl, rfl, rfl⟩ taken
        have safe := (claimed after (.step _ after .dispatch .start trivial taken)).safe
        exact absurd (safe.symm.trans faulty) (by decide)
  · rintro rfl s reachable
    have fresh : s = construct [] := by
      refine Machine.reachable_invariant step _ _ (· = construct []) rfl ?_ s reachable
      rintro before action after earlier rfl _ taken
      obtain ⟨_, id, msg, rest, calls, _⟩ := step_barren _ after action (reachable_barren [] _ earlier) taken
      cases calls
    subst fresh
    exact ⟨rfl, fun _ _ _ logged => (nomatch logged), fun _ _ _ known => (nomatch known)⟩

theorem first_dispatch_faults :
    ¬ ∀ s : State Nat Nat, Machine.Reachable step (fun _ _ => True) (construct [("orders", 7)]) s → Delivers s := by
  intro claimed
  obtain ⟨s, reachable, shown⟩ := Machine.run_exhibits step (fun _ _ => True) (construct [("orders", 7)])
    ([.dispatch] : List (Action Nat Nat)) (fun s => s.fault) (by decide)
  exact absurd ((claimed s reachable).safe.symm.trans shown) (by decide)

end Vectro.Channels
