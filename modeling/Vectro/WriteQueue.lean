import Vectro.Machine
import Vectro.Traces
import Mathlib.Data.List.Basic

set_option autoImplicit false

namespace Vectro.Stream

-- B is what a BufferList holds and H what a CompletionHandler is. The number
-- of the AsyncSend call is history: no step reads it.
structure Entry (B H : Type) where
  buffers : B
  handler : Option H
  send : Nat
deriving DecidableEq, Repr

-- What is left to do when a completion handler returns. The strand runs one
-- function at a time, but a handler may call back into the queue, and
-- dispatch then runs the call inside the handler.
inductive Frame where
  | rejected
  | completed (ok : Bool)
deriving DecidableEq, Repr

inductive Event (B H : Type) where
  | accepted (entry : Entry B H)
  | rejected (entry : Entry B H)
  | handed (entry : Entry B H)
  | completed (entry : Entry B H) (ok : Bool)
  | called (send : Nat) (ok : Bool)
  | closed (force : Bool)
deriving DecidableEq, Repr

-- outstanding are the async_writes that have been started and whose completion
-- has not been delivered.
structure State (B H : Type) where
  writeQueue : List (Entry B H)
  maxQueueSize : Nat
  maxQueueEnabled : Bool
  writing : Bool
  gracefulShutdown : Bool
  outstanding : List (Entry B H)
  stack : List Frame
  sends : Nat
  trace : List (Event B H)

section
variable {B H : Type}

def construct (maxQueue : Nat) : State B H where
  writeQueue := []
  maxQueueSize := maxQueue
  maxQueueEnabled := true
  writing := false
  gracefulShutdown := false
  outstanding := []
  stack := []
  sends := 0
  trace := []

def State.emit (s : State B H) (event : Event B H) : State B H := { s with trace := s.trace ++ [event] }

def State.doWrite (s : State B H) : State B H :=
  match s.writeQueue with
  | [] => { s with writing := false, writeQueue := if s.gracefulShutdown then [] else s.writeQueue }
  | entry :: rest =>
      { s with writing := true, writeQueue := rest, outstanding := s.outstanding ++ [entry] }.emit (.handed entry)

def State.resume (s : State B H) : Frame → State B H
  | .rejected => s
  | .completed true => s.doWrite
  | .completed false => { s with writeQueue := [] }

-- if (handler) handler(ok); and then what follows in the frame.
def State.answer (s : State B H) (entry : Entry B H) (ok : Bool) (frame : Frame) : State B H :=
  match entry.handler with
  | none => s.resume frame
  | some _ => { s with stack := frame :: s.stack }.emit (.called entry.send ok)

def State.full (s : State B H) : Bool := s.maxQueueEnabled && decide (s.maxQueueSize ≤ s.writeQueue.length)

def State.enqueue (s : State B H) (entry : Entry B H) : State B H :=
  { s with writeQueue := s.writeQueue ++ [entry] }.emit (.accepted entry)

def State.asyncSend (s : State B H) (buffers : B) (handler : Option H) : State B H :=
  let entry := Entry.mk buffers handler s.sends
  let sent := { s with sends := s.sends + 1 }
  if s.full then (sent.emit (.rejected entry)).answer entry false .rejected
  else if s.writing then sent.enqueue entry
  else (sent.enqueue entry).doWrite

def State.close (s : State B H) (force : Bool) : State B H :=
  if force then { s with writeQueue := [], writing := false }.emit (.closed true)
  else { s with gracefulShutdown := true }.emit (.closed false)

def State.complete (s : State B H) (i : Nat) (entry : Entry B H) (ok : Bool) : State B H :=
  ({ s with outstanding := s.outstanding.eraseIdx i }.emit (.completed entry ok)).answer entry ok (.completed ok)

inductive Action (B H : Type) where
  | asyncSend (buffers : B) (handler : Option H)
  | enableMaxQueue (enable : Bool)
  | close (force : Bool)
  | complete (i : Nat) (ok : Bool)
  | handlerReturns

-- The first three are dispatched: they run as a strand step of their own, or
-- inside the handler that is running. Asio delivers a completion as a strand
-- step of its own, once for each write, in any order and with any result.
def step (s : State B H) : Action B H → Option (State B H)
  | .asyncSend buffers handler => some (s.asyncSend buffers handler)
  | .enableMaxQueue enable => some { s with maxQueueEnabled := enable }
  | .close force => some (s.close force)
  | .complete i ok =>
      match s.stack with
      | [] => (s.outstanding[i]?).map fun entry => s.complete i entry ok
      | _ :: _ => none
  | .handlerReturns =>
      match s.stack with
      | [] => none
      | frame :: rest => some ({ s with stack := rest }.resume frame)

-- The invariants are kept by the operations, one by one; this is the only
-- place that looks at the step function.
theorem step_preserves (holds : State B H → Prop) (s after : State B H) (action : Action B H)
    (taken : step s action = some after)
    (sends : ∀ buffers handler, action = .asyncSend buffers handler → holds (s.asyncSend buffers handler))
    (enables : ∀ enable, action = .enableMaxQueue enable → holds { s with maxQueueEnabled := enable })
    (closes : ∀ force, action = .close force → holds (s.close force))
    (completes : ∀ i entry ok, action = .complete i ok → s.stack = [] → s.outstanding[i]? = some entry →
      holds (s.complete i entry ok))
    (returns : ∀ frame rest, action = .handlerReturns → s.stack = frame :: rest →
      holds ({ s with stack := rest }.resume frame)) : holds after := by
  cases action with
  | asyncSend buffers handler => exact Option.some.inj taken ▸ sends buffers handler rfl
  | enableMaxQueue enable => exact Option.some.inj taken ▸ enables enable rfl
  | close force => exact Option.some.inj taken ▸ closes force rfl
  | complete i ok =>
      cases quiet : s.stack with
      | nil =>
          simp only [step, quiet, Option.map_eq_some_iff] at taken
          obtain ⟨entry, found, rfl⟩ := taken
          exact completes i entry ok rfl quiet found
      | cons frame rest => simp [step, quiet] at taken
  | handlerReturns =>
      cases stack : s.stack with
      | nil => simp [step, stack] at taken
      | cons frame rest =>
          simp only [step, stack, Option.some.injEq] at taken
          exact taken ▸ returns frame rest rfl stack

end

end Vectro.Stream
