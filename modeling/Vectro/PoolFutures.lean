import Vectro.PoolDrain
import Vectro.PoolWrappers

set_option autoImplicit false

namespace Vectro.Futures

open Tally

-- What a promise is satisfied with: R are the results of the functions and X
-- the exceptions they throw. A cancellation is a std::runtime_error.
inductive Content (R X : Type) where
  | value (r : R)
  | exception (x : X)
  | canceled (what : String)
deriving DecidableEq, Repr

-- The lambda that SubmitWithResult hands to SubmitImpl. Its promise stands for
-- the shared_ptr p and for fn, both captured; the token may be null.
structure Wrapper where
  promise : Nat
  token : Option Nat
deriving DecidableEq, Repr

structure Promise (T R X : Type) where
  item : T
  content : Option (Content R X)
deriving DecidableEq, Repr

-- What happens to a promise, in order: its SubmitWithResult and its wrapper
-- read the token, fn is called and ends, set_value or set_exception is called.
inductive Event (T R X : Type) where
  | requested (promise : Nat) (set : Bool)
  | read (promise : Nat) (set : Bool)
  | invoked (promise : Nat) (item : T)
  | returned (promise : Nat) (r : R)
  | threw (promise : Nat) (x : X)
  | satisfied (promise : Nat) (content : Content R X)
deriving DecidableEq, Repr

def Event.promise {T R X : Type} : Event T R X → Nat
  | .requested k _ | .read k _ | .invoked k _ | .returned k _ | .threw k _ | .satisfied k _ => k

-- A frame is what a worker executes inside a wrapper: fn of a promise, or
-- nothing yet.
structure State (T R X : Type) where
  pool : Pool.State T Wrapper
  promises : List (Promise T R X)
  tokens : List Bool
  frames : List (Option Nat)
  trace : List (Event T R X)

section
variable {T R X : Type}

def construct (cfg : Pool.TaskProcessorConfig) (now : Int) : State T R X where
  pool := Pool.construct cfg now
  promises := []
  tokens := []
  frames := List.replicate cfg.numThreads none
  trace := []

def State.tokenSet (s : State T R X) (token : Option Nat) : Bool :=
  match token with
  | none => false
  | some t => s.tokens.getD t false

def beforeEnqueue : Content R X := .canceled "Task canceled before enqueue"

def beforeExecution : Content R X := .canceled "Task canceled before execution"

-- The overload without a token is the one with a null token.
def submitWithResult (s : State T R X) (owner : Nat) (item : T) (token : Option Nat) : Option (State T R X) :=
  if s.tokenSet token then
    some { s with promises := s.promises ++ [⟨item, some beforeEnqueue⟩]
                  trace := s.trace ++ [.requested s.promises.length true, .satisfied s.promises.length beforeEnqueue] }
  else
    (Pool.step s.pool (.submit owner item [⟨s.promises.length, token⟩])).map fun pool =>
      { s with pool := pool
               promises := s.promises ++ [⟨item, none⟩]
               trace := s.trace ++ [.requested s.promises.length false] }

-- set_value or set_exception ends the wrapper. On a satisfied promise it throws
-- std::future_error, and so does the set_exception of the handler: the wrapper
-- then throws and ProcessLoop swallows it.
def satisfy (s : State T R X) (w k : Nat) (content : Content R X) : Option (State T R X) :=
  (s.promises[k]?).bind fun promise =>
    match promise.content with
    | none =>
        (Pool.step s.pool (.worker w)).map fun pool =>
          { s with pool := pool
                   promises := s.promises.set k { promise with content := some content }
                   frames := s.frames.set w none
                   trace := s.trace ++ [.satisfied k content] }
    | some _ =>
        (Pool.step s.pool (.workerThrows w)).map fun pool =>
          { s with pool := pool
                   frames := s.frames.set w none
                   trace := s.trace ++ [.satisfied k content] }

-- A worker enters the next wrapper of its task: it reads the token and either
-- cancels or calls fn on the payload.
def enter (s : State T R X) (w : Nat) : Option (State T R X) :=
  match s.pool.workers[w]?, s.frames[w]? with
  | some (.wrappers item (wrapper :: _)), some none =>
      if s.tokenSet wrapper.token then
        satisfy { s with trace := s.trace ++ [.read wrapper.promise true] } w wrapper.promise beforeExecution
      else
        some { s with frames := s.frames.set w (some wrapper.promise)
                      trace := s.trace ++ [.read wrapper.promise false, .invoked wrapper.promise item.payload] }
  | _, _ => none

def returns (s : State T R X) (w : Nat) (r : R) : Option (State T R X) :=
  match s.frames[w]? with
  | some (some k) => satisfy { s with trace := s.trace ++ [.returned k r] } w k (.value r)
  | _ => none

def throws (s : State T R X) (w : Nat) (x : X) : Option (State T R X) :=
  match s.frames[w]? with
  | some (some k) => satisfy { s with trace := s.trace ++ [.threw k x] } w k (.exception x)
  | _ => none

-- The other steps of the processor: tasks submitted without a future carry no
-- wrapper, and what a worker does in a wrapper is told above.
def plain (pool : Pool.State T Wrapper) : Pool.Action T Wrapper → Bool
  | .submit _ _ wrappers => wrappers.isEmpty
  | .worker w | .workerThrows w | .workerSteals w _ =>
      match pool.workers[w]? with
      | some (.wrappers _ (_ :: _)) => false
      | _ => true
  | _ => true

inductive Action (T R X : Type) where
  | submitWithResult (owner : Nat) (item : T) (token : Option Nat)
  | enter (w : Nat)
  | returns (w : Nat) (r : R)
  | throws (w : Nat) (x : X)
  | pool (action : Pool.Action T Wrapper)
  | makeToken (set : Bool)
  | setToken (t : Nat) (set : Bool)

def step (s : State T R X) : Action T R X → Option (State T R X)
  | .submitWithResult owner item token => submitWithResult s owner item token
  | .enter w => enter s w
  | .returns w r => returns s w r
  | .throws w x => throws s w x
  | .pool action =>
      if plain s.pool action then (Pool.step s.pool action).map fun pool => { s with pool := pool } else none
  | .makeToken set => some { s with tokens := s.tokens ++ [set] }
  | .setToken t set => some { s with tokens := s.tokens.set t set }

def carries (k : Nat) (wrapper : Wrapper) : Bool := wrapper.promise == k

-- The copies of a promise that keep it alive: that of a SubmitWithResult that
-- has not returned, those in the queues until the processor is gone, and those
-- in the hands of a worker. A wrapper that has been called has satisfied its
-- promise, and its copy no longer matters.
def alive (pool : Pool.State T Wrapper) (k : Nat) : Bool :=
  (pool.calls.any fun call => !call.pc.over && call.wrappers.any (carries k)) ||
  (pool.destructor != .destroyed &&
    pool.queues.any fun queue => queue.any fun item => item.wrappers.any (carries k)) ||
  pool.workers.any fun pc => pc.unrun.any (carries k)

inductive Future (R X : Type) where
  | pending
  | ready (content : Content R X)
  | broken
deriving DecidableEq, Repr

-- What the future of a promise shows: a promise destroyed unsatisfied leaves
-- broken_promise.
def State.future (s : State T R X) (k : Nat) : Option (Future R X) :=
  (s.promises[k]?).map fun promise =>
    match promise.content with
    | some content => .ready content
    | none => if alive s.pool k then .pending else .broken

def invocations (k : Nat) (trace : List (Event T R X)) : List T :=
  trace.filterMap fun
    | .invoked j item => if j = k then some item else none
    | _ => none

def satisfactions (k : Nat) (trace : List (Event T R X)) : List (Content R X) :=
  trace.filterMap fun
    | .satisfied j content => if j = k then some content else none
    | _ => none

end

end Vectro.Futures
