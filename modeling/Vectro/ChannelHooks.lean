import Vectro.PoolAgreement
import Vectro.PoolEnding

set_option autoImplicit false

namespace Vectro.Hooks

open Pool (TaskItem TaskProcessorConfig seen)

variable {M W : Type}

-- The hooks of a Channel that are set. OnStart is tested in the constructor,
-- before anybody can have set it, and nothing ever tests OnDropped.
structure Assigned where
  onShutdown : Bool := false
  onStop : Bool := false
  onEnqueue : Bool := false
  onProcessed : Bool := false
  onError : Bool := false
deriving DecidableEq, Repr

-- What a worker executes inside the callback the constructor registers.
inductive Stage (M W : Type) where
  | processing (item : TaskItem M W)
  | failing (item : TaskItem M W)
deriving DecidableEq, Repr

def Stage.item : Stage M W → TaskItem M W
  | .processing item | .failing item => item

-- raised tells whether OnError was set then, reported whether OnError threw too,
-- and unheeded is a run of the callback that found OnProcessed unset.
inductive Event (M W : Type) where
  | onEnqueue (msg : M)
  | onProcessed (item : TaskItem M W)
  | returned (item : TaskItem M W)
  | raised (item : TaskItem M W) (told : Bool)
  | onError (item : TaskItem M W)
  | reported (item : TaskItem M W) (threw : Bool)
  | unheeded (item : TaskItem M W)
  | onShutdown (force : Bool)
  | onStop
deriving DecidableEq, Repr

inductive Life where
  | constructing
  | active
  | closing
  | shut
deriving DecidableEq, Repr

-- entering holds the calls of Enqueue that are inside OnEnqueue, inside what each
-- worker executes.
structure State (M W : Type) where
  proc : Pool.State M W
  hooks : Assigned
  life : Life
  entering : List (Nat × M)
  inside : List (Option (Stage M W))
  fault : Bool
  trace : List (Event M W)

def construct (cfg : TaskProcessorConfig) (now : Int) : State M W where
  proc := Pool.construct cfg now
  hooks := {}
  life := .constructing
  entering := []
  inside := List.replicate cfg.numThreads none
  fault := false
  trace := []

def State.emit (s : State M W) (event : Event M W) : State M W := { s with trace := s.trace ++ [event] }

def State.submit (s : State M W) (owner : Nat) (msg : M) : Option (State M W) :=
  (Pool.step s.proc (.submit owner msg [])).map fun proc => { s with proc := proc }

def State.enqueue (s : State M W) (owner : Nat) (msg : M) : Option (State M W) :=
  if s.hooks.onEnqueue then some ({ s with entering := s.entering ++ [(owner, msg)] }.emit (.onEnqueue msg))
  else s.submit owner msg

-- The end of the callback. What it throws is caught by the processor.
def State.leave (s : State M W) (w : Nat) (event : Event M W) (threw : Bool) : Option (State M W) :=
  (Pool.step s.proc (if threw then .workerThrows w else .worker w)).map fun proc =>
    { s with proc := proc, inside := s.inside.set w none }.emit event

def State.callback (s : State M W) (w : Nat) (item : TaskItem M W) : Option (State M W) :=
  if s.hooks.onProcessed then some ({ s with inside := s.inside.set w (some (.processing item)) }.emit (.onProcessed item))
  else s.leave w (.unheeded item) false

def State.returns (s : State M W) (w : Nat) : Stage M W → Option (State M W)
  | .processing item => s.leave w (.returned item) false
  | .failing item => s.leave w (.reported item false) false

def State.raises (s : State M W) (w : Nat) : Stage M W → Option (State M W)
  | .processing item =>
      if s.hooks.onError then
        some (({ s with inside := s.inside.set w (some (.failing item)) }.emit (.raised item true)).emit (.onError item))
      else s.leave w (.raised item false) false
  | .failing item => s.leave w (.reported item true) true

-- Both shutdown functions, up to the call of the destructor of proc_. That the
-- destructor runs a second time is undefined.
def State.shutdown (s : State M W) (force raises : Bool) : Option (State M W) :=
  match s.life with
  | .constructing => none
  | .active =>
      let told := if s.hooks.onShutdown then s.emit (.onShutdown force) else s
      if s.hooks.onShutdown && raises then some told else some { told with life := .closing }
  | _ => some { s with fault := true }

inductive Action (M W : Type) where
  | register
  | assign (hooks : Assigned)
  | enqueue (owner : Nat) (msg : M)
  | entered (i : Nat) (raises : Bool)
  | proc (action : Pool.Action M W)
  | callback (w : Nat)
  | returns (w : Nat)
  | raises (w : Nat)
  | shutdown (force raises : Bool)
  | destroy
  | stop

-- What the processor does by itself or through UpdateConfig. Nobody else has
-- access to proc_, and the runs of the callback are the other actions.
def plain (proc : Pool.State M W) : Pool.Action M W → Bool
  | .call _ | .callFails _ | .workerSteals _ _ | .updateConfig _ | .clock _ => true
  | .worker w =>
      match proc.workers[w]? with
      | some (.callbacks _ k) => decide (proc.globalCallbacks ≤ k)
      | _ => true
  | _ => false

def State.act (s : State M W) : Action M W → Option (State M W)
  | .register =>
      if s.life = .constructing then
        (Pool.step s.proc .registerCallback).map fun proc => { s with proc := proc, life := .active }
      else none
  | .assign hooks => if s.life = .constructing then none else some { s with hooks := hooks }
  | .enqueue owner msg =>
      if s.life = .constructing ∨ s.entering.any (fun call => call.1 == owner) then none else s.enqueue owner msg
  | .entered i raises =>
      if s.life = .constructing then none
      else (s.entering[i]?).bind fun call =>
        let left : State M W := { s with entering := s.entering.eraseIdx i }
        if raises then some left else left.submit call.1 call.2
  | .proc action => if plain s.proc action then (Pool.step s.proc action).map fun proc => { s with proc := proc } else none
  | .callback w =>
      match s.proc.workers[w]?, s.inside[w]? with
      | some (.callbacks item 0), some none => if 0 < s.proc.globalCallbacks then s.callback w item else none
      | _, _ => none
  | .returns w =>
      match s.inside[w]? with
      | some (some stage) => s.returns w stage
      | _ => none
  | .raises w =>
      match s.inside[w]? with
      | some (some stage) => s.raises w stage
      | _ => none
  | .shutdown force raises => s.shutdown force raises
  | .destroy => if s.life = .closing then (Pool.step s.proc .destroy).map fun proc => { s with proc := proc } else none
  | .stop =>
      match s.life, s.proc.destructor with
      | .closing, .destroyed =>
          let shut := { s with life := .shut }
          some (if s.hooks.onStop then shut.emit .onStop else shut)
      | _, _ => none

def step (s : State M W) (action : Action M W) : Option (State M W) := if s.fault then none else s.act action

def Event.ofCallback : Event M W → Bool
  | .onEnqueue _ | .onShutdown _ | .onStop => false
  | _ => true

def processed (trace : List (Event M W)) : List (TaskItem M W) :=
  trace.filterMap fun
    | .onProcessed item => some item
    | _ => none

def errors (trace : List (Event M W)) : List (TaskItem M W) :=
  trace.filterMap fun
    | .onError item => some item
    | _ => none

def told (trace : List (Event M W)) : List (TaskItem M W) :=
  trace.filterMap fun
    | .raised item true => some item
    | _ => none

-- The log as a sequence of runs of the callback, one after the other, with the
-- items of those that have ended and what the one under way executes.
inductive Rounds : List (Event M W) → List (TaskItem M W) → Option (Stage M W) → Prop where
  | start : Rounds [] [] none
  | aside (log : List (Event M W)) (items : List (TaskItem M W)) (stage : Option (Stage M W)) (event : Event M W)
      (earlier : Rounds log items stage) (other : event.ofCallback = false) : Rounds (log ++ [event]) items stage
  | unheeded (log : List (Event M W)) (items : List (TaskItem M W)) (item : TaskItem M W) (earlier : Rounds log items none) :
      Rounds (log ++ [.unheeded item]) (items ++ [item]) none
  | enter (log : List (Event M W)) (items : List (TaskItem M W)) (item : TaskItem M W) (earlier : Rounds log items none) :
      Rounds (log ++ [.onProcessed item]) items (some (.processing item))
  | returns (log : List (Event M W)) (items : List (TaskItem M W)) (item : TaskItem M W)
      (earlier : Rounds log items (some (.processing item))) : Rounds (log ++ [.returned item]) (items ++ [item]) none
  | raises (log : List (Event M W)) (items : List (TaskItem M W)) (item : TaskItem M W)
      (earlier : Rounds log items (some (.processing item))) : Rounds (log ++ [.raised item false]) (items ++ [item]) none
  | fails (log : List (Event M W)) (items : List (TaskItem M W)) (item : TaskItem M W)
      (earlier : Rounds log items (some (.processing item))) :
      Rounds (log ++ [.raised item true] ++ [.onError item]) items (some (.failing item))
  | reports (log : List (Event M W)) (items : List (TaskItem M W)) (item : TaskItem M W) (threw : Bool)
      (earlier : Rounds log items (some (.failing item))) : Rounds (log ++ [.reported item threw]) (items ++ [item]) none

-- At most one worker is inside the callback.
def Stands (inside : List (Option (Stage M W))) : Option (Stage M W) → Prop
  | none => ∀ frame ∈ inside, frame = none
  | some stage => ∃ w, inside[w]? = some (some stage) ∧ ∀ (v : Nat) (other : Stage M W), inside[v]? = some (some other) → v = w

structure InTurn (cfg : TaskProcessorConfig) (now : Int) (s : State M W) : Prop where
  turns : ∃ stage, Rounds s.trace (seen s.proc.trace 0) stage ∧ Stands s.inside stage
  once : ((processed s.trace).map TaskItem.call).Nodup
  genuine : ∀ item ∈ processed s.trace, Pool.Genuine s.proc.calls item
  errors : errors s.trace = told s.trace
  complete : ∀ item ∈ Pool.processedItems s.proc.trace, item ∈ seen s.proc.trace 0
  silent : s.trace.Pairwise fun earlier later => earlier = .onStop → later.ofCallback = false
  arrival : cfg.mode = .fifo → Machine.Reachable step (fun _ action => ∀ other, action ≠ .proc (.updateConfig other)) (construct cfg now) s →
    (seen s.proc.trace 0).map TaskItem.payload <+: (Pool.pushedItems s.proc.trace).map TaskItem.payload

theorem rounds_aside (log events : List (Event M W)) (items : List (TaskItem M W)) (stage : Option (Stage M W))
    (rounds : Rounds log items stage) (others : ∀ event ∈ events, event.ofCallback = false) : Rounds (log ++ events) items stage := by
  induction events generalizing log with
  | nil =>
      rw [List.append_nil]
      exact rounds
  | cons event rest ih =>
      rw [List.append_cons]
      exact ih (log ++ [event]) (.aside log items stage event rounds (others event List.mem_cons_self))
        fun later member => others later (List.mem_cons_of_mem _ member)

theorem rounds_errors (log : List (Event M W)) (items : List (TaskItem M W)) (stage : Option (Stage M W))
    (rounds : Rounds log items stage) : errors log = told log := by
  induction rounds with
  | start => rfl
  | fails log items item earlier ih =>
      have reported : errors (log ++ [.raised item true] ++ [.onError item]) = errors log ++ [item] := by simp [errors]
      have thrown : told (log ++ [.raised item true] ++ [.onError item]) = told log ++ [item] := by simp [told]
      rw [reported, thrown, ih]
  | aside log items stage event earlier other ih =>
      rw [errors, told, Traces.filter_map_quiet, Traces.filter_map_quiet, ← errors, ← told, ih]
      · cases event with
        | raised => cases other
        | _ => rfl
      · cases event with
        | onError => cases other
        | _ => rfl
  | _ => rw [errors, told, Traces.filter_map_quiet _ _ _ rfl, Traces.filter_map_quiet _ _ _ rfl, ← errors, ← told]; assumption

-- A round that found OnProcessed unset is the only one that did not call it.
theorem rounds_processed (log : List (Event M W)) (items : List (TaskItem M W)) (stage : Option (Stage M W))
    (rounds : Rounds log items stage) : (processed log).Sublist (items ++ (stage.map Stage.item).toList) := by
  have grows : ∀ (log : List (Event M W)) (event : Event M W) (quiet : ∀ item, event ≠ .onProcessed item),
      processed (log ++ [event]) = processed log := by
    intro log event quiet
    apply Traces.filter_map_quiet
    cases event with
    | onProcessed item => exact absurd rfl (quiet item)
    | _ => rfl
  induction rounds with
  | start => exact List.Sublist.refl _
  | aside log items stage event earlier other ih =>
      rw [grows log event fun item same => by rw [same] at other; cases other]
      exact ih
  | unheeded log items item earlier ih =>
      rw [grows _ _ (by simp), Option.map_none, Option.toList_none, List.append_nil]
      simp only [Option.map_none, Option.toList_none, List.append_nil] at ih
      exact ih.trans (List.sublist_append_left _ _)
  | enter log items item earlier ih =>
      have called : processed (log ++ [.onProcessed item]) = processed log ++ [item] := by simp [processed]
      rw [called]
      simp only [Option.map_none, Option.toList_none, List.append_nil] at ih
      exact List.Sublist.append ih (List.Sublist.refl _)
  | fails log items item earlier ih =>
      rw [grows _ _ (by simp), grows _ _ (by simp)]
      exact ih
  | returns log items item earlier ih | raises log items item earlier ih | reports log items item threw earlier ih =>
      rw [grows _ _ (by simp), Option.map_none, Option.toList_none, List.append_nil]
      exact ih

theorem stands_found (inside : List (Option (Stage M W))) (w : Nat) (here : Stage M W) (stage : Option (Stage M W))
    (stands : Stands inside stage) (found : inside[w]? = some (some here)) :
    stage = some here ∧ ∀ (v : Nat) (other : Stage M W), inside[v]? = some (some other) → v = w := by
  cases stage with
  | none =>
      have vacant := stands (some here) (List.mem_of_getElem? found)
      cases vacant
  | some stage =>
      obtain ⟨v, there, sole⟩ := stands
      obtain rfl := sole w here found
      rw [found] at there
      exact ⟨by rw [Option.some.inj (Option.some.inj there)], sole⟩

theorem stands_vacant (inside : List (Option (Stage M W))) (stage : Option (Stage M W)) (stands : Stands inside stage)
    (vacant : ∀ frame ∈ inside, frame = none) : stage = none := by
  cases stage with
  | none => rfl
  | some stage =>
      obtain ⟨w, found, _⟩ := stands
      cases vacant _ (List.mem_of_getElem? found)

theorem set_found (inside : List (Option (Stage M W))) (w v : Nat) (new : Option (Stage M W)) (other : Stage M W)
    (sole : ∀ (u : Nat) (stage : Stage M W), inside[u]? = some (some stage) → u = w)
    (found : (inside.set w new)[v]? = some (some other)) : v = w ∧ new = some other := by
  by_cases same : v = w
  · subst same
    by_cases bound : v < inside.length
    · rw [List.getElem?_set_self bound] at found
      exact ⟨rfl, Option.some.inj found⟩
    · rw [List.getElem?_eq_none_iff.mpr (by rw [List.length_set]; omega)] at found
      cases found
  · rw [List.getElem?_set_ne (Ne.symm same)] at found
    exact absurd (sole v other found) same

theorem stands_leave (inside : List (Option (Stage M W))) (w : Nat)
    (sole : ∀ (v : Nat) (stage : Stage M W), inside[v]? = some (some stage) → v = w) : Stands (inside.set w none) none := by
  intro frame member
  obtain ⟨v, found⟩ := List.mem_iff_getElem?.mp member
  cases frame with
  | none => rfl
  | some other => cases (set_found inside w v none other sole found).2

theorem stands_enter (inside : List (Option (Stage M W))) (w : Nat) (old : Option (Stage M W)) (stage : Stage M W)
    (found : inside[w]? = some old) (sole : ∀ (v : Nat) (other : Stage M W), inside[v]? = some (some other) → v = w) :
    Stands (inside.set w (some stage)) (some stage) :=
  ⟨w, List.getElem?_set_self (List.getElem?_eq_some_iff.mp found).1, fun v other there =>
    (set_found inside w v (some stage) other sole there).1⟩

end Vectro.Hooks
