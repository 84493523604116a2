import Vectro.PoolBreaker
import Vectro.PoolPlaces

set_option autoImplicit false

namespace Vectro.Pool

variable {T W : Type}

-- A call that the circuit breaker has turned away.
def SubmitPc.turned : SubmitPc → Bool
  | .drop | .dropped => true
  | _ => false

-- What one step does to one call: it keeps its item, a call that is over
-- stays as it is, and only the circuit breaker turns a call away.
structure CallKept (s : State T W) (action : Action T W) (c : Nat) (call : Call T W) (next : SubmitPc) : Prop where
  ended : call.pc.over = true → next = call.pc
  turned : next.turned = true → call.pc.turned = true ∨
    ∃ curr, (action = .call c ∨ action = .callFails c) ∧ call.pc = .check curr ∧ s.cfg.trips curr = true

theorem call_kept_same (s : State T W) (action : Action T W) (c : Nat) (call : Call T W) :
    CallKept s action c call call.pc :=
  ⟨fun _ => rfl, .inl⟩

theorem call_move_kept (s after : State T W) (action : Action T W) (i : Nat) (call : Call T W)
    (found : s.calls[i]? = some call) (acts : action = .call i ∨ action = .callFails i) (moves : CallMove s i call after) :
    ∃ next, after.calls = s.calls.set i { call with pc := next } ∧ CallKept s action i call next := by
  have active : ∀ next : SubmitPc, call.pc.over = true → next = call.pc := by
    intro next ended
    rw [call_move_active s after i call moves] at ended
    cases ended
  cases moves with
  | trip curr here trips => exact ⟨.drop, rfl, active _, fun _ => .inr ⟨curr, acts, here, trips⟩⟩
  | drop here => exact ⟨.dropped, rfl, active _, fun _ => .inl (by rw [here]; rfl)⟩
  | pass curr next here passes goes =>
      refine ⟨next, rfl, active _, ?_⟩
      rcases goes with rfl | rfl <;> simp [SubmitPc.turned]
  | divide | outside =>
      exact ⟨call.pc, (Tally.set_found s.calls i call found).symm, call_kept_same s action i call⟩
  | _ => exact ⟨_, rfl, active _, by simp [SubmitPc.turned]⟩

theorem move_call_kept (s after : State T W) (action : Action T W) (moves : Move s action after) (c : Nat)
    (call : Call T W) (found : s.calls[c]? = some call) :
    ∃ next, after.calls[c]? = some { call with pc := next } ∧ CallKept s action c call next := by
  have same := call_kept_same s action c call
  cases moves with
  | submit owner payload wrappers sequential =>
      refine ⟨call.pc, ?_, same⟩
      exact (List.getElem?_append_left (List.getElem?_eq_some_iff.mp found).1).trans found
  | call _ i other after acts present moves =>
      obtain ⟨next, calls, kept⟩ := call_move_kept s after action i other present acts moves
      by_cases hit : i = c
      · subst i
        have eq : other = call := Option.some.inj (present.symm.trans found)
        subst eq
        exact ⟨next, by rw [calls, List.getElem?_set_self (List.getElem?_eq_some_iff.mp found).1], kept⟩
      · exact ⟨call.pc, by rw [calls, List.getElem?_set_ne hit]; exact found, same⟩
  | worker _ w pc after acts present moves =>
      exact ⟨call.pc, by rw [(worker_move_side s after w pc moves).calls]; exact found, same⟩
  | destroy pc after here moves =>
      exact ⟨call.pc, by rw [(destructor_move_side s after pc moves).calls]; exact found, same⟩
  | _ => exact ⟨call.pc, found, same⟩

end Vectro.Pool

namespace Vectro.Timeouts

open Pool (pushedItems)

-- Where a SubmitWithTimeout call stands: it reads the token, then the clock,
-- then it is inside its SubmitImpl, and then it has returned or SubmitImpl has
-- thrown. The number is that of the SubmitImpl call.
inductive Pc where
  | token
  | deadline
  | submitting (call : Nat)
  | answered (call : Option Nat) (result : Bool)
  | raised (call : Nat)
deriving DecidableEq, Repr

structure Request (T : Type) where
  owner : Nat
  item : T
  deadline : Int
  token : Option Nat
  pc : Pc
deriving DecidableEq, Repr

def Pc.call : Pc → Option Nat
  | .submitting c | .raised c => some c
  | .answered c _ => c
  | _ => none

def Pc.answer : Pc → Option Bool
  | .answered _ result => some result
  | _ => none

def Pc.over : Pc → Bool
  | .answered _ _ | .raised _ => true
  | _ => false

structure State (T W : Type) where
  pool : Pool.State T W
  tokens : List Bool
  requests : List (Request T)

section
variable {T W : Type}

def construct (cfg : Pool.TaskProcessorConfig) (now : Int) : State T W where
  pool := Pool.construct cfg now
  tokens := []
  requests := []

def State.tokenSet (s : State T W) (token : Option Nat) : Bool :=
  match token with
  | none => false
  | some t => s.tokens.getD t false

def State.setRequest (s : State T W) (k : Nat) (request : Request T) (pc : Pc) : State T W :=
  { s with requests := s.requests.set k { request with pc := pc } }

-- A thread makes one call at a time.
def State.idle (s : State T W) (owner : Nat) : Bool :=
  s.requests.all fun request => request.owner != owner || request.pc.over

-- The overload without a token is the one with a null token.
def submitWithTimeout (s : State T W) (k : Nat) (request : Request T) : Option (State T W) :=
  match request.pc with
  | .token =>
      some (s.setRequest k request (if s.tokenSet request.token then .answered none false else .deadline))
  | .deadline =>
      if request.deadline ≤ s.pool.now then some (s.setRequest k request (.answered none false))
      else
        (Pool.step s.pool (.submit request.owner request.item [])).map fun pool =>
          { s with pool := pool }.setRequest k request (.submitting s.pool.calls.length)
  | .submitting c =>
      (s.pool.calls[c]?).bind fun call =>
        match call.pc with
        | .returned | .dropped => some (s.setRequest k request (.answered (some c) true))
        | .failed => some (s.setRequest k request (.raised c))
        | _ => none
  | .answered _ _ | .raised _ => none

inductive Action (T W : Type) where
  | submitWithTimeout (owner : Nat) (item : T) (deadline : Int) (token : Option Nat)
  | request (k : Nat)
  | pool (action : Pool.Action T W)
  | makeToken (set : Bool)
  | setToken (t : Nat) (set : Bool)

-- The other steps of the processor; a Submit is made by a thread that is not
-- inside a SubmitWithTimeout.
def plain (s : State T W) : Pool.Action T W → Bool
  | .submit owner _ _ => s.idle owner
  | _ => true

def step (s : State T W) : Action T W → Option (State T W)
  | .submitWithTimeout owner item deadline token =>
      if s.idle owner then some { s with requests := s.requests ++ [⟨owner, item, deadline, token, .token⟩] } else none
  | .request k => (s.requests[k]?).bind (submitWithTimeout s k)
  | .pool action => if plain s action then (Pool.step s.pool action).map fun pool => { s with pool := pool } else none
  | .makeToken set => some { s with tokens := s.tokens ++ [set] }
  | .setToken t set => some { s with tokens := s.tokens.set t set }

-- The item of a request is on a queue, or has been, by its own SubmitImpl call.
def Pushed (s : State T W) (request : Request T) : Prop :=
  ∃ c, request.pc.call = some c ∧ ⟨request.item, [], c⟩ ∈ pushedItems s.pool.trace

def Truthful (s : State T W) : Prop :=
  ∀ request ∈ s.requests, ∀ result, request.pc.answer = some result →
    (result = true ↔ Pushed s request) ∧ (result = false ↔ ¬ Pushed s request)

-- The circuit breaker does not trip on a call made by SubmitWithTimeout.
def unbroken (s : State T W) : Action T W → Bool
  | .pool (.call i) =>
      match s.pool.calls[i]? with
      | some ⟨_, _, _, .check curr⟩ =>
          s.requests.all fun request => request.pc.call != some i || !s.pool.cfg.trips curr
      | _ => true
  | _ => true

def Unbroken (s : State T W) (action : Action T W) : Prop := unbroken s action = true

instance (s : State T W) (action : Action T W) : Decidable (Unbroken s action) :=
  inferInstanceAs (Decidable (unbroken s action = true))

inductive Move (s : State T W) : Action T W → State T W → Prop where
  | enter (owner : Nat) (item : T) (deadline : Int) (token : Option Nat) :
      Move s (.submitWithTimeout owner item deadline token)
        { s with requests := s.requests ++ [⟨owner, item, deadline, token, .token⟩] }
  | refuse (k : Nat) (request : Request T) (found : s.requests[k]? = some request)
      (early : request.pc = .token ∨ request.pc = .deadline) :
      Move s (.request k) (s.setRequest k request (.answered none false))
  | pass (k : Nat) (request : Request T) (found : s.requests[k]? = some request) (here : request.pc = .token) :
      Move s (.request k) (s.setRequest k request .deadline)
  | submit (k : Nat) (request : Request T) (pool : Pool.State T W) (found : s.requests[k]? = some request)
      (here : request.pc = .deadline)
      (stepped : Pool.step s.pool (.submit request.owner request.item []) = some pool) :
      Move s (.request k) ({ s with pool := pool }.setRequest k request (.submitting s.pool.calls.length))
  | answer (k c : Nat) (request : Request T) (call : Pool.Call T W) (found : s.requests[k]? = some request)
      (here : request.pc = .submitting c) (present : s.pool.calls[c]? = some call)
      (returned : call.pc = .returned ∨ call.pc = .dropped) :
      Move s (.request k) (s.setRequest k request (.answered (some c) true))
  | raise (k c : Nat) (request : Request T) (found : s.requests[k]? = some request) (here : request.pc = .submitting c) :
      Move s (.request k) (s.setRequest k request (.raised c))
  | pool (action : Pool.Action T W) (pool : Pool.State T W) (stepped : Pool.step s.pool action = some pool) :
      Move s (.pool action) { s with pool := pool }
  | tokens (action : Action T W) (tokens : List Bool) : Move s action { s with tokens := tokens }

theorem submit_with_timeout_move (s after : State T W) (k : Nat) (request : Request T)
    (found : s.requests[k]? = some request) (taken : submitWithTimeout s k request = some after) :
    Move s (.request k) after := by
  cases here : request.pc with
  | token =>
      simp only [submitWithTimeout, here, Option.some.injEq] at taken
      split at taken
      · exact taken ▸ .refuse k request found (.inl here)
      · exact taken ▸ .pass k request found here
  | deadline =>
      simp only [submitWithTimeout, here] at taken
      split at taken
      · exact Option.some.inj taken ▸ .refuse k request found (.inr here)
      · obtain ⟨pool, stepped, same⟩ := Option.map_eq_some_iff.mp taken
        exact same ▸ .submit k request pool found here stepped
  | submitting c =>
      simp only [submitWithTimeout, here] at taken
      obtain ⟨call, present, ended⟩ := Option.bind_eq_some_iff.mp taken
      split at ended
      · rename_i returned
        exact Option.some.inj ended ▸ .answer k c request call found here present (.inl returned)
      · rename_i dropped
        exact Option.some.inj ended ▸ .answer k c request call found here present (.inr dropped)
      · exact Option.some.inj ended ▸ .raise k c request found here
      · cases ended
  | answered c result => simp [submitWithTimeout, here] at taken
  | raised c => simp [submitWithTimeout, here] at taken

theorem step_move (s after : State T W) (action : Action T W) (taken : step s action = some after) :
    Move s action after := by
  cases action with
  | submitWithTimeout owner item deadline token =>
      simp only [step] at taken
      split at taken
      · exact Option.some.inj taken ▸ .enter owner item deadline token
      · cases taken
  | request k =>
      obtain ⟨request, found, moved⟩ := Option.bind_eq_some_iff.mp taken
      exact submit_with_timeout_move s after k request found moved
  | pool action =>
      simp only [step] at taken
      split at taken
      · obtain ⟨pool, stepped, same⟩ := Option.map_eq_some_iff.mp taken
        exact same ▸ .pool action pool stepped
      · cases taken
  | makeToken set => exact Option.some.inj taken ▸ .tokens _ _
  | setToken t set => exact Option.some.inj taken ▸ .tokens _ _

-- How the answer of a request and its SubmitImpl call belong together while
-- the circuit breaker has not turned the call away.
def Request.Stands (pool : Pool.State T W) (request : Request T) : Prop :=
  match request.pc with
  | .submitting c =>
      ∃ call, pool.calls[c]? = some call ∧ call.item c = ⟨request.item, [], c⟩ ∧ call.pc.turned = false
  | .answered none result => result = false
  | .answered (some c) result =>
      result = true ∧ ∃ call, pool.calls[c]? = some call ∧ call.item c = ⟨request.item, [], c⟩ ∧ call.pc = .returned
  | _ => True

def Standing (s : State T W) : Prop := ∀ request ∈ s.requests, request.Stands s.pool

theorem pool_step_stands (pool after : Pool.State T W) (action : Pool.Action T W) (request : Request T)
    (stepped : Pool.step pool action = some after)
    (passes : ∀ c curr call, request.pc.call = some c → (action = .call c ∨ action = .callFails c) →
      pool.calls[c]? = some call → call.pc = .check curr → pool.cfg.trips curr = false)
    (stands : request.Stands pool) : request.Stands after := by
  have moves := (Pool.step_move pool after action stepped).2
  unfold Request.Stands at stands ⊢
  cases here : request.pc with
  | submitting c =>
      rw [here] at stands
      obtain ⟨call, found, item, turned⟩ := stands
      obtain ⟨next, present, kept⟩ := Pool.move_call_kept pool after action moves c call found
      refine ⟨{ call with pc := next }, present, item, ?_⟩
      by_contra away
      rcases kept.turned (by simpa using away) with already | ⟨curr, acts, checking, trips⟩
      · rw [turned] at already
        cases already
      · rw [passes c curr call (by rw [here]; rfl) acts found checking] at trips
        cases trips
  | answered c result =>
      rw [here] at stands
      cases c with
      | none => exact stands
      | some c =>
          obtain ⟨yes, call, found, item, returned⟩ := stands
          obtain ⟨next, present, kept⟩ := Pool.move_call_kept pool after action moves c call found
          have same := kept.ended (by rw [returned]; rfl)
          exact ⟨yes, { call with pc := next }, present, item, same.trans returned⟩
  | _ => trivial

theorem set_stands (s : State T W) (pool : Pool.State T W) (k : Nat) (request : Request T) (pc : Pc)
    (standing : ∀ request ∈ s.requests, request.Stands pool) (next : { request with pc := pc }.Stands pool) :
    Standing ({ s with pool := pool }.setRequest k request pc) :=
  Tally.forall_mem_set (Request.Stands pool) s.requests k { request with pc := pc } standing next

-- A call that throws or fails spuriously does not ask the circuit breaker.
theorem unbroken_passes (s : State T W) (action : Pool.Action T W) (pool : Pool.State T W)
    (stepped : Pool.step s.pool action = some pool) (allowed : Unbroken s (.pool action)) (request : Request T)
    (member : request ∈ s.requests) (c : Nat) (curr : UInt64) (call : Pool.Call T W) (own : request.pc.call = some c)
    (acts : action = .call c ∨ action = .callFails c) (found : s.pool.calls[c]? = some call)
    (checking : call.pc = .check curr) : s.pool.cfg.trips curr = false := by
  obtain ⟨owner, payload, wrappers, pc⟩ := call
  cases checking
  rcases acts with rfl | rfl
  · have passes := allowed
    simp only [Unbroken, unbroken, found, List.all_eq_true] at passes
    simpa [own] using passes request member
  · have sound := (Pool.step_move s.pool pool _ stepped).1
    simp [Pool.step, sound, found, Pool.submitImplFails] at stepped

theorem submit_call (pool after : Pool.State T W) (owner : Nat) (item : T)
    (stepped : Pool.step pool (.submit owner item []) = some after) :
    after.calls[pool.calls.length]? = some ⟨owner, item, [], .load⟩ := by
  cases (Pool.step_move pool after _ stepped).2 with
  | submit _ _ _ sequential => exact List.getElem?_concat_length
  | call _ i call after acts found moves => rcases acts with acts | acts <;> cases acts
  | worker _ w pc after acts found moves => rcases acts with acts | acts | ⟨vic, acts⟩ <;> cases acts

theorem move_standing (s after : State T W) (action : Action T W) (moves : Move s action after)
    (allowed : Unbroken s action) (standing : Standing s) : Standing after := by
  cases moves with
  | enter owner item deadline token =>
      intro request member
      rcases List.mem_append.mp member with old | new
      · exact standing request old
      · rw [List.mem_singleton.mp new]
        trivial
  | refuse k request found early => exact set_stands s s.pool k request _ standing rfl
  | pass k request found here => exact set_stands s s.pool k request _ standing trivial
  | submit k request pool found here stepped =>
      refine set_stands s pool k request _ ?_ ⟨_, submit_call s.pool pool request.owner request.item stepped, rfl, rfl⟩
      intro other member
      apply pool_step_stands s.pool pool _ other stepped _ (standing other member)
      intro c curr call _ acts
      rcases acts with acts | acts <;> cases acts
  | answer k c request call found here present returned =>
      have stands := standing request (List.mem_of_getElem? found)
      unfold Request.Stands at stands
      rw [here] at stands
      obtain ⟨other, same, item, turned⟩ := stands
      have eq : other = call := Option.some.inj (same.symm.trans present)
      subst eq
      refine set_stands s s.pool k request _ standing ⟨rfl, other, present, item, ?_⟩
      rcases returned with returned | dropped
      · exact returned
      · rw [dropped] at turned
        cases turned
  | raise k c request found here => exact set_stands s s.pool k request _ standing trivial
  | pool action pool stepped =>
      intro request member
      refine pool_step_stands s.pool pool action request stepped ?_ (standing request member)
      exact unbroken_passes s action pool stepped allowed request member
  | tokens action tokens => exact standing

abbrev Reached (cfg : Pool.TaskProcessorConfig) (now : Int) (pool : Pool.State T W) : Prop :=
  Machine.Reachable Pool.step (fun _ _ => True) (Pool.construct cfg now) pool

theorem move_reached (cfg : Pool.TaskProcessorConfig) (now : Int) (s after : State T W) (action : Action T W)
    (moves : Move s action after) (reached : Reached cfg now s.pool) : Reached cfg now after.pool := by
  cases moves with
  | submit k request pool found here stepped => exact .step s.pool pool _ reached trivial stepped
  | pool action pool stepped => exact .step s.pool pool _ reached trivial stepped
  | _ => exact reached

theorem reachable_standing (cfg : Pool.TaskProcessorConfig) (now : Int) (s : State T W)
    (reachable : Machine.Reachable step Unbroken (construct cfg now) s) : Reached cfg now s.pool ∧ Standing s := by
  refine Machine.reachable_invariant step Unbroken _ (fun s => Reached cfg now s.pool ∧ Standing s) ?_ ?_ s reachable
  · exact ⟨.start, List.forall_mem_nil _⟩
  · intro before action after _ both allowed taken
    have moves := step_move before after action taken
    exact ⟨move_reached cfg now before after action moves both.1,
      move_standing before after action moves allowed both.2⟩

theorem stands_truthful (s : State T W) (conserved : Pool.Conserved s.pool) (traced : Pool.Traced s.pool)
    (request : Request T) (result : Bool) (answered : request.pc.answer = some result) (stands : request.Stands s.pool) :
    result = true ↔ Pushed s request := by
  unfold Request.Stands at stands
  cases here : request.pc with
  | answered c given =>
      rw [here] at answered stands
      cases answered
      cases c with
      | none =>
          rw [show result = false from stands]
          constructor
          · intro yes
            cases yes
          · rintro ⟨c, own, _⟩
            rw [here] at own
            cases own
      | some c =>
          obtain ⟨yes, call, found, item, returned⟩ := stands
          refine ⟨fun _ => ⟨c, by rw [here]; rfl, ?_⟩, fun _ => yes⟩
          rw [← item]
          exact (Pool.pushed_iff s.pool conserved traced c call found).mpr (by rw [returned]; rfl)
  | _ =>
      rw [here] at answered
      cases answered

theorem submit_with_timeout_truthful (cfg : Pool.TaskProcessorConfig) (now : Int) (s : State T W)
    (reachable : Machine.Reachable step Unbroken (construct cfg now) s) : Truthful s := by
  obtain ⟨reached, standing⟩ := reachable_standing cfg now s reachable
  obtain ⟨conserved, traced⟩ := Pool.reachable_conserved _ cfg now s.pool reached
  intro request member result answered
  have told := stands_truthful s conserved traced request result answered (standing request member)
  refine ⟨told, ?_⟩
  rw [← told]
  cases result <;> decide

end

-- The first task is on the only queue and the thread is back in its own code.
def firstAccepted : List (Action Nat Nat) :=
  [[.makeToken false, .submitWithTimeout 0 7 10 (some 0), .request 0, .request 0],
    List.replicate 8 (.pool (.call 0)), [.request 0]].flatten

theorem submit_with_timeout_truthful_both :
    ∃ s : State Nat Nat, Machine.Reachable step Unbroken (construct Pool.smallBreaker 0) s ∧ Truthful s ∧
      s.requests.map (fun request => request.pc.answer) = [some true, some false] := by
  obtain ⟨s, reachable, shown⟩ := Machine.run_exhibits step Unbroken (construct Pool.smallBreaker 0)
    (firstAccepted ++ [.setToken 0 true, .submitWithTimeout 0 8 10 (some 0), .request 1])
    (fun s => s.requests.map (fun request => request.pc.answer) == [some true, some false]) (by decide)
  exact ⟨s, reachable, submit_with_timeout_truthful Pool.smallBreaker 0 s reachable, eq_of_beq shown⟩

-- The second task meets a full processor. It is dropped, and reported as
-- accepted.
theorem dropped_reported_accepted :
    ¬ ∀ (cfg : Pool.TaskProcessorConfig) (now : Int) (s : State Nat Nat),
      Machine.Reachable step (fun _ _ => True) (construct cfg now) s → Truthful s := by
  intro always
  obtain ⟨s, reachable, shown⟩ := Machine.run_exhibits step (fun _ _ => True) (construct Pool.smallBreaker 0)
    ([firstAccepted, [.submitWithTimeout 0 8 10 none, .request 1, .request 1], List.replicate 3 (.pool (.call 1)),
      [.request 1]].flatten)
    (fun s => s.requests[1]? == some ⟨0, 8, 10, none, .answered (some 1) true⟩ &&
      !(pushedItems s.pool.trace).contains ⟨8, [], 1⟩) (by decide)
  rw [Bool.and_eq_true, beq_iff_eq] at shown
  obtain ⟨found, absent⟩ := shown
  obtain ⟨c, own, pushed⟩ := ((always _ _ s reachable _ (List.mem_of_getElem? found) true rfl).1).mp rfl
  cases own
  rw [List.contains_iff_mem.mpr pushed] at absent
  cases absent

end Vectro.Timeouts
