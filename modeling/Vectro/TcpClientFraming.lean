import Vectro.TcpClientPending

set_option autoImplicit false

namespace Vectro.Tcp

variable {H M : Type}

-- A client whose framer may raise. Send calls Frame before anything else, and
-- SendRequest calls Send after the request has been entered and counted and
-- before it has a timer; the exception leaves SendRequest.
inductive FramingAction (H M : Type) where
  | client (action : Action H M)
  | frameRaises (i : Nat)

def framingStep (s : State H M) : FramingAction H M → Option (State H M)
  | .client action => step s action
  | .frameRaises i =>
      match s.calls[i]? with
      | some (.send _) => some (s.goto i .returned)
      | _ => none

def Frames (_ : State H M) : FramingAction H M → Prop
  | .client _ => True
  | .frameRaises _ => False

instance (s : State H M) (action : FramingAction H M) : Decidable (Frames s action) :=
  match action with
  | .client _ => isTrue trivial
  | .frameRaises _ => isFalse not_false

-- No SendRequest and no wait handler of a request's timer is under way.
def Idle (s : State H M) : Prop := ∀ call ∈ s.calls, call.timed = []

def Timed (s : State H M) : Prop := ∀ entry ∈ s.pendingResponses, entry.1 ∈ s.timers

-- Every entry has its timer, or a call that is going to start it or to take the
-- entry out.
structure Owned (s : State H M) : Prop where
  distinct : (s.pendingResponses.map Prod.fst).Nodup
  owned : ∀ entry ∈ s.pendingResponses, entry.1 ∈ s.timers ∨ ∃ call ∈ s.calls, entry.1 ∈ call.timed

theorem owned_idle (s : State H M) (owned : Owned s) (idle : Idle s) : Timed s := by
  intro entry member
  rcases owned.owned entry member with waits | ⟨call, present, timed⟩
  · exact waits
  · rw [idle call present] at timed
    cases timed

-- A call that goes on hands over the timer it was responsible for.
theorem owned_goto (s after : State H M) (i : Nat) (old new : Call H M) (found : s.calls[i]? = some old)
    (calls : after.calls = s.calls.set i new) (owned : Owned s) (distinct : (after.pendingResponses.map Prod.fst).Nodup)
    (timers : ∀ cid ∈ s.timers, cid ∈ after.timers)
    (pending : ∀ entry ∈ after.pendingResponses, entry ∈ s.pendingResponses ∨ entry.1 ∈ new.timed)
    (handed : ∀ entry ∈ after.pendingResponses, entry.1 ∈ old.timed → entry.1 ∈ new.timed ∨ entry.1 ∈ after.timers) :
    Owned after := by
  refine ⟨distinct, fun entry member => ?_⟩
  have inside : i < s.calls.length := (List.getElem?_eq_some_iff.mp found).1
  have next : new ∈ after.calls := calls ▸ List.mem_set inside new
  rcases pending entry member with before | timed
  · rcases owned.owned entry before with waits | ⟨call, present, timed⟩
    · exact .inl (timers _ waits)
    · obtain ⟨j, here⟩ := List.getElem?_of_mem present
      by_cases same : i = j
      · obtain rfl : old = call := Option.some.inj (found.symm.trans (same ▸ here))
        rcases handed entry member timed with kept | waits
        · exact .inr ⟨new, next, kept⟩
        · exact .inl waits
      · have still : after.calls[j]? = some call := by rw [calls, List.getElem?_set_ne same, here]
        exact .inr ⟨call, List.mem_of_getElem? still, timed⟩
  · exact .inr ⟨new, next, timed⟩

theorem emplace_keys (map : List (Nat × Option H)) (cid : Nat) (cb : Option H) (distinct : (map.map Prod.fst).Nodup) :
    ((emplace map cid cb).map Prod.fst).Nodup ∧ ∀ entry ∈ emplace map cid cb, entry ∈ map ∨ entry.1 = cid := by
  rw [emplace]
  split
  · exact ⟨distinct, fun entry member => .inl member⟩
  · rename_i absent
    have free : map.lookup cid = none := Option.not_isSome_iff_eq_none.mp absent
    refine ⟨?_, fun entry member => ?_⟩
    · rw [List.map_append, List.nodup_append]
      refine ⟨distinct, List.nodup_singleton _, ?_⟩
      rintro _ member _ last rfl
      obtain ⟨⟨key, other⟩, held, rfl⟩ := List.mem_map.mp member
      obtain rfl : key = cid := List.mem_singleton.mp last
      exact lookup_absent map key free other held
    · rcases List.mem_append.mp member with old | new
      · exact .inl old
      · rw [List.mem_singleton.mp new]
        exact .inr rfl

-- The keys are distinct, so that no other entry has the one that is erased.
theorem erase_gone (map : List (Nat × Option H)) (cid : Nat) (cb : Option H) (found : map.lookup cid = some cb)
    (distinct : (map.map Prod.fst).Nodup) : ∀ entry ∈ erase map cid, entry ∈ map ∧ entry.1 ≠ cid := by
  have counted := erase_count map cid cb found fun entry => entry.1 == cid
  have once : map.countP (fun entry => entry.1 == cid) ≤ 1 := by
    have keys := List.nodup_iff_count_le_one.mp distinct cid
    rwa [List.count, List.countP_map] at keys
  have one : [(cid, cb)].countP (fun entry => entry.1 == cid) = 1 := by simp
  have gone : (erase map cid).countP (fun entry => entry.1 == cid) = 0 := by omega
  intro entry member
  refine ⟨List.mem_of_mem_eraseP member, fun same => ?_⟩
  exact List.countP_eq_zero.mp gone entry member (beq_iff_eq.mpr same)

theorem aside_untimed (call : Call H M) (aside : call.aside = true) : call.timed = [] := by
  cases call <;> first | rfl | cases aside

theorem subtracting_untimed (call : Call H M) (owes : call.subtracting = 1) : call.timed = [] := by
  cases call <;> first | rfl | cases owes

-- The entries and the timers are as before.
theorem owned_passes (s after : State H M) (i : Nat) (old new : Call H M) (found : s.calls[i]? = some old)
    (calls : after.calls = s.calls.set i new) (owned : Owned s) (pending : after.pendingResponses = s.pendingResponses)
    (timers : after.timers = s.timers)
    (handed : ∀ entry ∈ s.pendingResponses, entry.1 ∈ old.timed → entry.1 ∈ new.timed) : Owned after :=
  owned_goto s after i old new found calls owned (pending ▸ owned.distinct) (fun _ waits => timers ▸ waits)
    (fun _ member => .inl (pending ▸ member)) fun entry member timed => .inl (handed entry (pending ▸ member) timed)

theorem advance_owned (s : State H M) (i : Nat) (raises : Bool) (call : Call H M) (found : s.calls[i]? = some call)
    (owned : Owned s) : Owned (s.advance i raises call) := by
  obtain ⟨new, calls, turn⟩ := advance_turn s i raises call found
  cases turn with
  | register cid cb pending counter timers =>
      obtain ⟨distinct, entries⟩ := emplace_keys s.pendingResponses cid cb owned.distinct
      refine owned_goto s _ i _ _ found calls owned (pending ▸ distinct) (fun _ waits => timers ▸ waits) ?_ ?_
      · intro entry member
        rw [pending] at member
        exact (entries entry member).imp_right List.mem_singleton.mpr
      · exact fun entry member timed => .inl timed
  | count cid pending counter timers | send cid pending counter timers =>
      exact owned_passes s _ i _ _ found calls owned pending timers fun entry member timed => timed
  | arm cid pending counter timers =>
      refine owned_goto s _ i _ _ found calls owned (pending ▸ owned.distinct)
        (fun _ waits => timers ▸ List.mem_append_left _ waits) (fun entry member => .inl (pending ▸ member)) ?_
      exact fun entry member timed => .inr (timers ▸ List.mem_append_right _ timed)
  | late cid absent pending counter timers =>
      refine owned_passes s _ i _ _ found calls owned pending timers ?_
      rintro ⟨key, cb⟩ member timed
      obtain rfl : key = cid := List.mem_singleton.mp timed
      exact absurd member (lookup_absent _ key absent cb)
  | expire cid cb present pending counter timers =>
      have gone := erase_gone s.pendingResponses cid cb present owned.distinct
      rw [← pending] at gone
      refine owned_goto s _ i _ _ found calls owned (pending ▸ owned.distinct.sublist (erase_keys _ cid))
        (fun _ waits => timers ▸ waits) (fun entry member => .inl (gone entry member).1) ?_
      exact fun entry member timed => absurd (List.mem_singleton.mp timed) (gone entry member).2
  | answer message cb rest present pending counter timers | forget message rest present pending counter timers =>
      refine owned_goto s _ i _ _ found calls owned (pending ▸ owned.distinct.sublist (erase_keys _ _))
        (fun _ waits => timers ▸ waits) (fun entry member => .inl (List.mem_of_mem_eraseP (pending ▸ member))) ?_
      intro entry member timed
      cases timed
  | subtract _ _ owes settled pending counter timers =>
      refine owned_passes s _ i _ _ found calls owned pending timers fun entry member timed => ?_
      rw [subtracting_untimed call owes] at timed
      cases timed
  | aside _ _ before settled unmatched pending counter timers =>
      refine owned_passes s _ i _ _ found calls owned pending timers fun entry member timed => ?_
      rw [aside_untimed call before] at timed
      cases timed

theorem step_owned (s after : State H M) (action : Action H M) (taken : step s action = some after) (owned : Owned s) :
    Owned after := by
  refine step_preserves Owned s after action taken ?_ ?_ ?_ ?_ ?_
  · intro after aside
    refine ⟨aside.pending ▸ owned.distinct, ?_⟩
    rw [aside.pending, aside.timers, aside.calls]
    exact owned.owned
  · intro onResponse _
    refine ⟨owned.distinct, fun entry member => (owned.owned entry member).imp_right ?_⟩
    exact fun ⟨call, present, timed⟩ => ⟨call, List.mem_append_left _ present, timed⟩
  · intro msgs
    refine ⟨owned.distinct, fun entry member => (owned.owned entry member).imp_right ?_⟩
    exact fun ⟨call, present, timed⟩ => ⟨call, List.mem_append_left _ present, timed⟩
  · intro i cid waiting
    refine ⟨owned.distinct, fun entry member => ?_⟩
    rcases owned.owned entry member with waits | ⟨call, present, timed⟩
    · obtain ⟨j, here⟩ := List.getElem?_of_mem waits
      by_cases same : j = i
      · have expires : cid = entry.1 := Option.some.inj (waiting.symm.trans (same ▸ here))
        exact .inr ⟨.expired cid, List.mem_append_right _ (List.mem_singleton.mpr rfl), List.mem_singleton.mpr expires.symm⟩
      · exact .inl (List.mem_eraseIdx_iff_getElem?.mpr ⟨j, same, here⟩)
    · exact .inr ⟨call, List.mem_append_left _ present, timed⟩
  · exact fun i raises call found => advance_owned s i raises call found owned

theorem reachable_owned (s : State H M) (reachable : Machine.Reachable framingStep Frames construct s) : Owned s := by
  refine Machine.reachable_invariant framingStep Frames _ Owned ?_ ?_ s reachable
  · exact ⟨List.nodup_nil, fun _ member => by cases member⟩
  · intro before action after _ owned frames taken
    cases action with
    | client action => exact step_owned before after action taken owned
    | frameRaises i => exact frames.elim

-- A whole SendRequest, from its start to where it returns or raises. i is the
-- place of the call.
def wholeRequest (i : Nat) (onResponse : Option H) : Bool → List (FramingAction H M)
  | false => .client (.sendRequest onResponse) :: List.replicate 4 (.client (.advance i false))
  | true => .client (.sendRequest onResponse) :: List.replicate 2 (.client (.advance i false)) ++ [.frameRaises i]

-- The request is in the map and in the counter, and has no timer.
def State.requested (s : State H M) (onResponse : Option H) : State H M :=
  { s with
    nextCorrelationId := (s.nextCorrelationId + 1) % 2 ^ 64
    pendingResponses := emplace s.pendingResponses s.nextCorrelationId onResponse
    pendingRequests := s.pendingRequests + 1
    calls := s.calls ++ [.returned]
    trace := s.trace ++ [.issued s.nextCorrelationId onResponse] }

theorem whole_request_raises (s : State H M) (onResponse : Option H) :
    Machine.run framingStep (fun _ _ => True) s (wholeRequest s.calls.length onResponse true) = some (s.requested onResponse) := by
  simp [wholeRequest, Machine.run, framingStep, step, State.sendRequest, State.begin, State.emit, State.advance, State.goto,
    State.fetchAdd, State.requested, List.replicate]

theorem whole_request_returns (s : State H M) (onResponse : Option H) :
    Machine.run framingStep (fun _ _ => True) s (wholeRequest s.calls.length onResponse false) =
      some { s.requested onResponse with
        timers := s.timers ++ [s.nextCorrelationId]
        trace := (s.requested onResponse).trace ++ [.sent s.nextCorrelationId] } := by
  simp [wholeRequest, Machine.run, framingStep, step, State.sendRequest, State.begin, State.emit, State.advance, State.goto,
    State.fetchAdd, State.requested, List.replicate]

theorem failed_request_leaves_nothing_iff (s : State H M) (reachable : Machine.Reachable framingStep Frames construct s)
    (idle : Idle s) :
    Timed s ∧ ∀ onResponse raises, ∃ after,
      Machine.run framingStep (fun _ _ => True) s (wholeRequest s.calls.length onResponse raises) = some after ∧
      ((raises = true → after.pendingResponses = s.pendingResponses ∧ after.pendingRequests = s.pendingRequests) ∧
        Timed after ↔ raises = false) := by
  have owned := reachable_owned s reachable
  have timed := owned_idle s owned idle
  refine ⟨timed, fun onResponse raises => ?_⟩
  cases raises with
  | true =>
      refine ⟨_, whole_request_raises s onResponse, ?_⟩
      have counted : (s.requested onResponse).pendingRequests ≠ s.pendingRequests := by
        show s.pendingRequests + 1 ≠ s.pendingRequests
        intro same
        have numbers := congrArg UInt64.toNat same
        have small := s.pendingRequests.toNat_lt
        rw [UInt64.toNat_add, UInt64.toNat_one] at numbers
        omega
      exact ⟨fun kept => absurd (kept.1 rfl).2 counted, fun returns => by cases returns⟩
  | false =>
      refine ⟨_, whole_request_returns s onResponse, fun _ => rfl, fun _ => ⟨fun raises => (by cases raises), ?_⟩⟩
      intro entry member
      rcases (emplace_keys _ _ onResponse owned.distinct).2 entry member with before | new
      · exact List.mem_append_left _ (timed entry before)
      · exact List.mem_append_right _ (List.mem_singleton.mpr new)

-- One request is being answered, one is timing out, and two wait.
def framedRequests : List (FramingAction Nat Nat) :=
  wholeRequest 0 (some 7) false ++ wholeRequest 1 (some 8) false ++
    [.client .startRead, .client (.readCompletes (some [(1, 100)])), .client (.advance 2 false), .client (.advance 2 false),
      .client (.expire 1), .client (.advance 3 false)] ++ wholeRequest 4 (some 9) false ++ wholeRequest 5 none false

theorem failed_request_leaves_nothing_iff_framed :
    ∃ s : State Nat Nat, Machine.Reachable framingStep Frames construct s ∧ Idle s ∧
      s.pendingResponses = [(3, some 9), (4, none)] ∧ Timed s ∧
      ∃ after, Machine.run framingStep (fun _ _ => True) s (wholeRequest s.calls.length (some 10) true) = some after ∧
        ¬ ((true = true → after.pendingResponses = s.pendingResponses ∧ after.pendingRequests = s.pendingRequests) ∧
          Timed after) := by
  obtain ⟨s, reachable, shown⟩ := Machine.run_exhibits framingStep Frames construct framedRequests
    (fun s => s.calls.all (·.timed == []) && s.pendingResponses == [(3, some 9), (4, none)]) (by decide +kernel)
  simp only [Bool.and_eq_true, beq_iff_eq, List.all_eq_true] at shown
  obtain ⟨timed, whole⟩ := failed_request_leaves_nothing_iff s reachable shown.1
  obtain ⟨after, ran, met⟩ := whole (some 10) true
  exact ⟨s, reachable, shown.1, shown.2, timed, after, ran, fun kept => by cases met.mp kept⟩

-- The first request fails to be framed.
theorem unframed_request_stays :
    ∃ s : State Nat Nat, Machine.Reachable framingStep (fun _ _ => True) construct s ∧
      Machine.run framingStep (fun _ _ => True) construct (wholeRequest 0 (some 7) true) = some s ∧
      (∀ call ∈ s.calls, call = .returned) ∧ s.pendingResponses = [(1, some 7)] ∧ s.pendingRequests = 1 ∧ s.timers = [] ∧
      (construct : State Nat Nat).pendingResponses = [] ∧ (construct : State Nat Nat).pendingRequests = 0 ∧ ¬ Timed s := by
  have ran := whole_request_raises (construct : State Nat Nat) (some 7)
  have reachable := Machine.run_reachable framingStep (fun _ _ => True) construct _ construct _ .start ran
  refine ⟨_, reachable, ran, by decide, rfl, rfl, rfl, rfl, rfl, fun timed => ?_⟩
  cases timed (1, some 7) (List.mem_singleton.mpr rfl)

end Vectro.Tcp
