import Vectro.TcpClientRequests

set_option autoImplicit false

namespace Vectro.Tcp

open Tally Traces

variable {H M : Type}

-- A call that has nothing to do any more with pending_responses_, the counter
-- or a timer, until it looks at another message.
def Call.aside : Call H M → Bool
  | .timeOut _ _ | .dispatch _ | .respond _ _ _ | .pass _ _ | .returned => true
  | _ => false

-- The map has an entry that has not been counted, or the counter counts one that
-- has been taken out.
def Call.adding : Call H M → Nat
  | .count _ => 1
  | _ => 0

def Call.subtracting : Call H M → Nat
  | .timingOut _ _ | .responding _ _ _ => 1
  | _ => 0

def Call.registering (cid : Nat) : Call H M → Nat
  | .register other _ => if other = cid then 1 else 0
  | _ => 0

-- Everything one step of a call can do, guards included.
inductive Turn (s after : State H M) : Call H M → Call H M → Prop where
  | register (cid : Nat) (cb : Option H) (pending : after.pendingResponses = emplace s.pendingResponses cid cb)
      (counter : after.pendingRequests = s.pendingRequests) (timers : after.timers = s.timers) :
      Turn s after (.register cid cb) (.count cid)
  | count (cid : Nat) (pending : after.pendingResponses = s.pendingResponses)
      (counter : after.pendingRequests = s.pendingRequests + 1) (timers : after.timers = s.timers) :
      Turn s after (.count cid) (.send cid)
  | send (cid : Nat) (pending : after.pendingResponses = s.pendingResponses)
      (counter : after.pendingRequests = s.pendingRequests) (timers : after.timers = s.timers) :
      Turn s after (.send cid) (.arm cid)
  | arm (cid : Nat) (pending : after.pendingResponses = s.pendingResponses)
      (counter : after.pendingRequests = s.pendingRequests) (timers : after.timers = s.timers ++ [cid]) :
      Turn s after (.arm cid) .returned
  | late (cid : Nat) (absent : s.pendingResponses.lookup cid = none) (pending : after.pendingResponses = s.pendingResponses)
      (counter : after.pendingRequests = s.pendingRequests) (timers : after.timers = s.timers) :
      Turn s after (.expired cid) .returned
  | expire (cid : Nat) (cb : Option H) (found : s.pendingResponses.lookup cid = some cb)
      (pending : after.pendingResponses = erase s.pendingResponses cid)
      (counter : after.pendingRequests = s.pendingRequests) (timers : after.timers = s.timers) :
      Turn s after (.expired cid) (.timingOut cid cb)
  | answer (message : Message M) (cb : H) (rest : List (Message M))
      (found : s.pendingResponses.lookup message.correlationId = some (some cb))
      (pending : after.pendingResponses = erase s.pendingResponses message.correlationId)
      (counter : after.pendingRequests = s.pendingRequests) (timers : after.timers = s.timers) :
      Turn s after (.dispatch (message :: rest)) (.responding message cb rest)
  | forget (message : Message M) (rest : List (Message M))
      (found : s.pendingResponses.lookup message.correlationId = some none)
      (pending : after.pendingResponses = erase s.pendingResponses message.correlationId)
      (counter : after.pendingRequests = s.pendingRequests) (timers : after.timers = s.timers) :
      Turn s after (.dispatch (message :: rest)) (.pass message rest)
  | subtract (old new : Call H M) (owes : old.subtracting = 1) (settled : new.aside = true)
      (pending : after.pendingResponses = s.pendingResponses)
      (counter : after.pendingRequests = s.pendingRequests - 1) (timers : after.timers = s.timers) : Turn s after old new
  | aside (old new : Call H M) (before : old.aside = true) (settled : new.aside = true)
      (unmatched : ∀ message rest, old = .dispatch (message :: rest) → s.pendingResponses.lookup message.correlationId = none)
      (pending : after.pendingResponses = s.pendingResponses)
      (counter : after.pendingRequests = s.pendingRequests) (timers : after.timers = s.timers) : Turn s after old new

theorem advance_turn (s : State H M) (i : Nat) (raises : Bool) (call : Call H M) (found : s.calls[i]? = some call) :
    ∃ new, (s.advance i raises call).calls = s.calls.set i new ∧ Turn s (s.advance i raises call) call new := by
  have resumes : ∀ rest : List (Message M), (if raises then .returned else .dispatch rest : Call H M).aside = true := by
    intro rest
    cases raises <;> rfl
  cases call with
  | register cid cb => exact ⟨_, rfl, .register cid cb rfl rfl rfl⟩
  | count cid => exact ⟨_, rfl, .count cid rfl rfl rfl⟩
  | send cid => exact ⟨_, rfl, .send cid rfl rfl rfl⟩
  | arm cid => exact ⟨_, rfl, .arm cid rfl rfl rfl⟩
  | expired cid =>
      cases taken : s.pendingResponses.lookup cid with
      | none =>
          rw [State.advance, taken]
          exact ⟨_, rfl, .late cid taken rfl rfl rfl⟩
      | some cb =>
          rw [State.advance, taken]
          exact ⟨_, rfl, .expire cid cb taken rfl rfl rfl⟩
  | timingOut cid cb => exact ⟨_, rfl, .subtract _ _ rfl rfl rfl rfl rfl⟩
  | timeOut cid cb =>
      cases cb <;> exact ⟨_, rfl, .aside _ _ rfl rfl (fun _ _ same => by cases same) rfl rfl rfl⟩
  | dispatch msgs =>
      cases msgs with
      | nil =>
          rw [State.advance, State.startRead]
          split <;> exact ⟨_, rfl, .aside _ _ rfl rfl (fun _ _ same => by cases same) rfl rfl rfl⟩
      | cons message rest =>
          rw [State.advance]
          split
          · rename_i absent
            refine ⟨_, rfl, .aside _ _ rfl rfl ?_ rfl rfl rfl⟩
            rintro _ _ ⟨⟩
            exact absent
          · rename_i taken
            exact ⟨_, rfl, .forget message rest taken rfl rfl rfl⟩
          · rename_i cb taken
            exact ⟨_, rfl, .answer message cb rest taken rfl rfl rfl⟩
  | responding message cb rest => exact ⟨_, rfl, .subtract _ _ rfl rfl rfl rfl rfl⟩
  | respond message cb rest => exact ⟨_, rfl, .aside _ _ rfl (resumes rest) (fun _ _ same => by cases same) rfl rfl rfl⟩
  | pass message rest =>
      rw [State.advance]
      split
      · exact ⟨_, rfl, .aside _ _ rfl (resumes rest) (fun _ _ same => by cases same) rfl rfl rfl⟩
      · exact ⟨_, rfl, .aside _ _ rfl rfl (fun _ _ same => by cases same) rfl rfl rfl⟩
  | returned =>
      refine ⟨.returned, (set_found s.calls i .returned found).symm, .aside _ _ rfl rfl ?_ rfl rfl rfl⟩
      exact fun _ _ same => by cases same

theorem advance_issues (s : State H M) (i : Nat) (raises : Bool) (call : Call H M) :
    (s.advance i raises call).nextCorrelationId = s.nextCorrelationId ∧
      issued (s.advance i raises call).trace = issued s.trace := by
  unfold State.advance
  split
  case h_9 => unfold State.startRead; split <;> exact ⟨rfl, rfl⟩
  all_goals
    try split
    all_goals first | exact ⟨rfl, rfl⟩ | exact ⟨rfl, issued_quiet _ _ rfl⟩

-- Fewer than 2^64 requests have been issued, so no two have the same id.
structure Numbered (s : State H M) : Prop where
  next : s.nextCorrelationId = ((issued s.trace).length + 1) % 2 ^ 64
  bounded : (issued s.trace).length < 2 ^ 64
  numbered : (issued s.trace).map Prod.fst = List.range' 1 (issued s.trace).length
  placed : ∀ cid, (s.pendingResponses.map Prod.fst).count cid + total (Call.registering cid) s.calls ≤
    ((issued s.trace).map Prod.fst).count cid

theorem numbered_frame (s after : State H M) (numbered : Numbered s) (next : after.nextCorrelationId = s.nextCorrelationId)
    (issues : issued after.trace = issued s.trace)
    (placed : ∀ cid, (after.pendingResponses.map Prod.fst).count cid + total (Call.registering cid) after.calls ≤
      (s.pendingResponses.map Prod.fst).count cid + total (Call.registering cid) s.calls) : Numbered after where
  next := by rw [next, issues]; exact numbered.next
  bounded := by rw [issues]; exact numbered.bounded
  numbered := by rw [issues]; exact numbered.numbered
  placed := by
    intro cid
    rw [issues]
    exact Nat.le_trans (placed cid) (numbered.placed cid)

theorem ids_once (s : State H M) (numbered : Numbered s) (cid : Nat) : ((issued s.trace).map Prod.fst).count cid ≤ 1 := by
  rw [numbered.numbered]
  exact List.nodup_iff_count_le_one.mp List.nodup_range' cid

theorem few_pending (s : State H M) (numbered : Numbered s) : s.pendingResponses.length < 2 ^ 64 := by
  have fewer : (s.pendingResponses.map Prod.fst).length ≤ ((issued s.trace).map Prod.fst).length := by
    refine (List.subperm_ext_iff.mpr fun cid _ => ?_).length_le
    have placed := numbered.placed cid
    omega
  rw [List.length_map, List.length_map] at fewer
  exact Nat.lt_of_le_of_lt fewer numbered.bounded

theorem register_fresh (s : State H M) (i : Nat) (cid : Nat) (cb : Option H) (numbered : Numbered s)
    (found : s.calls[i]? = some (.register cid cb)) : emplace s.pendingResponses cid cb = s.pendingResponses ++ [(cid, cb)] := by
  have once := ids_once s numbered cid
  have placed := numbered.placed cid
  have held := weight_le_total (Call.registering cid) s.calls _ (List.mem_of_getElem? found)
  have one : Call.registering cid (.register cid cb : Call H M) = 1 := if_pos rfl
  have unused : (s.pendingResponses.map Prod.fst).count cid = 0 := by omega
  have absent : s.pendingResponses.lookup cid = none := by
    apply List.lookup_eq_none_iff.mpr
    intro entry member
    rw [bne_iff_ne]
    exact fun same => List.count_eq_zero.mp unused (same ▸ List.mem_map_of_mem member)
  rw [emplace, absent]
  rfl

theorem erase_keys (map : List (Nat × Option H)) (cid : Nat) : ((erase map cid).map Prod.fst).Sublist (map.map Prod.fst) :=
  (List.eraseP_sublist).map _

theorem aside_unregistering (call : Call H M) (aside : call.aside = true) (cid : Nat) : call.registering cid = 0 := by
  cases call <;> first | rfl | cases aside

theorem subtracting_unregistering (call : Call H M) (owes : call.subtracting = 1) (cid : Nat) : call.registering cid = 0 := by
  cases call <;> first | rfl | cases owes

theorem advance_numbered (s : State H M) (i : Nat) (raises : Bool) (call : Call H M) (found : s.calls[i]? = some call)
    (numbered : Numbered s) : Numbered (s.advance i raises call) := by
  obtain ⟨next, issues⟩ := advance_issues s i raises call
  obtain ⟨new, calls, turn⟩ := advance_turn s i raises call found
  refine numbered_frame s _ numbered next issues fun cid => ?_
  have moved := total_set (Call.registering cid) s.calls i call new found
  rw [calls]
  cases turn with
  | register other cb pending =>
      rw [pending, register_fresh s i other cb numbered found, List.map_append, List.count_append]
      have last : ([(other, cb)].map Prod.fst).count cid = Call.registering cid (.register other cb : Call H M) := by
        simp [Call.registering, List.count_singleton]
      have done : Call.registering cid (.count other : Call H M) = 0 := rfl
      omega
  | count other pending | send other pending | arm other pending | late other absent pending =>
      rw [pending]
      exact Nat.le_of_eq (congrArg _ moved)
  | expire other cb taken pending | answer message cb rest taken pending | forget message rest taken pending =>
      rw [pending]
      exact Nat.add_le_add ((erase_keys s.pendingResponses _).count_le cid) (Nat.le_of_eq moved)
  | subtract _ _ owes settled pending =>
      rw [subtracting_unregistering _ owes, aside_unregistering _ settled] at moved
      rw [pending]
      exact Nat.le_of_eq (congrArg _ moved)
  | aside _ _ before settled unmatched pending =>
      rw [aside_unregistering _ before, aside_unregistering _ settled] at moved
      rw [pending]
      exact Nat.le_of_eq (congrArg _ moved)

theorem send_request_numbered (s : State H M) (onResponse : Option H) (room : (issued s.trace).length + 1 < 2 ^ 64)
    (numbered : Numbered s) : Numbered (s.sendRequest onResponse) := by
  have fresh : s.nextCorrelationId = (issued s.trace).length + 1 := numbered.next.trans (Nat.mod_eq_of_lt room)
  have more : issued (s.sendRequest onResponse).trace = issued s.trace ++ [(s.nextCorrelationId, onResponse)] :=
    issued_snoc s.trace _
  have length : (issued (s.sendRequest onResponse).trace).length = (issued s.trace).length + 1 := by
    rw [more, List.length_append, List.length_singleton]
  refine ⟨?_, ?_, ?_, fun cid => ?_⟩
  · show (s.nextCorrelationId + 1) % 2 ^ 64 = _
    rw [length, fresh]
  · omega
  · rw [length, more, List.map_append, numbered.numbered, List.range'_concat, Nat.one_mul, Nat.add_comm 1, fresh]
    rfl
  · have placed := numbered.placed cid
    have begun : total (Call.registering cid) (s.sendRequest onResponse).calls =
        total (Call.registering cid) s.calls + [s.nextCorrelationId].count cid := by
      have one : Call.registering cid (.register s.nextCorrelationId onResponse : Call H M) =
          [s.nextCorrelationId].count cid := by
        simp [Call.registering, List.count_singleton]
      rw [← one]
      exact total_append (Call.registering cid) s.calls [.register s.nextCorrelationId onResponse]
    rw [begun, more, List.map_append, List.count_append]
    show (s.pendingResponses.map Prod.fst).count cid + _ ≤ _ + [s.nextCorrelationId].count cid
    omega

def Numerable (s : State H M) : Action H M → Prop
  | .sendRequest _ => (issued s.trace).length + 1 < 2 ^ 64
  | _ => True

theorem step_numbered (s after : State H M) (action : Action H M) (taken : step s action = some after)
    (room : Numerable s action) (numbered : Numbered s) : Numbered after := by
  refine step_preserves Numbered s after action taken ?_ ?_ ?_ ?_ ?_
  · intro after aside
    refine numbered_frame s after numbered aside.next (aside_issued s after aside) fun cid => ?_
    rw [aside.pending, aside.calls]
  · rintro onResponse rfl
    exact send_request_numbered s onResponse room numbered
  · intro msgs
    refine numbered_frame s _ numbered rfl rfl fun cid => ?_
    exact Nat.le_of_eq (congrArg _ (begin_total (Call.registering cid) s.calls (.dispatch (number msgs s.arrivals)) rfl))
  · intro i cid _
    refine numbered_frame s _ numbered rfl rfl fun other => ?_
    exact Nat.le_of_eq (congrArg _ (begin_total (Call.registering other) s.calls (.expired cid) rfl))
  · exact fun i raises call found => advance_numbered s i raises call found numbered

-- Between its change to pending_responses_ and the one to the counter.
def Call.split (call : Call H M) : Bool := call.adding + call.subtracting != 0

-- The calls run as wholes as far as the map and the counter go: nothing comes
-- between the change to the one and the change to the other.
def Undivided (s : State H M) : Action H M → Prop
  | .advance i _ => (s.calls.all (!·.split) || (s.calls[i]?).any Call.split) = true
  | _ => s.calls.all (!·.split) = true

def State.findsNull (s : State H M) : Call H M → Bool
  | .dispatch (message :: _) =>
      match s.pendingResponses.lookup message.correlationId with
      | some none => true
      | _ => false
  | _ => false

-- No message finds a request whose handler is null.
def Answerable (s : State H M) : Action H M → Prop
  | .advance i _ => (s.calls[i]?).any s.findsNull = false
  | _ => True

def Metered (s : State H M) (action : Action H M) : Prop := Undivided s action ∧ Numerable s action

def MeteredAnswerable (s : State H M) (action : Action H M) : Prop := Metered s action ∧ Answerable s action

instance (s : State H M) (action : Action H M) : Decidable (Undivided s action) :=
  match action with
  | .advance i _ => inferInstanceAs (Decidable ((s.calls.all (!·.split) || (s.calls[i]?).any Call.split) = true))
  | .sendRequest .. | .startRead | .readCompletes .. | .expire .. | .close .. | .setOnMessage .. | .setOnDisconnect .. =>
      inferInstanceAs (Decidable (s.calls.all (!·.split) = true))

instance (s : State H M) (action : Action H M) : Decidable (Numerable s action) :=
  match action with
  | .sendRequest _ => inferInstanceAs (Decidable ((issued s.trace).length + 1 < 2 ^ 64))
  | .startRead | .readCompletes .. | .expire .. | .close .. | .setOnMessage .. | .setOnDisconnect .. | .advance .. =>
      isTrue trivial

instance (s : State H M) (action : Action H M) : Decidable (Answerable s action) :=
  match action with
  | .advance i _ => inferInstanceAs (Decidable ((s.calls[i]?).any s.findsNull = false))
  | .sendRequest .. | .startRead | .readCompletes .. | .expire .. | .close .. | .setOnMessage .. | .setOnDisconnect .. =>
      isTrue trivial

instance (s : State H M) (action : Action H M) : Decidable (Metered s action) := inferInstanceAs (Decidable (_ ∧ _))

instance (s : State H M) (action : Action H M) : Decidable (MeteredAnswerable s action) :=
  inferInstanceAs (Decidable (_ ∧ _))

-- Where no call is between the two changes the counter is the size of the map,
-- and no call is about to subtract from 0.
structure Exact (s : State H M) : Prop where
  whole : (∀ call ∈ s.calls, call.split = false) → s.pendingRequests.toNat = s.pendingResponses.length
  positive : ∀ call ∈ s.calls, call.subtracting = 1 → s.pendingRequests ≠ 0

structure Balanced (s : State H M) : Prop where
  numbered : Numbered s
  balance : s.pendingRequests.toNat + total Call.adding s.calls = s.pendingResponses.length + total Call.subtracting s.calls
  single : total Call.adding s.calls + total Call.subtracting s.calls ≤ 1

theorem unsplit_iff (call : Call H M) : call.split = false ↔ call.adding = 0 ∧ call.subtracting = 0 := by
  rw [Call.split, bne_eq_false_iff_eq]
  omega

theorem aside_unsplit (call : Call H M) (aside : call.aside = true) : call.split = false := by
  cases call <;> first | rfl | cases aside

theorem unsplit_totals (calls : List (Call H M)) (whole : ∀ call ∈ calls, call.split = false) :
    total Call.adding calls = 0 ∧ total Call.subtracting calls = 0 :=
  ⟨(total_eq_zero _ _).mpr fun call member => ((unsplit_iff call).mp (whole call member)).1,
    (total_eq_zero _ _).mpr fun call member => ((unsplit_iff call).mp (whole call member)).2⟩

theorem balanced_exact (s : State H M) (balanced : Balanced s) : Exact s where
  whole := by
    intro whole
    have balance := balanced.balance
    obtain ⟨added, subtracted⟩ := unsplit_totals s.calls whole
    omega
  positive := by
    intro call member owes zero
    have held := weight_le_total Call.subtracting s.calls call member
    have balance := balanced.balance
    have single := balanced.single
    have none : s.pendingRequests.toNat = 0 := by rw [zero]; rfl
    omega

def Call.opening : Call H M → Bool
  | .register _ _ | .expired _ | .dispatch _ => true
  | _ => false

-- What is not a step of a call leaves the map and the counter alone.
theorem event_opens (s after : State H M) (action : Action H M) (taken : step s action = some after)
    (apart : ∀ i raises, action ≠ .advance i raises) :
    after.pendingResponses = s.pendingResponses ∧ after.pendingRequests = s.pendingRequests ∧
      ∃ opened, after.calls = s.calls ++ opened ∧ ∀ call ∈ opened, call.opening = true := by
  cases action with
  | sendRequest onResponse =>
      obtain rfl := Option.some.inj taken
      exact ⟨rfl, rfl, [_], rfl, by simp [Call.opening]⟩
  | startRead =>
      obtain rfl := Option.some.inj taken
      unfold State.startRead
      split <;> exact ⟨rfl, rfl, [], (List.append_nil _).symm, by simp⟩
  | readCompletes result =>
      rw [step] at taken
      split at taken
      · cases taken
      · obtain rfl := Option.some.inj taken
        cases result with
        | none =>
            rw [State.readCompletes, State.close]
            split <;> exact ⟨rfl, rfl, [], (List.append_nil _).symm, by simp⟩
        | some msgs => exact ⟨rfl, rfl, [_], rfl, by simp [Call.opening]⟩
  | expire i =>
      obtain ⟨cid, found, rfl⟩ := Option.map_eq_some_iff.mp taken
      exact ⟨rfl, rfl, [_], rfl, by simp [Call.opening]⟩
  | close force =>
      obtain rfl := Option.some.inj taken
      unfold State.close
      split <;> exact ⟨rfl, rfl, [], (List.append_nil _).symm, by simp⟩
  | setOnMessage present | setOnDisconnect present =>
      obtain rfl := Option.some.inj taken
      exact ⟨rfl, rfl, [], (List.append_nil _).symm, by simp⟩
  | advance i raises => exact absurd rfl (apart i raises)

theorem event_balanced (s after : State H M) (action : Action H M) (taken : step s action = some after)
    (apart : ∀ i raises, action ≠ .advance i raises) (numbered : Numbered after) (balanced : Balanced s) : Balanced after := by
  obtain ⟨pending, counter, opened, calls, opening⟩ := event_opens s after action taken apart
  have unsplit : ∀ call ∈ opened, call.split = false := by
    intro call member
    have opens := opening call member
    cases call <;> first | rfl | cases opens
  obtain ⟨added, subtracted⟩ := unsplit_totals opened unsplit
  refine ⟨numbered, ?_, ?_⟩
  · rw [pending, counter, calls, total_append, total_append, added, subtracted]
    exact balanced.balance
  · rw [calls, total_append, total_append, added, subtracted]
    exact balanced.single

-- While some call is between the two changes it is the one to go on.
theorem undivided_whole (s : State H M) (i : Nat) (raises : Bool) (call : Call H M) (found : s.calls[i]? = some call)
    (undivided : Undivided s (.advance i raises)) (unsplit : call.split = false) : ∀ other ∈ s.calls, other.split = false := by
  rw [Undivided, found, Option.any_some, unsplit, Bool.or_false, List.all_eq_true] at undivided
  intro other member
  have apart := undivided other member
  rwa [Bool.not_eq_true'] at apart

theorem erase_length (map : List (Nat × Option H)) (cid : Nat) (cb : Option H) (found : map.lookup cid = some cb) :
    (erase map cid).length + 1 = map.length := by
  have counted := erase_count map cid cb found fun _ => true
  simpa using counted

theorem advance_balanced (s : State H M) (i : Nat) (raises : Bool) (call : Call H M) (found : s.calls[i]? = some call)
    (undivided : Undivided s (.advance i raises)) (answerable : s.findsNull call = false)
    (balanced : Balanced s) : Balanced (s.advance i raises call) := by
  have numbered := advance_numbered s i raises call found balanced.numbered
  have few := few_pending s balanced.numbered
  have balance := balanced.balance
  have single := balanced.single
  obtain ⟨new, calls, turn⟩ := advance_turn s i raises call found
  have added := total_set Call.adding s.calls i call new found
  have subtracted := total_set Call.subtracting s.calls i call new found
  rw [← calls] at added subtracted
  cases turn with
  | register cid cb pending counter =>
      obtain ⟨unadded, unsubtracted⟩ := unsplit_totals s.calls (undivided_whole s i raises _ found undivided rfl)
      simp only [Call.adding, Call.subtracting] at added subtracted
      have length : (s.advance i raises (.register cid cb)).pendingResponses.length = s.pendingResponses.length + 1 := by
        rw [pending, register_fresh s i cid cb balanced.numbered found, List.length_append, List.length_singleton]
      exact ⟨numbered, by rw [length, counter]; omega, by omega⟩
  | count cid pending counter =>
      simp only [Call.adding, Call.subtracting] at added subtracted
      have grown : (s.pendingRequests + 1).toNat = s.pendingRequests.toNat + 1 := by
        rw [UInt64.toNat_add, UInt64.toNat_one]
        omega
      exact ⟨numbered, by rw [pending, counter]; omega, by omega⟩
  | send cid pending counter | arm cid pending counter | late cid absent pending counter =>
      simp only [Call.adding, Call.subtracting] at added subtracted
      exact ⟨numbered, by rw [pending, counter]; omega, by omega⟩
  | expire cid cb present pending counter | answer message cb rest present pending counter =>
      obtain ⟨unadded, unsubtracted⟩ := unsplit_totals s.calls (undivided_whole s i raises _ found undivided rfl)
      have length := erase_length s.pendingResponses _ _ present
      simp only [Call.adding, Call.subtracting] at added subtracted
      exact ⟨numbered, by rw [pending, counter]; omega, by omega⟩
  | forget message rest present =>
      rw [State.findsNull, present] at answerable
      cases answerable
  | subtract _ _ owes settled pending counter =>
      obtain ⟨unadded, unsubtracted⟩ := (unsplit_iff new).mp (aside_unsplit new settled)
      have held := weight_le_total Call.subtracting s.calls call (List.mem_of_getElem? found)
      have shrunk : (s.pendingRequests - 1).toNat = s.pendingRequests.toNat - 1 := by
        rw [UInt64.toNat_sub_of_le _ _ (UInt64.le_iff_toNat_le.mpr (by rw [UInt64.toNat_one]; omega)), UInt64.toNat_one]
      have unheld : call.adding = 0 := by cases call <;> first | rfl | cases owes
      exact ⟨numbered, by rw [pending, counter]; omega, by omega⟩
  | aside _ _ before settled unmatched pending counter =>
      obtain ⟨unadded, unsubtracted⟩ := (unsplit_iff new).mp (aside_unsplit new settled)
      obtain ⟨clear, untaken⟩ := (unsplit_iff call).mp (aside_unsplit call before)
      exact ⟨numbered, by rw [pending, counter]; omega, by omega⟩

theorem reachable_balanced (s : State H M) (reachable : Machine.Reachable step MeteredAnswerable construct s) : Balanced s := by
  refine Machine.reachable_invariant step MeteredAnswerable _ Balanced ?_ ?_ s reachable
  · exact ⟨⟨rfl, Nat.two_pow_pos 64, rfl, fun _ => Nat.le_refl 0⟩, rfl, Nat.zero_le 1⟩
  · intro before action after _ balanced allowed taken
    have numbered := step_numbered before after action taken allowed.1.2 balanced.numbered
    cases action with
    | advance i raises =>
        obtain ⟨call, found, rfl⟩ := Option.map_eq_some_iff.mp taken
        have answerable := allowed.2
        rw [Answerable, found] at answerable
        exact advance_balanced before i raises call found allowed.1.1 answerable balanced
    | _ => exact event_balanced before after _ taken (by simp) numbered balanced

-- An entry goes and its count stays.
theorem null_inexact (s : State H M) (i : Nat) (raises : Bool) (call : Call H M) (found : s.calls[i]? = some call)
    (undivided : Undivided s (.advance i raises)) (null : s.findsNull call = true) (exact : Exact s) :
    ¬ Exact (s.advance i raises call) := by
  unfold State.findsNull at null
  split at null
  · rename_i message rest
    split at null
    · rename_i present
      have whole := undivided_whole s i raises _ found undivided rfl
      have shorter := erase_length s.pendingResponses _ _ present
      intro still
      rw [State.advance, present] at still
      have before := exact.whole whole
      have after := still.whole (forall_mem_set _ s.calls i (.pass message rest) whole rfl)
      have same : s.pendingRequests.toNat = (erase s.pendingResponses message.correlationId).length := after
      omega
    · cases null
  · cases null

theorem pending_exact (s : State H M) (reachable : Machine.Reachable step MeteredAnswerable construct s) :
    Exact s ∧ ∀ action after, Metered s action → step s action = some after → (Exact after ↔ Answerable s action) := by
  have balanced := reachable_balanced s reachable
  refine ⟨balanced_exact s balanced, fun action after metered taken => ⟨fun exact => ?_, fun answerable => ?_⟩⟩
  · cases action with
    | advance i raises =>
        obtain ⟨call, found, rfl⟩ := Option.map_eq_some_iff.mp taken
        rw [Answerable, found, Option.any_some, Bool.eq_false_iff]
        exact fun null => null_inexact s i raises call found metered.1 null (balanced_exact s balanced) exact
    | _ => trivial
  · exact balanced_exact after (reachable_balanced after (.step s after action reachable ⟨metered, answerable⟩ taken))

-- The first request has no handler and times out, the second is answered, and the
-- third waits.
def countedRequests : List (Action Nat Nat) :=
  [[.sendRequest none], List.replicate 4 (.advance 0 false), [.sendRequest (some 7)], List.replicate 4 (.advance 1 false),
    [.startRead, .readCompletes (some [(2, 100), (9, 101)])], List.replicate 6 (.advance 2 false),
    [.expire 0], List.replicate 3 (.advance 3 false), [.sendRequest none], List.replicate 4 (.advance 4 false)].flatten

theorem pending_exact_counted :
    ∃ s : State Nat Nat, Machine.Reachable step MeteredAnswerable construct s ∧ Exact s ∧
      (∀ call ∈ s.calls, call = .returned) ∧ s.pendingRequests = 1 ∧ s.pendingResponses = [(3, none)] := by
  obtain ⟨s, reachable, shown⟩ := Machine.run_exhibits step MeteredAnswerable construct countedRequests
    (fun s => s.calls.all (· == .returned) && s.pendingRequests == 1 && s.pendingResponses == [(3, none)]) (by decide +kernel)
  simp only [Bool.and_eq_true, beq_iff_eq, List.all_eq_true] at shown
  obtain ⟨⟨idle, counter⟩, pending⟩ := shown
  exact ⟨s, reachable, (pending_exact s reachable).1, idle, counter, pending⟩

-- One request without a handler is answered.
def forgottenRequest : List (Action Nat Nat) :=
  [.sendRequest none, .advance 0 false, .advance 0 false, .advance 0 false, .advance 0 false, .startRead,
    .readCompletes (some [(1, 100)]), .advance 1 false, .advance 1 false, .advance 1 false]

theorem answered_null_drifts :
    ∃ s : State Nat Nat, Machine.Reachable step Metered construct s ∧ (∀ call ∈ s.calls, call = .returned) ∧
      s.pendingRequests = 1 ∧ s.pendingResponses = [] ∧ ¬ Exact s := by
  obtain ⟨s, reachable, shown⟩ := Machine.run_exhibits step Metered construct forgottenRequest
    (fun s => s.calls.all (· == .returned) && s.pendingRequests == 1 && s.pendingResponses == []) (by decide +kernel)
  simp only [Bool.and_eq_true, beq_iff_eq, List.all_eq_true] at shown
  obtain ⟨⟨idle, counter⟩, pending⟩ := shown
  refine ⟨s, reachable, idle, counter, pending, fun exact => ?_⟩
  have whole : ∀ call ∈ s.calls, call.split = false := fun call member => by
    rw [idle call member]
    rfl
  have same := exact.whole whole
  rw [counter, pending] at same
  cases same

end Vectro.Tcp
