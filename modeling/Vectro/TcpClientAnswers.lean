import Vectro.TcpClientRequests

set_option autoImplicit false

namespace Vectro.Tcp

open Tally Traces

variable {H M : Type}

-- An arrival is with the read handler that will look it up, or it has been
-- given to a response handler, or it found none.
def Arrivals (s : State H M) : Prop :=
  ∀ arrival, total (carrying arrival) s.calls + (given s.trace).count arrival + (unmatched s.trace).count arrival ≤
    if arrival < s.arrivals then 1 else 0

theorem arrivals_goto (s after : State H M) (i : Nat) (old new : Call H M) (found : s.calls[i]? = some old)
    (arrivals : Arrivals s)
    (balance : ∀ arrival, carrying arrival new + (given after.trace).count arrival + (unmatched after.trace).count arrival ≤
      carrying arrival old + (given s.trace).count arrival + (unmatched s.trace).count arrival)
    (calls : after.calls = s.calls.set i new := by rfl) (count : after.arrivals = s.arrivals := by rfl) :
    Arrivals after := by
  intro arrival
  have moved := total_set (carrying arrival) s.calls i old new found
  have balanced := balance arrival
  have placed := arrivals arrival
  rw [calls, count]
  omega

theorem given_snoc (log : List (Event H M)) (event : Event H M) : given (log ++ [event]) = given log ++ given [event] :=
  List.filterMap_append

theorem unmatched_snoc (log : List (Event H M)) (event : Event H M) :
    unmatched (log ++ [event]) = unmatched log ++ unmatched [event] :=
  List.filterMap_append

theorem arrivals_moves (s after : State H M) (i : Nat) (old new : Call H M) (found : s.calls[i]? = some old)
    (arrivals : Arrivals s) (fewer : new.carried.Sublist old.carried) (trace : after.trace = s.trace := by rfl)
    (calls : after.calls = s.calls.set i new := by rfl) (count : after.arrivals = s.arrivals := by rfl) :
    Arrivals after := by
  refine arrivals_goto s after i old new found arrivals (fun arrival => ?_) calls count
  have lighter : carrying arrival new ≤ carrying arrival old := fewer.count_le arrival
  rw [trace]
  omega

theorem arrivals_logs (s after : State H M) (i : Nat) (old new : Call H M) (event : Event H M)
    (found : s.calls[i]? = some old) (arrivals : Arrivals s) (fewer : new.carried.Sublist old.carried)
    (ungiven : given [event] = [] := by rfl) (matched : unmatched [event] = [] := by rfl)
    (trace : after.trace = s.trace ++ [event] := by rfl) (calls : after.calls = s.calls.set i new := by rfl)
    (count : after.arrivals = s.arrivals := by rfl) : Arrivals after := by
  refine arrivals_goto s after i old new found arrivals (fun arrival => ?_) calls count
  have lighter : carrying arrival new ≤ carrying arrival old := fewer.count_le arrival
  rw [trace, given_snoc, unmatched_snoc, ungiven, matched, List.append_nil, List.append_nil]
  omega

theorem resumed_carried (rest : List (Message M)) (raises : Bool) :
    (if raises then .returned else .dispatch rest : Call H M).carried.Sublist (rest.map Message.arrival) := by
  cases raises with
  | true => exact List.nil_sublist _
  | false => exact List.Sublist.refl _

theorem advance_arrivals (s : State H M) (i : Nat) (raises : Bool) (call : Call H M) (found : s.calls[i]? = some call)
    (arrivals : Arrivals s) : Arrivals (s.advance i raises call) := by
  cases call with
  | register cid cb => exact arrivals_moves s _ i _ (.count cid) found arrivals (List.Sublist.refl _)
  | count cid => exact arrivals_moves s _ i _ (.send cid) found arrivals (List.Sublist.refl _)
  | send cid => exact arrivals_logs s _ i _ (.arm cid) (.sent cid) found arrivals (List.Sublist.refl _)
  | arm cid => exact arrivals_moves s _ i _ .returned found arrivals (List.Sublist.refl _)
  | expired cid =>
      rw [State.advance]
      split
      · exact arrivals_logs s _ i _ .returned (.expired cid) found arrivals (List.Sublist.refl _)
      · exact arrivals_logs s _ i _ (.timingOut cid _) (.expired cid) found arrivals (List.Sublist.refl _)
  | timingOut cid cb => exact arrivals_moves s _ i _ (.timeOut cid cb) found arrivals (List.Sublist.refl _)
  | timeOut cid cb =>
      cases cb with
      | none => exact arrivals_moves s _ i _ .returned found arrivals (List.Sublist.refl _)
      | some cb =>
          exact arrivals_logs s _ i _ .returned (.called cid cb .timedOut none) found arrivals (List.Sublist.refl _)
  | dispatch msgs =>
      cases msgs with
      | nil =>
          rw [State.advance, State.startRead]
          split <;> exact arrivals_moves s _ i _ .returned found arrivals (List.Sublist.refl _)
      | cons message rest =>
          rw [State.advance]
          split
          · apply arrivals_goto s _ i _ (.pass message rest) found arrivals
            intro arrival
            show (rest.map Message.arrival).count arrival + (given (s.trace ++ [_])).count arrival +
              (unmatched (s.trace ++ [_])).count arrival ≤ (message.arrival :: rest.map Message.arrival).count arrival + _ + _
            have silent : given (s.trace ++ [.unmatched message.arrival]) = given s.trace := by simp [given]
            have logged : (unmatched [Event.unmatched (H := H) (M := M) message.arrival]).count arrival =
              [message.arrival].count arrival := rfl
            rw [silent, unmatched_snoc, List.count_append, logged, count_first message.arrival (rest.map _)]
            omega
          · exact arrivals_moves s _ i _ (.pass message rest) found arrivals (List.sublist_cons_self _ _)
          · exact arrivals_moves s _ i _ (.responding message _ rest) found arrivals (List.Sublist.refl _)
  | responding message cb rest =>
      exact arrivals_moves s _ i _ (.respond message cb rest) found arrivals (List.Sublist.refl _)
  | respond message cb rest =>
      apply arrivals_goto s _ i _ (if raises then .returned else .dispatch rest) found arrivals
      intro arrival
      show _ + (given (s.trace ++ [_])).count arrival + (unmatched (s.trace ++ [_])).count arrival ≤
        (message.arrival :: rest.map Message.arrival).count arrival + _ + _
      have fewer : carrying arrival (if raises then .returned else .dispatch rest : Call H M) ≤
        (rest.map Message.arrival).count arrival := (resumed_carried rest raises).count_le arrival
      have silent : unmatched (s.trace ++ [.called message.correlationId cb .success (some message)]) = unmatched s.trace := by
        simp [unmatched]
      have logged : (given [Event.called message.correlationId cb .success (some message)]).count arrival =
        [message.arrival].count arrival := rfl
      rw [silent, given_snoc, List.count_append, logged, count_first message.arrival (rest.map _)]
      omega
  | pass message rest =>
      rw [State.advance]
      split
      · exact arrivals_logs s _ i _ (if raises then .returned else .dispatch rest) (.received message) found arrivals
          (resumed_carried rest raises)
      · exact arrivals_moves s _ i _ (.dispatch rest) found arrivals (List.Sublist.refl _)
  | returned => exact arrivals

theorem number_arrivals (msgs : List (Nat × M)) (first : Nat) :
    (number msgs first).map Message.arrival = List.range' first msgs.length := by
  rw [number, List.map_map]
  exact List.zipIdx_map_snd first msgs

theorem arrive_arrivals (s : State H M) (msgs : List (Nat × M)) (arrivals : Arrivals s) :
    Arrivals (s.readCompletes (some msgs)) := by
  intro arrival
  have placed := arrivals arrival
  have begun : total (carrying arrival) (s.readCompletes (some msgs)).calls =
      total (carrying arrival) s.calls + (List.range' s.arrivals msgs.length).count arrival := by
    rw [← number_arrivals]
    exact total_append (carrying arrival) s.calls [.dispatch (number msgs s.arrivals)]
  have once := List.nodup_iff_count_le_one.mp (List.nodup_range' (s := s.arrivals) (n := msgs.length)) arrival
  have outside : ¬ (s.arrivals ≤ arrival ∧ arrival < s.arrivals + msgs.length) →
      (List.range' s.arrivals msgs.length).count arrival = 0 := by
    intro apart
    refine List.count_eq_zero.mpr fun member => apart ?_
    exact List.mem_range'_1.mp member
  rw [begun]
  show _ + (given s.trace).count arrival + (unmatched s.trace).count arrival ≤
    if arrival < s.arrivals + msgs.length then 1 else 0
  by_cases old : arrival < s.arrivals
  · rw [if_pos old] at placed
    have gone := outside fun both => absurd both.1 (Nat.not_le.mpr old)
    rw [if_pos (by omega)]
    omega
  · rw [if_neg old] at placed
    by_cases new : arrival < s.arrivals + msgs.length
    · rw [if_pos new]
      omega
    · have gone := outside fun both => new both.2
      omega

theorem aside_unmatched (s after : State H M) (aside : Aside s after) : unmatched after.trace = unmatched s.trace :=
  aside_reads s after aside _ fun event quiet => by cases event <;> first | rfl | cases quiet

theorem aside_given (s after : State H M) (aside : Aside s after) : given after.trace = given s.trace :=
  aside_reads s after aside _ fun event quiet => by cases event <;> first | rfl | cases quiet

theorem reachable_arrivals (s : State H M) (reachable : Machine.Reachable step Admitted construct s) : Arrivals s := by
  refine Machine.reachable_invariant step Admitted _ Arrivals (fun _ => Nat.zero_le _) ?_ s reachable
  intro before action after _ arrivals _ taken
  refine step_preserves Arrivals before after action taken ?_ ?_ ?_ ?_ ?_
  · intro after aside arrival
    rw [aside.calls, aside.arrivals, aside_given before after aside, aside_unmatched before after aside]
    exact arrivals arrival
  · intro onResponse _ arrival
    have begun := begin_total (carrying arrival) before.calls (.register before.nextCorrelationId onResponse) rfl
    have silent : given (before.sendRequest onResponse).trace = given before.trace := by
      simp [State.sendRequest, State.begin, State.emit, given]
    have matched : unmatched (before.sendRequest onResponse).trace = unmatched before.trace := by
      simp [State.sendRequest, State.begin, State.emit, unmatched]
    rw [silent, matched]
    exact begun ▸ arrivals arrival
  · exact fun msgs => arrive_arrivals before msgs arrivals
  · intro i cid _ arrival
    have begun := begin_total (carrying arrival) before.calls (.expired cid) rfl
    exact begun ▸ arrivals arrival
  · exact fun i raises call found => advance_arrivals before i raises call found arrivals

theorem calls_of_length (log : List (Event H M)) (cid : Nat) :
    (callsOf log cid).length = (called log).countP fun entry => entry.1 == cid := by
  induction log with
  | nil => rfl
  | cons event rest ih =>
      cases event with
      | called other cb ec message =>
          by_cases same : other = cid
          · simp_all [callsOf, called]
          · simp_all [callsOf, called]
      | _ => simpa [callsOf, called, List.filterMap_cons] using ih

theorem calls_of_mem (log : List (Event H M)) (cid : Nat) (cb : H) (ec : ErrorCode) (message : Option (Message M)) :
    (cb, ec, message) ∈ callsOf log cid ↔ .called cid cb ec message ∈ log := by
  rw [callsOf, List.mem_filterMap]
  constructor
  · rintro ⟨event, member, read⟩
    cases event with
    | called other _ _ _ =>
        simp only [Option.ite_none_right_eq_some, Option.some.injEq, Prod.mk.injEq] at read
        obtain ⟨rfl, rfl, rfl, rfl⟩ := read
        exact member
    | _ => cases read
  · exact fun member => ⟨_, member, if_pos rfl⟩

-- An unanswered request: its handler is in the map and has not been called, and
-- its timer is running or about to be started.
def Open (s : State H M) (cid : Nat) (onResponse : Option H) : Prop :=
  (cid, onResponse) ∈ s.pendingResponses ∧ callsOf s.trace cid = [] ∧ cid ∉ expired s.trace ∧
    (cid ∈ s.timers ∨ .count cid ∈ s.calls ∨ .send cid ∈ s.calls ∨ .arm cid ∈ s.calls)

def Answered (s : State H M) (cid : Nat) (onResponse : Option H) : Prop :=
  (∀ cb, (cid, cb) ∉ s.pendingResponses) ∧
    ∃ cb ec message, onResponse = some cb ∧ callsOf s.trace cid = [(cb, ec, message)] ∧ Fits cid ec message

-- In the middle of a step from one to the other: the handler has not been
-- called, and is in the hands of a call, or the wait handler that will take it
-- has begun.
def Underway (s : State H M) (cid : Nat) (onResponse : Option H) : Prop :=
  callsOf s.trace cid = [] ∧
    (((∀ cb, (cid, cb) ∉ s.pendingResponses) ∧ ∃ call ∈ s.calls, (cid, onResponse) ∈ call.owed) ∨
      ((cid, onResponse) ∈ s.pendingResponses ∧ .expired cid ∈ s.calls))

def Call.touches (cid : Nat) : Call H M → Bool
  | .register other _ | .expired other | .timingOut other _ | .timeOut other _ => other == cid
  | .responding message _ _ | .respond message _ _ => message.correlationId == cid
  | _ => false

theorem issued_unique (s : State H M) (requests : Requests s) (cid : Nat) (one other : Option H)
    (first : (cid, one) ∈ issued s.trace) (second : (cid, other) ∈ issued s.trace) : one = other := by
  have distinct : ((issued s.trace).map Prod.fst).Nodup := by
    rw [requests.numbered]
    exact List.nodup_range'
  exact (Prod.mk.inj (List.inj_on_of_nodup_map distinct first second rfl)).2

theorem pending_stands (s : State H M) (requests : Requests s) (timers : Timers s) (cid : Nat) (onResponse : Option H)
    (waiting : (cid, onResponse) ∈ s.pendingResponses) (uncalled : callsOf s.trace cid = [])
    (unheld : total (owing fun entry => entry.1 == cid) s.calls = 0) :
    Open s cid onResponse ∨ Underway s cid onResponse := by
  have known : (cid, onResponse) ∈ issued s.trace := held_issued s requests _ (.inl waiting)
  have fresh : cid ∉ expired s.trace := fun past => timers.fired cid past onResponse waiting
  have timed := timers.timed cid
  have once : 0 < ((issued s.trace).map Prod.fst).count cid := List.count_pos_iff.mpr (List.mem_map_of_mem known)
  rw [List.count_eq_zero.mpr fresh] at timed
  by_cases running : cid ∈ s.timers
  · exact .inl ⟨waiting, uncalled, fresh, .inl running⟩
  · rw [List.count_eq_zero.mpr running] at timed
    obtain ⟨call, member, heavy⟩ := total_ne_zero (timing cid) s.calls (by omega)
    have here : cid ∈ call.timed := List.count_pos_iff.mp heavy
    cases call with
    | register other cb =>
        obtain rfl := List.mem_singleton.mp here
        have none := (total_eq_zero _ _).mp unheld _ member
        simp [owing, Call.owed] at none
    | count other =>
        obtain rfl := List.mem_singleton.mp here
        exact .inl ⟨waiting, uncalled, fresh, .inr (.inl member)⟩
    | send other =>
        obtain rfl := List.mem_singleton.mp here
        exact .inl ⟨waiting, uncalled, fresh, .inr (.inr (.inl member))⟩
    | arm other =>
        obtain rfl := List.mem_singleton.mp here
        exact .inl ⟨waiting, uncalled, fresh, .inr (.inr (.inr member))⟩
    | expired other =>
        obtain rfl := List.mem_singleton.mp here
        exact .inr ⟨uncalled, .inr ⟨waiting, member⟩⟩
    | _ => cases here

theorem request_stands (s : State H M) (requests : Requests s) (timers : Timers s) (cid : Nat) (onResponse : Option H)
    (known : (cid, onResponse) ∈ issued s.trace) :
    Open s cid onResponse ∨ Answered s cid onResponse ∨ Underway s cid onResponse := by
  have placed := requests.placed fun entry => entry.1 == cid
  have once : (issued s.trace).countP (fun entry => entry.1 == cid) = 1 :=
    Nat.le_antisymm (issued_once s requests cid) (List.countP_pos_iff.mpr ⟨_, known, beq_self_eq_true cid⟩)
  have lengths := calls_of_length s.trace cid
  have same : ∀ other, (cid, other) ∈ issued s.trace → other = onResponse := fun other member =>
    issued_unique s requests cid other onResponse member known
  have absent : s.pendingResponses.countP (fun entry => entry.1 == cid) = 0 → ∀ cb, (cid, cb) ∉ s.pendingResponses :=
    fun none cb member => List.countP_eq_zero.mp none _ member (beq_self_eq_true cid)
  by_cases waits : s.pendingResponses.countP (fun entry => entry.1 == cid) = 0
  · by_cases held : total (owing fun entry => entry.1 == cid) s.calls = 0
    · have one : (callsOf s.trace cid).length = 1 := by omega
      obtain ⟨⟨cb, ec, message⟩, only⟩ := List.length_eq_one_iff.mp one
      have member : Event.called cid cb ec message ∈ s.trace :=
        (calls_of_mem s.trace cid cb ec message).mp (only ▸ List.mem_singleton_self _)
      have registered : (cid, some cb) ∈ issued s.trace :=
        held_issued s requests _ (.inr (.inr (List.mem_filterMap.mpr ⟨_, member, rfl⟩)))
      exact .inr (.inl ⟨absent waits, cb, ec, message, (same _ registered).symm, only,
        requests.fits cid cb ec message member⟩)
    · have uncalled : callsOf s.trace cid = [] := List.eq_nil_of_length_eq_zero (by omega)
      obtain ⟨call, member, heavy⟩ := total_ne_zero _ s.calls held
      obtain ⟨⟨key, cb⟩, owes, hit⟩ := List.countP_pos_iff.mp heavy
      obtain rfl := beq_iff_eq.mp hit
      have registered := held_issued s requests _ (.inr (.inl ⟨call, member, owes⟩))
      exact .inr (.inr ⟨uncalled, .inl ⟨absent waits, call, member, same _ registered ▸ owes⟩⟩)
  · have uncalled : callsOf s.trace cid = [] := List.eq_nil_of_length_eq_zero (by omega)
    have unheld : total (owing fun entry => entry.1 == cid) s.calls = 0 := by omega
    obtain ⟨⟨key, cb⟩, member, hit⟩ := List.countP_pos_iff.mp (Nat.pos_of_ne_zero waits)
    obtain rfl := beq_iff_eq.mp hit
    obtain rfl := same cb (held_issued s requests _ (.inl member))
    rcases pending_stands s requests timers key cb member uncalled unheld with waiting | underway
    · exact .inl waiting
    · exact .inr (.inr underway)

theorem each_request_answered (s : State H M) (reachable : Machine.Reachable step Admitted construct s) :
    (∀ cid onResponse, (cid, onResponse) ∈ issued s.trace →
      (Open s cid onResponse ∨ Answered s cid onResponse ∨ Underway s cid onResponse) ∧
      ((∀ call ∈ s.calls, call.touches cid = false) → Open s cid onResponse ∨ Answered s cid onResponse)) ∧
    (∀ arrival ∈ unmatched s.trace, arrival ∉ given s.trace) := by
  have requests := reachable_requests s reachable
  have timers := reachable_timers s reachable
  refine ⟨fun cid onResponse known => ?_, fun arrival missed handled => ?_⟩
  · have stands := request_stands s requests timers cid onResponse known
    refine ⟨stands, fun untouched => ?_⟩
    rcases stands with waits | answered | ⟨_, ⟨_, call, member, owes⟩ | ⟨_, member⟩⟩
    · exact .inl waits
    · exact .inr answered
    · have apart := untouched call member
      cases call <;> simp_all [Call.owed, Call.touches]
    · have apart := untouched _ member
      simp [Call.touches] at apart
  · have placed := reachable_arrivals s reachable arrival
    have one : 0 < (unmatched s.trace).count arrival := List.count_pos_iff.mpr missed
    have two : 0 < (given s.trace).count arrival := List.count_pos_iff.mpr handled
    split at placed <;> omega

-- The first request is answered, and the second answer to it and an answer to
-- none go to on_message_; the second request times out after the client has
-- been closed, and the third is waiting.
def overlappingRequests : List (Action Nat Nat) :=
  [[.sendRequest (some 7)], List.replicate 4 (.advance 0 false), [.sendRequest (some 8)], List.replicate 4 (.advance 1 false),
    [.setOnMessage true, .startRead, .readCompletes (some [(1, 100), (1, 101), (9, 102)])],
    List.replicate 8 (.advance 2 false), [.close true, .expire 1], List.replicate 3 (.advance 3 false),
    [.sendRequest (some 9)], List.replicate 4 (.advance 4 false)].flatten

theorem each_request_answered_overlapping :
    ∃ s : State Nat Nat, Machine.Reachable step Admitted construct s ∧
      (Open s 1 (some 7) ∨ Answered s 1 (some 7)) ∧ (Open s 2 (some 8) ∨ Answered s 2 (some 8)) ∧
      (Open s 3 (some 9) ∨ Answered s 3 (some 9)) ∧ callsOf s.trace 1 = [(7, .success, some ⟨1, 100, 0⟩)] ∧
      callsOf s.trace 2 = [(8, .timedOut, none)] ∧ callsOf s.trace 3 = [] ∧ unmatched s.trace = [1, 2] ∧
      given s.trace = [0] := by
  obtain ⟨s, reachable, shown⟩ := Machine.run_exhibits step Admitted construct overlappingRequests
    (fun s => issued s.trace == [(1, some 7), (2, some 8), (3, some 9)] && s.calls.all (· == .returned) &&
      callsOf s.trace 1 == [(7, .success, some ⟨1, 100, 0⟩)] && callsOf s.trace 2 == [(8, .timedOut, none)] &&
      callsOf s.trace 3 == [] && unmatched s.trace == [1, 2] && given s.trace == [0]) (by decide +kernel)
  simp only [Bool.and_eq_true, beq_iff_eq, List.all_eq_true] at shown
  obtain ⟨⟨⟨⟨⟨⟨issues, idle⟩, first⟩, second⟩, third⟩, strays⟩, responses⟩ := shown
  have untouched : ∀ cid, ∀ call ∈ s.calls, call.touches cid = false := fun cid call member => by
    rw [idle call member]
    rfl
  have stands : ∀ cid onResponse, (cid, onResponse) ∈ issued s.trace → Open s cid onResponse ∨ Answered s cid onResponse :=
    fun cid onResponse known => ((each_request_answered s reachable).1 cid onResponse known).2 (untouched cid)
  exact ⟨s, reachable, stands 1 _ (by simp [issues]), stands 2 _ (by simp [issues]), stands 3 _ (by simp [issues]),
    first, second, third, strays, responses⟩

end Vectro.Tcp
