import Vectro.TcpClient
import Mathlib.Data.List.Count
import Mathlib.Data.List.Nodup
import Mathlib.Data.List.Range

set_option autoImplicit false

namespace Vectro.Tcp

open Tally Traces

variable {H M : Type}

def issued (log : List (Event H M)) : List (Nat × Option H) :=
  log.filterMap fun
    | .issued cid onResponse => some (cid, onResponse)
    | _ => none

def called (log : List (Event H M)) : List (Nat × Option H) :=
  log.filterMap fun
    | .called cid cb _ _ => some (cid, some cb)
    | _ => none

-- The calls of the handlers that were registered under one correlation id.
def callsOf (log : List (Event H M)) (cid : Nat) : List (H × ErrorCode × Option (Message M)) :=
  log.filterMap fun
    | .called other cb ec message => if other = cid then some (cb, ec, message) else none
    | _ => none

def expired (log : List (Event H M)) : List Nat :=
  log.filterMap fun
    | .expired cid => some cid
    | _ => none

def unmatched (log : List (Event H M)) : List Nat :=
  log.filterMap fun
    | .unmatched arrival => some arrival
    | _ => none

-- The arrivals that were given to a response handler.
def given (log : List (Event H M)) : List Nat :=
  log.filterMap fun
    | .called _ _ _ (some message) => some message.arrival
    | _ => none

-- Handlers are not null, and the ids do not come round.
def Admitted (s : State H M) : Action H M → Prop
  | .sendRequest onResponse => onResponse ≠ none ∧ (issued s.trace).length + 1 < 2 ^ 64
  | _ => True

instance [DecidableEq H] (s : State H M) (action : Action H M) : Decidable (Admitted s action) :=
  match action with
  | .sendRequest onResponse => inferInstanceAs (Decidable (¬ onResponse = none ∧ (issued s.trace).length + 1 < 2 ^ 64))
  | .startRead | .readCompletes .. | .expire .. | .close .. | .setOnMessage .. | .setOnDisconnect .. | .advance .. =>
      isTrue trivial

-- The handler a call has in its hands, on the way into pending_responses_ or
-- out of it.
def Call.owed : Call H M → List (Nat × Option H)
  | .register cid cb | .timingOut cid cb | .timeOut cid cb => [(cid, cb)]
  | .responding message cb _ | .respond message cb _ => [(message.correlationId, some cb)]
  | _ => []

-- The timer a call has yet to start, or whose wait handler it is.
def Call.timed : Call H M → List Nat
  | .register cid _ | .count cid | .send cid | .arm cid | .expired cid => [cid]
  | _ => []

def Call.carried : Call H M → List Nat
  | .dispatch msgs => msgs.map Message.arrival
  | .responding message _ rest | .respond message _ rest => message.arrival :: rest.map Message.arrival
  | .pass _ rest => rest.map Message.arrival
  | _ => []

def owing (counts : Nat × Option H → Bool) (call : Call H M) : Nat := call.owed.countP counts

def timing (cid : Nat) (call : Call H M) : Nat := call.timed.count cid

def carrying (arrival : Nat) (call : Call H M) : Nat := call.carried.count arrival

def Fits (cid : Nat) (ec : ErrorCode) (message : Option (Message M)) : Prop :=
  (ec = .timedOut ∧ message = none) ∨ (ec = .success ∧ ∃ response, message = some response ∧ response.correlationId = cid)

-- The ideal client: every request has its own id, and its handler is in one
-- place.
structure Requests (s : State H M) : Prop where
  next : s.nextCorrelationId = ((issued s.trace).length + 1) % 2 ^ 64
  bounded : (issued s.trace).length < 2 ^ 64
  numbered : (issued s.trace).map Prod.fst = List.range' 1 (issued s.trace).length
  present : ∀ entry ∈ issued s.trace, entry.2 ≠ none
  placed : ∀ counts, s.pendingResponses.countP counts + total (owing counts) s.calls +
    (called s.trace).countP counts = (issued s.trace).countP counts
  fits : ∀ cid cb ec message, .called cid cb ec message ∈ s.trace → Fits cid ec message

theorem requests_frame (s after : State H M) (requests : Requests s) (next : after.nextCorrelationId = s.nextCorrelationId)
    (trace : issued after.trace = issued s.trace)
    (placed : ∀ counts, after.pendingResponses.countP counts + total (owing counts) after.calls +
      (called after.trace).countP counts = s.pendingResponses.countP counts +
        total (owing counts) s.calls + (called s.trace).countP counts)
    (fits : ∀ cid cb ec message, .called cid cb ec message ∈ after.trace →
      .called cid cb ec message ∈ s.trace ∨ Fits cid ec message) : Requests after where
  next := by rw [next, trace, requests.next]
  bounded := by rw [trace]; exact requests.bounded
  numbered := by rw [trace]; exact requests.numbered
  present := by rw [trace]; exact requests.present
  placed := by
    intro counts
    rw [placed, trace]
    exact requests.placed counts
  fits := by
    intro cid cb ec message member
    rcases fits cid cb ec message member with old | new
    · exact requests.fits cid cb ec message old
    · exact new

-- One call moves on; what leaves its hands goes to the map or to the handler,
-- or the other way.
theorem requests_goto (s after : State H M) (i : Nat) (old new : Call H M) (found : s.calls[i]? = some old)
    (requests : Requests s) (trace : issued after.trace = issued s.trace)
    (balance : ∀ counts, after.pendingResponses.countP counts + owing counts new + (called after.trace).countP counts =
      s.pendingResponses.countP counts + owing counts old + (called s.trace).countP counts)
    (fits : ∀ cid cb ec message, .called cid cb ec message ∈ after.trace →
      .called cid cb ec message ∈ s.trace ∨ Fits cid ec message)
    (next : after.nextCorrelationId = s.nextCorrelationId := by rfl)
    (calls : after.calls = s.calls.set i new := by rfl) : Requests after := by
  refine requests_frame s after requests next trace (fun counts => ?_) fits
  have moved := total_set (owing counts) s.calls i old new found
  have balanced := balance counts
  rw [calls]
  omega

theorem issued_once (s : State H M) (requests : Requests s) (cid : Nat) :
    (issued s.trace).countP (fun entry => entry.1 == cid) ≤ 1 := by
  have distinct : ((issued s.trace).map Prod.fst).Nodup := by
    rw [requests.numbered]
    exact List.nodup_range'
  have once := List.nodup_iff_count_le_one.mp distinct cid
  rwa [List.count, List.countP_map] at once

theorem register_absent (s : State H M) (i : Nat) (cid : Nat) (cb : Option H) (requests : Requests s)
    (found : s.calls[i]? = some (.register cid cb)) : s.pendingResponses.lookup cid = none := by
  have once := issued_once s requests cid
  have placed := requests.placed fun entry => entry.1 == cid
  have held := weight_le_total (owing fun entry => entry.1 == cid) s.calls _ (List.mem_of_getElem? found)
  have one : owing (fun entry => entry.1 == cid) (.register cid cb : Call H M) = 1 := by simp [owing, Call.owed]
  have absent : s.pendingResponses.countP (fun entry => entry.1 == cid) = 0 := by omega
  rw [List.countP_eq_zero] at absent
  apply List.lookup_eq_none_iff.mpr
  intro entry member
  have differs := absent entry member
  rw [bne_iff_ne]
  exact fun same => differs (beq_iff_eq.mpr same.symm)

theorem issued_snoc (log : List (Event H M)) (event : Event H M) : issued (log ++ [event]) = issued log ++ issued [event] :=
  List.filterMap_append

theorem called_snoc (log : List (Event H M)) (event : Event H M) : called (log ++ [event]) = called log ++ called [event] :=
  List.filterMap_append

theorem issued_quiet (log : List (Event H M)) (event : Event H M) (quiet : issued [event] = []) :
    issued (log ++ [event]) = issued log := by
  rw [issued_snoc, quiet, List.append_nil]

theorem called_quiet (log : List (Event H M)) (event : Event H M) (quiet : called [event] = []) :
    called (log ++ [event]) = called log := by
  rw [called_snoc, quiet, List.append_nil]

theorem fits_snoc (s : State H M) (event : Event H M)
    (fits : ∀ cid cb ec message, event = .called cid cb ec message → Fits cid ec message) :
    ∀ cid cb ec message, .called cid cb ec message ∈ s.trace ++ [event] →
      .called cid cb ec message ∈ s.trace ∨ Fits cid ec message := by
  intro cid cb ec message member
  rcases List.mem_append.mp member with old | new
  · exact .inl old
  · exact .inr (fits cid cb ec message (List.mem_singleton.mp new).symm)

theorem fits_quiet (s : State H M) (event : Event H M) (quiet : called [event] = []) :
    ∀ cid cb ec message, .called cid cb ec message ∈ s.trace ++ [event] →
      .called cid cb ec message ∈ s.trace ∨ Fits cid ec message := by
  apply fits_snoc s event
  intro cid cb ec message same
  rw [same] at quiet
  cases quiet

-- It logs nothing, or something that is neither a request nor an answer.
theorem requests_moves (s after : State H M) (i : Nat) (old new : Call H M) (found : s.calls[i]? = some old)
    (requests : Requests s)
    (balance : ∀ counts, after.pendingResponses.countP counts + owing counts new =
      s.pendingResponses.countP counts + owing counts old)
    (trace : after.trace = s.trace := by rfl) (next : after.nextCorrelationId = s.nextCorrelationId := by rfl)
    (calls : after.calls = s.calls.set i new := by rfl) : Requests after := by
  refine requests_goto s after i old new found requests (by rw [trace]) (fun counts => ?_) ?_ next calls
  · rw [trace, balance counts]
  · rw [trace]
    exact fun _ _ _ _ member => .inl member

theorem requests_logs (s after : State H M) (i : Nat) (old new : Call H M) (event : Event H M)
    (found : s.calls[i]? = some old) (requests : Requests s)
    (balance : ∀ counts, after.pendingResponses.countP counts + owing counts new =
      s.pendingResponses.countP counts + owing counts old)
    (unissued : issued [event] = [] := by rfl) (uncalled : called [event] = [] := by rfl)
    (trace : after.trace = s.trace ++ [event] := by rfl)
    (next : after.nextCorrelationId = s.nextCorrelationId := by rfl)
    (calls : after.calls = s.calls.set i new := by rfl) : Requests after := by
  have issues : issued after.trace = issued s.trace := by rw [trace, issued_quiet _ _ unissued]
  refine requests_goto s after i old new found requests issues (fun counts => ?_) ?_ next calls
  · rw [trace, called_quiet _ _ uncalled, balance counts]
  · rw [trace]
    exact fits_quiet s event uncalled

theorem held_issued (s : State H M) (requests : Requests s) (entry : Nat × Option H)
    (held : entry ∈ s.pendingResponses ∨ (∃ call ∈ s.calls, entry ∈ call.owed) ∨ entry ∈ called s.trace) :
    entry ∈ issued s.trace := by
  classical
  have placed := requests.placed fun other => decide (other = entry)
  have some : 0 < (issued s.trace).countP fun other => decide (other = entry) := by
    rcases held with waits | ⟨call, member, owes⟩ | listed
    · have one : 0 < s.pendingResponses.countP fun other => decide (other = entry) :=
        List.countP_pos_iff.mpr ⟨entry, waits, decide_eq_true rfl⟩
      omega
    · have one : 0 < owing (fun other => decide (other = entry)) call :=
        List.countP_pos_iff.mpr ⟨entry, owes, decide_eq_true rfl⟩
      have bound := weight_le_total (owing fun other => decide (other = entry)) s.calls call member
      omega
    · have one : 0 < (called s.trace).countP fun other => decide (other = entry) :=
        List.countP_pos_iff.mpr ⟨entry, listed, decide_eq_true rfl⟩
      omega
  obtain ⟨other, member, same⟩ := List.countP_pos_iff.mp some
  exact of_decide_eq_true same ▸ member

-- The handler a call owes is invoked, and the call owes nothing more.
theorem requests_answers (s : State H M) (i : Nat) (old new : Call H M) (cid : Nat) (cb : H) (ec : ErrorCode)
    (message : Option (Message M)) (found : s.calls[i]? = some old) (requests : Requests s)
    (owed : old.owed = [(cid, some cb)]) (settled : new.owed = []) (fits : Fits cid ec message) :
    Requests ((s.emit (.called cid cb ec message)).goto i new) := by
  refine requests_goto s _ i old new found requests (issued_quiet _ _ rfl) ?_ (fits_snoc s _ ?_)
  · intro counts
    have last : called [Event.called cid cb ec message] = old.owed := owed.symm
    have logged : called ((s.emit (.called cid cb ec message)).goto i new).trace = called s.trace ++ old.owed := by
      rw [← last]
      exact called_snoc s.trace _
    rw [logged, List.countP_append, owing, settled, List.countP_nil, owing]
    change s.pendingResponses.countP counts + 0 + _ = _
    omega
  · rintro _ _ _ _ ⟨⟩
    exact fits

theorem advance_requests (s : State H M) (i : Nat) (raises : Bool) (call : Call H M) (found : s.calls[i]? = some call)
    (requests : Requests s) : Requests (s.advance i raises call) := by
  cases call with
  | register cid cb =>
      apply requests_moves s _ i _ (.count cid) found requests
      intro counts
      simp [State.advance, State.goto, emplace, register_absent s i cid cb requests found, owing, Call.owed]
  | count cid => exact requests_moves s _ i _ (.send cid) found requests fun _ => rfl
  | send cid => exact requests_logs s _ i _ (.arm cid) (.sent cid) found requests fun _ => rfl
  | arm cid => exact requests_moves s _ i _ .returned found requests fun _ => rfl
  | expired cid =>
      cases taken : s.pendingResponses.lookup cid with
      | none =>
          rw [State.advance, taken]
          exact requests_logs s _ i _ .returned (.expired cid) found requests fun _ => rfl
      | some cb =>
          rw [State.advance, taken]
          exact requests_logs s _ i _ (.timingOut cid cb) (.expired cid) found requests
            (erase_count s.pendingResponses cid cb taken)
  | timingOut cid cb => exact requests_moves s _ i _ (.timeOut cid cb) found requests fun _ => rfl
  | timeOut cid cb =>
      cases cb with
      | none =>
          have kept := held_issued s requests (cid, none) (.inr (.inl ⟨_, List.mem_of_getElem? found, List.mem_cons_self⟩))
          exact absurd rfl (requests.present _ kept)
      | some cb =>
          exact requests_answers s i _ .returned cid cb .timedOut none found requests rfl rfl (.inl ⟨rfl, rfl⟩)
  | dispatch msgs =>
      cases msgs with
      | nil =>
          rw [State.advance, State.startRead]
          split <;> exact requests_moves s _ i _ .returned found requests fun _ => rfl
      | cons message rest =>
          rw [State.advance]
          split
          · exact requests_logs s _ i _ (.pass message rest) (.unmatched message.arrival) found requests fun _ => rfl
          · rename_i taken
            have kept := held_issued s requests _ (.inl (lookup_mem _ _ _ taken))
            exact absurd rfl (requests.present _ kept)
          · rename_i cb taken
            exact requests_moves s _ i _ (.responding message cb rest) found requests
              (erase_count s.pendingResponses message.correlationId (some cb) taken)
  | responding message cb rest => exact requests_moves s _ i _ (.respond message cb rest) found requests fun _ => rfl
  | respond message cb rest =>
      have settled : (if raises then .returned else .dispatch rest : Call H M).owed = [] := by cases raises <;> rfl
      exact requests_answers s i _ _ message.correlationId cb .success (some message) found requests rfl settled
        (.inr ⟨rfl, message, rfl, rfl⟩)
  | pass message rest =>
      rw [State.advance]
      split
      · apply requests_logs s _ i _ (if raises then .returned else .dispatch rest) (.received message) found requests
        cases raises <;> exact fun _ => rfl
      · exact requests_moves s _ i _ (.dispatch rest) found requests fun _ => rfl
  | returned => exact requests

theorem send_request_requests (s : State H M) (onResponse : Option H) (present : onResponse ≠ none)
    (room : (issued s.trace).length + 1 < 2 ^ 64) (requests : Requests s) : Requests (s.sendRequest onResponse) := by
  have fresh : s.nextCorrelationId = (issued s.trace).length + 1 := requests.next.trans (Nat.mod_eq_of_lt room)
  have more : issued (s.sendRequest onResponse).trace = issued s.trace ++ [((issued s.trace).length + 1, onResponse)] := by
    show issued (s.trace ++ [_]) = _
    rw [issued_snoc, ← fresh]
    rfl
  have length : (issued (s.sendRequest onResponse).trace).length = (issued s.trace).length + 1 := by
    rw [more, List.length_append, List.length_singleton]
  refine ⟨?_, ?_, ?_, ?_, fun counts => ?_, fun cid cb ec message member => ?_⟩
  · show (s.nextCorrelationId + 1) % 2 ^ 64 = _
    rw [length, fresh]
  · omega
  · rw [length, more, List.map_append, requests.numbered, List.range'_concat, Nat.one_mul, Nat.add_comm 1]
    rfl
  · rw [more]
    intro entry member
    rcases List.mem_append.mp member with old | new
    · exact requests.present entry old
    · rw [List.mem_singleton.mp new]
      exact present
  · have placed := requests.placed counts
    have begun : total (owing counts) (s.sendRequest onResponse).calls =
        total (owing counts) s.calls + [((issued s.trace).length + 1, onResponse)].countP counts := by
      rw [← fresh]
      exact total_append (owing counts) s.calls [.register s.nextCorrelationId onResponse]
    have silent : called (s.sendRequest onResponse).trace = called s.trace := called_quiet _ _ rfl
    rw [begun, silent, more, List.countP_append]
    show s.pendingResponses.countP counts + _ + _ = _
    omega
  · rcases fits_quiet s _ rfl cid cb ec message member with old | fits
    · exact requests.fits cid cb ec message old
    · exact fits

theorem aside_reads {K : Type} (s after : State H M) (aside : Aside s after) (reads : Event H M → Option K)
    (unread : ∀ event, event.aside = true → reads event = none) :
    after.trace.filterMap reads = s.trace.filterMap reads := by
  obtain ⟨quiet, trace, silent⟩ := aside.trace
  rw [trace]
  exact filter_map_aside reads s.trace quiet fun event member => unread event (silent event member)

theorem aside_issued (s after : State H M) (aside : Aside s after) : issued after.trace = issued s.trace :=
  aside_reads s after aside _ fun event quiet => by cases event <;> first | rfl | cases quiet

theorem aside_called (s after : State H M) (aside : Aside s after) : called after.trace = called s.trace :=
  aside_reads s after aside _ fun event quiet => by cases event <;> first | rfl | cases quiet

theorem begin_total (weight : Call H M → Nat) (calls : List (Call H M)) (call : Call H M) (light : weight call = 0) :
    total weight (calls ++ [call]) = total weight calls := by
  rw [total_append, total_cons, light]
  rfl

theorem reachable_requests (s : State H M) (reachable : Machine.Reachable step Admitted construct s) : Requests s := by
  refine Machine.reachable_invariant step Admitted _ Requests ?_ ?_ s reachable
  · exact ⟨rfl, Nat.two_pow_pos 64, rfl, by simp [construct, issued], fun _ => rfl, by simp [construct]⟩
  · intro before action after _ requests admitted taken
    refine step_preserves Requests before after action taken ?_ ?_ ?_ ?_ ?_
    · intro after aside
      refine requests_frame before after requests aside.next (aside_issued before after aside) (fun _ => ?_)
        fun cid cb ec message member => .inl ?_
      · rw [aside.pending, aside.calls, aside_called before after aside]
      · obtain ⟨quiet, trace, silent⟩ := aside.trace
        rw [trace] at member
        rcases List.mem_append.mp member with old | new
        · exact old
        · cases silent _ new
    · rintro onResponse rfl
      exact send_request_requests before onResponse admitted.1 admitted.2 requests
    · intro msgs
      refine requests_frame before _ requests rfl rfl (fun counts => ?_) fun _ _ _ _ member => .inl member
      have begun := begin_total (owing counts) before.calls (.dispatch (number msgs before.arrivals)) rfl
      exact congrArg (before.pendingResponses.countP counts + · + (called before.trace).countP counts) begun
    · intro i cid _
      refine requests_frame before _ requests rfl rfl (fun counts => ?_) fun _ _ _ _ member => .inl member
      have begun := begin_total (owing counts) before.calls (.expired cid) rfl
      exact congrArg (before.pendingResponses.countP counts + · + (called before.trace).countP counts) begun
    · exact fun i raises call found => advance_requests before i raises call found requests

-- Every request has one timer, and once it has expired the request is not
-- pending.
structure Timers (s : State H M) : Prop where
  timed : ∀ cid, total (timing cid) s.calls + s.timers.count cid + (expired s.trace).count cid =
    ((issued s.trace).map Prod.fst).count cid
  fired : ∀ cid ∈ expired s.trace, ∀ cb, (cid, cb) ∉ s.pendingResponses

theorem timers_goto (s after : State H M) (i : Nat) (old new : Call H M) (found : s.calls[i]? = some old)
    (timers : Timers s) (issues : issued after.trace = issued s.trace)
    (balance : ∀ cid, timing cid new + after.timers.count cid + (expired after.trace).count cid =
      timing cid old + s.timers.count cid + (expired s.trace).count cid)
    (fired : ∀ cid ∈ expired after.trace, ∀ cb, (cid, cb) ∉ after.pendingResponses)
    (calls : after.calls = s.calls.set i new := by rfl) : Timers after := by
  refine ⟨fun cid => ?_, fired⟩
  have moved := total_set (timing cid) s.calls i old new found
  have balanced := balance cid
  have timed := timers.timed cid
  rw [calls, issues]
  omega

theorem timers_quiet (s after : State H M) (i : Nat) (old new : Call H M) (found : s.calls[i]? = some old)
    (timers : Timers s) (same : new.timed = old.timed)
    (pending : ∀ entry ∈ after.pendingResponses, entry ∈ s.pendingResponses)
    (issues : issued after.trace = issued s.trace := by rfl) (expires : expired after.trace = expired s.trace := by rfl)
    (waits : after.timers = s.timers := by rfl) (calls : after.calls = s.calls.set i new := by rfl) : Timers after := by
  refine timers_goto s after i old new found timers issues (fun cid => ?_) (fun cid member cb waiting => ?_) calls
  · rw [timing, timing, same, waits, expires]
  · rw [expires] at member
    exact timers.fired cid member cb (pending _ waiting)

theorem issued_ids_once (s : State H M) (requests : Requests s) (cid : Nat) :
    ((issued s.trace).map Prod.fst).count cid ≤ 1 := by
  rw [List.count, List.countP_map]
  exact issued_once s requests cid

theorem erased_absent (s : State H M) (requests : Requests s) (cid : Nat) (cb : Option H)
    (taken : s.pendingResponses.lookup cid = some cb) (other : Option H) :
    (cid, other) ∉ erase s.pendingResponses cid := by
  intro member
  have once := issued_once s requests cid
  have placed := requests.placed fun entry => entry.1 == cid
  have erased := erase_count s.pendingResponses cid cb taken fun entry => entry.1 == cid
  have gone : [(cid, cb)].countP (fun entry : Nat × Option H => entry.1 == cid) = 1 := by simp
  have left : 0 < (erase s.pendingResponses cid).countP fun entry => entry.1 == cid :=
    List.countP_pos_iff.mpr ⟨_, member, beq_self_eq_true cid⟩
  omega

theorem expired_snoc (log : List (Event H M)) (event : Event H M) : expired (log ++ [event]) = expired log ++ expired [event] :=
  List.filterMap_append

theorem expired_quiet (log : List (Event H M)) (event : Event H M) (quiet : expired [event] = []) :
    expired (log ++ [event]) = expired log := by
  rw [expired_snoc, quiet, List.append_nil]

theorem expires_timers (s : State H M) (i : Nat) (cid : Nat) (new : Call H M) (pending : List (Nat × Option H))
    (found : s.calls[i]? = some (.expired cid)) (timers : Timers s) (untimed : new.timed = [])
    (fewer : ∀ entry ∈ pending, entry ∈ s.pendingResponses) (absent : ∀ cb, (cid, cb) ∉ pending) :
    Timers (({ s with pendingResponses := pending }.emit (.expired cid)).goto i new) := by
  refine timers_goto s _ i _ new found timers (issued_quiet _ _ rfl) (fun other => ?_) fun other member cb waiting => ?_
  · show timing other new + _ + (expired (s.trace ++ [_])).count other = [cid].count other + _ + _
    have last : (expired [Event.expired (H := H) (M := M) cid]).count other = [cid].count other := rfl
    rw [timing, untimed, expired_snoc, List.count_append, last]
    show 0 + s.timers.count other + _ = _
    omega
  · have before : other ∈ expired s.trace ∨ other = cid := by
      have split : other ∈ expired s.trace ++ [cid] := expired_snoc s.trace (.expired cid) ▸ member
      simpa using split
    rcases before with old | rfl
    · exact timers.fired other old cb (fewer _ waiting)
    · exact absent cb waiting

theorem advance_timers (s : State H M) (i : Nat) (raises : Bool) (call : Call H M) (found : s.calls[i]? = some call)
    (requests : Requests s) (timers : Timers s) : Timers (s.advance i raises call) := by
  have same : ∀ entry ∈ s.pendingResponses, entry ∈ s.pendingResponses := fun _ member => member
  have fewer : ∀ cid, ∀ entry ∈ erase s.pendingResponses cid, entry ∈ s.pendingResponses :=
    fun _ _ member => List.mem_of_mem_eraseP member
  cases call with
  | register cid cb =>
      refine timers_goto s _ i _ (.count cid) found timers rfl (fun _ => rfl) fun other member held waiting => ?_
      have entries : emplace s.pendingResponses cid cb = s.pendingResponses ++ [(cid, cb)] := by
        simp [emplace, register_absent s i cid cb requests found]
      have split : (other, held) ∈ s.pendingResponses ++ [(cid, cb)] := entries ▸ waiting
      rcases List.mem_append.mp split with old | new
      · exact timers.fired other member held old
      · obtain ⟨rfl, _⟩ := Prod.mk.inj (List.mem_singleton.mp new)
        -- Its timer has not been started, so it cannot have expired.
        have once := issued_ids_once s requests other
        have timed := timers.timed other
        have bound := weight_le_total (timing other) s.calls _ (List.mem_of_getElem? found)
        have one : timing other (.register other cb : Call H M) = 1 := by simp [timing, Call.timed]
        have past : 0 < (expired s.trace).count other := List.count_pos_iff.mpr member
        omega
  | count cid => exact timers_quiet s _ i _ (.send cid) found timers rfl same
  | send cid => exact timers_quiet s _ i _ (.arm cid) found timers rfl same (issued_quiet _ _ rfl) (expired_quiet _ _ rfl)
  | arm cid =>
      refine timers_goto s _ i _ .returned found timers rfl (fun other => ?_) timers.fired
      show 0 + (s.timers ++ [cid]).count other + (expired s.trace).count other =
        [cid].count other + s.timers.count other + _
      rw [List.count_append]
      omega
  | expired cid =>
      cases taken : s.pendingResponses.lookup cid with
      | none =>
          rw [State.advance, taken]
          exact expires_timers s i cid .returned s.pendingResponses found timers rfl same (lookup_absent _ cid taken)
      | some cb =>
          rw [State.advance, taken]
          exact expires_timers s i cid (.timingOut cid cb) _ found timers rfl (fewer cid)
            (erased_absent s requests cid cb taken)
  | timingOut cid cb => exact timers_quiet s _ i _ (.timeOut cid cb) found timers rfl same
  | timeOut cid cb =>
      cases cb with
      | none => exact timers_quiet s _ i _ .returned found timers rfl same
      | some cb =>
          exact timers_quiet s _ i _ .returned found timers rfl same (issued_quiet _ _ rfl) (expired_quiet _ _ rfl)
  | dispatch msgs =>
      cases msgs with
      | nil =>
          rw [State.advance, State.startRead]
          split <;> exact timers_quiet s _ i _ .returned found timers rfl same
      | cons message rest =>
          rw [State.advance]
          split
          · exact timers_quiet s _ i _ (.pass message rest) found timers rfl same (issued_quiet _ _ rfl)
              (expired_quiet _ _ rfl)
          · exact timers_quiet s _ i _ (.pass message rest) found timers rfl (fewer _)
          · exact timers_quiet s _ i _ (.responding message _ rest) found timers rfl (fewer _)
  | responding message cb rest => exact timers_quiet s _ i _ (.respond message cb rest) found timers rfl same
  | respond message cb rest =>
      refine timers_quiet s _ i _ (if raises then .returned else .dispatch rest) found timers ?_ same
        (issued_quiet _ _ rfl) (expired_quiet _ _ rfl)
      cases raises <;> rfl
  | pass message rest =>
      rw [State.advance]
      split
      · refine timers_quiet s _ i _ (if raises then .returned else .dispatch rest) found timers ?_ same
          (issued_quiet _ _ rfl) (expired_quiet _ _ rfl)
        cases raises <;> rfl
      · exact timers_quiet s _ i _ (.dispatch rest) found timers rfl same
  | returned => exact timers

theorem aside_expired (s after : State H M) (aside : Aside s after) : expired after.trace = expired s.trace :=
  aside_reads s after aside _ fun event quiet => by cases event <;> first | rfl | cases quiet

theorem send_request_timers (s : State H M) (onResponse : Option H) (timers : Timers s) :
    Timers (s.sendRequest onResponse) := by
  have silent : expired (s.sendRequest onResponse).trace = expired s.trace := expired_quiet _ _ rfl
  refine ⟨fun cid => ?_, fun cid member => ?_⟩
  · have timed := timers.timed cid
    have begun : total (timing cid) (s.sendRequest onResponse).calls =
        total (timing cid) s.calls + [s.nextCorrelationId].count cid :=
      total_append (timing cid) s.calls [.register s.nextCorrelationId onResponse]
    have more : (issued (s.sendRequest onResponse).trace).map Prod.fst =
        (issued s.trace).map Prod.fst ++ [s.nextCorrelationId] := by
      show (issued (s.trace ++ [_])).map Prod.fst = _
      rw [issued_snoc, List.map_append]
      rfl
    rw [begun, silent, more, List.count_append]
    show _ + s.timers.count cid + _ = _
    omega
  · exact timers.fired cid (silent ▸ member)

theorem count_first (first : Nat) (rest : List Nat) (n : Nat) : (first :: rest).count n = [first].count n + rest.count n :=
  @List.count_append _ _ n [first] rest

theorem expire_timers (s : State H M) (i : Nat) (cid : Nat) (found : s.timers[i]? = some cid) (timers : Timers s) :
    Timers (s.expire i cid) := by
  refine ⟨fun other => ?_, timers.fired⟩
  have timed := timers.timed other
  have begun : total (timing other) (s.expire i cid).calls = total (timing other) s.calls + [cid].count other :=
    total_append (timing other) s.calls [.expired cid]
  have split : (cid :: s.timers.eraseIdx i).Perm s.timers := by
    obtain ⟨inside, here⟩ := List.getElem?_eq_some_iff.mp found
    exact here ▸ List.getElem_cons_eraseIdx_perm inside
  have counted := split.count_eq other
  rw [count_first] at counted
  rw [begun]
  show _ + (s.timers.eraseIdx i).count other + (expired s.trace).count other = ((issued s.trace).map Prod.fst).count other
  omega

theorem reachable_timers (s : State H M) (reachable : Machine.Reachable step Admitted construct s) : Timers s := by
  refine Machine.reachable_invariant step Admitted _ Timers ?_ ?_ s reachable
  · exact ⟨fun _ => rfl, fun _ member => nomatch member⟩
  · intro before action after earlier timers _ taken
    have requests := reachable_requests before earlier
    refine step_preserves Timers before after action taken ?_ ?_ ?_ ?_ ?_
    · intro after aside
      refine ⟨fun cid => ?_, ?_⟩
      · rw [aside.calls, aside.timers, aside_expired before after aside, aside_issued before after aside]
        exact timers.timed cid
      · rw [aside.pending, aside_expired before after aside]
        exact timers.fired
    · exact fun onResponse _ => send_request_timers before onResponse timers
    · intro msgs
      refine ⟨fun cid => ?_, timers.fired⟩
      have begun := begin_total (timing cid) before.calls (.dispatch (number msgs before.arrivals)) rfl
      exact begun ▸ timers.timed cid
    · exact fun i cid found => expire_timers before i cid found timers
    · exact fun i raises call found => advance_timers before i raises call found requests timers

end Vectro.Tcp
