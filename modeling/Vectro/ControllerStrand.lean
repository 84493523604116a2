import Vectro.SessionDirect
import Vectro.SessionManagerDrain
import Vectro.SessionRounds

set_option autoImplicit false

namespace Vectro.Control

variable {B : Type}

-- What HandleProcessing and HandleOutbound dispatch to strand_. framed is what
-- the interceptor and the framer of the session make of the message.
inductive Job (B : Type) where
  | processing
  | outbound (destSession : Option UInt64) (framed : Option B)
deriving DecidableEq

-- A processed message reaches the router, or OnProcess or Route raises and the
-- error goes to callbacks_. One for a session that is not found goes nowhere.
inductive Outcome where
  | routed
  | failed
  | sent (c : Nat)
  | missed
deriving DecidableEq, Repr

-- call counts the calls of the two functions.
structure Ran (B : Type) where
  call : Nat
  job : Job B
  outcome : Outcome
deriving DecidableEq

structure State (B : Type) where
  registry : Registry.State B
  calls : Nat
  strand : List (Nat × Job B)
  ran : List (Ran B)

def construct (numChannels : Nat) : State B where
  registry := Registry.construct numChannels
  calls := 0
  strand := []
  ran := []

def State.dispatch (s : State B) (job : Job B) : State B :=
  { s with calls := s.calls + 1, strand := s.strand ++ [(s.calls, job)] }

def State.handleProcessing (s : State B) : State B := s.dispatch .processing

def State.handleOutbound (s : State B) (destSession : Option UInt64) (framed : Option B) : State B :=
  s.dispatch (.outbound destSession framed)

-- The two functions on the strand.
def runJob (registry : Registry.State B) (raises : Bool) (inline : Session.Inline) : Job B → Option (Registry.State B × Outcome)
  | .processing => some (registry, if raises then .failed else .routed)
  | .outbound destSession framed =>
      match registry.get (destSession.getD 0) with
      | some c => (Registry.step registry (.session c (.asyncSend framed inline))).map fun after => (after, .sent c)
      | none => some (registry, .missed)

inductive Action (B : Type) where
  | handleProcessing
  | handleOutbound (destSession : Option UInt64) (framed : Option B)
  | run (raises : Bool) (inline : Session.Inline)
  | registry (action : Registry.Action B)

-- The workers of the channels call the two functions; sessions come and go.
def step (s : State B) : Action B → Option (State B)
  | .handleProcessing => some s.handleProcessing
  | .handleOutbound destSession framed => some (s.handleOutbound destSession framed)
  | .run raises inline =>
      match s.strand with
      | [] => none
      | (call, job) :: rest =>
          (runJob s.registry raises inline job).map fun done =>
            { s with registry := done.1, strand := rest, ran := s.ran ++ [⟨call, job, done.2⟩] }
  | .registry action => (Registry.step s.registry action).map fun registry => { s with registry := registry }

def Ran.to (c : Nat) (ran : Ran B) : Option B :=
  match ran.job, ran.outcome with
  | .outbound _ framed, .sent d => if d = c then framed else none
  | _, _ => none

def sentTo (c : Nat) (ran : List (Ran B)) : List B := ran.filterMap (Ran.to c)

-- Ids are given in turn, from 1 on.
structure Named (registry : Registry.State B) : Prop where
  next : registry.idSeq = UInt64.ofNat (registry.connections.length + 1)
  named : ∀ (c : Nat) (connection : Registry.Connection B), registry.connections[c]? = some connection →
    connection.id = UInt64.ofNat (c + 1)
  listed : ∀ id c, registry.get id = some c → ∃ connection, registry.connections[c]? = some connection ∧ connection.id = id ∧
    connection.accepting = .returned

-- Each call is run once, in the order of the calls. A message goes to the session
-- that is registered under the id it names, and a session sends what it was given
-- in this order.
structure Delivers (s : State B) : Prop where
  ordered : s.ran.map Ran.call ++ s.strand.map Prod.fst = List.range s.calls
  addressed : ∀ call destSession framed c, ⟨call, .outbound destSession framed, .sent c⟩ ∈ s.ran →
    ∃ connection, s.registry.connections[c]? = some connection ∧ connection.id = destSession.getD 0 ∧ connection.accepting = .returned
  sends : ∀ (c : Nat) (connection : Registry.Connection B), s.registry.connections[c]? = some connection →
    connection.session.fault = false → (sentTo c s.ran).Sublist (Session.sent connection.session.trace)

-- As long as the ids do not come round, that session is the only one with the id,
-- and a message that names none goes to nobody.
structure Addressed (s : State B) : Prop extends Delivers s where
  placed : s.registry.connections.length < 2 ^ 64 → ∀ call destSession framed c, ⟨call, .outbound destSession framed, .sent c⟩ ∈ s.ran →
    ∃ id, destSession = some id ∧ id.toNat = c + 1

-- What a step of the registry does to a session that was there before.
theorem registry_sessions (s after : Registry.State B) (action : Registry.Action B) (taken : Registry.step s action = some after)
    (c : Nat) (new : Registry.Connection B) (found : after.connections[c]? = some new) :
    s.connections[c]? = none ∨ ∃ old, s.connections[c]? = some old ∧
      (new.session = old.session ∨ ∃ act, Session.step old.session act = some new.session) := by
  have updated : ∀ (d : Nat) (old connection : Registry.Connection B), s.connections[d]? = some old →
      after.connections = s.connections.set d connection →
      (connection.session = old.session ∨ ∃ act, Session.step old.session act = some connection.session) →
      ∃ old, s.connections[c]? = some old ∧ (new.session = old.session ∨ ∃ act, Session.step old.session act = some new.session) := by
    intro d old connection there connections moved
    rw [connections] at found
    by_cases here : d = c
    · subst here
      rw [List.getElem?_set_self (List.getElem?_eq_some_iff.mp there).1] at found
      exact ⟨old, there, Option.some.inj found ▸ moved⟩
    · rw [List.getElem?_set_ne here] at found
      exact ⟨new, found, .inl rfl⟩
  cases action with
  | accept useWriteQueue =>
      obtain rfl := Option.some.inj taken
      rcases Nat.lt_or_ge c s.connections.length with old | fresh
      · rw [List.getElem?_append_left old] at found
        exact .inr ⟨new, found, .inl rfl⟩
      · exact .inl (List.getElem?_eq_none fresh)
  | start d =>
      obtain ⟨connection, there, taken⟩ := Option.bind_eq_some_iff.mp taken
      split at taken
      · obtain ⟨session, moved, rfl⟩ := Option.map_eq_some_iff.mp taken
        exact .inr (updated d connection _ there rfl (.inr ⟨_, moved⟩))
      · cases taken
  | register d =>
      obtain ⟨connection, there, taken⟩ := Option.bind_eq_some_iff.mp taken
      split at taken
      · obtain rfl := Option.some.inj taken
        exact .inr (updated d connection _ there (Registry.add_connections _ _ _) (.inl rfl))
      · cases taken
  | session d action =>
      obtain ⟨connection, there, taken⟩ := Option.bind_eq_some_iff.mp taken
      split at taken
      · cases taken
      · obtain ⟨session, moved, rfl⟩ := Option.map_eq_some_iff.mp taken
        refine .inr (updated d connection { connection with session := session } there ?_ (.inr ⟨action, moved⟩))
        dsimp only
        split <;> rfl

theorem forwards_listed (s after : Registry.State B) (forwards : Registry.Forwards s after) (named : Named s) (id : UInt64) (c : Nat)
    (stored : after.get id = some c) :
    ∃ connection, after.connections[c]? = some connection ∧ connection.id = id ∧ connection.accepting = .returned := by
  rcases forwards.listing id c stored with before | ⟨_, new, _, _, found, same, returned⟩
  · obtain ⟨old, there, same, returned⟩ := named.listed id c before
    obtain ⟨new, found, kept, still, _⟩ := forwards.kept c old there
    exact ⟨new, found, kept.trans same, still returned⟩
  · exact ⟨new, found, same, returned⟩

theorem named_update (s after : Registry.State B) (c : Nat) (old new : Registry.Connection B) (named : Named s)
    (forwards : Registry.Forwards s after) (found : s.connections[c]? = some old) (idSeq : after.idSeq = s.idSeq)
    (connections : after.connections = s.connections.set c new) (same : new.id = old.id) : Named after := by
  refine ⟨?_, ?_, forwards_listed s after forwards named⟩
  · rw [idSeq, connections, List.length_set]
    exact named.next
  · intro d connection present
    rw [connections] at present
    by_cases here : c = d
    · subst here
      rw [List.getElem?_set_self (List.getElem?_eq_some_iff.mp found).1] at present
      rw [← Option.some.inj present, same]
      exact named.named c old found
    · rw [List.getElem?_set_ne here] at present
      exact named.named d connection present

theorem step_named (s after : Registry.State B) (action : Registry.Action B) (named : Named s)
    (taken : Registry.step s action = some after) : Named after := by
  have forwards := Registry.step_forwards s after action taken
  cases action with
  | accept useWriteQueue =>
      obtain rfl := Option.some.inj taken
      refine ⟨?_, ?_, forwards_listed s _ forwards named⟩
      · rw [List.length_append, List.length_singleton, UInt64.ofNat_add, named.next]
        rfl
      · intro c connection present
        rcases Nat.lt_or_ge c s.connections.length with old | fresh
        · rw [List.getElem?_append_left old] at present
          exact named.named c connection present
        · have bound := (List.getElem?_eq_some_iff.mp present).1
          rw [List.length_append, List.length_singleton] at bound
          have last : c = s.connections.length := by omega
          rw [last, List.getElem?_concat_length] at present
          rw [← Option.some.inj present, last]
          exact named.next
  | start d =>
      obtain ⟨connection, there, taken⟩ := Option.bind_eq_some_iff.mp taken
      split at taken
      · obtain ⟨session, moved, rfl⟩ := Option.map_eq_some_iff.mp taken
        exact named_update s _ d connection _ named forwards there rfl rfl rfl
      · cases taken
  | register d =>
      obtain ⟨connection, there, taken⟩ := Option.bind_eq_some_iff.mp taken
      split at taken
      · obtain rfl := Option.some.inj taken
        apply named_update s _ d connection _ named forwards there _ (Registry.add_connections _ _ _) rfl
        rw [Registry.State.registerSession, Registry.State.add]
        split <;> rfl
      · cases taken
  | session d action =>
      obtain ⟨connection, there, taken⟩ := Option.bind_eq_some_iff.mp taken
      split at taken
      · cases taken
      · obtain ⟨session, moved, rfl⟩ := Option.map_eq_some_iff.mp taken
        refine named_update s _ d connection { connection with session := session } named forwards there ?_ ?_ rfl
        · dsimp only
          split <;> rfl
        · dsimp only
          split <;> rfl

theorem id_place (c : Nat) (id : UInt64) (small : c + 1 < 2 ^ 64) (same : UInt64.ofNat (c + 1) = id) : id.toNat = c + 1 := by
  rw [← same, UInt64.toNat_ofNat']
  exact Nat.mod_eq_of_lt small

theorem sent_to_append (c : Nat) (ran : List (Ran B)) (last : Ran B) :
    sentTo c (ran ++ [last]) = sentTo c ran ++ (last.to c).toList := by
  rw [sentTo, List.filterMap_append]
  congr 1

-- AsyncSend logs what it was given before anything else.
theorem send_logged (s : Session.State B) (buffers : B) (inline : Session.Inline) :
    s.trace ++ [.sent buffers] <+: (s.send buffers inline).trace := by
  rw [Session.State.send]
  split
  · exact (Session.dispatch_queue_still (s.emit (.sent buffers)) _ inline).trace
  · split
    · exact List.prefix_rfl
    · exact (Session.write_next_still { s.emit (.sent buffers) with writeDeque := s.writeDeque ++ [buffers] } inline).trace

theorem sent_grows (s after : Session.State B) (action : Session.Action B) (taken : Session.step s action = some after) :
    (Session.sent s.trace).Sublist (Session.sent after.trace) :=
  ((Session.step_trace s after action taken).filterMap _).sublist

theorem step_unfaulted (s after : Session.State B) (action : Session.Action B) (taken : Session.step s action = some after) :
    s.fault = false := by
  by_contra faulted
  unfold Session.step at taken
  rw [if_pos (eq_true_of_ne_false faulted)] at taken
  cases taken

theorem async_send_logged (s after : Session.State B) (framed : Option B) (inline : Session.Inline)
    (taken : Session.step s (.asyncSend framed inline) = some after) (unfaulted : after.fault = false) :
    (Session.sent s.trace ++ framed.toList).Sublist (Session.sent after.trace) := by
  unfold Session.step at taken
  split at taken
  · cases taken
  · obtain rfl := Option.some.inj taken
    by_cases present : s.framer = true
    · unfold Session.State.asyncSend at unfaulted ⊢
      rw [if_pos present]
      cases framed with
      | none => simp
      | some buffers =>
          have last : Session.sent (s.trace ++ [.sent buffers]) = Session.sent s.trace ++ [buffers] :=
            Traces.filter_map_logs _ _ _ _ rfl
          have logged : (Session.sent (s.trace ++ [.sent buffers])).Sublist (Session.sent (s.send buffers inline).trace) :=
            ((send_logged s buffers inline).filterMap _).sublist
          rw [last] at logged
          exact logged
    · unfold Session.State.asyncSend at unfaulted
      rw [if_neg present] at unfaulted
      cases unfaulted

structure Invariant (s : State B) : Prop extends Delivers s where
  named : Named s.registry

theorem to_some (c : Nat) (ran : Ran B) (buffers : B) (given : ran.to c = some buffers) :
    ∃ destSession framed, ran = ⟨ran.call, .outbound destSession framed, .sent c⟩ := by
  obtain ⟨call, job, outcome⟩ := ran
  cases job with
  | processing => cases given
  | outbound destSession framed =>
      cases outcome with
      | routed | failed | missed => cases given
      | sent d =>
          by_cases here : d = c
          · exact ⟨destSession, framed, by rw [here]⟩
          · have other : (if d = c then framed else none) = some buffers := given
            rw [if_neg here] at other
            cases other

-- A session that is not there yet was sent nothing.
theorem sent_to_absent (s : State B) (invariant : Invariant s) (c : Nat) (absent : s.registry.connections[c]? = none) :
    sentTo c s.ran = [] := by
  rw [sentTo, List.filterMap_eq_nil_iff]
  intro ran member
  by_contra given
  obtain ⟨buffers, given⟩ := Option.ne_none_iff_exists'.mp given
  obtain ⟨destSession, framed, same⟩ := to_some c ran buffers given
  rw [same] at member
  obtain ⟨connection, found, _⟩ := invariant.addressed _ destSession framed c member
  rw [absent] at found
  cases found

theorem registry_sends (s : State B) (after : Registry.State B) (action : Registry.Action B) (invariant : Invariant s)
    (taken : Registry.step s.registry action = some after) (c : Nat) (new : Registry.Connection B)
    (found : after.connections[c]? = some new) (unfaulted : new.session.fault = false) :
    (sentTo c s.ran).Sublist (Session.sent new.session.trace) := by
  rcases registry_sessions s.registry after action taken c new found with absent | ⟨old, there, same | ⟨act, moved⟩⟩
  · rw [sent_to_absent s invariant c absent]
    exact List.nil_sublist _
  · rw [same] at unfaulted ⊢
    exact invariant.sends c old there unfaulted
  · have before := step_unfaulted old.session new.session act moved
    exact (invariant.sends c old there before).trans (sent_grows old.session new.session act moved)

theorem registry_addressed (s : State B) (after : Registry.State B) (action : Registry.Action B) (invariant : Invariant s)
    (taken : Registry.step s.registry action = some after) (call : Nat) (destSession : Option UInt64) (framed : Option B) (c : Nat)
    (member : ⟨call, .outbound destSession framed, .sent c⟩ ∈ s.ran) :
    ∃ connection, after.connections[c]? = some connection ∧ connection.id = destSession.getD 0 ∧ connection.accepting = .returned := by
  obtain ⟨old, there, named, returned⟩ := invariant.addressed call destSession framed c member
  obtain ⟨new, found, same, still, _⟩ := (Registry.step_forwards s.registry after action taken).kept c old there
  exact ⟨new, found, same.trans named, still returned⟩

theorem dispatch_invariant (s : State B) (job : Job B) (invariant : Invariant s) : Invariant (s.dispatch job) where
  named := invariant.named
  ordered := by
    rw [State.dispatch, List.map_append, ← List.append_assoc, invariant.ordered, List.range_succ]
    rfl
  addressed := invariant.addressed
  sends := invariant.sends

theorem ran_ordered (s : State B) (call : Nat) (job : Job B) (rest : List (Nat × Job B)) (outcome : Outcome)
    (ordered : s.ran.map Ran.call ++ s.strand.map Prod.fst = List.range s.calls) (strand : s.strand = (call, job) :: rest) :
    (s.ran ++ [(⟨call, job, outcome⟩ : Ran B)]).map Ran.call ++ rest.map Prod.fst = List.range s.calls := by
  rw [← ordered, strand, List.map_append, List.append_assoc]
  rfl

-- A job that sends nothing leaves the sessions as they are.
theorem quiet_invariant (s : State B) (call : Nat) (job : Job B) (rest : List (Nat × Job B)) (outcome : Outcome)
    (invariant : Invariant s) (strand : s.strand = (call, job) :: rest) (quiet : ∀ c, outcome ≠ .sent c) :
    Invariant { s with strand := rest, ran := s.ran ++ [⟨call, job, outcome⟩] } where
  named := invariant.named
  ordered := ran_ordered s call job rest outcome invariant.ordered strand
  addressed := by
    intro other destSession framed c member
    rcases List.mem_append.mp member with before | now
    · exact invariant.addressed other destSession framed c before
    · cases List.mem_singleton.mp now
      exact absurd rfl (quiet c)
  sends := by
    intro c connection found unfaulted
    have nothing : Ran.to c (⟨call, job, outcome⟩ : Ran B) = none := by
      by_contra given
      obtain ⟨buffers, given⟩ := Option.ne_none_iff_exists'.mp given
      obtain ⟨destSession, framed, same⟩ := to_some c _ buffers given
      injection same with _ _ sent
      exact quiet c sent
    rw [sent_to_append, nothing, Option.toList_none, List.append_nil]
    exact invariant.sends c connection found unfaulted

theorem session_moved (s after : Registry.State B) (c : Nat) (action : Session.Action B)
    (taken : Registry.step s (.session c action) = some after) :
    ∃ connection session, s.connections[c]? = some connection ∧ Session.step connection.session action = some session ∧
      after.connections[c]? = some { connection with session := session } := by
  obtain ⟨connection, there, moved⟩ := Option.bind_eq_some_iff.mp taken
  split at moved
  · cases moved
  · obtain ⟨session, stepped, rfl⟩ := Option.map_eq_some_iff.mp moved
    refine ⟨connection, session, there, stepped, ?_⟩
    have bound := (List.getElem?_eq_some_iff.mp there).1
    dsimp only
    split <;> exact List.getElem?_set_self bound

theorem sent_invariant (s : State B) (call : Nat) (destSession : Option UInt64) (framed : Option B) (rest : List (Nat × Job B))
    (inline : Session.Inline) (c : Nat) (after : Registry.State B) (invariant : Invariant s)
    (strand : s.strand = (call, .outbound destSession framed) :: rest) (stored : s.registry.get (destSession.getD 0) = some c)
    (taken : Registry.step s.registry (.session c (.asyncSend framed inline)) = some after) :
    Invariant { s with registry := after, strand := rest, ran := s.ran ++ [⟨call, .outbound destSession framed, .sent c⟩] } where
  named := step_named s.registry after _ invariant.named taken
  ordered := ran_ordered s call _ rest _ invariant.ordered strand
  addressed := by
    intro other destination sent d member
    rcases List.mem_append.mp member with before | now
    · exact registry_addressed s after _ invariant taken other destination sent d before
    · cases List.mem_singleton.mp now
      obtain ⟨old, there, named, returned⟩ := invariant.named.listed _ c stored
      obtain ⟨new, found, same, still, _⟩ := (Registry.step_forwards s.registry after _ taken).kept c old there
      exact ⟨new, found, same.trans named, still returned⟩
  sends := by
    intro d new found unfaulted
    rw [sent_to_append]
    by_cases here : c = d
    · subst here
      have given : Ran.to c (⟨call, .outbound destSession framed, .sent c⟩ : Ran B) = framed := if_pos rfl
      obtain ⟨connection, session, there, moved, place⟩ := session_moved s.registry after c _ taken
      rw [place] at found
      obtain rfl := Option.some.inj found
      have logged := async_send_logged connection.session session framed inline moved unfaulted
      have before := invariant.sends c connection there (step_unfaulted _ _ _ moved)
      rw [given]
      exact (before.append (List.Sublist.refl _)).trans logged
    · have nothing : Ran.to d (⟨call, .outbound destSession framed, .sent c⟩ : Ran B) = none := if_neg here
      rw [nothing, Option.toList_none, List.append_nil]
      exact registry_sends s after _ invariant taken d new found unfaulted

theorem step_invariant (s after : State B) (action : Action B) (invariant : Invariant s) (taken : step s action = some after) :
    Invariant after := by
  cases action with
  | handleProcessing =>
      obtain rfl := Option.some.inj taken
      exact dispatch_invariant s _ invariant
  | handleOutbound destSession framed =>
      obtain rfl := Option.some.inj taken
      exact dispatch_invariant s _ invariant
  | run raises inline =>
      rw [step] at taken
      split at taken
      · cases taken
      · rename_i call job rest strand
        obtain ⟨done, ran, rfl⟩ := Option.map_eq_some_iff.mp taken
        cases job with
        | processing =>
            obtain rfl := Option.some.inj ran
            apply quiet_invariant s call .processing rest _ invariant strand
            intro c
            cases raises <;> simp
        | outbound destSession framed =>
            rw [runJob] at ran
            split at ran
            · rename_i c stored
              obtain ⟨registry, moved, rfl⟩ := Option.map_eq_some_iff.mp ran
              exact sent_invariant s call destSession framed rest inline c registry invariant strand stored moved
            · obtain rfl := Option.some.inj ran
              exact quiet_invariant s call _ rest .missed invariant strand (by simp)
  | registry action =>
      obtain ⟨registry, moved, rfl⟩ := Option.map_eq_some_iff.mp taken
      exact {
        named := step_named s.registry registry action invariant.named moved
        ordered := invariant.ordered
        addressed := registry_addressed s registry action invariant moved
        sends := registry_sends s registry action invariant moved }

end Vectro.Control
