import Vectro.SessionClosing
import Vectro.SessionManager

set_option autoImplicit false

namespace Vectro.Registry

open Vectro.Session (disconnects Onward Obedient)

variable {B : Type}

-- The loop of a drain, which holds mutex_ from its first session to its last:
-- the places it has called Close on and those it comes to.
structure Drain where
  force : Bool
  closed : List Nat
  remaining : List Nat
deriving DecidableEq, Repr

-- drained is history: the drains that have returned.
structure Managed (B : Type) where
  registry : State B
  drain : Option Drain
  drained : List Drain

def constructManaged (numChannels : Nat) : Managed B := ⟨construct numChannels, none, []⟩

def State.all (s : State B) : List Nat := s.sessions.entries.map Sigma.snd

def State.clear (s : State B) : State B := { s with sessions := ∅ }

-- Add, and Remove in a disconnect callback, take mutex_.
def State.locks (s after : State B) : Action B → Bool
  | .register _ => true
  | .session c _ =>
      (after.connections[c]?).map (fun connection => disconnects connection.session.trace) !=
        (s.connections[c]?).map fun connection => disconnects connection.session.trace
  | _ => false

inductive ManagedAction (B : Type) where
  | close (force : Bool) (order : List Nat)
  | closeNext (inline : Session.Inline)
  | endDrain
  | registry (action : Action B)

-- A node_hash_map is walked in an order of its own. Each session is closed from
-- the thread of the drain; whether its Close runs at once is the executor's say.
def managedStep (m : Managed B) : ManagedAction B → Option (Managed B)
  | .close force order =>
      if m.drain = none ∧ order.Perm m.registry.all then some { m with drain := some ⟨force, [], order⟩ } else none
  | .closeNext inline =>
      m.drain.bind fun drain =>
        match drain.remaining with
        | [] => none
        | c :: rest =>
            (m.registry.connections[c]?).bind fun connection =>
              (Session.step connection.session (.close drain.force inline)).map fun session =>
                { m with registry := m.registry.update c { connection with session := session }
                         drain := some { drain with closed := drain.closed ++ [c], remaining := rest } }
  | .endDrain =>
      m.drain.bind fun drain =>
        if drain.remaining = [] then
          some { registry := if drain.force then m.registry.clear else m.registry
                 drain := none
                 drained := m.drained ++ [drain] }
        else none
  | .registry action =>
      (step m.registry action).bind fun after =>
        if m.drain ≠ none ∧ m.registry.locks after action = true then none else some { m with registry := after }

theorem all_mem (s : State B) (c : Nat) : c ∈ s.all ↔ ∃ id, s.get id = some c := by
  rw [State.all, List.mem_map]
  constructor
  · intro there
    obtain ⟨entry, member, rfl⟩ := there
    exact ⟨entry.1, AList.mem_lookup_iff.mpr member⟩
  · intro stored
    obtain ⟨id, stored⟩ := stored
    exact ⟨⟨id, c⟩, AList.mem_lookup_iff.mp stored, rfl⟩

-- What no step of the registry takes back.
structure Forwards (s after : State B) : Prop where
  kept : ∀ (c : Nat) (old : Connection B), s.connections[c]? = some old → ∃ new, after.connections[c]? = some new ∧
    new.id = old.id ∧ (old.accepting = .returned → new.accepting = .returned) ∧ Onward old.session new.session
  fresh : ∀ (c : Nat) (new : Connection B), after.connections[c]? = some new → s.connections[c]? = none → Obedient new.session
  listing : ∀ id c, after.get id = some c → s.get id = some c ∨
    ∃ old new, s.connections[c]? = some old ∧ old.accepting ≠ .returned ∧ after.connections[c]? = some new ∧ new.id = id ∧
      new.accepting = .returned

theorem update_forwards (s after : State B) (c : Nat) (old new : Connection B) (found : s.connections[c]? = some old)
    (connections : after.connections = s.connections.set c new) (id : new.id = old.id)
    (returned : old.accepting = .returned → new.accepting = .returned) (onward : Onward old.session new.session)
    (listing : ∀ id d, after.get id = some d → s.get id = some d ∨
      (d = c ∧ old.accepting ≠ .returned ∧ id = new.id ∧ new.accepting = .returned)) : Forwards s after := by
  have bound := (List.getElem?_eq_some_iff.mp found).1
  have here : after.connections[c]? = some new := by rw [connections, List.getElem?_set_self bound]
  refine ⟨?_, ?_, ?_⟩
  · intro d other present
    by_cases same : c = d
    · subst same
      rw [found] at present
      rw [← Option.some.inj present]
      exact ⟨new, here, id, returned, onward⟩
    · refine ⟨other, ?_, rfl, fun settled => settled, Session.aside_onward _ _ (Session.aside_refl _)⟩
      rw [connections, List.getElem?_set_ne same]
      exact present
  · intro d other present absent
    rw [List.getElem?_eq_none_iff] at absent
    have inside := (List.getElem?_eq_some_iff.mp present).1
    rw [connections, List.length_set] at inside
    omega
  · intro name d stored
    rcases listing name d stored with before | ⟨rfl, open', rfl, settled⟩
    · exact .inl before
    · exact .inr ⟨old, new, found, open', here, rfl, settled⟩

theorem construct_obedient (useWriteQueue : Bool) : Obedient (Session.construct useWriteQueue : Session.State B) := by
  intro force ran
  cases ran

theorem step_forwards (s after : State B) (action : Action B) (taken : step s action = some after) : Forwards s after := by
  cases action with
  | accept useWriteQueue =>
      obtain rfl := Option.some.inj taken
      refine ⟨?_, ?_, fun _ _ stored => .inl stored⟩
      · intro c old present
        refine ⟨old, ?_, rfl, fun settled => settled, Session.aside_onward _ _ (Session.aside_refl _)⟩
        rw [List.getElem?_append_left (List.getElem?_eq_some_iff.mp present).1]
        exact present
      · intro c new present absent
        rw [List.getElem?_append_right (List.getElem?_eq_none_iff.mp absent)] at present
        rw [List.mem_singleton.mp (List.mem_of_getElem? present)]
        exact construct_obedient useWriteQueue
  | start c =>
      obtain ⟨connection, found, taken⟩ := Option.bind_eq_some_iff.mp taken
      split at taken
      · rename_i created
        obtain ⟨session, moved, rfl⟩ := Option.map_eq_some_iff.mp taken
        refine update_forwards s _ c connection _ found rfl rfl ?_ (Session.step_onward _ _ _ moved) (fun _ _ stored => .inl stored)
        intro settled
        rw [created] at settled
        cases settled
      · cases taken
  | register c =>
      obtain ⟨connection, found, taken⟩ := Option.bind_eq_some_iff.mp taken
      split at taken
      · rename_i started
        obtain rfl := Option.some.inj taken
        refine update_forwards s _ c connection _ found (add_connections _ _ _) rfl (fun _ => rfl)
          (Session.aside_onward _ _ (Session.aside_refl _)) ?_
        intro id d stored
        rcases add_get _ connection.id id c d stored with kept | ⟨same, place⟩
        · exact .inl kept
        · exact .inr ⟨place, by rw [started]; simp, same, rfl⟩
      · cases taken
  | session c action =>
      obtain ⟨connection, found, taken⟩ := Option.bind_eq_some_iff.mp taken
      split at taken
      · cases taken
      · obtain ⟨session, moved, rfl⟩ := Option.map_eq_some_iff.mp taken
        have onward := Session.step_onward _ _ _ moved
        dsimp only
        split
        · exact update_forwards s _ c connection _ found rfl rfl (fun settled => settled) onward (fun _ _ stored => .inl stored)
        · refine update_forwards s _ c connection _ found rfl rfl (fun settled => settled) onward ?_
          intro id d stored
          exact .inl (remove_get _ connection.id id d stored).2

-- What does not take mutex_ leaves sessions_ alone.
theorem unlocked_sessions (s after : State B) (action : Action B) (taken : step s action = some after)
    (unlocked : s.locks after action = false) : after.sessions = s.sessions := by
  cases action with
  | accept => rw [← Option.some.inj taken]
  | start c =>
      obtain ⟨connection, found, taken⟩ := Option.bind_eq_some_iff.mp taken
      split at taken
      · obtain ⟨session, moved, rfl⟩ := Option.map_eq_some_iff.mp taken
        rfl
      · cases taken
  | register => cases unlocked
  | session c action =>
      obtain ⟨connection, found, taken⟩ := Option.bind_eq_some_iff.mp taken
      split at taken
      · cases taken
      · obtain ⟨session, moved, rfl⟩ := Option.map_eq_some_iff.mp taken
        have bound := (List.getElem?_eq_some_iff.mp found).1
        dsimp only at unlocked ⊢
        split
        · rfl
        · rename_i reports
          rw [if_neg reports] at unlocked
          simp [State.locks, State.remove, State.update, List.getElem?_set_self bound, found, reports] at unlocked

def Called (s : State B) (force : Bool) (c : Nat) : Prop :=
  ∃ connection, s.connections[c]? = some connection ∧ connection.accepting = .returned ∧ connection.session.Told force

structure Swept (m : Managed B) : Prop where
  listed : ∀ id c, m.registry.get id = some c → ∃ connection, m.registry.connections[c]? = some connection ∧
    connection.id = id ∧ connection.accepting = .returned
  obedient : ∀ (c : Nat) (connection : Connection B), m.registry.connections[c]? = some connection → Obedient connection.session
  going : ∀ drain, m.drain = some drain → (drain.closed ++ drain.remaining).Perm m.registry.all ∧
    ∀ c ∈ drain.closed, Called m.registry drain.force c
  ended : ∀ drain ∈ m.drained, ∀ c ∈ drain.closed, Called m.registry drain.force c ∧
    (drain.force = true → ∀ id, m.registry.get id ≠ some c)

theorem called_forwards (s after : State B) (forwards : Forwards s after) (force : Bool) (c : Nat) (called : Called s force c) :
    Called after force c := by
  obtain ⟨old, found, settled, told⟩ := called
  obtain ⟨new, present, _, returned, onward⟩ := forwards.kept c old found
  exact ⟨new, present, returned settled, Session.onward_told _ _ force onward told⟩

theorem listed_forwards (s after : State B) (forwards : Forwards s after)
    (listed : ∀ id c, s.get id = some c → ∃ connection, s.connections[c]? = some connection ∧ connection.id = id ∧
      connection.accepting = .returned) (id : UInt64) (c : Nat) (stored : after.get id = some c) :
    ∃ connection, after.connections[c]? = some connection ∧ connection.id = id ∧ connection.accepting = .returned := by
  rcases forwards.listing id c stored with before | ⟨old, new, _, _, present, same, settled⟩
  · obtain ⟨old, found, same, settled⟩ := listed id c before
    obtain ⟨new, present, kept, returned, _⟩ := forwards.kept c old found
    exact ⟨new, present, kept.trans same, returned settled⟩
  · exact ⟨new, present, same, settled⟩

theorem obedient_forwards (s after : State B) (forwards : Forwards s after)
    (obedient : ∀ (c : Nat) (connection : Connection B), s.connections[c]? = some connection → Obedient connection.session)
    (c : Nat) (connection : Connection B) (present : after.connections[c]? = some connection) : Obedient connection.session := by
  cases before : s.connections[c]? with
  | none => exact forwards.fresh c connection present before
  | some old =>
      obtain ⟨new, there, _, _, onward⟩ := forwards.kept c old before
      rw [there] at present
      rw [← Option.some.inj present]
      exact Session.onward_obedient _ _ onward (obedient c old before)

-- A session that was in a forced drain has been registered, and is not again.
theorem unlisted_forwards (s after : State B) (forwards : Forwards s after) (force : Bool) (c : Nat) (called : Called s force c)
    (unlisted : ∀ id, s.get id ≠ some c) (id : UInt64) : after.get id ≠ some c := by
  intro stored
  rcases forwards.listing id c stored with before | ⟨old, _, found, early, _⟩
  · exact unlisted id before
  · obtain ⟨connection, present, settled, _⟩ := called
    rw [present] at found
    exact early (Option.some.inj found ▸ settled)

theorem swept_forwards (m : Managed B) (after : State B) (drain : Option Drain) (swept : Swept m) (forwards : Forwards m.registry after)
    (going : ∀ d, drain = some d → (d.closed ++ d.remaining).Perm after.all ∧ ∀ c ∈ d.closed, Called after d.force c) :
    Swept { m with registry := after, drain := drain } where
  listed := listed_forwards _ _ forwards swept.listed
  obedient := obedient_forwards _ _ forwards swept.obedient
  going := going
  ended := by
    intro d member c inside
    obtain ⟨called, cleared⟩ := swept.ended d member c inside
    exact ⟨called_forwards _ _ forwards d.force c called, fun forced =>
      unlisted_forwards _ _ forwards d.force c called (cleared forced)⟩

theorem close_next_forwards (s : State B) (c : Nat) (connection : Connection B) (session : Session.State B)
    (found : s.connections[c]? = some connection) (onward : Onward connection.session session) :
    Forwards s (s.update c { connection with session := session }) :=
  update_forwards s _ c connection _ found rfl rfl (fun settled => settled) onward (fun _ _ stored => .inl stored)

theorem clear_get (s : State B) (id : UInt64) : s.clear.get id = none := AList.lookup_empty id

theorem managed_step_swept (m after : Managed B) (action : ManagedAction B) (swept : Swept m)
    (taken : managedStep m action = some after) : Swept after := by
  cases action with
  | close force order =>
      simp only [managedStep] at taken
      split at taken
      · rename_i enabled
        obtain rfl := Option.some.inj taken
        refine ⟨swept.listed, swept.obedient, ?_, swept.ended⟩
        intro drain here
        obtain rfl := Option.some.inj here
        exact ⟨enabled.2, by simp⟩
      · cases taken
  | closeNext inline =>
      obtain ⟨drain, here, taken⟩ := Option.bind_eq_some_iff.mp taken
      obtain ⟨perm, called⟩ := swept.going drain here
      cases remaining : drain.remaining with
      | nil => simp [remaining] at taken
      | cons c rest =>
          simp only [remaining] at taken
          obtain ⟨connection, found, taken⟩ := Option.bind_eq_some_iff.mp taken
          obtain ⟨session, moved, rfl⟩ := Option.map_eq_some_iff.mp taken
          have forwards := close_next_forwards m.registry c connection session found (Session.step_onward _ _ _ moved)
          refine swept_forwards m _ _ swept forwards ?_
          intro next same
          obtain rfl := Option.some.inj same
          refine ⟨?_, ?_⟩
          · rw [remaining] at perm
            rw [List.append_assoc]
            exact perm
          · intro d member
            rcases List.mem_append.mp member with old | new
            · exact called_forwards _ _ forwards drain.force d (called d old)
            · rw [List.mem_singleton.mp new]
              have listed : c ∈ m.registry.all := perm.subset (List.mem_append_right _ (by rw [remaining]; exact List.mem_cons_self))
              obtain ⟨id, stored⟩ := (all_mem m.registry c).mp listed
              obtain ⟨other, present, _, settled⟩ := swept.listed id c stored
              rw [found] at present
              refine ⟨_, List.getElem?_set_self (List.getElem?_eq_some_iff.mp found).1, ?_, Session.close_told _ _ _ inline moved⟩
              rw [← Option.some.inj present] at settled
              exact settled
  | endDrain =>
      obtain ⟨drain, here, taken⟩ := Option.bind_eq_some_iff.mp taken
      obtain ⟨perm, called⟩ := swept.going drain here
      split at taken
      · rename_i none
        obtain rfl := Option.some.inj taken
        have connections : (if drain.force then m.registry.clear else m.registry).connections = m.registry.connections := by
          split <;> rfl
        have fewer : ∀ id c, (if drain.force then m.registry.clear else m.registry).get id = some c → m.registry.get id = some c := by
          intro id c stored
          split at stored
          · rw [clear_get] at stored
            cases stored
          · exact stored
        refine ⟨?_, ?_, by simp, ?_⟩
        · intro id c stored
          rw [connections]
          exact swept.listed id c (fewer id c stored)
        · intro c connection present
          exact swept.obedient c connection (connections ▸ present)
        · intro past member c inside
          have same : ∀ force, Called m.registry force c → Called (if drain.force then m.registry.clear else m.registry) force c := by
            intro force held
            rwa [Called, connections]
          rcases List.mem_append.mp member with old | new
          · obtain ⟨held, cleared⟩ := swept.ended past old c inside
            exact ⟨same past.force held, fun forced id stored => cleared forced id (fewer id c stored)⟩
          · obtain rfl := List.mem_singleton.mp new
            refine ⟨same _ (called c inside), fun forced id => ?_⟩
            rw [if_pos forced, clear_get]
            simp
      · cases taken
  | registry action =>
      obtain ⟨next, moved, taken⟩ := Option.bind_eq_some_iff.mp taken
      split at taken
      · cases taken
      · rename_i allowed
        obtain rfl := Option.some.inj taken
        have forwards := step_forwards m.registry next action moved
        refine swept_forwards m next m.drain swept forwards ?_
        intro drain here
        obtain ⟨perm, called⟩ := swept.going drain here
        have unlocked : m.registry.locks next action = false := by
          by_contra locked
          exact allowed ⟨by rw [here]; simp, by simpa using locked⟩
        refine ⟨?_, fun c member => called_forwards _ _ forwards drain.force c (called c member)⟩
        rw [State.all, unlocked_sessions m.registry next action moved unlocked]
        exact perm

theorem reachable_swept (guard : Managed B → ManagedAction B → Prop) (numChannels : Nat) (m : Managed B)
    (reachable : Machine.Reachable managedStep guard (constructManaged numChannels) m) : Swept m := by
  refine Machine.reachable_invariant managedStep guard _ Swept ?_ ?_ m reachable
  · refine ⟨?_, by simp [constructManaged, construct], by simp [constructManaged], by simp [constructManaged]⟩
    intro id c stored
    rw [State.get, constructManaged, construct, AList.lookup_empty] at stored
    cases stored
  · intro before action after _ swept _ taken
    exact managed_step_swept before after action swept taken

def OnlyDrains (_ : Managed B) : ManagedAction B → Prop
  | .closeNext _ | .endDrain => True
  | _ => False

-- From m, which is in the drain named, only that drain has gone on.
structure Draining (m : Managed B) (drain : Drain) (now : Managed B) : Prop where
  swept : Swept now
  sound : ∀ connection ∈ now.registry.connections, connection.session.fault = false
  going : ∀ d, now.drain = some d → d.force = drain.force ∧ d.closed ++ d.remaining = drain.closed ++ drain.remaining ∧
    now.drained = m.drained
  ended : now.drain = none → now.drained = m.drained ++ [⟨drain.force, drain.closed ++ drain.remaining, []⟩] ∧
    (drain.force = true → now.registry.sessions = ∅)

def Managed.left (m : Managed B) : Nat := m.drain.elim 0 fun drain => drain.remaining.length + 1

theorem drain_advances (m now : Managed B) (drain d : Drain) (draining : Draining m drain now) (here : now.drain = some d) :
    ∃ action next, OnlyDrains now action ∧ managedStep now action = some next ∧ Draining m drain next ∧ next.left < now.left := by
  obtain ⟨force, whole, past⟩ := draining.going d here
  cases remaining : d.remaining with
  | nil =>
      have taken : managedStep now .endDrain = some ⟨if d.force then now.registry.clear else now.registry, none, now.drained ++ [d]⟩ := by
        simp [managedStep, here, remaining]
      refine ⟨.endDrain, _, trivial, taken, ⟨managed_step_swept _ _ _ draining.swept taken, ?_, by simp, ?_⟩, ?_⟩
      · intro connection member
        apply draining.sound connection
        dsimp only at member
        split at member <;> exact member
      · intro _
        rw [remaining, List.append_nil] at whole
        refine ⟨?_, fun forced => ?_⟩
        · rw [past, ← whole, ← force]
          cases d
          simp_all
        · rw [if_pos (force.trans forced)]
          rfl
      · simp [Managed.left, here]
  | cons c rest =>
      have listed : c ∈ now.registry.all :=
        (draining.swept.going d here).1.subset (List.mem_append_right _ (by rw [remaining]; exact List.mem_cons_self))
      obtain ⟨id, stored⟩ := (all_mem now.registry c).mp listed
      obtain ⟨connection, found, _⟩ := draining.swept.listed id c stored
      have sound := draining.sound connection (List.mem_of_getElem? found)
      let inline : Session.Inline := ⟨false, false⟩
      have moved : Session.step connection.session (.close d.force inline) = some (connection.session.close d.force inline) := by
        simp [Session.step, sound]
      have taken : managedStep now (.closeNext inline) =
          some { now with registry := now.registry.update c { connection with session := connection.session.close d.force inline }
                          drain := some { d with closed := d.closed ++ [c], remaining := rest } } := by
        simp [managedStep, here, remaining, found, moved]
      refine ⟨.closeNext inline, _, trivial, taken, ⟨managed_step_swept _ _ _ draining.swept taken, ?_, ?_, by simp⟩, ?_⟩
      · have still := (Session.step_steady _ _ _ rfl moved).fault
        exact Tally.forall_mem_set (fun connection : Connection B => connection.session.fault = false) _ c _ draining.sound (still.trans sound)
      · intro next same
        obtain rfl := Option.some.inj same
        rw [remaining] at whole
        exact ⟨force, by rw [← whole]; simp, past⟩
      · simp [Managed.left, here, remaining]

theorem drain_ends (m : Managed B) (drain : Drain) (swept : Swept m) (here : m.drain = some drain)
    (sound : ∀ connection ∈ m.registry.connections, connection.session.fault = false) :
    ∃ final, Machine.Reachable managedStep OnlyDrains m final ∧ Draining m drain final ∧ final.drain = none := by
  have start : Draining m drain m := by
    refine ⟨swept, sound, ?_, fun none => ?_⟩
    · intro d same
      rw [here] at same
      obtain rfl := Option.some.inj same
      exact ⟨rfl, rfl, rfl⟩
    · rw [here] at none
      cases none
  obtain ⟨final, reachable, still, ended⟩ := Machine.reachable_goal (· < ·) Nat.lt_wfRel.wf managedStep OnlyDrains (Draining m drain)
    (fun now => Draining m drain now ∧ now.drain = none) Managed.left (by
      intro now draining unfinished
      cases busy : now.drain with
      | none => exact absurd ⟨draining, busy⟩ unfinished
      | some d => exact drain_advances m now drain d draining busy) m start
  exact ⟨final, reachable, still, ended⟩

theorem swept_nodup (m : Managed B) (swept : Swept m) : m.registry.all.Nodup := by
  rw [State.all, List.nodup_map_iff_inj_on]
  · intro a first b second same
    obtain ⟨c, found, left, _⟩ := swept.listed a.1 a.2 (AList.mem_lookup_iff.mpr first)
    obtain ⟨d, present, right, _⟩ := swept.listed b.1 b.2 (AList.mem_lookup_iff.mpr second)
    rw [same, present] at found
    have id : a.1 = b.1 := by rw [← left, ← right, Option.some.inj found]
    exact Sigma.ext id (heq_of_eq same)
  · exact (List.Pairwise.of_map Sigma.fst (fun _ _ apart same => apart (congrArg Sigma.fst same)) m.registry.sessions.nodupKeys)

-- A drain calls Close once on each session that is registered and on no other,
-- never waits for the mutex it holds, and can always finish. What it has closed
-- is flagged as soon as no Close is left to run, and what a forced drain has
-- closed is never found again.
theorem drain_reaches_all (guard : Managed B → ManagedAction B → Prop) (numChannels : Nat) (m : Managed B)
    (reachable : Machine.Reachable managedStep guard (constructManaged numChannels) m) :
    (∀ drain, m.drain = some drain → (drain.closed ++ drain.remaining).Nodup ∧
      (∀ c, c ∈ drain.closed ++ drain.remaining ↔ ∃ id, m.registry.get id = some c) ∧
      ∀ (c : Nat) (connection : Connection B), m.registry.connections[c]? = some connection → ∀ inline session,
        Session.step connection.session (.close drain.force inline) = some session →
          m.registry.locks (m.registry.update c { connection with session := session }) (.session c (.close drain.force inline)) = false) ∧
    (∀ drain ∈ m.drained, ∀ c ∈ drain.closed, ∃ connection, m.registry.connections[c]? = some connection ∧
      (drain.force ∉ connection.session.work → connection.session.Flagged drain.force) ∧
      (drain.force = true → ∀ id, m.registry.get id ≠ some c)) ∧
    ∀ drain, m.drain = some drain → (∀ connection ∈ m.registry.connections, connection.session.fault = false) →
      ∃ final, Machine.Reachable managedStep OnlyDrains m final ∧ final.drain = none ∧
        final.drained = m.drained ++ [⟨drain.force, drain.closed ++ drain.remaining, []⟩] ∧
        (drain.force = true → final.registry.sessions = ∅) := by
  have swept := reachable_swept guard numChannels m reachable
  refine ⟨?_, ?_, ?_⟩
  · intro drain here
    obtain ⟨perm, _⟩ := swept.going drain here
    refine ⟨perm.nodup_iff.mpr (swept_nodup m swept), fun c => perm.mem_iff.trans (all_mem m.registry c), ?_⟩
    intro c connection found inline session taken
    have bound := (List.getElem?_eq_some_iff.mp found).1
    simp [State.locks, State.update, List.getElem?_set_self bound, found, Session.close_disconnects _ _ _ inline taken]
  · intro drain member c inside
    obtain ⟨⟨connection, found, _, told⟩, cleared⟩ := swept.ended drain member c inside
    refine ⟨connection, found, fun unposted => ?_, cleared⟩
    rcases told with posted | ran
    · exact absurd posted unposted
    · exact swept.obedient c connection found drain.force ran
  · intro drain here sound
    obtain ⟨final, onward, still, ended⟩ := drain_ends m drain swept here sound
    obtain ⟨past, cleared⟩ := still.ended ended
    exact ⟨final, onward, ended, past, cleared⟩

-- The Close of the first session waits in its executor until the drain is over.
def drainOfTwo : List (ManagedAction Nat) :=
  [.registry (.accept true), .registry (.start 0), .registry (.register 0), .registry (.accept false), .registry (.start 1),
    .registry (.register 1), .close true [0, 1], .closeNext Session.posted, .closeNext Session.inlined, .endDrain,
    .registry (.session 0 (.runWork 0 Session.inlined))]

theorem drain_of_two_reaches_both :
    ∃ m : Managed Nat, Machine.Reachable managedStep (fun _ _ => True) (constructManaged 2) m ∧ m.drained = [⟨true, [0, 1], []⟩] ∧
      ∀ c ∈ [0, 1], ∃ connection, m.registry.connections[c]? = some connection ∧ connection.session.Flagged true ∧
        ∀ id, m.registry.get id ≠ some c := by
  obtain ⟨m, reachable, shown⟩ := Machine.run_exhibits managedStep (fun _ _ => True) (constructManaged 2) drainOfTwo
    (fun m => m.drained == [⟨true, [0, 1], []⟩] && m.registry.connections.all fun connection => !connection.session.work.contains true)
    (by decide)
  simp only [Bool.and_eq_true, beq_iff_eq, List.all_eq_true, Bool.not_eq_true', List.contains_eq_mem, decide_eq_false_iff_not] at shown
  refine ⟨m, reachable, shown.1, ?_⟩
  intro c member
  have past : (⟨true, [0, 1], []⟩ : Drain) ∈ m.drained := by rw [shown.1]; exact List.mem_cons_self
  obtain ⟨connection, found, flagged, cleared⟩ := (drain_reaches_all _ 2 m reachable).2.1 _ past c member
  exact ⟨connection, found, flagged (shown.2 connection (List.mem_of_getElem? found)), cleared rfl⟩

end Vectro.Registry
