import Mathlib.Data.List.AList
import Vectro.SessionTeardown

set_option autoImplicit false

namespace Vectro.Registry

open Vectro.Session (disconnects)

variable {B : Type}

-- How far OnSessionAccepted has come with a session.
inductive Accepting where
  | created
  | started
  | returned
deriving DecidableEq, Repr

-- channel is the one RegisterSession writes to the metadata of the session.
structure Connection (B : Type) where
  id : UInt64
  session : Session.State B
  channel : Option Nat
  accepting : Accepting

-- sessions_ holds the place of a session among all that were ever accepted.
structure State (B : Type) where
  idSeq : UInt64
  numChannels : Nat
  connections : List (Connection B)
  sessions : AList fun _ : UInt64 => Nat

def construct (numChannels : Nat) : State B where
  idSeq := 1
  numChannels := numChannels
  connections := []
  sessions := ∅

-- emplace keeps what is there already.
def State.add (s : State B) (id : UInt64) (c : Nat) : State B :=
  if id ∈ s.sessions then s else { s with sessions := s.sessions.insert id c }

def State.remove (s : State B) (id : UInt64) : State B := { s with sessions := s.sessions.erase id }

def State.get (s : State B) (id : UInt64) : Option Nat := s.sessions.lookup id

def State.update (s : State B) (c : Nat) (connection : Connection B) : State B :=
  { s with connections := s.connections.set c connection }

def State.registerSession (s : State B) (c : Nat) (connection : Connection B) : State B :=
  (s.update c { connection with channel := some (connection.id.toNat % s.numChannels), accepting := .returned }).add connection.id c

inductive Action (B : Type) where
  | accept (useWriteQueue : Bool)
  | start (c : Nat)
  | register (c : Nat)
  | session (c : Nat) (action : Session.Action B)

def isStart : Session.Action B → Bool
  | .start _ _ => true
  | _ => false

-- The accept handler takes an id, calls Start with both callbacks and calls
-- RegisterSession. From Start on the session runs by itself; in the step in
-- which it invokes on_disconnect_, its id is removed.
def step (s : State B) : Action B → Option (State B)
  | .accept useWriteQueue =>
      let connection : Connection B :=
        { id := s.idSeq, session := Session.construct useWriteQueue, channel := none, accepting := .created }
      some { s with idSeq := s.idSeq + 1, connections := s.connections ++ [connection] }
  | .start c =>
      (s.connections[c]?).bind fun connection =>
        if connection.accepting = .created then
          (Session.step connection.session (.start true true)).map fun session =>
            s.update c { connection with session := session, accepting := .started }
        else none
  | .register c =>
      (s.connections[c]?).bind fun connection =>
        if connection.accepting = .started then some (s.registerSession c connection) else none
  | .session c action =>
      (s.connections[c]?).bind fun connection =>
        if connection.accepting = .created ∨ isStart action = true then none
        else (Session.step connection.session action).map fun session =>
          let moved := s.update c { connection with session := session }
          if disconnects session.trace = disconnects connection.session.trace then moved else moved.remove connection.id

-- Who has been disconnected is not found any more.
def Unlisted (s : State B) : Prop :=
  ∀ c connection, s.connections[c]? = some connection → 0 < disconnects connection.session.trace →
    connection.accepting = .returned → s.get connection.id ≠ some c

-- A session does not come to its end before it is registered.
def RegisteredFirst (s : State B) : Action B → Prop
  | .session c action =>
      (s.connections[c]?).all (fun connection => !connection.session.ends action || connection.accepting == .returned) = true
  | _ => True

instance (s : State B) (action : Action B) : Decidable (RegisteredFirst s action) :=
  match action with
  | .session .. => inferInstanceAs (Decidable (_ = true))
  | .accept .. | .start .. | .register .. => isTrue trivial

structure Sound (s : State B) (c : Nat) (connection : Connection B) : Prop where
  marked : Session.Marked connection.session
  unreported : connection.accepting ≠ .returned → disconnects connection.session.trace = 0
  listed : ∀ id, s.get id = some c → id = connection.id ∧ connection.accepting = .returned ∧
    disconnects connection.session.trace = 0

structure Tidy (s : State B) : Prop where
  placed : ∀ id c, s.get id = some c → c < s.connections.length
  sound : ∀ c connection, s.connections[c]? = some connection → Sound s c connection

-- One connection changes, and the registry in what concerns it.
theorem tidy_update (s after : State B) (c : Nat) (old new : Connection B) (tidy : Tidy s) (found : s.connections[c]? = some old)
    (connections : after.connections = s.connections.set c new)
    (others : ∀ id d, d ≠ c → after.get id = some d → s.get id = some d) (sound : Sound after c new) : Tidy after := by
  obtain ⟨bound, _⟩ := List.getElem?_eq_some_iff.mp found
  refine ⟨?_, ?_⟩
  · intro id d stored
    rw [connections, List.length_set]
    by_cases same : d = c
    · rw [same]
      exact bound
    · exact tidy.placed id d (others id d same stored)
  · intro d connection present
    rw [connections] at present
    by_cases same : d = c
    · rw [same, List.getElem?_set_self bound] at present
      rw [same, ← Option.some.inj present]
      exact sound
    · rw [List.getElem?_set_ne (Ne.symm same)] at present
      have before := tidy.sound d connection present
      exact ⟨before.marked, before.unreported, fun id stored => before.listed id (others id d same stored)⟩

theorem tidy_accept (s : State B) (useWriteQueue : Bool) (idSeq : UInt64) (connection : Connection B) (tidy : Tidy s)
    (fresh : connection.session = Session.construct useWriteQueue) :
    Tidy { s with idSeq := idSeq, connections := s.connections ++ [connection] } := by
  refine ⟨?_, ?_⟩
  · intro id c stored
    rw [List.length_append]
    exact Nat.lt_add_right _ (tidy.placed id c stored)
  · intro c other present
    rcases Nat.lt_or_ge c s.connections.length with old | new
    · rw [List.getElem?_append_left old] at present
      have before := tidy.sound c other present
      exact ⟨before.marked, before.unreported, before.listed⟩
    · rw [List.getElem?_append_right new] at present
      have same : connection = other := List.mem_singleton.mp (List.mem_of_getElem? present) |>.symm
      rw [← same]
      refine ⟨fresh ▸ Session.construct_marked useWriteQueue, fun _ => by rw [fresh]; rfl, ?_⟩
      intro id stored
      exact absurd (tidy.placed id c stored) (Nat.not_lt_of_le new)

-- Start reports nothing.
theorem start_disconnects (session after : Session.State B) (onMessage onDisconnect : Bool) (marked : Session.Marked session)
    (taken : Session.step session (.start onMessage onDisconnect) = some after) :
    disconnects after.trace = disconnects session.trace := by
  rcases Session.step_teardown session after _ marked taken with kept | ⟨forces, _⟩ | ⟨ends, _⟩
  · exact kept.reports
  · cases forces
  · cases ends

theorem tidy_start (s : State B) (c : Nat) (connection : Connection B) (session : Session.State B) (tidy : Tidy s)
    (found : s.connections[c]? = some connection) (created : connection.accepting = .created)
    (taken : Session.step connection.session (.start true true) = some session) :
    Tidy (s.update c { connection with session := session, accepting := .started }) := by
  have before := tidy.sound c connection found
  have early : connection.accepting ≠ .returned := by
    rw [created]
    exact nofun
  have silent : disconnects session.trace = 0 :=
    (start_disconnects connection.session session true true before.marked taken).trans (before.unreported early)
  apply tidy_update s _ c connection { connection with session := session, accepting := .started } tidy found rfl
  · intro id d _ stored
    exact stored
  · refine ⟨Session.step_marked _ _ _ before.marked taken, fun _ => silent, ?_⟩
    intro id stored
    exact absurd (before.listed id stored).2.1 early

theorem add_get (s : State B) (id other : UInt64) (c d : Nat) (stored : (s.add id c).get other = some d) :
    s.get other = some d ∨ (other = id ∧ d = c) := by
  by_cases present : id ∈ s.sessions
  · rw [State.add, if_pos present] at stored
    exact .inl stored
  · rw [State.add, if_neg present] at stored
    by_cases same : other = id
    · have inserted : AList.lookup id (s.sessions.insert id c) = some d := same ▸ stored
      rw [AList.lookup_insert] at inserted
      exact .inr ⟨same, (Option.some.inj inserted).symm⟩
    · exact .inl ((AList.lookup_insert_ne same).symm.trans stored)

theorem add_connections (s : State B) (id : UInt64) (c : Nat) : (s.add id c).connections = s.connections := by
  rw [State.add]
  split <;> rfl

theorem tidy_register (s : State B) (c : Nat) (connection : Connection B) (tidy : Tidy s)
    (found : s.connections[c]? = some connection) (started : connection.accepting = .started) :
    Tidy (s.registerSession c connection) := by
  have before := tidy.sound c connection found
  have early : connection.accepting ≠ .returned := by
    rw [started]
    exact nofun
  apply tidy_update s _ c connection _ tidy found (add_connections _ _ _)
  · intro id d other stored
    rcases add_get _ connection.id id c d stored with kept | ⟨_, same⟩
    · exact kept
    · exact absurd same other
  · refine ⟨before.marked, fun _ => before.unreported early, ?_⟩
    intro id stored
    rcases add_get _ connection.id id c c stored with kept | ⟨same, _⟩
    · exact absurd (before.listed id kept).2.1 early
    · exact ⟨same, rfl, before.unreported early⟩

theorem remove_get (s : State B) (id other : UInt64) (d : Nat) (stored : (s.remove id).get other = some d) :
    other ≠ id ∧ s.get other = some d := by
  have apart : other ≠ id := by
    intro same
    have erased : AList.lookup id (s.sessions.erase id) = some d := same ▸ stored
    rw [AList.lookup_erase] at erased
    cases erased
  exact ⟨apart, (AList.lookup_erase_ne apart).symm.trans stored⟩

theorem tidy_session (s : State B) (c : Nat) (connection : Connection B) (action : Session.Action B) (session : Session.State B)
    (tidy : Tidy s) (found : s.connections[c]? = some connection)
    (registered : connection.session.ends action = true → connection.accepting = .returned)
    (taken : Session.step connection.session action = some session) :
    Tidy (if disconnects session.trace = disconnects connection.session.trace then s.update c { connection with session := session }
      else (s.update c { connection with session := session }).remove connection.id) := by
  have before := tidy.sound c connection found
  have marked := Session.step_marked _ _ _ before.marked taken
  by_cases silent : disconnects session.trace = disconnects connection.session.trace
  · rw [if_pos silent]
    apply tidy_update s _ c connection { connection with session := session } tidy found rfl
    · intro id d _ stored
      exact stored
    · refine ⟨marked, fun early => silent.trans (before.unreported early), ?_⟩
      intro id stored
      obtain ⟨same, returned, none⟩ := before.listed id stored
      exact ⟨same, returned, silent.trans none⟩
  · rw [if_neg silent]
    have ends : connection.session.ends action = true := by
      rcases Session.step_teardown _ _ action before.marked taken with kept | ⟨_, forced⟩ | ⟨ends, _⟩
      · exact absurd kept.reports silent
      · exact absurd forced.reports silent
      · exact ends
    apply tidy_update s _ c connection { connection with session := session } tidy found rfl
    · intro id d _ stored
      exact (remove_get _ connection.id id d stored).2
    · refine ⟨marked, fun early => absurd (registered ends) early, ?_⟩
      intro id stored
      obtain ⟨apart, kept⟩ := remove_get _ connection.id id c stored
      exact absurd (before.listed id kept).1 apart

theorem step_tidy (s after : State B) (action : Action B) (tidy : Tidy s) (first : RegisteredFirst s action)
    (taken : step s action = some after) : Tidy after := by
  cases action with
  | accept useWriteQueue =>
      obtain rfl := Option.some.inj taken
      exact tidy_accept s useWriteQueue _ _ tidy rfl
  | start c =>
      obtain ⟨connection, found, started⟩ := Option.bind_eq_some_iff.mp taken
      by_cases created : connection.accepting = .created
      · rw [if_pos created] at started
        obtain ⟨session, run, rfl⟩ := Option.map_eq_some_iff.mp started
        exact tidy_start s c connection session tidy found created run
      · rw [if_neg created] at started
        cases started
  | register c =>
      obtain ⟨connection, found, registered⟩ := Option.bind_eq_some_iff.mp taken
      by_cases started : connection.accepting = .started
      · rw [if_pos started] at registered
        obtain rfl := Option.some.inj registered
        exact tidy_register s c connection tidy found started
      · rw [if_neg started] at registered
        cases registered
  | session c action =>
      obtain ⟨connection, found, moved⟩ := Option.bind_eq_some_iff.mp taken
      by_cases early : connection.accepting = .created ∨ isStart action = true
      · rw [if_pos early] at moved
        cases moved
      · rw [if_neg early] at moved
        obtain ⟨session, run, rfl⟩ := Option.map_eq_some_iff.mp moved
        apply tidy_session s c connection action session tidy found _ run
        intro ends
        simpa [RegisteredFirst, found, ends] using first

theorem reachable_tidy (numChannels : Nat) (s : State B)
    (reachable : Machine.Reachable step RegisteredFirst (construct numChannels) s) : Tidy s := by
  apply Machine.reachable_invariant step RegisteredFirst (construct numChannels) Tidy _ _ s reachable
  · refine ⟨?_, ?_⟩
    · intro id c stored
      rw [State.get, construct, AList.lookup_empty] at stored
      cases stored
    · intro c connection found
      cases found
  · intro before action after _ tidy first taken
    exact step_tidy before after action tidy first taken

theorem no_dead_session_listed (numChannels : Nat) (s : State B)
    (reachable : Machine.Reachable step RegisteredFirst (construct numChannels) s) : Unlisted s := by
  intro c connection found reported _ stored
  have none := (((reachable_tidy numChannels s reachable).sound c connection found).listed connection.id stored).2.2
  omega

theorem no_dead_session_listed_failed :
    ∃ s : State Nat, Machine.Reachable step RegisteredFirst (construct 4) s ∧ s.connections.length = 2 ∧ s.get 1 = none ∧
      s.get 2 = some 1 ∧ Unlisted s := by
  obtain ⟨s, reachable, shown⟩ := Machine.run_exhibits step RegisteredFirst (construct 4)
    ([.accept false, .start 0, .register 0, .accept true, .session 0 (.readCompletes .failed Session.inlined), .start 1, .register 1] :
      List (Action Nat)) (fun s => decide (s.connections.length = 2 ∧ s.get 1 = none ∧ s.get 2 = some 1)) (by decide)
  obtain ⟨two, gone, kept⟩ := of_decide_eq_true shown
  exact ⟨s, reachable, two, gone, kept, no_dead_session_listed 4 s reachable⟩

-- The first read fails before the accept handler has got to RegisterSession:
-- the session removes itself, and is added afterwards.
theorem dead_session_listed :
    ¬ ∀ s : State Nat, Machine.Reachable step (fun _ _ => True) (construct 4) s → Unlisted s := by
  intro claimed
  obtain ⟨s, reachable, shown⟩ := Machine.run_exhibits step (fun _ _ => True) (construct 4)
    ([.accept false, .start 0, .session 0 (.readCompletes .failed Session.inlined), .register 0] : List (Action Nat))
    (fun s => (s.connections[0]?).any fun (connection : Connection Nat) => decide (0 < disconnects connection.session.trace ∧
      connection.accepting = .returned ∧ s.get connection.id = some 0)) (by decide)
  cases found : s.connections[0]? with
  | none => simp [found] at shown
  | some connection =>
      rw [found] at shown
      obtain ⟨reported, returned, listed⟩ := of_decide_eq_true shown
      exact claimed s reachable 0 connection found reported returned listed

end Vectro.Registry
