import Vectro.LineFramerRounds
import Vectro.SessionManager

set_option autoImplicit false

namespace Vectro.Registry

variable {B : Type}

-- A message on its way to RouteMessage. The metadata has a channel, and nobody
-- writes it: not the framer that builds the metadata, not the session that hands
-- the message over, not the callback OnSessionAccepted installs.
structure Message where
  message : Frame.InternalMessage
  channel : Option Nat
deriving DecidableEq

def delivered (message : Frame.InternalMessage) : Message := ⟨message, none⟩

-- A loop whose body may raise, and what it has brought about by then.
def untilRaised {Stage Input Problem : Type} (body : Stage → Input → Except Problem Stage) (stage : Stage) : List Input → Stage
  | [] => stage
  | input :: rest =>
      match body stage input with
      | .ok next => untilRaised body next rest
      | .error _ => stage

-- The messages a session hands over while it reads. A read that makes the framer
-- raise is its last.
def received (memory : Nat → UInt8) (reads : List Frame.Read) : List Frame.InternalMessage :=
  match Frame.construct memory with
  | .ok framer => (untilRaised Frame.Feed.round ⟨framer, []⟩ reads).messages
  | .error _ => []

-- The call of Dispatch on the inbound manager, with the id of the channel.
def routeMessage (onInbound : Option (Message → Bool)) (msg : Message) : Option (String × Message) :=
  match onInbound with
  | some hook => if hook msg then some (toString (msg.channel.getD 0), msg) else none
  | none => some (toString (msg.channel.getD 0), msg)

def passes (onInbound : Option (Message → Bool)) (message : Frame.InternalMessage) : Bool :=
  onInbound.all fun hook => hook (delivered message)

-- Every message that passes goes to the channel RegisterSession has assigned to
-- the session, which is its id modulo the number of channels.
def Sharded (numChannels : Nat) (connection : Connection B) (onInbound : Option (Message → Bool)) (messages : List Frame.InternalMessage) :
    Prop :=
  ∀ message ∈ messages, passes onInbound message = true →
    connection.channel = some (connection.id.toNat % numChannels) ∧
    routeMessage onInbound (delivered message) = some (toString (connection.id.toNat % numChannels), delivered message)

theorem route_passed (onInbound : Option (Message → Bool)) (message : Frame.InternalMessage)
    (passed : passes onInbound message = true) : routeMessage onInbound (delivered message) = some (toString 0, delivered message) := by
  cases onInbound with
  | none => rfl
  | some hook =>
      have kept : hook (delivered message) = true := passed
      rw [routeMessage, if_pos kept]
      rfl

theorem channel_name_injective (left right : Nat) (same : toString left = toString right) : left = right := by
  have digits : Nat.toDigits 10 left = Nat.toDigits 10 right := by
    rw [← Nat.toList_repr, ← Nat.toList_repr]
    exact congrArg String.toList same
  calc left = Nat.ofDigitChars 10 (Nat.toDigits 10 left) 0 := Nat.ofDigitChars_ten_toDigits.symm
    _ = Nat.ofDigitChars 10 (Nat.toDigits 10 right) 0 := by rw [digits]
    _ = right := Nat.ofDigitChars_ten_toDigits

structure Assigned (numChannels : Nat) (s : State B) : Prop where
  channels : s.numChannels = numChannels
  assigned : ∀ (c : Nat) (connection : Connection B), s.connections[c]? = some connection → connection.accepting = .returned →
    connection.channel = some (connection.id.toNat % numChannels)

theorem assigned_update (numChannels : Nat) (s after : State B) (c : Nat) (new : Connection B) (assigned : Assigned numChannels s)
    (channels : after.numChannels = s.numChannels) (connections : after.connections = s.connections.set c new)
    (returned : new.accepting = .returned → new.channel = some (new.id.toNat % numChannels)) : Assigned numChannels after := by
  refine ⟨channels.trans assigned.channels, ?_⟩
  intro d connection present
  rw [connections, List.getElem?_set] at present
  split at present
  · split at present
    · rw [← Option.some.inj present]
      exact returned
    · cases present
  · exact assigned.assigned d connection present

theorem step_assigned (numChannels : Nat) (s after : State B) (action : Action B) (assigned : Assigned numChannels s)
    (taken : step s action = some after) : Assigned numChannels after := by
  cases action with
  | accept useWriteQueue =>
      obtain rfl := Option.some.inj taken
      refine ⟨assigned.channels, ?_⟩
      intro c connection present returned
      rcases Nat.lt_or_ge c s.connections.length with old | new
      · rw [List.getElem?_append_left old] at present
        exact assigned.assigned c connection present returned
      · rw [List.getElem?_append_right new] at present
        rw [List.mem_singleton.mp (List.mem_of_getElem? present)] at returned
        cases returned
  | start c =>
      obtain ⟨connection, found, started⟩ := Option.bind_eq_some_iff.mp taken
      split at started
      · obtain ⟨session, _, rfl⟩ := Option.map_eq_some_iff.mp started
        exact assigned_update numChannels s _ c _ assigned rfl rfl nofun
      · cases started
  | register c =>
      obtain ⟨connection, found, registered⟩ := Option.bind_eq_some_iff.mp taken
      split at registered
      · obtain rfl := Option.some.inj registered
        apply assigned_update numChannels s _ c _ assigned _ (add_connections _ _ _)
        · intro _
          rw [assigned.channels]
        · rw [State.registerSession, State.add]
          split <;> rfl
      · cases registered
  | session c action =>
      obtain ⟨connection, found, moved⟩ := Option.bind_eq_some_iff.mp taken
      split at moved
      · cases moved
      · obtain ⟨session, _, rfl⟩ := Option.map_eq_some_iff.mp moved
        have before := assigned.assigned c connection found
        dsimp only
        split
        · exact assigned_update numChannels s _ c _ assigned rfl rfl before
        · exact assigned_update numChannels s _ c _ assigned rfl rfl before

theorem reachable_assigned (numChannels : Nat) (s : State B)
    (reachable : Machine.Reachable step (fun _ _ => True) (construct numChannels) s) : Assigned numChannels s := by
  apply Machine.reachable_invariant step (fun _ _ => True) (construct numChannels) (Assigned numChannels) _ _ s reachable
  · refine ⟨rfl, ?_⟩
    intro c connection found
    cases found
  · intro before action after _ assigned _ taken
    exact step_assigned numChannels before after action assigned taken

-- RouteMessage looks at the message, which has no channel: everything goes to
-- channel 0, and only sessions whose own channel is 0 get what was meant.
theorem sharded_iff (numChannels : Nat) (_ : 1 ≤ numChannels) (s : State B)
    (reachable : Machine.Reachable step (fun _ _ => True) (construct numChannels) s) (c : Nat) (connection : Connection B)
    (found : s.connections[c]? = some connection) (returned : connection.accepting = .returned)
    (onInbound : Option (Message → Bool)) (memory : Nat → UInt8) (reads : List Frame.Read) :
    Sharded numChannels connection onInbound (received memory reads) ↔
      connection.id.toNat % numChannels = 0 ∨ ∀ message ∈ received memory reads, passes onInbound message = false := by
  have channel := (reachable_assigned numChannels s reachable).assigned c connection found returned
  constructor
  · intro sharded
    by_cases zero : connection.id.toNat % numChannels = 0
    · exact .inl zero
    · refine .inr fun message member => ?_
      by_contra passed
      have passed : passes onInbound message = true := eq_true_of_ne_false passed
      have routed := (sharded message member passed).2
      rw [route_passed onInbound message passed] at routed
      exact zero (channel_name_injective _ _ (congrArg Prod.fst (Option.some.inj routed))).symm
  · rintro (zero | none) message member passed
    · refine ⟨channel, ?_⟩
      rw [zero, route_passed onInbound message passed]
    · exact absurd (passed.symm.trans (none message member)) (by decide)

theorem until_raised_never {Stage Input Problem : Type} (body : Stage → Input → Except Problem Stage) (inputs : List Input)
    (stage final : Stage) (ran : inputs.foldlM body stage = .ok final) : untilRaised body stage inputs = final := by
  induction inputs generalizing stage with
  | nil => exact Except.ok.inj ran
  | cons input rest ih =>
      rw [List.foldlM_cons] at ran
      rw [untilRaised]
      cases result : body stage input with
      | error raised =>
          rw [result] at ran
          cases ran
      | ok next =>
          rw [result] at ran
          exact ih next ran

theorem received_run (memory : Nat → UInt8) (reads : List Frame.Read) (feed : Frame.Feed) (ran : Frame.run memory reads = .ok feed) :
    received memory reads = feed.messages := by
  obtain ⟨framer, made, _, _⟩ := Frame.construct_ok memory
  rw [Frame.run, made, Frame.ok_bind] at ran
  have all := until_raised_never Frame.Feed.round _ _ feed ran
  simp only [received, made, all]

-- A session that sends one line.
theorem one_line_received : ∃ message, received (fun _ => 0) [Frame.quiet [97, 10]] = [message] := by
  have filled : Frame.NoEmptyLine (Frame.stream [Frame.quiet [97, 10]]) := by
    rw [Frame.NoEmptyLine]
    decide
  obtain ⟨feed, reached, framed, _⟩ := Frame.run_frames (fun _ => 0) [Frame.quiet [97, 10]] filled
    (Frame.ended_reads_append (fun _ => 0) [] (Frame.quiet [97, 10]) (by rw [Frame.NoEmptyLine]; decide) (by decide) (by decide))
  have payloads : (Frame.payloads feed.messages).length = 1 := by
    rw [((Frame.framed_iff _ _).mp framed).1]
    rfl
  rw [Frame.payloads, List.length_map] at payloads
  rw [received_run _ _ feed reached]
  exact List.length_eq_one_iff.mp payloads

theorem accepted_session (numChannels : Nat) :
    ∃ (s : State Nat) (connection : Connection Nat), Machine.Reachable step (fun _ _ => True) (construct numChannels) s ∧
      s.connections[0]? = some connection ∧ connection.id = 1 ∧ connection.accepting = .returned := by
  obtain ⟨s, reachable, shown⟩ := Machine.run_exhibits step (fun _ _ => True) (construct numChannels)
    ([.accept false, .start 0, .register 0] : List (Action Nat))
    (fun s => (s.connections[0]?).any fun (connection : Connection Nat) =>
      decide (connection.id = 1 ∧ connection.accepting = .returned)) (by rfl)
  cases found : s.connections[0]? with
  | none => simp [found] at shown
  | some connection =>
      rw [found] at shown
      obtain ⟨first, returned⟩ := of_decide_eq_true shown
      exact ⟨s, connection, reachable, found, first, returned⟩

theorem sharded_iff_one_channel :
    ∃ (s : State Nat) (connection : Connection Nat), Machine.Reachable step (fun _ _ => True) (construct 1) s ∧
      s.connections[0]? = some connection ∧ connection.id = 1 ∧
      Sharded 1 connection none (received (fun _ => 0) [Frame.quiet [97, 10]]) := by
  obtain ⟨s, connection, reachable, found, first, returned⟩ := accepted_session 1
  have sharded := sharded_iff 1 (by decide) s reachable 0 connection found returned none (fun _ => 0) [Frame.quiet [97, 10]]
  exact ⟨s, connection, reachable, found, first, sharded.mpr (.inl (Nat.mod_one _))⟩

-- The first session of a controller with four channels belongs to channel 1, and
-- its line goes to channel 0.
theorem first_session_misrouted :
    ¬ ∀ (s : State Nat) (c : Nat) (connection : Connection Nat), Machine.Reachable step (fun _ _ => True) (construct 4) s →
      s.connections[c]? = some connection → connection.accepting = .returned →
      Sharded 4 connection none (received (fun _ => 0) [Frame.quiet [97, 10]]) := by
  intro claimed
  obtain ⟨s, connection, reachable, found, first, returned⟩ := accepted_session 4
  obtain ⟨message, only⟩ := one_line_received
  have sharded := claimed s 0 connection reachable found returned
  rw [only] at sharded
  have routed := (sharded message (List.mem_singleton_self _) rfl).2
  rw [route_passed none message rfl, first] at routed
  exact absurd (channel_name_injective _ _ (congrArg Prod.fst (Option.some.inj routed))) (by decide)

end Vectro.Registry
