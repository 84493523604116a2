import Mathlib.Data.List.Forall2
import Vectro.AcceptorStopping
import Vectro.TcpServer

set_option autoImplicit false

namespace Vectro.Listening

variable {B P C E : Type}

-- A call of the server on a loop, dispatched to the strand of the loop.
inductive Posted where
  | firstAccept
  | stop
  | enableDraining (enable : Bool)
deriving DecidableEq, Repr

structure Loop (E : Type) where
  acceptor : Acceptor.State E
  posted : List Posted
deriving DecidableEq

def Loop.post (loop : Loop E) (call : Posted) : Loop E := { loop with posted := loop.posted ++ [call] }

-- A new loop, from its constructor to the end of its Start. The server gives it
-- no filter.
def launched (shuttingDown : Bool) : Loop E :=
  let made : Loop E := { acceptor := { Acceptor.construct false with starting := .dispatched }, posted := [] }
  (if shuttingDown then made.post (.enableDraining true) else made).post .firstAccept

def Posted.action (now : Int) : Posted → Acceptor.Action E
  | .firstAccept => .firstAccept
  | .stop => .stop
  | .enableDraining enable => .enableDraining enable now

-- The strand runs what was dispatched to it in order. The handlers of the
-- accepts and of their timers come in between.
inductive Work (E : Type) where
  | run (now : Int)
  | completes (accept : Nat) (error : Bool)
  | expires (accept : Nat)
  | acceptHandler (accept : Nat) (remote : Option E) (answer : Bool)
  | timerHandler (accept : Nat)
deriving DecidableEq

def Loop.turn (loop : Loop E) (action : Acceptor.Action E) : Option (Loop E) :=
  (Acceptor.step loop.acceptor action).map fun acceptor => { loop with acceptor := acceptor }

def Loop.step (loop : Loop E) : Work E → Option (Loop E)
  | .run now =>
      match loop.posted with
      | [] => none
      | call :: rest => { loop with posted := rest }.turn (call.action now)
  | .completes i error => loop.turn (.completes i error)
  | .expires i => loop.turn (.expires i)
  | .acceptHandler i remote answer => loop.turn (.acceptHandler i remote answer)
  | .timerHandler i => loop.turn (.timerHandler i)

structure State (B P C E : Type) where
  server : Server.State B P C
  loops : List (Loop E)

def construct : State B P C E where
  server := Server.construct
  loops := []

def State.each (s : State B P C E) (call : Posted) : List (Loop E) :=
  s.server.acceptors.entries.foldl (fun loops entry => loops.modify entry.2 fun loop => loop.post call) s.loops

-- What a call of the server does to the loops it has made.
def State.calls (tls : Bool) (s : State B P C E) : Server.Action B P C → List (Loop E)
  | .addPort _ => s.loops
  | .removePort port =>
      match s.server.acceptors.lookup port with
      | some l => s.loops.modify l fun loop => loop.post .stop
      | none => s.loops
  | .start getContext => s.loops ++ (Server.walked tls getContext s.server.ports).map fun _ => launched s.server.shuttingDown
  | .stop _ => s.each .stop
  | .enableDrainingMode enable => s.each (.enableDraining enable)

inductive Action (B P C E : Type) where
  | server (call : Server.Action B P C)
  | loop (l : Nat) (work : Work E)

def step (tls : Bool) (s : State B P C E) : Action B P C E → Option (State B P C E)
  | .server call => (Server.step tls s.server call).map fun server => { server := server, loops := s.calls tls call }
  | .loop l work => (s.loops[l]?).bind fun loop => (loop.step work).map fun after => { s with loops := s.loops.set l after }

def Apart (tls : Bool) (s : State B P C E) : Action B P C E → Prop
  | .server call => Server.Apart tls s.server call
  | .loop .. => True

instance (tls : Bool) (s : State B P C E) (action : Action B P C E) : Decidable (Apart tls s action) :=
  match action with
  | .server call => inferInstanceAs (Decidable (Server.Apart tls s.server call))
  | .loop .. => isTrue trivial

-- Only the strands work: nobody calls the server, nobody connects and no timer
-- has to expire.
def Work.Own : Work E → Prop
  | .run _ | .acceptHandler .. | .timerHandler _ => True
  | .completes .. | .expires _ => False

def Strands (_ : State B P C E) : Action B P C E → Prop
  | .server _ => False
  | .loop _ work => work.Own

def drained (draining : Bool) : Posted → Bool
  | .enableDraining enable => enable
  | _ => draining

-- The server has counted a call from the moment it made it; the loop has heard of
-- it when its strand got there.
structure Agrees (told draining : Bool) (loop : Loop E) : Prop where
  reachable : Machine.Reachable Acceptor.step (fun _ _ => True) (Acceptor.construct false) loop.acceptor
  stopped : told = (loop.acceptor.stopped || decide (.stop ∈ loop.posted))
  drains : draining = loop.posted.foldl drained loop.acceptor.draining
  first : loop.posted.count .firstAccept = if loop.acceptor.starting = .dispatched then 1 else 0

-- The strand has nothing left to run, and no handler holds the loop.
structure Loop.Gone (loop : Loop E) : Prop where
  ran : loop.posted = []
  stopped : loop.acceptor.stopped = true
  released : loop.acceptor.holders = 0

structure Mirrors (known : Server.AcceptorLoop B C) (loop : Loop E) : Prop where
  started : known.started = true
  agrees : Agrees known.stopped known.draining loop

def Matched (s : State B P C E) : Prop := List.Forall₂ Mirrors s.server.loops s.loops

section Pairs

variable {α β : Type} {R : α → β → Prop}

theorem forall₂_modify (first : List α) (second : List β) (i : Nat) (f : α → α) (g : β → β)
    (related : List.Forall₂ R first second) (kept : ∀ a b, R a b → R (f a) (g b)) :
    List.Forall₂ R (first.modify i f) (second.modify i g) := by
  induction related generalizing i with
  | nil => cases i <;> exact .nil
  | cons head tail ih =>
      cases i with
      | zero => exact .cons (kept _ _ head) tail
      | succ i => exact .cons head (ih i)

theorem forall₂_lookup (first : List α) (second : List β) (i : Nat) (b : β) (related : List.Forall₂ R first second)
    (found : second[i]? = some b) : ∃ a, first[i]? = some a ∧ R a b := by
  induction related generalizing i with
  | nil => cases found
  | cons head tail ih =>
      cases i with
      | zero =>
          obtain rfl := Option.some.inj found
          exact ⟨_, rfl, head⟩
      | succ i => exact ih i found

theorem forall₂_set (first : List α) (second : List β) (i : Nat) (a : α) (b : β) (related : List.Forall₂ R first second)
    (found : first[i]? = some a) (kept : R a b) : List.Forall₂ R first (second.set i b) := by
  induction related generalizing i with
  | nil => exact .nil
  | cons head tail ih =>
      cases i with
      | zero =>
          obtain rfl := Option.some.inj found
          exact .cons kept tail
      | succ i => exact .cons head (ih i found)

end Pairs

-- The handlers of an accept and of its timer.
def Handles : Acceptor.Action E → Prop
  | .completes .. | .expires _ | .acceptHandler .. | .timerHandler _ => True
  | _ => False

theorem do_accept_draining (s : Acceptor.State E) : s.doAccept.draining = s.draining := by
  rw [Acceptor.State.doAccept]
  split <;> rfl

theorem accept_handler_draining (s : Acceptor.State E) (i : Nat) (error : Bool) (remote : Option E) (answer : Bool) :
    (s.acceptHandler i error remote answer).draining = s.draining := by
  have admits : ∀ (logged : Acceptor.State E) (passed : Bool),
      (logged.admitRemote i error remote passed).draining = logged.draining := by
    intro logged passed
    unfold Acceptor.State.admitRemote
    repeat' split
    all_goals rfl
  rw [Acceptor.State.acceptHandler]
  by_cases stopped : s.stopped = true
  · rw [if_pos stopped]
    rfl
  · rw [if_neg stopped, do_accept_draining, admits]
    rfl

theorem handler_draining (s after : Acceptor.State E) (action : Acceptor.Action E) (own : Handles action)
    (taken : Acceptor.step s action = some after) : after.draining = s.draining := by
  cases action with
  | start | firstAccept | enableDraining | setDrainCallback | stop => exact own.elim
  | completes i error =>
      obtain ⟨accept, _, matched⟩ := Option.bind_eq_some_iff.mp taken
      split at matched
      · obtain rfl := Option.some.inj matched
        rfl
      · cases matched
  | expires i =>
      obtain ⟨accept, _, matched⟩ := Option.bind_eq_some_iff.mp taken
      split at matched
      · obtain rfl := Option.some.inj matched
        rfl
      · cases matched
  | acceptHandler i remote answer =>
      obtain ⟨accept, _, matched⟩ := Option.bind_eq_some_iff.mp taken
      split at matched
      · obtain rfl := Option.some.inj matched
        exact accept_handler_draining _ i _ remote answer
      · cases matched
  | timerHandler i =>
      obtain ⟨accept, _, matched⟩ := Option.bind_eq_some_iff.mp taken
      split at matched
      · obtain rfl := Option.some.inj matched
        rfl
      · obtain rfl := Option.some.inj matched
        rfl
      · cases matched

theorem handler_flags (s after : Acceptor.State E) (action : Acceptor.Action E) (own : Handles action)
    (taken : Acceptor.step s action = some after) : after.stopped = s.stopped ∧ after.starting = s.starting := by
  cases Acceptor.step_moves s after action taken with
  | start | firstAccept | stop => exact own.elim
  | completes _ _ _ _ _ _ flag starting => exact ⟨flag, starting⟩
  | expires _ _ _ _ _ flag starting => exact ⟨flag, starting⟩
  | acceptHandler _ _ _ _ _ _ _ flag starting _ => exact ⟨flag, starting⟩
  | expired _ _ _ _ _ flag starting => exact ⟨flag, starting⟩
  | aborted _ _ _ _ _ flag starting => exact ⟨flag, starting⟩
  | aside _ _ flag starting _ => exact ⟨flag, starting⟩

theorem turn_agrees (told draining : Bool) (loop after : Loop E) (action : Acceptor.Action E) (own : Handles action)
    (agrees : Agrees told draining loop) (taken : loop.turn action = some after) : Agrees told draining after := by
  obtain ⟨acceptor, ran, rfl⟩ := Option.map_eq_some_iff.mp taken
  obtain ⟨flag, starting⟩ := handler_flags loop.acceptor acceptor action own ran
  have drains := handler_draining loop.acceptor acceptor action own ran
  exact {
    reachable := .step loop.acceptor acceptor action agrees.reachable trivial ran
    stopped := by rw [flag]; exact agrees.stopped
    drains := by rw [drains]; exact agrees.drains
    first := by rw [starting]; exact agrees.first }

-- The accept that a call may issue has two handlers; the dispatched one is gone.
theorem call_holders (s after : Acceptor.State E) (call : Posted) (now : Int)
    (taken : Acceptor.step s (call.action now) = some after) : after.holders ≤ s.holders + 1 := by
  cases call with
  | firstAccept =>
      cases Acceptor.step_moves s after .firstAccept taken with
      | firstAccept flag dispatched begun accepts =>
          rw [Acceptor.State.holders, Acceptor.State.holders, accepts, dispatched, begun]
          by_cases stopped : s.stopped = true
          · rw [if_pos stopped, if_neg (by decide), if_pos rfl]
            omega
          · rw [if_neg stopped, Tally.total_append, if_neg (by decide), if_pos rfl]
            exact Nat.le_refl _
      | aside _ _ _ _ other => exact absurd trivial other
  | stop =>
      obtain rfl := Option.some.inj taken
      have held : s.stop.holders = s.holders :=
        congrArg (· + _) (Tally.total_map Acceptor.Accept.holders Acceptor.Accept.cancel Acceptor.cancel_holders s.accepts)
      omega
  | enableDraining enable =>
      obtain rfl := Option.some.inj taken
      have held : (s.enableDraining enable now).holders = s.holders := by
        rw [Acceptor.State.enableDraining]
        split <;> rfl
      omega

-- The strand can always run the call it has come to.
theorem call_agrees (told draining : Bool) (loop : Loop E) (call : Posted) (rest : List Posted) (now : Int)
    (posted : loop.posted = call :: rest) (agrees : Agrees told draining loop) :
    ∃ acceptor, Acceptor.step loop.acceptor (call.action now) = some acceptor ∧ Agrees told draining ⟨acceptor, rest⟩ := by
  have stopped := agrees.stopped
  have drains := agrees.drains
  have first := agrees.first
  rw [posted] at stopped drains first
  cases call with
  | firstAccept =>
      rw [List.count_cons_self] at first
      have dispatched : loop.acceptor.starting = .dispatched := by
        by_contra other
        rw [if_neg other] at first
        exact Nat.succ_ne_zero _ first
      rw [if_pos dispatched] at first
      have ran : Acceptor.step loop.acceptor .firstAccept = some { loop.acceptor with starting := .begun }.doAccept := by
        rw [Acceptor.step, dispatched]
      have flags : { loop.acceptor with starting := .begun }.doAccept.stopped = loop.acceptor.stopped ∧
          { loop.acceptor with starting := .begun }.doAccept.starting = .begun := by
        rw [Acceptor.State.doAccept]
        split <;> exact ⟨rfl, rfl⟩
      refine ⟨_, ran, ?_⟩
      exact {
        reachable := .step _ _ _ agrees.reachable trivial ran
        stopped := by rw [flags.1]; simpa using stopped
        drains := by rw [do_accept_draining]; exact drains
        first := by rw [flags.2]; exact Nat.succ.inj first }
  | stop =>
      refine ⟨_, rfl, ?_⟩
      rw [List.count_cons_of_ne (by decide)] at first
      exact {
        reachable := .step _ _ .stop agrees.reachable trivial rfl
        stopped := by rw [stopped]; simp [Acceptor.State.stop, Acceptor.State.log]
        drains := drains
        first := first }
  | enableDraining enable =>
      have set : (loop.acceptor.enableDraining enable now).draining = enable ∧
          (loop.acceptor.enableDraining enable now).stopped = loop.acceptor.stopped ∧
          (loop.acceptor.enableDraining enable now).starting = loop.acceptor.starting := by
        rw [Acceptor.State.enableDraining]
        split <;> exact ⟨rfl, rfl, rfl⟩
      obtain ⟨enabled, flag, starting⟩ := set
      refine ⟨_, rfl, ?_⟩
      rw [List.count_cons_of_ne (by simp)] at first
      exact {
        reachable := .step _ _ (.enableDraining enable now) agrees.reachable trivial rfl
        stopped := by rw [flag]; simpa using stopped
        drains := by rw [enabled]; exact drains
        first := by rw [starting]; exact first }

theorem work_agrees (told draining : Bool) (loop after : Loop E) (work : Work E) (agrees : Agrees told draining loop)
    (taken : loop.step work = some after) : Agrees told draining after := by
  cases work with
  | run now =>
      rw [Loop.step] at taken
      split at taken
      · cases taken
      · rename_i call rest posted
        obtain ⟨acceptor, ran, kept⟩ := call_agrees told draining loop call rest now posted agrees
        rw [Loop.turn, ran] at taken
        obtain rfl := Option.some.inj taken
        exact kept
  | completes i error => exact turn_agrees told draining loop after (.completes i error) trivial agrees taken
  | expires i => exact turn_agrees told draining loop after (.expires i) trivial agrees taken
  | acceptHandler i remote answer => exact turn_agrees told draining loop after (.acceptHandler i remote answer) trivial agrees taken
  | timerHandler i => exact turn_agrees told draining loop after (.timerHandler i) trivial agrees taken

-- Told to stop, a loop gets there by the work of its own strand: it runs the calls
-- first and the handlers that are left after them.
theorem told_goes (draining : Bool) (loop : Loop E) (agrees : Agrees true draining loop) :
    ∃ final, Machine.Reachable Loop.step (fun _ work => work.Own) loop final ∧ final.Gone := by
  apply Machine.reachable_goal (· < ·) Nat.lt_wfRel.wf Loop.step (fun _ work => work.Own) (fun loop => Agrees true draining loop)
    (fun loop => loop.Gone) (fun loop => 2 * loop.posted.length + loop.acceptor.holders) _ loop agrees
  intro before kept left
  cases posted : before.posted with
  | cons call rest =>
      obtain ⟨acceptor, ran, agree⟩ := call_agrees true draining before call rest 0 posted kept
      have held := call_holders before.acceptor acceptor call 0 ran
      refine ⟨.run 0, ⟨acceptor, rest⟩, trivial, by rw [Loop.step, posted]; simp [Loop.turn, ran], agree, ?_⟩
      rw [List.length_cons]
      change 2 * rest.length + acceptor.holders < _
      omega
  | nil =>
      have stopped : before.acceptor.stopped = true := by
        have told := kept.stopped
        rw [posted] at told
        simpa using told.symm
      have undispatched : before.acceptor.starting ≠ .dispatched := by
        intro dispatched
        have first := kept.first
        rw [posted, if_pos dispatched] at first
        cases first
      have held : before.acceptor.holders ≠ 0 := fun released => left ⟨posted, stopped, released⟩
      obtain ⟨action, acceptor, runs, ran⟩ := Acceptor.stopped_advances before.acceptor stopped
        (Acceptor.reachable_watched false before.acceptor kept.reachable) held
      have lowered := (Acceptor.stopped_settles before.acceptor acceptor action stopped ran).lowered runs
      have turned : before.turn action = some { before with acceptor := acceptor } := by rw [Loop.turn, ran]; rfl
      have fewer : 2 * before.posted.length + acceptor.holders < 2 * ([] : List Posted).length + before.acceptor.holders := by
        rw [posted]
        omega
      cases action with
      | start | completes | expires | enableDraining | setDrainCallback | stop => exact runs.elim
      | firstAccept =>
          cases Acceptor.step_moves before.acceptor acceptor .firstAccept ran with
          | firstAccept _ dispatched _ _ => exact absurd dispatched undispatched
          | aside _ _ _ _ other => exact absurd trivial other
      | acceptHandler i remote answer =>
          have agree := work_agrees true draining before _ (.acceptHandler i remote answer) kept turned
          exact ⟨.acceptHandler i remote answer, _, trivial, turned, agree, fewer⟩
      | timerHandler i =>
          have agree := work_agrees true draining before _ (.timerHandler i) kept turned
          exact ⟨.timerHandler i, _, trivial, turned, agree, fewer⟩

theorem post_stop_mirrors (known : Server.AcceptorLoop B C) (loop : Loop E) (mirrors : Mirrors known loop) :
    Mirrors known.stop (loop.post .stop) where
  started := mirrors.started
  agrees := {
    reachable := mirrors.agrees.reachable
    stopped := by simp [Loop.post, Server.AcceptorLoop.stop]
    drains := by rw [Loop.post, List.foldl_append]; exact mirrors.agrees.drains
    first := by rw [Loop.post, List.count_append]; exact mirrors.agrees.first }

theorem post_draining_mirrors (enable : Bool) (known : Server.AcceptorLoop B C) (loop : Loop E) (mirrors : Mirrors known loop) :
    Mirrors (known.enableDraining enable) (loop.post (.enableDraining enable)) where
  started := mirrors.started
  agrees := {
    reachable := mirrors.agrees.reachable
    stopped := by
      have told := mirrors.agrees.stopped
      simpa [Loop.post, Server.AcceptorLoop.enableDraining] using told
    drains := by rw [Loop.post, List.foldl_append]; rfl
    first := by
      rw [Loop.post, List.count_append, List.count_singleton]
      simpa using mirrors.agrees.first }

theorem launched_agrees (shuttingDown : Bool) : Agrees false shuttingDown (launched shuttingDown : Loop E) := by
  have reachable : Machine.Reachable Acceptor.step (fun _ _ => True) (Acceptor.construct false : Acceptor.State E)
      { Acceptor.construct false with starting := .dispatched } := .step _ _ .start .start trivial rfl
  cases shuttingDown <;> exact ⟨reachable, rfl, rfl, rfl⟩

theorem walk_matched (tls : Bool) (getContext : P → Option C) (ports : List (Server.PortConfig B P)) (server : Server.State B P C)
    (loops : List (Loop E)) (matched : Matched ⟨server, loops⟩) :
    Matched ⟨(server.walk tls getContext ports).1,
      loops ++ (Server.walked tls getContext ports).map fun _ => launched server.shuttingDown⟩ := by
  induction ports generalizing server loops with
  | nil => simpa [Server.State.walk, Server.walked] using matched
  | cons cfg rest ih =>
      rw [Server.State.walk]
      cases given : Server.context tls getContext cfg with
      | error raised =>
          have none : Server.walked tls getContext (cfg :: rest) = [] :=
            List.takeWhile_cons_of_neg (by rw [given]; exact Bool.false_ne_true)
          rw [none, List.map_nil, List.append_nil]
          exact matched
      | ok ctx =>
          have first : Server.walked tls getContext (cfg :: rest) = cfg :: Server.walked tls getContext rest :=
            List.takeWhile_cons_of_pos (by rw [given]; rfl)
          have grown : Matched ⟨server.launch cfg ctx, loops ++ [launched server.shuttingDown]⟩ := by
            apply List.rel_append matched
            have fresh := launched_agrees (E := E) server.shuttingDown
            refine .cons ?_ .nil
            cases down : server.shuttingDown
            · exact ⟨rfl, by rw [down] at fresh; exact fresh⟩
            · exact ⟨rfl, by rw [down] at fresh; exact fresh⟩
          have later := ih (server.launch cfg ctx) (loops ++ [launched server.shuttingDown]) grown
          rw [first, List.map_cons, List.append_cons]
          exact later

theorem each_matched (entries : List ((_ : Server.Port) × Nat)) (change : Server.AcceptorLoop B C → Server.AcceptorLoop B C)
    (call : Posted) (known : List (Server.AcceptorLoop B C)) (loops : List (Loop E))
    (matched : List.Forall₂ Mirrors known loops)
    (kept : ∀ (known : Server.AcceptorLoop B C) (loop : Loop E), Mirrors known loop → Mirrors (change known) (loop.post call)) :
    List.Forall₂ Mirrors
      (entries.foldl (fun known entry => known.modify entry.2 change) known)
      (entries.foldl (fun loops entry => loops.modify entry.2 fun loop => loop.post call) loops) := by
  induction entries generalizing known loops with
  | nil => exact matched
  | cons entry rest ih => exact ih _ _ (forall₂_modify known loops entry.2 change (fun loop => loop.post call) matched kept)

theorem call_matched (tls : Bool) (s : State B P C E) (call : Server.Action B P C) (server : Server.State B P C)
    (matched : Matched s) (taken : Server.step tls s.server call = some server) : Matched ⟨server, s.calls tls call⟩ := by
  cases call with
  | addPort cfg =>
      obtain rfl := Option.some.inj taken
      exact matched
  | removePort port =>
      obtain rfl := Option.some.inj taken
      rw [Matched, State.calls, Server.State.removePort]
      cases s.server.acceptors.lookup port with
      | none => exact matched
      | some l => exact forall₂_modify _ _ l _ _ matched post_stop_mirrors
  | start getContext =>
      obtain rfl := Option.some.inj taken
      exact walk_matched tls getContext s.server.ports s.server s.loops matched
  | stop force =>
      obtain rfl := Option.some.inj taken
      exact each_matched _ _ _ _ _ matched post_stop_mirrors
  | enableDrainingMode enable =>
      obtain rfl := Option.some.inj taken
      exact each_matched _ _ _ _ _ matched (post_draining_mirrors enable)

theorem step_matched (tls : Bool) (s after : State B P C E) (action : Action B P C E) (matched : Matched s)
    (taken : step tls s action = some after) : Matched after := by
  cases action with
  | server call =>
      obtain ⟨server, ran, rfl⟩ := Option.map_eq_some_iff.mp taken
      exact call_matched tls s call server matched ran
  | loop l work =>
      obtain ⟨loop, found, worked⟩ := Option.bind_eq_some_iff.mp taken
      obtain ⟨turned, ran, rfl⟩ := Option.map_eq_some_iff.mp worked
      obtain ⟨known, place, mirrors⟩ := forall₂_lookup s.server.loops s.loops l loop matched found
      exact forall₂_set s.server.loops s.loops l known turned matched place
        ⟨mirrors.started, work_agrees known.stopped known.draining loop turned work mirrors.agrees ran⟩

theorem reachable_matched (tls : Bool) (s : State B P C E) (reachable : Machine.Reachable (step tls) (Apart tls) construct s) :
    Matched s := by
  apply Machine.reachable_invariant (step tls) (Apart tls) construct Matched .nil _ s reachable
  intro before action after _ matched _ taken
  exact step_matched tls before after action matched taken

-- What the server makes of its loops does not depend on what these do.
theorem reachable_server (tls : Bool) (s : State B P C E) (reachable : Machine.Reachable (step tls) (Apart tls) construct s) :
    Machine.Reachable (Server.step tls) (Server.Apart tls) Server.construct s.server := by
  induction reachable with
  | start => exact .start
  | step before after action _ apart taken ih =>
      cases action with
      | server call =>
          obtain ⟨server, ran, rfl⟩ := Option.map_eq_some_iff.mp taken
          exact .step before.server server call ih apart ran
      | loop l work =>
          obtain ⟨loop, _, worked⟩ := Option.bind_eq_some_iff.mp taken
          obtain ⟨turned, _, rfl⟩ := Option.map_eq_some_iff.mp worked
          exact ih

theorem loop_reachable (tls : Bool) (s : State B P C E) (l : Nat) (loop final : Loop E) (found : s.loops[l]? = some loop)
    (reachable : Machine.Reachable Loop.step (fun _ work => work.Own) loop final) :
    Machine.Reachable (step tls) Strands s { s with loops := s.loops.set l final } := by
  obtain ⟨bound, place⟩ := List.getElem?_eq_some_iff.mp found
  induction reachable with
  | start =>
      rw [← place, List.set_getElem_self]
      exact .start
  | step before after work _ own taken ih =>
      refine .step _ _ (.loop l work) ih (by exact own) ?_
      rw [step, List.getElem?_set_self bound, Option.bind_some, taken, Option.map_some, List.set_set]

theorem one_goes (tls : Bool) (s : State B P C E) (matched : Matched s) (l : Nat) :
    ∃ final, Machine.Reachable (step tls) Strands s final ∧ final.server = s.server ∧ (∀ other ≠ l, final.loops[other]? = s.loops[other]?) ∧
      ∀ known loop, s.server.loops[l]? = some known → final.loops[l]? = some loop → known.stopped = true → loop.Gone := by
  by_cases told : ∃ known loop, s.server.loops[l]? = some known ∧ s.loops[l]? = some loop ∧ known.stopped = true
  · obtain ⟨known, loop, place, found, told⟩ := told
    obtain ⟨same, agreed, mirrors⟩ := forall₂_lookup s.server.loops s.loops l loop matched found
    obtain rfl := Option.some.inj (place.symm.trans agreed)
    have agrees := mirrors.agrees
    rw [told] at agrees
    obtain ⟨last, worked, gone⟩ := told_goes known.draining loop agrees
    refine ⟨_, loop_reachable tls s l loop last found worked, rfl, fun other apart => List.getElem?_set_ne (Ne.symm apart), ?_⟩
    intro known loop _ here _
    rw [List.getElem?_set_self (List.getElem?_eq_some_iff.mp found).1] at here
    exact Option.some.inj here ▸ gone
  · exact ⟨s, .start, rfl, fun _ _ => rfl, fun known loop place found stopped => absurd ⟨known, loop, place, found, stopped⟩ told⟩

theorem strands_matched (tls : Bool) (s final : State B P C E) (matched : Matched s)
    (reachable : Machine.Reachable (step tls) Strands s final) : Matched final := by
  apply Machine.reachable_invariant (step tls) Strands s Matched matched _ final reachable
  intro before action after _ kept _ taken
  exact step_matched tls before after action kept taken

-- One loop after the other: those before place k have gone.
theorem first_go (tls : Bool) (s : State B P C E) (matched : Matched s) (k : Nat) :
    ∃ final, Machine.Reachable (step tls) Strands s final ∧ final.server = s.server ∧
      ∀ l < k, ∀ known loop, s.server.loops[l]? = some known → final.loops[l]? = some loop → known.stopped = true → loop.Gone := by
  induction k with
  | zero => exact ⟨s, .start, rfl, fun l early => absurd early (Nat.not_lt_zero l)⟩
  | succ k ih =>
      obtain ⟨middle, reachable, same, gone⟩ := ih
      obtain ⟨final, worked, still, others, went⟩ := one_goes tls middle (strands_matched tls s middle matched reachable) k
      refine ⟨final, Machine.reachable_trans (step tls) Strands s middle final reachable worked, still.trans same, ?_⟩
      intro l early known loop place found told
      by_cases here : l = k
      · subst here
        rw [same] at went
        exact went known loop place found told
      · rw [others l here] at found
        exact gone l (by omega) known loop place found told

-- The work of the strands alone can bring the loops that were told to their end.
def Emptied (tls : Bool) (told : Server.AcceptorLoop B C → Prop) (s : State B P C E) : Prop :=
  ∃ final, Machine.Reachable (step tls) Strands s final ∧ final.server = s.server ∧
    ∀ (l : Nat) (known : Server.AcceptorLoop B C) (loop : Loop E), s.server.loops[l]? = some known →
      final.loops[l]? = some loop → told known → loop.Gone

-- Each loop follows what the server has told it, and goes once it was told to
-- stop: by RemovePort for the loop of a port, by Stop for all of them.
structure Follows (tls : Bool) (s : State B P C E) : Prop where
  made : s.loops.length = s.server.loops.length
  heard : ∀ (l : Nat) (known : Server.AcceptorLoop B C) (loop : Loop E), s.server.loops[l]? = some known → s.loops[l]? = some loop → loop.posted = [] →
    loop.acceptor.stopped = known.stopped ∧ loop.acceptor.draining = known.draining
  contained : ∀ (l : Nat) (loop : Loop E), s.loops[l]? = some loop → loop.acceptor.stopped = false → .stop ∉ loop.posted →
    ∃ port, s.server.acceptors.lookup port = some l
  removed : ∀ (port : Server.Port) (after : State B P C E), step tls s (.server (.removePort port)) = some after →
    Emptied tls (fun known => known.port = port) after
  stops : ∀ (force : Bool) (after : State B P C E), step tls s (.server (.stop force)) = some after → Emptied tls (fun _ => True) after

theorem emptied_of_silent (tls : Bool) (told : Server.AcceptorLoop B C → Prop) (s : State B P C E) (matched : Matched s)
    (silent : ∀ (l : Nat) (known : Server.AcceptorLoop B C), s.server.loops[l]? = some known → told known → known.accepting = false) :
    Emptied tls told s := by
  obtain ⟨final, reachable, same, gone⟩ := first_go tls s matched s.loops.length
  refine ⟨final, reachable, same, ?_⟩
  intro l known loop place found picked
  have kept := strands_matched tls s final matched reachable
  obtain ⟨other, agreed, mirrors⟩ := forall₂_lookup final.server.loops final.loops l loop kept found
  rw [same, place] at agreed
  obtain rfl := Option.some.inj agreed
  have bound : l < s.loops.length := by
    rw [← List.Forall₂.length_eq matched]
    exact (List.getElem?_eq_some_iff.mp place).1
  apply gone l bound known loop place found
  have quiet := silent l known place picked
  rw [Server.AcceptorLoop.accepting, mirrors.started, Bool.true_and] at quiet
  exact Bool.not_eq_false' .. |>.mp quiet

theorem loops_follow (tls : Bool) (s : State B P C E) (reachable : Machine.Reachable (step tls) (Apart tls) construct s) :
    Follows tls s := by
  have matched := reachable_matched tls s reachable
  have served := Server.reachable_served tls s.server (reachable_server tls s reachable)
  refine ⟨(List.Forall₂.length_eq matched).symm, ?_, ?_, ?_, ?_⟩
  · intro l known loop place found posted
    obtain ⟨other, agreed, mirrors⟩ := forall₂_lookup s.server.loops s.loops l loop matched found
    obtain rfl := Option.some.inj (place.symm.trans agreed)
    have stopped := mirrors.agrees.stopped
    have drains := mirrors.agrees.drains
    rw [posted] at stopped drains
    exact ⟨by simpa using stopped.symm, drains.symm⟩
  · intro l loop found running unposted
    obtain ⟨known, place, mirrors⟩ := forall₂_lookup s.server.loops s.loops l loop matched found
    refine ⟨known.port, served.known l known place ?_⟩
    have stopped := mirrors.agrees.stopped
    rw [running, decide_eq_false unposted] at stopped
    rw [Server.AcceptorLoop.accepting, mirrors.started, stopped]
    rfl
  · intro port after taken
    have kept := step_matched tls s after _ matched taken
    obtain rfl := Option.some.inj taken
    apply emptied_of_silent tls _ _ kept
    intro l known place same
    by_contra accepts
    exact (Server.remove_port_accepting s.server port served.known l known place (eq_true_of_ne_false accepts)).2 same
  · intro force after taken
    have kept := step_matched tls s after _ matched taken
    obtain rfl := Option.some.inj taken
    exact emptied_of_silent tls _ _ kept fun l known place _ => Server.stop_none_accepting s.server served.known l known place

-- The port of the first loop is removed while its accept waits; the strand of the
-- second has not come to its first call.
theorem removed_port_follows :
    ∃ s : State Unit Unit Unit Nat, Machine.Reachable (step false) (Apart false) construct s ∧
      s.loops.map Loop.posted = [[.stop], [.firstAccept]] ∧ s.loops.map (fun loop => loop.acceptor.holders) = [2, 1] ∧
      Follows false s := by
  obtain ⟨s, reachable, shown⟩ := Machine.run_exhibits (step false) (Apart false) construct
    ([.server (.addPort ⟨80, (), none, 10, false⟩), .server (.addPort ⟨81, (), none, 10, false⟩), .server (.start some),
      .loop 0 (.run 0), .server (.removePort 80)] : List (Action Unit Unit Unit Nat))
    (fun s => decide (s.loops.map Loop.posted = [[.stop], [.firstAccept]] ∧
      s.loops.map (fun loop => loop.acceptor.holders) = [2, 1])) (by decide)
  obtain ⟨posted, held⟩ := of_decide_eq_true shown
  exact ⟨s, reachable, posted, held, loops_follow false s reachable⟩

end Vectro.Listening
