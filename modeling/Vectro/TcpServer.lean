import Mathlib.Data.List.AList
import Vectro.Machine

set_option autoImplicit false

namespace Vectro.Server

variable {B P C : Type}

abbrev Port := UInt16

structure PortConfig (B P : Type) where
  port : Port
  bundle : B
  tlsProvider : Option P
  acceptTimeout : Int
  delayedAccept : Bool

-- What the server has built a loop from, and which calls it has made on it.
structure AcceptorLoop (B C : Type) where
  port : Port
  bundle : B
  ctx : Option C
  acceptTimeout : Int
  delayedAccept : Bool
  started : Bool := false
  stopped : Bool := false
  draining : Bool := false

def AcceptorLoop.start (loop : AcceptorLoop B C) : AcceptorLoop B C := { loop with started := true }

def AcceptorLoop.stop (loop : AcceptorLoop B C) : AcceptorLoop B C := { loop with stopped := true }

def AcceptorLoop.enableDraining (loop : AcceptorLoop B C) (enable : Bool) : AcceptorLoop B C := { loop with draining := enable }

def AcceptorLoop.accepting (loop : AcceptorLoop B C) : Bool := loop.started && !loop.stopped

-- A loop keeps itself alive through its handlers, so loops has all that were
-- ever made; acceptors_ holds the places of those it still knows.
structure State (B P C : Type) where
  ports : List (PortConfig B P)
  acceptors : AList fun _ : Port => Nat
  loops : List (AcceptorLoop B C)
  shuttingDown : Bool

def construct : State B P C where
  ports := []
  acceptors := ∅
  loops := []
  shuttingDown := false

def State.addPort (s : State B P C) (cfg : PortConfig B P) : State B P C := { s with ports := s.ports ++ [cfg] }

def State.removePort (s : State B P C) (port : Port) : State B P C :=
  let removed := { s with ports := s.ports.filter fun cfg => cfg.port ≠ port }
  match s.acceptors.lookup port with
  | some l => { removed with loops := s.loops.modify l AcceptorLoop.stop, acceptors := s.acceptors.erase port }
  | none => removed

inductive Raised where
  | runtimeError (what : String)
  | getContext
deriving DecidableEq, Repr

-- getContext is what GetContext of a provider returns during this Start, or
-- nothing where it raises.
def context (tls : Bool) (getContext : P → Option C) (cfg : PortConfig B P) : Except Raised (Option C) :=
  if tls then
    match cfg.tlsProvider with
    | none => .error (.runtimeError "TLS stream requires TlsContextProvider")
    | some provider => (getContext provider).elim (.error .getContext) fun ctx => .ok (some ctx)
  else .ok none

-- The body of the loop in Start, once there is a context.
def State.launch (s : State B P C) (cfg : PortConfig B P) (ctx : Option C) : State B P C :=
  let loop : AcceptorLoop B C :=
    { port := cfg.port, bundle := cfg.bundle, ctx := ctx, acceptTimeout := cfg.acceptTimeout, delayedAccept := cfg.delayedAccept }
  let drained := if s.shuttingDown then loop.enableDraining true else loop
  { s with loops := s.loops ++ [drained.start], acceptors := s.acceptors.insert cfg.port s.loops.length }

def State.walk (tls : Bool) (getContext : P → Option C) (s : State B P C) : List (PortConfig B P) → State B P C × Option Raised
  | [] => (s, none)
  | cfg :: rest =>
      match context tls getContext cfg with
      | .error raised => (s, some raised)
      | .ok ctx => (s.launch cfg ctx).walk tls getContext rest

def State.start (tls : Bool) (getContext : P → Option C) (s : State B P C) : State B P C × Option Raised :=
  s.walk tls getContext s.ports

def State.each (s : State B P C) (change : AcceptorLoop B C → AcceptorLoop B C) : List (AcceptorLoop B C) :=
  s.acceptors.entries.foldl (fun loops entry => loops.modify entry.2 change) s.loops

def State.stop (s : State B P C) : State B P C := { s with loops := s.each AcceptorLoop.stop, shuttingDown := true }

def State.enableDrainingMode (s : State B P C) (enable : Bool) : State B P C :=
  { s with loops := s.each fun loop => loop.enableDraining enable, shuttingDown := enable }

inductive Action (B P C : Type) where
  | addPort (cfg : PortConfig B P)
  | removePort (port : Port)
  | start (getContext : P → Option C)
  | stop (force : Bool)
  | enableDrainingMode (enable : Bool)

-- Every call holds mu_ while it touches the ports and the loops. What Stop then
-- does with the sessions, force or not, is the controller's.
def step (tls : Bool) (s : State B P C) : Action B P C → Option (State B P C)
  | .addPort cfg => some (s.addPort cfg)
  | .removePort port => some (s.removePort port)
  | .start getContext => some (s.start tls getContext).1
  | .stop _ => some s.stop
  | .enableDrainingMode enable => some (s.enableDrainingMode enable)

-- Nothing accepts that the server does not know.
def Known (s : State B P C) : Prop :=
  ∀ l loop, s.loops[l]? = some loop → loop.accepting = true → s.acceptors.lookup loop.port = some l

-- The entries Start gets to before it raises.
def walked (tls : Bool) (getContext : P → Option C) (ports : List (PortConfig B P)) : List (PortConfig B P) :=
  ports.takeWhile fun cfg => (context tls getContext cfg).toBool

def State.stored (s : State B P C) (port : Port) : Option (AcceptorLoop B C) := (s.acceptors.lookup port).bind fun l => s.loops[l]?

-- Start gets to no port twice, and to none that has an accepting loop already.
def Apart (tls : Bool) (s : State B P C) : Action B P C → Prop
  | .start getContext =>
      ((walked tls getContext s.ports).map PortConfig.port).Nodup ∧
      ∀ cfg ∈ walked tls getContext s.ports, (s.stored cfg.port).all (fun loop => !loop.accepting) = true
  | _ => True

instance (tls : Bool) (s : State B P C) (action : Action B P C) : Decidable (Apart tls s action) :=
  match action with
  | .start .. => inferInstanceAs (Decidable (_ ∧ _))
  | .addPort .. | .removePort .. | .stop .. | .enableDrainingMode .. => isTrue trivial

structure Served (s : State B P C) : Prop where
  known : Known s
  placed : ∀ port l, s.acceptors.lookup port = some l → l < s.loops.length

theorem stop_silent (loop : AcceptorLoop B C) : loop.stop.accepting = false := by simp [AcceptorLoop.accepting, AcceptorLoop.stop]

-- An accepting loop that RemovePort leaves alone is for another port.
theorem remove_port_accepting (s : State B P C) (port : Port) (known : Known s) (l : Nat) (loop : AcceptorLoop B C)
    (found : (s.removePort port).loops[l]? = some loop) (accepts : loop.accepting = true) :
    s.loops[l]? = some loop ∧ loop.port ≠ port := by
  cases stored : s.acceptors.lookup port with
  | none =>
      have same : (s.removePort port).loops = s.loops := by rw [State.removePort, stored]
      rw [same] at found
      refine ⟨found, fun removed => ?_⟩
      have place := known l loop found accepts
      rw [removed, stored] at place
      cases place
  | some place =>
      have changed : (s.removePort port).loops = s.loops.modify place AcceptorLoop.stop := by rw [State.removePort, stored]
      rw [changed] at found
      by_cases here : place = l
      · rw [here, List.getElem?_modify_eq] at found
        obtain ⟨old, _, rfl⟩ := Option.map_eq_some_iff.mp found
        exact absurd (accepts.symm.trans (stop_silent old)) (by decide)
      · rw [List.getElem?_modify_ne _ _ here] at found
        refine ⟨found, fun removed => ?_⟩
        have other := known l loop found accepts
        rw [removed, stored] at other
        exact here (Option.some.inj other)

theorem remove_port_lookup (s : State B P C) (port other : Port) :
    (s.removePort port).acceptors.lookup other = if other = port then none else s.acceptors.lookup other := by
  cases stored : s.acceptors.lookup port with
  | none =>
      have same : (s.removePort port).acceptors = s.acceptors := by rw [State.removePort, stored]
      rw [same]
      by_cases removed : other = port
      · rw [if_pos removed, removed, stored]
      · rw [if_neg removed]
  | some place =>
      have erased : (s.removePort port).acceptors = s.acceptors.erase port := by rw [State.removePort, stored]
      rw [erased]
      by_cases removed : other = port
      · rw [if_pos removed, removed, AList.lookup_erase]
      · rw [if_neg removed, AList.lookup_erase_ne removed]

theorem remove_port_length (s : State B P C) (port : Port) : (s.removePort port).loops.length = s.loops.length := by
  rw [State.removePort]
  split
  · exact List.length_modify _ _ _
  · rfl

theorem served_remove_port (s : State B P C) (port : Port) (served : Served s) : Served (s.removePort port) := by
  refine ⟨?_, ?_⟩
  · intro l loop found accepts
    obtain ⟨before, other⟩ := remove_port_accepting s port served.known l loop found accepts
    rw [remove_port_lookup, if_neg other]
    exact served.known l loop before accepts
  · intro other l stored
    rw [remove_port_lookup] at stored
    by_cases removed : other = port
    · rw [if_pos removed] at stored
      cases stored
    · rw [if_neg removed] at stored
      rw [remove_port_length]
      exact served.placed other l stored

theorem served_launch (s : State B P C) (cfg : PortConfig B P) (ctx : Option C) (served : Served s)
    (free : (s.stored cfg.port).all (fun loop => !loop.accepting) = true) :
    Served (s.launch cfg ctx) ∧ ∀ port, port ≠ cfg.port → (s.launch cfg ctx).stored port = s.stored port := by
  refine ⟨⟨?_, ?_⟩, ?_⟩
  · intro l loop found accepts
    rcases Nat.lt_or_ge l s.loops.length with old | new
    · rw [State.launch, List.getElem?_append_left old] at found
      have place := served.known l loop found accepts
      have other : loop.port ≠ cfg.port := by
        intro same
        rw [same] at place
        simp [State.stored, place, found, accepts] at free
      rw [State.launch, AList.lookup_insert_ne other]
      exact place
    · obtain ⟨bound, value⟩ := List.getElem?_eq_some_iff.mp found
      have last : l = s.loops.length := by
        have grown : l < s.loops.length + 1 := by simpa [State.launch] using bound
        omega
      have port : loop.port = cfg.port := by
        rw [last, State.launch, List.getElem?_concat_length] at found
        rw [← Option.some.inj found]
        split <;> rfl
      rw [port, last, State.launch, AList.lookup_insert]
  · intro port l stored
    have grown : (s.launch cfg ctx).loops.length = s.loops.length + 1 := by simp [State.launch]
    by_cases same : port = cfg.port
    · rw [same, State.launch, AList.lookup_insert] at stored
      rw [grown, ← Option.some.inj stored]
      exact Nat.lt_succ_self _
    · rw [State.launch, AList.lookup_insert_ne same] at stored
      rw [grown]
      exact Nat.lt_succ_of_lt (served.placed port l stored)
  · intro port other
    have kept : (s.launch cfg ctx).acceptors.lookup port = s.acceptors.lookup port := AList.lookup_insert_ne other
    rw [State.stored, State.stored, kept]
    cases stored : s.acceptors.lookup port with
    | none => rfl
    | some l => exact List.getElem?_append_left (served.placed port l stored)

theorem served_walk (tls : Bool) (getContext : P → Option C) (ports : List (PortConfig B P)) (s : State B P C) (served : Served s)
    (distinct : ((walked tls getContext ports).map PortConfig.port).Nodup)
    (free : ∀ cfg ∈ walked tls getContext ports, (s.stored cfg.port).all (fun loop => !loop.accepting) = true) :
    Served (s.walk tls getContext ports).1 := by
  induction ports generalizing s with
  | nil => exact served
  | cons cfg rest ih =>
      rw [State.walk]
      cases given : context tls getContext cfg with
      | error raised => exact served
      | ok ctx =>
          have first : walked tls getContext (cfg :: rest) = cfg :: walked tls getContext rest :=
            List.takeWhile_cons_of_pos (by rw [given]; rfl)
          rw [first] at distinct free
          obtain ⟨new, apart⟩ := List.nodup_cons.mp distinct
          obtain ⟨launched, others⟩ := served_launch s cfg ctx served (free cfg List.mem_cons_self)
          apply ih (s.launch cfg ctx) launched apart
          intro later member
          rw [others later.port fun same => new (same ▸ List.mem_map_of_mem member)]
          exact free later (List.mem_cons_of_mem _ member)

-- Where a second visit changes nothing more, the walk over acceptors_ changes
-- the loops that are in it and no others.
theorem walk_entries (change : AcceptorLoop B C → AcceptorLoop B C) (settled : ∀ loop, change (change loop) = change loop)
    (entries : List ((_ : Port) × Nat)) (loops : List (AcceptorLoop B C)) (l : Nat) :
    (entries.foldl (fun loops entry => loops.modify entry.2 change) loops)[l]? =
      if ∃ entry ∈ entries, entry.2 = l then (loops[l]?).map change else loops[l]? := by
  induction entries generalizing loops with
  | nil => simp
  | cons entry rest ih =>
      rw [List.foldl_cons, ih]
      by_cases here : entry.2 = l
      · have listed : ∃ other ∈ entry :: rest, other.2 = l := ⟨entry, List.mem_cons_self, here⟩
        rw [if_pos listed, here, List.getElem?_modify_eq, Option.map_eq_map, Option.map_map]
        split
        · exact congrArg (fun twice => (loops[l]?).map twice) (funext settled)
        · rfl
      · rw [List.getElem?_modify_ne _ _ here]
        simp only [List.mem_cons, exists_eq_or_imp, here, false_or]

theorem walk_entries_length (change : AcceptorLoop B C → AcceptorLoop B C) (entries : List ((_ : Port) × Nat))
    (loops : List (AcceptorLoop B C)) :
    (entries.foldl (fun loops entry => loops.modify entry.2 change) loops).length = loops.length := by
  induction entries generalizing loops with
  | nil => rfl
  | cons entry rest ih => rw [List.foldl_cons, ih, List.length_modify]

theorem each_get (s : State B P C) (change : AcceptorLoop B C → AcceptorLoop B C) (settled : ∀ loop, change (change loop) = change loop)
    (l : Nat) (loop : AcceptorLoop B C) (found : (s.each change)[l]? = some loop) :
    (∃ old, s.loops[l]? = some old ∧ loop = change old) ∨ (s.loops[l]? = some loop ∧ ∀ port, s.acceptors.lookup port ≠ some l) := by
  rw [State.each, walk_entries change settled] at found
  split at found
  · obtain ⟨old, before, same⟩ := Option.map_eq_some_iff.mp found
    exact .inl ⟨old, before, same.symm⟩
  · rename_i absent
    refine .inr ⟨found, fun port stored => absent ⟨⟨port, l⟩, ?_, rfl⟩⟩
    exact AList.mem_lookup_iff.mp stored

-- Draining or stopping loops keeps each of them where it is.
theorem served_each (s : State B P C) (change : AcceptorLoop B C → AcceptorLoop B C) (settled : ∀ loop, change (change loop) = change loop)
    (same : ∀ loop, (change loop).port = loop.port) (quieter : ∀ loop, (change loop).accepting = true → loop.accepting = true)
    (shuttingDown : Bool) (served : Served s) : Served { s with loops := s.each change, shuttingDown := shuttingDown } := by
  refine ⟨?_, ?_⟩
  · intro l loop found accepts
    rcases each_get s change settled l loop found with ⟨old, before, rfl⟩ | ⟨before, _⟩
    · rw [same]
      exact served.known l old before (quieter old accepts)
    · exact served.known l loop before accepts
  · intro port l stored
    rw [State.each, walk_entries_length]
    exact served.placed port l stored

theorem stop_none_accepting (s : State B P C) (known : Known s) (l : Nat) (loop : AcceptorLoop B C)
    (found : s.stop.loops[l]? = some loop) : loop.accepting = false := by
  rcases each_get s AcceptorLoop.stop (fun _ => rfl) l loop found with ⟨old, _, rfl⟩ | ⟨before, absent⟩
  · exact stop_silent old
  · by_contra accepts
    exact absent loop.port (known l loop before (eq_true_of_ne_false accepts))

theorem step_served (tls : Bool) (s after : State B P C) (action : Action B P C) (served : Served s) (apart : Apart tls s action)
    (taken : step tls s action = some after) : Served after := by
  cases action with
  | addPort cfg =>
      obtain rfl := Option.some.inj taken
      exact ⟨served.known, served.placed⟩
  | removePort port =>
      obtain rfl := Option.some.inj taken
      exact served_remove_port s port served
  | start getContext =>
      obtain rfl := Option.some.inj taken
      exact served_walk tls getContext s.ports s served apart.1 apart.2
  | stop force =>
      obtain rfl := Option.some.inj taken
      apply served_each s AcceptorLoop.stop (fun _ => rfl) (fun _ => rfl) _ true served
      intro loop accepts
      exact absurd (accepts.symm.trans (stop_silent loop)) (by decide)
  | enableDrainingMode enable =>
      obtain rfl := Option.some.inj taken
      exact served_each s (fun loop => loop.enableDraining enable) (fun _ => rfl) (fun _ => rfl) (fun _ accepts => accepts) enable served

theorem reachable_served (tls : Bool) (s : State B P C) (reachable : Machine.Reachable (step tls) (Apart tls) construct s) : Served s := by
  apply Machine.reachable_invariant (step tls) (Apart tls) construct Served _ _ s reachable
  · exact ⟨nofun, nofun⟩
  · intro before action after _ served apart taken
    exact step_served tls before after action served apart taken

-- What the server promises in a state, and what a removal or a stop brings
-- about from there.
structure Contains (tls : Bool) (s : State B P C) : Prop where
  known : Known s
  removed : ∀ (port : Port) (after : State B P C), step tls s (.removePort port) = some after →
    ∀ (l : Nat) (loop : AcceptorLoop B C), after.loops[l]? = some loop → loop.port = port → loop.accepting = false
  stopped : ∀ (force : Bool) (after : State B P C), step tls s (.stop force) = some after →
    ∀ (l : Nat) (loop : AcceptorLoop B C), after.loops[l]? = some loop → loop.accepting = false

theorem no_loop_escapes (tls : Bool) (s : State B P C) (reachable : Machine.Reachable (step tls) (Apart tls) construct s) :
    Contains tls s := by
  have served := reachable_served tls s reachable
  refine ⟨served.known, ?_, ?_⟩
  · intro port after taken l loop found same
    obtain rfl := Option.some.inj taken
    by_contra accepts
    exact (remove_port_accepting s port served.known l loop found (eq_true_of_ne_false accepts)).2 same
  · intro force after taken l loop found
    obtain rfl := Option.some.inj taken
    exact stop_none_accepting s served.known l loop found

theorem no_loop_escapes_restarted :
    ∃ s : State Unit Unit Unit, Machine.Reachable (step false) (Apart false) construct s ∧
      s.loops.map AcceptorLoop.accepting = [false, true, true] ∧ Contains false s := by
  obtain ⟨s, reachable, shown⟩ := Machine.run_exhibits (step false) (Apart false) construct
    ([.addPort ⟨80, (), none, 10, false⟩, .start some, .stop true, .addPort ⟨81, (), none, 10, false⟩, .start some] :
      List (Action Unit Unit Unit)) (fun s => decide (s.loops.map AcceptorLoop.accepting = [false, true, true])) (by decide)
  exact ⟨s, reachable, of_decide_eq_true shown, no_loop_escapes false s reachable⟩

-- Start twice: the second loop for the port takes the place of the first, which
-- goes on accepting, also after Stop.
theorem started_twice_escapes :
    ¬ ∀ s : State Unit Unit Unit, Machine.Reachable (step false) (fun _ _ => True) construct s → Contains false s := by
  intro claimed
  obtain ⟨s, reachable, shown⟩ := Machine.run_exhibits (step false) (fun _ _ => True) construct
    ([.addPort ⟨80, (), none, 10, false⟩, .start some, .start some] : List (Action Unit Unit Unit))
    (fun s => decide ((s.stop.loops[0]?).map AcceptorLoop.accepting = some true)) (by decide)
  obtain ⟨loop, found, accepts⟩ := Option.map_eq_some_iff.mp (of_decide_eq_true shown)
  exact absurd (accepts.symm.trans ((claimed s reachable).stopped true s.stop rfl 0 loop found)) (by decide)

-- Start gets a context for the port.
def Ready (tls : Bool) (getContext : P → Option C) (cfg : PortConfig B P) : Prop := (context tls getContext cfg).toBool = true

-- If Start raises, it leaves acceptors_ alone and has started no loop.
def AllOrNothing (tls : Bool) (getContext : P → Option C) (s : State B P C) : Prop :=
  (s.start tls getContext).2 ≠ none → (s.start tls getContext).1.acceptors = s.acceptors ∧
    ∀ loop ∈ (s.start tls getContext).1.loops.drop s.loops.length, loop.started = false

-- Every port that the walk gets to has a new loop, and it is started.
theorem walk_starts (tls : Bool) (getContext : P → Option C) (ports : List (PortConfig B P)) (s : State B P C) :
    ∃ fresh, (s.walk tls getContext ports).1.loops = s.loops ++ fresh ∧
      fresh.length = (walked tls getContext ports).length ∧ ∀ loop ∈ fresh, loop.started = true := by
  induction ports generalizing s with
  | nil => exact ⟨[], (List.append_nil _).symm, rfl, List.forall_mem_nil _⟩
  | cons cfg rest ih =>
      rw [State.walk]
      cases given : context tls getContext cfg with
      | error raised =>
          have none : walked tls getContext (cfg :: rest) = [] := List.takeWhile_cons_of_neg (by rw [given]; exact Bool.false_ne_true)
          exact ⟨[], (List.append_nil _).symm, by rw [none]; rfl, List.forall_mem_nil _⟩
      | ok ctx =>
          have first : walked tls getContext (cfg :: rest) = cfg :: walked tls getContext rest :=
            List.takeWhile_cons_of_pos (by rw [given]; rfl)
          obtain ⟨fresh, loops, length, started⟩ := ih (s.launch cfg ctx)
          rw [State.launch, List.append_assoc] at loops
          refine ⟨_, loops, by rw [first, List.length_cons, ← length]; rfl, ?_⟩
          intro loop member
          rcases List.mem_cons.mp member with rfl | later
          · rfl
          · exact started loop later

theorem walk_ready (tls : Bool) (getContext : P → Option C) (ports : List (PortConfig B P)) (s : State B P C) :
    (s.walk tls getContext ports).2 = none ↔ ∀ cfg ∈ ports, Ready tls getContext cfg := by
  induction ports generalizing s with
  | nil => exact ⟨fun _ => List.forall_mem_nil _, fun _ => rfl⟩
  | cons cfg rest ih =>
      rw [State.walk, List.forall_mem_cons]
      cases given : context tls getContext cfg with
      | error raised =>
          have unready : ¬ Ready tls getContext cfg := by
            rw [Ready, given]
            exact Bool.false_ne_true
          exact ⟨fun silent => absurd silent (Option.some_ne_none _), fun ready => absurd ready.1 unready⟩
      | ok ctx =>
          have ready : Ready tls getContext cfg := by rw [Ready, given]; rfl
          rw [and_iff_right ready]
          exact ih (s.launch cfg ctx)

theorem start_all_or_nothing_iff (getContext : P → Option C) (s : State B P C) :
    AllOrNothing true getContext s ↔
      (∀ cfg ∈ s.ports, Ready true getContext cfg) ∨ ∃ first ∈ s.ports.head?, ¬ Ready true getContext first := by
  constructor
  · intro holds
    by_cases ready : ∀ cfg ∈ s.ports, Ready true getContext cfg
    · exact .inl ready
    · right
      have raises : (s.start true getContext).2 ≠ none := fun silent => ready ((walk_ready true getContext s.ports s).mp silent)
      obtain ⟨fresh, loops, length, started⟩ := walk_starts true getContext s.ports s
      have unstarted := (holds raises).2
      rw [State.start, loops, List.drop_left] at unstarted
      cases ports : s.ports with
      | nil =>
          rw [ports] at ready
          exact absurd (List.forall_mem_nil _) ready
      | cons first rest =>
          refine ⟨first, rfl, fun given => ?_⟩
          have some : walked true getContext s.ports = first :: walked true getContext rest := by
            rw [ports]
            exact List.takeWhile_cons_of_pos given
          rw [some] at length
          have nonempty : 0 < fresh.length := by
            rw [length]
            exact Nat.succ_pos _
          obtain ⟨loop, member⟩ := List.exists_mem_of_length_pos nonempty
          exact absurd ((unstarted loop member).symm.trans (started loop member)) (by decide)
  · rintro (ready | ⟨first, head, unready⟩) raises
    · exact absurd ((walk_ready true getContext s.ports s).mpr ready) raises
    · obtain ⟨rest, ports⟩ := List.head?_eq_some_iff.mp head
      have same : (s.start true getContext).1 = s := by
        rw [State.start, ports, State.walk]
        cases given : context true getContext first with
        | error raised => rfl
        | ok ctx => exact absurd (by rw [Ready, given]; rfl) unready
      rw [same, List.drop_length]
      exact ⟨rfl, List.forall_mem_nil _⟩

-- The second port has no provider; the first is accepting by then.
theorem half_started :
    ¬ ∀ (getContext : Unit → Option Unit) (s : State Unit Unit Unit), AllOrNothing true getContext s := by
  intro always
  have holds := always some ((construct.addPort ⟨80, (), some (), 10, false⟩).addPort ⟨81, (), none, 10, false⟩)
  have unstarted := (holds (by decide)).2
  exact absurd unstarted (by decide)

end Vectro.Server
