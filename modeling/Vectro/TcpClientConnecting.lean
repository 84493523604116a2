import Vectro.TcpClientConnection

set_option autoImplicit false

namespace Vectro.Connection

-- The Connects that have not finished.
def State.ids (s : State) : List Nat := s.chains.map Chain.id

-- The latest Connect has not finished, and connect_timer_ has not expired.
def Exposed (s : State) : Prop := s.connects ∈ s.ids ∧ .connectExpired ∉ s.sinceConnect

def Covered (s : State) : Prop := Exposed s → 0 < s.connectTimer.pending

-- The handler that was passed to Connect number id is called.
def Event.reports (id : Nat) : Event → Bool
  | .onConnect handler _ _ => handler == id
  | _ => false

-- The handler of a Connect is called once when the Connect finishes, and not before.
def Reported (s : State) : Prop :=
  ∀ id, .connect id true ∈ s.trace → s.trace.countP (Event.reports id) = if id ∈ s.ids then 0 else 1

-- While the latest Connect is exposed, no resolution completes but its own, and
-- that one with an error, and no Close gets to the timers. A Connect finishes
-- before the next one begins, unless neither of them has a handler.
def Timely (s : State) : Action → Prop
  | .complete i ok _ => ∀ chain ∈ s.chains[i]?,
      (chain.stage = .resolving → Exposed s → chain.id = s.connects ∧ ok = false) ∧
      (ok = false ∨ chain.last s.tls = true →
        chain.id = s.connects ∨ s.onConnect = false ∧ .connect chain.id true ∉ s.trace)
  | action => ∀ force ∈ action.closes, s.closeRaises force = true ∨ ¬ Exposed s

instance (s : State) : Decidable (Exposed s) := inferInstanceAs (Decidable (_ ∧ ¬ _))

instance (s : State) (action : Action) : Decidable (Timely s action) :=
  match action with
  | .complete i ok _ =>
      inferInstanceAs (Decidable (∀ chain ∈ s.chains[i]?,
        (chain.stage = .resolving → Exposed s → chain.id = s.connects ∧ ok = false) ∧
        (ok = false ∨ chain.last s.tls = true →
          chain.id = s.connects ∨ s.onConnect = false ∧ ¬ .connect chain.id true ∈ s.trace)))
  | .connect .. | .nextEndpoint .. | .readCompletes .. | .returns .. | .connectExpires | .readExpires | .idleExpires
  | .connectTimer .. | .readTimer .. | .idleTimer .. | .close .. | .setOnDisconnect .. | .destroy =>
      inferInstanceAs (Decidable (∀ force ∈ Action.closes _, s.closeRaises force = true ∨ ¬ Exposed s))

-- The Connects are numbered, and on_connect_ is the handler of the latest.
structure Wired (s : State) : Prop where
  distinct : s.ids.Nodup
  bounded : ∀ id ∈ s.ids, id ≤ s.connects
  known : ∀ id handler, .connect id handler ∈ s.trace → id ≤ s.connects
  unreported : ∀ id, s.connects < id → s.trace.countP (Event.reports id) = 0
  latest : s.onConnect = true ↔ .connect s.connects true ∈ s.trace

-- Neither a Connect nor a call of a handler.
def Event.aside : Event → Bool
  | .connect _ _ | .onConnect _ _ _ => false
  | _ => true

theorem aside_front (front trace : List Event) (quiet : ∀ event ∈ front, event.aside = true) :
    (∀ id handler, .connect id handler ∈ front ++ trace ↔ .connect id handler ∈ trace) ∧
      (∀ id, (front ++ trace).countP (Event.reports id) = trace.countP (Event.reports id)) ∧
      (front ++ trace).takeWhile (!·.isConnect) = front ++ trace.takeWhile (!·.isConnect) := by
  refine ⟨fun id handler => ?_, fun id => ?_, ?_⟩
  · rw [List.mem_append]
    exact ⟨fun member => member.elim (fun new => by cases quiet _ new) (fun old => old), .inr⟩
  · have none : front.countP (Event.reports id) = 0 := by
      refine List.countP_eq_zero.mpr fun event member reports => ?_
      have aside := quiet event member
      cases event with
      | connect | onConnect => cases aside
      | _ => cases reports
    rw [List.countP_append, none, Nat.zero_add]
  · refine since_front _ front trace fun event member => ?_
    have aside := quiet event member
    cases event <;> first | rfl | cases aside

-- The Connects are as before.
structure Framed (s after : State) (front : List Event) : Prop where
  trace : after.trace = front ++ s.trace
  quiet : ∀ event ∈ front, event.aside = true
  connects : after.connects = s.connects := by rfl
  onConnect : after.onConnect = s.onConnect := by rfl
  ids : after.ids = s.ids := by rfl

theorem framed_wired (s after : State) (front : List Event) (framed : Framed s after front) (wired : Wired s) : Wired after := by
  obtain ⟨known, counted, _⟩ := aside_front front s.trace framed.quiet
  refine ⟨framed.ids ▸ wired.distinct, ?_, ?_, ?_, ?_⟩
  · rw [framed.ids, framed.connects]
    exact wired.bounded
  · intro id handler member
    rw [framed.trace, known] at member
    exact framed.connects ▸ wired.known id handler member
  · intro id later
    rw [framed.trace, counted]
    exact wired.unreported id (framed.connects ▸ later)
  · rw [framed.onConnect, framed.connects, framed.trace, known]
    exact wired.latest

theorem framed_reported (s after : State) (front : List Event) (framed : Framed s after front) (reported : Reported s) :
    Reported after := by
  obtain ⟨known, counted, _⟩ := aside_front front s.trace framed.quiet
  intro id member
  rw [framed.trace, known] at member
  rw [framed.trace, counted, framed.ids]
  exact reported id member

theorem framed_exposed (s after : State) (front : List Event) (framed : Framed s after front) :
    Exposed after ↔ .connectExpired ∉ front ∧ Exposed s := by
  obtain ⟨_, _, since⟩ := aside_front front s.trace framed.quiet
  rw [Exposed, State.sinceConnect, framed.connects, framed.ids, framed.trace, since, List.mem_append, not_or]
  exact ⟨fun ⟨here, fresh, unexpired⟩ => ⟨fresh, here, unexpired⟩, fun ⟨fresh, here, unexpired⟩ => ⟨here, fresh, unexpired⟩⟩

theorem erased_ids (s : State) (i : Nat) (chain : Chain) (found : s.chains[i]? = some chain) (distinct : s.ids.Nodup) :
    ((s.chains.eraseIdx i).map Chain.id).Nodup ∧
      ∀ id, id ∈ (s.chains.eraseIdx i).map Chain.id ↔ id ∈ s.ids ∧ id ≠ chain.id := by
  have split : (chain.id :: (s.chains.eraseIdx i).map Chain.id).Perm s.ids := by
    obtain ⟨inside, here⟩ := List.getElem?_eq_some_iff.mp found
    exact here ▸ (List.getElem_cons_eraseIdx_perm inside).map Chain.id
  obtain ⟨absent, rest⟩ := List.nodup_cons.mp (split.nodup_iff.mpr distinct)
  refine ⟨rest, fun id => ?_⟩
  rw [← split.mem_iff, List.mem_cons]
  constructor
  · exact fun member => ⟨.inr member, fun same => absent (same ▸ member)⟩
  · exact fun ⟨member, differs⟩ => member.resolve_left differs

theorem set_ids (s : State) (i : Nat) (id : Nat) (old new : Stage) (found : s.chains[i]? = some ⟨id, old⟩) :
    (s.chains.set i ⟨id, new⟩).map Chain.id = s.ids := by
  have here : s.ids[i]? = some id := by rw [State.ids, List.getElem?_map, found]; rfl
  rw [List.map_set]
  exact Tally.set_found s.ids i id here

-- A Connect finishes, and the handler of the latest one is called.
structure Finished (s after : State) (i : Nat) (id : Nat) (ok : Bool) (front : List Event) : Prop where
  trace : after.trace = s.reportEvents id ok ++ (front ++ s.trace)
  quiet : ∀ event ∈ front, event.aside = true
  unexpired : .connectExpired ∉ front
  chains : after.chains = s.chains.eraseIdx i := by rfl
  connects : after.connects = s.connects := by rfl
  onConnect : after.onConnect = s.onConnect := by rfl

theorem finished_trace (s after : State) (i : Nat) (id : Nat) (ok : Bool) (front : List Event)
    (finished : Finished s after i id ok front) :
    (∀ other handler, .connect other handler ∈ after.trace ↔ .connect other handler ∈ s.trace) ∧
      (∀ other, after.trace.countP (Event.reports other) =
        (if s.onConnect = true ∧ s.connects = other then 1 else 0) + s.trace.countP (Event.reports other)) ∧
      (.connectExpired ∈ after.sinceConnect ↔ .connectExpired ∈ s.sinceConnect) := by
  obtain ⟨known, counted, since⟩ := aside_front front s.trace finished.quiet
  rw [finished.trace, State.sinceConnect, finished.trace]
  refine ⟨fun other handler => ?_, fun other => ?_, ?_⟩
  · rw [List.mem_append, known]
    refine ⟨fun member => member.elim (fun new => ?_) (fun old => old), .inr⟩
    cases report_events_mem s id ok _ new
  · rw [List.countP_append, counted, State.reportEvents]
    cases s.onConnect <;> simp [Event.reports, List.countP_cons]
  · rw [since_front _ (s.reportEvents id ok) _ fun event member => by rw [report_events_mem s id ok event member]; rfl, since,
      List.mem_append, List.mem_append]
    refine ⟨fun member => ?_, fun old => .inr (.inr old)⟩
    rcases member with new | new | old
    · cases report_events_mem s id ok _ new
    · exact absurd new finished.unexpired
    · exact old

theorem finished_wired (s after : State) (i : Nat) (chain : Chain) (ok : Bool) (front : List Event)
    (found : s.chains[i]? = some chain) (finished : Finished s after i chain.id ok front) (wired : Wired s) : Wired after := by
  obtain ⟨known, counted, _⟩ := finished_trace s after i chain.id ok front finished
  obtain ⟨distinct, erased⟩ := erased_ids s i chain found wired.distinct
  rw [← finished.chains] at distinct erased
  refine ⟨distinct, fun id member => ?_, fun id handler member => ?_, fun id later => ?_, ?_⟩
  · exact finished.connects ▸ wired.bounded id ((erased id).mp member).1
  · exact finished.connects ▸ wired.known id handler ((known id handler).mp member)
  · rw [finished.connects] at later
    rw [counted, if_neg fun ⟨_, same⟩ => Nat.ne_of_lt later same, Nat.zero_add]
    exact wired.unreported id later
  · rw [finished.onConnect, finished.connects, known]
    exact wired.latest

theorem finished_exposed (s after : State) (i : Nat) (chain : Chain) (ok : Bool) (front : List Event)
    (found : s.chains[i]? = some chain) (finished : Finished s after i chain.id ok front) (wired : Wired s) :
    Exposed after ↔ Exposed s ∧ chain.id ≠ s.connects := by
  obtain ⟨_, _, since⟩ := finished_trace s after i chain.id ok front finished
  have erased := (erased_ids s i chain found wired.distinct).2 s.connects
  rw [← finished.chains] at erased
  rw [Exposed, Exposed, finished.connects, State.ids, erased, since]
  exact ⟨fun ⟨⟨here, other⟩, unexpired⟩ => ⟨⟨here, unexpired⟩, Ne.symm other⟩,
    fun ⟨⟨here, unexpired⟩, other⟩ => ⟨⟨here, Ne.symm other⟩, unexpired⟩⟩

theorem finished_reported_iff (s after : State) (i : Nat) (chain : Chain) (ok : Bool) (front : List Event)
    (found : s.chains[i]? = some chain) (finished : Finished s after i chain.id ok front) (wired : Wired s)
    (reported : Reported s) :
    Reported after ↔ chain.id = s.connects ∨ s.onConnect = false ∧ .connect chain.id true ∉ s.trace := by
  obtain ⟨known, counted, _⟩ := finished_trace s after i chain.id ok front finished
  have erased := (erased_ids s i chain found wired.distinct).2
  rw [← finished.chains] at erased
  have here : chain.id ∈ s.ids := List.mem_map_of_mem (List.mem_of_getElem? found)
  have shift : ∀ id, id ≠ chain.id → (id ∈ after.ids ↔ id ∈ s.ids) := fun id other =>
    (erased id).trans ⟨fun both => both.1, fun member => ⟨member, other⟩⟩
  have gone : chain.id ∉ after.ids := fun member => ((erased chain.id).mp member).2 rfl
  constructor
  · intro still
    by_cases latest : chain.id = s.connects
    · exact .inl latest
    refine .inr ⟨?_, fun handled => ?_⟩
    · -- The latest Connect has a handler, which is called for another one.
      by_contra calls
      have calling : s.onConnect = true := eq_true_of_ne_false calls
      have handled := wired.latest.mp calling
      have expected := reported s.connects handled
      have found := still s.connects ((known _ _).mpr handled)
      rw [counted, if_pos ⟨calling, rfl⟩, expected] at found
      simp only [shift s.connects (Ne.symm latest)] at found
      omega
    · -- This one has a handler, which is not called.
      have expected := reported chain.id handled
      have found := still chain.id ((known _ _).mpr handled)
      rw [counted, if_neg fun both => latest both.2.symm, expected, if_pos here, if_neg gone] at found
      omega
  · intro finishes id handled
    rw [known] at handled
    have expected := reported id handled
    rw [counted, expected]
    by_cases same : id = chain.id
    · rcases finishes with latest | ⟨_, unhandled⟩
      · have calls : s.onConnect = true := wired.latest.mpr (latest ▸ same ▸ handled)
        rw [same, if_pos ⟨calls, latest.symm⟩, if_pos here, if_neg gone]
      · exact absurd (same ▸ handled) unhandled
    · have uncalled : ¬ (s.onConnect = true ∧ s.connects = id) := by
        rintro ⟨calls, current⟩
        rcases finishes with latest | ⟨silent, _⟩
        · exact same (current.symm.trans latest.symm)
        · rw [silent] at calls
          cases calls
      rw [if_neg uncalled, Nat.zero_add]
      simp only [shift id same]

theorem connect_wired (s : State) (handler : Bool) (wired : Wired s) : Wired (s.connect handler) := by
  have ids : (s.connect handler).ids = s.ids ++ [s.connects + 1] := List.map_append
  refine ⟨?_, fun id member => ?_, fun id other member => ?_, fun id later => ?_, ?_⟩
  · rw [ids, List.nodup_append]
    refine ⟨wired.distinct, List.nodup_singleton _, ?_⟩
    rintro id member _ last rfl
    have bound := wired.bounded id member
    have new := List.mem_singleton.mp last
    omega
  · rw [ids, List.mem_append] at member
    show id ≤ s.connects + 1
    rcases member with old | new
    · have bound := wired.bounded id old
      omega
    · exact Nat.le_of_eq (List.mem_singleton.mp new)
  · show id ≤ s.connects + 1
    rcases List.mem_cons.mp member with new | old
    · cases new
      exact Nat.le_refl _
    · have bound := wired.known id other old
      omega
  · change s.connects + 1 < id at later
    show (Event.connect (s.connects + 1) handler :: s.trace).countP (Event.reports id) = 0
    rw [List.countP_cons_of_neg (by simp [Event.reports])]
    exact wired.unreported id (by omega)
  · show handler = true ↔ .connect (s.connects + 1) true ∈ Event.connect (s.connects + 1) handler :: s.trace
    rw [List.mem_cons]
    constructor
    · exact fun calls => .inl (by rw [calls])
    · rintro (new | old)
      · cases new
        rfl
      · have bound := wired.known _ _ old
        omega

theorem connect_reported (s : State) (handler : Bool) (wired : Wired s) (reported : Reported s) : Reported (s.connect handler) := by
  have ids : (s.connect handler).ids = s.ids ++ [s.connects + 1] := List.map_append
  intro id member
  show (Event.connect (s.connects + 1) handler :: s.trace).countP (Event.reports id) = _
  rw [List.countP_cons_of_neg (by simp [Event.reports]), ids]
  rcases List.mem_cons.mp member with new | old
  · cases new
    rw [if_pos (List.mem_append_right _ (List.mem_singleton.mpr rfl))]
    exact wired.unreported _ (Nat.lt_succ_self _)
  · have bound := wired.known id true old
    have same : id ∈ s.ids ++ [s.connects + 1] ↔ id ∈ s.ids := by
      rw [List.mem_append, List.mem_singleton]
      exact ⟨fun either => either.resolve_right (by omega), .inl⟩
    simp only [same]
    exact reported id old

theorem timely_complete (s : State) (i : Nat) (ok opens : Bool) (chain : Chain) (found : s.chains[i]? = some chain) :
    Timely s (.complete i ok opens) ↔
      (chain.stage = .resolving → Exposed s → chain.id = s.connects ∧ ok = false) ∧
      (ok = false ∨ chain.last s.tls = true →
        chain.id = s.connects ∨ s.onConnect = false ∧ .connect chain.id true ∉ s.trace) := by
  rw [Timely, found]
  exact ⟨fun timely => timely chain rfl, fun met other same => Option.some.inj same ▸ met⟩

theorem timely_closing (s : State) (action : Action) (force : Bool) (closes : action.closes = some force) :
    Timely s action ↔ s.closeRaises force = true ∨ ¬ Exposed s := by
  have free : Timely s action ↔ ∀ force ∈ action.closes, s.closeRaises force = true ∨ ¬ Exposed s := by
    cases action with
    | complete => cases closes
    | _ => exact Iff.rfl
  rw [free, closes]
  exact ⟨fun timely => timely force rfl, fun met other same => Option.some.inj same ▸ met⟩

theorem timely_calm (s : State) (action : Action) (calm : action.calm = true) : Timely s action := by
  have silent : action.closes = none := by cases action <;> grind [Action.calm, Action.closes]
  cases action with
  | complete => cases calm
  | _ => exact fun force member => by rw [silent] at member; cases member

theorem framed_covered (s after : State) (front : List Event) (framed : Framed s after front)
    (pending : after.connectTimer.pending = s.connectTimer.pending) (covered : Covered s) : Covered after := by
  intro exposed
  rw [pending]
  exact covered ((framed_exposed s after front framed).mp exposed).2

theorem cancelled_covered_iff (s : State) (cancelled : s.connectTimer.pending = 0) : Covered s ↔ ¬ Exposed s := by
  rw [Covered, cancelled]
  exact ⟨fun covered exposed => Nat.lt_irrefl 0 (covered exposed), fun unexposed exposed => absurd exposed unexposed⟩

theorem resolved_timely_iff (s after : State) (i : Nat) (opens : Bool) (id : Nat) (found : s.chains[i]? = some ⟨id, .resolving⟩)
    (next : after = { s with
      connectTimer := s.connectTimer.cancel, socketOpen := opens, chains := s.chains.set i ⟨id, .connecting⟩ })
    (wired : Wired s) (reported : Reported s) :
    Wired after ∧ (Covered after ∧ Reported after ↔ Timely s (.complete i true opens)) := by
  have framed : Framed s after [] := by
    subst next
    exact { trace := rfl, quiet := by simp, ids := set_ids s i id _ _ found }
  refine ⟨framed_wired s after [] framed wired, ?_⟩
  have exposed := framed_exposed s after [] framed
  rw [cancelled_covered_iff after (by rw [next]; rfl), exposed, timely_complete s i true opens _ found]
  constructor
  · rintro ⟨unexposed, _⟩
    exact ⟨fun _ here => absurd ⟨List.not_mem_nil, here⟩ unexposed, fun last => by rcases last with last | last <;> cases last⟩
  · rintro ⟨alone, _⟩
    exact ⟨fun ⟨_, here⟩ => (by cases (alone rfl here).2), framed_reported s after [] framed reported⟩

theorem unresolved_timely_iff (s after : State) (i : Nat) (opens : Bool) (id : Nat) (found : s.chains[i]? = some ⟨id, .resolving⟩)
    (next : after = { s with connectTimer := s.connectTimer.cancel }.fail i id) (wired : Wired s) (reported : Reported s) :
    Wired after ∧ (Covered after ∧ Reported after ↔ Timely s (.complete i false opens)) := by
  rw [fail_eq] at next
  have finished : Finished s after i id false [] := by
    subst next
    exact { trace := rfl, quiet := by simp, unexpired := by simp }
  refine ⟨finished_wired s after i _ false [] found finished wired, ?_⟩
  rw [cancelled_covered_iff after (by rw [next]; rfl), finished_exposed s after i _ false [] found finished wired,
    finished_reported_iff s after i _ false [] found finished wired reported, timely_complete s i false opens _ found]
  constructor
  · rintro ⟨unexposed, reports⟩
    refine ⟨fun _ here => ⟨?_, rfl⟩, fun _ => reports⟩
    by_contra other
    exact unexposed ⟨here, other⟩
  · rintro ⟨own, reports⟩
    exact ⟨fun ⟨here, other⟩ => other (own rfl here).1, reports (.inl rfl)⟩

theorem finished_timely_iff (s after : State) (i : Nat) (ok opens : Bool) (chain : Chain) (front : List Event)
    (found : s.chains[i]? = some chain) (finished : Finished s after i chain.id ok front) (resolved : chain.stage ≠ .resolving)
    (finishes : ok = false ∨ chain.last s.tls = true) (pending : after.connectTimer.pending = s.connectTimer.pending)
    (wired : Wired s) (covered : Covered s) (reported : Reported s) :
    Wired after ∧ (Covered after ∧ Reported after ↔ Timely s (.complete i ok opens)) := by
  refine ⟨finished_wired s after i chain ok front found finished wired, ?_⟩
  have still : Covered after := by
    intro exposed
    rw [pending]
    exact covered ((finished_exposed s after i chain ok front found finished wired).mp exposed).1
  rw [finished_reported_iff s after i chain ok front found finished wired reported, timely_complete s i ok opens chain found]
  exact ⟨fun ⟨_, reports⟩ => ⟨fun resolving => absurd resolving resolved, fun _ => reports⟩,
    fun ⟨_, reports⟩ => ⟨still, reports finishes⟩⟩

theorem closed_timely_iff (s before : State) (action : Action) (force : Bool) (closes : action.closes = some force)
    (same : Same s before) (wired : Wired s) (covered : Covered s) (reported : Reported s) :
    Wired (before.callClose force) ∧ (Covered (before.callClose force) ∧ Reported (before.callClose force) ↔ Timely s action) := by
  obtain ⟨_, _, connects, chains, onConnect⟩ := call_close_keeps before force
  have quiet : ∀ event ∈ before.closingEvents force ++ [.close force], event.aside = true ∧ event ≠ .connectExpired := by
    intro event member
    rcases List.mem_append.mp member with closing | closed
    · rcases closing_events_mem before force event closing with rfl | rfl <;> exact ⟨rfl, by simp⟩
    · rw [List.mem_singleton.mp closed]
      exact ⟨rfl, by simp⟩
  have framed : Framed s (before.callClose force) (before.closingEvents force ++ [.close force]) :=
    { trace := by rw [call_close_trace, same.trace]
      quiet := fun event member => (quiet event member).1
      connects := connects.trans same.connects
      onConnect := onConnect.trans same.onConnect
      ids := congrArg (List.map Chain.id) (chains.trans same.chains) }
  have timer := call_close_timer before force
  have raises : before.closeRaises force = s.closeRaises force := by rw [State.closeRaises, State.closeRaises, same.socketOpen]
  have still := framed_reported s _ _ framed reported
  refine ⟨framed_wired s _ _ framed wired, ?_⟩
  rw [timely_closing s action force closes]
  rw [raises, same.connectTimer] at timer
  by_cases raised : s.closeRaises force = true
  · rw [if_pos raised] at timer
    exact ⟨fun _ => .inl raised, fun _ => ⟨framed_covered s _ _ framed (by rw [timer]) covered, still⟩⟩
  · rw [if_neg raised] at timer
    rw [cancelled_covered_iff _ (by rw [timer]; rfl), framed_exposed s _ _ framed]
    constructor
    · exact fun ⟨unexposed, _⟩ => .inr fun here => unexposed ⟨fun member => (quiet _ member).2 rfl, here⟩
    · exact fun timely => ⟨fun ⟨_, here⟩ => timely.elim raised fun unexposed => unexposed here, still⟩

theorem framed_timely_iff (s after : State) (action : Action) (front : List Event) (framed : Framed s after front)
    (timely : Timely s action) (pending : .connectExpired ∉ front → after.connectTimer.pending = s.connectTimer.pending)
    (wired : Wired s) (covered : Covered s) (reported : Reported s) :
    Wired after ∧ (Covered after ∧ Reported after ↔ Timely s action) := by
  refine ⟨framed_wired s after front framed wired, fun _ => timely, fun _ => ⟨?_, framed_reported s after front framed reported⟩⟩
  intro exposed
  have before := (framed_exposed s after front framed).mp exposed
  rw [pending before.1]
  exact covered before.2

theorem step_timely_iff (s after : State) (action : Action) (taken : step s action = some after) (wired : Wired s)
    (covered : Covered s) (reported : Reported s) : Wired after ∧ (Covered after ∧ Reported after ↔ Timely s action) := by
  have kept : ∀ front (framed : Framed s after front), Timely s action →
      (.connectExpired ∉ front → after.connectTimer.pending = s.connectTimer.pending) →
      Wired after ∧ (Covered after ∧ Reported after ↔ Timely s action) := fun front framed timely pending =>
    framed_timely_iff s after action front framed timely pending wired covered reported
  cases step_moves s after action taken with
  | connect handler next =>
      obtain rfl := next
      refine ⟨connect_wired s handler wired, fun _ force member => (by cases member), fun _ => ⟨fun _ => ?_, ?_⟩⟩
      · exact Nat.zero_lt_one
      · exact connect_reported s handler wired reported
  | resolved i opens id found next => exact resolved_timely_iff s after i opens id found next wired reported
  | unresolved i opens id found next => exact unresolved_timely_iff s after i opens id found next wired reported
  | shakes i opens id found tls next =>
      obtain rfl := next
      refine kept [] { trace := rfl, quiet := by simp, ids := set_ids s i id _ _ found } ?_ fun _ => rfl
      rw [timely_complete s i true opens _ found]
      refine ⟨fun resolving => (by cases resolving), fun last => ?_⟩
      rw [Chain.last, tls] at last
      rcases last with last | last <;> cases last
  | fails i opens chain found resolved next =>
      rw [fail_eq] at next
      obtain rfl := next
      exact finished_timely_iff s _ i false opens chain [] found { trace := rfl, quiet := by simp, unexpired := by simp } resolved
        (.inl rfl) rfl wired covered reported
  | succeeds i opens chain found last next =>
      have resolved : chain.stage ≠ .resolving := fun resolving => by
        rw [Chain.last, resolving] at last
        cases last
      rw [succeed_eq] at next
      obtain rfl := next
      refine finished_timely_iff s _ i true opens chain [.connected chain.id] found ?_ resolved (.inr last) rfl wired covered reported
      exact { trace := List.append_assoc _ _ _, quiet := by simp [Event.aside], unexpired := by simp }
  | closes _ before force closing same _ next =>
      exact next ▸ closed_timely_iff s before action force closing same wired covered reported
  | expires timer next =>
      obtain rfl := next
      refine kept [.connectExpired] { trace := rfl, quiet := by simp [Event.aside] } ?_ fun fresh => ?_
      · intro force member
        cases member
      · exact absurd (List.mem_singleton.mpr rfl) fresh
  | reads outstanding next =>
      obtain rfl := next
      refine kept [] { trace := rfl, quiet := by simp } (fun force member => ?_) fun _ => rfl
      cases member
  | returns raises underway next =>
      have framed : Framed s after [] := by
        rw [next]
        unfold State.startRead
        cases raises <;> cases s.shutdown <;> exact { trace := rfl, quiet := by simp }
      refine kept [] framed (fun force member => by cases member) fun _ => ?_
      rw [next]
      unfold State.startRead
      cases raises <;> cases s.shutdown <;> rfl
  | quiet _ calm quiet =>
      have ids : after.ids = s.ids := congrArg (List.map Chain.id) quiet.chains
      rcases quiet.trace with same | raised
      · exact kept [] ⟨same, by simp, quiet.connects, quiet.onConnect, ids⟩ (timely_calm s action calm) fun _ => quiet.pending
      · exact kept [.cancelRaised] ⟨raised, by simp [Event.aside], quiet.connects, quiet.onConnect, ids⟩
          (timely_calm s action calm) fun _ => quiet.pending

theorem reachable_timely (tls : Bool) (s : State) (reachable : Machine.Reachable step Timely (construct tls) s) :
    Wired s ∧ Covered s ∧ Reported s := by
  apply Machine.reachable_invariant step Timely _ (fun s => Wired s ∧ Covered s ∧ Reported s) _ _ s reachable
  · refine ⟨⟨List.nodup_nil, ?_, ?_, fun _ _ => rfl, ?_⟩, ?_, ?_⟩
    · exact fun _ member => by cases member
    · exact fun _ _ member => by cases member
    · exact ⟨fun calls => (by cases calls), fun member => (by cases member)⟩
    · exact fun exposed => by cases exposed.1
    · exact fun _ member => by cases member
  · intro before action after _ held timely taken
    obtain ⟨wired, covered, reported⟩ := held
    obtain ⟨still, kept⟩ := step_timely_iff before after action taken wired covered reported
    exact ⟨still, kept.mpr timely⟩

theorem connect_timeout_covers (tls : Bool) (s : State) (reachable : Machine.Reachable step Timely (construct tls) s) :
    (Covered s ∧ Reported s) ∧
      ∀ action after, step s action = some after → (Covered after ∧ Reported after ↔ Timely s action) := by
  obtain ⟨wired, covered, reported⟩ := reachable_timely tls s reachable
  exact ⟨⟨covered, reported⟩, fun action after taken => (step_timely_iff s after action taken wired covered reported).2⟩

-- The first Connect cannot resolve the host, the second resolves it after the timer
-- has expired and connects all the same, and the third has just begun.
def threeConnects : List Action :=
  [.connect true, .complete 0 false false, .connect true, .connectExpires, .connectTimer true, .complete 0 true true,
    .complete 0 true false, .complete 0 true false, .returns false, .connect true]

theorem connect_timeout_covers_three :
    ∃ s, Machine.Reachable step Timely (construct true) s ∧ s.connects = 3 ∧ Exposed s ∧ 0 < s.connectTimer.pending ∧
      s.trace.countP (Event.reports 1) = 1 ∧ s.trace.countP (Event.reports 2) = 1 ∧ s.trace.countP (Event.reports 3) = 0 := by
  obtain ⟨s, reachable, shown⟩ := Machine.run_exhibits step Timely (construct true) threeConnects
    (fun s => s.connects == 3 && s.ids == [3] && decide (Exposed s) && decide (.connect 1 true ∈ s.trace) &&
      decide (.connect 2 true ∈ s.trace) && decide (.connect 3 true ∈ s.trace)) (by decide +kernel)
  simp only [Bool.and_eq_true, beq_iff_eq, decide_eq_true_eq] at shown
  obtain ⟨⟨⟨⟨⟨third, ids⟩, exposed⟩, one⟩, two⟩, three⟩ := shown
  obtain ⟨covered, reported⟩ := (connect_timeout_covers true s reachable).1
  have counts : ∀ id, .connect id true ∈ s.trace → s.trace.countP (Event.reports id) = if id ∈ [3] then 0 else 1 :=
    fun id member => ids ▸ reported id member
  exact ⟨s, reachable, third, exposed, covered exposed, counts 1 one, counts 2 two, counts 3 three⟩

-- The host has been resolved and the connect is outstanding, with no timer; and a
-- Connect made while another is in progress is told twice, the other never.
theorem connect_uncovered :
    (∃ s, Machine.Reachable step (fun _ _ => True) (construct true) s ∧ s.chains = [⟨1, .connecting⟩] ∧
      .connectExpired ∉ s.trace ∧ s.connectTimer.pending = 0 ∧ ¬ Covered s) ∧
    ∃ s, Machine.Reachable step (fun _ _ => True) (construct false) s ∧ s.chains = [] ∧ .connect 1 true ∈ s.trace ∧
      s.trace.countP (Event.reports 1) = 0 ∧ s.trace.countP (Event.reports 2) = 2 ∧ ¬ Reported s := by
  refine ⟨?_, ?_⟩
  · obtain ⟨s, reachable, shown⟩ := Machine.run_exhibits step (fun _ _ => True) (construct true)
      [.connect true, .complete 0 true true]
      (fun s => s.chains == [⟨1, .connecting⟩] && decide (.connectExpired ∉ s.trace) && s.connectTimer.pending == 0 &&
        decide (Exposed s)) (by decide +kernel)
    simp only [Bool.and_eq_true, beq_iff_eq, decide_eq_true_eq] at shown
    obtain ⟨⟨⟨chains, unexpired⟩, cancelled⟩, exposed⟩ := shown
    exact ⟨s, reachable, chains, unexpired, cancelled, fun covered => (cancelled_covered_iff s cancelled).mp covered exposed⟩
  · obtain ⟨s, reachable, shown⟩ := Machine.run_exhibits step (fun _ _ => True) (construct false)
      [.connect true, .connect true, .complete 0 false false, .complete 0 false false]
      (fun s => s.chains == [] && decide (.connect 1 true ∈ s.trace) && s.trace.countP (Event.reports 1) == 0 &&
        s.trace.countP (Event.reports 2) == 2) (by decide +kernel)
    simp only [Bool.and_eq_true, beq_iff_eq, decide_eq_true_eq] at shown
    obtain ⟨⟨⟨chains, first⟩, unheard⟩, twice⟩ := shown
    refine ⟨s, reachable, chains, first, unheard, twice, fun reported => ?_⟩
    have once := reported 1 first
    rw [unheard, State.ids, chains] at once
    cases once

end Vectro.Connection
