import Vectro.Machine

set_option autoImplicit false

namespace Vectro.Tls

variable {F : Type}

-- A TLS context, named by the ReloadContext call that made it: each call makes
-- at most one. A file stands with the path it was read from.
structure Context (F : Type) where
  load : Nat
  certificate : Option (String × F)
  privateKey : Option (String × F)
  options : Bool
deriving DecidableEq, Repr

-- Where a ReloadContext call stands; each constructor names the statement that
-- runs next. Only the call itself has the context before it is published.
inductive Stage (F : Type) where
  | create
  | useCertificateChainFile (ctx : Context F)
  | usePrivateKeyFile (ctx : Context F)
  | setOptions (ctx : Context F)
  | publish (ctx : Context F)
  | caught (what : String)
  | returned (ok : Bool)
  | raised (what : String)
deriving DecidableEq, Repr

def Stage.over : Stage F → Bool
  | .returned _ | .raised _ => true
  | _ => false

def Stage.answered : Stage F → Bool
  | .returned _ => true
  | _ => false

-- The statements of the try block that may raise a std::exception.
def Stage.loading : Stage F → Bool
  | .create | .useCertificateChainFile _ | .usePrivateKeyFile _ | .setOptions _ => true
  | _ => false

def Stage.loaded (certPath keyPath : String) (call : Nat) (file : F) : Stage F → Option (Stage F)
  | .create => some (.useCertificateChainFile ⟨call, none, none, false⟩)
  | .useCertificateChainFile ctx => some (.usePrivateKeyFile { ctx with certificate := some (certPath, file) })
  | .usePrivateKeyFile ctx => some (.setOptions { ctx with privateKey := some (keyPath, file) })
  | .setOptions ctx => some (.publish { ctx with options := true })
  | _ => none

-- The stages of a call whose load has raised.
def Stage.failedWith (what : String) : Stage F → Prop
  | .caught text | .raised text => text = what
  | .returned ok => ok = false
  | _ => False

-- What an observer could have logged, the newest first. No step reads it.
inductive Event (F : Type) where
  | loadRaised (call : Nat) (what : String)
  | published (call : Nat) (ctx : Context F)
  | got (result : Option (Context F))
  | stdout (text : String)
  | stderr (text : String)
deriving DecidableEq, Repr

structure State (F : Type) where
  certPath : String
  keyPath : String
  current : Option (Context F)
  initialized : Bool
  calls : List (Stage F)
  trace : List (Event F)
deriving DecidableEq, Repr

-- Call 0 is the one of the constructor.
def construct (certPath keyPath : String) : State F where
  certPath := certPath
  keyPath := keyPath
  current := none
  initialized := false
  calls := [.create]
  trace := []

def State.alive (s : State F) : Bool :=
  s.calls[0]?.any Stage.answered

def State.goto (s : State F) (call : Nat) (stage : Stage F) (events : List (Event F)) : State F :=
  { s with calls := s.calls.set call stage, trace := events ++ s.trace }

-- The answer is the oracle's: what a file holds, or the exception of the
-- statement. Publishing and returning true are one critical section; a catch
-- block reads initialized_ after it has written its line.
def State.advance (s : State F) (call : Nat) (answer : Except String F) : Option (State F) :=
  match s.calls[call]? with
  | none => none
  | some (.publish ctx) =>
      some { s.goto call (.returned true) [.stdout "[TLS] Reloaded cert/key successfully.\n", .published call ctx] with
        current := some ctx, initialized := true }
  | some (.caught what) =>
      some (s.goto call (if s.initialized then .returned false else .raised what)
        [.stderr ("[TLS] Reload failed: " ++ what ++ "\n")])
  | some stage =>
      match answer with
      | .ok file => (stage.loaded s.certPath s.keyPath call file).map fun next => s.goto call next []
      | .error what => if stage.loading then some (s.goto call (.caught what) [.loadRaised call what]) else none

inductive Action (F : Type) where
  | advance (call : Nat) (answer : Except String F)
  | reloadContext
  | getContext

-- An object whose constructor has raised, or is still at work, is not called.
def step (s : State F) : Action F → Option (State F)
  | .advance call answer => s.advance call answer
  | .reloadContext => if s.alive then some { s with calls := s.calls ++ [.create] } else none
  | .getContext => if s.alive then some { s with trace := .got s.current :: s.trace } else none

abbrev Reachable (certPath keyPath : String) (s : State F) : Prop :=
  Machine.Reachable step (fun _ _ => True) (construct certPath keyPath) s

-- The context of the most recent successful load.
def lastPublished : List (Event F) → Option (Context F)
  | [] => none
  | .published _ ctx :: _ => some ctx
  | _ :: earlier => lastPublished earlier

-- What a step can do.
inductive Moved (s : State F) : State F → Prop where
  | loaded (call : Nat) (old next : Stage F) (file : F) (found : s.calls[call]? = some old)
      (loads : old.loaded s.certPath s.keyPath call file = some next) : Moved s (s.goto call next [])
  | failed (call : Nat) (old : Stage F) (what : String) (found : s.calls[call]? = some old)
      (loading : old.loading = true) : Moved s (s.goto call (.caught what) [.loadRaised call what])
  | published (call : Nat) (ctx : Context F) (found : s.calls[call]? = some (.publish ctx)) :
      Moved s { s.goto call (.returned true)
        [.stdout "[TLS] Reloaded cert/key successfully.\n", .published call ctx] with
          current := some ctx, initialized := true }
  | settled (call : Nat) (what : String) (found : s.calls[call]? = some (.caught what)) :
      Moved s (s.goto call (if s.initialized then .returned false else .raised what)
        [.stderr ("[TLS] Reload failed: " ++ what ++ "\n")])
  | reload (alive : s.alive = true) : Moved s { s with calls := s.calls ++ [.create] }
  | got (alive : s.alive = true) : Moved s { s with trace := .got s.current :: s.trace }

theorem advance_moved (s t : State F) (call : Nat) (answer : Except String F) (taken : s.advance call answer = some t) :
    Moved s t := by
  cases found : s.calls[call]? with
  | none => simp [State.advance, found] at taken
  | some stage =>
      cases stage with
      | publish ctx =>
          obtain rfl : _ = t := by simpa [State.advance, found] using taken
          exact .published call ctx found
      | caught what =>
          obtain rfl : _ = t := by simpa [State.advance, found] using taken
          exact .settled call what found
      | returned ok => cases answer <;> simp [State.advance, found, Stage.loaded, Stage.loading] at taken
      | raised what => cases answer <;> simp [State.advance, found, Stage.loaded, Stage.loading] at taken
      | _ =>
          cases answer with
          | ok file =>
              obtain rfl : _ = t := by simpa [State.advance, found, Stage.loaded] using taken
              exact .loaded call _ _ file found rfl
          | error what =>
              obtain rfl : _ = t := by simpa [State.advance, found, Stage.loading] using taken
              exact .failed call _ what found rfl

theorem step_moved (s t : State F) (action : Action F) (taken : step s action = some t) : Moved s t := by
  cases action with
  | advance call answer => exact advance_moved s t call answer taken
  | reloadContext =>
      by_cases alive : s.alive = true
      · obtain rfl : _ = t := by simpa [step, alive] using taken
        exact .reload alive
      · simp [step, alive] at taken
  | getContext =>
      by_cases alive : s.alive = true
      · obtain rfl : _ = t := by simpa [step, alive] using taken
        exact .got alive
      · simp [step, alive] at taken

theorem alive_goto_first (s : State F) (stage : Stage F) (events : List (Event F)) (old : Stage F)
    (found : s.calls[0]? = some old) : (s.goto 0 stage events).alive = stage.answered := by
  obtain ⟨bound, _⟩ := List.getElem?_eq_some_iff.mp found
  simp [State.alive, State.goto, bound]

theorem alive_goto_later (s : State F) (call : Nat) (stage : Stage F) (events : List (Event F)) (later : call ≠ 0) :
    (s.goto call stage events).alive = s.alive := by
  simp [State.alive, State.goto, List.getElem?_set_ne later]

-- A call that has not returned leaves the object as it is.
theorem alive_goto (s : State F) (call : Nat) (old stage : Stage F) (events : List (Event F))
    (found : s.calls[call]? = some old) (before : old.answered = false)
    (after : stage.answered = false) : (s.goto call stage events).alive = s.alive := by
  by_cases first : call = 0
  · subst first
    rw [alive_goto_first s stage events old found, after, State.alive, found, Option.any_some, before]
  · exact alive_goto_later s call stage events first

-- The object is usable exactly when a context has been published: the one of
-- the constructor at the latest, before any other call can be made.
structure Ready (s : State F) : Prop where
  flag : s.initialized = s.alive
  current : s.current.isSome = s.initialized
  several : 1 < s.calls.length → s.alive = true
  latest : s.current = lastPublished s.trace

theorem construct_ready (certPath keyPath : String) : Ready (construct certPath keyPath : State F) := by
  refine ⟨rfl, rfl, ?_, rfl⟩
  intro several
  simp [construct] at several

theorem loaded_stages (certPath keyPath : String) (call : Nat) (file : F) (old next : Stage F)
    (loads : old.loaded certPath keyPath call file = some next) : old.loading = true ∧ next.answered = false := by
  cases old with
  | create | useCertificateChainFile | usePrivateKeyFile | setOptions =>
      obtain rfl := Option.some.inj loads
      exact ⟨rfl, rfl⟩
  | _ => simp [Stage.loaded] at loads

theorem loading_stage (stage : Stage F) (loading : stage.loading = true) :
    stage.over = false ∧ stage.answered = false ∧ ∀ what, ¬ stage.failedWith what := by
  cases stage with
  | create | useCertificateChainFile | usePrivateKeyFile | setOptions => exact ⟨rfl, rfl, fun _ failed => failed⟩
  | _ => cases loading

theorem ready_goto (s : State F) (call : Nat) (stage : Stage F) (events : List (Event F)) (ready : Ready s)
    (alive : (s.goto call stage events).alive = s.alive) (quiet : lastPublished (events ++ s.trace) = lastPublished s.trace) :
    Ready (s.goto call stage events) where
  flag := ready.flag.trans alive.symm
  current := ready.current
  several several := alive.trans (ready.several (by simpa [State.goto] using several))
  latest := ready.latest.trans quiet.symm

theorem step_ready (s t : State F) (moved : Moved s t) (ready : Ready s) : Ready t := by
  cases moved with
  | loaded call old next file found loads =>
      obtain ⟨loading, after⟩ := loaded_stages _ _ call file old next loads
      obtain ⟨_, before, _⟩ := loading_stage old loading
      exact ready_goto s call next [] ready (alive_goto s call old next [] found before after) rfl
  | failed call old what found loading =>
      obtain ⟨_, before, _⟩ := loading_stage old loading
      exact ready_goto s call (.caught what) _ ready (alive_goto s call old _ _ found before rfl) rfl
  | published call ctx found =>
      have alive : (s.goto call (.returned true) [.stdout "[TLS] Reloaded cert/key successfully.\n",
          .published call ctx]).alive = true := by
        by_cases first : call = 0
        · subst first
          exact alive_goto_first s _ _ _ found
        · obtain ⟨bound, _⟩ := List.getElem?_eq_some_iff.mp found
          rw [alive_goto_later s call _ _ first]
          exact ready.several (by omega)
      exact ⟨alive.symm, rfl, fun _ => alive, rfl⟩
  | settled call what found =>
      apply ready_goto s call _ _ ready _ rfl
      by_cases first : call = 0
      · subst first
        have down : s.alive = false := by rw [State.alive, found]; rfl
        rw [alive_goto_first s _ _ _ found, ready.flag, down]
        rfl
      · exact alive_goto_later s call _ _ first
  | reload alive =>
      have still : State.alive { s with calls := s.calls ++ [.create] } = true := by
        cases calls : s.calls with
        | nil => simp [State.alive, calls] at alive
        | cons first rest => simpa [State.alive, calls] using alive
      exact ⟨ready.flag.trans (alive.trans still.symm), ready.current, fun _ => still, ready.latest⟩
  | got alive => exact ⟨ready.flag, ready.current, ready.several, ready.latest⟩

theorem moved_calls (s t : State F) (moved : Moved s t) :
    s.calls.length ≤ t.calls.length ∧ (s.initialized = true → t.initialized = true) := by
  cases moved with
  | loaded | failed | settled => exact ⟨by simp [State.goto], id⟩
  | published => exact ⟨by simp [State.goto], fun _ => rfl⟩
  | reload => exact ⟨by simp, id⟩
  | got => exact ⟨Nat.le_refl _, id⟩

theorem reachable_ready (certPath keyPath : String) (s : State F) (reachable : Reachable certPath keyPath s) : Ready s :=
  Machine.reachable_invariant _ _ _ Ready (construct_ready certPath keyPath)
    (fun before action after _ ready _ taken => step_ready before after (step_moved before after action taken) ready)
    s reachable

-- What a GetContext call has returned is what had been published by then.
def Served (s : State F) : Prop :=
  ∀ result earlier, .got result :: earlier <:+ s.trace → result.isSome = true ∧ result = lastPublished earlier

theorem served_cons (trace : List (Event F)) (event : Event F)
    (served : ∀ result earlier, .got result :: earlier <:+ trace → result.isSome = true ∧ result = lastPublished earlier)
    (quiet : ∀ result, event = .got result → result.isSome = true ∧ result = lastPublished trace) :
    ∀ result earlier, .got result :: earlier <:+ event :: trace →
      result.isSome = true ∧ result = lastPublished earlier := by
  intro result earlier suffix
  rcases List.suffix_cons_iff.mp suffix with whole | older
  · obtain ⟨rfl, rfl⟩ := List.cons.inj whole
    exact quiet result rfl
  · exact served result earlier older

theorem step_served (s t : State F) (moved : Moved s t) (ready : Ready s) (served : Served s) : Served t := by
  cases moved with
  | loaded call old next file found loads => exact served
  | failed call old what found loading => exact served_cons s.trace _ served (by simp)
  | published call ctx found => exact served_cons _ _ (served_cons s.trace _ served (by simp)) (by simp)
  | settled call what found => exact served_cons s.trace _ served (by simp)
  | reload alive => exact served
  | got alive =>
      apply served_cons s.trace _ served
      intro result same
      obtain rfl := Event.got.inj same
      exact ⟨ready.current.trans (ready.flag.trans alive), ready.latest⟩

theorem reachable_served (certPath keyPath : String) (s : State F) (reachable : Reachable certPath keyPath s) : Served s := by
  apply Machine.reachable_invariant _ _ _ Served _ _ s reachable
  · intro result earlier suffix
    simp [construct] at suffix
  · intro before action after previous served _ taken
    exact step_served before after (step_moved before after action taken)
      (reachable_ready certPath keyPath before previous) served

-- A context with everything the load was to put into it.
def Complete (certPath keyPath : String) (call : Nat) (ctx : Context F) : Prop :=
  ∃ certificate key, ctx = ⟨call, some (certPath, certificate), some (keyPath, key), true⟩

def Fits (certPath keyPath : String) (trace : List (Event F)) (call : Nat) : Stage F → Prop
  | .create => True
  | .useCertificateChainFile ctx => ctx = ⟨call, none, none, false⟩
  | .usePrivateKeyFile ctx => ∃ certificate, ctx = ⟨call, some (certPath, certificate), none, false⟩
  | .setOptions ctx => ∃ certificate key, ctx = ⟨call, some (certPath, certificate), some (keyPath, key), false⟩
  | .publish ctx => Complete certPath keyPath call ctx
  | .caught what => .loadRaised call what ∈ trace
  | .returned true => ∃ ctx, .published call ctx ∈ trace
  | .returned false => call ≠ 0 ∧ ∃ what, .loadRaised call what ∈ trace
  | .raised what => call = 0 ∧ .loadRaised call what ∈ trace

-- What each call has done, from where it stands and from the log.
structure Recorded (certPath keyPath : String) (s : State F) : Prop where
  paths : s.certPath = certPath ∧ s.keyPath = keyPath
  fits : ∀ call stage, s.calls[call]? = some stage → Fits certPath keyPath s.trace call stage
  published : ∀ call ctx, .published call ctx ∈ s.trace →
    Complete certPath keyPath call ctx ∧ s.calls[call]? = some (.returned true)
  raised : ∀ call what, .loadRaised call what ∈ s.trace →
    ∃ stage, s.calls[call]? = some stage ∧ stage.failedWith what

theorem fits_grow (certPath keyPath : String) (trace wider : List (Event F)) (call : Nat) (stage : Stage F)
    (kept : ∀ event ∈ trace, event ∈ wider) (fits : Fits certPath keyPath trace call stage) :
    Fits certPath keyPath wider call stage := by
  cases stage with
  | caught what => exact kept _ fits
  | raised what => exact ⟨fits.1, kept _ fits.2⟩
  | returned ok =>
      cases ok with
      | true => exact fits.imp fun ctx member => kept _ member
      | false => exact ⟨fits.1, fits.2.imp fun what member => kept _ member⟩
  | _ => exact fits

theorem goto_self (s : State F) (call : Nat) (old stage : Stage F) (events : List (Event F))
    (here : s.calls[call]? = some old) : (s.goto call stage events).calls[call]? = some stage := by
  obtain ⟨bound, _⟩ := List.getElem?_eq_some_iff.mp here
  rw [State.goto, List.getElem?_set_self bound]

theorem goto_other (s : State F) (call other : Nat) (stage : Stage F) (events : List (Event F)) (different : call ≠ other) :
    (s.goto call stage events).calls[other]? = s.calls[other]? := by
  rw [State.goto, List.getElem?_set_ne different]

-- One call moves on. It had published nothing, and what it has raised is not
-- forgotten where it stands then.
theorem recorded_goto (certPath keyPath : String) (s : State F) (call : Nat) (old stage : Stage F)
    (events : List (Event F)) (recorded : Recorded certPath keyPath s) (here : s.calls[call]? = some old)
    (underWay : old.over = false) (fresh : Fits certPath keyPath (events ++ s.trace) call stage)
    (publishes : ∀ other ctx, .published other ctx ∈ events →
      other = call ∧ Complete certPath keyPath call ctx ∧ stage = .returned true)
    (raises : ∀ other what, .loadRaised other what ∈ events → other = call ∧ stage.failedWith what)
    (stays : ∀ what, old.failedWith what → stage.failedWith what) :
    Recorded certPath keyPath (s.goto call stage events) where
  paths := recorded.paths
  fits other there found := by
    by_cases same : call = other
    · subst same
      obtain rfl := Option.some.inj ((goto_self s call old stage events here).symm.trans found)
      exact fresh
    · rw [goto_other s call other stage events same] at found
      exact fits_grow certPath keyPath s.trace _ other there (fun event member => List.mem_append_right events member)
        (recorded.fits other there found)
  published other ctx member := by
    rcases List.mem_append.mp member with new | before
    · obtain ⟨rfl, complete, rfl⟩ := publishes other ctx new
      exact ⟨complete, goto_self s other old _ events here⟩
    · obtain ⟨complete, returned⟩ := recorded.published other ctx before
      have different : call ≠ other := by
        intro same
        subst same
        obtain rfl := Option.some.inj (here.symm.trans returned)
        cases underWay
      exact ⟨complete, (goto_other s call other stage events different).trans returned⟩
  raised other what member := by
    rcases List.mem_append.mp member with new | before
    · obtain ⟨rfl, failed⟩ := raises other what new
      exact ⟨stage, goto_self s other old stage events here, failed⟩
    · obtain ⟨there, found, failed⟩ := recorded.raised other what before
      by_cases same : call = other
      · subst same
        obtain rfl := Option.some.inj (here.symm.trans found)
        exact ⟨stage, goto_self s call old stage events here, stays what failed⟩
      · exact ⟨there, (goto_other s call other stage events same).trans found, failed⟩

theorem fits_loaded (certPath keyPath : String) (trace : List (Event F)) (call : Nat) (file : F) (old next : Stage F)
    (fits : Fits certPath keyPath trace call old) (loads : old.loaded certPath keyPath call file = some next) :
    Fits certPath keyPath trace call next := by
  cases old with
  | create =>
      obtain rfl := Option.some.inj loads
      exact rfl
  | useCertificateChainFile ctx =>
      obtain rfl := Option.some.inj loads
      obtain rfl : ctx = _ := fits
      exact ⟨file, rfl⟩
  | usePrivateKeyFile ctx =>
      obtain rfl := Option.some.inj loads
      obtain ⟨certificate, rfl⟩ := fits
      exact ⟨certificate, file, rfl⟩
  | setOptions ctx =>
      obtain rfl := Option.some.inj loads
      obtain ⟨certificate, key, rfl⟩ := fits
      exact ⟨certificate, key, rfl⟩
  | _ => simp [Stage.loaded] at loads

theorem step_recorded (certPath keyPath : String) (s t : State F) (moved : Moved s t) (ready : Ready s)
    (recorded : Recorded certPath keyPath s) : Recorded certPath keyPath t := by
  obtain ⟨rfl, rfl⟩ := recorded.paths
  cases moved with
  | loaded call old next file found loads =>
      obtain ⟨underWay, _, unfailed⟩ := loading_stage old (loaded_stages _ _ call file old next loads).1
      apply recorded_goto _ _ s call old next [] recorded found underWay
      · exact fits_loaded _ _ s.trace call file old next (recorded.fits call old found) loads
      · simp
      · simp
      · intro what failed
        exact absurd failed (unfailed what)
  | failed call old what found loading =>
      obtain ⟨underWay, _, unfailed⟩ := loading_stage old loading
      apply recorded_goto _ _ s call old (.caught what) _ recorded found underWay
      · exact List.mem_cons_self
      · simp
      · intro other text member
        obtain ⟨rfl, rfl⟩ : other = call ∧ text = what := by simpa using member
        exact ⟨rfl, rfl⟩
      · intro text failed
        exact absurd failed (unfailed text)
  | published call ctx found =>
      have moved : Recorded s.certPath s.keyPath (s.goto call (.returned true)
          [.stdout "[TLS] Reloaded cert/key successfully.\n", .published call ctx]) := by
        apply recorded_goto _ _ s call (.publish ctx) (.returned true) _ recorded found rfl
        · exact ⟨ctx, List.mem_cons_of_mem _ List.mem_cons_self⟩
        · intro other context member
          obtain ⟨rfl, rfl⟩ : other = call ∧ context = ctx := by simpa using member
          exact ⟨rfl, recorded.fits other (.publish context) found, rfl⟩
        · simp
        · intro what failed
          exact failed.elim
      exact ⟨moved.paths, moved.fits, moved.published, moved.raised⟩
  | settled call what found =>
      have logged : .loadRaised call what ∈ s.trace := recorded.fits call (.caught what) found
      apply recorded_goto _ _ s call (.caught what) _ _ recorded found rfl
      · by_cases first : call = 0
        · subst first
          have down : s.initialized = false := by
            rw [ready.flag, State.alive, found]
            rfl
          rw [down]
          exact ⟨rfl, List.mem_cons_of_mem _ logged⟩
        · obtain ⟨bound, _⟩ := List.getElem?_eq_some_iff.mp found
          rw [ready.flag, ready.several (by omega)]
          exact ⟨first, what, List.mem_cons_of_mem _ logged⟩
      · simp
      · simp
      · intro text failed
        cases s.initialized with
        | true => rfl
        | false => exact failed
  | reload alive =>
      have kept : ∀ (call : Nat) (stage : Stage F), s.calls[call]? = some stage → (s.calls ++ [.create])[call]? = some stage := by
        intro call stage found
        obtain ⟨bound, _⟩ := List.getElem?_eq_some_iff.mp found
        rw [List.getElem?_append_left bound, found]
      refine ⟨⟨rfl, rfl⟩, ?_, ?_, ?_⟩
      · intro call stage found
        by_cases before : call < s.calls.length
        · rw [List.getElem?_append_left before] at found
          exact recorded.fits call stage found
        · rw [List.getElem?_append_right (by omega)] at found
          obtain rfl : Stage.create = stage := List.mem_singleton.mp (List.mem_of_getElem? found) ▸ rfl
          trivial
      · intro call ctx member
        exact (recorded.published call ctx member).imp id (kept call _)
      · intro call what member
        exact (recorded.raised call what member).imp fun stage there => ⟨kept call stage there.1, there.2⟩
  | got alive =>
      refine ⟨⟨rfl, rfl⟩, ?_, ?_, ?_⟩
      · intro call stage found
        exact fits_grow _ _ s.trace _ call stage (fun event => List.mem_cons_of_mem _) (recorded.fits call stage found)
      · intro call ctx member
        exact recorded.published call ctx (by simpa using member)
      · intro call what member
        exact recorded.raised call what (by simpa using member)

theorem reachable_recorded (certPath keyPath : String) (s : State F) (reachable : Reachable certPath keyPath s) :
    Recorded certPath keyPath s := by
  apply Machine.reachable_invariant _ _ _ (Recorded certPath keyPath) _ _ s reachable
  · refine ⟨⟨rfl, rfl⟩, ?_, ?_, ?_⟩
    · intro call stage found
      obtain rfl : stage = .create := by
        cases call with
        | zero => exact (Option.some.inj found).symm
        | succ n => simp [construct] at found
      trivial
    · simp [construct]
    · simp [construct]
  · intro before action after previous recorded _ taken
    exact step_recorded certPath keyPath before after (step_moved before after action taken)
      (reachable_ready certPath keyPath before previous) recorded

def Stage.rest : Stage F → Nat
  | .create => 5
  | .useCertificateChainFile _ => 4
  | .usePrivateKeyFile _ => 3
  | .setOptions _ => 2
  | .publish _ | .caught _ => 1
  | .returned _ | .raised _ => 0

theorem advance_lowers (s : State F) (call : Nat) (stage : Stage F) (answer : Except String F)
    (found : s.calls[call]? = some stage) (underWay : stage.over = false) :
    ∃ t next, s.advance call answer = some t ∧ t.calls[call]? = some next ∧ next.rest < stage.rest := by
  cases stage with
  | returned ok => cases underWay
  | raised what => cases underWay
  | publish ctx =>
      refine ⟨_, .returned true, by rw [State.advance, found], ?_, Nat.zero_lt_one⟩
      exact goto_self s call _ (.returned true) [] found
  | caught what =>
      refine ⟨_, _, by rw [State.advance, found], goto_self s call _ _ _ found, ?_⟩
      cases s.initialized <;> exact Nat.zero_lt_one
  | _ =>
      cases answer with
      | ok file => exact ⟨_, _, by rw [State.advance, found]; rfl, goto_self s call _ _ _ found, by simp [Stage.rest]⟩
      | error what => exact ⟨_, _, by rw [State.advance, found]; rfl, goto_self s call _ _ _ found, by simp [Stage.rest]⟩

-- Whatever the loads answer, a call that goes on ends.
theorem call_ends (s : State F) (call : Nat) (oracle : State F → Except String F) (bound : call < s.calls.length) :
    ∃ final, Machine.Reachable step (fun t action => action = .advance call (oracle t)) s final ∧
      ∃ stage, final.calls[call]? = some stage ∧ stage.over = true := by
  apply Machine.reachable_goal (· < ·) Nat.lt_wfRel.wf step _ (fun t => call < t.calls.length) _
    (fun t => (t.calls[call]?.map Stage.rest).getD 0) _ s bound
  intro t there unfinished
  have found : t.calls[call]? = some t.calls[call] := List.getElem?_eq_getElem there
  have underWay : t.calls[call].over = false := by
    by_cases ended : t.calls[call].over = true
    · exact absurd ⟨_, found, ended⟩ unfinished
    · exact Bool.eq_false_iff.mpr ended
  obtain ⟨after, next, taken, moved, lower⟩ := advance_lowers t call _ (oracle t) found underWay
  refine ⟨.advance call (oracle t), after, rfl, taken, (List.getElem?_eq_some_iff.mp moved).1, ?_⟩
  rw [moved, found]
  exact lower

theorem last_published_mem (trace : List (Event F)) (ctx : Context F) (last : lastPublished trace = some ctx) :
    ∃ call, .published call ctx ∈ trace := by
  induction trace with
  | nil => cases last
  | cons event earlier ih =>
      cases event with
      | published call newest =>
          obtain rfl := Option.some.inj last
          exact ⟨call, List.mem_cons_self⟩
      | _ => exact (ih last).imp fun call member => List.mem_cons_of_mem _ member

theorem call_over (certPath keyPath : String) (s : State F) (recorded : Recorded certPath keyPath s) (call : Nat)
    (stage : Stage F) (found : s.calls[call]? = some stage) (ended : stage.over = true) :
    (∃ what, stage = .raised what ∧ call = 0 ∧ .loadRaised call what ∈ s.trace) ∨
      (stage = .returned false ∧ call ≠ 0 ∧ ∃ what, .loadRaised call what ∈ s.trace) ∨
      (stage = .returned true ∧ ∀ what, .loadRaised call what ∉ s.trace) := by
  have fits := recorded.fits call stage found
  cases stage with
  | raised what => exact .inl ⟨what, rfl, fits⟩
  | returned ok =>
      cases ok with
      | false => exact .inr (.inl ⟨rfl, fits⟩)
      | true =>
          refine .inr (.inr ⟨rfl, ?_⟩)
          intro what logged
          obtain ⟨there, same, failed⟩ := recorded.raised call what logged
          obtain rfl := Option.some.inj (found.symm.trans same)
          cases failed
  | _ => cases ended

theorem serves_last_good (certPath keyPath : String) (s : State F) (reachable : Reachable certPath keyPath s) :
    (∀ stage, s.calls[0]? = some stage → stage.over = true →
        ((∃ what, stage = .raised what) ↔ ∃ what, .loadRaised 0 what ∈ s.trace)) ∧
      (∀ (call : Nat) (stage : Stage F), call ≠ 0 → s.calls[call]? = some stage → stage.over = true →
        ∃ ok, stage = .returned ok ∧ (ok = true ↔ ∀ what, .loadRaised call what ∉ s.trace)) ∧
      (∀ call : Nat, s.calls[call]? = some (.returned true) ↔ ∃ ctx, .published call ctx ∈ s.trace) ∧
      (∀ result earlier, .got result :: earlier <:+ s.trace → ∃ call ctx, result = some ctx ∧
        lastPublished earlier = some ctx ∧ .published call ctx ∈ earlier ∧ Complete certPath keyPath call ctx) ∧
      (s.alive = true → ∃ ctx, s.current = some ctx ∧ lastPublished s.trace = some ctx ∧
        step s .getContext = some { s with trace := .got (some ctx) :: s.trace }) ∧
      (∀ (call : Nat) (oracle : State F → Except String F), call < s.calls.length →
        ∃ final, Machine.Reachable step (fun t action => action = .advance call (oracle t)) s final ∧
          ∃ stage, final.calls[call]? = some stage ∧ stage.over = true) := by
  have ready := reachable_ready certPath keyPath s reachable
  have recorded := reachable_recorded certPath keyPath s reachable
  have served := reachable_served certPath keyPath s reachable
  refine ⟨?_, ?_, ?_, ?_, ?_, ?_⟩
  · intro stage found ended
    rcases call_over certPath keyPath s recorded 0 stage found ended with raised | failed | succeeded
    · obtain ⟨what, rfl, _, logged⟩ := raised
      exact ⟨fun _ => ⟨what, logged⟩, fun _ => ⟨what, rfl⟩⟩
    · exact absurd rfl failed.2.1
    · obtain ⟨rfl, none⟩ := succeeded
      constructor
      · intro raised
        obtain ⟨what, same⟩ := raised
        cases same
      · intro logged
        obtain ⟨what, member⟩ := logged
        exact absurd member (none what)
  · intro call stage later found ended
    rcases call_over certPath keyPath s recorded call stage found ended with raised | failed | succeeded
    · obtain ⟨what, _, first, _⟩ := raised
      exact absurd first later
    · obtain ⟨rfl, _, what, logged⟩ := failed
      exact ⟨false, rfl, fun ok => (by cases ok), fun quiet => absurd logged (quiet what)⟩
    · obtain ⟨rfl, quiet⟩ := succeeded
      exact ⟨true, rfl, fun _ => quiet, fun _ => rfl⟩
  · intro call
    constructor
    · intro found
      exact recorded.fits call (.returned true) found
    · intro published
      obtain ⟨ctx, member⟩ := published
      exact (recorded.published call ctx member).2
  · intro result earlier suffix
    obtain ⟨isSome, last⟩ := served result earlier suffix
    obtain ⟨ctx, rfl⟩ := Option.isSome_iff_exists.mp isSome
    obtain ⟨call, member⟩ := last_published_mem earlier ctx last.symm
    have logged : .published call ctx ∈ s.trace := suffix.mem (List.mem_cons_of_mem _ member)
    exact ⟨call, ctx, rfl, last.symm, member, (recorded.published call ctx logged).1⟩
  · intro alive
    obtain ⟨ctx, current⟩ := Option.isSome_iff_exists.mp (ready.current.trans (ready.flag.trans alive))
    exact ⟨ctx, current, ready.latest.symm.trans current, by rw [step, if_pos alive, current]⟩
  · intro call oracle bound
    exact call_ends s call oracle bound

-- The constructor loads the files, one reload fails at the key, and the next
-- one succeeds; GetContext is called before, between and after.
theorem serves_across_failed_reload :
    ∃ s : State Nat, Reachable "cert.pem" "key.pem" s ∧
      s.calls = [.returned true, .returned false, .returned true] ∧
      (∃ ok, (.returned false : Stage Nat) = .returned ok ∧ (ok = true ↔ ∀ what, .loadRaised 1 what ∉ s.trace)) ∧
      (∃ call ctx, (some ⟨2, some ("cert.pem", 3), some ("key.pem", 4), true⟩ : Option (Context Nat)) = some ctx ∧
        lastPublished (s.trace.drop 1) = some ctx ∧ .published call ctx ∈ s.trace.drop 1 ∧
        Complete "cert.pem" "key.pem" call ctx) := by
  obtain ⟨s, reachable, shown⟩ := Machine.run_exhibits step (fun _ _ => True) (construct "cert.pem" "key.pem" : State Nat)
    [.advance 0 (.ok 0), .advance 0 (.ok 1), .advance 0 (.ok 2), .advance 0 (.ok 0), .advance 0 (.ok 0), .getContext,
      .reloadContext, .advance 1 (.ok 0), .advance 1 (.ok 3), .advance 1 (.error "no such file"), .getContext,
      .advance 1 (.ok 0), .reloadContext, .advance 2 (.ok 0), .advance 2 (.ok 3), .advance 2 (.ok 4), .advance 2 (.ok 0),
      .advance 2 (.ok 0), .getContext]
    (fun s => s.calls == [.returned true, .returned false, .returned true] &&
      s.trace.head? == some (.got (some ⟨2, some ("cert.pem", 3), some ("key.pem", 4), true⟩))) (by decide)
  simp only [Bool.and_eq_true, beq_iff_eq] at shown
  obtain ⟨-, reloads, -, gets, -⟩ := serves_last_good "cert.pem" "key.pem" s reachable
  refine ⟨s, reachable, shown.1, reloads 1 (.returned false) (by decide) (by rw [shown.1]; rfl) rfl, ?_⟩
  apply gets
  obtain ⟨earlier, trace⟩ := List.head?_eq_some_iff.mp shown.2
  rw [trace]
  exact List.suffix_refl _

end Vectro.Tls
