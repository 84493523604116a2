import Vectro.LogAdapterMoves
import Mathlib.Data.List.Nodup

set_option autoImplicit false

namespace Vectro.Log

variable {C : Type}

-- What happens to the registrations, in order: a callback is passed to
-- RegisterCallback, a compare-exchange fails or succeeds, the list is cleared.
inductive Entry (C : Type) where
  | passed (cb : C)
  | failed (i : Nat)
  | effective (i : Nat)
  | cleared
deriving DecidableEq, Repr

def RegisterPc.entry (i : Nat) : RegisterPc → RegisterPc → List (Entry C)
  | .exchange _ _, .registered => [.effective i]
  | .exchange _ _, .copy _ => [.failed i]
  | _, _ => []

def entries (before : State C) (action : Action C) (after : State C) : List (Entry C) :=
  if after.fault then []
  else match action with
  | .registerCallback cb => [.passed cb]
  | .register i | .exchangeFails i =>
      match before.registrations[i]?, after.registrations[i]? with
      | some registration, some moved => registration.pc.entry i moved.pc
      | _, _ => []
  | .clearCallbacks => [.cleared]
  | _ => []

def Entry.given : Entry C → Option C
  | .passed cb => some cb
  | _ => none

def Entry.failure : Entry C → Option Nat
  | .failed i => some i
  | _ => none

def given (log : List (Entry C)) : List C := log.filterMap Entry.given

def failed (log : List (Entry C)) : List Nat := log.filterMap Entry.failure

def Entry.apply (since : List Nat) : Entry C → List Nat
  | .effective i => since ++ [i]
  | .cleared => []
  | _ => since

-- The registrations that have taken effect since the last clear.
def effective (log : List (Entry C)) : List Nat := log.foldl Entry.apply []

abbrev Noted (C : Type) := Machine.Recorded (State C) (Entry C)

def notedStep : Noted C → Action C → Option (Noted C) := Machine.recorded step entries

-- No call takes effect after one of its compare-exchanges has failed.
def firstTry (m : Noted C) : Action C → Bool
  | .register i =>
      match m.state.registrations[i]? with
      | some ⟨_, .exchange old _⟩ => m.state.callbacks != old || !(failed m.log).contains i
      | _ => true
  | _ => true

def FirstTry (m : Noted C) (action : Action C) : Prop := firstTry m action = true

instance (m : Noted C) (action : Action C) : Decidable (FirstTry m action) :=
  inferInstanceAs (Decidable (firstTry m action = true))

structure Kept (m : Noted C) : Prop where
  published : m.state.callbacks ≠ none → m.state.published ≠ none
  exact : ∀ cbs, m.state.published = some cbs → cbs = (effective m.log).map fun i => (given m.log)[i]?
  once : (effective m.log).Nodup
  full : ∀ cbs, m.state.published = some cbs → none ∉ cbs

-- What push_back puts at the end of the list: cb is moved from the first time,
-- and empty every other time.
def offer (log : List (Entry C)) (i : Nat) : Option C := if i ∈ failed log then none else (given log)[i]?

def Registration.Waits (lists : List (List (Option C))) (log : List (Entry C)) (i : Nat)
    (registration : Registration C) : Prop :=
  match registration.pc with
  | .load | .copy _ => registration.cb = offer log i
  | .exchange old new =>
      registration.cb = none ∧
        ∃ cbs, (old.bind fun k => lists[k]?) = some cbs ∧ lists[new]? = some (cbs ++ [offer log i])
  | .registered => True

structure Registered (s : State C) (log : List (Entry C)) : Prop where
  count : (given log).length = s.registrations.length
  known : ∀ i ∈ failed log, i < s.registrations.length
  waits : ∀ (i : Nat) (registration : Registration C), s.registrations[i]? = some registration →
    registration.Waits s.lists log i
  done : ∀ i ∈ effective log, ∃ registration, s.registrations[i]? = some registration ∧ registration.pc = .registered
  once : (effective log).Nodup
  bound : ∀ k, s.callbacks = some k → k < s.lists.length
  exact : ∀ cbs, s.published = some cbs → cbs = (effective log).map fun i => (given log)[i]?

theorem registered_frame (s after : State C) (log : List (Entry C)) (registered : Registered s log)
    (registrations : after.registrations = s.registrations) (lists : after.lists = s.lists)
    (callbacks : after.callbacks = s.callbacks) : Registered after log := by
  have published : after.published = s.published := by rw [State.published, callbacks, lists, State.published]
  exact ⟨registrations ▸ registered.count, registrations ▸ registered.known, registrations ▸ lists ▸ registered.waits,
    registrations ▸ registered.done, registered.once, callbacks ▸ lists ▸ registered.bound, published ▸ registered.exact⟩

-- A list that has been built never changes.
theorem built_stays (lists : List (List (Option C))) (new cbs : List (Option C)) (k : Nat) (found : lists[k]? = some cbs) :
    (lists ++ [new])[k]? = some cbs :=
  (List.getElem?_append_left (List.getElem?_eq_some_iff.mp found).1).trans found

theorem old_stays (lists : List (List (Option C))) (new cbs : List (Option C)) (old : Option Nat)
    (found : (old.bind fun k => lists[k]?) = some cbs) : (old.bind fun k => (lists ++ [new])[k]?) = some cbs := by
  obtain ⟨k, rfl, inside⟩ := Option.bind_eq_some_iff.mp found
  exact built_stays lists new cbs k inside

theorem waits_grow (lists : List (List (Option C))) (new : List (Option C)) (log : List (Entry C)) (i : Nat)
    (registration : Registration C) (waits : registration.Waits lists log i) :
    registration.Waits (lists ++ [new]) log i := by
  unfold Registration.Waits at waits ⊢
  cases here : registration.pc with
  | exchange old built =>
      rw [here] at waits
      obtain ⟨moved, cbs, before, after⟩ := waits
      exact ⟨moved, cbs, old_stays lists new cbs old before, built_stays lists new _ built after⟩
  | _ =>
      rw [here] at waits
      exact waits

theorem waits_log (lists : List (List (Option C))) (log more : List (Entry C)) (i : Nat) (registration : Registration C)
    (same : offer (log ++ more) i = offer log i) (waits : registration.Waits lists log i) :
    registration.Waits lists (log ++ more) i := by
  unfold Registration.Waits at waits ⊢
  rw [same]
  exact waits

theorem given_append (log more : List (Entry C)) : given (log ++ more) = given log ++ given more := List.filterMap_append

theorem failed_append (log more : List (Entry C)) : failed (log ++ more) = failed log ++ failed more :=
  List.filterMap_append

theorem effective_append (log : List (Entry C)) (entry : Entry C) :
    effective (log ++ [entry]) = entry.apply (effective log) := by
  rw [effective, List.foldl_append]
  rfl

-- The registrations that have taken effect are known by their callbacks.
theorem given_grows (log : List (Entry C)) (more : List C) (listed : List Nat) (inside : ∀ i ∈ listed, i < (given log).length) :
    (listed.map fun i => (given log ++ more)[i]?) = listed.map fun i => (given log)[i]? := by
  apply List.map_congr_left
  intro i member
  exact List.getElem?_append_left (inside i member)

theorem done_inside (s : State C) (log : List (Entry C)) (registered : Registered s log) :
    ∀ i ∈ effective log, i < (given log).length := by
  intro i member
  obtain ⟨registration, found, _⟩ := registered.done i member
  rw [registered.count]
  exact (List.getElem?_eq_some_iff.mp found).1

theorem passed_registered (s : State C) (log : List (Entry C)) (cb : C) (registered : Registered s log) :
    Registered { s with registrations := s.registrations ++ [⟨some cb, .load⟩] } (log ++ [.passed cb]) := by
  have grown : given (log ++ [.passed cb]) = given log ++ [cb] := given_append log [.passed cb]
  have same : failed (log ++ [.passed cb]) = failed log := (failed_append log [.passed cb]).trans (List.append_nil _)
  have still : effective (log ++ [.passed cb]) = effective log := effective_append log (.passed cb)
  refine ⟨?_, ?_, ?_, ?_, still ▸ registered.once, registered.bound, ?_⟩
  · rw [grown, List.length_append, List.length_append, registered.count]
    rfl
  · rw [same]
    intro i member
    exact Nat.lt_of_lt_of_le (registered.known i member) (by simp)
  · intro i registration found
    rcases Nat.lt_or_ge i s.registrations.length with old | new
    · rw [List.getElem?_append_left old] at found
      apply waits_log s.lists log [.passed cb] i registration _ (registered.waits i registration found)
      rw [offer, offer, same, grown, List.getElem?_append_left (registered.count ▸ old)]
    · rw [List.getElem?_append_right new] at found
      have last := List.mem_singleton.mp (List.mem_of_getElem? found)
      have index : i = (given log).length := by
        have inside := (List.getElem?_eq_some_iff.mp found).1
        rw [List.length_singleton] at inside
        rw [registered.count]
        omega
      have fresh : i ∉ failed log := fun member => Nat.not_lt.mpr new (registered.known i member)
      rw [last]
      change some cb = offer _ i
      rw [offer, same, if_neg fresh, grown, index, List.getElem?_concat_length]
  · rw [still]
    intro i member
    obtain ⟨registration, found, here⟩ := registered.done i member
    exact ⟨registration, (List.getElem?_append_left (List.getElem?_eq_some_iff.mp found).1).trans found, here⟩
  · intro cbs published
    rw [still, grown, given_grows log [cb] (effective log) (done_inside s log registered)]
    exact registered.exact cbs published

theorem registration_set (registrations : List (Registration C)) (i : Nat) (old next : Registration C)
    (found : registrations[i]? = some old) (j : Nat) (registration : Registration C)
    (present : (registrations.set i next)[j]? = some registration) :
    (j = i ∧ registration = next) ∨ (j ≠ i ∧ registrations[j]? = some registration) := by
  by_cases hit : i = j
  · subst j
    rw [List.getElem?_set_self (List.getElem?_eq_some_iff.mp found).1] at present
    exact .inl ⟨rfl, (Option.some.inj present).symm⟩
  · rw [List.getElem?_set_ne hit] at present
    exact .inr ⟨Ne.symm hit, present⟩

-- A call that has not returned is not among those that have taken effect.
theorem done_set (s : State C) (log : List (Entry C)) (registered : Registered s log) (i : Nat)
    (registration next : Registration C) (found : s.registrations[i]? = some registration)
    (active : registration.pc ≠ .registered) (j : Nat) (member : j ∈ effective log) :
    j ≠ i ∧ ∃ other, (s.registrations.set i next)[j]? = some other ∧ other.pc = .registered := by
  obtain ⟨other, present, here⟩ := registered.done j member
  have differs : j ≠ i := by
    rintro rfl
    have same : other = registration := Option.some.inj (present.symm.trans found)
    exact active (same ▸ here)
  exact ⟨differs, other, by rw [List.getElem?_set_ne (Ne.symm differs)]; exact present, here⟩

-- One call goes on without publishing; a list may have been built.
theorem waiting_registered (s after : State C) (log : List (Entry C)) (registered : Registered s log) (i : Nat)
    (registration next : Registration C) (found : s.registrations[i]? = some registration)
    (active : registration.pc ≠ .registered) (more : List (List (Option C)))
    (waits : ∀ (j : Nat) (other : Registration C), s.registrations[j]? = some other →
      other.Waits (s.lists ++ more) log j)
    (own : next.Waits (s.lists ++ more) log i) (registrations : after.registrations = s.registrations.set i next)
    (lists : after.lists = s.lists ++ more) (callbacks : after.callbacks = s.callbacks) : Registered after log := by
  have length : after.registrations.length = s.registrations.length := by rw [registrations, List.length_set]
  have published : after.published = s.published := by
    rw [State.published, callbacks, lists, State.published]
    cases here : s.callbacks with
    | none => rfl
    | some k => exact List.getElem?_append_left (registered.bound k here)
  refine ⟨length ▸ registered.count, length ▸ registered.known, ?_, ?_, registered.once, ?_, published ▸ registered.exact⟩
  · intro j other present
    rw [registrations] at present
    rw [lists]
    rcases registration_set s.registrations i registration next found j other present with ⟨rfl, rfl⟩ | ⟨_, old⟩
    · exact own
    · exact waits j other old
  · intro j member
    rw [registrations]
    exact (done_set s log registered i registration next found active j member).2
  · intro k here
    rw [lists, List.length_append]
    exact Nat.lt_of_lt_of_le (registered.bound k (callbacks ▸ here)) (Nat.le_add_right _ _)

theorem retry_registered (s : State C) (log : List (Entry C)) (registered : Registered s log) (i : Nat)
    (registration : Registration C) (found : s.registrations[i]? = some registration) (moved : registration.cb = none)
    (active : registration.pc ≠ .registered) :
    Registered (s.setRegistration i registration.cb (.copy s.callbacks)) (log ++ [.failed i]) := by
  have same : given (log ++ [.failed i]) = given log := (given_append log [.failed i]).trans (List.append_nil _)
  have grown : failed (log ++ [.failed i]) = failed log ++ [i] := failed_append log [.failed i]
  have still : effective (log ++ [.failed i]) = effective log := effective_append log (.failed i)
  have bound := (List.getElem?_eq_some_iff.mp found).1
  refine ⟨?_, ?_, ?_, ?_, still ▸ registered.once, registered.bound, ?_⟩
  · rw [same, State.setRegistration, List.length_set]
    exact registered.count
  · intro j member
    rw [grown] at member
    rw [State.setRegistration, List.length_set]
    rcases List.mem_append.mp member with old | new
    · exact registered.known j old
    · exact List.mem_singleton.mp new ▸ bound
  · intro j other present
    rcases registration_set s.registrations i registration _ found j other present with ⟨rfl, rfl⟩ | ⟨differs, old⟩
    · change registration.cb = offer _ j
      rw [moved, offer, grown, if_pos (List.mem_append_right _ List.mem_cons_self)]
    · apply waits_log s.lists log [.failed i] j other _ (registered.waits j other old)
      have apart : j ∈ failed log ++ [i] ↔ j ∈ failed log := by simp [differs]
      rw [offer, offer, same, grown]
      simp only [apart]
  · rw [still]
    intro j member
    exact (done_set s log registered i registration _ found active j member).2
  · rw [same, still]
    exact registered.exact

theorem publish_registered (s : State C) (log : List (Entry C)) (registered : Registered s log) (i new : Nat)
    (registration : Registration C) (cbs : List (Option C)) (found : s.registrations[i]? = some registration)
    (active : registration.pc ≠ .registered) (current : s.published = some cbs)
    (built : s.lists[new]? = some (cbs ++ [offer log i])) (fresh : i ∉ failed log) :
    Registered ({ s with callbacks := some new }.setRegistration i registration.cb .registered)
      (log ++ [.effective i]) := by
  have same : given (log ++ [.effective i]) = given log := (given_append log [.effective i]).trans (List.append_nil _)
  have failures : failed (log ++ [.effective i]) = failed log :=
    (failed_append log [.effective i]).trans (List.append_nil _)
  have grown : effective (log ++ [.effective i]) = effective log ++ [i] := effective_append log (.effective i)
  have bound := (List.getElem?_eq_some_iff.mp found).1
  have apart := done_set s log registered i registration ⟨registration.cb, .registered⟩ found active
  refine ⟨?_, ?_, ?_, ?_, ?_, ?_, ?_⟩
  · rw [same, State.setRegistration, List.length_set]
    exact registered.count
  · rw [failures, State.setRegistration, List.length_set]
    exact registered.known
  · intro j other present
    rcases registration_set s.registrations i registration _ found j other present with ⟨rfl, rfl⟩ | ⟨differs, old⟩
    · trivial
    · apply waits_log s.lists log [.effective i] j other _ (registered.waits j other old)
      rw [offer, offer, same, failures]
  · rw [grown]
    intro j member
    rcases List.mem_append.mp member with old | new
    · exact (apart j old).2
    · rw [List.mem_singleton.mp new]
      exact ⟨⟨registration.cb, .registered⟩, List.getElem?_set_self bound, rfl⟩
  · rw [grown]
    refine List.nodup_append.mpr ⟨registered.once, List.nodup_singleton i, ?_⟩
    intro j member k last
    rw [List.mem_singleton.mp last]
    exact (apart j member).1
  · intro k here
    cases here
    exact (List.getElem?_eq_some_iff.mp built).1
  · intro published here
    have eq : published = cbs ++ [offer log i] := Option.some.inj (here.symm.trans built)
    rw [eq, grown, same, List.map_append, ← registered.exact cbs current, offer, if_neg fresh]
    rfl

theorem clear_registered (s : State C) (log : List (Entry C)) (registered : Registered s log) :
    Registered { s with lists := s.lists ++ [[]], callbacks := some s.lists.length } (log ++ [.cleared]) := by
  have same : given (log ++ [.cleared]) = given log := (given_append log [.cleared]).trans (List.append_nil _)
  have failures : failed (log ++ [.cleared]) = failed log := (failed_append log [.cleared]).trans (List.append_nil _)
  have none : effective (log ++ [.cleared]) = [] := effective_append log .cleared
  refine ⟨same ▸ registered.count, failures ▸ registered.known, ?_, ?_, ?_, ?_, ?_⟩
  · intro i registration found
    apply waits_log _ log [.cleared] i registration
    · rw [offer, offer, same, failures]
    · exact waits_grow s.lists [] log i registration (registered.waits i registration found)
  · rw [none]
    exact List.forall_mem_nil _
  · rw [none]
    exact List.nodup_nil
  · intro k here
    cases here
    rw [List.length_append]
    exact Nat.lt_succ_self _
  · intro cbs here
    rw [none]
    exact (Option.some.inj (List.getElem?_concat_length.symm.trans here)).symm

theorem waits_offer (lists : List (List (Option C))) (log : List (Entry C)) (i : Nat) (registration : Registration C)
    (waits : registration.Waits lists log i) (here : registration.pc = .load ∨ ∃ old, registration.pc = .copy old) :
    registration.cb = offer log i := by
  unfold Registration.Waits at waits
  rcases here with here | ⟨old, here⟩ <;> rw [here] at waits <;> exact waits

theorem waits_exchange (lists : List (List (Option C))) (log : List (Entry C)) (i new : Nat) (old : Option Nat)
    (registration : Registration C) (waits : registration.Waits lists log i) (here : registration.pc = .exchange old new) :
    registration.cb = none ∧
      ∃ cbs, (old.bind fun k => lists[k]?) = some cbs ∧ lists[new]? = some (cbs ++ [offer log i]) := by
  unfold Registration.Waits at waits
  rw [here] at waits
  exact waits

theorem noted_registered (s after : State C) (log noted : List (Entry C)) (action : Action C) (i : Nat)
    (registration next : Registration C) (acts : action = .register i ∨ action = .exchangeFails i)
    (found : s.registrations[i]? = some registration) (notes : registration.pc.entry i next.pc = noted)
    (kept : Registered after (log ++ noted)) (registrations : after.registrations = s.registrations.set i next)
    (sound : after.fault = false) : Registered after (log ++ entries s action after) := by
  have present : after.registrations[i]? = some next := by
    rw [registrations, List.getElem?_set_self (List.getElem?_eq_some_iff.mp found).1]
  have same : entries s action after = noted := by
    rw [← notes]
    rcases acts with rfl | rfl <;> simp [entries, sound, found, present]
  rw [same]
  exact kept

theorem register_move_active (s after : State C) (i : Nat) (registration : Registration C)
    (moves : RegisterMove s i registration after) : registration.pc ≠ .registered := by
  intro ended
  cases moves with
  | load here | null _ here _ | copy _ _ here _ | publish _ _ here _ | retry _ _ here =>
      rw [here] at ended
      cases ended

theorem register_move_registered (s after : State C) (log : List (Entry C)) (action : Action C) (i : Nat)
    (registration : Registration C) (acts : action = .register i ∨ action = .exchangeFails i)
    (found : s.registrations[i]? = some registration) (sound : s.fault = false)
    (first : ∀ old new, registration.pc = .exchange old new → s.callbacks = old → after.callbacks = some new →
      i ∉ failed log)
    (moves : RegisterMove s i registration after) (registered : Registered s log) :
    Registered after (log ++ entries s action after) := by
  have waits := registered.waits i registration found
  have active := register_move_active s after i registration moves
  cases moves with
  | load here =>
      refine noted_registered s _ log [] action i registration ⟨registration.cb, .copy s.callbacks⟩ acts found
        (by rw [here]; rfl) ?_ rfl sound
      rw [List.append_nil]
      refine waiting_registered s _ log registered i registration _ found active [] ?_ ?_ rfl
        (List.append_nil _).symm rfl
      · rw [List.append_nil]
        exact registered.waits
      · exact waits_offer s.lists log i registration waits (.inl here)
  | null old here absent =>
      have none : entries s action s.undefined = [] := if_pos rfl
      rw [none, List.append_nil]
      exact registered_frame s _ log registered rfl rfl rfl
  | copy old cbs here built =>
      refine noted_registered s _ log [] action i registration ⟨none, .exchange old s.lists.length⟩ acts found
        (by rw [here]; rfl) ?_ rfl sound
      rw [List.append_nil]
      refine waiting_registered s _ log registered i registration _ found active [_] ?_ ?_ rfl rfl rfl
      · intro j other present
        exact waits_grow s.lists _ log j other (registered.waits j other present)
      · refine ⟨rfl, cbs, old_stays s.lists _ cbs old built, ?_⟩
        rw [← waits_offer s.lists log i registration waits (.inr ⟨old, here⟩)]
        exact List.getElem?_concat_length
  | publish old new here current =>
      obtain ⟨_, cbs, before, built⟩ := waits_exchange s.lists log i new old registration waits here
      refine noted_registered s _ log [.effective i] action i registration ⟨registration.cb, .registered⟩ acts found
        (by rw [here]; rfl) ?_ rfl sound
      exact publish_registered s log registered i new registration cbs found active
        (by rw [State.published, current]; exact before) built (first old new here current rfl)
  | retry old new here =>
      obtain ⟨moved, _⟩ := waits_exchange s.lists log i new old registration waits here
      refine noted_registered s _ log [.failed i] action i registration ⟨registration.cb, .copy s.callbacks⟩ acts found
        (by rw [here]; rfl) ?_ rfl sound
      exact retry_registered s log registered i registration found moved active

theorem first_try_fresh (m : Noted C) (i new : Nat) (old : Option Nat) (registration : Registration C)
    (allowed : FirstTry m (.register i)) (found : m.state.registrations[i]? = some registration)
    (here : registration.pc = .exchange old new) (current : m.state.callbacks = old) : i ∉ failed m.log := by
  obtain ⟨cb, pc⟩ := registration
  cases here
  simpa [FirstTry, firstTry, found, current] using allowed

theorem fails_callbacks (s after : State C) (i : Nat) (taken : step s (.exchangeFails i) = some after) :
    after.callbacks = s.callbacks := by
  unfold step at taken
  split at taken
  · cases taken
  · split at taken
    · cases taken
      rfl
    · obtain ⟨registration, _, failed⟩ := Option.bind_eq_some_iff.mp taken
      unfold exchangeFails at failed
      split at failed
      · cases failed
        rfl
      · cases failed

-- A compare-exchange that fails leaves the published list alone, and the list
-- built for it is another one.
theorem fails_publishes_nothing (s after : State C) (log : List (Entry C)) (registered : Registered s log) (i new : Nat)
    (old : Option Nat) (registration : Registration C) (found : s.registrations[i]? = some registration)
    (here : registration.pc = .exchange old new) (current : s.callbacks = old)
    (taken : step s (.exchangeFails i) = some after) : after.callbacks ≠ some new := by
  obtain ⟨_, cbs, before, built⟩ :=
    waits_exchange s.lists log i new old registration (registered.waits i registration found) here
  intro published
  rw [← current, ← fails_callbacks s after i taken, published] at before
  have longer := congrArg (Option.map List.length) (before.symm.trans built)
  simp at longer

def Action.registers : Action C → Bool
  | .registerCallback _ | .register _ | .exchangeFails _ | .clearCallbacks => true
  | _ => false

theorem entries_quiet (s after : State C) (action : Action C) (aside : action.registers = false) :
    entries s action after = [] := by
  unfold entries
  split
  · rfl
  · cases action <;> first | rfl | cases aside

theorem move_registered (s after : State C) (log : List (Entry C)) (action : Action C) (taken : step s action = some after)
    (allowed : FirstTry ⟨s, log⟩ action) (registered : Registered s log) :
    Registered after (log ++ entries s action after) := by
  have sound := step_sound s after action taken
  have quiet : entries s action after = [] → after.registrations = s.registrations → after.lists = s.lists →
      after.callbacks = s.callbacks → Registered after (log ++ entries s action after) := by
    intro none registrations lists callbacks
    rw [none, List.append_nil]
    exact registered_frame s after log registered registrations lists callbacks
  cases step_move s after action taken with
  | register _ i registration after acts found moves =>
      refine register_move_registered s after log action i registration acts found sound ?_ moves registered
      intro old new here current published
      rcases acts with rfl | rfl
      · exact first_try_fresh ⟨s, log⟩ i new old registration allowed found here current
      · exact absurd published (fails_publishes_nothing s after log registered i new old registration found here current taken)
  | registerCallback cb =>
      rw [show entries s (.registerCallback cb) _ = [.passed cb] from if_neg (by rw [sound]; exact Bool.false_ne_true)]
      exact passed_registered s log cb registered
  | clearCallbacks =>
      rw [show entries s .clearCallbacks _ = [.cleared] from if_neg (by rw [sound]; exact Bool.false_ne_true)]
      exact clear_registered s log registered
  | undefined _ gone => exact quiet (if_pos rfl) rfl rfl rfl
  | call _ i call after acts found moves =>
      have aside : action.registers = false := by
        rcases acts with rfl | ⟨what, rfl⟩ <;> rfl
      refine quiet (entries_quiet s after action aside) ?_ ?_ ?_ <;> cases moves <;> rfl
  | worker _ pc after acts stands moves =>
      have aside : action.registers = false := by
        rcases acts with rfl | ⟨outcome, rfl⟩ <;> rfl
      refine quiet (entries_quiet s after action aside) ?_ ?_ ?_ <;> cases moves <;> rfl
  | _ => exact quiet (entries_quiet s _ _ rfl) rfl rfl rfl

theorem construct_registered (id : String) (platform : Platform) (now steady : Int) :
    Registered (construct id platform now steady : State C) [] where
  count := rfl
  known := List.forall_mem_nil _
  waits := by
    intro i registration found
    cases found
  done := List.forall_mem_nil _
  once := List.nodup_nil
  bound := by
    intro k here
    cases here
  exact := by
    intro cbs here
    cases here

theorem registered_kept (m : Noted C) (registered : Registered m.state m.log) : Kept m := by
  refine ⟨?_, registered.exact, registered.once, ?_⟩
  · intro set
    obtain ⟨k, here⟩ := Option.ne_none_iff_exists'.mp set
    rw [State.published, here]
    exact (List.getElem?_eq_getElem (registered.bound k here)).trans_ne (Option.some_ne_none _)
  · intro cbs published missing
    rw [registered.exact cbs published] at missing
    obtain ⟨i, member, none⟩ := List.mem_map.mp missing
    rw [List.getElem?_eq_getElem (done_inside m.state m.log registered i member)] at none
    cases none

theorem reachable_registered (id : String) (platform : Platform) (now steady : Int) (m : Noted C)
    (reachable : Machine.Reachable notedStep FirstTry ⟨construct id platform now steady, []⟩ m) :
    Registered m.state m.log := by
  refine (Machine.recorded_invariant step entries FirstTry _ _ Registered
    (construct_registered id platform now steady) ?_ m reachable).2
  intro before action after log _ registered allowed taken
  exact move_registered before after log action taken allowed registered

theorem not_first_try (m : Noted C) (action : Action C) (retried : ¬ FirstTry m action) :
    ∃ i old new registration, action = .register i ∧ m.state.registrations[i]? = some registration ∧
      registration.pc = .exchange old new ∧ m.state.callbacks = old ∧ i ∈ failed m.log := by
  cases action with
  | register i =>
      cases found : m.state.registrations[i]? with
      | none => simp [FirstTry, firstTry, found] at retried
      | some registration =>
          obtain ⟨cb, pc⟩ := registration
          cases pc with
          | exchange old new =>
              simp only [FirstTry, firstTry, found, Bool.or_eq_true, bne_iff_ne, Bool.not_eq_true', not_or,
                Bool.not_eq_false, ne_eq, Decidable.not_not, List.contains_iff_mem] at retried
              exact ⟨i, old, new, _, rfl, found, rfl, retried.1, retried.2⟩
          | _ => simp [FirstTry, firstTry, found] at retried
  | _ => exact absurd rfl retried

-- The list that a retry publishes ends with an empty function.
theorem retried_breaks (m after : Noted C) (action : Action C) (registered : Registered m.state m.log)
    (taken : notedStep m action = some after) (defined : after.state.fault = false) (retried : ¬ FirstTry m action) :
    ¬ Kept after := by
  obtain ⟨i, old, new, registration, rfl, found, here, current, again⟩ := not_first_try m action retried
  obtain ⟨_, cbs, before, built⟩ :=
    waits_exchange m.state.lists m.log i new old registration (registered.waits i registration found) here
  obtain ⟨next, stepped, rfl⟩ := Option.map_eq_some_iff.mp taken
  have sound := step_sound m.state next _ stepped
  have alive : m.state.destructor.over = false := by
    cases gone : m.state.destructor.over with
    | false => rfl
    | true =>
        simp only [step, sound, gone, Bool.false_eq_true, if_false, if_true, afterDestruction, Option.some.injEq] at stepped
        rw [← stepped] at defined
        cases defined
  have published : next.published = some (cbs ++ [none]) := by
    simp only [step, sound, alive, found, registerCallback, here, current, Bool.false_eq_true, if_false, if_true,
      Option.bind_some, Option.some.injEq] at stepped
    rw [offer, if_pos again] at built
    rw [← stepped]
    exact built
  intro kept
  exact kept.full _ published (List.mem_append_right _ List.mem_cons_self)

theorem registrations_kept_iff (id : String) (platform : Platform) (now steady : Int) (m : Noted C)
    (reachable : Machine.Reachable notedStep FirstTry ⟨construct id platform now steady, []⟩ m) :
    Kept m ∧ ∀ action after, notedStep m action = some after → after.state.fault = false →
      (Kept after ↔ FirstTry m action) := by
  have registered := reachable_registered id platform now steady m reachable
  refine ⟨registered_kept m registered, ?_⟩
  intro action after taken defined
  constructor
  · intro kept
    by_contra retried
    exact retried_breaks m after action registered taken defined retried kept
  · intro allowed
    exact registered_kept after
      (reachable_registered id platform now steady after (.step m after action reachable allowed taken))

-- The second compare-exchange fails spuriously and the call has not retried
-- yet; the third registration is in the list.
theorem registrations_kept_pending :
    ∃ m : Noted Nat, Machine.Reachable notedStep FirstTry ⟨construct "app" ⟨toString, id, 9⟩ 0 0, []⟩ m ∧
      m.state.published = some [some 7, some 9] ∧ effective m.log = [0, 2] ∧ failed m.log = [1] ∧ Kept m := by
  obtain ⟨m, reachable, shown⟩ := Machine.run_exhibits notedStep FirstTry
    ⟨(construct "app" ⟨toString, id, 9⟩ 0 0 : State Nat), []⟩
    ([.clearCallbacks, .registerCallback 7, .register 0, .register 0, .register 0, .registerCallback 8, .register 1,
      .register 1, .exchangeFails 1, .registerCallback 9, .register 2, .register 2, .register 2])
    (fun m => m.state.published == some [some 7, some 9] && effective m.log == [0, 2] && failed m.log == [1]) (by decide)
  simp only [Bool.and_eq_true, beq_iff_eq] at shown
  obtain ⟨⟨published, effects⟩, failures⟩ := shown
  exact ⟨m, reachable, published, effects, failures, (registrations_kept_iff "app" _ 0 0 m reachable).1⟩

-- Two registrations race. The loser retries, and an empty function is
-- published in the place of its callback.
theorem racing_registration_lost :
    ¬ ∀ (id : String) (platform : Platform) (now steady : Int) (m : Noted Nat),
      Machine.Reachable notedStep (fun _ _ => True) ⟨construct id platform now steady, []⟩ m → Kept m := by
  intro always
  obtain ⟨m, reachable, shown⟩ := Machine.run_exhibits notedStep (fun _ _ => True)
    ⟨(construct "app" ⟨toString, id, 9⟩ 0 0 : State Nat), []⟩
    ([.clearCallbacks, .registerCallback 7, .registerCallback 8, .register 0, .register 1, .register 0, .register 1,
      .register 0, .register 1, .register 1, .register 1])
    (fun m => m.state.published == some [some 7, none]) (by decide)
  have kept := always "app" _ 0 0 m reachable
  exact kept.full _ (eq_of_beq shown) (by decide)

end Vectro.Log
