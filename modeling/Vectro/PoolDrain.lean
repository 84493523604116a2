import Vectro.PoolPlaces

set_option autoImplicit false

namespace Vectro.Pool

open Tally

variable {T W : Type}

-- A worker past its loop test pops its own queue once before it tests
-- running_ again at the top of the loop.
def WorkerPc.willPop : WorkerPc T W → Nat
  | .lock | .testRunning | .testTasks | .wait | .blocked | .own => 1
  | _ => 0

def WorkerPc.left : WorkerPc T W → Bool
  | .leave | .stop | .finished => true
  | _ => false

def Event.isShutdown : Event T W → Bool
  | .shutdown => true
  | _ => false

def acceptedBefore (trace : List (Event T W)) : List (TaskItem T W) :=
  pushedItems (trace.takeWhile fun event => !event.isShutdown)

structure Drained (s : State T W) : Prop where
  left : ∀ (w : Nat) (pc : WorkerPc T W) (queue : List (TaskItem T W)), s.workers[w]? = some pc → pc.left = true →
    s.queues[w]? = some queue → ∀ item ∈ queue, item ∉ acceptedBefore s.trace
  final : s.destructor = .final ∨ s.destructor = .destroyed →
    ∀ item ∈ acceptedBefore s.trace, item ∈ processedItems s.trace

def StartsDrained (s : State T W) : Action T W → Prop
  | .destroy => s.destructor = .alive → ∀ pair ∈ s.queues.zip s.workers, pair.1.length ≤ pair.2.willPop
  | _ => True

instance (s : State T W) (action : Action T W) : Decidable (StartsDrained s action) :=
  match action with
  | .destroy =>
      inferInstanceAs (Decidable (s.destructor = .alive → ∀ pair ∈ s.queues.zip s.workers, pair.1.length ≤ pair.2.willPop))
  | .submit .. | .call .. | .callFails .. | .worker .. | .workerThrows .. | .workerSteals .. | .updateConfig ..
  | .registerCallback | .setFinalCallback | .getDroppedCount | .clock .. => isTrue trivial

theorem accepted_before_append (trace events : List (Event T W)) (shut : ∃ event ∈ trace, event.isShutdown = true) :
    acceptedBefore (trace ++ events) = acceptedBefore trace := by
  have stops : (trace.takeWhile fun event => !event.isShutdown).length ≠ trace.length := by
    intro all
    obtain ⟨event, member, shutdown⟩ := shut
    have whole := List.IsPrefix.eq_of_length (List.takeWhile_prefix (fun event : Event T W => !event.isShutdown)) all
    have kept := List.all_eq_true.mp List.all_takeWhile event (whole.symm ▸ member)
    simp [shutdown] at kept
  rw [acceptedBefore, List.takeWhile_append, if_neg stops, acceptedBefore]

theorem accepted_before_pushed (trace : List (Event T W)) (item : TaskItem T W) (member : item ∈ acceptedBefore trace) :
    item ∈ pushedItems trace :=
  ((List.takeWhile_sublist _).filterMap _).subset member

theorem of_call_not_shutdown (event : Event T W) (called : event.ofCall = true) : event.isShutdown = false := by
  cases event <;> first | rfl | simp [Event.ofCall] at called

theorem of_worker_not_shutdown (event : Event T W) (worked : event.ofWorker = true) : event.isShutdown = false := by
  cases event <;> first | rfl | simp [Event.ofWorker] at worked

-- Until the destructor runs, running_ is set and no worker leaves; afterwards
-- the trace tells what was accepted before.
structure Halted (s : State T W) : Prop where
  alive : s.destructor = .alive →
    s.running = true ∧ (∀ pc ∈ s.workers, pc.left = false) ∧ ∀ event ∈ s.trace, event.isShutdown = false
  shut : s.destructor ≠ .alive → ∃ event ∈ s.trace, event.isShutdown = true

theorem halted_frame (s after : State T W) (halted : Halted s) (events : List (Event T W))
    (trace : after.trace = s.trace ++ events) (silent : ∀ event ∈ events, event.isShutdown = false)
    (destructor : after.destructor = s.destructor) (running : after.running = s.running)
    (workers : s.running = true → (∀ pc ∈ s.workers, pc.left = false) → ∀ pc ∈ after.workers, pc.left = false) :
    Halted after where
  alive := by
    intro alive
    obtain ⟨runs, present, quiet⟩ := halted.alive (destructor ▸ alive)
    refine ⟨running ▸ runs, workers runs present, ?_⟩
    intro event member
    rcases List.mem_append.mp (trace ▸ member) with old | new
    · exact quiet event old
    · exact silent event new
  shut := by
    intro gone
    obtain ⟨event, member, shutdown⟩ := halted.shut (destructor ▸ gone)
    exact ⟨event, by rw [trace]; exact List.mem_append_left _ member, shutdown⟩

theorem wake_left (workers : List (WorkerPc T W)) (present : ∀ pc ∈ workers, pc.left = false) :
    ∀ pc ∈ workers.map WorkerPc.wake, pc.left = false := by
  intro pc member
  obtain ⟨old, known, rfl⟩ := List.mem_map.mp member
  have stays := present old known
  cases old <;> exact stays

theorem worker_move_halted (s after : State T W) (w : Nat) (pc : WorkerPc T W) (found : s.workers[w]? = some pc)
    (moves : WorkerMove s w pc after) (halted : Halted s) : Halted after := by
  obtain ⟨events, trace, worked⟩ := worker_move_emits s after w pc moves
  have silent := fun event member => of_worker_not_shutdown event (worked event member)
  have here : (∀ pc ∈ s.workers, pc.left = false) → pc.left = false := fun present =>
    present pc (List.mem_of_getElem? found)
  have kept : ∀ next : WorkerPc T W, (s.running = true → pc.left = false → next.left = false) → s.running = true →
      (∀ pc ∈ s.workers, pc.left = false) → ∀ other ∈ s.workers.set w next, other.left = false := by
    intro next stays runs present
    exact Tally.forall_mem_set (fun pc => pc.left = false) s.workers w next present (stays runs (here present))
  cases moves with
  | exit shut =>
      refine halted_frame s _ halted events trace silent rfl rfl (kept .leave fun runs => ?_)
      rw [shut] at runs
      cases runs
  | leave => exact halted_frame s _ halted events trace silent rfl rfl (kept .stop fun _ gone => gone)
  | stop => exact halted_frame s _ halted events trace silent rfl rfl (kept .finished fun _ gone => gone)
  | outside => exact halted_frame s _ halted events trace silent rfl rfl fun _ present => present
  | _ => exact halted_frame s _ halted events trace silent rfl rfl (kept _ fun _ _ => rfl)

theorem move_halted (s after : State T W) (action : Action T W) (moves : Move s action after) (halted : Halted s) :
    Halted after := by
  cases moves with
  | submit owner payload wrappers sequential =>
      exact halted_frame s _ halted [_] rfl (by simp [Event.isShutdown]) rfl rfl fun _ present => present
  | call _ i call after acts found moves =>
      obtain ⟨events, trace, called⟩ := call_move_emits s after i call moves
      have silent := fun event member => of_call_not_shutdown event (called event member)
      cases moves with
      | signal => exact halted_frame s _ halted events trace silent rfl rfl fun _ => wake_left s.workers
      | _ => exact halted_frame s _ halted events trace silent rfl rfl fun _ present => present
  | worker _ w pc after acts found moves => exact worker_move_halted s after w pc found moves halted
  | destroy pc after here moves =>
      have shut : s.destructor ≠ .alive → ∃ event ∈ s.trace, event.isShutdown = true := halted.shut
      rw [here] at shut
      cases moves with
      | store => exact ⟨fun alive => by simp at alive, fun _ => ⟨.shutdown, by simp, rfl⟩⟩
      | drain next pc stands goes =>
          have past : pc ≠ .alive := by rcases stands with rfl | ⟨start, rfl | rfl⟩ <;> simp
          refine ⟨fun alive => ?_, fun _ => shut past⟩
          rcases goes with rfl | ⟨start, rfl | rfl⟩ <;> cases alive
      | final set =>
          obtain ⟨event, member, shutdown⟩ := shut (by simp)
          exact ⟨fun alive => by simp at alive, fun _ => ⟨event, List.mem_append_left _ member, shutdown⟩⟩
      | _ => exact ⟨fun alive => by simp at alive, fun _ => shut (by simp)⟩
  | registerCallback | getDroppedCount =>
      exact halted_frame s _ halted [_] rfl (by simp [Event.isShutdown]) rfl rfl fun _ present => present
  | _ => exact halted_frame s _ halted [] (List.append_nil _).symm (by simp) rfl rfl fun _ present => present

theorem reachable_halted (guard : State T W → Action T W → Prop) (cfg : TaskProcessorConfig) (now : Int)
    (s : State T W) (reachable : Machine.Reachable step guard (construct cfg now) s) : Halted s := by
  refine Machine.reachable_invariant step guard _ Halted ?_ ?_ s reachable
  · refine ⟨fun _ => ⟨rfl, ?_, by simp [construct]⟩, fun gone => absurd rfl gone⟩
    intro pc member
    rw [(List.mem_replicate.mp member).2]
    rfl
  · intro before action after _ halted _ taken
    exact move_halted before after action (step_move before after action taken).2 halted

-- Behind the task a worker is bound to pop, no task of its queue was accepted
-- before the destructor started.
def Spared (s : State T W) : Prop :=
  s.destructor ≠ .alive → ∀ (w : Nat) (pc : WorkerPc T W) (queue : List (TaskItem T W)), s.workers[w]? = some pc →
    s.queues[w]? = some queue → ∀ item ∈ queue.drop pc.willPop, item ∉ acceptedBefore s.trace

theorem spared_frame (s after : State T W) (spared : Spared s) (halted : Halted s)
    (gone : after.destructor ≠ .alive → s.destructor ≠ .alive) (events : List (Event T W))
    (trace : after.trace = s.trace ++ events)
    (kept : ∀ (w : Nat) (pc : WorkerPc T W) (queue : List (TaskItem T W)), after.workers[w]? = some pc →
      after.queues[w]? = some queue → ∃ old earlier, s.workers[w]? = some old ∧ s.queues[w]? = some earlier ∧
        ∀ item ∈ queue.drop pc.willPop, item ∈ earlier.drop old.willPop ∨ item ∉ pushedItems s.trace) : Spared after := by
  intro shut w pc queue found inside item member
  obtain ⟨old, earlier, present, known, before⟩ := kept w pc queue found inside
  rw [trace, accepted_before_append _ _ (halted.shut (gone shut))]
  rcases before item member with behind | fresh
  · exact spared (gone shut) w old earlier present known item behind
  · exact fun accepted => fresh (accepted_before_pushed s.trace item accepted)

theorem spared_quiet (s after : State T W) (spared : Spared s) (halted : Halted s)
    (gone : after.destructor ≠ .alive → s.destructor ≠ .alive) (events : List (Event T W))
    (trace : after.trace = s.trace ++ events) (queues : after.queues = s.queues)
    (workers : ∀ (w : Nat) (pc : WorkerPc T W), after.workers[w]? = some pc →
      ∃ old, s.workers[w]? = some old ∧ old.willPop ≤ pc.willPop) : Spared after := by
  apply spared_frame s after spared halted gone events trace
  intro w pc queue found inside
  obtain ⟨old, present, less⟩ := workers w pc found
  exact ⟨old, queue, present, queues ▸ inside, fun item member =>
    .inl ((List.drop_sublist_drop_left queue less).subset member)⟩

theorem set_get (cells : List (List (TaskItem T W))) (i j : Nat) (old new cell : List (TaskItem T W))
    (found : cells[i]? = some old) (present : (cells.set i new)[j]? = some cell) :
    (i = j ∧ cell = new) ∨ (i ≠ j ∧ cells[j]? = some cell) := by
  by_cases same : i = j
  · subst j
    rw [List.getElem?_set_self (List.getElem?_eq_some_iff.mp found).1] at present
    exact .inl ⟨rfl, (Option.some.inj present).symm⟩
  · exact .inr ⟨same, by rwa [List.getElem?_set_ne same] at present⟩

theorem wake_will_pop (workers : List (WorkerPc T W)) (w : Nat) (pc : WorkerPc T W)
    (found : (workers.map WorkerPc.wake)[w]? = some pc) :
    ∃ old, workers[w]? = some old ∧ old.willPop ≤ pc.willPop := by
  rw [List.getElem?_map, Option.map_eq_some_iff] at found
  obtain ⟨old, present, rfl⟩ := found
  refine ⟨old, present, ?_⟩
  cases old <;> exact Nat.le_refl _

theorem set_will_pop (workers : List (WorkerPc T W)) (w : Nat) (pc next : WorkerPc T W) (found : workers[w]? = some pc)
    (less : pc.willPop ≤ next.willPop) (j : Nat) (other : WorkerPc T W) (present : (workers.set w next)[j]? = some other) :
    ∃ old, workers[j]? = some old ∧ old.willPop ≤ other.willPop := by
  by_cases same : w = j
  · subst j
    rw [List.getElem?_set_self (List.getElem?_eq_some_iff.mp found).1] at present
    exact ⟨pc, found, Option.some.inj present ▸ less⟩
  · rw [List.getElem?_set_ne same] at present
    exact ⟨other, present, Nat.le_refl _⟩

theorem queue_spared (s after : State T W) (spared : Spared s) (halted : Halted s)
    (gone : after.destructor ≠ .alive → s.destructor ≠ .alive) (events : List (Event T W))
    (trace : after.trace = s.trace ++ events) (idx : Nat) (queue next : List (TaskItem T W))
    (inside : s.queues[idx]? = some queue) (queues : after.queues = s.queues.set idx next)
    (workers : ∀ (w : Nat) (pc : WorkerPc T W), after.workers[w]? = some pc →
      ∃ old, s.workers[w]? = some old ∧ (w ≠ idx → old.willPop ≤ pc.willPop) ∧
        (w = idx → ∀ item ∈ next.drop pc.willPop, item ∈ queue.drop old.willPop ∨ item ∉ pushedItems s.trace)) :
    Spared after := by
  apply spared_frame s after spared halted gone events trace
  intro w pc cell found present
  obtain ⟨old, known, elsewhere, here⟩ := workers w pc found
  rcases set_get s.queues idx w queue next cell inside (queues ▸ present) with ⟨rfl, rfl⟩ | ⟨differs, same⟩
  · exact ⟨old, queue, known, inside, here rfl⟩
  · exact ⟨old, cell, known, same, fun item member =>
      .inl ((List.drop_sublist_drop_left cell (elsewhere (Ne.symm differs))).subset member)⟩

theorem call_move_spared (s after : State T W) (i : Nat) (call : Call T W) (found : s.calls[i]? = some call)
    (moves : CallMove s i call after) (traced : Traced s) (halted : Halted s) (spared : Spared s) : Spared after := by
  obtain ⟨events, trace, _⟩ := call_move_emits s after i call moves
  have same : ∀ (w : Nat) (pc : WorkerPc T W), s.workers[w]? = some pc →
      ∃ old, s.workers[w]? = some old ∧ old.willPop ≤ pc.willPop := fun w pc present => ⟨pc, present, Nat.le_refl _⟩
  cases moves with
  | push idx queue here inside free room =>
      have fresh : call.item i ∉ pushedItems s.trace := by
        intro pushed
        obtain ⟨other, present, past, _⟩ := traced.genuine _ pushed
        have same : other = call := Option.some.inj (present.symm.trans found)
        rw [same, here] at past
        cases past
      refine queue_spared s _ spared halted (fun gone => gone) events trace idx queue _ inside rfl ?_
      intro w pc present
      refine ⟨pc, present, fun _ => Nat.le_refl _, fun _ item member => ?_⟩
      rw [List.drop_append] at member
      rcases List.mem_append.mp member with old | new
      · exact .inl old
      · have last : item = call.item i := by simpa using List.mem_of_mem_drop new
        exact .inr (last ▸ fresh)
  | signal => exact spared_quiet s _ spared halted (fun gone => gone) events trace rfl (wake_will_pop s.workers)
  | _ => exact spared_quiet s _ spared halted (fun gone => gone) events trace rfl same

theorem worker_move_spared (s after : State T W) (w : Nat) (pc : WorkerPc T W) (found : s.workers[w]? = some pc)
    (moves : WorkerMove s w pc after) (halted : Halted s) (spared : Spared s) : Spared after := by
  obtain ⟨events, trace, _⟩ := worker_move_emits s after w pc moves
  have kept : ∀ next : WorkerPc T W, pc.willPop ≤ next.willPop → ∀ (j : Nat) (other : WorkerPc T W),
      (s.workers.set w next)[j]? = some other → ∃ old, s.workers[j]? = some old ∧ old.willPop ≤ other.willPop :=
    fun next less => set_will_pop s.workers w pc next found less
  have bound := (List.getElem?_eq_some_iff.mp found).1
  cases moves with
  | take item rest inside free =>
      refine queue_spared s _ spared halted (fun gone => gone) events trace w _ rest inside rfl ?_
      intro j other present
      by_cases same : w = j
      · subst j
        have next : WorkerPc.subtract item = other := by
          simpa only [State.setWorker, State.emit, List.getElem?_set_self bound, Option.some.injEq] using present
        subst next
        exact ⟨.own, found, fun differs => absurd rfl differs, fun _ popped member => .inl member⟩
      · have old : s.workers[j]? = some other := by
          simpa only [State.setWorker, State.emit, List.getElem?_set_ne same] using present
        exact ⟨other, old, fun _ => Nat.le_refl _, fun hit => absurd hit.symm same⟩
  | empty inside free =>
      refine spared_frame s _ spared halted (fun gone => gone) events trace ?_
      intro j other queue present known
      by_cases same : w = j
      · subst j
        have none : queue = [] := Option.some.inj (known.symm.trans inside)
        exact ⟨.own, queue, found, known, fun item member => by simp [none] at member⟩
      · have old : s.workers[j]? = some other := by
          simpa only [State.setWorker, List.getElem?_set_ne same] using present
        exact ⟨other, queue, old, known, fun _ member => .inl member⟩
  | steal vic queue item inside free last =>
      refine queue_spared s _ spared halted (fun gone => gone) events trace vic queue _ inside rfl ?_
      intro j other present
      obtain ⟨old, known, less⟩ := kept (.subtract item) (Nat.le_refl _) j other present
      refine ⟨old, known, fun _ => less, fun _ other member => .inl ?_⟩
      have before := ((List.dropLast_sublist queue).drop _).subset member
      exact (List.drop_sublist_drop_left queue less).subset before
  | outside =>
      exact spared_quiet s _ spared halted (fun gone => gone) events trace rfl fun j other present =>
        ⟨other, present, Nat.le_refl _⟩
  | _ => exact spared_quiet s _ spared halted (fun gone => gone) events trace rfl (kept _ (by simp [WorkerPc.willPop]))

theorem move_spared (s after : State T W) (action : Action T W) (moves : Move s action after)
    (starts : StartsDrained s action) (traced : Traced s) (halted : Halted s) (spared : Spared s) : Spared after := by
  have same : ∀ (w : Nat) (pc : WorkerPc T W), s.workers[w]? = some pc →
      ∃ old, s.workers[w]? = some old ∧ old.willPop ≤ pc.willPop := fun w pc present => ⟨pc, present, Nat.le_refl _⟩
  cases moves with
  | call _ i call after acts found moves => exact call_move_spared s after i call found moves traced halted spared
  | worker _ w pc after acts found moves => exact worker_move_spared s after w pc found moves halted spared
  | destroy pc after here moves =>
      cases moves with
      | store =>
          intro _ w pc queue found inside item member
          have short := starts here (queue, pc) (List.mem_of_getElem? (i := w) (List.getElem?_zip_eq_some.mpr ⟨inside, found⟩))
          rw [List.drop_of_length_le short] at member
          cases member
      | signal =>
          exact spared_quiet s _ spared halted (fun _ => by simp [here]) [] (List.append_nil _).symm rfl
            (wake_will_pop s.workers)
      | drain next pc stands goes =>
          refine spared_quiet s _ spared halted (fun _ => ?_) [] (List.append_nil _).symm rfl same
          rcases stands with rfl | ⟨start, rfl | rfl⟩ <;> simp [here]
      | final set => exact spared_quiet s _ spared halted (fun _ => by simp [here]) [_] rfl rfl same
      | _ => exact spared_quiet s _ spared halted (fun _ => by simp [here]) [] (List.append_nil _).symm rfl same
  | submit | registerCallback | getDroppedCount =>
      exact spared_quiet s _ spared halted (fun gone => gone) [_] rfl rfl same
  | _ => exact spared_quiet s _ spared halted (fun gone => gone) [] (List.append_nil _).symm rfl same

-- The workers the destructor has joined, as a number of threads from the
-- front of workers_.
def DestructorPc.joined (threads : Nat) : DestructorPc → Nat
  | .join k => k
  | .await | .stop | .final | .destroyed => threads
  | _ => 0

structure Joined (s : State T W) : Prop where
  paired : s.queues.length = s.workers.length
  finished : ∀ (w : Nat) (pc : WorkerPc T W), w < s.destructor.joined s.workers.length → s.workers[w]? = some pc →
    pc = .finished

theorem joined_frame (s after : State T W) (joined : Joined s) (queues : after.queues.length = s.queues.length)
    (destructor : after.destructor = s.destructor) (length : after.workers.length = s.workers.length)
    (workers : ∀ (w : Nat) (pc : WorkerPc T W), after.workers[w]? = some pc → s.workers[w]? = some .finished →
      pc = .finished) : Joined after where
  paired := by rw [queues, length, joined.paired]
  finished := by
    intro w pc below found
    rw [destructor, length] at below
    have bound : w < s.workers.length := length ▸ (List.getElem?_eq_some_iff.mp found).1
    have present := List.getElem?_eq_getElem bound
    exact workers w pc found (joined.finished w _ below present ▸ present)

theorem wake_finished (workers : List (WorkerPc T W)) (w : Nat) (pc : WorkerPc T W)
    (found : (workers.map WorkerPc.wake)[w]? = some pc) (ended : workers[w]? = some .finished) : pc = .finished := by
  rw [List.getElem?_map, ended] at found
  exact (Option.some.inj found).symm

theorem worker_move_joined (s after : State T W) (w : Nat) (pc : WorkerPc T W) (found : s.workers[w]? = some pc)
    (moves : WorkerMove s w pc after) (joined : Joined s) : Joined after := by
  have kept : ∀ next : WorkerPc T W, pc ≠ .finished → ∀ (j : Nat) (other : WorkerPc T W),
      (s.workers.set w next)[j]? = some other → s.workers[j]? = some .finished → other = .finished := by
    intro next active j other present ended
    have differs : w ≠ j := by
      rintro rfl
      exact active (Option.some.inj (found.symm.trans ended))
    rw [List.getElem?_set_ne differs, ended] at present
    exact (Option.some.inj present).symm
  cases moves with
  | outside =>
      refine joined_frame s _ joined rfl rfl rfl fun j other present ended => ?_
      exact Option.some.inj (present.symm.trans ended)
  | take | steal => exact joined_frame s _ joined (List.length_set ..) rfl (List.length_set ..) (kept _ (by simp))
  | _ => exact joined_frame s _ joined rfl rfl (List.length_set ..) (kept _ (by simp))

theorem move_joined (s after : State T W) (action : Action T W) (moves : Move s action after) (joined : Joined s) :
    Joined after := by
  have same : ∀ (w : Nat) (pc : WorkerPc T W), s.workers[w]? = some pc → s.workers[w]? = some .finished →
      pc = .finished := fun w pc present ended => Option.some.inj (present.symm.trans ended)
  cases moves with
  | call _ i call after acts found moves =>
      cases moves with
      | push => exact joined_frame s _ joined (List.length_set ..) rfl rfl same
      | signal => exact joined_frame s _ joined rfl rfl (List.length_map ..) (wake_finished s.workers)
      | _ => exact joined_frame s _ joined rfl rfl rfl same
  | worker _ w pc after acts found moves => exact worker_move_joined s after w pc found moves joined
  | destroy pc after here moves =>
      have ended := joined.finished
      rw [here] at ended
      cases moves with
      | store => exact ⟨joined.paired, fun w pc below => by simp [DestructorPc.joined] at below⟩
      | signal =>
          refine ⟨by simpa using joined.paired, fun w pc below => ?_⟩
          simp [DestructorPc.joined] at below
      | drain next pc stands goes =>
          refine ⟨joined.paired, fun w pc below => ?_⟩
          rcases goes with rfl | ⟨start, rfl | rfl⟩ <;> simp [DestructorPc.joined] at below
      | join k pc found finished =>
          refine ⟨joined.paired, fun w other below present => ?_⟩
          rcases Nat.lt_succ_iff_lt_or_eq.mp below with earlier | last
          · exact ended w other earlier present
          · rw [last, found] at present
            rw [← Option.some.inj present]
            cases pc <;> first | rfl | simp [WorkerPc.returned] at finished
      | joined k beyond =>
          refine ⟨joined.paired, fun w other below present => ended w other ?_ present⟩
          exact Nat.lt_of_lt_of_le below (List.getElem?_eq_none_iff.mp beyond)
      | _ => exact ⟨joined.paired, ended⟩
  | _ => exact joined_frame s _ joined rfl rfl rfl same

theorem reachable_joined (guard : State T W → Action T W → Prop) (cfg : TaskProcessorConfig) (now : Int)
    (s : State T W) (reachable : Machine.Reachable step guard (construct cfg now) s) : Joined s := by
  refine Machine.reachable_invariant step guard _ Joined ?_ ?_ s reachable
  · refine ⟨by simp [construct], fun w pc below => ?_⟩
    simp [construct, DestructorPc.joined] at below
  · intro before action after _ joined _ taken
    exact move_joined before after action (step_move before after action taken).2 joined

theorem reachable_spared (cfg : TaskProcessorConfig) (now : Int) (s : State T W)
    (reachable : Machine.Reachable step StartsDrained (construct cfg now) s) : Spared s := by
  refine Machine.reachable_invariant step StartsDrained _ Spared (fun gone => absurd rfl gone) ?_ s reachable
  intro before action after earlier spared starts taken
  exact move_spared before after action (step_move before after action taken).2 starts
    (reachable_conserved _ cfg now before earlier).2 (reachable_halted _ cfg now before earlier) spared

theorem left_drained (s : State T W) (halted : Halted s) (spared : Spared s) (w : Nat) (pc : WorkerPc T W)
    (queue : List (TaskItem T W)) (found : s.workers[w]? = some pc) (left : pc.left = true)
    (inside : s.queues[w]? = some queue) : ∀ item ∈ queue, item ∉ acceptedBefore s.trace := by
  have gone : s.destructor ≠ .alive := by
    intro alive
    have present := (halted.alive alive).2.1 pc (List.mem_of_getElem? found)
    rw [left] at present
    cases present
  have idle : pc.willPop = 0 := by cases pc <;> first | rfl | simp [WorkerPc.left] at left
  have behind := spared gone w pc queue found inside
  rwa [idle] at behind

-- With every worker joined an accepted task is neither held nor, if no queue
-- has one, queued, and conservation leaves one place.
theorem settled_processed (s : State T W) (conserved : Conserved s) (traced : Traced s)
    (ended : ∀ pc ∈ s.workers, pc = .finished) (item : TaskItem T W) (pushed : item ∈ pushedItems s.trace)
    (absent : ∀ queue ∈ s.queues, item ∉ queue) : item ∈ processedItems s.trace := by
  obtain ⟨call, found, past, built⟩ := traced.genuine item pushed
  have only : ∀ other ∈ pushedItems s.trace, other.call = item.call → other = item := by
    intro other member same
    have mine := genuine_item s.calls call other (traced.genuine other member) (same ▸ found)
    rw [mine, same, ← built]
  have sum := conserved item.call
  rw [if_pos (List.getElem?_eq_some_iff.mp found).1] at sum
  have done : unpushed s.calls item.call = 0 := by simp [unpushed, found, past]
  have hands : inHands s.workers item.call = 0 := by
    rw [inHands, total_eq_zero]
    intro pc member
    rw [ended pc member]
    rfl
  have queues : inQueues s.queues item.call = 0 := by
    rw [inQueues, total_eq_zero]
    intro queue member
    rw [List.countP_eq_zero]
    intro other present same
    have hit := only other (traced.queued queue member other present) (by simpa using same)
    exact absent queue member (hit ▸ present)
  obtain ⟨other, member, same⟩ := List.countP_pos_iff.mp (show 0 < processedOf s.trace item.call by omega)
  exact only other (traced.processed other member) (by simpa using same) ▸ member

theorem shutdown_drains (cfg : TaskProcessorConfig) (now : Int) (s : State T W)
    (reachable : Machine.Reachable step StartsDrained (construct cfg now) s) : Drained s := by
  have halted := reachable_halted _ cfg now s reachable
  have joined := reachable_joined _ cfg now s reachable
  have spared := reachable_spared cfg now s reachable
  obtain ⟨conserved, traced⟩ := reachable_conserved _ cfg now s reachable
  refine ⟨left_drained s halted spared, ?_⟩
  intro final item accepted
  have all : s.destructor.joined s.workers.length = s.workers.length := by rcases final with here | here <;> rw [here] <;> rfl
  have ended : ∀ (w : Nat) (pc : WorkerPc T W), s.workers[w]? = some pc → pc = .finished := by
    intro w pc found
    exact joined.finished w pc (by rw [all]; exact (List.getElem?_eq_some_iff.mp found).1) found
  refine settled_processed s conserved traced ?_ item (accepted_before_pushed s.trace item accepted) ?_
  · intro pc member
    obtain ⟨w, found⟩ := List.mem_iff_getElem?.mp member
    exact ended w pc found
  · intro queue member present
    obtain ⟨w, inside⟩ := List.mem_iff_getElem?.mp member
    have bound : w < s.workers.length := joined.paired ▸ (List.getElem?_eq_some_iff.mp inside).1
    have found := List.getElem?_eq_getElem bound
    exact left_drained s halted spared w _ queue found (by rw [ended w _ found]; rfl) inside item present accepted

def draining : TaskProcessorConfig := { numThreads := 1, shutdownTimeout := 5000, enableDrainOnShutdown := true }

def TimeStands (_ : State T W) : Action T W → Prop
  | .clock _ => False
  | _ => True

instance (s : State T W) (action : Action T W) : Decidable (TimeStands s action) :=
  match action with
  | .clock .. => isFalse id
  | .submit .. | .call .. | .callFails .. | .worker .. | .workerThrows .. | .workerSteals .. | .destroy
  | .updateConfig .. | .registerCallback | .setFinalCallback | .getDroppedCount => isTrue trivial

-- The worker is busy with the first task when running_ is cleared, and tests
-- running_ before it looks at its queue again.
def abandonedTask : List (Action Nat Nat) :=
  [[.submit 0 7 []], List.replicate 8 (.call 0), [.submit 0 8 []], List.replicate 8 (.call 1),
    List.replicate 6 (.worker 0), [.destroy, .destroy, .destroy], List.replicate 6 (.worker 0)].flatten

theorem task_abandoned_at_shutdown :
    ¬ ∀ s : State Nat Nat, Machine.Reachable step TimeStands (construct draining 0) s → Drained s := by
  intro claimed
  obtain ⟨s, reachable, shown⟩ := Machine.run_exhibits step TimeStands (construct draining 0) abandonedTask
    (fun s => s.workers == [.leave] && s.queues == [[⟨8, [], 1⟩]] && (acceptedBefore s.trace).contains ⟨8, [], 1⟩)
    (by decide)
  simp only [Bool.and_eq_true, beq_iff_eq, List.contains_iff_mem] at shown
  obtain ⟨⟨workers, queues⟩, accepted⟩ := shown
  exact (claimed s reachable).left 0 .leave [⟨8, [], 1⟩] (by rw [workers]; rfl) rfl (by rw [queues]; rfl) _
    List.mem_cons_self accepted

-- Here the worker stands before its pop when running_ is cleared.
def drainedTask : List (Action Nat Nat) :=
  [[.submit 0 7 []], List.replicate 8 (.call 0), List.replicate 4 (.worker 0), [.destroy, .destroy],
    List.replicate 10 (.worker 0), List.replicate 7 .destroy].flatten

theorem shutdown_drains_popping :
    ∃ s : State Nat Nat, Machine.Reachable step StartsDrained (construct draining 0) s ∧ s.destructor = .destroyed ∧
      acceptedBefore s.trace = [⟨7, [], 0⟩] ∧ Drained s := by
  obtain ⟨s, reachable, shown⟩ := Machine.run_exhibits step StartsDrained (construct draining 0) drainedTask
    (fun s => s.destructor == .destroyed && acceptedBefore s.trace == [⟨7, [], 0⟩]) (by decide)
  simp only [Bool.and_eq_true, beq_iff_eq] at shown
  exact ⟨s, reachable, shown.1, shown.2, shutdown_drains draining 0 s reachable⟩

end Vectro.Pool
