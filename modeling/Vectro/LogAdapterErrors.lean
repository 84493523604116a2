import Mathlib.Data.List.Induction
import Vectro.LogAdapterMoves

set_option autoImplicit false

namespace Vectro.Log

variable {C : Type}

def Event.reports (sofar : String) : Event C → String
  | .called _ _ outcome => sofar ++ outcome.report
  | .dispatched _ => ""
  | _ => sofar

-- What the callbacks of the message under way have raised, as text.
def pendingReports (trace : List (Event C)) : String := trace.foldl Event.reports ""

-- The end of every Dispatch in which a callback has raised is preceded by one
-- write to stderr with all that was raised, in order.
def Reported (trace : List (Event C)) : Prop :=
  ∀ before lm, before ++ [.dispatched lm] <+: trace → pendingReports before ≠ "" →
    before.getLast? = some (.stderr (pendingReports before))

theorem pending_reports_append (trace : List (Event C)) (event : Event C) :
    pendingReports (trace ++ [event]) = event.reports (pendingReports trace) := by
  rw [pendingReports, List.foldl_append]
  rfl

theorem pending_reports_dispatched (trace : List (Event C)) (lm : LogMessage) : pendingReports (trace ++ [.dispatched lm]) = "" :=
  pending_reports_append trace _

theorem reported_append (trace : List (Event C)) (event : Event C) (reported : Reported trace)
    (last : ∀ lm, event = .dispatched lm → pendingReports trace ≠ "" → trace.getLast? = some (.stderr (pendingReports trace))) :
    Reported (trace ++ [event]) := by
  intro before lm part raised
  rcases List.prefix_concat_iff.mp part with whole | earlier
  · obtain ⟨rfl, same⟩ := List.append_inj' whole rfl
    exact last lm (List.singleton_inj.mp same).symm raised
  · exact reported before lm earlier raised

def WorkerPc.calling : WorkerPc C → Bool
  | .callbacks _ _ _ _ => true
  | _ => false

structure Accounted (s : State C) : Prop where
  buffer : s.errorBuffer = pendingReports s.trace
  flushed : s.worker.calling = false → s.errorBuffer = ""
  reported : Reported s.trace

-- Any step outside the callbacks of a message.
theorem accounted_frame (s after : State C) (accounted : Accounted s) (log : List (Event C)) (trace : after.trace = s.trace ++ log)
    (quiet : ∀ event ∈ log, (∀ sofar, event.reports sofar = sofar) ∧ ∀ lm, event ≠ .dispatched lm)
    (worker : after.worker.calling = false → s.worker.calling = false) (buffer : after.errorBuffer = s.errorBuffer := by rfl) :
    Accounted after := by
  have both : pendingReports (s.trace ++ log) = pendingReports s.trace ∧ Reported (s.trace ++ log) := by
    clear trace
    induction log using List.reverseRecOn with
    | nil => exact ⟨by rw [List.append_nil], by rw [List.append_nil]; exact accounted.reported⟩
    | append_singleton log event ih =>
        obtain ⟨same, reported⟩ := ih fun other member => quiet other (List.mem_append_left _ member)
        obtain ⟨silent, ongoing⟩ := quiet event (List.mem_append_right _ List.mem_cons_self)
        rw [← List.append_assoc]
        refine ⟨by rw [pending_reports_append, silent, same], reported_append _ event reported ?_⟩
        intro lm ended
        exact absurd ended (ongoing lm)
  refine ⟨?_, ?_, by rw [trace]; exact both.2⟩
  · rw [buffer, trace, both.1]
    exact accounted.buffer
  · intro outside
    rw [buffer]
    exact accounted.flushed (worker outside)

theorem wake_calling (pc : WorkerPc C) : pc.wake.calling = pc.calling := by cases pc <;> rfl

theorem call_move_accounted (s after : State C) (i : Nat) (call : Call) (moves : CallMove s i call after) (accounted : Accounted s) :
    Accounted after := by
  cases moves with
  | drop | push | fail =>
      exact accounted_frame s _ accounted [_] rfl (by simp [Event.reports]) fun outside => outside
  | signal =>
      refine accounted_frame s _ accounted [] (List.append_nil _).symm (by simp) fun outside => ?_
      rwa [← wake_calling]
  | _ => exact accounted_frame s _ accounted [] (List.append_nil _).symm (by simp) fun outside => outside

theorem worker_move_accounted (s after : State C) (pc : WorkerPc C) (stands : s.worker = pc) (moves : WorkerMove s pc after)
    (accounted : Accounted s) : Accounted after := by
  have outside : pc.calling = false → s.worker.calling = false := by
    rw [stands]
    exact fun outside => outside
  cases moves with
  | leave | block | swap | drain =>
      exact accounted_frame s _ accounted [_] rfl (by simp [Event.reports]) fun _ => outside rfl
  | unset => exact accounted_frame s _ accounted [] (List.append_nil _).symm (by simp) fun calm => calm
  | default lm remaining drained empty =>
      have silent := accounted.flushed (outside rfl)
      have pending := accounted.buffer.symm.trans silent
      have logged : pendingReports (s.trace ++ [.stderr (defaultLog s.platform lm)]) = "" := by
        rw [pending_reports_append]
        exact pending
      have reported := reported_append s.trace (.stderr (defaultLog s.platform lm)) accounted.reported (by simp)
      refine ⟨?_, fun _ => silent, reported_append _ _ reported ?_⟩
      · exact silent.trans (pending_reports_dispatched _ lm).symm
      · intro other ended raised
        exact absurd logged raised
  | invoke outcome cb lm cbs remaining drained unset =>
      refine ⟨?_, fun calm => (by cases calm), reported_append _ _ accounted.reported (by simp)⟩
      refine Eq.trans ?_ (pending_reports_append s.trace (.called cb lm outcome)).symm
      rw [← accounted.buffer]
      rfl
  | silent lm remaining drained silent =>
      refine ⟨?_, fun _ => silent, reported_append _ _ accounted.reported ?_⟩
      · exact silent.trans (pending_reports_dispatched _ lm).symm
      · intro other ended raised
        exact absurd (accounted.buffer.symm.trans silent) raised
  | report lm remaining drained threw =>
      have written : pendingReports (s.trace ++ [.stderr s.errorBuffer]) = s.errorBuffer := by
        rw [pending_reports_append]
        exact accounted.buffer.symm
      have reported := reported_append s.trace (.stderr s.errorBuffer) accounted.reported (by simp)
      refine ⟨(pending_reports_dispatched _ lm).symm, fun _ => rfl, reported_append _ _ reported ?_⟩
      intro other ended raised
      exact List.getLast?_concat.trans (congrArg (fun text => some (Event.stderr text)) written.symm)
  | notify dropped drained due =>
      exact accounted_frame s _ accounted [_, _] (List.append_assoc _ _ _) (by simp [Event.reports]) fun _ => outside rfl
  | dispatch => exact accounted_frame s _ accounted [] (List.append_nil _).symm (by simp) fun _ => outside rfl
  | _ => exact accounted_frame s _ accounted [] (List.append_nil _).symm (by simp) fun _ => outside rfl

theorem move_accounted (s after : State C) (action : Action C) (moves : Move s action after) (accounted : Accounted s) :
    Accounted after := by
  cases moves with
  | call _ i call after acts found moves => exact call_move_accounted s after i call moves accounted
  | worker _ pc after acts stands moves => exact worker_move_accounted s after pc stands moves accounted
  | wake | shutdown =>
      refine accounted_frame s _ accounted [] (List.append_nil _).symm (by simp) fun outside => ?_
      rwa [← wake_calling]
  | register _ i registration after acts found moves =>
      cases moves <;> exact accounted_frame s _ accounted [] (List.append_nil _).symm (by simp) fun outside => outside
  | getDroppedCount => exact accounted_frame s _ accounted [_] rfl (by simp [Event.reports]) fun outside => outside
  | _ => exact accounted_frame s _ accounted [] (List.append_nil _).symm (by simp) fun outside => outside

-- No exception of a callback is lost, doubled or mixed with another message's.
theorem callback_errors_reported (id : String) (platform : Platform) (now steady : Int) (s : State C)
    (reachable : Machine.Reachable step (fun _ _ => True) (construct id platform now steady) s) :
    Reported s.trace ∧ s.errorBuffer = pendingReports s.trace ∧
      ((∀ lm cbs remaining drained, s.worker ≠ .callbacks lm cbs remaining drained) → s.errorBuffer = "") := by
  have accounted : Accounted s := by
    refine Machine.reachable_invariant step _ _ Accounted ⟨rfl, fun _ => rfl, ?_⟩ ?_ s reachable
    · intro before lm part
      exact absurd (List.prefix_nil.mp part) (by simp)
    · intro before action after _ accounted _ taken
      exact move_accounted before after action (step_move before after action taken) accounted
  refine ⟨accounted.reported, accounted.buffer, fun outside => accounted.flushed ?_⟩
  cases stands : s.worker with
  | callbacks lm cbs remaining drained => exact absurd stands (outside lm cbs remaining drained)
  | _ => rfl

-- Two callbacks, of which the second throws on the first message.
def secondThrows : List (Action Nat) :=
  [[.clearCallbacks, .registerCallback 7, .register 0, .register 0, .register 0, .registerCallback 8, .register 1, .register 1,
    .register 1, .log 1 .info "up"], List.replicate 5 (.call 0), [.worker, .worker, .callback .returned, .callback (.threw "full"),
    .worker]].flatten

theorem second_throws_reported :
    ∃ s : State Nat, Machine.Reachable step (fun _ _ => True) (construct "app" ⟨toString, id, 9⟩ 0 0) s ∧ Reported s.trace ∧
      Event.stderr "[Callback exception] full\n" ∈ s.trace ∧ s.errorBuffer = "" := by
  have evaluated : (Machine.run step (fun _ _ => True) (construct (C := Nat) "app" ⟨toString, id, 9⟩ 0 0) secondThrows).any
      (fun s => decide (Event.stderr "[Callback exception] full\n" ∈ s.trace ∧ s.errorBuffer = "")) = true := by
    decide
  obtain ⟨s, reachable, shown⟩ := Machine.run_exhibits step _ _ _ _ evaluated
  obtain ⟨written, empty⟩ := of_decide_eq_true shown
  exact ⟨s, reachable, (callback_errors_reported "app" _ 0 0 s reachable).1, written, empty⟩

end Vectro.Log
