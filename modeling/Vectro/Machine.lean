import Mathlib.Data.Option.Basic

set_option autoImplicit false

universe u v w

namespace Machine

variable {State : Type u} {Action : Type v}

-- A machine is a partial step function. An action that is not enabled in a
-- state has no successor; nondeterminism lives in the choice of the action.
-- The guard restricts the runs that are looked at, step by step.
inductive Reachable (step : State → Action → Option State) (guard : State → Action → Prop) (start : State) :
    State → Prop where
  | start : Reachable step guard start start
  | step (before after : State) (action : Action) (previous : Reachable step guard start before)
      (allowed : guard before action) (taken : step before action = some after) : Reachable step guard start after

theorem reachable_invariant (step : State → Action → Option State) (guard : State → Action → Prop) (start : State)
    (holds : State → Prop) (initially : holds start)
    (preserved : ∀ before action after, Reachable step guard start before → holds before → guard before action →
      step before action = some after → holds after)
    (state : State) (reachable : Reachable step guard start state) : holds state := by
  induction reachable with
  | start => exact initially
  | step before after action previous allowed taken ih =>
      exact preserved before action after previous ih allowed taken

theorem reachable_weaken (step : State → Action → Option State) (guard wider : State → Action → Prop) (start : State)
    (weaker : ∀ state action, Reachable step guard start state → guard state action → wider state action)
    (state : State) (reachable : Reachable step guard start state) : Reachable step wider start state := by
  induction reachable with
  | start => exact .start
  | step before after action previous allowed taken ih =>
      exact .step before after action ih (weaker before action previous allowed) taken

theorem reachable_trans (step : State → Action → Option State) (guard : State → Action → Prop) (start middle final : State)
    (first : Reachable step guard start middle) (second : Reachable step guard middle final) :
    Reachable step guard start final := by
  induction second with
  | start => exact first
  | step before after action previous allowed taken ih => exact .step before after action ih allowed taken

-- Where some step always brings the state nearer, the goal can be reached.
theorem reachable_goal {Rank : Type} (less : Rank → Rank → Prop) (founded : WellFounded less)
    (step : State → Action → Option State) (guard : State → Action → Prop) (holds goal : State → Prop)
    (rank : State → Rank)
    (advance : ∀ state, holds state → ¬ goal state → ∃ action next, guard state action ∧
      step state action = some next ∧ holds next ∧ less (rank next) (rank state))
    (state : State) (holding : holds state) : ∃ final, Reachable step guard state final ∧ goal final := by
  induction here : rank state using founded.induction generalizing state with
  | _ r ih =>
      by_cases arrived : goal state
      · exact ⟨state, .start, arrived⟩
      · obtain ⟨action, next, allowed, taken, still, nearer⟩ := advance state holding arrived
        obtain ⟨final, onward, reached⟩ := ih _ (here ▸ nearer) next still rfl
        exact ⟨final, reachable_trans step guard state next final (.step _ _ action .start allowed taken) onward, reached⟩

-- The executable counterpart: a schedule is a list of actions, and a run
-- fails as soon as an action is not enabled or not allowed.
def run (step : State → Action → Option State) (guard : State → Action → Prop)
    [∀ state action, Decidable (guard state action)] : State → List Action → Option State
  | state, [] => some state
  | state, action :: rest =>
      if guard state action then (step state action).bind fun next => run step guard next rest else none

theorem run_reachable (step : State → Action → Option State) (guard : State → Action → Prop)
    [∀ state action, Decidable (guard state action)] (start : State) (schedule : List Action) (state final : State)
    (reachable : Reachable step guard start state) (completed : run step guard state schedule = some final) :
    Reachable step guard start final := by
  induction schedule generalizing state with
  | nil =>
      have same : state = final := by simpa only [run, Option.some.injEq] using completed
      exact same ▸ reachable
  | cons action rest ih =>
      by_cases allowed : guard state action
      · rw [run, if_pos allowed] at completed
        obtain ⟨next, taken, remaining⟩ := Option.bind_eq_some_iff.mp completed
        exact ih next (.step state next action reachable allowed taken) remaining
      · simp [run, allowed] at completed

-- A concrete schedule that ends in a state with a decidable property shows
-- that such a state is reachable; the evaluation is left to the kernel.
theorem run_exhibits (step : State → Action → Option State) (guard : State → Action → Prop)
    [∀ state action, Decidable (guard state action)] (start : State) (schedule : List Action)
    (shows : State → Bool) (evaluated : (run step guard start schedule).any shows = true) :
    ∃ state, Reachable step guard start state ∧ shows state = true := by
  cases completed : run step guard start schedule with
  | none => simp [completed] at evaluated
  | some final =>
      refine ⟨final, run_reachable step guard start schedule start final .start completed, ?_⟩
      simpa only [completed, Option.any_some] using evaluated

-- A machine with a log beside it. No step reads the log, so the runs are those
-- of the machine, and what holds of the state and the log is kept step by step.
structure Recorded (State : Type u) (Entry : Type w) where
  state : State
  log : List Entry

section
variable {Entry : Type w}

def recorded (step : State → Action → Option State) (entries : State → Action → State → List Entry)
    (m : Recorded State Entry) (action : Action) : Option (Recorded State Entry) :=
  (step m.state action).map fun after => ⟨after, m.log ++ entries m.state action after⟩

theorem recorded_invariant (step : State → Action → Option State) (entries : State → Action → State → List Entry)
    (guard : Recorded State Entry → Action → Prop) (start : State) (first : List Entry)
    (holds : State → List Entry → Prop) (initially : holds start first)
    (preserved : ∀ before action after log, Reachable step (fun _ _ => True) start before → holds before log →
      guard ⟨before, log⟩ action → step before action = some after → holds after (log ++ entries before action after))
    (m : Recorded State Entry) (reachable : Reachable (recorded step entries) guard ⟨start, first⟩ m) :
    Reachable step (fun _ _ => True) start m.state ∧ holds m.state m.log := by
  induction reachable with
  | start => exact ⟨.start, initially⟩
  | step before after action previous allowed taken ih =>
      obtain ⟨reached, held⟩ := ih
      obtain ⟨next, stepped, rfl⟩ := Option.map_eq_some_iff.mp taken
      exact ⟨.step before.state next action reached trivial stepped,
        preserved before.state action next before.log reached held allowed stepped⟩

end

end Machine
