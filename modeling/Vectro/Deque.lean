import Mathlib.Data.List.Perm.Basic

set_option autoImplicit false

universe u

namespace Deque

variable {Item : Type u}

-- A queue that is filled at its end and emptied from both ends.
inductive Op (Item : Type u) where
  | push (item : Item)
  | popFront (item : Item)
  | popBack (item : Item)
deriving DecidableEq, Repr

-- What may have been done to a queue that holds these items now.
inductive History : List (Op Item) → List Item → Prop where
  | start : History [] []
  | push (log : List (Op Item)) (queue : List Item) (item : Item) : History log queue →
      History (log ++ [.push item]) (queue ++ [item])
  | popFront (log : List (Op Item)) (queue : List Item) (item : Item) : History log (item :: queue) →
      History (log ++ [.popFront item]) queue
  | popBack (log : List (Op Item)) (queue : List Item) (item : Item) : History log (queue ++ [item]) →
      History (log ++ [.popBack item]) queue

def pushed (log : List (Op Item)) : List Item :=
  log.filterMap fun
    | .push item => some item
    | _ => none

def fronts (log : List (Op Item)) : List Item :=
  log.filterMap fun
    | .popFront item => some item
    | _ => none

def backs (log : List (Op Item)) : List Item :=
  log.filterMap fun
    | .popBack item => some item
    | _ => none

@[simp] theorem pushed_push (log : List (Op Item)) (item : Item) : pushed (log ++ [.push item]) = pushed log ++ [item] := by
  simp [pushed]

@[simp] theorem pushed_front (log : List (Op Item)) (item : Item) : pushed (log ++ [.popFront item]) = pushed log := by
  simp [pushed]

@[simp] theorem pushed_back (log : List (Op Item)) (item : Item) : pushed (log ++ [.popBack item]) = pushed log := by
  simp [pushed]

@[simp] theorem fronts_push (log : List (Op Item)) (item : Item) : fronts (log ++ [.push item]) = fronts log := by
  simp [fronts]

@[simp] theorem fronts_front (log : List (Op Item)) (item : Item) : fronts (log ++ [.popFront item]) = fronts log ++ [item] := by
  simp [fronts]

@[simp] theorem fronts_back (log : List (Op Item)) (item : Item) : fronts (log ++ [.popBack item]) = fronts log := by
  simp [fronts]

@[simp] theorem backs_push (log : List (Op Item)) (item : Item) : backs (log ++ [.push item]) = backs log := by
  simp [backs]

@[simp] theorem backs_front (log : List (Op Item)) (item : Item) : backs (log ++ [.popFront item]) = backs log := by
  simp [backs]

@[simp] theorem backs_back (log : List (Op Item)) (item : Item) : backs (log ++ [.popBack item]) = backs log ++ [item] := by
  simp [backs]

-- What is taken at the front comes in the order of the pushes, and before
-- everything that is still there.
theorem history_in_order (log : List (Op Item)) (queue : List Item) (history : History log queue) :
    (fronts log ++ queue).Sublist (pushed log) := by
  induction history with
  | start => exact List.Sublist.refl _
  | push log queue item _ ih =>
      rw [fronts_push, pushed_push, ← List.append_assoc]
      exact ih.append (List.Sublist.refl _)
  | popFront log queue item _ ih =>
      rw [fronts_front, pushed_front, List.append_assoc]
      exact ih
  | popBack log queue item _ ih =>
      rw [fronts_back, pushed_back]
      rw [← List.append_assoc] at ih
      exact (List.sublist_append_left _ _).trans ih

theorem history_perm (log : List (Op Item)) (queue : List Item) (history : History log queue) :
    (pushed log).Perm (fronts log ++ backs log ++ queue) := by
  induction history with
  | start => exact List.Perm.refl _
  | push log queue item _ ih =>
      rw [pushed_push, fronts_push, backs_push, ← List.append_assoc]
      exact ih.append_right _
  | popFront log queue item _ ih =>
      rw [pushed_front, fronts_front, backs_front, List.append_assoc, List.append_assoc]
      rw [List.append_assoc] at ih
      exact ih.trans (List.Perm.append_left _ List.perm_middle)
  | popBack log queue item _ ih =>
      rw [pushed_back, fronts_back, backs_back, List.append_assoc, List.append_assoc]
      rw [List.append_assoc] at ih
      exact ih.trans (List.Perm.append_left _ (List.Perm.append_left _ List.perm_append_comm))

-- Emptied from the front alone, it is a plain queue.
theorem history_fifo (log : List (Op Item)) (queue : List Item) (history : History log queue) (front : backs log = []) :
    pushed log = fronts log ++ queue := by
  induction history with
  | start => rfl
  | push log queue item _ ih =>
      rw [backs_push] at front
      rw [pushed_push, fronts_push, ih front, List.append_assoc]
  | popFront log queue item _ ih =>
      rw [backs_front] at front
      rw [pushed_front, fronts_front, ih front, List.append_assoc]
      rfl
  | popBack log queue item _ ih =>
      rw [backs_back] at front
      simp at front

theorem split_last (log before later : List (Op Item)) (last op : Op Item) (same : log ++ [last] = before ++ op :: later) :
    (log = before ∧ last = op) ∨ ∃ rest, log = before ++ op :: rest := by
  rcases List.eq_nil_or_concat later with rfl | ⟨rest, final, rfl⟩
  · obtain ⟨first, second⟩ := List.append_inj' same rfl
    exact .inl ⟨first, List.singleton_inj.mp second⟩
  · rw [List.concat_eq_append, ← List.cons_append, ← List.append_assoc] at same
    exact .inr ⟨rest, (List.append_inj' same rfl).1⟩

-- Who takes at the back takes what was pushed last of all that is there.
theorem history_newest (log before later : List (Op Item)) (queue : List Item) (item : Item) (history : History log queue)
    (taken : log = before ++ .popBack item :: later) : ∃ rest, History before (rest ++ [item]) := by
  induction history generalizing later with
  | start => simp at taken
  | push log queue other _ ih =>
      rcases split_last log before later _ _ taken with ⟨_, clash⟩ | ⟨rest, earlier⟩
      · cases clash
      · exact ih rest earlier
  | popFront log queue other _ ih =>
      rcases split_last log before later _ _ taken with ⟨_, clash⟩ | ⟨rest, earlier⟩
      · cases clash
      · exact ih rest earlier
  | popBack log queue other previous ih =>
      rcases split_last log before later _ _ taken with ⟨rfl, same⟩ | ⟨rest, earlier⟩
      · cases same
        exact ⟨queue, previous⟩
      · exact ih rest earlier

end Deque
