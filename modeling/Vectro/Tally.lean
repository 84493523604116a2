import Mathlib.Algebra.BigOperators.Group.List.Basic
import Mathlib.Algebra.GroupWithZero.Nat

set_option autoImplicit false

universe u

namespace Tally

variable {Cell : Type u}

-- A tally weighs the cells of a table. Threads, queues and calls are tables
-- indexed by position, and one step rewrites a single cell.
def total (weight : Cell → Nat) (cells : List Cell) : Nat := (cells.map weight).sum

@[simp] theorem total_nil (weight : Cell → Nat) : total weight [] = 0 := rfl

@[simp] theorem total_cons (weight : Cell → Nat) (cell : Cell) (cells : List Cell) :
    total weight (cell :: cells) = weight cell + total weight cells := by
  simp [total]

@[simp] theorem total_append (weight : Cell → Nat) (left right : List Cell) :
    total weight (left ++ right) = total weight left + total weight right := by
  simp [total]

theorem total_set (weight : Cell → Nat) (cells : List Cell) (i : Nat) (old new : Cell)
    (found : cells[i]? = some old) :
    total weight (cells.set i new) + weight old = total weight cells + weight new := by
  induction cells generalizing i with
  | nil => simp at found
  | cons cell rest ih =>
      cases i with
      | zero =>
          have same : cell = old := by simpa using found
          simp only [List.set_cons_zero, total_cons, same]
          omega
      | succ i =>
          have moved := ih i (by simpa using found)
          simp only [List.set_cons_succ, total_cons]
          omega

theorem total_eq_zero (weight : Cell → Nat) (cells : List Cell) :
    total weight cells = 0 ↔ ∀ cell ∈ cells, weight cell = 0 := by
  induction cells with
  | nil => simp
  | cons head rest ih => simp [ih]

theorem total_ne_zero (weight : Cell → Nat) (cells : List Cell) (heavy : total weight cells ≠ 0) :
    ∃ cell ∈ cells, 0 < weight cell := by
  by_contra none
  refine heavy ((total_eq_zero weight cells).mpr fun cell member => ?_)
  by_contra weighs
  exact none ⟨cell, member, Nat.pos_of_ne_zero weighs⟩

theorem weight_le_total (weight : Cell → Nat) (cells : List Cell) (cell : Cell) (member : cell ∈ cells) :
    weight cell ≤ total weight cells := by
  induction cells with
  | nil => simp at member
  | cons head rest ih =>
      rw [total_cons]
      rcases List.mem_cons.mp member with same | later
      · rw [same]
        exact Nat.le_add_right _ _
      · exact Nat.le_trans (ih later) (Nat.le_add_left _ _)

theorem total_le_length (weight : Cell → Nat) (light : ∀ cell, weight cell ≤ 1) (cells : List Cell) :
    total weight cells ≤ cells.length := by
  induction cells with
  | nil => simp
  | cons head rest ih =>
      have one := light head
      simp only [total_cons, List.length_cons]
      omega

theorem total_le_total (lighter heavier : Cell → Nat) (le : ∀ cell, lighter cell ≤ heavier cell) (cells : List Cell) :
    total lighter cells ≤ total heavier cells := by
  induction cells with
  | nil => exact Nat.le_refl _
  | cons head rest ih =>
      have one := le head
      simp only [total_cons]
      omega

theorem total_set_same (cells : List Cell) (i : Nat) (old new : Cell) (found : cells[i]? = some old)
    (weight : Cell → Nat) (same : weight new = weight old) : total weight (cells.set i new) = total weight cells := by
  have moved := total_set weight cells i old new found
  omega

theorem total_map (weight : Cell → Nat) (change : Cell → Cell) (same : ∀ cell, weight (change cell) = weight cell)
    (cells : List Cell) : total weight (cells.map change) = total weight cells := by
  induction cells with
  | nil => rfl
  | cons head rest ih => simp only [List.map_cons, total_cons, same, ih]

theorem set_found (cells : List Cell) (i : Nat) (cell : Cell) (found : cells[i]? = some cell) : cells.set i cell = cells := by
  obtain ⟨bound, rfl⟩ := List.getElem?_eq_some_iff.mp found
  exact List.set_getElem_self bound

theorem forall_mem_set (holds : Cell → Prop) (cells : List Cell) (i : Nat) (new : Cell)
    (all : ∀ cell ∈ cells, holds cell) (one : holds new) : ∀ cell ∈ cells.set i new, holds cell := by
  intro cell member
  rcases List.mem_or_eq_of_mem_set member with old | same
  · exact all cell old
  · exact same ▸ one

-- A total of one singles out a cell: it weighs one, and no other cell weighs
-- anything.
theorem total_eq_one (weight : Cell → Nat) (cells : List Cell) (one : total weight cells = 1) :
    ∃ (i : Nat) (cell : Cell), cells[i]? = some cell ∧ weight cell = 1 ∧
      ∀ (j : Nat) (other : Cell), cells[j]? = some other → weight other ≠ 0 → j = i := by
  induction cells with
  | nil => simp at one
  | cons head rest ih =>
      rw [total_cons] at one
      by_cases heavy : weight head = 0
      · obtain ⟨i, cell, found, weighs, unique⟩ := ih (by omega)
        refine ⟨i + 1, cell, by simpa using found, weighs, ?_⟩
        intro j other present nonzero
        cases j with
        | zero =>
            have same : head = other := by simpa using present
            exact absurd (same ▸ heavy) nonzero
        | succ j => rw [unique j other (by simpa using present) nonzero]
      · have empty := (total_eq_zero weight rest).mp (by omega)
        refine ⟨0, head, by simp, by omega, ?_⟩
        intro j other present nonzero
        cases j with
        | zero => rfl
        | succ j => exact absurd (empty other (List.mem_of_getElem? (by simpa using present))) nonzero

theorem countP_total (keeps : Cell → Bool) (cells : List Cell) :
    cells.countP keeps = total (fun cell => (keeps cell).toNat) cells := by
  induction cells with
  | nil => rfl
  | cons head rest ih => cases kept : keeps head <;> simp [kept, ih, Nat.add_comm]

end Tally
