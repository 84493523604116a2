import Mathlib.Data.List.Basic

set_option autoImplicit false

universe u

namespace Lines

variable {Symbol : Type u} [DecidableEq Symbol]

-- The lines a text completes after a pending beginning of a line, and what is
-- pending after it.
def cut (mark : Symbol) : List Symbol → List Symbol → List (List Symbol) × List Symbol
  | pending, [] => ([], pending)
  | pending, symbol :: text =>
      if symbol = mark then (pending :: (cut mark [] text).1, (cut mark [] text).2)
      else cut mark (pending ++ [symbol]) text

def lines (mark : Symbol) (text : List Symbol) : List (List Symbol) := (cut mark [] text).1

def rest (mark : Symbol) (text : List Symbol) : List Symbol := (cut mark [] text).2

theorem cut_append (mark : Symbol) (pending first second : List Symbol) :
    cut mark pending (first ++ second) =
      ((cut mark pending first).1 ++ (cut mark (cut mark pending first).2 second).1,
        (cut mark (cut mark pending first).2 second).2) := by
  induction first generalizing pending with
  | nil => rfl
  | cons symbol text ih =>
      rw [List.cons_append, cut, cut]
      split
      · rw [ih []]
        rfl
      · exact ih (pending ++ [symbol])

theorem cut_unmarked (mark : Symbol) (pending text : List Symbol) (unmarked : mark ∉ text) :
    cut mark pending text = ([], pending ++ text) := by
  induction text generalizing pending with
  | nil => rw [cut, List.append_nil]
  | cons symbol text ih =>
      have differs : symbol ≠ mark := fun same => unmarked (same ▸ List.mem_cons_self)
      rw [cut, if_neg differs, ih _ fun member => unmarked (List.mem_cons_of_mem symbol member), List.append_assoc]
      rfl

theorem cut_pending (mark : Symbol) (pending text : List Symbol) (unmarked : mark ∉ pending) :
    cut mark [] (pending ++ text) = cut mark pending text := by
  rw [cut_append, cut_unmarked mark [] pending unmarked]
  rfl

theorem cut_rest_unmarked (mark : Symbol) (pending text : List Symbol) (unmarked : mark ∉ pending) :
    mark ∉ (cut mark pending text).2 := by
  induction text generalizing pending with
  | nil => exact unmarked
  | cons symbol text ih =>
      rw [cut]
      split
      · exact ih [] List.not_mem_nil
      · rename_i differs
        apply ih _
        intro member
        rcases List.mem_append.mp member with old | new
        · exact unmarked old
        · exact differs (List.mem_singleton.mp new).symm

-- Nothing is lost: the lines with their marks, and the rest, are the text.
theorem cut_joins (mark : Symbol) (pending text : List Symbol) :
    ((cut mark pending text).1.map (· ++ [mark])).flatten ++ (cut mark pending text).2 = pending ++ text := by
  induction text generalizing pending with
  | nil => rw [cut, List.append_nil]; rfl
  | cons symbol text ih =>
      rw [cut]
      split
      · rename_i same
        rw [List.map_cons, List.flatten_cons, List.append_assoc, ih [], same]
        simp
      · rw [ih, List.append_assoc]
        rfl

theorem cut_lines_unmarked (mark : Symbol) (pending text line : List Symbol) (unmarked : mark ∉ pending)
    (member : line ∈ (cut mark pending text).1) : mark ∉ line := by
  induction text generalizing pending with
  | nil => cases member
  | cons symbol text ih =>
      rw [cut] at member
      by_cases same : symbol = mark
      · rw [if_pos same] at member
        rcases List.mem_cons.mp member with rfl | later
        · exact unmarked
        · exact ih [] List.not_mem_nil later
      · rw [if_neg same] at member
        apply ih (pending ++ [symbol]) _ member
        intro found
        rcases List.mem_append.mp found with old | new
        · exact unmarked old
        · exact same (List.mem_singleton.mp new).symm

theorem cut_lines_length (mark : Symbol) (pending text : List Symbol) :
    (cut mark pending text).1.length = text.count mark := by
  induction text generalizing pending with
  | nil => rfl
  | cons symbol text ih =>
      rw [cut]
      by_cases same : symbol = mark
      · rw [if_pos same, same, List.length_cons, ih [], List.count_cons_self]
      · rw [if_neg same, ih, List.count_cons_of_ne same]

-- A line is empty where a mark stands at the beginning of a line: first in the
-- text with nothing pending, or right after another mark.
theorem cut_blank_iff (mark : Symbol) (pending text : List Symbol) :
    [] ∈ (cut mark pending text).1 ↔ (pending = [] ∧ text[0]? = some mark) ∨
      ∃ i, text[i]? = some mark ∧ text[i + 1]? = some mark := by
  induction text generalizing pending with
  | nil => simp [cut]
  | cons symbol text ih =>
      have later : (∃ i, (symbol :: text)[i]? = some mark ∧ (symbol :: text)[i + 1]? = some mark) ↔
          (symbol = mark ∧ text[0]? = some mark) ∨ ∃ i, text[i]? = some mark ∧ text[i + 1]? = some mark := by
        constructor
        · rintro ⟨i, here, next⟩
          cases i with
          | zero => exact .inl ⟨by simpa using here, by simpa using next⟩
          | succ i => exact .inr ⟨i, by simpa using here, by simpa using next⟩
        · rintro (⟨here, next⟩ | ⟨i, here, next⟩)
          · exact ⟨0, by simpa using here, by simpa using next⟩
          · exact ⟨i + 1, by simpa using here, by simpa using next⟩
      rw [later, cut]
      by_cases same : symbol = mark
      · rw [if_pos same, List.mem_cons, ih []]
        simp [same, eq_comm]
      · rw [if_neg same, ih]
        simp [same]

-- Lines that have been put one after the other, each with its end, are cut apart
-- again.
theorem cut_ended (mark : Symbol) (ended : List (List Symbol)) (unmarked : ∀ line ∈ ended, mark ∉ line) :
    cut mark [] ((ended.map (· ++ [mark])).flatten) = (ended, []) := by
  induction ended with
  | nil => rfl
  | cons line more ih =>
      have first := unmarked line List.mem_cons_self
      have later := ih fun other member => unmarked other (List.mem_cons_of_mem _ member)
      rw [List.map_cons, List.flatten_cons, List.append_assoc, cut_pending mark line _ first, List.singleton_append, cut,
        if_pos rfl, later]

theorem cut_injective (mark : Symbol) (first second : List Symbol) (same : cut mark [] first = cut mark [] second) :
    first = second := by
  have left := cut_joins mark [] first
  rw [same, cut_joins mark [] second] at left
  exact left.symm

theorem lines_append (mark : Symbol) (first second : List Symbol) :
    lines mark (first ++ second) = lines mark first ++ (cut mark (rest mark first) second).1 := by
  rw [lines, cut_append]
  rfl

theorem rest_append (mark : Symbol) (first second : List Symbol) :
    rest mark (first ++ second) = (cut mark (rest mark first) second).2 := by
  rw [rest, cut_append]
  rfl

theorem rest_unmarked (mark : Symbol) (text : List Symbol) : mark ∉ rest mark text :=
  cut_rest_unmarked mark [] text List.not_mem_nil

theorem rest_suffix (mark : Symbol) (text : List Symbol) : rest mark text <:+ text :=
  ⟨_, cut_joins mark [] text⟩

theorem rest_ended (mark : Symbol) (text : List Symbol) (ended : text.getLast? = some mark) : rest mark text = [] := by
  by_contra some
  have same := (rest_suffix mark text).getLast some
  have last : (rest mark text).getLast some = mark := by
    rw [same]
    exact List.getLast_of_getLast?_eq_some ended
  have member := List.getLast_mem some
  rw [last] at member
  exact rest_unmarked mark text member

theorem cut_split_on (mark : Symbol) (pending text : List Symbol) :
    text.splitOnPPrepend (· == mark) pending.reverse = (cut mark pending text).1 ++ [(cut mark pending text).2] := by
  induction text generalizing pending with
  | nil => simp [cut]
  | cons symbol text ih =>
      rw [cut]
      split
      · rename_i same
        have tail := ih []
        rw [List.splitOnPPrepend_cons_pos (by simpa using same), List.splitOnP_eq_splitOnPPrepend, List.reverse_reverse]
        rw [List.reverse_nil] at tail
        rw [tail]
        rfl
      · rename_i differs
        have tail := ih (pending ++ [symbol])
        rw [List.splitOnPPrepend_cons_neg (by simpa using differs)]
        simpa using tail

-- The same as splitting at the marks, with the last piece set apart.
theorem split_on_eq (mark : Symbol) (text : List Symbol) : text.splitOn mark = lines mark text ++ [rest mark text] :=
  cut_split_on mark [] text

end Lines
