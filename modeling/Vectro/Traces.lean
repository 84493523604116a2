import Mathlib.Data.List.Basic

set_option autoImplicit false

universe u v

namespace Traces

variable {Event : Type u} {Kind : Type v}

-- A log only grows, and what is read off it is a list of the events of one
-- kind. One step appends one event: of that kind, or of another.
theorem filter_map_quiet (reads : Event → Option Kind) (log : List Event) (event : Event) (quiet : reads event = none) :
    (log ++ [event]).filterMap reads = log.filterMap reads := by
  rw [List.filterMap_append, List.filterMap_cons_none quiet, List.filterMap_nil, List.append_nil]

theorem filter_map_logs (reads : Event → Option Kind) (log : List Event) (event : Event) (item : Kind)
    (logs : reads event = some item) : (log ++ [event]).filterMap reads = log.filterMap reads ++ [item] := by
  rw [List.filterMap_append, List.filterMap_cons_some logs, List.filterMap_nil]

theorem filter_map_aside (reads : Event → Option Kind) (log aside : List Event)
    (quiet : ∀ event ∈ aside, reads event = none) : (log ++ aside).filterMap reads = log.filterMap reads := by
  rw [List.filterMap_append, List.filterMap_eq_nil_iff.mpr quiet, List.append_nil]

-- What comes before the first event of some kind is settled once there is one.
theorem take_while_stopped (goes : Event → Bool) (log more : List Event) (stopped : ∃ event ∈ log, goes event = false) :
    (log ++ more).takeWhile goes = log.takeWhile goes := by
  induction log with
  | nil =>
      obtain ⟨event, member, _⟩ := stopped
      cases member
  | cons first rest ih =>
      rw [List.cons_append, List.takeWhile_cons, List.takeWhile_cons]
      by_cases on : goes first = true
      · rw [if_pos on, if_pos on, ih]
        obtain ⟨event, member, stops⟩ := stopped
        rcases List.mem_cons.mp member with rfl | later
        · exact absurd (on.symm.trans stops) (by decide)
        · exact ⟨event, later, stops⟩
      · rw [if_neg on, if_neg on]

end Traces
