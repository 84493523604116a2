import Mathlib.Data.Finmap

set_option autoImplicit false

universe u v

namespace Layers

variable {K : Type u} {V : Type v} [DecidableEq K]

-- The two loops that lay one finite map over another, over the keys of the
-- second one in some order: one overwrites, the other only fills what is missing.
def extend (m : Finmap fun _ : K => V) (k : K) (v : V) : Finmap fun _ : K => V :=
  if k ∈ m then m else m.insert k v

def write (value : K → V) (keys : List K) (m : Finmap fun _ : K => V) : Finmap fun _ : K => V :=
  keys.foldl (fun m k => m.insert k (value k)) m

def fill (value : K → V) (keys : List K) (m : Finmap fun _ : K => V) : Finmap fun _ : K => V :=
  keys.foldl (fun m k => extend m k (value k)) m

theorem extend_present (m : Finmap fun _ : K => V) (k : K) (v : V) (present : k ∈ m) : extend m k v = m :=
  if_pos present

theorem lookup_extend (m : Finmap fun _ : K => V) (k : K) (v : V) : (extend m k v).lookup k = (m.lookup k).or (some v) := by
  by_cases present : k ∈ m
  · obtain ⟨old, found⟩ := Finmap.mem_iff.mp present
    rw [extend_present m k v present, found, Option.some_or]
  · rw [extend, if_neg present, Finmap.lookup_insert, Finmap.lookup_eq_none.mpr present, Option.none_or]

theorem lookup_extend_of_ne (m : Finmap fun _ : K => V) (k other : K) (v : V) (different : other ≠ k) :
    (extend m k v).lookup other = m.lookup other := by
  by_cases present : k ∈ m
  · rw [extend_present m k v present]
  · rw [extend, if_neg present, Finmap.lookup_insert_of_ne m different]

theorem lookup_write (value : K → V) (keys : List K) (m : Finmap fun _ : K => V) (k : K) :
    (write value keys m).lookup k = if k ∈ keys then some (value k) else m.lookup k := by
  induction keys generalizing m with
  | nil => simp [write]
  | cons first rest ih =>
      rw [write, List.foldl_cons, ← write, ih]
      by_cases later : k ∈ rest
      · simp [later]
      · by_cases same : k = first
        · subst same
          simp [later]
        · rw [if_neg later, if_neg (by simp [same, later]), Finmap.lookup_insert_of_ne m same]

theorem lookup_fill (value : K → V) (keys : List K) (m : Finmap fun _ : K => V) (k : K) :
    (fill value keys m).lookup k = (m.lookup k).or (if k ∈ keys then some (value k) else none) := by
  induction keys generalizing m with
  | nil => simp [fill]
  | cons first rest ih =>
      rw [fill, List.foldl_cons, ← fill, ih]
      by_cases same : k = first
      · subst same
        rw [lookup_extend, Option.or_assoc, if_pos List.mem_cons_self, Option.some_or]
      · rw [lookup_extend_of_ne m first k _ same]
        simp [same]

variable (value : K → V) (keys : List K) (m n : Finmap fun _ : K => V)

theorem lookup_union (k : K) : (m ∪ n).lookup k = (m.lookup k).or (n.lookup k) := by
  by_cases present : k ∈ m
  · obtain ⟨old, found⟩ := Finmap.mem_iff.mp present
    rw [Finmap.lookup_union_left present, found, Option.some_or]
  · rw [Finmap.lookup_union_right present, Finmap.lookup_eq_none.mpr present, Option.none_or]

theorem union_self : m ∪ m = m := by
  apply Finmap.ext_lookup
  intro k
  rw [lookup_union, Option.or_self]

-- Either loop over every key of a map is a union, which prefers its left map.
theorem write_every (every : ∀ k, n.lookup k = if k ∈ keys then some (value k) else none) :
    write value keys m = n ∪ m := by
  apply Finmap.ext_lookup
  intro k
  rw [lookup_write, lookup_union, every]
  by_cases visited : k ∈ keys
  · simp [visited]
  · simp [visited]

theorem fill_every (every : ∀ k, n.lookup k = if k ∈ keys then some (value k) else none) :
    fill value keys m = m ∪ n := by
  apply Finmap.ext_lookup
  intro k
  rw [lookup_fill, lookup_union, every]

end Layers
