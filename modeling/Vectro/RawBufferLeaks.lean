import Vectro.RawBuffer

set_option autoImplicit false

namespace Vectro.Buffers

variable {D : Type}

-- Beside the state, for each block that an allocator called by Make has returned,
-- the call of its deleter that is due; no operation looks at them.
structure Making (D : Type) where
  state : State D
  made : List (Call D)
deriving DecidableEq, Repr

def returned (s : State D) : Action D → List (Call D)
  | .make size (some .returns) (some deleter) => [⟨deleter, s.blocks.length, size⟩]
  | _ => []

def makingStep (m : Making D) (action : Action D) : Option (Making D) :=
  (step m.state action).map fun after => ⟨after, m.made ++ returned m.state action⟩

def unmade : Making D where
  state := initial
  made := []

-- Make is not asked for nothing with an allocator that returns a block for it,
-- and no deleter raises inside an explicit Reset.
def Clean (m : Making D) (action : Action D) : Prop :=
  Contained m.state action ∧
    match action with
    | .make size (some .returns) (some _) => size ≠ 0
    | _ => True

instance (m : Making D) (action : Action D) : Decidable (Clean m action) :=
  match action with
  | .make size (some .returns) (some _) => inferInstanceAs (Decidable (Contained _ _ ∧ size ≠ 0))
  | .make _ none _ | .make _ (some .null) _ | .make _ (some .raises) _ | .make _ (some .returns) none
  | .defaultConstruct | .construct .. | .moveConstruct .. | .moveAssign .. | .reset .. | .destroy .. =>
      inferInstanceAs (Decidable (Contained _ _ ∧ True))

-- All objects are gone: every block has been given to its own deleter, with its
-- size, and to no deleter a second time.
def Returned (m : Making D) : Prop :=
  (∀ i, m.state.object i = none) → ∀ call ∈ m.made, call ∈ m.state.calls ∧ m.state.given.count call.data = 1

-- Where a block is: its deleter has been called, or a buffer will call it.
def State.accounts (s : State D) (call : Call D) : Prop :=
  call ∈ s.calls ∨ ∃ i, s.object i = some ⟨some call.data, call.size, some call.deleter⟩

theorem born_accounts (s : State D) (buffer : RawBuffer D) (call : Call D) (accounted : s.accounts call) :
    (s.born buffer).accounts call := by
  rcases accounted with given | ⟨i, found⟩
  · exact .inl given
  · have before := object_found s i _ found
    exact .inr ⟨i, (object_born_other s buffer i (Nat.ne_of_lt before)).trans found⟩

theorem construct_accounts (s : State D) (data : Option Nat) (size : Nat) (deleter : Option D) (call : Call D)
    (accounted : s.accounts call) : (s.construct data size deleter).1.accounts call := by
  rw [State.construct]
  split
  · exact accounted
  · exact born_accounts s _ call accounted

theorem make_accounts (s : State D) (size : Nat) (alloc : Option Allocation) (deleter : Option D) (call : Call D)
    (accounted : s.accounts call) : (s.make size alloc deleter).1.accounts call := by
  unfold State.make
  split
  · exact accounted
  · exact accounted
  · exact accounted
  · exact accounted
  · exact construct_accounts (s.allocate size _) _ size _ call accounted

-- What Make has been given for a size that is not zero is in the new buffer.
theorem made_accounts (s : State D) (size : Nat) (deleter : D) (nonzero : size ≠ 0) :
    (s.make size (some .returns) (some deleter)).1.accounts ⟨deleter, s.blocks.length, size⟩ := by
  rw [State.make, State.construct, if_neg (by simp [nonzero])]
  exact .inr ⟨_, object_born_same (s.allocate size (some deleter)) _⟩

theorem reset_accounts (s after : State D) (this : Nat) (raises : Bool) (owned : Owned s)
    (taken : s.reset this raises = some (after, none)) (call : Call D) (accounted : s.accounts call) : after.accounts call := by
  obtain ⟨_, _, elsewhere⟩ := owned_reset s after this raises owned taken
  obtain ⟨buffer, found, outcome⟩ := Option.map_eq_some_iff.mp taken
  have released : call ∈ s.calls ∨ buffer = ⟨some call.data, call.size, some call.deleter⟩ → call ∈ after.calls := by
    intro held
    split at outcome
    · rename_i data deleter holds deletes
      split at outcome
      · cases congrArg Prod.snd outcome
      · obtain rfl : _ = after := congrArg Prod.fst outcome
        rcases held with given | rfl
        · exact List.mem_append_left _ given
        · obtain rfl := Option.some.inj holds
          obtain rfl := Option.some.inj deletes
          exact List.mem_append_right _ List.mem_cons_self
    · rename_i unheld
      obtain rfl : _ = after := congrArg Prod.fst outcome
      rcases held with given | rfl
      · exact given
      · exact absurd rfl (unheld call.data call.deleter rfl)
  rcases accounted with given | ⟨i, present⟩
  · exact .inl (released (.inl given))
  · by_cases here : i = this
    · rw [here] at present
      exact .inl (released (.inr (Option.some.inj (found.symm.trans present))))
    · exact .inr ⟨i, (elsewhere i here).trans present⟩

theorem reset_noexcept_accounts (s after : State D) (this : Nat) (raises : Bool) (owned : Owned s)
    (taken : s.resetNoexcept this raises = some after) (call : Call D) (accounted : s.accounts call) :
    after.accounts call := by
  obtain ⟨⟨reached, raised⟩, reset, kept⟩ := Option.bind_eq_some_iff.mp taken
  cases raised with
  | some problem => cases kept
  | none =>
      obtain rfl := Option.some.inj kept
      exact reset_accounts s reached this raises owned reset call accounted

theorem move_accounts (s after : State D) (this other : Nat) (apart : this ≠ other)
    (empty : s.object this = some ⟨none, 0, none⟩) (taken : s.moveFrom this other = some after) (call : Call D)
    (accounted : s.accounts call) : after.accounts call := by
  obtain ⟨buffer, found, rfl⟩ := Option.map_eq_some_iff.mp taken
  have moved : ((s.put this (some buffer)).put other (some ⟨none, 0, none⟩)).object this = some buffer := by
    rw [object_put_other _ other this _ apart]
    exact object_put_same s this _ _ empty
  rcases accounted with given | ⟨i, present⟩
  · exact .inl given
  · by_cases source : i = other
    · rw [source] at present
      cases found.symm.trans present
      exact .inr ⟨this, moved⟩
    · by_cases target : i = this
      · rw [target] at present
        cases empty.symm.trans present
      · refine .inr ⟨i, ?_⟩
        rw [object_put_other _ other i _ source, object_put_other s this i _ target]
        exact present

theorem step_accounts (s after : State D) (action : Action D) (owned : Owned s) (contained : Contained s action)
    (taken : step s action = some after) (call : Call D) (accounted : s.accounts call) : after.accounts call := by
  cases action with
  | defaultConstruct =>
      obtain rfl := Option.some.inj taken
      exact born_accounts s {} call accounted
  | make size alloc deleter =>
      obtain rfl := Option.some.inj taken
      exact make_accounts s size alloc deleter call accounted
  | construct fresh size deleter =>
      cases fresh with
      | true =>
          obtain rfl := Option.some.inj taken
          exact construct_accounts (s.allocate size deleter) _ size deleter call accounted
      | false =>
          obtain rfl := Option.some.inj taken
          exact construct_accounts s none size deleter call accounted
  | moveConstruct other =>
      obtain ⟨buffer, found, moved⟩ := Option.bind_eq_some_iff.mp taken
      have apart : s.objects.length ≠ other := Nat.ne_of_gt (object_found s other buffer found)
      exact move_accounts (s.born {}) after s.objects.length other apart (object_born_same s {}) moved call
        (born_accounts s {} call accounted)
  | moveAssign this other raises =>
      by_cases same : this = other
      · rw [step, if_pos same] at taken
        obtain ⟨_, _, rfl⟩ := Option.map_eq_some_iff.mp taken
        exact accounted
      · rw [step, if_neg same] at taken
        obtain ⟨_, _, assigned⟩ := Option.bind_eq_some_iff.mp taken
        obtain ⟨reset, released, moved⟩ := Option.bind_eq_some_iff.mp assigned
        obtain ⟨_, empty, _⟩ := owned_reset_noexcept s reset this raises owned released
        exact move_accounts reset after this other same empty moved call
          (reset_noexcept_accounts s reset this raises owned released call accounted)
  | reset this raises =>
      obtain ⟨⟨reached, raised⟩, reset, rfl⟩ := Option.map_eq_some_iff.mp taken
      rw [contained_reset_returns s reached this raises raised contained reset] at reset
      exact reset_accounts s reached this raises owned reset call accounted
  | destroy this raises =>
      obtain ⟨reset, released, rfl⟩ := Option.map_eq_some_iff.mp taken
      obtain ⟨_, empty, _⟩ := owned_reset_noexcept s reset this raises owned released
      rcases reset_noexcept_accounts s reset this raises owned released call accounted with given | ⟨i, present⟩
      · exact .inl given
      · refine .inr ⟨i, ?_⟩
        rw [object_put_other reset this i none]
        · exact present
        · rintro rfl
          cases empty.symm.trans present

structure Accounted (m : Making D) : Prop where
  owned : Owned m.state
  placed : ∀ call ∈ m.made, m.state.accounts call

theorem making_accounted (m after : Making D) (action : Action D) (accounted : Accounted m) (clean : Clean m action)
    (taken : makingStep m action = some after) : Accounted after := by
  obtain ⟨reached, stepped, rfl⟩ := Option.map_eq_some_iff.mp taken
  refine ⟨step_owned m.state reached action accounted.owned clean.1 stepped, ?_⟩
  intro call member
  rcases List.mem_append.mp member with before | new
  · exact step_accounts m.state reached action accounted.owned clean.1 stepped call (accounted.placed call before)
  · unfold returned at new
    split at new
    · rename_i size deleter
      obtain rfl := Option.some.inj stepped
      rw [List.mem_singleton.mp new]
      exact made_accounts m.state size deleter clean.2
    · cases new

theorem reachable_accounted (m : Making D) (reachable : Machine.Reachable makingStep Clean unmade m) : Accounted m := by
  apply Machine.reachable_invariant makingStep Clean unmade Accounted _ _ m reachable
  · exact ⟨reachable_owned initial .start, List.forall_mem_nil _⟩
  · intro before action after _ accounted clean taken
    exact making_accounted before after action accounted clean taken

theorem nothing_leaks (m : Making D) (reachable : Machine.Reachable makingStep Clean unmade m) : Returned m := by
  have accounted := reachable_accounted m reachable
  intro destroyed call member
  rcases accounted.placed call member with called | ⟨i, present⟩
  · exact ⟨called, List.count_eq_one_of_mem accounted.owned.once (List.mem_map_of_mem called)⟩
  · cases (destroyed i).symm.trans present

-- A Make that raises, one that returns, a move, a Reset and the destructors.
theorem nothing_leaks_moved :
    ∃ m : Making Nat, Machine.Reachable makingStep Clean unmade m ∧ m.made = [⟨7, 0, 16⟩, ⟨9, 1, 8⟩] ∧
      m.state.given = [1, 0] ∧ Returned m := by
  obtain ⟨m, reachable, shown⟩ := Machine.run_exhibits makingStep Clean unmade
    ([.make 16 (some .returns) (some 7), .make 0 (some .null) (some 7), .make 8 none (some 7), .make 8 (some .returns) (some 9),
      .moveConstruct 0, .reset 1 false, .destroy 2 false, .destroy 1 false, .destroy 0 false] : List (Action Nat))
    (fun m => decide (m.made = [⟨7, 0, 16⟩, ⟨9, 1, 8⟩] ∧ m.state.given = [1, 0])) (by decide)
  obtain ⟨made, given⟩ := of_decide_eq_true shown
  exact ⟨m, reachable, made, given, nothing_leaks m reachable⟩

-- Make(0): the allocator returns a block, the constructor raises, and nobody
-- has the block any more.
theorem empty_make_leaks :
    ¬ ∀ m : Making Nat, Machine.Reachable makingStep (fun _ _ => True) unmade m → Returned m := by
  intro claimed
  obtain ⟨m, reachable, shown⟩ := Machine.run_exhibits makingStep (fun _ _ => True) unmade
    ([.make 0 (some .returns) (some 7)] : List (Action Nat))
    (fun m => decide (m.state.objects = [] ∧ m.made = [⟨7, 0, 0⟩] ∧ m.state.calls = [])) (by decide)
  obtain ⟨destroyed, made, none⟩ := of_decide_eq_true shown
  have called := (claimed m reachable (fun i => by rw [State.object, destroyed]; rfl) ⟨7, 0, 0⟩
    (by rw [made]; exact List.mem_cons_self)).1
  rw [none] at called
  cases called

end Vectro.Buffers
