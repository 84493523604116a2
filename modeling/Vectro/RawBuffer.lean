import Mathlib.Data.List.Nodup
import Vectro.Machine

set_option autoImplicit false

namespace Vectro.Buffers

variable {D : Type}

-- data_ is the id of a block, and DeleterFn a function pointer: both may be null.
structure RawBuffer (D : Type) where
  data : Option Nat := none
  size : Nat := 0
  deleter : Option D := none
deriving DecidableEq, Repr

-- A call of a deleter, with the arguments it was given.
structure Call (D : Type) where
  deleter : D
  data : Nat
  size : Nat
deriving DecidableEq, Repr

-- What a block was made for: the size asked of the allocator and the deleter
-- handed over with it.
structure Block (D : Type) where
  size : Nat
  deleter : Option D
deriving DecidableEq, Repr

-- An object keeps its place after its destruction, when nothing is left there.
structure State (D : Type) where
  objects : List (Option (RawBuffer D))
  blocks : List (Block D)
  calls : List (Call D)
deriving DecidableEq, Repr

def initial : State D where
  objects := []
  blocks := []
  calls := []

def State.object (s : State D) (i : Nat) : Option (RawBuffer D) := (s.objects[i]?).join

def State.born (s : State D) (buffer : RawBuffer D) : State D := { s with objects := s.objects ++ [some buffer] }

def State.put (s : State D) (i : Nat) (buffer : Option (RawBuffer D)) : State D :=
  { s with objects := s.objects.set i buffer }

-- An allocator that is not null returns a fresh block, returns null or raises.
inductive Allocation where
  | returns
  | null
  | raises
deriving DecidableEq, Repr

def State.allocate (s : State D) (size : Nat) (deleter : Option D) : State D :=
  { s with blocks := s.blocks ++ [⟨size, deleter⟩] }

-- What an operation raises: an exception of its own, or what the allocator or
-- the deleter it was given raised.
inductive Raised where
  | invalidArgument (what : String)
  | badAlloc
  | allocator
  | deleter
deriving DecidableEq, Repr

-- The constructor stores first and checks then; an object whose constructor
-- raises has never lived, and nobody calls its deleter.
def State.construct (s : State D) (data : Option Nat) (size : Nat) (deleter : Option D) : State D × Option Raised :=
  if data.isNone ∨ size = 0 ∨ deleter.isNone then (s, some (.invalidArgument "RawBuffer: invalid construction arguments."))
  else (s.born ⟨data, size, deleter⟩, none)

def State.make (s : State D) (size : Nat) (alloc : Option Allocation) (deleter : Option D) : State D × Option Raised :=
  match alloc, deleter with
  | none, _ | _, none => (s, some (.invalidArgument "RawBuffer: allocator and deleter must be provided."))
  | some .null, some _ => (s, some .badAlloc)
  | some .raises, some _ => (s, some .allocator)
  | some .returns, some deleter => (s.allocate size (some deleter)).construct (some s.blocks.length) size (some deleter)

-- Reset calls the deleter before it clears the fields: where the deleter raises,
-- they keep their values.
def State.reset (s : State D) (this : Nat) (raises : Bool) : Option (State D × Option Raised) :=
  (s.object this).map fun buffer =>
    match buffer.data, buffer.deleter with
    | some data, some deleter =>
        let called : State D := { s with calls := s.calls ++ [⟨deleter, data, buffer.size⟩] }
        if raises then (called, some .deleter) else (called.put this (some ⟨none, 0, none⟩), none)
    | _, _ => (s.put this (some ⟨none, 0, none⟩), none)

-- The part of operator= and of the destructor that is noexcept: a deleter that
-- raises there ends the process, and there is no state after it.
def State.resetNoexcept (s : State D) (this : Nat) (raises : Bool) : Option (State D) :=
  (s.reset this raises).bind fun after => if after.2.isSome then none else some after.1

def State.moveFrom (s : State D) (this other : Nat) : Option (State D) :=
  (s.object other).map fun buffer => (s.put this (some buffer)).put other (some ⟨none, 0, none⟩)

-- In reset, moveAssign and destroy the flag says whether the deleter raises if
-- it is called.
inductive Action (D : Type) where
  | defaultConstruct
  | make (size : Nat) (alloc : Option Allocation) (deleter : Option D)
  | construct (fresh : Bool) (size : Nat) (deleter : Option D)
  | moveConstruct (other : Nat)
  | moveAssign (this other : Nat) (raises : Bool)
  | reset (this : Nat) (raises : Bool)
  | destroy (this : Nat) (raises : Bool)
deriving DecidableEq, Repr

def step (s : State D) : Action D → Option (State D)
  | .defaultConstruct => some (s.born {})
  | .make size alloc deleter => some (s.make size alloc deleter).1
  | .construct true size deleter => some ((s.allocate size deleter).construct (some s.blocks.length) size deleter).1
  | .construct false size deleter => some (s.construct none size deleter).1
  | .moveConstruct other => (s.object other).bind fun _ => (s.born {}).moveFrom s.objects.length other
  | .moveAssign this other raises =>
      if this = other then (s.object this).map fun _ => s
      else (s.object other).bind fun _ => (s.resetNoexcept this raises).bind fun after => after.moveFrom this other
  | .reset this raises => (s.reset this raises).map Prod.fst
  | .destroy this raises => (s.resetNoexcept this raises).map fun after => after.put this none

def RawBuffer.Whole (buffer : RawBuffer D) : Prop :=
  (buffer.data.isSome ∧ buffer.size ≠ 0 ∧ buffer.deleter.isSome) ∨ buffer = ⟨none, 0, none⟩

def State.given (s : State D) : List Nat := s.calls.map Call.data

structure Exclusive (s : State D) : Prop where
  oneOwner : ∀ block, block ∉ s.given → ∀ i j left right, s.object i = some left → s.object j = some right →
    left.data = some block → right.data = some block → i = j
  once : s.given.Nodup
  asCreated : ∀ call ∈ s.calls, s.blocks[call.data]? = some ⟨call.size, some call.deleter⟩
  alive : ∀ i buffer block, s.object i = some buffer → buffer.data = some block → block ∉ s.given
  whole : ∀ i buffer, s.object i = some buffer → buffer.Whole

-- What an object holds was made with the size and the deleter it has stored.
structure Owned (s : State D) : Prop extends Exclusive s where
  created : ∀ i buffer block, s.object i = some buffer → buffer.data = some block →
    s.blocks[block]? = some ⟨buffer.size, buffer.deleter⟩

theorem object_found (s : State D) (i : Nat) (buffer : RawBuffer D) (found : s.object i = some buffer) : i < s.objects.length := by
  by_contra outside
  have missing : s.objects[i]? = none := List.getElem?_eq_none (Nat.le_of_not_lt outside)
  rw [State.object, missing] at found
  cases found

theorem object_put_same (s : State D) (i : Nat) (old : RawBuffer D) (new : Option (RawBuffer D)) (found : s.object i = some old) :
    (s.put i new).object i = new := by
  simp [State.object, State.put, object_found s i old found]

theorem object_put_other (s : State D) (i j : Nat) (new : Option (RawBuffer D)) (other : j ≠ i) :
    (s.put i new).object j = s.object j := by
  simp [State.object, State.put, List.getElem?_set_ne (Ne.symm other)]

theorem object_born_same (s : State D) (buffer : RawBuffer D) : (s.born buffer).object s.objects.length = some buffer := by
  simp [State.object, State.born]

theorem object_born_other (s : State D) (buffer : RawBuffer D) (j : Nat) (other : j ≠ s.objects.length) :
    (s.born buffer).object j = s.object j := by
  rcases Nat.lt_or_gt_of_ne other with before | beyond
  · simp [State.object, State.born, List.getElem?_append_left before]
  · have short : (s.objects ++ [some buffer]).length ≤ j := by
      rw [List.length_append, List.length_singleton]
      exact beyond
    simp [State.object, State.born, List.getElem?_eq_none short, List.getElem?_eq_none (Nat.le_of_lt beyond)]

-- One object changes. If it refers to a block afterwards, the block is alive,
-- was made for it and has no other owner.
theorem owned_change (s after : State D) (i : Nat) (new : Option (RawBuffer D)) (owned : Owned s)
    (here : after.object i = new) (elsewhere : ∀ j, j ≠ i → after.object j = s.object j)
    (whole : ∀ buffer, new = some buffer → buffer.Whole)
    (sole : ∀ buffer block, new = some buffer → buffer.data = some block →
      s.blocks[block]? = some ⟨buffer.size, buffer.deleter⟩ ∧ block ∉ s.given ∧
      ∀ j other, j ≠ i → s.object j = some other → other.data ≠ some block)
    (blocks : after.blocks = s.blocks := by rfl) (calls : after.calls = s.calls := by rfl) : Owned after := by
  have given : after.given = s.given := by rw [State.given, calls]; rfl
  refine ⟨⟨?_, ?_, ?_, ?_, ?_⟩, ?_⟩
  · intro block fresh j k left right atJ atK holdsJ holdsK
    by_cases first : j = i
    · by_cases second : k = i
      · rw [first, second]
      · rw [elsewhere k second] at atK
        rw [first, here] at atJ
        exact absurd holdsK ((sole left block atJ holdsJ).2.2 k right second atK)
    · rw [elsewhere j first] at atJ
      by_cases second : k = i
      · rw [second, here] at atK
        exact absurd holdsJ ((sole right block atK holdsK).2.2 j left first atJ)
      · rw [elsewhere k second] at atK
        exact owned.oneOwner block (given ▸ fresh) j k left right atJ atK holdsJ holdsK
  · rw [given]
    exact owned.once
  · intro call member
    rw [blocks]
    exact owned.asCreated call (calls ▸ member)
  · intro j buffer block found holds
    rw [given]
    by_cases changed : j = i
    · rw [changed, here] at found
      exact (sole buffer block found holds).2.1
    · rw [elsewhere j changed] at found
      exact owned.alive j buffer block found holds
  · intro j buffer found
    by_cases changed : j = i
    · rw [changed, here] at found
      exact whole buffer found
    · rw [elsewhere j changed] at found
      exact owned.whole j buffer found
  · intro j buffer block found holds
    rw [blocks]
    by_cases changed : j = i
    · rw [changed, here] at found
      exact (sole buffer block found holds).1
    · rw [elsewhere j changed] at found
      exact owned.created j buffer block found holds

theorem empty_whole : (⟨none, 0, none⟩ : RawBuffer D).Whole := .inr rfl

theorem owned_change_empty (s after : State D) (i : Nat) (owned : Owned s) (here : after.object i = some {})
    (elsewhere : ∀ j, j ≠ i → after.object j = s.object j) (blocks : after.blocks = s.blocks)
    (calls : after.calls = s.calls) : Owned after := by
  apply owned_change s after i (some {}) owned here elsewhere _ _ blocks calls
  · intro buffer same
    rw [← Option.some.inj same]
    exact empty_whole
  · intro buffer block same holds
    rw [← Option.some.inj same] at holds
    cases holds

theorem owned_put_empty (s : State D) (i : Nat) (old : RawBuffer D) (owned : Owned s) (found : s.object i = some old) :
    Owned (s.put i (some ⟨none, 0, none⟩)) :=
  owned_change_empty s _ i owned (object_put_same s i old _ found) (fun j => object_put_other s i j _) rfl rfl

theorem owned_put_none (s : State D) (i : Nat) (old : RawBuffer D) (owned : Owned s) (found : s.object i = some old) :
    Owned (s.put i none) := by
  apply owned_change s _ i none owned (object_put_same s i old _ found) fun j => object_put_other s i j _
  · intro buffer same
    cases same
  · intro buffer block same
    cases same

theorem owned_born_empty (s : State D) (owned : Owned s) : Owned (s.born {}) :=
  owned_change_empty s _ s.objects.length owned (object_born_same s {}) (fun j => object_born_other s {} j) rfl rfl

-- A block in use is one that has been allocated.
theorem owned_held_allocated (s : State D) (owned : Owned s) (i : Nat) (buffer : RawBuffer D) (block : Nat)
    (found : s.object i = some buffer) (holds : buffer.data = some block) : block < s.blocks.length := by
  obtain ⟨bound, _⟩ := List.getElem?_eq_some_iff.mp (owned.created i buffer block found holds)
  exact bound

theorem owned_given_allocated (s : State D) (owned : Owned s) (block : Nat) (given : block ∈ s.given) :
    block < s.blocks.length := by
  obtain ⟨call, member, same⟩ := List.mem_map.mp given
  obtain ⟨bound, _⟩ := List.getElem?_eq_some_iff.mp (owned.asCreated call member)
  exact same ▸ bound

theorem owned_allocate (s : State D) (size : Nat) (deleter : Option D) (owned : Owned s) : Owned (s.allocate size deleter) := by
  have kept : ∀ (block : Nat) (made : Block D), s.blocks[block]? = some made →
      (s.allocate size deleter).blocks[block]? = some made := by
    intro block made found
    obtain ⟨bound, _⟩ := List.getElem?_eq_some_iff.mp found
    rw [State.allocate, List.getElem?_append_left bound, found]
  exact ⟨⟨owned.oneOwner, owned.once, fun call member => kept _ _ (owned.asCreated call member), owned.alive, owned.whole⟩,
    fun i buffer block found holds => kept _ _ (owned.created i buffer block found holds)⟩

theorem owned_construct_fresh (s : State D) (size : Nat) (deleter : Option D) (owned : Owned s) :
    Owned ((s.allocate size deleter).construct (some s.blocks.length) size deleter).1 := by
  have allocated := owned_allocate s size deleter owned
  rw [State.construct]
  split
  · exact allocated
  · rename_i accepted
    obtain ⟨_, sized, deletes⟩ := not_or.mp accepted |>.imp id not_or.mp
    apply owned_change (s.allocate size deleter) _ s.objects.length (some ⟨some s.blocks.length, size, deleter⟩) allocated
      (object_born_same (s.allocate size deleter) _) fun j => object_born_other (s.allocate size deleter) _ j
    · intro buffer same
      rw [← Option.some.inj same]
      exact .inl ⟨rfl, sized, Option.isSome_iff_ne_none.mpr fun null => deletes (Option.isNone_iff_eq_none.mpr null)⟩
    · intro buffer block same holds
      rw [← Option.some.inj same] at holds ⊢
      obtain rfl : s.blocks.length = block := Option.some.inj holds
      refine ⟨by simp [State.allocate], fun given => ?_, fun j other _ found shares => ?_⟩
      · exact Nat.lt_irrefl _ (owned_given_allocated s owned _ given)
      · exact Nat.lt_irrefl _ (owned_held_allocated s owned j other _ found shares)

theorem owned_make (s : State D) (size : Nat) (alloc : Option Allocation) (deleter : Option D) (owned : Owned s) :
    Owned (s.make size alloc deleter).1 := by
  unfold State.make
  split
  · exact owned
  · exact owned
  · exact owned
  · exact owned
  · rename_i deleter
    exact owned_construct_fresh s size (some deleter) owned

theorem owned_give (s : State D) (call : Call D) (owned : Owned s)
    (made : s.blocks[call.data]? = some ⟨call.size, some call.deleter⟩) (first : call.data ∉ s.given)
    (left : ∀ i buffer, s.object i = some buffer → buffer.data ≠ some call.data) :
    Owned { s with calls := s.calls ++ [call] } := by
  have grown : ∀ block, block ∈ ({ s with calls := s.calls ++ [call] } : State D).given ↔ block ∈ s.given ∨ block = call.data := by
    intro block
    simp [State.given]
  refine ⟨⟨?_, ?_, ?_, ?_, owned.whole⟩, owned.created⟩
  · intro block fresh
    exact owned.oneOwner block fun before => fresh ((grown block).mpr (.inl before))
  · have apart : (s.given ++ [call.data]).Nodup := by
      rw [List.nodup_append_comm]
      exact List.nodup_cons.mpr ⟨first, owned.once⟩
    simpa [State.given] using apart
  · intro other member
    rcases List.mem_append.mp member with before | new
    · exact owned.asCreated other before
    · rw [List.mem_singleton.mp new]
      exact made
  · intro i buffer block found holds given
    rcases (grown block).mp given with before | same
    · exact owned.alive i buffer block found holds before
    · exact left i buffer found (same ▸ holds)

-- A Reset that does not raise: the block, if there is one, goes to its deleter
-- and nobody refers to it any more.
theorem owned_reset (s after : State D) (this : Nat) (raises : Bool) (owned : Owned s)
    (taken : s.reset this raises = some (after, none)) :
    Owned after ∧ after.object this = some ⟨none, 0, none⟩ ∧ ∀ j, j ≠ this → after.object j = s.object j := by
  obtain ⟨buffer, found, outcome⟩ := Option.map_eq_some_iff.mp taken
  have emptied := owned_put_empty s this buffer owned found
  split at outcome
  · rename_i data deleter holds deletes
    have kept : raises = false := by
      cases raises with
      | true => simp at outcome
      | false => rfl
    rw [kept] at outcome
    obtain rfl : _ = after := congrArg Prod.fst outcome
    refine ⟨?_, object_put_same s this buffer _ found, fun j => object_put_other s this j _⟩
    have made := owned.created this buffer data found holds
    apply owned_give (s.put this (some ⟨none, 0, none⟩)) ⟨deleter, data, buffer.size⟩ emptied
    · rw [← deletes]
      exact made
    · exact owned.alive this buffer data found holds
    · intro j other present shares
      by_cases same : j = this
      · rw [same, object_put_same s this buffer _ found] at present
        rw [← Option.some.inj present] at shares
        cases shares
      · rw [object_put_other s this j _ same] at present
        exact same (owned.oneOwner data (owned.alive this buffer data found holds) j this other buffer present found shares holds)
  · obtain rfl : _ = after := congrArg Prod.fst outcome
    exact ⟨emptied, object_put_same s this buffer _ found, fun j => object_put_other s this j _⟩

theorem owned_reset_noexcept (s after : State D) (this : Nat) (raises : Bool) (owned : Owned s)
    (taken : s.resetNoexcept this raises = some after) :
    Owned after ∧ after.object this = some ⟨none, 0, none⟩ ∧ ∀ j, j ≠ this → after.object j = s.object j := by
  obtain ⟨⟨reached, raised⟩, reset, survived⟩ := Option.bind_eq_some_iff.mp taken
  cases raised with
  | some raised => simp at survived
  | none =>
      obtain rfl : reached = after := by simpa using survived
      exact owned_reset s reached this raises owned reset

-- The new owner was empty, so that the old one can be emptied first.
theorem owned_move_from (s after : State D) (this other : Nat) (owned : Owned s) (apart : this ≠ other)
    (empty : s.object this = some ⟨none, 0, none⟩) (taken : s.moveFrom this other = some after) : Owned after := by
  obtain ⟨buffer, found, rfl⟩ := Option.map_eq_some_iff.mp taken
  have swapped : (s.put this (some buffer)).put other (some ⟨none, 0, none⟩) =
      (s.put other (some ⟨none, 0, none⟩)).put this (some buffer) := by
    simp only [State.put, State.mk.injEq, and_true]
    exact List.set_comm _ _ apart
  rw [swapped]
  have emptied := owned_put_empty s other buffer owned found
  have still : (s.put other (some ⟨none, 0, none⟩)).object this = some ⟨none, 0, none⟩ := by
    rw [object_put_other s other this _ apart]
    exact empty
  apply owned_change (s.put other (some ⟨none, 0, none⟩)) _ this (some buffer) emptied
    (object_put_same _ this _ _ still) fun j => object_put_other _ this j _
  · intro same_ equal
    rw [← Option.some.inj equal]
    exact owned.whole other buffer found
  · intro moved block equal holds
    rw [← Option.some.inj equal] at holds ⊢
    refine ⟨owned.created other buffer block found holds, owned.alive other buffer block found holds, ?_⟩
    intro j held _ present shares
    by_cases same : j = other
    · rw [same, object_put_same s other buffer _ found] at present
      rw [← Option.some.inj present] at shares
      cases shares
    · rw [object_put_other s other j _ same] at present
      exact same (owned.oneOwner block (owned.alive other buffer block found holds) j other held buffer present found shares holds)

-- No deleter raises inside an explicit Reset.
def Contained (s : State D) : Action D → Prop
  | .reset this raises => raises = false ∨ (s.object this).all (fun buffer => buffer.data.isNone || buffer.deleter.isNone) = true
  | _ => True

instance (s : State D) (action : Action D) : Decidable (Contained s action) :=
  match action with
  | .reset .. => inferInstanceAs (Decidable (_ ∨ _))
  | .defaultConstruct | .make .. | .construct .. | .moveConstruct .. | .moveAssign .. | .destroy .. => isTrue trivial

theorem contained_reset_returns (s after : State D) (this : Nat) (raises : Bool) (raised : Option Raised)
    (contained : Contained s (.reset this raises)) (taken : s.reset this raises = some (after, raised)) : raised = none := by
  obtain ⟨buffer, found, outcome⟩ := Option.map_eq_some_iff.mp taken
  split at outcome
  · rename_i data deleter holds deletes
    rcases contained with calm | bare
    · rw [calm] at outcome
      exact (congrArg Prod.snd outcome).symm
    · simp [found, holds, deletes] at bare
  · exact (congrArg Prod.snd outcome).symm

theorem step_owned (s after : State D) (action : Action D) (owned : Owned s) (contained : Contained s action)
    (taken : step s action = some after) : Owned after := by
  cases action with
  | defaultConstruct =>
      obtain rfl := Option.some.inj taken
      exact owned_born_empty s owned
  | make size alloc deleter =>
      obtain rfl := Option.some.inj taken
      exact owned_make s size alloc deleter owned
  | construct fresh size deleter =>
      cases fresh with
      | true =>
          obtain rfl := Option.some.inj taken
          exact owned_construct_fresh s size deleter owned
      | false =>
          obtain rfl := Option.some.inj taken
          rw [State.construct, if_pos (.inl rfl)]
          exact owned
  | moveConstruct other =>
      obtain ⟨buffer, found, moved⟩ := Option.bind_eq_some_iff.mp taken
      have apart : s.objects.length ≠ other := Nat.ne_of_gt (object_found s other buffer found)
      exact owned_move_from (s.born {}) after s.objects.length other (owned_born_empty s owned) apart (object_born_same s {}) moved
  | moveAssign this other raises =>
      by_cases same : this = other
      · rw [step, if_pos same] at taken
        obtain ⟨_, _, rfl⟩ := Option.map_eq_some_iff.mp taken
        exact owned
      · rw [step, if_neg same] at taken
        obtain ⟨_, _, assigned⟩ := Option.bind_eq_some_iff.mp taken
        obtain ⟨reset, released, moved⟩ := Option.bind_eq_some_iff.mp assigned
        obtain ⟨still, empty, _⟩ := owned_reset_noexcept s reset this raises owned released
        exact owned_move_from reset after this other still same empty moved
  | reset this raises =>
      obtain ⟨⟨reached, raised⟩, reset, rfl⟩ := Option.map_eq_some_iff.mp taken
      rw [contained_reset_returns s reached this raises raised contained reset] at reset
      exact (owned_reset s reached this raises owned reset).1
  | destroy this raises =>
      obtain ⟨reset, released, rfl⟩ := Option.map_eq_some_iff.mp taken
      obtain ⟨still, empty, _⟩ := owned_reset_noexcept s reset this raises owned released
      exact owned_put_none reset this _ still empty

theorem reachable_owned (s : State D) (reachable : Machine.Reachable step Contained initial s) : Owned s := by
  apply Machine.reachable_invariant step Contained initial Owned _ _ s reachable
  · exact ⟨⟨nofun, .nil, nofun, nofun, nofun⟩, nofun⟩
  · intro before action after _ owned contained taken
    exact step_owned before after action owned contained taken

theorem ownership_exclusive (s : State D) (reachable : Machine.Reachable step Contained initial s) : Exclusive s :=
  (reachable_owned s reachable).toExclusive

-- Make, two moves, a move onto itself, Reset of the old and the new owner, and
-- the destruction of both, which gives nothing away any more.
theorem ownership_exclusive_moved :
    ∃ s : State Nat, Machine.Reachable step Contained initial s ∧ s.given = [0] ∧ s.objects = [none, none] ∧ Exclusive s := by
  obtain ⟨s, reachable, shown⟩ := Machine.run_exhibits step Contained initial
    ([.make 16 (some .returns) (some 7), .moveConstruct 0, .moveAssign 0 1 false, .moveAssign 1 1 false, .moveAssign 1 0 false,
      .reset 0 true, .reset 1 false, .destroy 1 true, .destroy 0 true] : List (Action Nat))
    (fun s => decide (s.given = [0] ∧ s.objects = [none, none])) (by decide)
  obtain ⟨given, gone⟩ := of_decide_eq_true shown
  exact ⟨s, reachable, given, gone, ownership_exclusive s reachable⟩

-- The deleter raises in Reset, and is called again on the same block when the
-- buffer is destroyed.
theorem raising_deleter_called_twice :
    ¬ ∀ s : State Nat, Machine.Reachable step (fun _ _ => True) initial s → Exclusive s := by
  intro claimed
  obtain ⟨s, reachable, shown⟩ := Machine.run_exhibits step (fun _ _ => True) initial
    ([.make 16 (some .returns) (some 7), .reset 0 true, .destroy 0 false] : List (Action Nat))
    (fun s => s.given == [0, 0]) (by decide)
  have once := (claimed s reachable).once
  rw [eq_of_beq shown] at once
  exact absurd once (by decide)

end Vectro.Buffers
