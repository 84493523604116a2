import Vectro.Layers

set_option autoImplicit false

namespace Vectro.Plugin

variable {P : Type}

-- A value is a shared_ptr, and none is the null one: a key may be present with
-- a null plugin. The hash map is the finite map it holds.
structure PluginBundle (P : Type) where
  plugins : Finmap fun _ : String => Option P
deriving DecidableEq

namespace PluginBundle

def empty : PluginBundle P := ⟨∅⟩

def set (bundle : PluginBundle P) (key : String) (plugin : Option P) : PluginBundle P :=
  ⟨bundle.plugins.insert key plugin⟩

def get (bundle : PluginBundle P) (key : String) : Option P :=
  match bundle.plugins.lookup key with
  | some plugin => plugin
  | none => none

def remove (bundle : PluginBundle P) (key : String) : PluginBundle P :=
  ⟨bundle.plugins.erase key⟩

def has (bundle : PluginBundle P) (key : String) : Bool :=
  (bundle.plugins.lookup key).isSome

def isEmpty (bundle : PluginBundle P) : Bool :=
  bundle.plugins.keys = ∅

-- insert of the hash map: nothing happens where the key is present.
def insert (bundle : PluginBundle P) (key : String) (plugin : Option P) : PluginBundle P :=
  ⟨Layers.extend bundle.plugins key plugin⟩

-- An order in which the hash map may be iterated: every element once.
structure Order (bundle : PluginBundle P) where
  keys : List String
  once : keys.Nodup
  visits : ∀ key, key ∈ keys ↔ bundle.has key = true

def mergeFrom (bundle fallback : PluginBundle P) (order : fallback.Order) : PluginBundle P :=
  order.keys.foldl (fun result key => result.insert key (fallback.get key)) bundle

def overlayWith (bundle upper : PluginBundle P) (order : upper.Order) : PluginBundle P :=
  order.keys.foldl (fun result key => result.set key (upper.get key)) bundle

theorem has_iff (bundle : PluginBundle P) (key : String) : bundle.has key = true ↔ key ∈ bundle.plugins :=
  Finmap.lookup_isSome

def Order.ofKeys (bundle : PluginBundle P) (keys : List String) (once : keys.Nodup)
    (all : keys.toFinset = bundle.plugins.keys) : bundle.Order where
  keys := keys
  once := once
  visits key := by rw [has_iff, ← Finmap.mem_keys, ← all, List.mem_toFinset]

-- The loop reads the element it stands on, which Get finds under its key.
theorem order_lookup (bundle : PluginBundle P) (order : bundle.Order) (key : String) :
    bundle.plugins.lookup key = if key ∈ order.keys then some (bundle.get key) else none := by
  by_cases visited : key ∈ order.keys
  · obtain ⟨plugin, found⟩ := Finmap.mem_iff.mp ((has_iff bundle key).mp ((order.visits key).mp visited))
    rw [if_pos visited, get, found]
  · rw [if_neg visited, Finmap.lookup_eq_none]
    intro present
    exact visited ((order.visits key).mpr ((has_iff bundle key).mpr present))

theorem fold_insert (value : String → Option P) (keys : List String) (bundle : PluginBundle P) :
    (keys.foldl (fun result key => result.insert key (value key)) bundle).plugins =
      Layers.fill value keys bundle.plugins := by
  induction keys generalizing bundle with
  | nil => rfl
  | cons first rest ih =>
      rw [List.foldl_cons, ih]
      rfl

theorem fold_set (value : String → Option P) (keys : List String) (bundle : PluginBundle P) :
    (keys.foldl (fun result key => result.set key (value key)) bundle).plugins =
      Layers.write value keys bundle.plugins := by
  induction keys generalizing bundle with
  | nil => rfl
  | cons first rest ih =>
      rw [List.foldl_cons, ih]
      rfl

theorem merge_union (bundle fallback : PluginBundle P) (order : fallback.Order) :
    bundle.mergeFrom fallback order = ⟨bundle.plugins ∪ fallback.plugins⟩ := by
  rw [PluginBundle.mk.injEq, mergeFrom, fold_insert]
  exact Layers.fill_every fallback.get order.keys bundle.plugins fallback.plugins (order_lookup fallback order)

theorem overlay_union (bundle upper : PluginBundle P) (order : upper.Order) :
    bundle.overlayWith upper order = ⟨upper.plugins ∪ bundle.plugins⟩ := by
  rw [PluginBundle.mk.injEq, overlayWith, fold_set]
  exact Layers.write_every upper.get order.keys bundle.plugins upper.plugins (order_lookup upper order)

end PluginBundle

-- The bundle objects of the program. A loop works on its target in place and
-- reads the element it stands on from the object it iterates, which may be the target.
structure Heap (P : Type) where
  bundles : List (PluginBundle P)
deriving DecidableEq

namespace Heap

def loop (write : PluginBundle P → String → Option P → PluginBundle P) (target source : Nat) (keys : List String)
    (heap : Heap P) : Heap P :=
  keys.foldl (fun heap key => ⟨heap.bundles.modify target fun result =>
    write result key ((heap.bundles[source]?).bind fun bundle => bundle.get key)⟩) heap

def mergeFrom (heap : Heap P) (self fallback : Nat) (keys : List String) : Heap P :=
  heap.loop PluginBundle.insert self fallback keys

-- The result is a new object, a copy of *this.
def overlayWith (heap : Heap P) (self upper : Nat) (keys : List String) : Heap P :=
  loop PluginBundle.set heap.bundles.length upper keys ⟨heap.bundles ++ heap.bundles[self]?.toList⟩

theorem loop_apart (write : PluginBundle P → String → Option P → PluginBundle P) (target source : Nat)
    (keys : List String) (heap : Heap P) (bundle : PluginBundle P) (apart : target ≠ source)
    (read : heap.bundles[source]? = some bundle) :
    heap.loop write target source keys = ⟨heap.bundles.modify target fun result =>
      keys.foldl (fun result key => write result key (bundle.get key)) result⟩ := by
  induction keys generalizing heap with
  | nil => exact congrArg Heap.mk (List.modify_id target heap.bundles).symm
  | cons first rest ih =>
      rw [loop, List.foldl_cons, ← loop, read, Option.bind_some, ih, List.modify_modify_eq]
      · rfl
      · exact (List.getElem?_modify_ne _ heap.bundles apart).trans read

-- A bundle merged into itself: every insert finds its key present.
theorem loop_self (self : Nat) (keys : List String) (heap : Heap P)
    (present : ∀ bundle ∈ heap.bundles[self]?, ∀ key ∈ keys, bundle.has key = true) :
    heap.loop PluginBundle.insert self self keys = heap := by
  induction keys with
  | nil => rfl
  | cons first rest ih =>
      have same : heap.bundles.modify self (fun result =>
          result.insert first ((heap.bundles[self]?).bind fun bundle => bundle.get first)) = heap.bundles := by
        apply List.ext_getElem?
        intro i
        by_cases here : self = i
        · subst here
          cases found : heap.bundles[self]? with
          | none => simp [found]
          | some bundle =>
              have known := (PluginBundle.has_iff bundle first).mp (present bundle found first List.mem_cons_self)
              rw [List.getElem?_modify_eq, found]
              exact congrArg (fun plugins => some (PluginBundle.mk plugins)) (Layers.extend_present _ first _ known)
        · rw [List.getElem?_modify_ne _ _ here]
      rw [loop, List.foldl_cons, ← loop, same]
      exact ih fun bundle found key later => present bundle found key (List.mem_cons_of_mem first later)

theorem merge_in_place (heap : Heap P) (self other : Nat) (bundle fallback : PluginBundle P) (order : fallback.Order)
    (target : heap.bundles[self]? = some bundle) (read : heap.bundles[other]? = some fallback) :
    heap.mergeFrom self other order.keys = ⟨heap.bundles.set self (bundle.mergeFrom fallback order)⟩ := by
  by_cases apart : self = other
  · subst apart
    obtain rfl : bundle = fallback := Option.some.inj (target.symm.trans read)
    have idle : heap.mergeFrom self self order.keys = heap :=
      loop_self self order.keys heap fun found member key visited => by
        obtain rfl : bundle = found := Option.some.inj (target.symm.trans member)
        exact (order.visits key).mp visited
    rw [idle, PluginBundle.merge_union, Layers.union_self]
    obtain ⟨bound, rfl⟩ := List.getElem?_eq_some_iff.mp target
    exact congrArg Heap.mk (List.set_getElem_self bound).symm
  · rw [mergeFrom, loop_apart PluginBundle.insert self other order.keys heap fallback apart read]
    apply congrArg Heap.mk
    apply List.ext_getElem?
    intro i
    by_cases here : self = i
    · subst here
      rw [List.getElem?_modify_eq, target, List.getElem?_set_self']
      simp [target, PluginBundle.mergeFrom]
    · rw [List.getElem?_modify_ne _ _ here, List.getElem?_set_ne here]

theorem overlay_fresh (heap : Heap P) (self other : Nat) (bundle upper : PluginBundle P) (order : upper.Order)
    (copied : heap.bundles[self]? = some bundle) (read : heap.bundles[other]? = some upper) :
    heap.overlayWith self other order.keys = ⟨heap.bundles ++ [bundle.overlayWith upper order]⟩ := by
  have older : other < heap.bundles.length := (List.getElem?_eq_some_iff.mp read).1
  have still : (heap.bundles ++ heap.bundles[self]?.toList)[other]? = some upper := by
    rw [List.getElem?_append_left older, read]
  rw [overlayWith, loop_apart PluginBundle.set _ other order.keys _ upper (by omega) still, copied]
  simp [List.modify_eq_take_drop, PluginBundle.overlayWith]

end Heap

namespace PluginBundle

theorem get_overlay (bundle upper : PluginBundle P) (order : upper.Order) (key : String) :
    (bundle.overlayWith upper order).get key = if upper.has key then upper.get key else bundle.get key := by
  rw [overlay_union]
  by_cases above : upper.has key = true
  · rw [if_pos above, get, Finmap.lookup_union_left ((has_iff upper key).mp above), ← get]
  · rw [if_neg above, get, Finmap.lookup_union_right (mt (has_iff upper key).mpr above), ← get]

theorem has_overlay (bundle upper : PluginBundle P) (order : upper.Order) (key : String) :
    (bundle.overlayWith upper order).has key = true ↔ bundle.has key = true ∨ upper.has key = true := by
  rw [overlay_union, has_iff, has_iff, has_iff, Finmap.mem_union, Or.comm]

theorem overlay_assoc (a b c : PluginBundle P) (ob : b.Order) (oc oc' : c.Order) (obc : (b.overlayWith c oc').Order) :
    (a.overlayWith b ob).overlayWith c oc = a.overlayWith (b.overlayWith c oc') obc := by
  rw [overlay_union, overlay_union, overlay_union, overlay_union, Finmap.union_assoc]

end PluginBundle

-- The laws hold for every order in which each loop visits its elements. The last
-- two say what the calls do to the program's objects, self and other being the
-- same one included.
theorem layering_agrees (a b c : PluginBundle P) :
    (∀ (ob : b.Order) (oa : a.Order), a.mergeFrom b ob = b.overlayWith a oa) ∧
      (∀ (ob : b.Order) (key : String),
        (a.overlayWith b ob).get key = if b.has key then b.get key else a.get key) ∧
      (∀ (ob : b.Order) (key : String), (a.overlayWith b ob).has key = true ↔ a.has key = true ∨ b.has key = true) ∧
      (∀ (ob : b.Order) (oc oc' : c.Order) (obc : (b.overlayWith c oc').Order),
        (a.overlayWith b ob).overlayWith c oc = a.overlayWith (b.overlayWith c oc') obc) ∧
      (∀ oa : a.Order, a.overlayWith a oa = a) ∧
      (∀ oa : a.Order, PluginBundle.empty.overlayWith a oa = a) ∧
      (∀ oe : PluginBundle.empty.Order, a.overlayWith PluginBundle.empty oe = a) ∧
      (∀ (heap : Heap P) (self other : Nat) (ob : b.Order), heap.bundles[self]? = some a →
        heap.bundles[other]? = some b →
          heap.overlayWith self other ob.keys = ⟨heap.bundles ++ [a.overlayWith b ob]⟩) ∧
      (∀ (heap : Heap P) (self other : Nat) (ob : b.Order), heap.bundles[self]? = some a →
        heap.bundles[other]? = some b →
          heap.mergeFrom self other ob.keys = ⟨heap.bundles.set self (a.mergeFrom b ob)⟩) := by
  refine ⟨?_, a.get_overlay b, a.has_overlay b, a.overlay_assoc b c, ?_, ?_, ?_, ?_, ?_⟩
  · intro ob oa
    rw [PluginBundle.merge_union, PluginBundle.overlay_union]
  · intro oa
    rw [PluginBundle.overlay_union, Layers.union_self]
  · intro oa
    rw [PluginBundle.overlay_union, PluginBundle.empty, Finmap.union_empty]
  · intro oe
    rw [PluginBundle.overlay_union, PluginBundle.empty, Finmap.empty_union]
  · intro heap self other ob copied read
    exact heap.overlay_fresh self other a b ob copied read
  · intro heap self other ob target read
    exact heap.merge_in_place self other a b ob target read

-- One key is in both bundles, and one holds a null plugin.
theorem layering_two_bundles :
    let lower : PluginBundle Nat := (PluginBundle.empty.set "auth" none).set "log" (some 1)
    let upper : PluginBundle Nat := PluginBundle.empty.set "log" (some 2)
    let heap : Heap Nat := ⟨[lower, upper]⟩
    let order : upper.Order := .ofKeys upper ["log"] (by decide) (by decide)
    heap.overlayWith 0 1 ["log"] = ⟨[lower, upper, lower.overlayWith upper order]⟩ ∧
      (lower.overlayWith upper order).get "log" = some 2 ∧ (lower.overlayWith upper order).has "auth" = true ∧
      (lower.overlayWith upper order).get "auth" = none := by
  intro lower upper heap order
  obtain ⟨-, get, has, -, -, -, -, fresh, -⟩ := layering_agrees lower upper PluginBundle.empty
  refine ⟨fresh heap 0 1 order rfl rfl, (get order "log").trans (by decide), ?_, (get order "auth").trans (by decide)⟩
  exact (has order "auth").mpr (.inl (by decide))

end Vectro.Plugin
