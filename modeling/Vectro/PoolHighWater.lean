import Vectro.PoolLedger
import Mathlib.Order.Bounds.Basic

set_option autoImplicit false

namespace Vectro.Pool

open Tally

variable {T W : Type}

-- The lengths of all queues are looked at after every step.
def State.lengths (s : State T W) : List Nat := s.queues.map List.length

abbrev Gauged (T W : Type) := Machine.Recorded (State T W) (List Nat)

def gauge (cfg : TaskProcessorConfig) (now : Int) : Gauged T W :=
  ⟨construct cfg now, [(construct cfg now : State T W).lengths]⟩

def gaugedStep : Gauged T W → Action T W → Option (Gauged T W) :=
  Machine.recorded step fun _ _ after => [after.lengths]

def Had (history : List (List Nat)) (idx n : Nat) : Prop := ∃ lengths ∈ history, lengths[idx]? = some n

-- What the call inside the critical section of a queue is going to offer to
-- the mark.
def SubmitPc.offers (queues : List (List (TaskItem T W))) (idx n : Nat) : SubmitPc → Prop
  | .sample at_ => at_ = idx ∧ ∃ queue, queues[idx]? = some queue ∧ n ≤ queue.length
  | .exchange at_ hwm _ => at_ = idx ∧ n ≤ hwm.toNat
  | _ => False

def State.Covered (s : State T W) (idx n : Nat) : Prop :=
  n ≤ s.highWaterMark.toNat ∨ ∃ call ∈ s.calls, call.pc.offers s.queues idx n

-- A prev that compare_exchange_weak was given is never ahead of the mark,
-- and what it wants to store is the length of its queue.
def State.Offered (s : State T W) (history : List (List Nat)) : Prop :=
  ∀ call ∈ s.calls, ∀ idx hwm prev, call.pc = .exchange idx hwm prev →
    prev ≤ s.highWaterMark ∧ Had history idx hwm.toNat

structure Marked (s : State T W) (history : List (List Nat)) : Prop where
  current : s.lengths ∈ history
  offered : s.Offered history
  covered : ∀ idx n, Had history idx n → s.Covered idx n
  reached : s.highWaterMark = 0 ∨ ∃ idx, Had history idx s.highWaterMark.toNat

theorem had_grows (history : List (List Nat)) (lengths : List Nat) (idx n : Nat) (had : Had history idx n) :
    Had (history ++ [lengths]) idx n := by
  obtain ⟨seen, member, read⟩ := had
  exact ⟨seen, List.mem_append_left _ member, read⟩

theorem offers_le (queues : List (List (TaskItem T W))) (idx n m : Nat) (pc : SubmitPc) (less : n ≤ m)
    (offers : pc.offers queues idx m) : pc.offers queues idx n := by
  cases pc with
  | sample at_ =>
      obtain ⟨same, queue, inside, bound⟩ := offers
      exact ⟨same, queue, inside, Nat.le_trans less bound⟩
  | exchange at_ hwm prev => exact ⟨offers.1, Nat.le_trans less offers.2⟩
  | _ => exact offers

theorem covered_le (s : State T W) (idx n m : Nat) (less : n ≤ m) (covered : s.Covered idx m) : s.Covered idx n := by
  rcases covered with below | ⟨call, member, offers⟩
  · exact .inl (Nat.le_trans less below)
  · exact .inr ⟨call, member, offers_le s.queues idx n m call.pc less offers⟩

-- Whoever offers something stands inside the critical section.
theorem offers_inside (queues : List (List (TaskItem T W))) (idx n : Nat) (pc : SubmitPc) (offers : pc.offers queues idx n) :
    pc.qmutex = some idx := by
  cases pc with
  | sample at_ => rw [← offers.1]; rfl
  | exchange at_ hwm prev => rw [← offers.1]; rfl
  | _ => exact offers.elim

-- A queue nobody stands inside of may change without any offer being lost.
theorem offers_set (queues : List (List (TaskItem T W))) (at_ idx n : Nat) (queue : List (TaskItem T W)) (pc : SubmitPc)
    (apart : pc.qmutex ≠ some at_) (offers : pc.offers queues idx n) : pc.offers (queues.set at_ queue) idx n := by
  have here := offers_inside queues idx n pc offers
  have differs : at_ ≠ idx := by
    rintro rfl
    exact apart here
  cases pc with
  | sample other =>
      obtain ⟨same, old, inside, bound⟩ := offers
      exact ⟨same, old, by rw [List.getElem?_set_ne differs]; exact inside, bound⟩
  | exchange other hwm prev => exact offers
  | _ => exact offers

theorem qmutex_free_apart (s : State T W) (idx : Nat) (free : s.qmutexFree idx = true) (call : Call T W)
    (member : call ∈ s.calls) : call.pc.qmutex ≠ some idx :=
  bne_iff_ne.mp (List.all_eq_true.mp free call member)

theorem marked_grow (s after : State T W) (history : List (List Nat)) (marked : Marked s history)
    (covers : ∀ idx n, s.Covered idx n → after.Covered idx n)
    (fresh : ∀ idx n, after.lengths[idx]? = some n → after.Covered idx n) (offered : after.Offered history)
    (reached : after.highWaterMark = s.highWaterMark ∨ ∃ idx, Had history idx after.highWaterMark.toNat) :
    Marked after (history ++ [after.lengths]) where
  current := List.mem_append_right _ List.mem_cons_self
  offered := by
    intro call member idx hwm prev here
    obtain ⟨behind, had⟩ := offered call member idx hwm prev here
    exact ⟨behind, had_grows history _ idx _ had⟩
  covered := by
    rintro idx n ⟨lengths, member, read⟩
    rcases List.mem_append.mp member with old | new
    · exact covers idx n (marked.covered idx n ⟨lengths, old, read⟩)
    · rw [List.mem_singleton.mp new] at read
      exact fresh idx n read
  reached := by
    rcases reached with same | ⟨idx, had⟩
    · rw [same]
      rcases marked.reached with zero | ⟨idx, had⟩
      · exact .inl zero
      · exact .inr ⟨idx, had_grows history _ idx _ had⟩
    · exact .inr ⟨idx, had_grows history _ idx _ had⟩

theorem lengths_had (s : State T W) (history : List (List Nat)) (marked : Marked s history) (idx n : Nat)
    (read : s.lengths[idx]? = some n) : Had history idx n :=
  ⟨s.lengths, marked.current, read⟩

-- Steps that touch neither a queue nor the mark nor a critical section.
theorem quiet_marked (s after : State T W) (history : List (List Nat)) (marked : Marked s history)
    (keeps : ∀ call ∈ s.calls, call.pc.qmutex ≠ none → call ∈ after.calls)
    (brings : ∀ call ∈ after.calls, call.pc.qmutex ≠ none → call ∈ s.calls) (queues : after.queues = s.queues := by rfl)
    (mark : after.highWaterMark = s.highWaterMark := by rfl) : Marked after (history ++ [after.lengths]) := by
  have covers : ∀ idx n, s.Covered idx n → after.Covered idx n := by
    rintro idx n (below | ⟨call, member, offers⟩)
    · exact .inl (mark ▸ below)
    · have inside := offers_inside s.queues idx n call.pc offers
      exact .inr ⟨call, keeps call member (inside ▸ Option.some_ne_none idx), queues ▸ offers⟩
  refine marked_grow s after history marked covers ?_ ?_ (.inl mark)
  · intro idx n read
    rw [State.lengths, queues] at read
    exact covers idx n (marked.covered idx n (lengths_had s history marked idx n read))
  · intro call member idx hwm prev here
    rw [mark]
    exact marked.offered call (brings call member (by rw [here]; exact Option.some_ne_none idx)) idx hwm prev here

theorem quiet_set_marked (s after : State T W) (history : List (List Nat)) (marked : Marked s history) (i : Nat)
    (call : Call T W) (next : SubmitPc) (found : s.calls[i]? = some call) (before : call.pc.qmutex = none)
    (behind : next.qmutex = none) (calls : after.calls = s.calls.set i { call with pc := next } := by rfl)
    (queues : after.queues = s.queues := by rfl) (mark : after.highWaterMark = s.highWaterMark := by rfl) :
    Marked after (history ++ [after.lengths]) := by
  refine quiet_marked s after history marked ?_ ?_ queues mark
  · intro other member inside
    obtain ⟨j, present⟩ := List.mem_iff_getElem?.mp member
    have differs : i ≠ j := by
      rintro rfl
      have same : call = other := Option.some.inj (found.symm.trans present)
      exact inside (same ▸ before)
    exact List.mem_of_getElem? (by rw [calls, List.getElem?_set_ne differs]; exact present)
  · intro other member inside
    rw [calls] at member
    rcases List.mem_or_eq_of_mem_set member with old | rfl
    · exact old
    · exact absurd behind inside

-- A call inside a critical section moves on; the others keep their offers.
theorem covered_set (s after : State T W) (i : Nat) (call : Call T W) (next : SubmitPc) (found : s.calls[i]? = some call)
    (calls : after.calls = s.calls.set i { call with pc := next }) (mark : s.highWaterMark ≤ after.highWaterMark)
    (idx n : Nat) (own : call.pc.offers s.queues idx n → after.Covered idx n)
    (others : ∀ other ∈ s.calls, other.pc.offers s.queues idx n → other.pc.offers after.queues idx n)
    (covered : s.Covered idx n) : after.Covered idx n := by
  rcases covered with below | ⟨other, member, offers⟩
  · exact .inl (Nat.le_trans below mark)
  · obtain ⟨j, present⟩ := List.mem_iff_getElem?.mp member
    by_cases hit : i = j
    · subst j
      have same : call = other := Option.some.inj (found.symm.trans present)
      exact own (same ▸ offers)
    · refine .inr ⟨other, List.mem_of_getElem? (i := j) ?_, others other member offers⟩
      rw [calls, List.getElem?_set_ne hit]
      exact present

theorem offered_set (s after : State T W) (history : List (List Nat)) (marked : Marked s history) (i : Nat) (call : Call T W)
    (next : SubmitPc) (calls : after.calls = s.calls.set i { call with pc := next })
    (mark : s.highWaterMark ≤ after.highWaterMark)
    (own : ∀ idx hwm prev, next = .exchange idx hwm prev → prev ≤ after.highWaterMark ∧ Had history idx hwm.toNat) :
    after.Offered history := by
  intro other member idx hwm prev here
  rw [calls] at member
  rcases List.mem_or_eq_of_mem_set member with old | rfl
  · obtain ⟨behind, had⟩ := marked.offered other old idx hwm prev here
    exact ⟨UInt64.le_trans behind mark, had⟩
  · exact own idx hwm prev here

theorem push_marked (s after : State T W) (history : List (List Nat)) (marked : Marked s history) (i idx : Nat)
    (call : Call T W) (queue : List (TaskItem T W)) (item : TaskItem T W) (found : s.calls[i]? = some call)
    (here : call.pc = .push idx) (inside : s.queues[idx]? = some queue) (free : s.qmutexFree idx = true)
    (calls : after.calls = s.calls.set i { call with pc := .sample idx })
    (queues : after.queues = s.queues.set idx (queue ++ [item])) (mark : after.highWaterMark = s.highWaterMark) :
    Marked after (history ++ [after.lengths]) := by
  have bound := (List.getElem?_eq_some_iff.mp inside).1
  have same : s.highWaterMark ≤ after.highWaterMark := mark ▸ UInt64.le_refl _
  have covers : ∀ at_ n, s.Covered at_ n → after.Covered at_ n := by
    intro at_ n
    refine covered_set s after i call (.sample idx) found calls same at_ n ?_ ?_
    · intro offers
      rw [here] at offers
      exact offers.elim
    · intro other member offers
      rw [queues]
      exact offers_set s.queues idx at_ n _ other.pc (qmutex_free_apart s idx free other member) offers
  refine marked_grow s after history marked covers ?_ ?_ (.inl mark)
  · intro at_ n read
    rw [State.lengths, queues, List.map_set] at read
    by_cases hit : idx = at_
    · subst at_
      rw [List.getElem?_set_self (by simpa using bound)] at read
      have offers : (SubmitPc.sample idx).offers after.queues idx n :=
        ⟨rfl, _, by rw [queues, List.getElem?_set_self bound], Nat.le_of_eq (Option.some.inj read).symm⟩
      refine .inr ⟨{ call with pc := .sample idx }, List.mem_of_getElem? (i := i) ?_, offers⟩
      rw [calls, List.getElem?_set_self (List.getElem?_eq_some_iff.mp found).1]
    · rw [List.getElem?_set_ne hit] at read
      exact covers at_ n (marked.covered at_ n (lengths_had s history marked at_ n read))
  · refine offered_set s after history marked i call (.sample idx) calls same ?_
    intro at_ hwm prev exchanging
    cases exchanging

-- A worker pops under the lock, so no call stands inside that queue.
theorem pop_marked (s after : State T W) (history : List (List Nat)) (marked : Marked s history) (idx : Nat)
    (queue rest : List (TaskItem T W)) (inside : s.queues[idx]? = some queue) (free : s.qmutexFree idx = true)
    (shorter : rest.length ≤ queue.length) (calls : after.calls = s.calls)
    (queues : after.queues = s.queues.set idx rest) (mark : after.highWaterMark = s.highWaterMark) :
    Marked after (history ++ [after.lengths]) := by
  have bound := (List.getElem?_eq_some_iff.mp inside).1
  have covers : ∀ at_ n, s.Covered at_ n → after.Covered at_ n := by
    rintro at_ n (below | ⟨call, member, offers⟩)
    · exact .inl (mark ▸ below)
    · refine .inr ⟨call, calls ▸ member, ?_⟩
      rw [queues]
      exact offers_set s.queues idx at_ n rest call.pc (qmutex_free_apart s idx free call member) offers
  refine marked_grow s after history marked covers ?_ ?_ (.inl mark)
  · intro at_ n read
    rw [State.lengths, queues, List.map_set] at read
    by_cases hit : idx = at_
    · subst at_
      rw [List.getElem?_set_self (by simpa using bound)] at read
      have had : Had history idx queue.length :=
        lengths_had s history marked idx _ (by rw [State.lengths, List.getElem?_map, inside]; rfl)
      rw [← Option.some.inj read]
      exact covered_le after idx _ _ shorter (covers idx _ (marked.covered idx _ had))
    · rw [List.getElem?_set_ne hit] at read
      exact covers at_ n (marked.covered at_ n (lengths_had s history marked at_ n read))
  · intro call member at_ hwm prev exchanging
    rw [mark]
    exact marked.offered call (calls ▸ member) at_ hwm prev exchanging

-- The calls that read or exchange the mark leave the queues alone.
theorem exchange_marked (s after : State T W) (history : List (List Nat)) (marked : Marked s history) (i : Nat)
    (call : Call T W) (next : SubmitPc) (found : s.calls[i]? = some call)
    (calls : after.calls = s.calls.set i { call with pc := next }) (queues : after.queues = s.queues)
    (mark : s.highWaterMark ≤ after.highWaterMark)
    (own : ∀ idx n, call.pc.offers s.queues idx n → n ≤ after.highWaterMark.toNat ∨ next.offers after.queues idx n)
    (offered : ∀ idx hwm prev, next = .exchange idx hwm prev → prev ≤ after.highWaterMark ∧ Had history idx hwm.toNat)
    (reached : after.highWaterMark = s.highWaterMark ∨ ∃ idx, Had history idx after.highWaterMark.toNat) :
    Marked after (history ++ [after.lengths]) := by
  have present : { call with pc := next } ∈ after.calls := by
    refine List.mem_of_getElem? (i := i) ?_
    rw [calls, List.getElem?_set_self (List.getElem?_eq_some_iff.mp found).1]
  have covers : ∀ idx n, s.Covered idx n → after.Covered idx n := by
    intro idx n
    refine covered_set s after i call next found calls mark idx n ?_ fun _ _ offers => queues ▸ offers
    intro offers
    rcases own idx n offers with below | still
    · exact .inl below
    · exact .inr ⟨_, present, still⟩
  refine marked_grow s after history marked covers ?_ (offered_set s after history marked i call next calls mark offered) reached
  intro idx n read
  rw [State.lengths, queues] at read
  exact covers idx n (marked.covered idx n (lengths_had s history marked idx n read))

theorem queue_fits (s : State T W) (ledger : Ledger s) (idx : Nat) (queue : List (TaskItem T W))
    (inside : s.queues[idx]? = some queue) : (UInt64.ofNat queue.length).toNat = queue.length := by
  have below := weight_le_total List.length s.queues queue (List.mem_of_getElem? inside)
  have fits := ledger.fits
  rw [State.outstanding, State.queued] at fits
  have limit : itemLimit < 2 ^ 64 := by decide
  have small : queue.length < UInt64.size := by
    rw [show UInt64.size = 2 ^ 64 from rfl]
    omega
  exact UInt64.toNat_ofNat_of_lt' small

theorem call_move_marked (s after : State T W) (history : List (List Nat)) (i : Nat) (call : Call T W)
    (found : s.calls[i]? = some call) (moves : CallMove s i call after) (ledger : Ledger s) (marked : Marked s history) :
    Marked after (history ++ [after.lengths]) := by
  cases moves with
  | push idx queue here inside free room =>
      exact push_marked s _ history marked i idx call queue (call.item i) found here inside free rfl rfl rfl
  | sample idx queue here inside =>
      have fits := queue_fits s ledger idx queue inside
      have had : Had history idx queue.length :=
        lengths_had s history marked idx _ (by rw [State.lengths, List.getElem?_map, inside]; rfl)
      refine exchange_marked s _ history marked i call _ found rfl rfl (UInt64.le_refl _) ?_ ?_ (.inl rfl)
      · intro at_ n offers
        rw [here] at offers
        obtain ⟨rfl, other, present, bound⟩ := offers
        have same : other = queue := Option.some.inj (present.symm.trans inside)
        exact .inr ⟨rfl, by rw [fits, ← same]; exact bound⟩
      · intro at_ hwm prev exchanging
        cases exchanging
        exact ⟨UInt64.le_refl _, by rw [fits]; exact had⟩
  | exchange idx hwm prev here above current =>
      have ahead : s.highWaterMark ≤ hwm := UInt64.le_of_lt (current ▸ above)
      refine exchange_marked s _ history marked i call .count found rfl rfl ahead ?_ ?_
        (.inr ⟨idx, (marked.offered call (List.mem_of_getElem? found) idx hwm prev here).2⟩)
      · intro at_ n offers
        rw [here] at offers
        exact .inl offers.2
      · intro at_ hwm prev exchanging
        cases exchanging
  | retry idx hwm prev here above =>
      refine exchange_marked s _ history marked i call _ found rfl rfl (UInt64.le_refl _) ?_ ?_ (.inl rfl)
      · intro at_ n offers
        rw [here] at offers
        exact .inr offers
      · intro at_ hwm prev exchanging
        cases exchanging
        exact ⟨UInt64.le_refl _, (marked.offered call (List.mem_of_getElem? found) _ _ _ here).2⟩
  | settle idx hwm prev here below =>
      have behind := (marked.offered call (List.mem_of_getElem? found) idx hwm prev here).1
      have settled : hwm ≤ s.highWaterMark := UInt64.le_trans (UInt64.not_lt.mp below) behind
      refine exchange_marked s _ history marked i call .count found rfl rfl (UInt64.le_refl _) ?_ ?_ (.inl rfl)
      · intro at_ n offers
        rw [here] at offers
        exact .inl (Nat.le_trans offers.2 settled)
      · intro at_ hwm prev exchanging
        cases exchanging
  | divide | outside => exact quiet_marked s _ history marked (fun _ member _ => member) (fun _ member _ => member)
  | pass curr next here passes goes =>
      refine quiet_set_marked s _ history marked i call next found (by rw [here]; rfl) ?_
      rcases goes with rfl | rfl <;> rfl
  | fail here =>
      refine quiet_set_marked s _ history marked i call .failed found ?_ rfl
      rcases here with here | ⟨idx, here⟩ <;> rw [here] <;> rfl
  | load here | trip _ here _ | drop here | backoff here | first here _ | spread here _ | rotate here | assign _ here _
  | count here | signal here _ =>
      exact quiet_set_marked s _ history marked i call _ found (by rw [here]; rfl) rfl

theorem worker_move_marked (s after : State T W) (history : List (List Nat)) (w : Nat) (pc : WorkerPc T W)
    (moves : WorkerMove s w pc after) (marked : Marked s history) : Marked after (history ++ [after.lengths]) := by
  cases moves with
  | take item rest inside free =>
      exact pop_marked s _ history marked w _ rest inside free (Nat.le_succ _) rfl rfl rfl
  | steal vic queue item inside free last =>
      exact pop_marked s _ history marked vic queue queue.dropLast inside free (by simp) rfl rfl rfl
  | _ => exact quiet_marked s _ history marked (fun _ member _ => member) (fun _ member _ => member)

theorem move_marked (s after : State T W) (history : List (List Nat)) (action : Action T W) (moves : Move s action after)
    (ledger : Ledger s) (marked : Marked s history) : Marked after (history ++ [after.lengths]) := by
  cases moves with
  | submit owner payload wrappers sequential =>
      refine quiet_marked s _ history marked (fun _ member _ => List.mem_append_left _ member) ?_
      intro call member inside
      rcases List.mem_append.mp member with old | new
      · exact old
      · rw [List.mem_singleton.mp new] at inside
        exact absurd rfl inside
  | call _ i call after acts found moves => exact call_move_marked s after history i call found moves ledger marked
  | worker _ w pc after acts found moves => exact worker_move_marked s after history w pc moves marked
  | destroy pc after here moves =>
      cases moves <;> exact quiet_marked s _ history marked (fun _ member _ => member) (fun _ member _ => member)
  | _ => exact quiet_marked s _ history marked (fun _ member _ => member) (fun _ member _ => member)

theorem call_move_mark (s after : State T W) (i : Nat) (call : Call T W) (moves : CallMove s i call after) :
    s.highWaterMark ≤ after.highWaterMark := by
  cases moves with
  | exchange idx hwm prev here above current => exact UInt64.le_of_lt (current ▸ above)
  | _ => exact UInt64.le_refl _

theorem move_mark (s after : State T W) (action : Action T W) (moves : Move s action after) :
    s.highWaterMark ≤ after.highWaterMark := by
  cases moves with
  | call _ i call after acts found moves => exact call_move_mark s after i call moves
  | worker _ w pc after acts found moves => exact (worker_move_side s after w pc moves).mark ▸ UInt64.le_refl _
  | destroy pc after here moves => exact (destructor_move_side s after pc moves).mark ▸ UInt64.le_refl _
  | _ => exact UInt64.le_refl _

theorem construct_lengths (cfg : TaskProcessorConfig) (now : Int) (idx n : Nat)
    (read : (construct cfg now : State T W).lengths[idx]? = some n) : idx < cfg.numThreads ∧ n = 0 := by
  rw [State.lengths, construct, List.map_replicate, List.getElem?_replicate] at read
  split at read
  · rename_i inside
    exact ⟨inside, (Option.some.inj read).symm⟩
  · cases read

theorem construct_marked (cfg : TaskProcessorConfig) (now : Int) :
    Marked (construct cfg now : State T W) [(construct cfg now : State T W).lengths] where
  current := List.mem_cons_self
  offered := List.forall_mem_nil _
  covered := by
    rintro idx n ⟨lengths, member, read⟩
    rw [List.mem_singleton.mp member] at read
    rw [(construct_lengths cfg now idx n read).2]
    exact .inl (Nat.zero_le _)
  reached := .inl rfl

theorem reachable_marked (cfg : TaskProcessorConfig) (now : Int) (m : Gauged T W)
    (reachable : Machine.Reachable gaugedStep (fun _ _ => True) (gauge cfg now) m) : Marked m.state m.log := by
  refine (Machine.recorded_invariant step _ (fun _ _ => True) _ _ Marked (construct_marked cfg now) ?_ m reachable).2
  intro before action after log reached marked _ taken
  exact move_marked before after log action (step_move before after action taken).2
    (reachable_ledger _ cfg now before reached) marked

theorem free_below_mark (s : State T W) (history : List (List Nat)) (marked : Marked s history) (idx n : Nat)
    (free : s.qmutexFree idx = true) (had : Had history idx n) : n ≤ s.highWaterMark.toNat := by
  rcases marked.covered idx n had with below | ⟨call, member, offers⟩
  · exact below
  · exact absurd (offers_inside s.queues idx n call.pc offers) (qmutex_free_apart s idx free call member)

theorem over_outside (pc : SubmitPc) (ended : pc.over = true) : pc.qmutex = none := by
  cases pc <;> first | rfl | cases ended

theorem over_free (s : State T W) (idle : ∀ call ∈ s.calls, call.pc.over = true) (idx : Nat) : s.qmutexFree idx = true := by
  refine List.all_eq_true.mpr fun call member => bne_iff_ne.mpr ?_
  rw [over_outside call.pc (idle call member)]
  exact (Option.some_ne_none idx).symm

theorem had_first (cfg : TaskProcessorConfig) (now : Int) (threads : 1 ≤ cfg.numThreads) (m : Gauged T W)
    (reachable : Machine.Reachable gaugedStep (fun _ _ => True) (gauge cfg now) m) : Had m.log 0 0 := by
  refine (Machine.recorded_invariant step _ (fun _ _ => True) _ _ (fun _ log => Had log 0 0) ?_ ?_ m reachable).2
  · refine ⟨_, List.mem_cons_self, ?_⟩
    rw [State.lengths, construct, List.map_replicate, List.getElem?_replicate, if_pos (Nat.lt_of_succ_le threads)]
    rfl
  · intro before action after log _ had _ _
    exact had_grows log after.lengths 0 0 had

-- What the claim of exactness comes to: the mark is the largest of all lengths
-- that the queues have had.
structure Exact (m : Gauged T W) : Prop where
  increases : ∀ action after, gaugedStep m action = some after → m.state.highWaterMark ≤ after.state.highWaterMark
  attained : m.state.highWaterMark = 0 ∨ ∃ idx, Had m.log idx m.state.highWaterMark.toNat
  above : ∀ idx queue, m.state.queues[idx]? = some queue → m.state.qmutexFree idx = true →
    queue.length ≤ m.state.highWaterMark.toNat
  greatest : (∀ call ∈ m.state.calls, call.pc.over = true) →
    IsGreatest {n | ∃ idx, Had m.log idx n} m.state.highWaterMark.toNat

theorem high_water_mark_exact (cfg : TaskProcessorConfig) (now : Int) (threads : 1 ≤ cfg.numThreads) (m : Gauged T W)
    (reachable : Machine.Reachable gaugedStep (fun _ _ => True) (gauge cfg now) m) : Exact m := by
  have marked := reachable_marked cfg now m reachable
  refine ⟨?_, marked.reached, ?_, ?_⟩
  · intro action after taken
    obtain ⟨next, stepped, rfl⟩ := Option.map_eq_some_iff.mp taken
    exact move_mark m.state next action (step_move m.state next action stepped).2
  · intro idx queue inside free
    apply free_below_mark m.state m.log marked idx _ free
    exact lengths_had m.state m.log marked idx _ (by rw [State.lengths, List.getElem?_map, inside]; rfl)
  · intro idle
    constructor
    · rcases marked.reached with zero | attained
      · rw [zero]
        exact ⟨0, had_first cfg now threads m reachable⟩
      · exact attained
    · rintro n ⟨idx, had⟩
      exact free_below_mark m.state m.log marked idx n (over_free m.state idle idx) had

def oneQueue : TaskProcessorConfig := { numThreads := 1 }

-- The first exchange fails spuriously. One of the two tasks has been popped
-- again; the mark stays at two.
def refilled : List (Action Nat Nat) :=
  [[.submit 0 7 []], List.replicate 5 (.call 0), [.callFails 0], List.replicate 3 (.call 0), [.submit 1 8 []],
    List.replicate 8 (.call 1), List.replicate 5 (.worker 0)].flatten

theorem high_water_mark_exact_refilled :
    ∃ m : Gauged Nat Nat, Machine.Reachable gaugedStep (fun _ _ => True) (gauge oneQueue 0) m ∧
      m.state.lengths = [1] ∧ m.state.highWaterMark = 2 ∧
      IsGreatest {n | ∃ idx, Had m.log idx n} m.state.highWaterMark.toNat := by
  obtain ⟨m, reachable, shown⟩ := Machine.run_exhibits gaugedStep (fun _ _ => True) (gauge oneQueue 0) refilled
    (fun m => m.state.lengths == [1] && m.state.highWaterMark == 2 && m.state.calls.all fun call => call.pc.over) (by decide)
  simp only [Bool.and_eq_true, beq_iff_eq, List.all_eq_true] at shown
  obtain ⟨⟨lengths, mark⟩, idle⟩ := shown
  exact ⟨m, reachable, lengths, mark, (high_water_mark_exact oneQueue 0 (Nat.le_refl 1) m reachable).greatest idle⟩

end Vectro.Pool
