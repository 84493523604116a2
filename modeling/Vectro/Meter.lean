import Vectro.Tally

set_option autoImplicit false

namespace Meter

open Tally

-- The account of a counter that many threads count up and that is emptied at
-- any time: by a reader, who is given what it held, or by a reporter, who holds
-- the amount until it is written out.
structure Account where
  counted : Nat
  counter : Nat
  read : Nat
  held : Nat
  written : Nat
deriving DecidableEq, Repr

-- Nothing that was counted has been lost.
def Balanced (account : Account) : Prop :=
  account.counted = account.read + account.written + account.counter + account.held

def Account.count (account : Account) : Account :=
  { account with counted := account.counted + 1, counter := account.counter + 1 }

def Account.readOut (account : Account) : Account :=
  { account with counter := 0, read := account.read + account.counter }

def Account.take (account : Account) : Account :=
  { account with counter := 0, held := account.held + account.counter }

def Account.write (account : Account) (held amount : Nat) : Account :=
  { account with held := held, written := account.written + amount }

inductive Change (account : Account) : Account → Prop where
  | stays : Change account account
  | counts : Change account account.count
  | reads : Change account account.readOut
  | takes : Change account account.take
  | writes (held amount : Nat) (whole : account.held = held + amount) : Change account (account.write held amount)

theorem change_balanced (before after : Account) (change : Change before after) (balanced : Balanced before) :
    Balanced after := by
  unfold Balanced at balanced ⊢
  cases change with
  | stays => exact balanced
  | counts =>
      simp only [Account.count]
      omega
  | reads =>
      simp only [Account.readOut]
      omega
  | takes =>
      simp only [Account.take]
      omega
  | writes held amount whole =>
      simp only [Account.write]
      omega

-- The account of a machine word, off the log of what it counts and the logs of
-- the values read and written.
def tallied {Entry : Type} (log : List Entry) (counter : UInt64) (read : List UInt64) (held : Nat)
    (written : List UInt64) : Account where
  counted := log.length
  counter := counter.toNat
  read := total UInt64.toNat read
  held := held
  written := total UInt64.toNat written

section Tallied

variable {Entry : Type} (log : List Entry) (counter : UInt64) (read : List UInt64) (held : Nat) (written : List UInt64)

theorem total_concat (counts : List UInt64) (count : UInt64) :
    total UInt64.toNat (counts ++ [count]) = total UInt64.toNat counts + count.toNat := by
  rw [total_append, total_cons, total_nil, Nat.add_zero]

theorem tallied_counts (entry : Entry) (fits : counter.toNat + 1 < 2 ^ 64) :
    Change (tallied log counter read held written) (tallied (log ++ [entry]) (counter + 1) read held written) := by
  have counted : (counter + 1).toNat = counter.toNat + 1 := by
    rw [UInt64.toNat_add]
    exact Nat.mod_eq_of_lt fits
  have same : tallied (log ++ [entry]) (counter + 1) read held written = (tallied log counter read held written).count := by
    simp only [tallied, Account.count, counted, List.length_append, List.length_singleton]
  rw [same]
  exact .counts

theorem tallied_reads :
    Change (tallied log counter read held written) (tallied log 0 (read ++ [counter]) held written) := by
  have same : tallied log 0 (read ++ [counter]) held written = (tallied log counter read held written).readOut := by
    rw [tallied, total_concat, UInt64.toNat_zero, tallied, Account.readOut]
  rw [same]
  exact .reads

theorem tallied_takes : Change (tallied log counter read held written)
    (tallied log 0 read (held + counter.toNat) written) := by
  have same : tallied log 0 read (held + counter.toNat) written = (tallied log counter read held written).take := by
    rw [tallied, UInt64.toNat_zero, tallied, Account.take]
  rw [same]
  exact .takes

theorem tallied_writes (left : Nat) (count : UInt64) (whole : held = left + count.toNat) :
    Change (tallied log counter read held written) (tallied log counter read left (written ++ [count])) := by
  have same : tallied log counter read left (written ++ [count]) =
      (tallied log counter read held written).write left count.toNat := by
    rw [tallied, total_concat, tallied, Account.write]
  rw [same]
  exact .writes left count.toNat whole

end Tallied

end Meter
