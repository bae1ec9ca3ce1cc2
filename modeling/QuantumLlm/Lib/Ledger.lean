import Mathlib.Algebra.BigOperators.Group.List.Basic

/-!
# Ledgers

Accounts that are opened and changed one at a time. Each keeps the sum of what was
booked on it, and the ledger the sum of everything that was booked.
-/

namespace QuantumLlm

open List

structure Ledger (H M : Type*) where
  accounts : List (H × M) := []
  total : M

namespace Ledger

variable {H M : Type*} [AddCommMonoid M]

def opened (ledger : Ledger H M) (account : H × M) : Ledger H M where
  accounts := ledger.accounts ++ [account]
  total := ledger.total + account.2

/-- Books on one account; an account that is not there stays away. -/
def changed (ledger : Ledger H M) (index : Nat) (change : H → H × M) : Ledger H M :=
  match ledger.accounts[index]? with
  | none => ledger
  | some (holder, share) =>
    let (holder, booked) := change holder
    { accounts := ledger.accounts.set index (holder, share + booked)
      total := ledger.total + booked }

/-- What every account keeps, and that nothing is booked beside them. -/
structure Sound (fair : H → M → Prop) (ledger : Ledger H M) : Prop where
  accounts : ∀ account ∈ ledger.accounts, fair account.1 account.2
  total : ledger.total = (ledger.accounts.map Prod.snd).sum

variable {fair : H → M → Prop} {ledger : Ledger H M}

theorem sound_empty : Sound fair ({ total := 0 } : Ledger H M) where
  accounts := fun _ hmem => absurd hmem not_mem_nil
  total := rfl

theorem Sound.opened (h : ledger.Sound fair) {account : H × M} (hfair : fair account.1 account.2) :
    (ledger.opened account).Sound fair where
  accounts := by
    intro other hother
    rcases mem_append.1 hother with hold | hnew
    · exact h.accounts other hold
    · rw [mem_singleton.1 hnew]
      exact hfair
  total := by
    rw [Ledger.opened, h.total, map_append, sum_append]
    simp

theorem sum_set_add {accounts : List (H × M)} {index : Nat} {holder holder' : H}
    {share booked : M} (h : accounts[index]? = some (holder, share)) :
    ((accounts.set index (holder', share + booked)).map Prod.snd).sum =
      (accounts.map Prod.snd).sum + booked := by
  induction accounts generalizing index with
  | nil => cases h
  | cons account rest ih =>
    cases index with
    | zero =>
      obtain rfl : account = (holder, share) := Option.some.inj h
      simp only [set_cons_zero, map_cons, sum_cons]
      rw [add_right_comm]
    | succ index =>
      simp only [set_cons_succ, map_cons, sum_cons]
      rw [ih h, add_assoc]

theorem Sound.changed (h : ledger.Sound fair) {index : Nat} {change : H → H × M}
    (hchange : ∀ holder share, fair holder share →
      fair (change holder).1 (share + (change holder).2)) :
    (ledger.changed index change).Sound fair := by
  unfold Ledger.changed
  split
  next => exact h
  next holder share haccount =>
    have hfair := h.accounts (holder, share) (mem_of_getElem? haccount)
    constructor
    · intro account haccount'
      rcases mem_or_eq_of_mem_set haccount' with hold | rfl
      · exact h.accounts account hold
      · exact hchange holder share hfair
    · rw [sum_set_add haccount, h.total]

end Ledger

end QuantumLlm
