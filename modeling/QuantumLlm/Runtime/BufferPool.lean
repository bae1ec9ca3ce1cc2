import Mathlib.Data.UInt

/-!
# Fixed staging buffer pool

The slot table of the pinned staging pool. Background acquisitions leave the
demand reserve free. Slot memory and the pool's statistics are not modelled.
-/

namespace QuantumLlm.Runtime

inductive BufferPoolClass where
  | demand
  | background
  deriving DecidableEq, Repr

/-- A live `FixedBufferPool::Lease`. -/
structure PoolLease where
  slot : Nat
  allocationClass : BufferPoolClass
  deriving DecidableEq, Repr

structure FixedBufferPool where
  slots : List Bool
  slotBytes : UInt64
  alignment : UInt64
  reservedDemandSlots : Nat
  used : Nat
  backgroundUsed : Nat

namespace FixedBufferPool

/-- The pool's constructor, where its arguments are accepted. -/
def create (slotCount : Nat) (slotBytes alignment : UInt64) (reservedDemandSlots : Nat) :
    Option FixedBufferPool :=
  if slotCount = 0 ∨ slotBytes = 0 ∨ alignment = 0 ∨ alignment &&& (alignment - 1) ≠ 0 ∨
      reservedDemandSlots > slotCount then none
  else some ⟨List.replicate slotCount false, slotBytes, alignment, reservedDemandSlots, 0, 0⟩

def tryAcquire (pool : FixedBufferPool) (bytes : UInt64) (allocationClass : BufferPoolClass) :
    Option (PoolLease × FixedBufferPool) :=
  if bytes > pool.slotBytes then none
  else if allocationClass = .background ∧
      pool.backgroundUsed ≥ pool.slots.length - pool.reservedDemandSlots then none
  else match pool.slots.findIdx? (fun used => !used) with
    | none => none
    | some index =>
      some (⟨index, allocationClass⟩,
        { pool with
          slots := pool.slots.set index true
          used := pool.used + 1
          backgroundUsed :=
            if allocationClass = .background then pool.backgroundUsed + 1
            else pool.backgroundUsed })

/-- The lease destructor. -/
def release (pool : FixedBufferPool) (lease : PoolLease) : FixedBufferPool :=
  { pool with
    slots := pool.slots.set lease.slot false
    used := pool.used - 1
    backgroundUsed :=
      if lease.allocationClass = .background then pool.backgroundUsed - 1
      else pool.backgroundUsed }

/-- Resets the owner of a slot, if there is one. -/
def reset (pool : FixedBufferPool) : Option PoolLease → FixedBufferPool
  | none => pool
  | some lease => pool.release lease

section

variable {pool acquired : FixedBufferPool} {owner : Option PoolLease} {slot : Nat}

theorem reset_slots (pool : FixedBufferPool)
    (h : (pool.reset owner).slots.getD slot false = true) :
    pool.slots.getD slot false = true ∧ ∀ lease, owner = some lease → lease.slot ≠ slot := by
  cases owner with
  | none => exact ⟨h, by simp⟩
  | some lease =>
    simp only [reset, release, List.getD_eq_getElem?_getD, List.getElem?_set] at h ⊢
    split at h
    next heq => split at h <;> simp at h
    next hne => exact ⟨h, fun _ hlease => Option.some.inj hlease ▸ hne⟩

variable {bytes : UInt64} {allocationClass : BufferPoolClass} {lease : PoolLease}

theorem tryAcquire_eq (h : pool.tryAcquire bytes allocationClass = some (lease, acquired)) :
    lease.allocationClass = allocationClass ∧
      (allocationClass = .background →
        pool.backgroundUsed < pool.slots.length - pool.reservedDemandSlots) ∧
      pool.slots[lease.slot]? = some false ∧
      acquired = { pool with
        slots := pool.slots.set lease.slot true
        used := pool.used + 1
        backgroundUsed :=
          if allocationClass = .background then pool.backgroundUsed + 1
          else pool.backgroundUsed } := by
  unfold tryAcquire at h
  split at h
  · simp at h
  · split at h
    · simp at h
    · next hlimit =>
      split at h
      next => simp at h
      next index hindex =>
        obtain ⟨rfl, rfl⟩ := h
        obtain ⟨hlt, hfree, -⟩ := List.findIdx?_eq_some_iff_getElem.1 hindex
        refine ⟨rfl, fun hclass => ?_, ?_, rfl⟩
        · exact Nat.lt_of_not_le fun hfull => hlimit ⟨hclass, hfull⟩
        · rw [List.getElem?_eq_getElem hlt]
          simpa using hfree

theorem tryAcquire_demand (hbytes : bytes ≤ pool.slotBytes)
    (hfree : pool.slots.count true < pool.slots.length) :
    (pool.tryAcquire bytes .demand).isSome := by
  unfold tryAcquire
  rw [if_neg (UInt64.not_lt.2 hbytes), if_neg (by simp)]
  split
  next hnone =>
    rw [List.findIdx?_eq_none_iff] at hnone
    have hall : pool.slots.count true = pool.slots.length :=
      List.count_eq_length.2 fun used hused => by simpa using hnone used hused
    omega
  next => rfl

theorem tryAcquire_slots (h : pool.tryAcquire bytes allocationClass = some (lease, acquired))
    (hused : acquired.slots.getD slot false = true) :
    pool.slots.getD slot false = true ∨ lease.slot = slot := by
  obtain ⟨-, -, -, rfl⟩ := tryAcquire_eq h
  by_cases heq : lease.slot = slot
  · exact Or.inr heq
  · left
    simpa [List.getD_eq_getElem?_getD, List.getElem?_set, heq] using hused

/-- What no acquisition and no release changes. -/
def shape (pool : FixedBufferPool) : Nat × UInt64 × Nat :=
  (pool.slots.length, pool.slotBytes, pool.reservedDemandSlots)

theorem shape_tryAcquire (h : pool.tryAcquire bytes allocationClass = some (lease, acquired)) :
    acquired.shape = pool.shape := by
  obtain ⟨-, -, -, rfl⟩ := tryAcquire_eq h
  simp [shape]

theorem shape_reset : (pool.reset owner).shape = pool.shape := by
  cases owner with
  | none => rfl
  | some lease => simp [reset, release, shape]

end

end FixedBufferPool

end QuantumLlm.Runtime
