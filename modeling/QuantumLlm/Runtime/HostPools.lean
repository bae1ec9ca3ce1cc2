import QuantumLlm.Lib.Run
import QuantumLlm.Runtime.BufferPool

/-!
# Leases and arenas of the host pools

The live leases of a fixed pool over any sequence of acquisitions and destructions, and the
blocks that the bump allocator hands out. The allocator above which an arena lies is a parameter.
-/

namespace QuantumLlm.Runtime

open List

/-! ## Leases of a fixed pool -/

namespace FixedBufferPool

/-- A pool and its live leases. -/
structure Leased where
  pool : FixedBufferPool
  leases : List PoolLease

inductive PoolCall where
  | tryAcquire (bytes : UInt64) (allocationClass : BufferPoolClass)
  | destroy (lease : PoolLease)

/-- One call; what is destroyed is a live lease. -/
def serve (state : Leased) : PoolCall → Option Leased
  | .tryAcquire bytes allocationClass =>
    match state.pool.tryAcquire bytes allocationClass with
    | none => some state
    | some (lease, pool) => some ⟨pool, lease :: state.leases⟩
  | .destroy lease =>
    if lease ∈ state.leases then some ⟨state.pool.release lease, state.leases.erase lease⟩
    else none

def backgroundLeases (leases : List PoolLease) : Nat :=
  leases.countP (·.allocationClass = .background)

/-- The slot table and the counters say what the leases say. -/
structure Sound (start : FixedBufferPool) (state : Leased) : Prop where
  shape : state.pool.shape = start.shape
  unshared : (state.leases.map (·.slot)).Nodup
  marked : ∀ slot, state.pool.slots[slot]? = some true ↔ slot ∈ state.leases.map (·.slot)
  used : state.pool.used = state.leases.length
  backgroundUsed : state.pool.backgroundUsed = backgroundLeases state.leases
  reserve : state.pool.backgroundUsed ≤ state.pool.slots.length - state.pool.reservedDemandSlots

variable {state state' : Leased} {pool start : FixedBufferPool} {lease : PoolLease}
  {bytes : UInt64} {allocationClass : BufferPoolClass} {call : PoolCall}

theorem Sound.tryAcquire (h : Sound start state)
    (hacquire : state.pool.tryAcquire bytes allocationClass = some (lease, pool)) :
    Sound start ⟨pool, lease :: state.leases⟩ := by
  have hshape := (shape_tryAcquire hacquire).trans h.shape
  obtain ⟨rfl, hlimit, hfree, rfl⟩ := tryAcquire_eq hacquire
  have hnew : lease.slot ∉ state.leases.map (·.slot) := fun hmem => by
    simp [(h.marked lease.slot).2 hmem] at hfree
  refine ⟨hshape, nodup_cons.2 ⟨hnew, h.unshared⟩, fun slot => ?_, ?_, ?_, ?_⟩
  · have hlt := (List.getElem?_eq_some_iff.1 hfree).1
    by_cases heq : lease.slot = slot
    · subst heq
      simp [hlt]
    · rw [getElem?_set_ne heq, h.marked, map_cons, mem_cons]
      exact ⟨Or.inr, fun hmem => hmem.resolve_left (Ne.symm heq)⟩
  · simp [h.used]
  · simp only [backgroundLeases, countP_cons, h.backgroundUsed, decide_eq_true_eq]
    split <;> rfl
  · simp only [length_set]
    split
    next hclass => exact hlimit hclass
    next => exact h.reserve

theorem Sound.release (h : Sound start state) (hmem : lease ∈ state.leases) :
    Sound start ⟨state.pool.release lease, state.leases.erase lease⟩ := by
  have hperm := perm_cons_erase hmem
  have hslots := hperm.map (·.slot)
  obtain ⟨hgone, hrest⟩ := nodup_cons.1 (hslots.nodup_iff.1 h.unshared)
  refine ⟨(@shape_reset state.pool (some lease)).trans h.shape, hrest, fun slot => ?_, ?_, ?_, ?_⟩
  · simp only [FixedBufferPool.release]
    by_cases heq : lease.slot = slot
    · subst heq
      simp only [hgone, iff_false, getElem?_set_self']
      cases state.pool.slots[lease.slot]? <;> simp
    · rw [getElem?_set_ne heq, h.marked, hslots.mem_iff, map_cons, mem_cons]
      exact ⟨fun hmem => hmem.resolve_left (Ne.symm heq), Or.inr⟩
  · simp [FixedBufferPool.release, h.used, length_erase_of_mem hmem]
  · have hcount := hperm.countP_eq (·.allocationClass = .background)
    simp only [FixedBufferPool.release, h.backgroundUsed, backgroundLeases, hcount, countP_cons,
      decide_eq_true_eq]
    split <;> rfl
  · have hreserve := h.reserve
    simp only [FixedBufferPool.release, length_set]
    split <;> omega

theorem Sound.serve (h : Sound start state) (hserve : serve state call = some state') :
    Sound start state' := by
  cases call with
  | tryAcquire bytes allocationClass =>
    simp only [FixedBufferPool.serve] at hserve
    split at hserve
    next =>
      obtain rfl := Option.some.inj hserve
      exact h
    next hacquire =>
      obtain rfl := Option.some.inj hserve
      exact h.tryAcquire hacquire
  | destroy lease =>
    simp only [FixedBufferPool.serve] at hserve
    split at hserve
    next hmem =>
      obtain rfl := Option.some.inj hserve
      exact h.release hmem
    next => cases hserve

theorem sound_start {slotCount reservedDemandSlots : Nat} {slotBytes alignment : UInt64}
    (h : create slotCount slotBytes alignment reservedDemandSlots = some start) :
    Sound start ⟨start, []⟩ ∧ start.shape = (slotCount, slotBytes, reservedDemandSlots) := by
  unfold create at h
  split at h
  · cases h
  · obtain rfl := Option.some.inj h
    exact ⟨⟨rfl, nodup_nil, by simp [getElem?_replicate], rfl, rfl, Nat.zero_le _⟩,
      by simp [shape]⟩

theorem Sound.all_leased (h : Sound start state) (hbytes : bytes ≤ state.pool.slotBytes)
    (hnone : state.pool.tryAcquire bytes .demand = none) {slot : Nat}
    (hslot : slot < state.pool.slots.length) : ∃ lease ∈ state.leases, lease.slot = slot := by
  have hfull : ¬state.pool.slots.count true < state.pool.slots.length := fun hfree => by
    simpa [hnone] using tryAcquire_demand hbytes hfree
  have hcount := (count_le_length (a := true)).antisymm (Nat.not_lt.1 hfull)
  have hused := count_eq_length.1 hcount _ (getElem_mem hslot)
  exact mem_map.1 ((h.marked slot).1 (by rw [getElem?_eq_getElem hslot, hused]))

end FixedBufferPool

/-! ## Blocks of an arena -/

/-- The bump allocator; `base` is the address of its arena. -/
structure MonotonicHostAllocator where
  base : UInt64
  capacity : UInt64
  alignment : UInt64
  cursor : UInt64

/-- A block that an allocator handed out, and the alignment that was asked for. -/
structure HostBlock where
  address : UInt64
  bytes : UInt64
  alignment : UInt64

namespace MonotonicHostAllocator

/-- The constructor, where it returns; `upstream` is what allocates, if there is one. -/
def create (capacity alignment : UInt64) (upstream : Option (UInt64 → UInt64 → Option UInt64)) :
    Option MonotonicHostAllocator := do
  if capacity = 0 ∨ alignment = 0 ∨ alignment &&& (alignment - 1) ≠ 0 then none
  else
    let allocate ← upstream
    let base ← allocate capacity alignment
    some ⟨base, capacity, alignment, 0⟩

/-- The address, and the allocator that follows; a null pointer leaves it as it is. -/
def allocate (allocator : MonotonicHostAllocator) (bytes alignment : UInt64) :
    Option (UInt64 × MonotonicHostAllocator) :=
  if bytes = 0 ∨ alignment = 0 ∨ alignment &&& (alignment - 1) ≠ 0 ∨
      alignment > allocator.alignment then none
  else
    let aligned := (allocator.cursor + alignment - 1) / alignment * alignment
    if aligned > allocator.capacity ∨ bytes > allocator.capacity - aligned then none
    else some (allocator.base + aligned, { allocator with cursor := aligned + bytes })

/-- An allocator and its blocks so far, the newest first. -/
abbrev Served := MonotonicHostAllocator × List HostBlock

def serve (state : Served) (request : UInt64 × UInt64) : Option Served :=
  match state.1.allocate request.1 request.2 with
  | none => some state
  | some (address, allocator) => some (allocator, ⟨address, request.1, request.2⟩ :: state.2)

/-- What `posix_memalign` promises of a block. -/
def Places (upstream : UInt64 → UInt64 → Option UInt64) : Prop :=
  ∀ capacity alignment base, upstream capacity alignment = some base →
    alignment.toNat ∣ base.toNat ∧ base.toNat + capacity.toNat ≤ 2 ^ 64

structure Placed (arena : MonotonicHostAllocator) : Prop where
  power : arena.alignment.toNat.isPowerOfTwo
  aligned : arena.alignment.toNat ∣ arena.base.toNat
  fits : arena.base.toNat + arena.capacity.toNat ≤ 2 ^ 64

theorem isPowerOfTwo_of_check {alignment : UInt64} (hzero : alignment ≠ 0)
    (hcheck : alignment &&& (alignment - 1) = 0) : alignment.toNat.isPowerOfTwo := by
  have hpos : alignment.toNat ≠ 0 := fun h => hzero (UInt64.toNat_inj.1 h)
  have hand := congrArg UInt64.toNat hcheck
  have hone : (1 : UInt64) ≤ alignment := UInt64.le_iff_toNat_le.2 (Nat.pos_of_ne_zero hpos)
  rw [UInt64.toNat_and, UInt64.toNat_sub_of_le _ _ hone] at hand
  exact (Nat.and_sub_one_eq_zero_iff_isPowerOfTwo hpos).1 hand

theorem placed_of_create {capacity alignment : UInt64}
    {upstream : UInt64 → UInt64 → Option UInt64} {arena : MonotonicHostAllocator}
    (hupstream : Places upstream) (h : create capacity alignment (some upstream) = some arena) :
    arena.Placed ∧ arena.capacity = capacity ∧ arena.cursor = 0 := by
  unfold create at h
  split at h
  · cases h
  next hvalid =>
    simp only [Option.bind_eq_bind, Option.bind_some, Option.bind_eq_some_iff] at h
    obtain ⟨base, hbase, harena⟩ := h
    obtain rfl := Option.some.inj harena
    obtain ⟨haligned, hfits⟩ := hupstream _ _ _ hbase
    refine ⟨⟨isPowerOfTwo_of_check ?_ ?_, haligned, hfits⟩, rfl, rfl⟩ <;> tauto

/-- Rounding up loses nothing as long as the cursor and the alignment are below the last bit. -/
theorem align_cursor {cursor alignment aligned : UInt64} (hcursor : cursor.toNat < 2 ^ 63)
    (hpower : alignment.toNat.isPowerOfTwo)
    (haligned : aligned = (cursor + alignment - 1) / alignment * alignment) :
    cursor.toNat ≤ aligned.toNat ∧ alignment.toNat ∣ aligned.toNat := by
  have hpos : 0 < alignment.toNat := Nat.pos_of_isPowerOfTwo hpower
  have hle : alignment.toNat ≤ 2 ^ 63 := by
    obtain ⟨exponent, hexponent⟩ := hpower
    have hlt := alignment.toNat_lt
    rw [hexponent] at hlt ⊢
    exact Nat.pow_le_pow_right (by omega)
      (Nat.le_of_lt_succ ((Nat.pow_lt_pow_iff_right (by omega)).1 hlt))
  have hsum : (cursor + alignment - 1).toNat = cursor.toNat + alignment.toNat - 1 := by
    rw [UInt64.toNat_sub, UInt64.toNat_add, UInt64.toNat_one]
    omega
  have hround : aligned.toNat =
      (cursor.toNat + alignment.toNat - 1) / alignment.toNat * alignment.toNat := by
    rw [haligned, UInt64.toNat_mul, UInt64.toNat_div, hsum]
    have := Nat.div_mul_le_self (cursor.toNat + alignment.toNat - 1) alignment.toNat
    exact Nat.mod_eq_of_lt (by omega)
  have hnear := Nat.lt_div_mul_add (a := cursor.toNat + alignment.toNat - 1) hpos
  exact ⟨by omega, hround ▸ Nat.dvd_mul_left _ _⟩

variable {arena next : MonotonicHostAllocator} {bytes alignment address : UInt64}
  {state state' : Served} {request : UInt64 × UInt64}

theorem allocate_eq (h : arena.allocate bytes alignment = some (address, next))
    (hpower : arena.alignment.toNat.isPowerOfTwo) (hcursor : arena.cursor.toNat < 2 ^ 63) :
    0 < bytes.toNat ∧ alignment.toNat ∣ arena.alignment.toNat ∧ ∃ aligned : UInt64,
      arena.cursor.toNat ≤ aligned.toNat ∧ alignment.toNat ∣ aligned.toNat ∧
      aligned.toNat + bytes.toNat ≤ arena.capacity.toNat ∧ address = arena.base + aligned ∧
      next = { arena with cursor := aligned + bytes } := by
  unfold allocate at h
  split at h
  · cases h
  next hvalid =>
    simp only [not_or, UInt64.not_lt, Decidable.not_not, gt_iff_lt] at hvalid
    obtain ⟨hbytes, hzero, hcheck, hwithin⟩ := hvalid
    have hasked := isPowerOfTwo_of_check hzero hcheck
    obtain ⟨hcover, hmultiple⟩ := align_cursor hcursor hasked rfl
    simp only at h
    split at h
    · cases h
    next hfits =>
      simp only [not_or, UInt64.not_lt, gt_iff_lt] at hfits
      obtain ⟨rfl, rfl⟩ := Prod.mk.inj (Option.some.inj h)
      have hroom := UInt64.le_iff_toNat_le.1 hfits.2
      rw [UInt64.toNat_sub_of_le _ _ hfits.1] at hroom
      have hbelow := UInt64.le_iff_toNat_le.1 hfits.1
      refine ⟨Nat.pos_of_ne_zero fun h => hbytes (UInt64.toNat_inj.1 h), ?_, _, hcover,
        hmultiple, by omega, rfl, rfl⟩
      -- of two powers of two the smaller one divides the other
      obtain ⟨small, hsmall⟩ := hasked
      obtain ⟨large, hlarge⟩ := hpower
      have hle := UInt64.le_iff_toNat_le.1 hwithin
      rw [hsmall, hlarge] at hle ⊢
      exact Nat.pow_dvd_pow 2 ((Nat.pow_le_pow_iff_right (by omega)).1 hle)

/-- The blocks lie one behind the other up to the cursor. -/
structure Fits (arena : MonotonicHostAllocator) (state : Served) : Prop where
  fixed : state.1 = { arena with cursor := state.1.cursor }
  bounded : state.1.cursor.toNat ≤ arena.capacity.toNat
  inside : ∀ block ∈ state.2, arena.base.toNat ≤ block.address.toNat ∧
    block.address.toNat + block.bytes.toNat ≤ arena.base.toNat + state.1.cursor.toNat
  disjoint : state.2.Pairwise fun later earlier =>
    earlier.address.toNat + earlier.bytes.toNat ≤ later.address.toNat
  aligned : ∀ block ∈ state.2, block.alignment.toNat ∣ block.address.toNat

theorem Fits.start (hempty : arena.cursor = 0) : Fits arena (arena, []) :=
  ⟨rfl, by simp [hempty], by simp, Pairwise.nil, by simp⟩

theorem Fits.serve (h : Fits arena state) (hplaced : arena.Placed)
    (hcapacity : arena.capacity.toNat < 2 ^ 63) (hserve : serve state request = some state') :
    Fits arena state' := by
  obtain ⟨allocator, blocks⟩ := state
  obtain ⟨bytes, alignment⟩ := request
  simp only [MonotonicHostAllocator.serve] at hserve
  split at hserve
  next =>
    obtain rfl := Option.some.inj hserve
    exact h
  next address next hallocate =>
    obtain rfl := Option.some.inj hserve
    have hfixed : allocator = { arena with cursor := allocator.cursor } := h.fixed
    have hbounded : allocator.cursor.toNat ≤ arena.capacity.toNat := h.bounded
    rw [hfixed] at hallocate
    obtain ⟨hbytes, hdivides, aligned, hcover, hmultiple, hroom, rfl, rfl⟩ :=
      allocate_eq hallocate hplaced.power (hbounded.trans_lt hcapacity)
    simp only at hcover hdivides hroom
    have hfits := hplaced.fits
    have haddress : (arena.base + aligned).toNat = arena.base.toNat + aligned.toNat := by
      rw [UInt64.toNat_add]
      omega
    have hcursor : (aligned + bytes).toNat = aligned.toNat + bytes.toNat := by
      rw [UInt64.toNat_add]
      omega
    refine ⟨rfl, hcursor ▸ hroom, ?_, pairwise_cons.2 ⟨?_, h.disjoint⟩, ?_⟩
    · refine forall_mem_cons.2 ⟨by simp only [haddress, hcursor]; omega, fun block hblock => ?_⟩
      obtain ⟨hbase, hend⟩ := h.inside block hblock
      simp only [hcursor] at hend ⊢
      omega
    · intro block hblock
      have hend := (h.inside block hblock).2
      simp only [haddress] at hend ⊢
      omega
    · refine forall_mem_cons.2 ⟨?_, h.aligned⟩
      rw [haddress]
      exact Nat.dvd_add (hdivides.trans hplaced.aligned) hmultiple

end MonotonicHostAllocator

/-- Live leases never share a slot, the counters count them, the demand reserve stays free of
background leases, and a demand fails only at a full pool; the blocks of an arena lie in it, one
behind the other, at multiples of what was asked for. -/
theorem host_pools_disjoint {slotCount reservedDemandSlots : Nat}
    {slotBytes slotAlignment capacity alignment : UInt64} {pool : FixedBufferPool}
    {leased : FixedBufferPool.Leased} {upstream : UInt64 → UInt64 → Option UInt64}
    {arena : MonotonicHostAllocator} {served : MonotonicHostAllocator.Served}
    (hpool : FixedBufferPool.create slotCount slotBytes slotAlignment reservedDemandSlots =
      some pool)
    (hleased : Reaches FixedBufferPool.serve (fun _ _ => True) ⟨pool, []⟩ leased)
    (hupstream : MonotonicHostAllocator.Places upstream)
    (harena : MonotonicHostAllocator.create capacity alignment (some upstream) = some arena)
    (hcapacity : capacity.toNat < 2 ^ 63)
    (hserved : Reaches MonotonicHostAllocator.serve (fun _ _ => True) (arena, []) served) :
    ((leased.leases.map (·.slot)).Nodup ∧
      leased.pool.used = leased.leases.length ∧
      leased.pool.backgroundUsed = FixedBufferPool.backgroundLeases leased.leases ∧
      (∀ lease ∈ leased.leases, 0 < leased.pool.used ∧
        (lease.allocationClass = .background → 0 < leased.pool.backgroundUsed)) ∧
      leased.pool.backgroundUsed ≤ slotCount - reservedDemandSlots ∧
      ∀ bytes ≤ slotBytes, leased.pool.tryAcquire bytes .demand = none →
        ∀ slot < slotCount, ∃ lease ∈ leased.leases, lease.slot = slot) ∧
      (∀ block ∈ served.2, arena.base.toNat ≤ block.address.toNat ∧
        block.address.toNat + block.bytes.toNat ≤ arena.base.toNat + capacity.toNat) ∧
      served.2.Pairwise (fun later earlier =>
        earlier.address.toNat + earlier.bytes.toNat ≤ later.address.toNat) ∧
      ∀ block ∈ served.2, block.alignment.toNat ∣ block.address.toNat := by
  obtain ⟨hstart, hcreated⟩ := FixedBufferPool.sound_start hpool
  have hsound := hleased.invariant hstart fun _ h _ hserve => h.serve hserve
  have hshape := hsound.shape.trans hcreated
  simp only [FixedBufferPool.shape, Prod.mk.injEq] at hshape
  obtain ⟨hplaced, rfl, hempty⟩ := MonotonicHostAllocator.placed_of_create hupstream harena
  have hfits := hserved.invariant (MonotonicHostAllocator.Fits.start hempty)
    fun _ h _ hserve => h.serve hplaced hcapacity hserve
  refine ⟨⟨hsound.unshared, hsound.used, hsound.backgroundUsed, fun lease hlease => ⟨?_, ?_⟩, ?_,
    ?_⟩, ?_, hfits.disjoint, hfits.aligned⟩
  · exact hsound.used ▸ length_pos_of_mem hlease
  · intro hclass
    rw [hsound.backgroundUsed, FixedBufferPool.backgroundLeases, countP_pos_iff]
    exact ⟨lease, hlease, by simpa using hclass⟩
  · simpa [hshape] using hsound.reserve
  · intro bytes hbytes hnone slot hslot
    exact hsound.all_leased (hshape.2.1 ▸ hbytes) hnone (hshape.1 ▸ hslot)
  · intro block hblock
    have hbounded := hfits.bounded
    have hinside := hfits.inside block hblock
    omega

/-- A heap with one free block. -/
def oneBlock (capacity alignment : UInt64) : Option UInt64 :=
  if capacity = 128 ∧ alignment = 64 then some 4096 else none

def someCalls : List FixedBufferPool.PoolCall :=
  [.tryAcquire 64 .background, .tryAcquire 64 .background, .tryAcquire 8 .demand,
    .destroy ⟨0, .background⟩]

def someRequests : List (UInt64 × UInt64) := [(10, 8), (16, 64), (8, 3)]

theorem host_pools_disjoint_run : ∃ leased served,
    runActions FixedBufferPool.serve ⟨⟨[false, false], 64, 64, 1, 0, 0⟩, []⟩ someCalls =
      some leased ∧
    runActions MonotonicHostAllocator.serve (⟨4096, 128, 64, 0⟩, []) someRequests = some served ∧
    leased.pool.used = leased.leases.length ∧
    ∀ block ∈ served.2, block.alignment.toNat ∣ block.address.toNat := by
  have hplaces : MonotonicHostAllocator.Places oneBlock := by
    intro capacity alignment base hbase
    obtain ⟨⟨rfl, rfl⟩, heq⟩ := Option.ite_none_right_eq_some.1 hbase
    obtain rfl := Option.some.inj heq
    decide
  refine ⟨_, _, rfl, rfl, ?_⟩
  obtain ⟨⟨-, hused, -⟩, -, -, haligned⟩ := host_pools_disjoint
    (show FixedBufferPool.create 2 64 64 1 = some ⟨[false, false], 64, 64, 1, 0, 0⟩ from rfl)
    (Reaches.of_runActions (show runActions _ _ someCalls = _ from rfl)) hplaces
    (show MonotonicHostAllocator.create 128 64 (some oneBlock) = some ⟨4096, 128, 64, 0⟩ from rfl)
    (by decide) (Reaches.of_runActions (show runActions _ _ someRequests = _ from rfl))
  exact ⟨hused, haligned⟩

end QuantumLlm.Runtime
