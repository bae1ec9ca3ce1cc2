import QuantumLlm.Runtime.Cache.Requests

/-!
# Expert cache: staging slots

The entries and the pool agree on who holds which slot: a lease lies in one entry, and the
pool counts as many of each class as there are.
-/

namespace QuantumLlm.Runtime

namespace Entry

/-- The staging leases of an entry, one or none. -/
def staging (entry : Entry) : Nat := entry.host.isSome.toNat

def backgroundStaging (entry : Entry) : Nat :=
  (entry.host.any (·.allocationClass = .background)).toNat

def demandStaging (entry : Entry) : Nat :=
  (entry.host.any (·.allocationClass = .demand)).toNat

section

variable {entry : Entry} {lease : PoolLease}

theorem staging_of_none (h : entry.host = none) : entry.staging = 0 := by
  rw [staging, h]
  rfl

theorem staging_of_some (h : entry.host = some lease) : entry.staging = 1 := by
  rw [staging, h]
  rfl

theorem backgroundStaging_of_none (h : entry.host = none) : entry.backgroundStaging = 0 := by
  rw [backgroundStaging, h]
  rfl

theorem backgroundStaging_of_some (h : entry.host = some lease) :
    entry.backgroundStaging = if lease.allocationClass = .background then 1 else 0 := by
  rw [backgroundStaging, h, Option.any_some]
  split
  next hclass => rw [decide_eq_true hclass, Bool.toNat_true]
  next hclass => rw [decide_eq_false hclass, Bool.toNat_false]

end

theorem staging_eq (entry : Entry) :
    entry.staging = entry.backgroundStaging + entry.demandStaging := by
  unfold staging backgroundStaging demandStaging
  cases entry.host with
  | none => rfl
  | some lease =>
    obtain ⟨slot, allocationClass⟩ := lease
    cases allocationClass <;> rfl

end Entry

/-- What the pool and the entries agree on. -/
structure Pooled (entries : Table ExpertKey Entry) (buffers : FixedBufferPool) : Prop where
  held : ∀ key lease, (entries.get key).host = some lease →
    buffers.slots[lease.slot]? = some true
  apart : ∀ key other lease lease', (entries.get key).host = some lease →
    (entries.get other).host = some lease' → lease.slot = lease'.slot → key = other
  used : (entries.sum fun _ entry => entry.staging) = buffers.used
  background : (entries.sum fun _ entry => entry.backgroundStaging) = buffers.backgroundUsed
  counted : buffers.used = buffers.slots.count true
  limit : buffers.backgroundUsed ≤ buffers.slots.length - buffers.reservedDemandSlots
  reserved : buffers.reservedDemandSlots ≤ buffers.slots.length

namespace Pooled

variable {entries entries' : Table ExpertKey Entry} {buffers buffers' : FixedBufferPool}
  {key : ExpertKey}

theorem congr (h : Pooled entries buffers) (hkeys : entries'.keys = entries.keys)
    (hhost : ∀ key, (entries'.get key).host = (entries.get key).host) :
    Pooled entries' buffers where
  held key lease hlease := h.held key lease ((hhost key).symm.trans hlease)
  apart key other lease lease' hlease hlease' :=
    h.apart key other lease lease' ((hhost key).symm.trans hlease) ((hhost other).symm.trans hlease')
  used := by
    rw [← h.used]
    exact Table.sum_congr hkeys fun key _ => by simp only [Entry.staging, hhost]
  background := by
    rw [← h.background]
    exact Table.sum_congr hkeys fun key _ => by simp only [Entry.backgroundStaging, hhost]
  counted := h.counted
  limit := h.limit
  reserved := h.reserved

theorem emplace {entry : Entry} (h : Pooled entries buffers) (hkey : key ∉ entries.keys)
    (hnone : entry.host = none) : Pooled (entries.tryEmplace key entry) buffers := by
  have hhost : ∀ other, ((entries.tryEmplace key entry).get other).host =
      (entries.get other).host := by
    intro other
    by_cases heq : other = key
    · rw [heq, Table.get_tryEmplace_self hkey, hnone, entries.get_of_not_mem key hkey]
      rfl
    · rw [Table.get_tryEmplace_ne heq]
  refine ⟨fun other lease hlease => h.held other lease ((hhost other).symm.trans hlease),
    fun first second lease lease' hfirst hsecond => h.apart first second lease lease'
      ((hhost first).symm.trans hfirst) ((hhost second).symm.trans hsecond), ?_, ?_, h.counted,
    h.limit, h.reserved⟩
  · rw [← h.used, Table.sum_tryEmplace hkey, Entry.staging_of_none hnone, add_zero]
  · rw [← h.background, Table.sum_tryEmplace hkey, Entry.backgroundStaging_of_none hnone, add_zero]

section

variable (hkey : key ∈ entries.keys) (hkeys : entries'.keys = entries.keys)
  (hothers : ∀ other, other ≠ key → entries'.get other = entries.get other)
include hkey hkeys hothers

theorem exchange :
    (entries'.sum fun _ entry => entry.staging) + (entries.get key).staging =
        (entries.sum fun _ entry => entry.staging) + (entries'.get key).staging ∧
      (entries'.sum fun _ entry => entry.backgroundStaging) +
          (entries.get key).backgroundStaging =
        (entries.sum fun _ entry => entry.backgroundStaging) +
          (entries'.get key).backgroundStaging :=
  ⟨Table.sum_exchange hkey hkeys hothers, Table.sum_exchange hkey hkeys hothers⟩

theorem reset (h : Pooled entries buffers) (hnone : (entries'.get key).host = none) :
    Pooled entries' (buffers.reset (entries.get key).host) := by
  cases hhost : (entries.get key).host with
  | none =>
    refine h.congr hkeys fun other => ?_
    by_cases heq : other = key
    · rw [heq, hnone, hhost]
    · rw [hothers other heq]
  | some lease =>
    obtain ⟨hlt, hfull⟩ := List.getElem?_eq_some_iff.1 (h.held key lease hhost)
    have hremaining : ∀ other lease', (entries'.get other).host = some lease' →
        (entries.get other).host = some lease' ∧ lease.slot ≠ lease'.slot := by
      intro other lease' hother
      by_cases heq : other = key
      · rw [heq, hnone] at hother
        cases hother
      · rw [hothers other heq] at hother
        exact ⟨hother, fun hsame => heq (h.apart key other lease lease' hhost hother hsame).symm⟩
    obtain ⟨hused, hbackground⟩ := exchange hkey hkeys hothers
    rw [h.used, Entry.staging_of_some hhost, Entry.staging_of_none hnone] at hused
    rw [h.background, Entry.backgroundStaging_of_some hhost,
      Entry.backgroundStaging_of_none hnone] at hbackground
    have hcounted := h.counted
    have hlimit := h.limit
    refine ⟨fun other lease' hother => ?_, fun first second lease' lease'' hfirst hsecond => ?_,
      ?_, ?_, ?_, ?_, ?_⟩
    · obtain ⟨hbefore, hne⟩ := hremaining other lease' hother
      show (buffers.slots.set lease.slot false)[lease'.slot]? = some true
      rw [List.getElem?_set_ne hne, h.held other lease' hbefore]
    · exact h.apart first second lease' lease'' (hremaining first lease' hfirst).1
        (hremaining second lease'' hsecond).1
    · show _ = buffers.used - 1
      omega
    · show _ = if lease.allocationClass = .background then _ else _
      split at hbackground
      next hclass => rw [if_pos hclass]; omega
      next hclass => rw [if_neg hclass]; omega
    · show buffers.used - 1 = (buffers.slots.set lease.slot false).count true
      rw [List.count_set hlt, hfull]
      simp
      omega
    · show (if lease.allocationClass = .background then _ else _) ≤
        (buffers.slots.set lease.slot false).length - buffers.reservedDemandSlots
      rw [List.length_set]
      split <;> omega
    · show buffers.reservedDemandSlots ≤ (buffers.slots.set lease.slot false).length
      rw [List.length_set]
      exact h.reserved

theorem acquire {bytes : UInt64} {allocationClass : BufferPoolClass} {lease : PoolLease}
    (h : Pooled entries buffers) (hnone : (entries.get key).host = none)
    (hacquired : buffers.tryAcquire bytes allocationClass = some (lease, buffers'))
    (hsome : (entries'.get key).host = some lease) : Pooled entries' buffers' := by
  obtain ⟨hclass, hbelow, hfree, rfl⟩ := FixedBufferPool.tryAcquire_eq hacquired
  obtain ⟨hlt, hempty⟩ := List.getElem?_eq_some_iff.1 hfree
  have hcases : ∀ other lease', (entries'.get other).host = some lease' →
      other = key ∧ lease' = lease ∨
        (entries.get other).host = some lease' ∧ lease.slot ≠ lease'.slot := by
    intro other lease' hother
    by_cases heq : other = key
    · rw [heq, hsome] at hother
      exact Or.inl ⟨heq, (Option.some.inj hother).symm⟩
    · rw [hothers other heq] at hother
      refine Or.inr ⟨hother, fun hsame => ?_⟩
      have htaken := h.held other lease' hother
      rw [← hsame, hfree] at htaken
      cases htaken
  obtain ⟨hused, hbackground⟩ := exchange hkey hkeys hothers
  rw [h.used, Entry.staging_of_none hnone, Entry.staging_of_some hsome] at hused
  rw [h.background, Entry.backgroundStaging_of_none hnone, Entry.backgroundStaging_of_some hsome,
    hclass] at hbackground
  have hcounted := h.counted
  have hlimit := h.limit
  refine ⟨fun other lease' hother => ?_, fun first second lease' lease'' hfirst hsecond hsame => ?_,
    ?_, ?_, ?_, ?_, ?_⟩
  · show (buffers.slots.set lease.slot true)[lease'.slot]? = some true
    rcases hcases other lease' hother with ⟨-, rfl⟩ | ⟨hbefore, hne⟩
    · exact List.getElem?_set_self hlt
    · rw [List.getElem?_set_ne hne, h.held other lease' hbefore]
  · rcases hcases first lease' hfirst with ⟨rfl, rfl⟩ | ⟨hfirst, hne⟩
    · rcases hcases second lease'' hsecond with ⟨rfl, -⟩ | ⟨-, hne⟩
      · rfl
      · exact absurd hsame hne
    · rcases hcases second lease'' hsecond with ⟨-, rfl⟩ | ⟨hsecond, -⟩
      · exact absurd hsame.symm hne
      · exact h.apart first second lease' lease'' hfirst hsecond hsame
  · show _ = buffers.used + 1
    omega
  · show _ = if allocationClass = .background then _ else _
    split at hbackground
    next hbehind => rw [if_pos hbehind]; omega
    next hahead => rw [if_neg hahead]; omega
  · show buffers.used + 1 = (buffers.slots.set lease.slot true).count true
    rw [List.count_set hlt, hempty]
    simp
    omega
  · show (if allocationClass = .background then _ else _) ≤
      (buffers.slots.set lease.slot true).length - buffers.reservedDemandSlots
    rw [List.length_set]
    split
    next hbehind =>
      have := hbelow hbehind
      omega
    next => exact hlimit
  · show buffers.reservedDemandSlots ≤ (buffers.slots.set lease.slot true).length
    rw [List.length_set]
    exact h.reserved

end

theorem background_le (h : Pooled entries buffers) :
    (entries.sum fun _ entry => entry.backgroundStaging) ≤
      buffers.slots.length - buffers.reservedDemandSlots := by
  rw [h.background]
  exact h.limit

theorem demand_free {bytes : UInt64} (h : Pooled entries buffers)
    (hbytes : bytes ≤ buffers.slotBytes)
    (hdemand : (entries.sum fun _ entry => entry.demandStaging) < buffers.reservedDemandSlots) :
    (buffers.tryAcquire bytes .demand).isSome := by
  refine FixedBufferPool.tryAcquire_demand hbytes ?_
  have hused := h.used
  have hsplit : (entries.sum fun _ entry => entry.staging) =
      (entries.sum fun _ entry => entry.backgroundStaging) +
        entries.sum fun _ entry => entry.demandStaging := by
    simp only [Table.sum, Entry.staging_eq, List.sum_map_add]
  have hbackground := h.background_le
  have hcounted := h.counted
  have hreserved := h.reserved
  omega

end Pooled

end QuantumLlm.Runtime
