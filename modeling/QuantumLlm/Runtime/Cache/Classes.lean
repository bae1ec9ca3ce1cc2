import QuantumLlm.Runtime.Cache.Sound

/-!
# Expert cache: what an act reserves

Only the start of a load or of an upload reserves anything. While the watermarks are
below half the range of a counter the admission tests cannot wrap, and every load stays
within the limit it was tested against.
-/

namespace QuantumLlm.Runtime

namespace Core

variable {core core' : Core} {key : ExpertKey} {act : Act}

variable {entry : Entry} {move : Move} {resident : Bool}

theorem level_total {account : Account}
    (haccount : account = .ram ∨ account = .vram) : move.Level entry account := by
  cases move with
  | startLoad lease admitted =>
    cases admitted with
    | none => exact True.intro
    | some resident => exact Or.inr (Or.inr (haccount.imp_right Or.inl))
  | finishUpload allocation =>
    right
    rcases haccount with rfl | rfl <;> rfl
  | _ => exact True.intro

theorem fits_admitted {record : PayloadRecord}
    (h : move.Fits core record) (hsome : move.admitted = some resident) :
    core.counters.vramBytes + deviceBytes record ≤ core.config.vram.highWatermarkBytes ∧
      deviceBytes record ≤ core.config.vram.highWatermarkBytes := by
  cases move with
  | startLoad lease admitted =>
    cases hsome
    exact h.2.2 rfl
  | startUpload reserved =>
    cases hsome
    exact h
  | _ => cases hsome

theorem Moves.budgeted (h : Moves key move core core') (hsound : core.Sound)
    (hbudget : core.Budgeted) : core'.Budgeted := by
  have hram := @load_exchange core core' key .ram h.key_mem h.keys
    (by rw [h.config]) h.others
  have hvram := @load_exchange core core' key .vram h.key_mem h.keys
    (by rw [h.config]) h.others
  rw [h.entry] at hram hvram
  simp only [Entry.charge] at hram hvram
  refine ⟨⟨?_, ?_⟩, ?_, ?_, ?_⟩
  · rw [h.drift _ (level_total (Or.inl rfl)), hbudget.level.1]
  · rw [h.drift _ (level_total (Or.inr rfl)), hbudget.level.2]
  · rw [h.config]
    exact hbudget.small
  · rw [h.config]
    have hle := hbudget.ram
    rcases Entry.ramReserved_moved (hsound.ok key) h.enabled with
      hless | ⟨⟨lease, admitted, rfl⟩, hzero, hnew⟩
    · rw [UInt64.le_iff_toNat_le] at hless
      omega
    · obtain ⟨hfits, hneed, -⟩ := h.fits
      have hbound := fits_of_small hbudget.ramBytes hbudget.small.1 hle hneed hfits
      rw [hnew, hzero] at hram
      omega
  · rw [h.config]
    have hle := hbudget.vram
    cases hadmitted : move.admitted with
    | none =>
      have hless := (Entry.vram_moved h.enabled hadmitted).1
      rw [UInt64.le_iff_toNat_le] at hless
      omega
    | some resident =>
      obtain ⟨hfits, hneed⟩ := fits_admitted h.fits hadmitted
      have hbound := fits_of_small hbudget.vramBytes hbudget.small.2 hle hneed hfits
      rw [(Entry.vram_admitted hadmitted).1, UInt64.toNat_add] at hvram
      omega

theorem Budgeted.congr (h : core.Budgeted) (hconfig : core'.config = core.config)
    (hkeys : core'.entries.keys = core.entries.keys)
    (hreserved : ∀ key, (core'.entry key).ramReserved = (core.entry key).ramReserved ∧
      (core'.entry key).vramReserved = (core.entry key).vramReserved)
    (hdrift : ∀ account, core'.drift account = core.drift account) : core'.Budgeted := by
  have hram : core'.load .ram = core.load .ram :=
    Table.sum_congr hkeys fun key _ => congrArg UInt64.toNat (hreserved key).1
  have hvram : core'.load .vram = core.load .vram :=
    Table.sum_congr hkeys fun key _ => congrArg UInt64.toNat (hreserved key).2
  refine ⟨⟨?_, ?_⟩, hconfig ▸ h.small, ?_, ?_⟩
  · rw [hdrift, h.level.1]
  · rw [hdrift, h.level.2]
  · rw [hram, hconfig]
    exact h.ram
  · rw [hvram, hconfig]
    exact h.vram

theorem Acts.budgeted (h : Acts core core' act) (hsound : core.Sound)
    (hsmall : ∀ budget transientBytes, act = .configure budget transientBytes →
      budget.highWatermarkBytes.toNat < 2 ^ 63)
    (hbudget : core.Budgeted) : core'.Budgeted := by
  cases act with
  | note =>
    refine hbudget.congr h.config h.keys (fun key => ⟨?_, ?_⟩) (Noted.drift h)
    · exact Entry.field_of_body Entry.ramReserved (h.body key)
    · exact Entry.field_of_body Entry.vramReserved (h.body key)
  | move key move => exact Moves.budgeted h hsound hbudget
  | emplace key record =>
    have hdrift : ∀ account, core'.drift account = core.drift account :=
      fun account => h.drift nofun
    cases h
    refine ⟨⟨?_, ?_⟩, hbudget.small, ?_, ?_⟩
    · rw [hdrift, hbudget.level.1]
    · rw [hdrift, hbudget.level.2]
    · rw [load_emplace]
      exact hbudget.ram
    · rw [load_emplace]
      exact hbudget.vram
  | issue | answer | returned | dropped | stop =>
    cases h
    exact { hbudget with }
  | configure budget transientBytes =>
    obtain ⟨hbytes, -, -, rfl⟩ := h
    have hload := hbudget.vramBytes
    rw [hbytes, UInt64.toNat_zero] at hload
    refine ⟨hbudget.level, ⟨hbudget.small.1, hsmall _ _ rfl⟩, hbudget.ram, ?_⟩
    show core.load .vram ≤ _
    rw [← hload]
    exact Nat.zero_le _
  | pop key =>
    rw [h.2]
    exact { hbudget with }

theorem free_or_same {config : ExpertCacheConfig}
    (henabled : entry.Enabled config move) (hsome : move.admitted = some resident)
    (hlevel : move.Level entry (.vramClass true)) :
    entry.vramReserved = 0 ∨ entry.vramResident = resident := by
  cases move with
  | startLoad lease admitted =>
    cases hsome
    simpa [Move.Level, Account.referenced] using hlevel
  | startUpload reserved =>
    cases hsome
    exact Or.inl (henabled.2.2.1 rfl)
  | _ => cases hsome

section

variable {move : Move} (h : Moves key move core core')
  (hlevel : move.Level (core.entry key) (.vramClass true)) (hrooms : core.Rooms key move)
  (hclassed : core.Classed)
include h hlevel hrooms hclassed

theorem Moves.classes (resident : Bool) :
    core'.load (.vramClass resident) ≤ (core.config.vramClassLimit resident).toNat := by
  have hload := @load_exchange core core' key (.vramClass resident) h.key_mem h.keys
    (by rw [h.config]) h.others
  have hle := hclassed.classes resident
  rw [h.entry] at hload
  simp only [Entry.charge] at hload
  cases hadmitted : move.admitted with
  | none =>
    obtain ⟨hless, hclass⟩ := Entry.vram_moved h.enabled hadmitted
    rw [UInt64.le_iff_toNat_le] at hless
    rw [hclass] at hload
    split at hload <;> omega
  | some admitted =>
    obtain ⟨hreserved, hclass⟩ := @Entry.vram_admitted (core.entry key) core.config _ _ hadmitted
    have hroom := hrooms.2 admitted hadmitted
    have hfree := free_or_same h.enabled hadmitted hlevel
    rw [hclass, hreserved] at hload
    by_cases hsame : admitted = resident
    · subst hsame
      rw [if_pos rfl, UInt64.toNat_add] at hload
      rcases hfree with hzero | hsame
      · rw [hzero] at hload
        simp only [UInt64.toNat_zero, ite_self] at hload
        omega
      · rw [if_pos hsame] at hload
        omega
    · rw [if_neg hsame] at hload
      simp only [UInt64.toNat_zero, add_zero] at hload
      omega

theorem Moves.partitions (hsound : core.Sound)
    (hcount : core.config.placement.layerPartitionCount ≠ 1) (partition : Nat) :
    core'.load (.ramPartition partition) ≤ core.ramPartitionLimit.toNat := by
  have hload := @load_exchange core core' key (.ramPartition partition) h.key_mem h.keys
    (by rw [h.config]) h.others
  have hle := hclassed.partitions hcount partition
  rw [h.entry] at hload
  simp only [Entry.charge] at hload
  rcases Entry.ramReserved_moved (hsound.ok key) h.enabled with
    hless | ⟨⟨lease, admitted, rfl⟩, hzero, hnew⟩
  · rw [UInt64.le_iff_toNat_le] at hless
    split at hload <;> omega
  · have hroom := hrooms.1 lease admitted rfl hcount
    by_cases hhome : core.partitionFor key = partition
    · rw [if_pos hhome, if_pos hhome, hzero, hnew] at hload
      rw [hhome] at hroom
      omega
    · rw [if_neg hhome, if_neg hhome] at hload
      omega

end

theorem Moves.classed (h : Moves key move core core') (hsound : core.Sound)
    (hlevel : ∀ account, account.referenced = false → move.Level (core.entry key) account)
    (hrooms : core.Rooms key move) (hclassed : core.Classed) : core'.Classed := by
  have hlimit : core'.ramPartitionLimit = core.ramPartitionLimit := by
    simp only [ramPartitionLimit, partitionQuota, h.config]
  refine ⟨h.budgeted hsound hclassed.toBudgeted, ?_, ?_, ?_, ?_⟩
  · intro account haccount
    rw [h.drift account (hlevel account haccount), hclassed.levels account haccount]
  · rw [h.config]
    exact hclassed.placed
  · rw [h.config]
    exact h.classes (hlevel _ rfl) hrooms hclassed
  · rw [h.config, hlimit]
    exact h.partitions (hlevel _ rfl) hrooms hclassed hsound

theorem Acts.classed (h : Acts core core' act) (hsound : core.Sound)
    (hsmall : ∀ budget transientBytes, act = .configure budget transientBytes →
      budget.highWatermarkBytes.toNat < 2 ^ 63)
    (hmove : ∀ key move, act = .move key move → core.Rooms key move ∧
      ∀ account, account.referenced = false → move.Level (core.entry key) account)
    (hclassed : core.Classed) : core'.Classed := by
  have hbudget := h.budgeted hsound hsmall hclassed.toBudgeted
  cases act with
  | note => exact Noted.classed h hclassed
  | move key move =>
    obtain ⟨hrooms, hlevel⟩ := hmove key move rfl
    exact Moves.classed h hsound hlevel hrooms hclassed
  | emplace key record =>
    have hdrift : ∀ account, core'.drift account = core.drift account :=
      fun account => h.drift nofun
    cases h
    refine ⟨hbudget, ?_, hclassed.placed, ?_, ?_⟩
    · intro account haccount
      rw [hdrift, hclassed.levels account haccount]
    · intro resident
      rw [load_emplace]
      exact hclassed.classes resident
    · intro hcount partition
      rw [load_emplace]
      exact hclassed.partitions hcount partition
  | issue | answer | returned | dropped | stop =>
    cases h
    exact ⟨hbudget, hclassed.levels, hclassed.placed, hclassed.classes, hclassed.partitions⟩
  | configure budget transientBytes =>
    obtain ⟨hbytes, -, htransient, rfl⟩ := h
    have hload := hclassed.vramBytes
    rw [hbytes, UInt64.toNat_zero, load_vram] at hload
    refine ⟨hbudget, hclassed.levels, ⟨UInt64.le_of_lt htransient, hclassed.placed.2⟩,
      fun resident => ?_, hclassed.partitions⟩
    show core.load (.vramClass resident) ≤ _
    cases resident <;> omega
  | pop key =>
    rw [h.2] at hbudget ⊢
    exact ⟨hbudget, hclassed.levels, hclassed.placed, hclassed.classes, hclassed.partitions⟩

theorem rooms_of_frees (hnone : move.admitted = none)
    (hload : ∀ lease admitted, move ≠ .startLoad lease admitted) : core.Rooms key move ∧
      ∀ account, account.referenced = false → move.Level (core.entry key) account := by
  refine ⟨⟨fun lease admitted heq => absurd heq (hload lease admitted), fun resident hsome => ?_⟩,
    fun account haccount => ?_⟩
  · rw [hnone] at hsome
    cases hsome
  · cases move with
    | startLoad lease admitted => exact absurd rfl (hload lease admitted)
    | finishUpload => exact Or.inr haccount
    | _ => exact True.intro

/-- An act that neither reserves memory nor sets a budget. -/
def Act.Frees : Act → Prop
  | .move _ made => made.admitted = none ∧ ∀ lease admitted, made ≠ .startLoad lease admitted
  | .configure _ _ => False
  | _ => True

theorem Trace.classed {allowed : Core → Act → Prop} (h : Trace allowed core core')
    (hfrees : ∀ core act, allowed core act → act.Frees) (hsound : core.Sound)
    (hclassed : core.Classed) : core'.Classed := by
  have hboth := @Trace.lift _ _ _ (fun later => later.Sound ∧ later.Classed) h
    (fun {before _ _} hallowed hact hbefore => ⟨hact.sound hbefore.1, ?_⟩) ⟨hsound, hclassed⟩
  · exact hboth.2
  · have hacts := hfrees _ _ hallowed
    refine hact.classed hbefore.1 (fun budget transientBytes heq => ?_) (fun key move heq => ?_)
      hbefore.2
    · rw [heq] at hacts
      exact hacts.elim
    · rw [heq] at hacts
      exact rooms_of_frees hacts.1 hacts.2

end Core

end QuantumLlm.Runtime
