import QuantumLlm.Runtime.Cache.Moves

/-!
# Expert cache: what every act keeps

The invariant of the core that no interleaving breaks: every entry is well
formed, the task indexes are exact, every used staging slot has an owner, and the
directory shows every device copy.
-/

namespace QuantumLlm.Runtime

namespace Core

variable {core core' : Core} {act : Act} {key : ExpertKey}

theorem emplace_cases (core : Core) (created : ExpertKey) (record : PayloadRecord)
    (key : ExpertKey) :
    (core.emplace created record).entry key = core.entry key ∨
      key = created ∧ key ∉ core.entries.keys ∧ core.entry key = {} ∧
        (core.emplace created record).entry key = { record } := by
  by_cases heq : key = created
  · subst heq
    by_cases hkey : key ∈ core.entries.keys
    · left
      rw [entry, entry, emplace, Table.tryEmplace_of_mem hkey]
    · exact Or.inr ⟨rfl, hkey, core.entries.get_of_not_mem key hkey, Table.get_tryEmplace_self hkey⟩
  · exact Or.inl (Table.get_tryEmplace_ne heq)

section

variable (h : Acts core core' act)

include h

theorem Acts.entry_cases (key : ExpertKey) :
    (core'.entry key).body = (core.entry key).body ∨
      (∃ move, act = .move key move ∧ (core.entry key).Enabled core.config move ∧
        core'.entry key = (core.entry key).moved core.config move) ∨
      ∃ record, act = .emplace key record ∧ key ∉ core.entries.keys ∧
        core.entry key = {} ∧ core'.entry key = { record } := by
  cases act with
  | note => exact Or.inl (h.body key)
  | move moved move =>
    by_cases heq : key = moved
    · subst heq
      exact Or.inr (Or.inl ⟨move, rfl, h.enabled, h.entry⟩)
    · exact Or.inl (congrArg Entry.body (h.others key heq))
  | emplace created record =>
    cases h
    rcases core.emplace_cases created record key with hsame | ⟨rfl, hkey, hold, hnew⟩
    · exact Or.inl (congrArg Entry.body hsame)
    · exact Or.inr (Or.inr ⟨record, rfl, hkey, hold, hnew⟩)
  | issue | answer | returned | dropped | stop => cases h; exact Or.inl rfl
  | configure => rw [h.2.2.2]; exact Or.inl rfl
  | pop => rw [h.2]; exact Or.inl rfl

theorem Acts.retainHostCopy :
    core'.config.retainHostCopy = core.config.retainHostCopy := by
  cases act with
  | note => rw [h.config]
  | move => rw [h.config]
  | emplace | issue | answer | returned | dropped | stop => cases h; rfl
  | configure => rw [h.2.2.2]; rfl
  | pop => rw [h.2]

theorem Acts.directory : core'.directory = core.directory := by
  cases act with
  | note => exact Noted.directory h
  | move => exact Local.directory h.toLocal
  | emplace | issue | answer | returned | dropped | stop => cases h; rfl
  | configure => rw [h.2.2.2]; rfl
  | pop => rw [h.2]

theorem Acts.key_mem (hkey : key ∈ core.entries.keys) :
    key ∈ core'.entries.keys := by
  cases act with
  | note => exact h.keys ▸ hkey
  | move => exact h.keys ▸ hkey
  | emplace => cases h; exact Table.mem_keys_tryEmplace.2 (Or.inr hkey)
  | issue | answer | returned | dropped | stop => cases h; exact hkey
  | configure => rw [h.2.2.2]; exact hkey
  | pop => rw [h.2]; exact hkey

end

theorem ok_of_retain {config config' : ExpertCacheConfig} {entry : Entry}
    (h : EntryOk config entry) (hretain : config'.retainHostCopy = config.retainHostCopy) :
    EntryOk config' entry :=
  { h with copied := fun hsome => hretain ▸ h.copied hsome }

theorem Acts.entryOk (h : Acts core core' act) (hok : EntryOk core.config (core.entry key)) :
    EntryOk core'.config (core'.entry key) := by
  refine ok_of_retain ?_ h.retainHostCopy
  rcases h.entry_cases key with hbody | ⟨move, _, henabled, hentry⟩ | ⟨record, _, _, _, hentry⟩
  · exact hok.congr hbody
  · rw [hentry]
    exact hok.moved henabled
  · rw [hentry]
    exact EntryOk.default _ record

theorem not_ready_new (priority : ExpertRequestPriority) (record : PayloadRecord) :
    ¬({ record } : Entry).ReadReady priority ∧ ¬({ record } : Entry).UploadReady priority := by
  simp [Entry.ReadReady, Entry.UploadReady, Entry.hasWaiters]

section

variable (h : Acts core core' act)

include h

theorem Acts.indexedAt (hindexed : core.IndexedAt key) :
    core'.IndexedAt key := by
  cases act with
  | note => exact h.indexed key hindexed
  | move moved move =>
    by_cases heq : key = moved
    · subst heq
      exact h.indexed_self hindexed
    · exact h.indexed key heq hindexed
  | emplace created record =>
    cases h
    refine hindexed.of_ready_iff rfl rfl fun priority => ?_
    rcases core.emplace_cases created record key with hsame | ⟨_, _, hold, hnew⟩
    · rw [hsame]
      exact ⟨Iff.rfl, Iff.rfl⟩
    · rw [hold, hnew]
      have hempty := not_ready_new priority {}
      have hcreated := not_ready_new priority record
      exact ⟨iff_of_false hcreated.1 hempty.1, iff_of_false hcreated.2 hempty.2⟩
  | issue | answer | returned | dropped | stop => cases h; exact hindexed
  | configure => rw [h.2.2.2]; exact hindexed
  | pop => rw [h.2]; exact hindexed

theorem Acts.staged (hstaged : ∀ slot, core.Staged slot) :
    ∀ slot, core'.Staged slot := by
  cases act with
  | note =>
    intro slot hused
    rw [h.buffers] at hused
    obtain ⟨owner, lease, howner, hslot⟩ := hstaged slot hused
    have hhost := Entry.field_of_body Entry.host (h.body owner)
    exact ⟨owner, lease, hhost.trans howner, hslot⟩
  | move => exact Local.staged h.toLocal hstaged
  | emplace created record =>
    cases h
    intro slot hused
    obtain ⟨owner, lease, howner, hslot⟩ := hstaged slot hused
    rcases core.emplace_cases created record owner with hsame | ⟨_, _, hold, _⟩
    · exact ⟨owner, lease, by rw [hsame, howner], hslot⟩
    · rw [hold] at howner
      cases howner
  | issue | answer | returned | dropped | stop => cases h; exact hstaged
  | configure => rw [h.2.2.2]; exact hstaged
  | pop => rw [h.2]; exact hstaged

theorem Acts.shape : core'.buffers.shape = core.buffers.shape := by
  cases act with
  | note => rw [h.buffers]
  | move => exact Local.shape h.toLocal
  | emplace | issue | answer | returned | dropped | stop => cases h; rfl
  | configure => rw [h.2.2.2]; rfl
  | pop => rw [h.2]

theorem Acts.pooled (hpooled : Pooled core.entries core.buffers) :
    Pooled core'.entries core'.buffers := by
  cases act with
  | note =>
    rw [h.buffers]
    exact hpooled.congr h.keys fun key => Entry.field_of_body Entry.host (h.body key)
  | move => exact Local.pooled h.toLocal hpooled
  | emplace created record =>
    cases h
    by_cases hkey : created ∈ core.entries.keys
    · rw [emplace, Table.tryEmplace_of_mem hkey]
      exact hpooled
    · exact hpooled.emplace hkey rfl
  | issue | answer | returned | dropped | stop => cases h; exact hpooled
  | configure => rw [h.2.2.2]; exact hpooled
  | pop => rw [h.2]; exact hpooled

theorem Acts.clean (hclean : core.Clean) : core'.Clean := by
  cases act with
  | note => exact Noted.clean h hclean
  | move => exact Local.clean h.toLocal hclean
  | emplace | issue | answer | returned | dropped | stop =>
    cases h
    exact ⟨hclean.fault, hclean.transitions⟩
  | configure => rw [h.2.2.2]; exact ⟨hclean.fault, hclean.transitions⟩
  | pop => rw [h.2]; exact ⟨hclean.fault, hclean.transitions⟩

end

/-- The directory shows the device copy of `key`, if there is one. -/
def ShownAt (core : Core) (key : ExpertKey) : Prop :=
  core.directory.isSome → (core.entry key).device.isSome → key ∈ core.published

theorem Acts.shownAt (h : Acts core core' act) (hshown : core.ShownAt key) :
    core'.ShownAt key := by
  intro hdirectory hdevice
  rw [h.directory] at hdirectory
  have hold := hshown hdirectory
  cases act with
  | note =>
    rw [h.published]
    rw [Entry.field_of_body Entry.device (h.body key)] at hdevice
    exact hold hdevice
  | move moved move =>
    by_cases heq : key = moved
    · subst heq
      exact h.shown hdirectory hold hdevice
    · rw [h.others key heq] at hdevice
      exact (h.published key heq).2 (hold hdevice)
  | emplace created record =>
    cases h
    rcases core.emplace_cases created record key with hsame | ⟨_, _, _, hnew⟩
    · rw [hsame] at hdevice
      exact hold hdevice
    · rw [hnew] at hdevice
      cases hdevice
  | issue | answer | returned | dropped | stop => cases h; exact hold hdevice
  | configure => rw [h.2.2.2] at hdevice ⊢; exact hold hdevice
  | pop => rw [h.2] at hdevice ⊢; exact hold hdevice

/-- What no interleaving of lock sections breaks. -/
structure Sound (core : Core) : Prop where
  ok : ∀ key, EntryOk core.config (core.entry key)
  indexed : ∀ key, core.IndexedAt key
  staged : ∀ slot, core.Staged slot
  clean : core.Clean
  shown : ∀ key, core.ShownAt key

theorem Acts.sound (h : Acts core core' act) (hsound : core.Sound) : core'.Sound where
  ok key := h.entryOk (hsound.ok key)
  indexed key := h.indexedAt (hsound.indexed key)
  staged := h.staged hsound.staged
  clean := h.clean hsound.clean
  shown key := h.shownAt (hsound.shown key)

theorem Noted.sound (h : Noted core core') (hsound : core.Sound) : core'.Sound :=
  @Acts.sound core core' .note h hsound

theorem Moves.sound {move : Move} (h : Moves key move core core') (hsound : core.Sound) :
    core'.Sound :=
  @Acts.sound core core' (.move key move) h hsound

theorem Moves.key_mem' {move : Move} {other : ExpertKey} (h : Moves key move core core')
    (hother : other ∈ core.entries.keys) : other ∈ core'.entries.keys :=
  h.keys ▸ hother

theorem Trace.sound {allowed : Core → Act → Prop} (h : Trace allowed core core')
    (hsound : core.Sound) : core'.Sound :=
  h.lift (fun _ hact hbefore => hact.sound hbefore) hsound

theorem Trace.key_mem {allowed : Core → Act → Prop} (h : Trace allowed core core')
    (hkey : key ∈ core.entries.keys) : key ∈ core'.entries.keys :=
  h.lift (fun _ hact hbefore => hact.key_mem hbefore) hkey

theorem Sound.mem_of_read {priority : ExpertRequestPriority} (hsound : core.Sound)
    (h : key ∈ core.readTaskKeys priority) : key ∈ core.entries.keys := by
  by_contra hkey
  have hready := ((hsound.indexed key priority).1).1 h
  rw [entry, core.entries.get_of_not_mem key hkey] at hready
  exact (not_ready_new priority {}).1 hready

theorem Sound.mem_of_upload {priority : ExpertRequestPriority} (hsound : core.Sound)
    (h : key ∈ core.uploadTaskKeys priority) : key ∈ core.entries.keys := by
  by_contra hkey
  have hready := ((hsound.indexed key priority).2).1 h
  rw [entry, core.entries.get_of_not_mem key hkey] at hready
  exact (not_ready_new priority {}).2 hready

theorem Acts.drift {account : Account} (h : Acts core core' act)
    (hlevel : ∀ key move, act = .move key move → move.Level (core.entry key) account) :
    core'.drift account = core.drift account := by
  cases act with
  | note => exact Noted.drift h account
  | move key move => exact Moves.drift h account (hlevel key move rfl)
  | emplace created record =>
    cases h
    by_cases hkey : created ∈ core.entries.keys
    · rw [emplace, Table.tryEmplace_of_mem hkey]
    · have hzero : ({ record } : Entry).charge (core.partitionFor created) account = 0 := by
        cases account <;> simp [Entry.charge, Entry.referenced]
      have htotal : (core.emplace created record).total account = core.total account := by
        show (core.entries.tryEmplace created { record }).sum _ = _
        rw [Table.sum_tryEmplace hkey]
        exact (congrArg _ hzero).trans (add_zero _)
      rw [Core.drift, Core.drift, htotal]
      rfl
  | issue | answer | returned | dropped | stop => cases h; rfl
  | configure => rw [h.2.2.2]; rfl
  | pop => rw [h.2]; rfl

end Core

end QuantumLlm.Runtime
