import QuantumLlm.Runtime.Cache.Classes

/-!
# Expert cache: accesses and evictions

Steps that no life cycle sees, and the eviction loops as traces of them and of
evictions. An entry that is excluded or in use goes through every loop untouched.
-/

namespace QuantumLlm.Runtime

namespace Entry

variable {entry other : Entry}

theorem readReady_of_body (h : other.body = entry.body) (priority : ExpertRequestPriority) :
    other.ReadReady priority ↔ entry.ReadReady priority := by
  show other.body.ReadReady priority ↔ entry.body.ReadReady priority
  rw [h]

theorem uploadReady_of_body (h : other.body = entry.body) (priority : ExpertRequestPriority) :
    other.UploadReady priority ↔ entry.UploadReady priority := by
  show other.body.UploadReady priority ↔ entry.body.UploadReady priority
  rw [h]

end Entry

namespace Core

variable {core middle core' : Core} {key : ExpertKey}

theorem Silent.classed (h : Silent key core core')
    (hbody : (core'.entry key).body = (core.entry key).body)
    (hresident : (core'.entry key).vramResident = (core.entry key).vramResident)
    (hclassed : core.Classed) : core'.Classed := by
  refine hclassed.congr h.config h.keys (fun other => ?_) h.drift
  by_cases heq : other = key
  · subst heq
    exact ⟨Entry.field_of_body Entry.ramReserved hbody,
      Entry.field_of_body Entry.vramReserved hbody, hresident⟩
  · rw [h.others other heq]
    exact ⟨rfl, rfl, rfl⟩

namespace Noted

theorem refl : Noted core core :=
  ⟨rfl, fun _ => rfl, fun _ _ => rfl, fun _ h => h, fun _ => rfl, fun h => h, rfl, fun h => h, rfl,
    rfl, rfl, rfl, rfl, rfl⟩

theorem trans (first : Noted core middle) (second : Noted middle core') : Noted core core' where
  keys := second.keys.trans first.keys
  body key := (second.body key).trans (first.body key)
  resident key hnone := by
    have hdevice := Entry.field_of_body Entry.device (first.body key)
    exact (second.resident key (hdevice.trans hnone)).trans (first.resident key hnone)
  indexed key h := second.indexed key (first.indexed key h)
  drift account := (second.drift account).trans (first.drift account)
  classed h := second.classed (first.classed h)
  buffers := second.buffers.trans first.buffers
  clean h := second.clean (first.clean h)
  published := second.published.trans first.published
  config := second.config.trans first.config
  directory := second.directory.trans first.directory
  shuttingDown := second.shuttingDown.trans first.shuttingDown
  queue := second.queue.trans first.queue
  journal := second.journal.trans first.journal

theorem of_silent (h : Silent key core core') (hbody : (core'.entry key).body = (core.entry key).body)
    (hresident : (core.entry key).device = none →
      (core'.entry key).vramResident = (core.entry key).vramResident)
    (hclassed : core.Classed → core'.Classed)
    (hindexed : core.IndexedAt key → core'.IndexedAt key) (hbuffers : core'.buffers = core.buffers) :
    Noted core core' where
  keys := h.keys
  body other := by
    by_cases heq : other = key
    · rw [heq, hbody]
    · rw [h.others other heq]
  resident other hnone := by
    by_cases heq : other = key
    · subst heq
      exact hresident hnone
    · rw [h.others other heq]
  indexed other hother := by
    by_cases heq : other = key
    · subst heq
      exact hindexed hother
    · exact h.indexed other heq hother
  drift := h.drift
  classed := hclassed
  buffers := hbuffers
  clean := h.clean
  published := h.shown
  config := h.config
  directory := h.directory
  shuttingDown := h.shuttingDown
  queue := h.queue
  journal := h.journal

end Noted

theorem refresh_noted : Noted core (core.refreshTaskIndexesLocked key) :=
  .of_silent refresh_silent rfl (fun _ => rfl) (refresh_silent.classed rfl rfl)
    (fun _ => refresh_indexedAt) rfl

theorem modify_noted {change : Entry → Entry} (hkey : key ∈ core.entries.keys)
    (hbody : (change (core.entry key)).body = (core.entry key).body)
    (hfootprint : (change (core.entry key)).footprint = (core.entry key).footprint) :
    Noted core (core.modify key change) := by
  have hself := @entry_modify_self core key change hkey
  have hsilent := (modify_does ⟨hkey, rfl⟩ hfootprint).toSilent
  have hresident : (change (core.entry key)).vramResident = (core.entry key).vramResident :=
    congrArg (·.2.2.2.2.1) hfootprint
  refine .of_silent hsilent ?_ ?_ (hsilent.classed ?_ ?_) ?_ rfl
  · rw [hself, hbody]
  · intro _
    rw [hself, hresident]
  · rw [hself, hbody]
  · rw [hself, hresident]
  · intro h
    refine h.of_ready_iff rfl rfl fun priority => ?_
    rw [hself]
    exact ⟨Entry.readReady_of_body hbody priority, Entry.uploadReady_of_body hbody priority⟩

theorem tick_noted : Noted core { core with directoryClock := core.directoryClock + 1 } :=
  ⟨rfl, fun _ => rfl, fun _ _ => rfl, fun _ h => h, fun _ => rfl,
    fun h => h.congr rfl rfl (fun _ => ⟨rfl, rfl, rfl⟩) fun _ => rfl, rfl,
    fun h => ⟨h.fault, h.transitions⟩, rfl, rfl, rfl, rfl, rfl, rfl⟩

theorem clock_noted {clock : UInt64} : Noted core { core with accessClock := clock } :=
  ⟨rfl, fun _ => rfl, fun _ _ => rfl, fun _ h => h, fun _ => rfl,
    fun h => h.congr rfl rfl (fun _ => ⟨rfl, rfl, rfl⟩) fun _ => rfl, rfl,
    fun h => ⟨h.fault, h.transitions⟩, rfl, rfl, rfl, rfl, rfl, rfl⟩

theorem age_noted : Noted core { core with entries := core.entries.mapValues Entry.age } := by
  have hentry : ∀ key, (core.entries.mapValues Entry.age).get key =
      if key ∈ core.entries.keys then (core.entry key).age else core.entry key := by
    intro key
    by_cases hkey : key ∈ core.entries.keys
    · rw [Table.get_mapValues hkey, if_pos hkey]
    · rw [if_neg hkey, entry, core.entries.get_of_not_mem key hkey]
      exact Table.get_of_not_mem _ key hkey
  have hbody : ∀ key, ((core.entries.mapValues Entry.age).get key).body =
      (core.entry key).body := by
    intro key
    rw [hentry]
    split <;> rfl
  have hresident : ∀ key, ((core.entries.mapValues Entry.age).get key).vramResident =
      (core.entry key).vramResident := by
    intro key
    rw [hentry]
    split <;> rfl
  have hdrift : ∀ account, ({ core with entries := core.entries.mapValues Entry.age } : Core).drift
      account = core.drift account := by
    intro account
    have htotal : ({ core with entries := core.entries.mapValues Entry.age } : Core).total account =
        core.total account := by
      refine Table.sum_congr rfl fun key hkey => ?_
      rw [Table.get_mapValues hkey]
      cases account <;> rfl
    rw [drift, drift, htotal]
  refine ⟨rfl, hbody, fun key _ => hresident key, ?_, hdrift, fun h => ?_, rfl,
    fun h => ⟨h.fault, h.transitions⟩, rfl, rfl, rfl, rfl, rfl, rfl⟩
  · intro key h
    refine h.of_ready_iff rfl rfl fun priority => ?_
    exact ⟨Entry.readReady_of_body (hbody key) priority,
      Entry.uploadReady_of_body (hbody key) priority⟩
  · refine h.congr rfl rfl (fun key => ⟨?_, ?_, hresident key⟩) hdrift
    · exact Entry.field_of_body Entry.ramReserved (hbody key)
    · exact Entry.field_of_body Entry.vramReserved (hbody key)

theorem touch_noted (hkey : key ∈ core.entries.keys) : Noted core (core.touchLocked key) := by
  have htouched : Noted core
      { core.modify key (·.touch (core.accessClock + 1)) with accessClock := core.accessClock + 1 } :=
    (modify_noted hkey rfl rfl).trans clock_noted
  simp only [touchLocked]
  split
  next => exact htouched.trans age_noted
  next => exact htouched

theorem touchTimes_noted {count : Nat} (hkey : key ∈ core.entries.keys) :
    Noted core (core.touchTimes key count) := by
  induction count generalizing core with
  | zero => exact .refl
  | succ count ih =>
    have htouch := touch_noted hkey
    exact htouch.trans (ih (htouch.keys ▸ hkey))

/-- A note, or an eviction of another entry than the excluded one. -/
def Spare (excluded : Option ExpertKey) (_ : Core) (act : Act) : Prop :=
  act = .note ∨ ∃ victim needRam needVram,
    act = .move victim (.evict needRam needVram) ∧ excluded ≠ some victim

theorem Spare.frees {excluded : Option ExpertKey} {act : Act} (h : Spare excluded core act) :
    act.Frees := by
  rcases h with rfl | ⟨victim, needRam, needVram, rfl, -⟩
  · exact True.intro
  · exact ⟨rfl, by simp⟩

theorem Noted.spare {excluded : Option ExpertKey} (h : Noted core core') :
    Trace (Spare excluded) core core' :=
  @Trace.single _ core core' .note (Or.inl rfl) h

end Core

end QuantumLlm.Runtime
