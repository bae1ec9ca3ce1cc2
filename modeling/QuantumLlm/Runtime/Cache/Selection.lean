import QuantumLlm.Runtime.Cache.Capacity

/-!
# Expert cache: task selection

`next_task_locked` walks over candidates, evicting, rejecting and failing on the
way, and starts at most one load or upload at the end of the walk.
-/

namespace QuantumLlm.Runtime

namespace Core

variable {core middle core' : Core} {key : ExpertKey}

/-- The acts of a walk before it starts a task. -/
def Scan (core : Core) : Act → Prop
  | .note => True
  | .move _ (.evict _ _) => True
  | .move key .reject => (core.entry key).state = .absent ∨
      (core.entry key).state = .ramReady ∧ (core.entry key).vramReserved = 0
  | .move key (.fail status) => (core.entry key).state = .absent ∧ status = oversizeStatus
  | _ => False

variable {excluded : Option ExpertKey} {act : Act} {entry : Entry}
  {priority : ExpertRequestPriority}

theorem Spare.scan (h : Spare excluded core act) :
    Scan core act := by
  rcases h with rfl | ⟨victim, needRam, needVram, rfl, _⟩ <;> trivial

theorem Evicts.scan (h : Evicts excluded core core') :
    Trace Scan core core' :=
  h.trace.mono fun _ _ hspare => hspare.scan

theorem Noted.scan (h : Noted core core') : Trace Scan core core' :=
  @Trace.single Scan core core' .note trivial h

theorem Scan.frees (h : Scan core act) : act.Frees := by
  cases act with
  | move key move => cases move <;> first | exact h.elim | exact ⟨rfl, by simp⟩
  | note => exact True.intro
  | _ => exact h.elim

/-- What a walk selected, and the one move that starts it. -/
inductive Selected : Core → Option Task → Core → Prop where
  | none {core core' : Core} : Trace Scan core core' → Selected core none core'
  | upload {core middle core' : Core} {key : ExpertKey} {reserved : Option Bool} :
      Trace Scan core middle → Moves key (.startUpload reserved) middle core' →
      (core.Sound → core.Classed → middle.Rooms key (.startUpload reserved)) →
      Selected core (some ⟨.upload, key⟩) core'
  | read {core middle core' : Core} {key : ExpertKey} {lease : PoolLease}
      {admitted : Option Bool} :
      Trace Scan core middle → Moves key (.startLoad lease admitted) middle core' →
      (middle.config.placement.vramTransientBytes = 0 → ∀ resident, admitted = some resident →
        resident = true ∨ deviceBytes (middle.entry key).record = 0) →
      (core.Sound → core.Classed → middle.Rooms key (.startLoad lease admitted)) →
      Selected core (some ⟨.read, key⟩) core'

theorem Selected.after {task : Option Task} (htrace : Trace Scan core middle)
    (h : Selected middle task core') : Selected core task core' := by
  have hclassed : core.Sound → core.Classed → middle.Sound ∧ middle.Classed :=
    fun hsound hclassed => ⟨htrace.sound hsound,
      htrace.classed (fun _ _ hscan => hscan.frees) hsound hclassed⟩
  cases h with
  | none hrest => exact .none (htrace.trans hrest)
  | upload hrest hmoves hrooms =>
    exact .upload (htrace.trans hrest) hmoves fun hsound hlimits =>
      hrooms (hclassed hsound hlimits).1 (hclassed hsound hlimits).2
  | read hrest hmoves hring hrooms =>
    exact .read (htrace.trans hrest) hmoves hring fun hsound hlimits =>
      hrooms (hclassed hsound hlimits).1 (hclassed hsound hlimits).2

theorem not_skipped_upload
    (h : ¬(entry.waiters.isEmpty || entry.abandon || decide (entry.effectivePriority ≠ priority) ||
      decide (entry.state ≠ .ramReady) || !entry.hasHostBytes) = true) :
    entry.state = .ramReady ∧ entry.waiters ≠ [] ∧ entry.effectivePriority = priority := by
  simp only [Bool.or_eq_true, not_or, decide_eq_true_eq, not_not, List.isEmpty_iff] at h
  exact ⟨h.1.2, h.1.1.1.1, h.1.1.2⟩

theorem priority_startUpload {reserved : Option Bool} (hkey : key ∈ core.entries.keys)
    (hstate : (core.entry key).state = .ramReady) :
    ((core.startUpload key reserved).entry key).effectivePriority =
      (core.entry key).effectivePriority := by
  obtain ⟨hlocal, hentry, -⟩ :=
    @reserveAdmitted_spec core key (deviceBytes (core.entry key).record) hkey reserved
  have hvalid : validCacheTransition ((core.entry key).reserveAdmitted
      (deviceBytes (core.entry key).record) reserved).state .gpuUploading := by
    cases reserved <;> simp [Entry.reserveAdmitted, Entry.reserveVram, hstate, validCacheTransition]
  rw [startUpload, (transition_does ⟨hlocal.keys ▸ hkey, hentry⟩ hvalid).ends.entry]
  cases reserved <;> rfl

/-- No device capacity can be made for the upload. -/
def UploadBlocked (core : Core) (key : ExpertKey) : Prop :=
  (core.entry key).vramReserved = 0 ∧ (core.makeDeviceCapacityLocked key 0 false).1 = none

/-- The record can never fit, no capacity can be made for it, or no staging slot of its
class is free. -/
def ReadBlocked (core : Core) (key : ExpertKey) (priority : ExpertRequestPriority) : Prop :=
  (core.entry key).record.storedBytes > core.buffers.slotBytes ∨
    ((core.entry key).waiters ≠ [] ∧
      deviceBytes (core.entry key).record > core.config.vram.highWatermarkBytes) ∨
    (core.admitRead key).1 = none ∨
    (core.admitRead key).2.buffers.tryAcquire (core.entry key).record.storedBytes
      (bufferClass priority) = none

def Blocked (core : Core) (key : ExpertKey) (priority : ExpertRequestPriority) : Prop :=
  (core.entry key).UploadReady priority ∧ core.UploadBlocked key ∨
    (core.entry key).ReadReady priority ∧ core.ReadBlocked key priority

/-- Part of a walk that changes no waiting entry but the one it is at. -/
structure Walks (key : ExpertKey) (core core' : Core) : Prop where
  trace : Trace Scan core core'
  others : ∀ other, other ≠ key → (core.entry other).hasWaiters →
    core'.entry other = core.entry other

theorem Walks.refl : Walks key core core := ⟨.refl, fun _ _ _ => rfl⟩

theorem Evicts.walks (h : Evicts (some key) core core') : Walks key core core' := by
  refine ⟨h.scan, fun other _ hwaiters => h.frame other (Or.inr ?_)⟩
  simp [Entry.evictable, hwaiters]

theorem Walks.reject (h : Walks key core middle) (hkey : key ∈ middle.entries.keys)
    (hstate : (middle.entry key).state = .absent ∨
      (middle.entry key).state = .ramReady ∧ (middle.entry key).vramReserved = 0) :
    Walks key core (middle.rejectBlockedDeviceWaitersLocked key) := by
  have hmoves := rejectBlockedDeviceWaiters_moves hkey
  refine ⟨h.trace.trans (@Trace.single Scan _ _ (.move key .reject) hstate hmoves),
    fun other hother hwaiters => ?_⟩
  rw [hmoves.others other hother, h.others other hother hwaiters]

/-- A round of a loop over candidates: it passes a candidate, which could not be started if it
was ready, or it starts the candidate's task. -/
inductive Round (ready : Entry → Prop) (task : Task) (priority : ExpertRequestPriority)
    (goesOn : Core → Option Task × Core) (core : Core) : Option Task × Core → Prop where
  | passed {next : Core} : Walks task.key core next →
      (ready (core.entry task.key) → core.Blocked task.key priority) →
      Round ready task priority goesOn core (goesOn next)
  | started {core' : Core} : Selected core (some task) core' →
      (core'.entry task.key).effectivePriority = priority →
      (task.kind = .read → ∃ lease, (core'.entry task.key).host = some lease ∧
        lease.allocationClass = bufferClass priority) →
      Round ready task priority goesOn core (some task, core')

/-- A loop over candidates. -/
structure Rounds (ready : Entry → Prop) (kind : TaskKind) (priority : ExpertRequestPriority)
    (scan : List ExpertKey → Core → Option Task × Core) : Prop where
  nil : ∀ core, scan [] core = (none, core)
  round : ∀ {core : Core} {key : ExpertKey} (rest : List ExpertKey), core.Sound →
    key ∈ core.entries.keys →
      Round ready ⟨kind, key⟩ priority (scan rest) core (scan (key :: rest) core)

theorem Rounds.selected {ready : Entry → Prop} {kind : TaskKind}
    {scan : List ExpertKey → Core → Option Task × Core} (h : Rounds ready kind priority scan)
    (keys : List ExpertKey) (core : Core) (hsound : core.Sound)
    (hkeys : ∀ key ∈ keys, key ∈ core.entries.keys) :
    Selected core (scan keys core).1 (scan keys core).2 := by
  induction keys generalizing core with
  | nil =>
    rw [h.nil]
    exact .none .refl
  | cons key rest ih =>
    obtain ⟨hkey, hrest⟩ := List.forall_mem_cons.1 hkeys
    have hround := h.round rest hsound hkey
    generalize scan (key :: rest) core = result at hround ⊢
    cases hround with
    | passed hwalks =>
      exact .after hwalks.trace (ih _ (hwalks.trace.sound hsound) fun other hother =>
        hwalks.trace.key_mem (hrest other hother))
    | started hselected => exact hselected

theorem scanUploads_rounds (priority : ExpertRequestPriority) :
    Rounds (·.UploadReady priority) .upload priority (scanUploads priority) := by
  refine ⟨fun _ => rfl, fun {core key} rest hsound hkey => ?_⟩
  simp only [scanUploads, hkey, not_true_eq_false, if_false]
  split
  next hskipped =>
    refine .passed ⟨refresh_noted.scan, fun _ _ _ => rfl⟩ fun hready => ?_
    obtain ⟨hstate, hbytes, habandon, hwaiters, hpriority⟩ := hready
    simp [hstate, hbytes, habandon, hwaiters, hpriority] at hskipped
  next hcandidate =>
    obtain ⟨hstate, hwaiters, hpriority⟩ := not_skipped_upload hcandidate
    split
    next hzero =>
      obtain ⟨hevicts, hgranted⟩ := @makeDeviceCapacity_spec core key 0 false
      have hself : (core.makeDeviceCapacityLocked key 0 false).1 = none →
          (core.entry key).UploadReady priority → core.Blocked key priority :=
        fun hblocked hready => Or.inl ⟨hready, hzero, hblocked⟩
      cases hresult : core.makeDeviceCapacityLocked key 0 false with
      | mk admitted after =>
      rw [hresult] at hevicts hgranted hself
      have hkey1 := hevicts.keys.symm ▸ hkey
      have hsame := hevicts.excluded_entry
      cases admitted with
      | none =>
        refine .passed (hevicts.walks.reject hkey1 (Or.inr ?_)) (hself rfl)
        rw [hsame]
        exact ⟨hstate, hzero⟩
      | some resident =>
        obtain ⟨⟨⟨_, hroom⟩, _, hneed⟩, _, hfitting⟩ := hgranted resident rfl
        refine .started (.upload hevicts.scan (startUpload_moves hkey1
          ((hevicts.trace.sound hsound).ok key) ⟨?_, ?_, ?_⟩ ⟨?_, ?_⟩)
          fun hsound hclassed => ⟨by simp, fun chosen hsome => ?_⟩) ?_
          fun hread => nomatch hread
        · rw [hsame, hstate]
        · rw [hsame]
          exact hwaiters
        · rw [hsame]
          simp [hzero]
        · rw [hsame]
          exact hroom
        · rw [hsame]
          exact hneed
        · cases hsome
          rw [hsame]
          exact (hfitting hsound hclassed).2
        · rw [priority_startUpload hkey1 (by rw [hsame, hstate]), hsame, hpriority]
    next hreserved =>
      exact .started (.upload .refl (startUpload_moves hkey (hsound.ok key)
        ⟨hstate, hwaiters, by simp [hreserved]⟩ trivial)
        fun _ _ => ⟨by simp, by simp [Move.admitted]⟩)
        ((priority_startUpload hkey hstate).trans hpriority) fun hread => nomatch hread

theorem not_skipped_read
    (h : ¬(!entry.hasWaiters || entry.abandon || decide (entry.effectivePriority ≠ priority) ||
      decide (entry.state ≠ .absent)) = true) :
    entry.state = .absent ∧ entry.hasWaiters ∧ entry.effectivePriority = priority := by
  simp only [Bool.or_eq_true, not_or, decide_eq_true_eq, not_not, Bool.not_eq_true',
    Bool.not_eq_false] at h
  exact ⟨h.2, h.1.1.1, h.1.2⟩

theorem failOversize_moves (hsound : core.Sound) (hkey : key ∈ core.entries.keys)
    (hstate : (core.entry key).state = .absent) :
    Moves key (.fail oversizeStatus) core (core.failEntryLocked key oversizeStatus) := by
  have hok := hsound.ok key
  have hidle : (core.entry key).preparingHost = false := by
    by_contra hpreparing
    have hloading := hok.preparing (by simpa using hpreparing)
    rw [hstate] at hloading
    cases hloading
  have hdevice : (core.entry key).device = none := by
    have hiff := hok.device_iff
    rw [hstate] at hiff
    simpa using hiff
  refine failEntry_moves hkey hdevice ⟨?_, hidle⟩
  rw [hstate]
  simp

theorem admitRead_spec :
    Evicts (some key) core (core.admitRead key).2 ∧
      ∀ admitted, (core.admitRead key).1 = some admitted →
        (admitted.isSome ↔ (core.entry key).waiters ≠ []) ∧
          (∀ lease, (Move.startLoad lease admitted).Fits (core.admitRead key).2
            (core.entry key).record) ∧
          (core.config.placement.vramTransientBytes = 0 → ∀ resident, admitted = some resident →
            resident = true ∨ deviceBytes (core.entry key).record = 0) ∧
          (core.Sound → core.Classed →
            ∀ lease, (core.admitRead key).2.Rooms key (.startLoad lease admitted)) := by
  simp only [admitRead]
  by_cases hwaiters : (core.entry key).waiters = []
  · simp only [hwaiters, List.isEmpty_nil, if_true]
    have hevicts := @makeCapacity_evicts core key (core.entry key).record.storedBytes 0
      (core.entry key).ramProtectedRequested false (core.entry key).temperature
    cases hresult : core.makeCapacityLocked (core.entry key).record.storedBytes 0 key
        (core.entry key).ramProtectedRequested false (core.entry key).temperature with
    | mk made after =>
    rw [hresult] at hevicts
    cases made with
    | false => exact ⟨hevicts, by simp⟩
    | true =>
      refine ⟨hevicts, fun admitted hsome => ?_⟩
      cases hsome
      have hadmits := makeCapacity_admits (by rw [hresult])
      rw [hresult] at hadmits
      refine ⟨by simp, fun _ => ⟨hadmits.1.1, hadmits.2.1, by simp⟩, by simp,
        fun hsound hclassed lease => ⟨fun _ _ _ hcount => ?_, by simp [Move.admitted]⟩⟩
      have hfitting := makeCapacity_fitting hsound hclassed (by rw [hresult])
      rw [hresult] at hfitting
      rw [hevicts.excluded_entry]
      exact hfitting.1 hcount
  · have hempty : (core.entry key).waiters.isEmpty = false := by simpa using hwaiters
    simp only [hempty]
    obtain ⟨hevicts, hgranted⟩ := @makeDeviceCapacity_spec core key
      (core.entry key).record.storedBytes (core.entry key).ramProtectedRequested
    cases hresult : core.makeDeviceCapacityLocked key (core.entry key).record.storedBytes
        (core.entry key).ramProtectedRequested with
    | mk made after =>
    rw [hresult] at hevicts hgranted
    cases made with
    | none => exact ⟨hevicts, by simp⟩
    | some resident =>
      obtain ⟨hadmits, hring, hfitting⟩ := hgranted resident rfl
      refine ⟨hevicts, fun admitted hsome => ?_⟩
      cases hsome
      refine ⟨by simp [hwaiters], fun _ => ⟨hadmits.1.1, hadmits.2.1, fun _ =>
        ⟨hadmits.1.2, hadmits.2.2⟩⟩, fun hnone _ hresident => ?_, fun hsound hclassed lease => ?_⟩
      · cases hresident
        exact hring hnone
      · have hfits : after.Fitting key _ _ resident := hfitting hsound hclassed
        have hsame : after.entry key = core.entry key := hevicts.excluded_entry
        show after.Rooms key (.startLoad lease (some resident))
        rw [Rooms, hsame]
        refine ⟨fun _ _ _ hcount => hfits.1 hcount, fun chosen hsome => ?_⟩
        cases hsome
        exact hfits.2

theorem entry_startLoad {lease : PoolLease} {buffers : FixedBufferPool}
    {admitted : Option Bool} (hkey : key ∈ core.entries.keys)
    (hstate : (core.entry key).state = .absent) :
    (core.startLoad key lease buffers admitted).entry key =
      (core.entry key).loading lease admitted := by
  have hreserved : ((core.stage key lease buffers).reserveRamLocked key
      (core.entry key).record.storedBytes (core.entry key).ramProtectedRequested).entry key =
      ((core.entry key).stage lease).reserveRam (core.entry key).record.storedBytes
        (core.entry key).ramProtectedRequested := by
    refine (@entry_modify_self (core.modify key (·.stage lease)) key (·.reserveRam _ _) hkey).trans ?_
    rw [entry_modify_self hkey]
  obtain ⟨hlocal, hentry, -⟩ := @reserveAdmitted_spec ((core.stage key lease buffers).reserveRamLocked
    key _ _) key (deviceBytes (core.entry key).record) hkey admitted
  rw [hreserved] at hentry
  refine (transition_does ⟨hlocal.keys ▸ hkey, hentry⟩ ?_).ends.entry
  cases admitted <;> simp [Entry.reserveAdmitted, Entry.reserveVram, Entry.reserveRam,
    Entry.stage, hstate, validCacheTransition]

theorem scanReads_rounds (priority : ExpertRequestPriority) :
    Rounds (·.ReadReady priority) .read priority (scanReads priority) := by
  refine ⟨fun _ => rfl, fun {core key} rest hsound hkey => ?_⟩
  simp only [scanReads, hkey, not_true_eq_false, if_false]
  split
  next hskipped =>
    refine .passed ⟨refresh_noted.scan, fun _ _ _ => rfl⟩ fun hready => ?_
    obtain ⟨hstate, habandon, hwaiters, hpriority⟩ := hready
    simp [hstate, habandon, hwaiters, hpriority] at hskipped
  next hcandidate =>
    obtain ⟨hstate, hwaiting, hpriority⟩ := not_skipped_read hcandidate
    split
    next hoversize =>
      have hmoves := failOversize_moves hsound hkey hstate
      exact .passed ⟨@Trace.single Scan _ _ (.move key (.fail oversizeStatus)) ⟨hstate, rfl⟩
        hmoves, fun other hother _ => hmoves.others other hother⟩
        fun hready => Or.inr ⟨hready, Or.inl hoversize⟩
    next =>
      split
      next hnever =>
        refine .passed .refl fun hready => Or.inr ⟨hready, Or.inr (Or.inl ?_)⟩
        simpa using hnever
      next =>
        obtain ⟨hevicts, hadmission⟩ := @admitRead_spec core key
        have hself : (core.admitRead key).1 = none →
            (core.entry key).ReadReady priority → core.Blocked key priority :=
          fun hblocked hready => Or.inr ⟨hready, Or.inr (Or.inr (Or.inl hblocked))⟩
        have hslot : (core.admitRead key).2.buffers.tryAcquire
            (core.entry key).record.storedBytes (bufferClass priority) = none →
            (core.entry key).ReadReady priority → core.Blocked key priority :=
          fun hblocked hready => Or.inr ⟨hready, Or.inr (Or.inr (Or.inr hblocked))⟩
        cases hresult : core.admitRead key with
        | mk made after =>
        rw [hresult] at hevicts hadmission hself hslot
        have hkey1 := hevicts.keys.symm ▸ hkey
        have hsame := hevicts.excluded_entry
        cases made with
        | none =>
          simp only
          split
          next => exact .passed hevicts.walks (hself rfl)
          next =>
            refine .passed (hevicts.walks.reject hkey1 (Or.inl ?_)) (hself rfl)
            rw [hsame, hstate]
        | some admitted =>
          obtain ⟨hdemand, hfits, hring, hrooms⟩ := hadmission admitted rfl
          simp only
          cases hacquired : after.buffers.tryAcquire (core.entry key).record.storedBytes
              (bufferClass priority) with
          | none => exact .passed hevicts.walks (hslot hacquired)
          | some acquired =>
            obtain ⟨lease, buffers⟩ := acquired
            have hentry := @entry_startLoad after key lease buffers admitted hkey1
              (by rw [hsame, hstate])
            rw [hsame] at hentry
            refine .started (.read hevicts.scan (startLoad_moves hkey1 hacquired
              ((hevicts.trace.sound hsound).ok key) ⟨?_, ?_, ?_⟩ ?_) ?_
              fun hsound hclassed => hrooms hsound hclassed lease) ?_ fun _ => ⟨lease, ?_, ?_⟩
            · rw [hsame, hstate]
            · rw [hsame]
              exact hwaiting
            · rw [hsame]
              exact hdemand
            · rw [hsame]
              exact hfits lease
            · rw [hsame, hevicts.config]
              exact hring
            · rw [hentry, ← hpriority]
              cases admitted <;> rfl
            · rw [hentry]
              cases admitted <;> rfl
            · exact (FixedBufferPool.tryAcquire_eq hacquired).1

theorem scanPriorities_selected (priorities : List ExpertRequestPriority) (core : Core)
    (hsound : core.Sound) :
    Selected core (scanPriorities priorities core).1 (scanPriorities priorities core).2 := by
  induction priorities generalizing core with
  | nil => exact .none .refl
  | cons priority rest ih =>
    have huploads := (scanUploads_rounds priority).selected
      (core.uploadTaskKeys priority).items core hsound fun key hkey => hsound.mem_of_upload hkey
    simp only [scanPriorities]
    cases hupload : scanUploads priority (core.uploadTaskKeys priority).items core with
    | mk task middle =>
    rw [hupload] at huploads
    cases task with
    | some task => exact huploads
    | none =>
      have htrace : Trace Scan core middle := by
        cases huploads with
        | none htrace => exact htrace
      have hmiddle := htrace.sound hsound
      simp only [hmiddle.clean.fault, Option.isSome_none, Bool.false_eq_true, if_false]
      have hreads := (scanReads_rounds priority).selected
        (middle.readTaskKeys priority).items middle hmiddle fun key hkey => hmiddle.mem_of_read hkey
      cases hread : scanReads priority (middle.readTaskKeys priority).items middle with
      | mk task after =>
      rw [hread] at hreads
      cases task with
      | some task => exact hreads.after htrace
      | none =>
        have hrest : Trace Scan middle after := by
          cases hreads with
          | none hrest => exact hrest
        have hafter := hrest.sound hmiddle
        simp only [hafter.clean.fault, Option.isSome_none, Bool.false_eq_true, if_false]
        exact (ih after hafter).after (htrace.trans hrest)

theorem nextTask_selected (hsound : core.Sound) :
    Selected core core.nextTaskLocked.1 core.nextTaskLocked.2 :=
  scanPriorities_selected _ core hsound

end Core

end QuantumLlm.Runtime
