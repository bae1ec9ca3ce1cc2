import QuantumLlm.Runtime.Cache.Trace

/-!
# Expert cache: the moves of the lock sections

Each block of code that carries an entry from one life-cycle stage to the next is
one move of the abstract machine, with everything else kept.
-/

namespace QuantumLlm.Runtime

open List

namespace Core

open Entry

variable {core core' : Core} {key : ExpertKey}

section

variable (h : core.IndexedAt key) (hread : core'.readTaskKeys = core.readTaskKeys)
  (hupload : core'.uploadTaskKeys = core.uploadTaskKeys)

include h hread hupload

theorem IndexedAt.of_ready_iff (hready : ∀ priority, ((core'.entry key).ReadReady priority ↔
        (core.entry key).ReadReady priority) ∧
      ((core'.entry key).UploadReady priority ↔ (core.entry key).UploadReady priority)) :
    core'.IndexedAt key := by
  intro priority
  rw [hread, hupload, (hready priority).1, (hready priority).2]
  exact h priority

theorem IndexedAt.of_idle
    (hidle : (core.entry key).hasWaiters = false) (hidle' : (core'.entry key).hasWaiters = false) :
    core'.IndexedAt key := by
  refine h.of_ready_iff hread hupload fun priority => ⟨?_, ?_⟩
  · simp [ReadReady, hidle, hidle']
  · simp only [UploadReady, (hasWaiters_eq_false_iff.1 hidle).1,
      (hasWaiters_eq_false_iff.1 hidle').1]
    simp

end

theorem shown_of_eq (hpublished : core'.published = core.published)
    (hdevice : (core'.entry key).device.isSome → (core.entry key).device.isSome) :
    core.directory.isSome → ((core.entry key).device.isSome → key ∈ core.published) →
      (core'.entry key).device.isSome → key ∈ core'.published := by
  intro _ hshown hsome
  rw [hpublished]
  exact hshown (hdevice hsome)

theorem Keeps.moves {move : Move} (h : Keeps key core core') (hkey : key ∈ core.entries.keys)
    (henabled : (core.entry key).Enabled core.config move)
    (hentry : core'.entry key = (core.entry key).moved core.config move)
    (hindexed : core.IndexedAt key → core'.IndexedAt key)
    (hshown : core.directory.isSome → ((core.entry key).device.isSome → key ∈ core.published) →
      (core'.entry key).device.isSome → key ∈ core'.published)
    (hjournal : core'.journal = core.journal.logged key (core.entry key) move)
    (hqueue : core'.hostPrepareQueue = core.hostPrepareQueue ++ move.queued key)
    (hfits : move.Fits core (core.entry key).record) : Moves key move core core' :=
  { h.toLocal with
    key_mem := hkey
    enabled := henabled
    entry := hentry
    indexed_self := hindexed
    shown := hshown
    journal := hjournal
    queue := hqueue
    drift := fun account _ => h.drift account
    fits := hfits }

/-- A move that answers waiters at most, and does the rest unseen. -/
theorem Does.moves {journal : Journal} {after : Entry} {move : Move}
    (h : Does key { core with journal } core' after)
    (henabled : (core.entry key).Enabled core.config move)
    (hindexed : core.IndexedAt key → core'.IndexedAt key)
    (hdevice : after.device.isSome → (core.entry key).device.isSome)
    (hmoved : after = (core.entry key).moved core.config move)
    (hjournal : journal = core.journal.logged key (core.entry key) move)
    (hqueue : move.queued key = []) (hfits : move.Fits core (core.entry key).record) :
    Moves key move core core' := by
  have hlogged : Keeps key core { core with journal } := journal_keeps
  refine (hlogged.trans h.toKeeps).moves ?_ henabled (h.ends.entry.trans hmoved) hindexed
    (shown_of_eq h.shown ?_) (h.journal.trans hjournal) ?_ hfits
  · have hmem := h.ends.mem
    rw [h.keys] at hmem
    exact hmem
  · rw [h.ends.entry]
    exact hdevice
  · rw [hqueue, append_nil]
    exact h.queue

section

variable (hkey : key ∈ core.entries.keys)
include hkey

theorem joinWaiter_moves {waiter : Waiter}
    (henabled : (core.entry key).Enabled core.config (.join waiter)) :
    Moves key (.join waiter) core (core.joinWaiter key waiter) :=
  Does.moves (reindexed_does ⟨hkey, rfl⟩ rfl) henabled (fun _ => refresh_indexedAt) id rfl rfl rfl
    trivial

theorem joinHostWaiter_moves {waiter : HostWaiter}
    (henabled : (core.entry key).Enabled core.config (.joinHost waiter)) :
    Moves key (.joinHost waiter) core (core.joinHostWaiter key waiter) :=
  Does.moves (reindexed_does ⟨hkey, rfl⟩ rfl) henabled (fun _ => refresh_indexedAt) id rfl rfl rfl
    trivial

theorem rejectBlockedDeviceWaiters_moves :
    Moves key .reject core (core.rejectBlockedDeviceWaitersLocked key) := by
  simp only [rejectBlockedDeviceWaitersLocked]
  split
  next hnone =>
    have hnil : (core.entry key).failFast = [] := isEmpty_iff.1 hnone
    have hsame : (core.entry key).withoutFailFast = core.entry key := by
      have hall : (core.entry key).waiters.filter
          (!·.options.failFastOnDeviceAdmission) = (core.entry key).waiters := by
        rw [filter_eq_self]
        intro waiter hwaiter
        simpa using (filter_eq_nil_iff.1 hnil) waiter hwaiter
      rw [withoutFailFast, hall]
    refine Does.moves (.refl ⟨hkey, rfl⟩) trivial id id hsame.symm ?_ rfl trivial
    simp [Journal.logged, hnil, Journal.answered]
  next =>
    exact Does.moves (reindexed_does ⟨hkey, rfl⟩ rfl) trivial (fun _ => refresh_indexedAt) id rfl rfl
      rfl trivial

theorem failWaiters_moves {status : Status} :
    Moves key (.clear status) core (core.failWaitersLocked key status) :=
  Does.moves (reindexed_does ⟨hkey, rfl⟩ rfl) trivial (fun _ => refresh_indexedAt) id rfl rfl rfl
    trivial

end

section

theorem device_unstage {entry : Entry} : entry.unstage.device = entry.device := by
  unfold Entry.unstage
  split <;> rfl

variable {entry : Entry}

theorem device_abandonedIfIdle (h : entry.abandonedIfIdle.device.isSome) :
    entry.device.isSome := by
  simp only [Entry.abandonedIfIdle] at h
  split_ifs at h
  · exact h
  · exact device_unstage ▸ h
  · exact h

variable (h : core.HasEntry key entry)
include h

theorem unstage_does (hstate : entry.state = .ramReady) :
    Does key core (core.unstageLocked key) entry.unstage := by
  have hstaging := releaseStaging_does h
  have hhost := releaseHost_does hstaging.ends
  simp only [unstageLocked, Entry.unstage, hstaging.ends.entry, Entry.releaseStaging]
  split
  next =>
    exact hstaging.trans (hhost.trans (transition_does hhost.ends (by
      simp only [Entry.releaseHost, hstate]
      rfl)))
  next => exact hstaging

theorem unstage_indexedAt (hstate : entry.state = .ramReady) (hwaiters : entry.waiters = [])
    (hindexed : core.IndexedAt key) : (core.unstageLocked key).IndexedAt key := by
  have hstaging := releaseStaging_does h
  have hhost := releaseHost_does hstaging.ends
  simp only [unstageLocked]
  split
  next =>
    exact transition_indexedAt hhost.ends (by
      simp only [Entry.releaseHost, Entry.releaseStaging, hstate]
      rfl)
  next =>
    refine hindexed.of_ready_iff rfl rfl fun priority => ?_
    rw [hstaging.ends.entry, h.entry]
    simp [ReadReady, UploadReady, Entry.releaseStaging, hstate, hwaiters]

theorem abandonIfIdle_does : Does key core (core.abandonIfIdle key) entry.abandonedIfIdle := by
  have hmark : Does key core (core.modify key ({ · with abandon := true }))
      { entry with abandon := true } := modify_does h rfl
  simp only [abandonIfIdle, Entry.abandonedIfIdle, h.entry, hmark.ends.entry]
  split
  next => exact .refl h
  next =>
    split
    next hready =>
      simp only [Bool.and_eq_true, decide_eq_true_eq] at hready
      have hunstage := unstage_does hmark.ends hready.1
      have hclear := @modify_does _ key _ ({ · with abandon := false }) hunstage.ends rfl
      refine hmark.trans (hunstage.trans ?_)
      convert hclear using 1
      simp only [Entry.unstage, Entry.releaseHost, Entry.releaseStaging]
      split <;> rfl
    next => exact hmark

theorem withdrawn_does {change : Entry → Entry}
    (hfootprint : (change entry).footprint = entry.footprint) :
    Does key core (((core.modify key change).abandonIfIdle key).refreshTaskIndexesLocked key)
      (change entry).abandonedIfIdle := by
  have hremoved := modify_does h hfootprint
  have hidle := hremoved.trans (abandonIfIdle_does hremoved.ends)
  exact ⟨hidle.toSilent.trans refresh_silent, hidle.ends.mem, hidle.ends.entry⟩

theorem quarantine_does : Does key core (core.quarantine key) (entry.enter .failed) := by
  simp only [quarantine, h.entry]
  split
  next hne => exact transition_does h (by simpa [validCacheTransition] using hne)
  next heq =>
    have hsame : entry.enter .failed = entry := by simp only [Entry.enter, ← not_not.1 heq]
    rw [hsame]
    exact .refl h

theorem release_does (hdevice : entry.device = none) :
    Does key core ((core.releaseHostLocked key).releaseDeviceLocked key false)
      entry.releaseHost.releaseDevice := by
  have hhost := releaseHost_does h
  exact hhost.trans (releaseDevice_does hhost.ends (by
    simp [referenced, Entry.releaseHost, hdevice]) (.inl hdevice))

end

section

variable (hkey : key ∈ core.entries.keys)
include hkey

variable {id : WaiterId}

theorem withdraw_moves (hwaiter : (core.entry key).waiters.any (·.id = id)) :
    Moves key (.withdraw id) core
      ((((core.answer id cancelledStatus).modify key (·.withoutWaiter id)).abandonIfIdle
        key).refreshTaskIndexesLocked key) :=
  have hentry : (core.answer id cancelledStatus).HasEntry key (core.entry key) := ⟨hkey, rfl⟩
  Does.moves (withdrawn_does hentry rfl) hwaiter (fun _ => refresh_indexedAt) device_abandonedIfIdle
    rfl rfl rfl trivial

theorem withdrawHost_moves (hwaiter : (core.entry key).hostWaiters.any (·.id = id)) :
    Moves key (.withdrawHost id) core
      ((((core.answer id preloadCancelledStatus).modify key
        (·.withoutHostWaiter id)).abandonIfIdle key).refreshTaskIndexesLocked key) :=
  have hentry : (core.answer id preloadCancelledStatus).HasEntry key (core.entry key) := ⟨hkey, rfl⟩
  Does.moves (withdrawn_does hentry rfl) hwaiter (fun _ => refresh_indexedAt) device_abandonedIfIdle
    rfl rfl rfl trivial

theorem failEntry_moves {status : Status} (hdevice : (core.entry key).device = none)
    (henabled : (core.entry key).Enabled core.config (.fail status)) :
    Moves key (.fail status) core (core.failEntryLocked key status) := by
  have hlogged : Keeps key core (core.logFailure key status) := journal_keeps
  have hfailed := @quarantine_does (core.logFailure key status) key _ ⟨hkey, rfl⟩
  have hwaiters : Moves key (.clear status) ((core.logFailure key status).quarantine key)
      (((core.logFailure key status).quarantine key).failWaitersLocked key status) :=
    failWaiters_moves hfailed.ends.mem
  have hanswered : Keeps key ((core.logFailure key status).quarantine key)
      (((core.logFailure key status).quarantine key).failWaitersLocked key status) :=
    ⟨hwaiters.toLocal, fun account => hwaiters.drift account trivial⟩
  have hcleared : HasEntry (((core.logFailure key status).quarantine key).failWaitersLocked key
      status) key ((core.entry key).enter .failed).withoutWaiters := by
    refine ⟨hanswered.keys.symm ▸ hfailed.ends.mem, ?_⟩
    rw [hwaiters.entry, hfailed.ends.entry]
    rfl
  have hreleased := release_does hcleared hdevice
  have hquiet : Does key
      (((core.logFailure key status).quarantine key).failWaitersLocked key status)
      (core.failEntryLocked key status) (core.entry key).failed :=
    hreleased.trans (modify_does hreleased.ends rfl)
  refine (hlogged.trans (hfailed.toKeeps.trans (hanswered.trans hquiet.toKeeps))).moves hkey
    henabled hquiet.ends.entry (fun _ => ?_) (fun _ _ hsome => ?_) ?_ ?_ trivial
  · have hindexed : (((core.logFailure key status).quarantine key).failWaitersLocked key
        status).IndexedAt key := refresh_indexedAt
    refine hindexed.of_idle rfl rfl ?_ ?_
    · rw [hcleared.entry]
      rfl
    · rw [hquiet.ends.entry]
      rfl
  · rw [hquiet.ends.entry] at hsome
    exact absurd hsome (by simp [failed, releaseDevice, withoutOperations])
  · rw [hquiet.journal, hwaiters.journal, hfailed.journal, hfailed.ends.entry]
    rfl
  · rw [hquiet.queue, hwaiters.queue, hfailed.queue]
    rfl

theorem abandonLoad_moves (hdevice : (core.entry key).device = none)
    (henabled : (core.entry key).Enabled core.config .abandonLoad) :
    Moves key .abandonLoad core (core.abandonLoad key) := by
  have hvalid : validCacheTransition (core.entry key).state .absent := by
    rw [henabled.1]
    rfl
  have htransition := transition_does ⟨hkey, rfl⟩ hvalid
  have hreleased : Does key _ (core.abandonLoad key) (core.entry key).loadAbandoned :=
    release_does htransition.ends hdevice
  refine Does.moves (htransition.trans hreleased) henabled (fun _ => ?_) nofun rfl rfl rfl trivial
  refine (transition_indexedAt ⟨hkey, rfl⟩ hvalid).of_ready_iff rfl rfl fun priority => ?_
  rw [hreleased.ends.entry, htransition.ends.entry]
  exact ⟨Iff.rfl, by simp [UploadReady, loadAbandoned, enter, Entry.releaseHost,
    Entry.releaseDevice]⟩

end

section

variable (hkey : key ∈ core.entries.keys)
include hkey

variable {lease : PoolLease} {buffers : FixedBufferPool} {bytes : UInt64}

theorem stage_does {allocationClass : BufferPoolClass}
    (hacquired : core.buffers.tryAcquire bytes allocationClass = some (lease, buffers))
    (hnone : (core.entry key).host = none) :
    Does key core (core.stage key lease buffers) ((core.entry key).stage lease) := by
  have hothers : ∀ other, other ≠ key →
      (core.stage key lease buffers).entry other = core.entry other :=
    fun other hother => @entry_modify_ne core key other (·.stage lease) hother
  have hself : (core.stage key lease buffers).entry key = (core.entry key).stage lease :=
    @entry_modify_self core key (·.stage lease) hkey
  refine ⟨⟨⟨⟨rfl, hothers, ?_, ?_, fun h => ⟨h.fault, h.transitions⟩, fun _ _ => Iff.rfl, rfl, rfl,
    rfl, FixedBufferPool.shape_tryAcquire hacquired, ?_⟩, ?_⟩, rfl, rfl, rfl⟩, hkey, hself⟩
  · exact Local.indexed_of_eq hothers (fun _ _ _ => Iff.rfl) (fun _ _ _ => Iff.rfl)
  · intro h slot hused
    rcases FixedBufferPool.tryAcquire_slots hacquired hused with hbefore | hslot
    · obtain ⟨owner, held, howner, hslot⟩ := h slot hbefore
      have hne : owner ≠ key := by
        rintro rfl
        rw [hnone] at howner
        cases howner
      exact ⟨owner, held, by rw [hothers owner hne, howner], hslot⟩
    · exact ⟨key, lease, by rw [hself]; rfl, hslot⟩
  · exact fun h => h.acquire hkey rfl hothers hnone hacquired (congrArg Entry.host hself)
  · intro account
    refine drift_of_charge_eq hkey rfl rfl hothers rfl ?_
    rw [hself]
    cases account <;> rfl

theorem admitted_moves {admitted : Option Bool} {next : CacheState} {start : Core}
    {move : Move} (hstart : Silent key start core)
    (henabled : (start.entry key).Enabled start.config move)
    (hvalid : validCacheTransition (core.entry key).state next)
    (hmoved : ((core.entry key).reserveAdmitted bytes admitted).enter next =
      (start.entry key).moved start.config move)
    (hdevice : (core.entry key).device = none) (hjournal : start.journal =
      start.journal.logged key (start.entry key) move) (hqueue : move.queued key = [])
    (hlevel : ∀ account, move.Level (start.entry key) account → ∀ resident,
      admitted = some resident → (core.entry key).vramReserved = 0 ∨
        (core.entry key).vramResident = resident ∨ account = .ram ∨ account = .vram ∨
          account.referenced)
    (hfits : move.Fits start (start.entry key).record) (hstarted : key ∈ start.entries.keys) :
    Moves key move start
      ((core.reserveAdmitted key bytes admitted).transitionLocked key next) := by
  obtain ⟨hlocal, hentry, hsame, hshown, hqueued⟩ :=
    @reserveAdmitted_spec core key bytes hkey admitted
  have hreserved : (core.reserveAdmitted key bytes admitted).HasEntry key
      ((core.entry key).reserveAdmitted bytes admitted) := ⟨hlocal.keys ▸ hkey, hentry⟩
  have hvalid1 : validCacheTransition ((core.entry key).reserveAdmitted bytes admitted).state
      next := by
    cases admitted <;> exact hvalid
  have htransition := transition_does hreserved hvalid1
  exact
    { (hstart.toLocal.trans hlocal).trans htransition.toLocal with
      key_mem := hstarted
      enabled := henabled
      entry := htransition.ends.entry.trans hmoved
      indexed_self := fun _ => transition_indexedAt hreserved hvalid1
      shown := by
        intro _ _ hsome
        have hnone : (((core.entry key).reserveAdmitted bytes admitted).enter next).device =
            none := by
          cases admitted <;> exact hdevice
        rw [htransition.ends.entry, hnone] at hsome
        cases hsome
      journal := by rw [htransition.journal, hsame, hstart.journal, ← hjournal]
      queue := by rw [htransition.queue, hqueued, hstart.queue, hqueue, append_nil]
      drift := by
        intro account hallowed
        rw [htransition.drift, ← hstart.drift]
        cases hadmitted : admitted with
        | none => rfl
        | some resident =>
          exact reserveVram_drift hkey hdevice (hlevel account hallowed resident hadmitted)
      fits := hfits }

end

theorem startUpload_moves {reserved : Option Bool} (hkey : key ∈ core.entries.keys)
    (hok : EntryOk core.config (core.entry key))
    (henabled : (core.entry key).Enabled core.config (.startUpload reserved))
    (hfits : (Move.startUpload reserved).Fits core (core.entry key).record) :
    Moves key (.startUpload reserved) core (core.startUpload key reserved) := by
  obtain ⟨hstate, hwaiters, hreserved⟩ := henabled
  refine admitted_moves hkey .refl ⟨hstate, hwaiters, hreserved⟩ (by rw [hstate]; rfl) rfl ?_ rfl
    rfl ?_ hfits hkey
  · have := hok.device_iff
    rw [hstate] at this
    simpa using this
  · intro account _ resident hsome
    exact Or.inl (hreserved.1 (by simp [hsome]))

theorem startLoad_moves {bytes : UInt64} {allocationClass : BufferPoolClass} {lease : PoolLease}
    {buffers : FixedBufferPool} {admitted : Option Bool} (hkey : key ∈ core.entries.keys)
    (hacquired : core.buffers.tryAcquire bytes allocationClass = some (lease, buffers))
    (hok : EntryOk core.config (core.entry key))
    (henabled : (core.entry key).Enabled core.config (.startLoad lease admitted))
    (hfits : (Move.startLoad lease admitted).Fits core (core.entry key).record) :
    Moves key (.startLoad lease admitted) core (core.startLoad key lease buffers admitted) := by
  have habsent : (core.entry key).state = .absent := henabled.1
  have hhost : (core.entry key).host = none := by
    have := hok.staged
    rw [habsent] at this
    simpa using this
  have hcopy : (core.entry key).hostCopy = none := by
    have := hok.copied
    rw [habsent] at this
    simpa using this
  have hdevice : (core.entry key).device = none := by
    have := hok.device_iff
    rw [habsent] at this
    simpa using this
  have hram : (core.entry key).ramReserved = 0 :=
    hok.unreserved (by simp [hasHostBytes, hhost, hcopy])
  have hstage := stage_does hkey hacquired hhost
  have hreserve := hstage.trans (@reserveRam_does _ key _ (core.entry key).record.storedBytes
    (core.entry key).ramProtectedRequested hstage.ends hram)
  have hreserved := hreserve.ends.entry
  refine admitted_moves hreserve.ends.mem hreserve.toSilent henabled ?_ ?_ ?_ rfl rfl ?_ hfits hkey
  · rw [hreserved]
    simp only [reserveRam, Entry.stage, habsent]
    rfl
  · rw [hreserved]
    rfl
  · rw [hreserved]
    exact hdevice
  · intro account hallowed resident hsome
    rw [hreserved]
    subst hsome
    exact hallowed

section

variable (hkey : key ∈ core.entries.keys)
include hkey

theorem setPreparing_indexedAt {preparing : Bool} (h : core.IndexedAt key) :
    (core.modify key (·.setPreparing preparing)).IndexedAt key := by
  refine h.of_ready_iff rfl rfl fun priority => ?_
  rw [entry_modify_self hkey]
  exact ⟨Iff.rfl, Iff.rfl⟩

theorem queuePreparation_moves (henabled : (core.entry key).Enabled core.config .queue) :
    Moves key .queue core (core.queuePreparation key) := by
  have hset : Does key core (core.modify key (·.setPreparing true))
      ((core.entry key).setPreparing true) := modify_does ⟨hkey, rfl⟩ rfl
  have hqueued : Keeps key (core.modify key (·.setPreparing true)) (core.queuePreparation key) :=
    outside_keeps fun _ _ => Iff.rfl
  have hentry : (core.queuePreparation key).entry key = (core.entry key).setPreparing true :=
    hset.ends.entry
  refine (hset.toKeeps.trans hqueued).moves hkey henabled hentry (setPreparing_indexedAt hkey)
    (shown_of_eq rfl ?_) rfl rfl trivial
  rw [hentry]
  exact id

theorem unqueue_moves (henabled : (core.entry key).Enabled core.config .unqueue) :
    Moves key .unqueue core (core.modify key (·.setPreparing false)) :=
  Does.moves (modify_does ⟨hkey, rfl⟩ rfl) henabled (setPreparing_indexedAt hkey) id rfl rfl rfl trivial

theorem storePrepared_moves {admission : ExpertAdmission} {retained : Option ImmutableHostBuffer}
    (henabled : (core.entry key).Enabled core.config (.store admission retained)) :
    Moves key (.store admission retained) core (core.storePrepared key admission retained) := by
  have hstored : Does key core (core.modify key (·.store admission retained))
      ((core.entry key).store admission retained) := modify_does ⟨hkey, rfl⟩ rfl
  have hvalid : validCacheTransition ((core.entry key).store admission retained).state
      .ramReady := by
    simp only [store, henabled.1]
    rfl
  exact Does.moves (hstored.trans (transition_does hstored.ends hvalid)) henabled
    (fun _ => transition_indexedAt hstored.ends hvalid) id rfl rfl rfl trivial

theorem satisfyHostWaiters_spec :
    Keeps key core (core.satisfyHostWaitersLocked key) ∧
      (core.satisfyHostWaitersLocked key).entry key = (core.entry key).hostSatisfied ∧
      (core.IndexedAt key → (core.satisfyHostWaitersLocked key).IndexedAt key) ∧
      (core.satisfyHostWaitersLocked key).journal =
        core.journal.logged key (core.entry key) .settle ∧
      (core.satisfyHostWaitersLocked key).published = core.published ∧
      (core.satisfyHostWaitersLocked key).hostPrepareQueue = core.hostPrepareQueue := by
  simp only [satisfyHostWaitersLocked, Journal.logged, Entry.hostSatisfied]
  cases hcopy : (core.entry key).hostCopy with
  | none => exact ⟨.refl, rfl, id, rfl, rfl, rfl⟩
  | some copy =>
    cases hvalidated : (core.entry key).validatedSections with
    | none => exact ⟨.refl, rfl, id, rfl, rfl, rfl⟩
    | some sections =>
      obtain ⟨hkeeps, hentry, hjournal, hpublished, hqueue⟩ := foldl_fulfil HostWaiter.id
        (fun waiter => if waiter.options.acquireLease then some (.host copy) else none)
        (core.entry key).hostWaiters hkey
      have hkey1 := hkeeps.keys.symm ▸ hkey
      have hcleared := @reindexed_does _ key _ Entry.withoutHostWaiters ⟨hkey1, hentry⟩ rfl
      refine ⟨hkeeps.trans hcleared.toKeeps, hcleared.ends.entry.trans ?_,
        fun _ => refresh_indexedAt, hjournal, hpublished, hqueue⟩
      have hleases : ((core.entry key).hostWaiters.filter fun waiter =>
          (if waiter.options.acquireLease then some (Grant.host copy) else none).isSome) =
          (core.entry key).hostWaiters.filter (·.options.acquireLease) :=
        filter_congr fun waiter _ => by cases waiter.options.acquireLease <;> rfl
      rw [hleases]
      rfl

theorem settlePrepared_moves (henabled : (core.entry key).Enabled core.config .settle) :
    Moves key .settle core (core.settlePrepared key) := by
  obtain ⟨hkeeps, hentry, hindexed, hjournal, hpublished, hqueue⟩ := satisfyHostWaiters_spec hkey
  have hsatisfied : (core.satisfyHostWaitersLocked key).HasEntry key (core.entry key).hostSatisfied :=
    ⟨hkeeps.keys.symm ▸ hkey, hentry⟩
  have hstate : (core.entry key).hostSatisfied.state = .ramReady := by
    rw [hostSatisfied]
    split <;> exact henabled
  have hdevice : (core.entry key).settled.device = (core.entry key).device := by
    simp only [settled, hostSatisfied]
    split_ifs <;> first | exact device_unstage | rfl
  have hquiet : Does key (core.satisfyHostWaitersLocked key) (core.settlePrepared key)
      (core.entry key).settled ∧ (core.IndexedAt key → (core.settlePrepared key).IndexedAt key) := by
    simp only [settlePrepared, settled, hentry]
    split
    next hwaiters =>
      exact ⟨unstage_does hsatisfied hstate, fun h =>
        unstage_indexedAt hsatisfied hstate (isEmpty_iff.1 hwaiters) (hindexed h)⟩
    next => exact ⟨.refl hsatisfied, hindexed⟩
  obtain ⟨hquiet, hindexed⟩ := hquiet
  refine (hkeeps.trans hquiet.toKeeps).moves hkey henabled hquiet.ends.entry hindexed
    (shown_of_eq (hquiet.shown.trans hpublished) ?_) (hquiet.journal.trans hjournal)
    ((hquiet.queue.trans hqueue).trans (append_nil _).symm) trivial
  rw [hquiet.ends.entry, hdevice]
  exact id

end

section

variable (hkey : key ∈ core.entries.keys)
include hkey

theorem abandonUpload_moves (hdevice : (core.entry key).device = none)
    (henabled : (core.entry key).Enabled core.config .abandonUpload) :
    Moves key .abandonUpload core
      (((core.transitionLocked key .ramReady).releaseDeviceLocked key false).unstageLocked key) := by
  have hvalid : validCacheTransition (core.entry key).state .ramReady := by
    rw [henabled.1]
    rfl
  have htransition := transition_does ⟨hkey, rfl⟩ hvalid
  have hrelease := @releaseDevice_does _ key _ false htransition.ends
    (by simp [referenced, enter, hdevice]) (.inl hdevice)
  have hunstage := unstage_does hrelease.ends rfl
  refine Does.moves (htransition.trans (hrelease.trans hunstage)) henabled (fun _ => ?_) ?_ rfl rfl
    rfl trivial
  · refine unstage_indexedAt hrelease.ends rfl henabled.2
      ((transition_indexedAt ⟨hkey, rfl⟩ hvalid).of_ready_iff rfl rfl fun priority => ?_)
    rw [hrelease.ends.entry, htransition.ends.entry]
    exact ⟨Iff.rfl, Iff.rfl⟩
  · rw [device_unstage]
    intro hempty
    cases hempty

theorem shrinkVram_moves {bytes : UInt64} (hdevice : (core.entry key).device = none)
    (henabled : (core.entry key).Enabled core.config (.shrink bytes)) :
    Moves key (.shrink bytes) core (core.shrinkVram key bytes) := by
  by_cases hlt : bytes < (core.entry key).vramReserved
  · have hshrunk : core.shrinkVram key bytes =
        { core.modify key (·.setVramReserved bytes) with
          counters := core.counters.dischargeVram (core.partitionFor key)
            ((core.entry key).vramReserved - bytes) (core.entry key).vramResident } := by
      simp only [shrinkVram, hlt, if_true]
    have hentry : (core.shrinkVram key bytes).entry key =
        (core.entry key).setVramReserved bytes := by
      rw [hshrunk]
      rw [entry_modify_self hkey]
    have hkeeps : Keeps key core (core.shrinkVram key bytes) := by
      rw [hshrunk]
      refine recount_keeps hkey rfl (fun _ _ => Iff.rfl) fun account => ?_
      rcases account with _ | ⟨_ | _⟩ | partition | _ | ⟨_ | _⟩ | partition | _ | _ | _ <;>
        grind [Counters.balance, Entry.charge, Entry.referenced, Counters.dischargeVram,
          setVramReserved]
    refine hkeeps.moves hkey henabled hentry (fun h => ?_) (shown_of_eq ?_ ?_) ?_ ?_ trivial
    · refine h.of_ready_iff ?_ ?_ fun priority => ?_
      · rw [hshrunk]; rfl
      · rw [hshrunk]; rfl
      · rw [hentry]
        exact ⟨Iff.rfl, Iff.rfl⟩
    · rw [hshrunk]; rfl
    · rw [hentry]
      exact id
    · rw [hshrunk]; rfl
    · rw [hshrunk]
      exact (append_nil _).symm
  · have hsame : core.shrinkVram key bytes = core := by
      simp only [shrinkVram, hlt, if_false]
    have hbytes : bytes = (core.entry key).vramReserved :=
      UInt64.le_antisymm henabled.2 (UInt64.not_lt.1 hlt)
    rw [hsame]
    exact Keeps.refl.moves hkey henabled (by rw [hbytes]; rfl) id (shown_of_eq rfl id) rfl
      (append_nil _).symm trivial

omit hkey in
theorem publish_keeps : Keeps key core (core.publish key) :=
  outside_keeps fun other hother => by split_ifs <;> simp [hother]

theorem satisfyReadyWaiters_spec :
    Keeps key core (core.satisfyReadyWaitersLocked key) ∧
      (core.satisfyReadyWaitersLocked key).entry key =
        ((core.entry key).addReferences (core.entry key).waiters.length).withoutDeviceWaiters ∧
      (core.satisfyReadyWaitersLocked key).IndexedAt key ∧
      (core.satisfyReadyWaitersLocked key).journal =
        { core.journal.fulfilled key Waiter.id
            (fun _ => some (.device (core.entry key).device)) (core.entry key).waiters with
          reentered := core.journal.reentered ++
            ((core.entry key).waiters.map (·.id)).filter (· ∈ core.journal.dropped) } ∧
      (core.satisfyReadyWaitersLocked key).published = core.published ∧
      (core.satisfyReadyWaitersLocked key).hostPrepareQueue = core.hostPrepareQueue := by
  obtain ⟨hkeeps, hentry, hjournal, hpublished, hqueue⟩ := foldl_fulfil Waiter.id
    (fun _ => some (.device (core.entry key).device)) (core.entry key).waiters hkey
  have hkey1 := hkeeps.keys.symm ▸ hkey
  have hcleared := @modify_does _ key _ Entry.withoutDeviceWaiters ⟨hkey1, hentry⟩ rfl
  refine ⟨hkeeps.trans (hcleared.toKeeps.trans (journal_keeps.trans refresh_silent.toKeeps)),
    hcleared.ends.entry.trans ?_, refresh_indexedAt, ?_, hpublished, hqueue⟩
  · simp
  · simp only [satisfyReadyWaitersLocked, refreshTaskIndexesLocked, hjournal]
    rfl

omit hkey in
theorem releaseUploadSource_does {entry : Entry} (h : core.HasEntry key entry) :
    Does key core (core.releaseUploadSource key)
      (entry.releaseUploadSource core.config.retainHostCopy) := by
  simp only [releaseUploadSource, Entry.releaseUploadSource, h.entry]
  split
  next => exact releaseHost_does h
  next => exact releaseStaging_does h

theorem setDevice_drift {allocation : DeviceAllocation} {account : Account}
    (hlevel : (Move.finishUpload allocation).Level (core.entry key) account) :
    (core.modify key (·.setDevice allocation)).drift account = core.drift account := by
  refine drift_of_charge_eq hkey rfl rfl (fun _ hother => entry_modify_ne hother) rfl ?_
  rw [entry_modify_self hkey]
  rcases hlevel with hzero | hfree
  · cases account <;> simp [charge, referenced, setDevice, hzero]
  · cases account <;> first | rfl | cases hfree

theorem finishUpload_moves {allocation : DeviceAllocation}
    (henabled : (core.entry key).Enabled core.config (.finishUpload allocation)) :
    Moves key (.finishUpload allocation) core ((core.publish key).finishUpload key allocation) := by
  have hpublish := @publish_keeps core key
  have hkey0 : key ∈ (core.publish key).entries.keys := hkey
  have hset : Local key (core.publish key)
      ((core.publish key).modify key (·.setDevice allocation)) := modify_local hkey0 rfl
  have harrived : ((core.publish key).modify key (·.setDevice allocation)).HasEntry key
      ((core.entry key).setDevice allocation) := ⟨hkey, entry_modify_self hkey0⟩
  have hvalid : validCacheTransition ((core.entry key).setDevice allocation).state .vramReady := by
    simp only [setDevice, henabled.1]
    rfl
  have htransition := transition_does harrived hvalid
  have hrelease := releaseUploadSource_does htransition.ends
  have hsilent := htransition.trans hrelease
  have hreleased := hrelease.ends.entry
  rw [htransition.config] at hreleased
  obtain ⟨hkeeps, hentry, hindexed, hjournal, hpublished, hqueue⟩ :=
    satisfyReadyWaiters_spec hrelease.ends.mem
  have hwaiters : ((((core.entry key).setDevice allocation).enter .vramReady).releaseUploadSource
      core.config.retainHostCopy).waiters = (core.entry key).waiters := by
    unfold Entry.releaseUploadSource
    split <;> rfl
  have hdevice : ((((core.entry key).setDevice allocation).enter .vramReady).releaseUploadSource
      core.config.retainHostCopy).device = some allocation := by
    unfold Entry.releaseUploadSource
    split <;> rfl
  have hconfig : ((core.publish key).modify key (·.setDevice allocation)).config = core.config :=
    rfl
  rw [hconfig] at hreleased
  rw [hreleased, hwaiters] at hentry
  rw [hreleased, hwaiters, hdevice, hsilent.journal] at hjournal
  exact
    { (hpublish.toLocal.trans hset).trans (hsilent.toLocal.trans hkeeps.toLocal) with
      key_mem := hkey
      enabled := henabled
      entry := hentry
      indexed_self := fun _ => hindexed
      shown := by
        intro hdirectory _ _
        show key ∈ (Core.satisfyReadyWaitersLocked _ key).published
        rw [hpublished, hsilent.shown]
        show key ∈ (core.publish key).published
        simp [publish, hdirectory]
      journal := hjournal
      queue := by
        show (Core.satisfyReadyWaitersLocked _ key).hostPrepareQueue = _
        rw [hqueue, hsilent.queue]
        exact (append_nil _).symm
      drift := by
        intro account hlevel
        have harrived := @setDevice_drift (core.publish key) key hkey0 _ _ hlevel
        exact ((hkeeps.drift account).trans (hsilent.drift account)).trans
          (harrived.trans (hpublish.drift account))
      fits := trivial }

end

section

variable {entry : Entry}

/-- What a stage of an eviction does: nobody sees it, and the entry stays idle. -/
structure Stage (key : ExpertKey) (core core' : Core) (after : Entry) : Prop
    extends Does key core core' after where
  idle : core.IndexedAt key → core'.IndexedAt key

theorem Stage.refl (h : core.HasEntry key entry) : Stage key core core entry := ⟨.refl h, id⟩

theorem Stage.trans {middle : Core} {between after : Entry} (first : Stage key core middle between)
    (second : Stage key middle core' after) : Stage key core core' after :=
  ⟨first.toDoes.trans second.toDoes, fun hindexed => second.idle (first.idle hindexed)⟩

section

variable (h : core.HasEntry key entry)
include h

theorem Does.stage {after : Entry} (hdoes : Does key core core' after)
    (hidle : entry.hasWaiters = false) (hidle' : after.hasWaiters = false)
    (hread : core'.readTaskKeys = core.readTaskKeys)
    (hupload : core'.uploadTaskKeys = core.uploadTaskKeys) : Stage key core core' after :=
  ⟨hdoes, fun hindexed => hindexed.of_idle hread hupload (h.entry ▸ hidle)
    (hdoes.ends.entry ▸ hidle')⟩

theorem transition_stage {next : CacheState} (hvalid : validCacheTransition entry.state next) :
    Stage key core (core.transitionLocked key next) (entry.enter next) :=
  ⟨transition_does h hvalid, fun _ => transition_indexedAt h hvalid⟩

theorem evictHost_stage {needRam : Bool} (hidle : entry.hasWaiters = false) :
    Stage key core (core.evictHost key needRam) (entry.evictHost needRam) := by
  simp only [Core.evictHost, Entry.evictHost, h.entry]
  split
  next => exact Does.stage h (releaseHost_does h) hidle hidle rfl rfl
  next => exact .refl h

theorem evictDevice_stage {needVram : Bool} (hidle : entry.hasWaiters = false)
    (hfree : entry.referenced = false) :
    Stage key core (core.evictDevice key needVram) (entry.evictDevice needVram) := by
  have hrelease : Stage key core (core.releaseDeviceLocked key true) entry.releaseDevice :=
    Does.stage h (releaseDevice_does h hfree (.inr rfl)) hidle hidle rfl rfl
  simp only [Core.evictDevice, Entry.evictDevice, h.entry, hrelease.ends.entry]
  split
  next =>
    split
    next hready =>
      refine hrelease.trans (transition_stage hrelease.ends ?_)
      rw [hready]
      split <;> rfl
    next => exact hrelease
  next => exact .refl h

theorem evictEmpty_stage : Stage key core (core.evictEmpty key) entry.evictEmpty := by
  simp only [Core.evictEmpty, Entry.evictEmpty, h.entry]
  split
  next hempty =>
    refine transition_stage h ?_
    simp only [Bool.and_eq_true, decide_eq_true_eq] at hempty
    rw [hempty.1]
    rfl
  next => exact .refl h

end

variable {needRam : Bool}

theorem hasWaiters_evictHost :
    (entry.evictHost needRam).hasWaiters = entry.hasWaiters := by
  unfold Entry.evictHost
  split <;> rfl

theorem referenced_evictHost :
    (entry.evictHost needRam).referenced = entry.referenced := by
  unfold Entry.evictHost
  split <;> rfl

theorem device_evicted {needVram : Bool} (h : (entry.evicted needRam needVram).device.isSome) :
    needVram = false ∧ entry.device.isSome := by
  have hhost : (entry.evictHost needRam).device = entry.device := by
    unfold Entry.evictHost
    split <;> rfl
  have hempty : (entry.evicted needRam needVram).device =
      ((entry.evictHost needRam).evictDevice needVram).device := by
    unfold Entry.evicted Entry.evictEmpty
    split <;> rfl
  rw [hempty] at h
  unfold Entry.evictDevice at h
  rw [hhost] at h
  split at h
  next => split at h <;> cases h
  next hskip =>
    rw [hhost] at h
    simp only [h, Bool.and_true, Bool.not_eq_true] at hskip
    exact ⟨hskip, h⟩

theorem evictVictim_moves {needRam needVram : Bool} (hkey : key ∈ core.entries.keys)
    (henabled : (core.entry key).Enabled core.config (.evict needRam needVram)) :
    Moves key (.evict needRam needVram) core (core.evictVictim key needRam needVram) := by
  have hidle : (core.entry key).hasWaiters = false := by
    have := henabled.1
    simp only [evictable, Bool.and_eq_true, Bool.not_eq_true'] at this
    tauto
  have hfree : (core.entry key).referenced = false := by
    have := henabled.1
    grind [evictable, referenced]
  simp only [evictVictim]
  generalize hretired : (if needVram && (core.entry key).device.isSome &&
    core.directory.isSome then core.published.filter (· ≠ key) else core.published) = published
  have hshown : Keeps key core { core with published } := by
    refine outside_keeps fun other hother => ?_
    rw [← hretired]
    split_ifs <;> simp [hother]
  have hunhost := @evictHost_stage { core with published } key _ ⟨hkey, rfl⟩ needRam hidle
  have hundevice := @evictDevice_stage _ key _ hunhost.ends needVram
    (by rw [hasWaiters_evictHost]; exact hidle) (by rw [referenced_evictHost]; exact hfree)
  have hstage := hunhost.trans (hundevice.trans (evictEmpty_stage hundevice.ends))
  refine (hshown.trans hstage.toKeeps).moves hkey henabled hstage.ends.entry hstage.idle
    (fun _ hpublished hsome => ?_) hstage.journal (hstage.queue.trans (append_nil _).symm)
    trivial
  rw [hstage.shown, ← hretired]
  rw [hstage.ends.entry] at hsome
  obtain ⟨hkeep, hdevice⟩ := device_evicted hsome
  simpa [hkeep] using hpublished hdevice

end

section

variable (hkey : key ∈ core.entries.keys)
include hkey

theorem grantLease_moves {id : WaiterId} {grant : Grant}
    (henabled : (core.entry key).Enabled core.config (.grant id grant)) :
    Moves key (.grant id grant) core (core.grantLease key id grant) := by
  have hentry : (core.grantLease key id grant).entry key = (core.entry key).addReferences 1 :=
    entry_addReference hkey
  refine (grantLease_keeps hkey).moves hkey henabled hentry (fun h => ?_) (shown_of_eq rfl ?_) rfl
    (append_nil _).symm trivial
  · refine h.of_ready_iff rfl rfl fun priority => ?_
    rw [hentry]
    exact ⟨Iff.rfl, Iff.rfl⟩
  · rw [hentry]
    exact fun hdevice => hdevice

theorem removeReference_moves (henabled : (core.entry key).Enabled core.config .release) :
    Moves key .release core (core.removeReferenceLocked key) := by
  have hentry := entry_removeReference hkey
  refine (removeReference_keeps hkey).moves hkey henabled hentry (fun h => ?_) (shown_of_eq rfl ?_)
    rfl (append_nil _).symm trivial
  · refine h.of_ready_iff rfl rfl fun priority => ?_
    rw [hentry]
    exact ⟨Iff.rfl, Iff.rfl⟩
  · rw [hentry]
    exact id

end

end Core

end QuantumLlm.Runtime
