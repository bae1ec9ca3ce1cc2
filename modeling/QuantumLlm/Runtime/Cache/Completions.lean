import QuantumLlm.Runtime.Cache.Selection

/-!
# Expert cache: completions

What a storage completion, an upload completion and the host worker do to the
entry they report for, branch by branch.
-/

namespace QuantumLlm.Runtime

namespace Core

open Entry

variable {core core' : Core} {key : ExpertKey}

theorem entry_of_not_mem (hkey : key ∉ core.entries.keys) : core.entry key = {} :=
  core.entries.get_of_not_mem key hkey

theorem mem_of_state {state : CacheState} (hstate : (core.entry key).state = state)
    (hne : state ≠ .absent) : key ∈ core.entries.keys := by
  by_contra hkey
  rw [entry_of_not_mem hkey] at hstate
  exact hne hstate.symm

theorem Sound.device_none (hsound : core.Sound) (h : (core.entry key).state ≠ .vramReady) :
    (core.entry key).device = none := by
  have hiff := (hsound.ok key).device_iff
  simpa [h] using hiff

theorem Trace.spare_body (h : Trace (Spare (some key)) core core') :
    (core'.entry key).body = (core.entry key).body := by
  induction h with
  | refl => rfl
  | tail _ hallowed hact ih =>
    refine Eq.trans ?_ ih
    rcases hallowed with rfl | ⟨victim, needRam, needVram, rfl, hne⟩
    · exact Noted.body hact key
    · rw [hact.others key fun heq => hne (by rw [heq])]

theorem revived_of_not_abandoned {entry : Entry} (h : entry.abandon = false) :
    { entry with abandon := false } = entry := by
  cases entry
  cases h
  rfl

theorem operation_noted {io upload : Entry → OperationId} (hkey : key ∈ core.entries.keys) :
    Noted core (core.modify key fun entry =>
      { entry with ioOperation := io entry, uploadOperation := upload entry }) :=
  modify_noted hkey rfl rfl

theorem recordRead_noted {operation : OperationId} :
    Noted core (core.recordRead key operation).2 := by
  simp only [recordRead]
  split
  next hstate =>
    exact @operation_noted core key (fun _ => operation) Entry.uploadOperation
      (mem_of_state hstate (by simp))
  next => exact .refl

theorem recordUpload_noted {operation : OperationId} :
    Noted core (core.recordUpload key operation).2 := by
  simp only [recordUpload]
  split
  next hstate =>
    exact @operation_noted core key Entry.ioOperation (fun _ => operation)
      (mem_of_state hstate (by simp))
  next => exact .refl

theorem forgotten {io upload : Entry → OperationId} (hkey : key ∈ core.entries.keys)
    (hsound : core.Sound) :
    let middle := core.modify key fun entry =>
      { entry with ioOperation := io entry, uploadOperation := upload entry }
    Noted core middle ∧ middle.Sound ∧ key ∈ middle.entries.keys ∧
      middle.entry key = { core.entry key with
        ioOperation := io (core.entry key), uploadOperation := upload (core.entry key) } := by
  have hnoted := @operation_noted core key io upload hkey
  exact ⟨hnoted, hnoted.sound hsound, hkey, entry_modify_self hkey⟩

/-- How a storage completion ends. -/
inductive ReadOutcome (key : ExpertKey) (result : ReadResult) (core : Core) : Core → Prop where
  | ignored : (core.entry key).state ≠ .ssdLoading → ReadOutcome key result core core
  | abandoned {middle after core' : Core} : Noted core middle →
      Moves key .abandonLoad middle after → Noted after core' → ReadOutcome key result core core'
  | failed {middle core' : Core} {status : Status} : Noted core middle →
      Moves key (.fail status) middle core' → status.ok = false →
      result.status.code ≠ .cancelled → ReadOutcome key result core core'
  | queued {middle core' : Core} : Noted core middle → Moves key .queue middle core' →
      ReadOutcome key result core core'

theorem readComplete_outcome {result : ReadResult} (hsound : core.Sound)
    (hidle : (core.entry key).state = .ssdLoading → (core.entry key).preparingHost = false) :
    ReadOutcome key result core (core.readComplete key result) := by
  unfold readComplete
  by_cases hignored : key ∉ core.entries.keys || (core.entry key).state ≠ .ssdLoading
  · rw [if_pos hignored]
    refine .ignored fun hstate => ?_
    simp [mem_of_state hstate, hstate] at hignored
  · rw [if_neg hignored]
    simp only [Bool.or_eq_true, decide_eq_true_eq, not_or, not_not] at hignored
    obtain ⟨hkey, hstate⟩ := hignored
    obtain ⟨hnoted, hmiddle, hkey1, hentry⟩ :=
      @forgotten core key (fun _ => 0) Entry.uploadOperation hkey hsound
    simp only at hnoted hmiddle hkey1 hentry ⊢
    generalize core.modify key ({ · with ioOperation := 0 }) = middle at *
    have hloading : (middle.entry key).state = .ssdLoading := by rw [hentry, hstate]
    have hpreparing : (middle.entry key).preparingHost = false := by rw [hentry]; exact hidle hstate
    have hdevice : (middle.entry key).device = none := hmiddle.device_none (by simp [hloading])
    have hfail : ∀ {status : Status}, status.ok = false → result.status.code ≠ .cancelled →
        ReadOutcome key result core (middle.failEntryLocked key status) :=
      fun hstatus hcode => .failed hnoted (failEntry_moves hkey1 hdevice
        ⟨by simp [hloading], hpreparing⟩) hstatus hcode
    have habandon := abandonLoad_moves hkey1 hdevice ⟨hloading, hpreparing⟩
    split
    next => exact .abandoned hnoted habandon .refl
    next hwanted =>
      split
      next =>
        refine .abandoned hnoted habandon ?_
        have hflag : ((middle.abandonLoad key).entry key).abandon = false := by
          rw [habandon.entry]
          simp only [Bool.or_eq_true, not_or, Bool.not_eq_true] at hwanted
          exact hwanted.1
        have hkey2 := habandon.key_mem' hkey1
        refine modify_noted hkey2 ?_ rfl
        rw [revived_of_not_abandoned hflag]
      next hcode =>
        split
        next hstatus => exact hfail (by simpa using hstatus) hcode
        next =>
          split
          next => exact hfail rfl hcode
          next => exact .queued hnoted (queuePreparation_moves hkey1 hloading)

/-- How an upload completion ends; the allocation is stored only if it fits. -/
inductive UploadOutcome (key : ExpertKey) (result : UploadResult) (published : Status)
    (core : Core) : Core → Prop where
  | ignored : (core.entry key).state ≠ .gpuUploading → UploadOutcome key result published core core
  | abandoned {middle core' : Core} : Noted core middle →
      Moves key .abandonUpload middle core' → UploadOutcome key result published core core'
  | rejected {middle core' : Core} {status : Status} : Noted core middle →
      (middle.entry key).waiters ≠ [] → acceptedAllocation (middle.entry key) result = none →
      Moves key (.fail status) middle core' → status.ok = false →
      UploadOutcome key result published core core'
  | unpublished {middle shrunk core' : Core} {allocation : DeviceAllocation} :
      Noted core middle → (middle.entry key).waiters ≠ [] →
      acceptedAllocation (middle.entry key) result = some allocation →
      core.directory.isSome → published.ok = false →
      Moves key (.shrink allocation.bytes) middle shrunk →
      Moves key (.fail published) shrunk core' → UploadOutcome key result published core core'
  | finished {middle shrunk core' : Core} {allocation : DeviceAllocation} :
      Noted core middle → acceptedAllocation (middle.entry key) result = some allocation →
      (core.directory.isSome → published.ok) →
      Moves key (.shrink allocation.bytes) middle shrunk →
      Moves key (.finishUpload allocation) shrunk core' →
      UploadOutcome key result published core core'

theorem acceptedAllocation_fits {entry : Entry} {result : UploadResult}
    {allocation : DeviceAllocation} (h : acceptedAllocation entry result = some allocation) :
    allocation.bytes ≤ entry.vramReserved ∧ result.status.ok := by
  unfold acceptedAllocation at h
  split at h
  next => cases h
  next =>
    split at h
    next => cases h
    next hfits =>
      cases h
      simp only [Bool.or_eq_true, not_or, decide_eq_true_eq, UInt64.not_lt] at hfits
      exact ⟨hfits.2, by simpa using hfits.1.1.1⟩

theorem uploadComplete_outcome {result : UploadResult} {published : Status}
    (hsound : core.Sound) :
    UploadOutcome key result published core (core.uploadComplete key result published) := by
  unfold uploadComplete
  by_cases hignored : key ∉ core.entries.keys || (core.entry key).state ≠ .gpuUploading
  · rw [if_pos hignored]
    refine .ignored fun hstate => ?_
    simp [mem_of_state hstate, hstate] at hignored
  · rw [if_neg hignored]
    simp only [Bool.or_eq_true, decide_eq_true_eq, not_or, not_not] at hignored
    obtain ⟨hkey, hstate⟩ := hignored
    obtain ⟨hnoted, hmiddle, hkey1, hentry⟩ :=
      @forgotten core key Entry.ioOperation (fun _ => 0) hkey hsound
    simp only at hnoted hmiddle hkey1 hentry ⊢
    generalize core.modify key ({ · with uploadOperation := 0 }) = middle at *
    have huploading : (middle.entry key).state = .gpuUploading := by rw [hentry, hstate]
    have hpreparing : (middle.entry key).preparingHost = false := by
      by_contra hset
      have hloading := (hmiddle.ok key).preparing (by simpa using hset)
      rw [huploading] at hloading
      cases hloading
    have hdevice : (middle.entry key).device = none :=
      hmiddle.device_none (by simp [huploading])
    split
    next hunwanted =>
      refine .abandoned hnoted (abandonUpload_moves hkey1 hdevice ⟨huploading, ?_⟩)
      rcases Bool.or_eq_true _ _ |>.mp hunwanted with habandon | hempty
      · exact ((hmiddle.ok key).abandoned habandon).1
      · exact List.isEmpty_iff.1 hempty
    next hwanted =>
      have hwaiters : (middle.entry key).waiters ≠ [] := by
        simp only [Bool.or_eq_true, not_or, List.isEmpty_iff] at hwanted
        exact hwanted.2
      split
      next hnone =>
        refine .rejected hnoted hwaiters hnone (failEntry_moves hkey1 hdevice
          ⟨by simp [huploading], hpreparing⟩) ?_
        split
        next => rfl
        next hstatus => simpa using hstatus
      next allocation hsome =>
        have hfits := (acceptedAllocation_fits hsome).1
        have hshrink := shrinkVram_moves hkey1 hdevice ⟨huploading, hfits⟩
        have hkey2 := hshrink.key_mem' hkey1
        have hshrunk : (middle.shrinkVram key allocation.bytes).entry key =
            (middle.entry key).setVramReserved allocation.bytes := hshrink.entry
        have hdirectory : (middle.shrinkVram key allocation.bytes).directory = core.directory :=
          hshrink.directory.trans hnoted.directory
        simp only [hdirectory]
        split
        next hpublish =>
          simp only [Bool.and_eq_true, Bool.not_eq_true'] at hpublish
          refine .unpublished hnoted hwaiters hsome hpublish.1 hpublish.2 hshrink
            (failEntry_moves hkey2 ?_ ⟨?_, ?_⟩)
          · rw [hshrunk]
            exact hdevice
          · rw [hshrunk]
            simp [setVramReserved, huploading]
          · rw [hshrunk]
            exact hpreparing
        next hpublish =>
          refine .finished hnoted hsome (fun hshown => ?_) hshrink
            (finishUpload_moves hkey2 ⟨?_, ?_, ?_⟩)
          · simpa [hshown] using hpublish
          · rw [hshrunk]
            exact huploading
          · rw [hshrunk]
            exact UInt64.le_refl _
          · rw [hshrunk]
            exact hwaiters

/-- How a failing section of the preparation ends. -/
inductive FailureOutcome (key : ExpertKey) (status : Status) (core : Core) : Core → Prop where
  | ignored : (core.entry key).state ≠ .ssdLoading → FailureOutcome key status core core
  | failed {middle core' : Core} : Moves key .unqueue core middle →
      Moves key (.fail status) middle core' → FailureOutcome key status core core'

theorem failPreparation_outcome {status : Status} (hsound : core.Sound) :
    FailureOutcome key status core (core.failPreparation key status) := by
  unfold failPreparation
  split
  next hstate =>
    have hkey := mem_of_state hstate (by simp)
    have hunqueue := unqueue_moves hkey hstate
    have hentry : (core.modify key (·.setPreparing false)).entry key =
        (core.entry key).setPreparing false := hunqueue.entry
    refine .failed hunqueue (failEntry_moves (hunqueue.key_mem' hkey) ?_ ⟨?_, ?_⟩)
    · rw [hentry]
      exact hsound.device_none (by simp [hstate])
    · rw [hentry]
      simp [setPreparing, hstate]
    · rw [hentry]
      rfl
  next hstate => exact .ignored hstate

/-- How the last section of a preparation ends. -/
inductive FinishOutcome (key : ExpertKey) (admission : ExpertAdmission)
    (retained : Option ImmutableHostBuffer) (core : Core) : Core → Prop where
  | ignored : (core.entry key).state ≠ .ssdLoading ∨ core.shuttingDown →
      FinishOutcome key admission retained core core
  | abandoned {middle core' : Core} : Moves key .unqueue core middle →
      Moves key .abandonLoad middle core' → FinishOutcome key admission retained core core'
  | finished {loading stored promoted core' : Core} : Moves key .unqueue core loading →
      Moves key (.store admission retained) loading stored →
      Trace (Spare (some key)) stored promoted → Moves key .settle promoted core' →
      ((core.entry key).needsCopy core.config → retained.isSome) →
      (core.entry key).hasWaiters → FinishOutcome key admission retained core core'

theorem finishPreparation_outcome {admission : ExpertAdmission}
    {retained : Option ImmutableHostBuffer} (hsound : core.Sound)
    (hsize : (core.entry key).state = .ssdLoading → (core.entry key).record.storedBytes ≠ 0)
    (hretained : retained.isSome → core.config.retainHostCopy)
    (h : core.finishPreparation key admission retained = some core') :
    FinishOutcome key admission retained core core' := by
  simp only [finishPreparation] at h
  by_cases hstopped : (core.entry key).state ≠ .ssdLoading || core.shuttingDown
  · rw [if_pos hstopped] at h
    cases h
    exact .ignored (by simpa using hstopped)
  · rw [if_neg hstopped] at h
    simp only [Bool.or_eq_true, decide_eq_true_eq, not_or, not_not] at hstopped
    have hstate := hstopped.1
    have hkey := mem_of_state hstate (by simp)
    have hunqueue := unqueue_moves hkey hstate
    have hkey1 := hunqueue.key_mem' hkey
    have hentry : (core.modify key (·.setPreparing false)).entry key =
        (core.entry key).setPreparing false := hunqueue.entry
    split at h
    next => cases h
    next hcopy =>
      have hloading : ((core.modify key (·.setPreparing false)).entry key).state =
          .ssdLoading := by rw [hentry]; exact hstate
      have hidle : ((core.modify key (·.setPreparing false)).entry key).preparingHost =
          false := by rw [hentry]; rfl
      split at h
      next =>
        cases h
        exact .abandoned hunqueue (abandonLoad_moves hkey1
          ((hunqueue.sound hsound).device_none (by simp [hloading])) ⟨hloading, hidle⟩)
      next hwanted =>
        cases h
        have hstore := @storePrepared_moves _ key hkey1 admission retained
          ⟨hloading, hidle, by rw [hentry]; exact hsize hstate, hretained⟩
        have hkey2 := hstore.key_mem' hkey1
        have hready : ((Core.storePrepared (core.modify key (·.setPreparing false)) key admission
            retained).entry key).state = .ramReady := by
          rw [hstore.entry]
          rfl
        have hspare : Trace (Spare (some key))
            ((core.modify key (·.setPreparing false)).storePrepared key admission retained)
            (if (((core.modify key (·.setPreparing false)).storePrepared key admission
                retained).entry key).ramProtectedRequested then
              ((core.modify key (·.setPreparing false)).storePrepared key admission
                retained).promoteRamLocked key true
            else (core.modify key (·.setPreparing false)).storePrepared key admission retained) := by
          split
          next => exact promoteRam_spare hkey2
          next => exact .refl
        refine .finished hunqueue hstore hspare
          (settlePrepared_moves (hspare.key_mem hkey2) ?_) ?_ ?_
        · exact (Entry.field_of_body Entry.state hspare.spare_body).trans hready
        · intro hneeds
          by_contra hnone
          exact hcopy (by simp [hneeds, Option.not_isSome_iff_eq_none.1 hnone])
        · simp only [Bool.or_eq_true, not_or, Bool.not_eq_true', Bool.not_eq_false] at hwanted
          exact hwanted.2

end Core

end QuantumLlm.Runtime
