import QuantumLlm.Runtime.Cache.Flights
import QuantumLlm.Runtime.Record.IndexSafety

/-!
# Expert cache: steps of the running system

What each step does to the core, and the invariant it keeps. Every later result
about runs is an induction over these effects.
-/

namespace QuantumLlm.Runtime

open List

/-- What a step does to the core. -/
inductive Effect (system : CacheSystem) : Action → Core → Prop where
  | acquired {key record options id core'} : system.core.fresh id →
      Core.Requests key ⟨id, key, false⟩ record system.core core' →
      Effect system (.acquire key record options id) core'
  | preloaded {key record options id core'} : system.core.fresh id →
      Core.Requests key ⟨id, key, true⟩ record system.core core' →
      Effect system (.preloadHost key record options id) core'
  | leased {key record recordAccess id copy middle core'} : system.core.fresh id →
      Core.Trace (Core.Spare (some key)) system.core middle →
      Core.Moves key (.grant id (.host copy)) middle core' →
      Effect system (.tryAcquireHost key record recordAccess id) core'
  | spared {action core'} : Core.Trace (Core.Spare none) system.core core' →
      Effect system action core'
  | withdrawn {key id core'} : Core.Moves key (.withdraw id) system.core core' →
      Effect system (.cancelWaiter key id) core'
  | withdrawnHost {key id core'} : Core.Moves key (.withdrawHost id) system.core core' →
      Effect system (.cancelHostWaiter key id) core'
  | dropped {id key} : id ∉ system.core.journal.dropped →
      ⟨id, key, false⟩ ∈ system.core.journal.issued →
      Effect system (.dropHandle id) (system.core.dropHandle id)
  | returned {lease} : lease ∈ system.core.journal.leases →
      Effect system (.releaseLease lease) (system.core.returnLease lease)
  | configured {budget transientBytes core'} :
      Core.Acts system.core core' (.configure budget transientBytes) →
      Effect system (.configureVramBudget budget transientBytes) core'
  | stopped {core'} :
      Core.Trace Core.Clears { system.core with shuttingDown := true } core' →
      Effect system .shutdown core'
  | selected {task core'} : system.core.shuttingDown = false →
      Core.Selected system.core task core' → Effect system .nextTask core'
  | read {operation result core'} : operation ∈ system.reads →
      Core.ReadOutcome operation.key result system.core core' →
      Effect system (.readComplete operation result) core'
  | uploaded {operation result published core'} : operation ∈ system.uploads →
      Core.UploadOutcome operation.key result published system.core core' →
      Effect system (.uploadComplete operation result published) core'
  | popped {key core'} : Core.Acts system.core core' (.pop key) →
      Effect system .popPreparation core'
  | failed {action key status core'} : status.ok = false → status.code ≠ .cancelled →
      Core.FailureOutcome key status system.core core' → Effect system action core'
  | finished {prepared core'} : system.worker = .finishing prepared →
      Core.FinishOutcome prepared.key prepared.admission prepared.retained system.core core' →
      Effect system .finishPreparation core'

namespace CacheSystem

variable {system system' : CacheSystem} {action : Action} {sha256 : List UInt8 → Sha256Digest}

variable {core' core : Core} {operations : List Operation} {operation : Operation}
  {tasks : List Task} {kind : TaskKind} {key : ExpertKey} {status : Status}
  {retained : Option ImmutableHostBuffer} {config : ExpertCacheConfig}
  {directory : Option Directory} {slotCount reservedDemandSlots : Nat}
  {slotBytes alignment : UInt64}

theorem Sound.of_core (h : system.Sound) (hcore : Core.Steady system.core core') :
    Sound { system with core := core' } :=
  h.of_steady hcore (fun _ => rfl) (fun _ => rfl) rfl

theorem Sound.of_cancelled {cancelledWaiters : List WaiterId}
    {cancelledReads cancelledUploads : List OperationId} (h : system.Sound) :
    Sound { system with cancelledWaiters, cancelledReads, cancelledUploads } :=
  h.of_steady .refl (fun _ => rfl) (fun _ => rfl) rfl

theorem steady_dropHandle (core : Core) (id : WaiterId) :
    Core.Steady core (core.dropHandle id) := by
  have hmark : Core.Steady core (core.markDropped id) :=
    @Core.Steady.of_act _ _ (.dropped id) rfl trivial
  unfold Core.dropHandle
  cases core.journal.leases.find? (·.id = id) with
  | none => exact hmark
  | some lease => exact hmark.trans (.of_returnLease _ lease)

theorem steady_shutdown (core : Core) : Core.Steady core core.shutdown.1 := by
  rcases core.shutdown_spec with hsame | htrace
  · rw [hsame]
    exact .refl
  · have hstop : Core.Steady core { core with shuttingDown := true } :=
      @Core.Steady.of_act _ _ .stop rfl trivial
    refine hstop.trans (.of_trace htrace fun _ _ hclears => ?_)
    obtain ⟨key, rfl⟩ := hclears
    exact ⟨rfl, rfl⟩

theorem clientStep_spec (h : system.Sound) (hstep : system.clientStep action = some system') :
    system'.Sound ∧ Effect system action system'.core := by
  cases action with
  | acquire key record options id =>
    simp only [clientStep, Option.ite_none_right_eq_some, Option.some.injEq] at hstep
    obtain ⟨hfresh, rfl⟩ := hstep
    have hrequests := @Core.acquire_requests _ key record options id h.core
    exact ⟨h.of_core (.of_requests hrequests), .acquired hfresh hrequests⟩
  | preloadHost key record options id =>
    simp only [clientStep, Option.ite_none_right_eq_some, Option.some.injEq] at hstep
    obtain ⟨hfresh, rfl⟩ := hstep
    have hrequests := @Core.preloadHost_requests _ key record options id h.core
    exact ⟨h.of_core (.of_requests hrequests), .preloaded hfresh hrequests⟩
  | tryAcquireHost key record recordAccess id =>
    simp only [clientStep, Option.ite_none_right_eq_some, Option.some.injEq] at hstep
    obtain ⟨hfresh, rfl⟩ := hstep
    rcases @Core.tryAcquireHost_spec system.core key record recordAccess id with
      hsame | ⟨middle, copy, hspare, hmoves⟩
    · exact ⟨h.of_core (.of_eq hsame), .spared (.of_eq hsame)⟩
    · exact ⟨h.of_core ((Core.Steady.of_spare hspare).trans (.of_moves hmoves rfl rfl)),
        .leased hfresh hspare hmoves⟩
  | recordAccess key count =>
    simp only [clientStep, Option.some.injEq] at hstep
    subst hstep
    have hspare := @Core.recordAccess_spare system.core key count
    exact ⟨h.of_core (.of_spare hspare), .spared hspare⟩
  | recordAccesses accesses =>
    simp only [clientStep, Option.some.injEq] at hstep
    subst hstep
    have hspare := @Core.recordAccesses_spare system.core accesses
    exact ⟨h.of_core (.of_spare hspare), .spared hspare⟩
  | protect key ram vram =>
    simp only [clientStep, Option.some.injEq] at hstep
    subst hstep
    have hspare := @Core.protect_spare system.core key ram vram
    exact ⟨h.of_core (.of_spare hspare), .spared hspare⟩
  | cancelWaiter key id =>
    simp only [clientStep, Option.ite_none_right_eq_some, Option.some.injEq] at hstep
    obtain ⟨_, rfl⟩ := hstep
    rcases @Core.cancelWaiter_spec system.core key id with hsame | hmoves
    · exact ⟨(h.of_core (.of_eq hsame)).of_cancelled, .spared (.of_eq hsame)⟩
    · exact ⟨(h.of_core (.of_moves hmoves rfl rfl)).of_cancelled, .withdrawn hmoves⟩
  | cancelHostWaiter key id =>
    simp only [clientStep, Option.ite_none_right_eq_some, Option.some.injEq] at hstep
    obtain ⟨_, rfl⟩ := hstep
    rcases @Core.cancelHostWaiter_spec system.core key id with hsame | hmoves
    · exact ⟨(h.of_core (.of_eq hsame)).of_cancelled, .spared (.of_eq hsame)⟩
    · exact ⟨(h.of_core (.of_moves hmoves rfl rfl)).of_cancelled, .withdrawnHost hmoves⟩
  | dropHandle id =>
    simp only [clientStep, Option.ite_none_right_eq_some, Option.some.injEq] at hstep
    obtain ⟨hallowed, rfl⟩ := hstep
    simp only [Bool.and_eq_true, any_eq_true, decide_eq_true_eq, Bool.not_eq_true'] at hallowed
    obtain ⟨⟨⟨ticketId, key, host⟩, hissued, rfl, rfl⟩, hnew⟩ := hallowed
    exact ⟨h.of_core (steady_dropHandle _ _), .dropped hnew hissued⟩
  | releaseLease lease =>
    simp only [clientStep, Option.ite_none_right_eq_some, Option.some.injEq] at hstep
    obtain ⟨hlease, rfl⟩ := hstep
    exact ⟨h.of_core (.of_returnLease _ _), .returned hlease⟩
  | trimTo ramTarget vramTarget =>
    simp only [clientStep, Option.some.injEq] at hstep
    subst hstep
    have hevicts := @Core.trimTo_evicts system.core ramTarget vramTarget
    exact ⟨h.of_core (.of_spare hevicts.trace), .spared hevicts.trace⟩
  | configureVramBudget budget transientBytes =>
    simp only [clientStep, Option.some.injEq] at hstep
    subst hstep
    rcases @Core.configureVramBudget_spec system.core budget transientBytes with hsame | hacts
    · exact ⟨h.of_core (.of_eq hsame), .spared (.of_eq hsame)⟩
    · exact ⟨h.of_core (.of_act hacts trivial), .configured hacts⟩
  | shutdown =>
    simp only [clientStep, Option.some.injEq] at hstep
    subst hstep
    refine ⟨(h.of_core (steady_shutdown system.core)).of_cancelled, ?_⟩
    rcases system.core.shutdown_spec with hsame | htrace
    · exact .spared (.of_eq hsame)
    · exact .stopped htrace
  | _ => cases hstep

theorem countP_erase_add (hmem : operation ∈ operations) (key : ExpertKey) :
    (operations.erase operation).countP (·.key = key) + (if operation.key = key then 1 else 0) =
      operations.countP (·.key = key) := by
  rw [(perm_cons_erase hmem).countP_eq, countP_cons]
  simp

theorem count_erase_add {task : Task} (hmem : task ∈ tasks) (other : Task) :
    (tasks.erase task).count other + (if task = other then 1 else 0) = tasks.count other := by
  rw [(perm_cons_erase hmem).count_eq, count_cons]
  simp

theorem started_tokens {id : OperationId} (hmem : (⟨kind, key⟩ : Task) ∈ tasks)
    (other : ExpertKey) :
    (tasks.erase ⟨kind, key⟩).count ⟨kind, other⟩ +
        (operations ++ [(⟨id, key⟩ : Operation)]).countP (·.key = other) =
      tasks.count ⟨kind, other⟩ + operations.countP (·.key = other) := by
  have hcount := count_erase_add hmem ⟨kind, other⟩
  rw [countP_append, countP_singleton]
  by_cases heq : key = other
  · subst heq
    simp only [if_true] at hcount
    simp only [decide_true, if_true]
    omega
  · have hne : (⟨kind, key⟩ : Task) ≠ ⟨kind, other⟩ := by simp [heq]
    simp only [hne, if_false] at hcount
    simp only [heq, decide_false, Bool.false_eq_true, if_false]
    omega

theorem count_selected {other : TaskKind} {otherKey : ExpertKey} :
    (tasks ++ [(⟨kind, key⟩ : Task)]).count ⟨other, otherKey⟩ =
      tasks.count ⟨other, otherKey⟩ + if kind = other ∧ key = otherKey then 1 else 0 := by
  rw [count_append, count_singleton]
  simp

theorem Selected.shifts (hsound : core.Sound) (h : Core.Selected core (some ⟨kind, key⟩) core') :
    (core.entry key).phase = .idle ∧
      Shifts key (match kind with | .read => .loading | .upload => .uploading) [] core core' := by
  cases h with
  | upload hscan hmoves =>
    have hbefore := Core.Steady.of_scan hscan
    refine ⟨?_, (Shifts.of_moves hmoves (hscan.sound hsound)).before hsound hbefore⟩
    rw [← hbefore.phase hsound key, Entry.phase_idle_iff]
    simp [hmoves.enabled.1]
  | read hscan hmoves =>
    have hbefore := Core.Steady.of_scan hscan
    refine ⟨?_, (Shifts.of_moves hmoves (hscan.sound hsound)).before hsound hbefore⟩
    rw [← hbefore.phase hsound key, Entry.phase_idle_iff]
    simp [hmoves.enabled.1]

theorem nextTask_spec (h : system.Sound) (hrunning : system.core.shuttingDown = false) :
    Sound { system with
        core := system.core.nextTaskLocked.2
        tasks := system.tasks ++ system.core.nextTaskLocked.1.toList } ∧
      Effect system .nextTask system.core.nextTaskLocked.2 := by
  have hselected := Core.nextTask_selected h.core
  refine ⟨?_, .selected hrunning hselected⟩
  cases htask : system.core.nextTaskLocked.1 with
  | none =>
    rw [htask] at hselected
    cases hselected with
    | none hscan =>
      refine h.of_steady (.of_scan hscan) (fun key => ?_) (fun key => ?_) rfl <;>
        simp [CacheSystem.loads, CacheSystem.sends]
  | some task =>
    obtain ⟨kind, key⟩ := task
    rw [htask] at hselected
    obtain ⟨hidle, hshift⟩ := Selected.shifts h.core hselected
    have hqueue := hshift.queue.trans (append_nil _)
    have hloads := h.loads
    have hsends := h.sends
    have hpreparations := h.preparations key
    have hself : system.phaseOf key = .idle := hidle
    refine h.of_shift hshift ⟨?_, ?_, ?_, fun other hne => ⟨?_, ?_, ?_⟩⟩ (Or.inl rfl)
    · have hnone := hloads key
      simp only [CacheSystem.loads, hself] at hnone ⊢
      cases kind <;> simp_all [due]
    · have hnone := hsends key
      simp only [CacheSystem.sends, hself] at hnone ⊢
      cases kind <;> simp_all [due]
    · simp only [CacheSystem.preparations, hself, hqueue] at hpreparations ⊢
      cases kind <;> simp_all [due]
    · simp only [CacheSystem.loads, Option.toList_some, count_selected]
      simp [hne.symm]
    · simp only [CacheSystem.sends, Option.toList_some, count_selected]
      simp [hne.symm]
    · simp only [CacheSystem.preparations, hqueue]

section

variable {core core' : Core} {key : ExpertKey} (hsound : core.Sound)
include hsound

theorem ReadOutcome.shifts {result : ReadResult} (hphase : (core.entry key).phase = .loading)
    (h : Core.ReadOutcome key result core core') :
    Shifts key .idle [] core core' ∨ Shifts key .preparing [key] core core' := by
  cases h with
  | ignored hstate => exact absurd (Entry.phase_loading_iff.1 hphase).1 hstate
  | abandoned hnoted hmoves hafter =>
    left
    have hmiddle := hnoted.sound hsound
    exact ((Shifts.of_moves hmoves hmiddle).before hsound (.of_noted hnoted)).after
      (.of_noted hafter)
  | failed hnoted hmoves _ _ =>
    left
    exact (Shifts.of_moves hmoves (hnoted.sound hsound)).before hsound (.of_noted hnoted)
  | queued hnoted hmoves =>
    right
    exact (Shifts.of_moves hmoves (hnoted.sound hsound)).before hsound (.of_noted hnoted)

theorem UploadOutcome.shifts {result : UploadResult} {published : Status}
    (hphase : (core.entry key).phase = .uploading)
    (h : Core.UploadOutcome key result published core core') :
    Shifts key .idle [] core core' := by
  cases h with
  | ignored hstate => exact absurd (Entry.phase_uploading_iff.1 hphase) hstate
  | abandoned hnoted hmoves =>
    exact (Shifts.of_moves hmoves (hnoted.sound hsound)).before hsound (.of_noted hnoted)
  | rejected hnoted _ _ hmoves _ =>
    exact (Shifts.of_moves hmoves (hnoted.sound hsound)).before hsound (.of_noted hnoted)
  | unpublished hnoted _ _ _ _ hshrink hmoves =>
    have hmiddle := hnoted.sound hsound
    exact ((Shifts.of_moves hmoves (hshrink.sound hmiddle)).before hmiddle
      (.of_moves hshrink rfl rfl)).before hsound (.of_noted hnoted)
  | finished hnoted _ _ hshrink hmoves =>
    have hmiddle := hnoted.sound hsound
    exact ((Shifts.of_moves hmoves (hshrink.sound hmiddle)).before hmiddle
      (.of_moves hshrink rfl rfl)).before hsound (.of_noted hnoted)

theorem FailureOutcome.shifts {status : Status} (hphase : (core.entry key).phase = .preparing)
    (h : Core.FailureOutcome key status core core') : Shifts key .idle [] core core' := by
  cases h with
  | ignored hstate => exact absurd (Entry.phase_preparing_iff.1 hphase).1 hstate
  | failed hunqueue hmoves =>
    exact (Shifts.of_moves hunqueue hsound).trans (.of_moves hmoves (hunqueue.sound hsound))

theorem FinishOutcome.shifts {admission : ExpertAdmission}
    {retained : Option ImmutableHostBuffer} (hphase : (core.entry key).phase = .preparing)
    (h : Core.FinishOutcome key admission retained core core') :
    core.shuttingDown = true ∧ core' = core ∨ Shifts key .idle [] core core' := by
  cases h with
  | ignored hstopped =>
    left
    rcases hstopped with hstate | hstopped
    · exact absurd (Entry.phase_preparing_iff.1 hphase).1 hstate
    · exact ⟨hstopped, rfl⟩
  | abandoned hunqueue hmoves =>
    right
    exact (Shifts.of_moves hunqueue hsound).trans (.of_moves hmoves (hunqueue.sound hsound))
  | finished hunqueue hstore hspare hsettle _ _ =>
    right
    have hloading := hunqueue.sound hsound
    have hsteady := Core.Steady.of_spare hspare
    exact (((Shifts.of_moves hunqueue hsound).trans (Shifts.of_moves hstore hloading)).after
      hsteady).after (.of_moves hsettle rfl rfl)

end

theorem countP_erase_zero {count : Nat} (hmem : operation ∈ operations)
    (honly : count + operations.countP (·.key = operation.key) = 1) :
    count + (operations.erase operation).countP (·.key = operation.key) = 0 := by
  have hadd := countP_erase_add hmem operation.key
  rw [if_pos rfl] at hadd
  omega

section

variable (h : system.Sound)

include h

theorem readComplete_spec {result : ReadResult} (hmem : operation ∈ system.reads) :
    Sound { system with
        core := system.core.readComplete operation.key result
        reads := system.reads.erase operation } ∧
      Effect system (.readComplete operation result)
        (system.core.readComplete operation.key result) := by
  have hphase := h.loading_of_read hmem
  have houtcome := @Core.readComplete_outcome system.core operation.key result h.core
    fun _ => (Entry.phase_loading_iff.1 hphase).2
  refine ⟨?_, .read hmem houtcome⟩
  have hloads := h.loads operation.key
  rw [hphase, due_self] at hloads
  have hnone := countP_erase_zero hmem hloads
  have hsends := h.sends operation.key
  have hpreparations := h.preparations operation.key
  rw [hphase] at hsends hpreparations
  have hothers : ∀ other, other ≠ operation.key →
      (system.reads.erase operation).countP (·.key = other) =
        system.reads.countP (·.key = other) := by
    intro other hne
    have hadd := countP_erase_add hmem other
    rwa [if_neg fun heq => hne heq.symm, Nat.add_zero] at hadd
  rcases ReadOutcome.shifts h.core hphase houtcome with hshift | hshift
  · refine h.of_shift hshift ⟨hnone, hsends, ?_, fun other hne => ⟨?_, rfl, ?_⟩⟩ (Or.inl rfl)
    · simp only [CacheSystem.preparations, hshift.queue, append_nil] at hpreparations ⊢
      exact Nat.le_zero.1 hpreparations
    · simp only [CacheSystem.loads, hothers other hne]
    · simp only [CacheSystem.preparations, hshift.queue, append_nil]
  · refine h.of_shift hshift ⟨hnone, hsends, ?_, fun other hne => ⟨?_, rfl, ?_⟩⟩ (Or.inl rfl)
    · simp only [CacheSystem.preparations, hshift.queue, count_append] at hpreparations ⊢
      have hzero := Nat.le_zero.1 hpreparations
      simp only [count_singleton_self, due_self]
      omega
    · simp only [CacheSystem.loads, hothers other hne]
    · simp only [CacheSystem.preparations, hshift.queue, count_append]
      rw [count_singleton, if_neg]
      · rfl
      · simpa using hne.symm

theorem uploadComplete_spec {result : UploadResult} {published : Status}
    (hmem : operation ∈ system.uploads) :
    Sound { system with
        core := system.core.uploadComplete operation.key result published
        uploads := system.uploads.erase operation } ∧
      Effect system (.uploadComplete operation result published)
        (system.core.uploadComplete operation.key result published) := by
  have hphase := h.uploading_of_upload hmem
  have houtcome := @Core.uploadComplete_outcome system.core operation.key result published h.core
  refine ⟨?_, .uploaded hmem houtcome⟩
  have hsends := h.sends operation.key
  rw [hphase, due_self] at hsends
  have hnone := countP_erase_zero hmem hsends
  have hloads := h.loads operation.key
  have hpreparations := h.preparations operation.key
  rw [hphase] at hloads hpreparations
  have hshift := UploadOutcome.shifts h.core hphase houtcome
  refine h.of_shift hshift ⟨hloads, hnone, ?_, fun other hne => ⟨rfl, ?_, ?_⟩⟩ (Or.inl rfl)
  · simp only [CacheSystem.preparations, hshift.queue, append_nil] at hpreparations ⊢
    exact Nat.le_zero.1 hpreparations
  · have hadd := countP_erase_add hmem other
    rw [if_neg fun heq => hne heq.symm, Nat.add_zero] at hadd
    simp only [CacheSystem.sends, hadd]
  · simp only [CacheSystem.preparations, hshift.queue, append_nil]

theorem uploadSourceError_none (hmem : ⟨.upload, key⟩ ∈ system.tasks) :
    Core.uploadSourceError (system.core.entry key) = none := by
  have hstate := Entry.phase_uploading_iff.1 (h.uploading_of_task hmem)
  have hok := h.core.ok key
  have hbytes : (system.core.entry key).hasHostBytes = true := hok.ready (Or.inr hstate)
  have hvalid := (hok.validated hbytes (by simp [hstate])).1
  simp [Core.uploadSourceError, hbytes, Option.isSome_iff_ne_none.1 hvalid]

theorem deviceStep_spec (hstep : system.deviceStep action = some system') :
    system'.Sound ∧ Effect system action system'.core := by
  cases action with
  | nextTask =>
    simp only [deviceStep] at hstep
    split at hstep
    next => cases hstep
    next hrunning =>
      cases hstep
      exact nextTask_spec h (by simpa using hrunning)
  | startRead key id =>
    simp only [deviceStep, Option.ite_none_right_eq_some, Option.some.injEq] at hstep
    obtain ⟨⟨hmem, _⟩, rfl⟩ := hstep
    exact ⟨h.of_steady .refl (fun other => started_tokens hmem other)
      (fun other => by simp [CacheSystem.sends]) rfl, .spared .refl⟩
  | startUpload key id =>
    simp only [deviceStep] at hstep
    split at hstep
    next hallowed =>
      rw [uploadSourceError_none h hallowed.1] at hstep
      cases hstep
      exact ⟨h.of_steady .refl (fun other => by simp [CacheSystem.loads])
        (fun other => started_tokens hallowed.1 other) rfl, .spared .refl⟩
    next => cases hstep
  | recordRead operation =>
    simp only [deviceStep, Option.ite_none_right_eq_some, Option.some.injEq] at hstep
    obtain ⟨_, rfl⟩ := hstep
    have hnoted := @Core.recordRead_noted system.core operation.key operation.id
    exact ⟨h.of_steady (.of_noted hnoted) (fun _ => rfl) (fun _ => rfl) rfl, .spared hnoted.spare⟩
  | recordUpload operation =>
    simp only [deviceStep, Option.ite_none_right_eq_some, Option.some.injEq] at hstep
    obtain ⟨_, rfl⟩ := hstep
    have hnoted := @Core.recordUpload_noted system.core operation.key operation.id
    exact ⟨h.of_steady (.of_noted hnoted) (fun _ => rfl) (fun _ => rfl) rfl, .spared hnoted.spare⟩
  | readComplete operation result =>
    simp only [deviceStep, Option.ite_none_right_eq_some, Option.some.injEq] at hstep
    obtain ⟨hmem, rfl⟩ := hstep
    exact readComplete_spec h hmem
  | uploadComplete operation result published =>
    simp only [deviceStep, Option.ite_none_right_eq_some, Option.some.injEq] at hstep
    obtain ⟨hmem, rfl⟩ := hstep
    exact uploadComplete_spec h hmem
  | _ => cases hstep

theorem Sound.of_worker_shift
    (hkey : system.worker.key? = some key) (hcore : Shifts key .idle [] system.core core') :
    Sound { system with core := core', worker := .idle } := by
  have hphase := h.preparing_of_worker hkey
  have hloads := h.loads key
  have hsends := h.sends key
  have hpreparations := h.preparations key
  rw [hphase] at hloads hsends hpreparations
  simp only [CacheSystem.preparations, hkey, if_true, due_self] at hpreparations
  have hnone : ∀ other, CacheSystem.preparations { system with core := core', worker := .idle }
      other = system.core.hostPrepareQueue.count other := by
    simp [CacheSystem.preparations, hcore.queue, show Worker.idle.key? = none from rfl]
  refine h.of_shift hcore ⟨hloads, hsends, ?_, fun other hne => ⟨rfl, rfl, ?_⟩⟩ (Or.inr rfl)
  · rw [hnone]
    exact Nat.le_zero.1 (Nat.le_of_succ_le_succ hpreparations)
  · rw [hnone, CacheSystem.preparations, hkey, if_neg]
    · rfl
    · simpa using hne.symm

theorem Sound.of_worker_stopped (hstopped : system.core.shuttingDown = true) :
    Sound { system with worker := .idle } := by
  refine ⟨h.core, h.loads, h.sends, fun key => ?_, fun hrunning => ?_, ?_, ?_, ?_⟩
  · refine Nat.le_trans ?_ (h.preparations key)
    simp [CacheSystem.preparations, Worker.key?]
  · rw [hstopped] at hrunning
    cases hrunning
  · intro prepared hprepared
    cases hprepared
  · intro prepared hprepared
    cases hprepared
  · intro prepared hcopying
    cases hcopying

theorem Sound.of_pop {rest : List ExpertKey}
    (hidle : system.worker = .idle) (hqueue : system.core.hostPrepareQueue = key :: rest) :
    Sound { system with
      core := { system.core with hostPrepareQueue := rest }, worker := .popped key } := by
  have hacts : Core.Acts system.core { system.core with hostPrepareQueue := rest } (.pop key) :=
    ⟨hqueue, rfl⟩
  have hpreparations : ∀ other, CacheSystem.preparations { system with
      core := { system.core with hostPrepareQueue := rest }, worker := .popped key } other =
      system.preparations other := by
    simp only [CacheSystem.preparations, hidle, hqueue, Worker.key?, count_cons]
    simp
  have hphase : ∀ other, CacheSystem.phaseOf { system with
      core := { system.core with hostPrepareQueue := rest }, worker := .popped key } other =
      system.phaseOf other := fun _ => rfl
  refine ⟨hacts.sound h.core, h.loads, h.sends, fun other => ?_, fun hrunning other => ?_,
    ?_, ?_, ?_⟩
  · rw [hpreparations, hphase]
    exact h.preparations other
  · rw [hpreparations, hphase]
    exact h.running hrunning other
  · intro prepared hprepared
    cases hprepared
  · intro prepared hprepared
    cases hprepared
  · intro prepared hcopying
    cases hcopying

theorem Sound.of_failure (hkey : system.worker.key? = some key) (hstatus : status.ok = false)
    (hcode : status.code ≠ .cancelled) :
    Sound { system with core := system.core.failPreparation key status, worker := .idle } ∧
      Effect system action (system.core.failPreparation key status) := by
  have houtcome := @Core.failPreparation_outcome system.core key status h.core
  have hshift := FailureOutcome.shifts h.core (h.preparing_of_worker hkey) houtcome
  exact ⟨h.of_worker_shift hkey hshift, .failed hstatus hcode houtcome⟩

theorem Sound.staged_of_worker (hkey : system.worker.key? = some key) :
    key ∈ system.core.entries.keys ∧ (system.core.entry key).state = .ssdLoading := by
  have hstate := (Entry.phase_preparing_iff.1 (h.preparing_of_worker hkey)).1
  exact ⟨Core.mem_of_state hstate (by simp), hstate⟩

end

theorem Rejects.failure (h : status.Rejects) :
    status.ok = false ∧ status.code ≠ .cancelled := by
  rcases h with hcode | hcode <;> simp [Status.ok, hcode]

theorem Core.checkPreparation_stopped (h : core.checkPreparation key retained = .stopped) :
    (core.entry key).state ≠ .ssdLoading ∨ core.shuttingDown = true := by
  simp only [Core.checkPreparation] at h
  split at h
  next hstopped => simpa using hstopped
  next =>
    split at h
    next => cases h
    next => cases h

theorem Core.checkPreparation_copyNeeded (h : core.checkPreparation key retained = .copyNeeded) :
    (core.entry key).needsCopy core.config := by
  simp only [Core.checkPreparation] at h
  split at h
  next => cases h
  next =>
    split at h
    next hneeds => exact (Bool.and_eq_true _ _ ▸ hneeds).1
    next => cases h

theorem Core.retain_of_needsCopy {entry : Entry}
    (h : entry.needsCopy config) : config.retainHostCopy := by
  simp only [Entry.needsCopy, Bool.and_eq_true] at h
  exact h.1

theorem workerStep_spec (h : system.Sound)
    (hstep : system.workerStep sha256 action = some system') :
    system'.Sound ∧ Effect system action system'.core := by
  cases action with
  | popPreparation =>
    simp only [workerStep] at hstep
    split at hstep
    next key rest hidle hqueue =>
      cases hstep
      exact ⟨h.of_pop hidle hqueue, .popped ⟨hqueue, rfl⟩⟩
    next => cases hstep
  | validate span =>
    simp only [workerStep] at hstep
    split at hstep
    next key hworker =>
      have hkey : system.worker.key? = some key := by rw [hworker]; rfl
      split at hstep
      next =>
        cases hstep
        exact h.of_failure hkey rfl (by decide)
      next =>
        split at hstep
        next => cases hstep
        next =>
          split at hstep
          next status hrejected =>
            cases hstep
            obtain ⟨hstatus, hcode⟩ := Rejects.failure (validateExpertAdmission_error hrejected)
            exact h.of_failure hkey hstatus hcode
          next admission hadmitted =>
            cases hstep
            refine ⟨h.of_worker hkey.symm ?_ nofun, .spared .refl⟩
            intro prepared hprepared
            cases hprepared
            exact ⟨(h.staged_of_worker hkey).1, storedBytes_ne_zero_of_admission hadmitted, nofun⟩
    next => cases hstep
  | checkPreparation =>
    simp only [workerStep] at hstep
    split at hstep
    next prepared hworker =>
      have hkey : system.worker.key? = some prepared.key := by rw [hworker]; rfl
      have hprepared : system.worker.prepared? = some prepared := by rw [hworker]; rfl
      have hsized := h.sized prepared hprepared
      have hretained := h.retained prepared hprepared
      split at hstep
      next hstopped =>
        cases hstep
        rcases Core.checkPreparation_stopped hstopped with hstate | hdown
        · exact absurd (h.staged_of_worker hkey).2 hstate
        · exact ⟨h.of_worker_stopped hdown, .spared .refl⟩
      next hneeded =>
        cases hstep
        have hretain := Core.retain_of_needsCopy (Core.checkPreparation_copyNeeded hneeded)
        refine ⟨h.of_worker hkey.symm ?_ fun _ _ => hretain, .spared .refl⟩
        intro _ hsame
        cases hsame
        exact ⟨hsized.1, hsized.2, hretained⟩
      next =>
        cases hstep
        refine ⟨h.of_worker hkey.symm ?_ nofun, .spared .refl⟩
        intro _ hsame
        cases hsame
        exact ⟨hsized.1, hsized.2, hretained⟩
    next => cases hstep
  | copyRecord allocated =>
    simp only [workerStep] at hstep
    split at hstep
    next prepared hworker =>
      have hkey : system.worker.key? = some prepared.key := by rw [hworker]; rfl
      have hprepared : system.worker.prepared? = some prepared := by rw [hworker]; rfl
      have hsized := h.sized prepared hprepared
      have hretain := h.copying prepared hworker
      split at hstep
      next =>
        cases hstep
        refine ⟨h.of_worker hkey.symm ?_ nofun, .spared .refl⟩
        intro _ hsame
        cases hsame
        exact ⟨hsized.1, hsized.2, fun _ => hretain⟩
      next =>
        cases hstep
        exact h.of_failure hkey rfl (by decide)
    next => cases hstep
  | finishPreparation =>
    simp only [workerStep] at hstep
    split at hstep
    next prepared hworker =>
      have hkey : system.worker.key? = some prepared.key := by rw [hworker]; rfl
      have hprepared : system.worker.prepared? = some prepared := by rw [hworker]; rfl
      have hsized := h.sized prepared hprepared
      have hretained := h.retained prepared hprepared
      split at hstep
      next =>
        cases hstep
        refine ⟨h.of_worker hkey.symm ?_ nofun, .spared .refl⟩
        intro _ hsame
        cases hsame
        exact ⟨hsized.1, hsized.2, hretained⟩
      next core' hfinish =>
        cases hstep
        have houtcome := Core.finishPreparation_outcome h.core (fun _ => hsized.2) hretained
          hfinish
        refine ⟨?_, .finished hworker houtcome⟩
        rcases FinishOutcome.shifts h.core (h.preparing_of_worker hkey) houtcome with
          ⟨hdown, hsame⟩ | hshift
        · subst hsame
          exact h.of_worker_stopped hdown
        · exact h.of_worker_shift hkey hshift
    next => cases hstep
  | _ => cases hstep

/-- One step: the invariant is kept, and the effect is one of the sections. -/
theorem step_spec (h : system.Sound) (hstep : system.step sha256 action = some system') :
    system.stuck = false ∧ system'.Sound ∧ Effect system action system'.core := by
  unfold step at hstep
  split at hstep
  next => cases hstep
  next hstuck =>
    refine ⟨by simpa using hstuck, ?_⟩
    rcases Option.or_eq_some_iff.1 hstep with hclient | ⟨-, hrest⟩
    · exact clientStep_spec h hclient
    · rcases Option.or_eq_some_iff.1 hrest with hdevice | ⟨-, hworker⟩
      · exact deviceStep_spec h hdevice
      · exact workerStep_spec h hworker

section

variable
  (hboot : boot config directory slotCount slotBytes alignment reservedDemandSlots = some system)

include hboot

theorem boot_eq :
    ∃ buffers : FixedBufferPool, (∀ slot, buffers.slots.getD slot false = false) ∧
      validConfig config buffers ∧ system = { core := { config, directory, buffers } } := by
  unfold boot at hboot
  split at hboot
  next => cases hboot
  next buffers hcreate =>
    simp only [Option.ite_none_right_eq_some, Option.some.injEq] at hboot
    refine ⟨buffers, fun slot => ?_, hboot.1, hboot.2.symm⟩
    unfold FixedBufferPool.create at hcreate
    split at hcreate
    next => cases hcreate
    next =>
      cases hcreate
      by_cases hslot : slot < slotCount <;> simp [getD_eq_getElem?_getD, hslot]

theorem boot_sound
    : system.Sound := by
  obtain ⟨buffers, hfree, -, rfl⟩ := boot_eq hboot
  have hentry : ∀ key, Core.entry { config, directory, buffers } key = {} := fun _ => rfl
  refine ⟨⟨fun key => ?_, fun key priority => ?_, fun slot hused => ?_, ⟨rfl, ?_⟩, ?_⟩,
    fun key => rfl, fun key => rfl, fun key => ?_, fun _ key => ?_, ?_, ?_, ?_⟩
  · rw [hentry]
    exact EntryOk.default config {}
  · rw [hentry]
    obtain ⟨hread, hupload⟩ := Core.not_ready_new priority {}
    exact ⟨iff_of_false (OrderedSet.not_mem_empty _) hread,
      iff_of_false (OrderedSet.not_mem_empty _) hupload⟩
  · have hslot : buffers.slots.getD slot false = true := hused
    rw [hfree] at hslot
    cases hslot
  · intro attempt hattempt
    cases hattempt
  · intro key _ hdevice
    cases hdevice
  · simp [CacheSystem.preparations, Worker.key?]
  · simp [CacheSystem.preparations, Worker.key?, CacheSystem.phaseOf, hentry, Entry.phase, due]
  · intro prepared hprepared
    cases hprepared
  · intro prepared hprepared
    cases hprepared
  · intro prepared hcopying
    cases hcopying

end

theorem Sound.of_reaches {allowed : CacheSystem → Action → Prop} {start : CacheSystem}
    (hreach : Reaches (step sha256) allowed start system) (hstart : start.Sound) :
    system.Sound :=
  hreach.invariant hstart fun _ hsound _ hstep => (step_spec hsound hstep).2.1

end CacheSystem

end QuantumLlm.Runtime
