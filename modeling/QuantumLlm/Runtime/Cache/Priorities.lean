import QuantumLlm.Runtime.Cache.Budget

/-!
# Expert cache: the order of work

`next_task_locked` walks from demand to warm, over the uploads of a priority before its
reads. Whatever it passes over could not be started when the walk was there.
-/

namespace QuantumLlm.Runtime

open List

namespace Core

variable {core middle core' : Core} {key : ExpertKey} {priority : ExpertRequestPriority}

/-- An entry of this priority that waits for its upload or for its read. -/
def Pending (core : Core) (key : ExpertKey) (priority : ExpertRequestPriority) : Prop :=
  (core.entry key).UploadReady priority ∨ (core.entry key).ReadReady priority

/-- On the way from one core to the other the entry was looked at, as it was at first, and
could not be started. -/
def Passed (core core' : Core) (key : ExpertKey) (priority : ExpertRequestPriority) : Prop :=
  ∃ seen, Trace Scan core seen ∧ seen.entry key = core.entry key ∧ seen.Blocked key priority ∧
    Trace Scan seen core'

theorem Passed.after (htrace : Trace Scan core middle) (hsame : middle.entry key = core.entry key)
    (h : Passed middle core' key priority) : Passed core core' key priority := by
  obtain ⟨seen, hseen, hentry, hblocked, hrest⟩ := h
  exact ⟨seen, htrace.trans hseen, hentry.trans hsame, hblocked, hrest⟩

theorem Passed.before (h : Passed core middle key priority) (htrace : Trace Scan middle core') :
    Passed core core' key priority := by
  obtain ⟨seen, hseen, hentry, hblocked, hrest⟩ := h
  exact ⟨seen, hseen, hentry, hblocked, hrest.trans htrace⟩

theorem Selected.trace (h : Selected core Option.none core') : Trace Scan core core' := by
  cases h with
  | none htrace => exact htrace

theorem hasWaiters_of_upload {entry : Entry} (h : entry.UploadReady priority) :
    entry.hasWaiters :=
  Entry.hasWaiters_iff.2 (Or.inl h.2.2.2.1)

/-- A walk over some keys: the ready ones were passed over, the others are as before. -/
structure WalksOver (keys : List ExpertKey) (ready : Entry → Prop)
    (priority : ExpertRequestPriority) (core core' : Core) : Prop where
  passed : ∀ key ∈ keys, ready (core.entry key) → Passed core core' key priority
  others : ∀ other ∉ keys, (core.entry other).hasWaiters → core'.entry other = core.entry other

theorem WalksOver.cons {rest : List ExpertKey} {ready : Entry → Prop} (hnew : key ∉ rest)
    (hwaits : ∀ entry, ready entry → entry.hasWaiters) (hwalks : Walks key core middle)
    (hself : ready (core.entry key) → core.Blocked key priority) (htrace : Trace Scan middle core')
    (h : WalksOver rest ready priority middle core') :
    WalksOver (key :: rest) ready priority core core' where
  passed other hother hready := by
    rcases mem_cons.1 hother with rfl | hrest
    · exact ⟨core, .refl, rfl, hself hready, hwalks.trace.trans htrace⟩
    · have hne : other ≠ key := fun heq => hnew (heq ▸ hrest)
      have hsame := hwalks.others other hne (hwaits _ hready)
      exact .after hwalks.trace hsame (h.passed other hrest (hsame.symm ▸ hready))
  others other hother hwaiting := by
    rw [mem_cons, not_or] at hother
    have hsame := hwalks.others other hother.1 hwaiting
    exact (h.others other hother.2 (hsame.symm ▸ hwaiting)).trans hsame

section

variable {scan : List ExpertKey → Core → Option Task × Core} {ready : Entry → Prop}
  {kind : TaskKind} (hrounds : Rounds ready kind priority scan)

include hrounds

theorem Rounds.over (hwaits : ∀ entry, ready entry → entry.hasWaiters) (keys : List ExpertKey)
    (core : Core) (hsound : core.Sound) (hkeys : ∀ key ∈ keys, key ∈ core.entries.keys)
    (hnodup : keys.Nodup) (hnone : (scan keys core).1 = none) :
    WalksOver keys ready priority core (scan keys core).2 := by
  induction keys generalizing core with
  | nil => exact ⟨by simp, fun _ _ _ => by rw [hrounds.nil]⟩
  | cons key rest ih =>
    obtain ⟨hnew, hrestNodup⟩ := nodup_cons.1 hnodup
    obtain ⟨hkey, hrest⟩ := forall_mem_cons.1 hkeys
    have hround := hrounds.round rest hsound hkey
    generalize scan (key :: rest) core = result at hround hnone ⊢
    cases hround with
    | @passed next hwalks hself =>
      have hsoundNext := hwalks.trace.sound hsound
      have hkeysNext : ∀ other ∈ rest, other ∈ next.entries.keys := fun other hother =>
        hwalks.trace.key_mem (hrest other hother)
      have hselected := hrounds.selected rest next hsoundNext hkeysNext
      rw [hnone] at hselected
      exact .cons hnew hwaits hwalks hself hselected.trace
        (ih next hsoundNext hkeysNext hrestNodup hnone)
    | started => cases hnone

theorem Rounds.some_started {task : Task} (keys : List ExpertKey) (core : Core)
    (hsound : core.Sound) (hkeys : ∀ key ∈ keys, key ∈ core.entries.keys)
    (hsome : scan keys core = (some task, core')) :
    task.kind = kind ∧ (core'.entry task.key).effectivePriority = priority ∧
      (task.kind = .read → ∃ lease, (core'.entry task.key).host = some lease ∧
        lease.allocationClass = bufferClass priority) := by
  induction keys generalizing core with
  | nil =>
    rw [hrounds.nil] at hsome
    cases hsome
  | cons key rest ih =>
    obtain ⟨hkey, hrest⟩ := forall_mem_cons.1 hkeys
    have hround := hrounds.round rest hsound hkey
    rw [hsome] at hround
    generalize hresult : (some task, core') = result at hround
    cases hround with
    | passed hwalks hself =>
      exact ih _ (hwalks.trace.sound hsound)
        (fun other hother => hwalks.trace.key_mem (hrest other hother)) hresult.symm
    | started hselected hpriority hstaged =>
      cases hresult
      exact ⟨rfl, hpriority, hstaged⟩

end

/-- An entry was looked at before this task was started, and could not be started. -/
def Skipped (core : Core) (key : ExpertKey) (priority : ExpertRequestPriority) (task : Task)
    (core' : Core) : Prop :=
  ∃ turn, Passed core turn key priority ∧ Selected turn (some task) core'

/-- A task that was started in its turn: after everything of a higher priority, and a read
after the uploads of its own, in a slot of its class. -/
structure InTurn (core : Core) (task : Task) (core' : Core) : Prop where
  higher : ∀ key priority,
    higherPriority priority (core'.entry task.key).effectivePriority = true →
      core.Pending key priority → Skipped core key priority task core'
  uploads : task.kind = .read → ∃ turn,
    scanReads (core'.entry task.key).effectivePriority
        (turn.readTaskKeys (core'.entry task.key).effectivePriority).items turn =
      (some task, core') ∧
    ∀ key, (core.entry key).UploadReady (core'.entry task.key).effectivePriority →
      Passed core turn key (core'.entry task.key).effectivePriority
  staged : task.kind = .read → ∃ lease, (core'.entry task.key).host = some lease ∧
    lease.allocationClass = bufferClass (core'.entry task.key).effectivePriority

theorem Pending.waits (h : core.Pending key priority) : (core.entry key).hasWaiters := by
  rcases h with hupload | hread
  · exact hasWaiters_of_upload hupload
  · exact hread.2.2.1

theorem Pending.effective (h : core.Pending key priority) :
    (core.entry key).effectivePriority = priority := by
  rcases h with ⟨-, -, -, -, hpriority⟩ | ⟨-, -, -, hpriority⟩ <;> exact hpriority

theorem uploads_over (hsound : core.Sound)
    (hnone : scanUploads priority (core.uploadTaskKeys priority).items core = (none, middle)) :
    Trace Scan core middle ∧
      (∀ key, (core.entry key).UploadReady priority → Passed core middle key priority) ∧
      ∀ key, ¬(core.entry key).UploadReady priority → (core.entry key).hasWaiters →
        middle.entry key = core.entry key := by
  have hkeys : ∀ key ∈ (core.uploadTaskKeys priority).items, key ∈ core.entries.keys :=
    fun key hkey => hsound.mem_of_upload hkey
  have hselected := (scanUploads_rounds priority).selected _ core hsound hkeys
  have hover := (scanUploads_rounds priority).over (fun _ => hasWaiters_of_upload) _ core hsound
    hkeys (core.uploadTaskKeys priority).nodup (congrArg Prod.fst hnone)
  rw [hnone] at hselected hover
  exact ⟨hselected.trace,
    fun key hready => hover.passed key ((hsound.indexed key priority).2.2 hready) hready,
    fun key hready => hover.others key fun hkey => hready ((hsound.indexed key priority).2.1 hkey)⟩

theorem reads_over (hsound : core.Sound)
    (hnone : scanReads priority (core.readTaskKeys priority).items core = (none, middle)) :
    Trace Scan core middle ∧
      (∀ key, (core.entry key).ReadReady priority → Passed core middle key priority) ∧
      ∀ key, ¬(core.entry key).ReadReady priority → (core.entry key).hasWaiters →
        middle.entry key = core.entry key := by
  have hkeys : ∀ key ∈ (core.readTaskKeys priority).items, key ∈ core.entries.keys :=
    fun key hkey => hsound.mem_of_read hkey
  have hselected := (scanReads_rounds priority).selected _ core hsound hkeys
  have hover := (scanReads_rounds priority).over (fun _ hready => hready.2.2.1) _ core hsound hkeys
    (core.readTaskKeys priority).nodup (congrArg Prod.fst hnone)
  rw [hnone] at hselected hover
  exact ⟨hselected.trace,
    fun key hready => hover.passed key ((hsound.indexed key priority).1.2 hready) hready,
    fun key hready => hover.others key fun hkey => hready ((hsound.indexed key priority).1.1 hkey)⟩

theorem priority_over (hsound : core.Sound)
    (huploads : scanUploads priority (core.uploadTaskKeys priority).items core = (none, middle))
    (hreads : scanReads priority (middle.readTaskKeys priority).items middle = (none, core')) :
    (∀ key, core.Pending key priority → Passed core core' key priority) ∧
      ∀ key, ¬core.Pending key priority → (core.entry key).hasWaiters →
        core'.entry key = core.entry key := by
  obtain ⟨htrace, hpassed, hsame⟩ := uploads_over hsound huploads
  obtain ⟨htrace', hpassed', hsame'⟩ := reads_over (htrace.sound hsound) hreads
  refine ⟨fun key hpending => ?_, fun key hidle hwaiters => ?_⟩
  · rcases hpending with hupload | hread
    · exact (hpassed key hupload).before htrace'
    · have hentry := hsame key (fun hupload => by
        have hstate := hupload.1
        rw [hread.1] at hstate
        cases hstate) hread.2.2.1
      exact .after htrace hentry (hpassed' key (hentry.symm ▸ hread))
  · have hentry := hsame key (fun hupload => hidle (Or.inl hupload)) hwaiters
    rw [← hentry] at hwaiters
    exact (hsame' key (fun hread => hidle (Or.inr (hentry ▸ hread))) hwaiters).trans hentry

theorem scanPriorities_inTurn {task : Task} (priorities : List ExpertRequestPriority)
    (hdescending : priorities.Pairwise fun first second => higherPriority first second = true)
    (core : Core) (hsound : core.Sound)
    (hsome : scanPriorities priorities core = (some task, core')) :
    (core'.entry task.key).effectivePriority ∈ priorities ∧
      (∀ key, ∀ priority ∈ priorities,
        higherPriority priority (core'.entry task.key).effectivePriority = true →
          core.Pending key priority → Skipped core key priority task core') ∧
      (task.kind = .read → ∃ turn,
        scanReads (core'.entry task.key).effectivePriority
            (turn.readTaskKeys (core'.entry task.key).effectivePriority).items turn =
          (some task, core') ∧
        ∀ key, (core.entry key).UploadReady (core'.entry task.key).effectivePriority →
          Passed core turn key (core'.entry task.key).effectivePriority) ∧
      (task.kind = .read → ∃ lease, (core'.entry task.key).host = some lease ∧
        lease.allocationClass = bufferClass (core'.entry task.key).effectivePriority) := by
  induction priorities generalizing core with
  | nil => cases hsome
  | cons priority rest ih =>
    obtain ⟨hfirst, hrest⟩ := pairwise_cons.1 hdescending
    have hhighest : ∀ other ∈ priority :: rest, higherPriority other priority = true → False := by
      intro other hother hhigher
      rw [higherPriority, decide_eq_true_eq] at hhigher
      rcases mem_cons.1 hother with rfl | hother
      · exact Nat.lt_irrefl _ hhigher
      · have hlower := hfirst other hother
        rw [higherPriority, decide_eq_true_eq] at hlower
        omega
    simp only [scanPriorities] at hsome
    cases hupload : scanUploads priority (core.uploadTaskKeys priority).items core with
    | mk started middle =>
    simp only [hupload] at hsome
    cases started with
    | some started =>
      cases hsome
      obtain ⟨hkind, heffective, -⟩ := (scanUploads_rounds priority).some_started _ core hsound
        (fun key hkey => hsound.mem_of_upload hkey) hupload
      rw [heffective, hkind]
      exact ⟨mem_cons_self, fun _ other hother hhigher => (hhighest other hother hhigher).elim,
        fun h => (by cases h), fun h => by cases h⟩
    | none =>
      obtain ⟨htrace, hpassed, -⟩ := uploads_over hsound hupload
      have hmiddle := htrace.sound hsound
      simp only [hmiddle.clean.fault, Option.isSome_none, Bool.false_eq_true, if_false] at hsome
      cases hread : scanReads priority (middle.readTaskKeys priority).items middle with
      | mk started after =>
      simp only [hread] at hsome
      cases started with
      | some started =>
        cases hsome
        obtain ⟨hkind, heffective, hstaged⟩ := (scanReads_rounds priority).some_started _ middle
          hmiddle (fun key hkey => hmiddle.mem_of_read hkey) hread
        rw [heffective]
        exact ⟨mem_cons_self, fun _ other hother hhigher => (hhighest other hother hhigher).elim,
          fun _ => ⟨middle, hread, hpassed⟩, hstaged⟩
      | none =>
        obtain ⟨htrace', -⟩ := reads_over hmiddle hread
        have hafter := htrace'.sound hmiddle
        simp only [hafter.clean.fault, Option.isSome_none, Bool.false_eq_true, if_false] at hsome
        obtain ⟨hover, hsame⟩ := priority_over hsound hupload hread
        obtain ⟨hmem, hhigher, huploads, hstaged⟩ := ih hrest after hafter hsome
        have hselected := scanPriorities_selected rest after hafter
        rw [hsome] at hselected
        have hlater : ∀ key, ∀ other ∈ rest, core.Pending key other →
            after.entry key = core.entry key := by
          intro key other hother hpending
          refine hsame key (fun hhere => ?_) hpending.waits
          have hlower := hfirst other hother
          rw [← hhere.effective, ← hpending.effective, higherPriority, decide_eq_true_eq]
            at hlower
          exact Nat.lt_irrefl _ hlower
        refine ⟨mem_cons_of_mem _ hmem, fun key other hother hover' hpending => ?_,
          fun hkind => ?_, hstaged⟩
        · rcases mem_cons.1 hother with rfl | hother
          · exact ⟨after, hover key hpending, hselected⟩
          · have hentry := hlater key other hother hpending
            have hpending' : after.Pending key other := by
              rw [Pending, hentry]
              exact hpending
            obtain ⟨turn, hturn, hstarted⟩ := hhigher key other hother hover' hpending'
            exact ⟨turn, .after (htrace.trans htrace') hentry hturn, hstarted⟩
        · obtain ⟨turn, hturn, hready⟩ := huploads hkind
          refine ⟨turn, hturn, fun key hupload => ?_⟩
          have hentry := hlater key _ hmem (Or.inl hupload)
          exact .after (htrace.trans htrace') hentry (hready key (hentry.symm ▸ hupload))

theorem nextTask_inTurn {task : Task} (hsound : core.Sound)
    (hsome : core.nextTaskLocked = (some task, core')) : InTurn core task core' := by
  obtain ⟨-, hhigher, huploads, hstaged⟩ := scanPriorities_inTurn _ (by decide) core hsound hsome
  refine ⟨fun key priority => hhigher key priority ?_, huploads, hstaged⟩
  cases priority <;> decide

end Core

namespace CacheSystem

variable {sha256 : List UInt8 → Sha256Digest} {system start : CacheSystem}
  {config : ExpertCacheConfig} {directory : Option Directory} {slotCount : Nat}
  {slotBytes alignment : UInt64} {reservedDemandSlots : Nat}

theorem boot_pooled (hboot : boot config directory slotCount slotBytes alignment
      reservedDemandSlots = some start) :
    Pooled start.core.entries start.core.buffers ∧
      start.core.buffers.shape = (slotCount, slotBytes, reservedDemandSlots) := by
  unfold boot FixedBufferPool.create at hboot
  split_ifs at hboot with hinvalid
  dsimp only at hboot
  split at hboot
  next =>
    cases hboot
    have hreserved : reservedDemandSlots ≤ slotCount := by
      by_contra hover
      exact hinvalid (Or.inr (Or.inr (Or.inr (Or.inr (Nat.lt_of_not_le hover)))))
    refine ⟨⟨fun key lease hlease => ?_, fun key _ lease _ hlease => ?_, rfl, rfl, ?_,
      Nat.zero_le _, ?_⟩, ?_⟩
    · cases hlease
    · cases hlease
    · exact (count_eq_zero.2 (by simp)).symm
    · simpa using hreserved
    · simp [FixedBufferPool.shape]
  next => cases hboot

/-- Work is done in the order of its priorities, and what is not demanded leaves the reserved
slots to the demand, in every state and at every point of a walk. -/
theorem work_in_order (hboot : boot config directory slotCount slotBytes alignment
      reservedDemandSlots = some start)
    (hreach : Reaches (step sha256) (fun _ _ => True) start system) :
    (∀ task core', system.core.nextTaskLocked = (some task, core') →
      Core.InTurn system.core task core') ∧
    ∀ core, Core.Trace Core.Scan system.core core →
      (core.entries.sum fun _ entry => entry.backgroundStaging) ≤
          slotCount - reservedDemandSlots ∧
        ∀ bytes, bytes ≤ slotBytes →
          (core.entries.sum fun _ entry => entry.demandStaging) < reservedDemandSlots →
          (core.buffers.tryAcquire bytes .demand).isSome := by
  have hsound := (Sound.of_reaches hreach (boot_sound hboot)).core
  refine ⟨fun task core' hsome => Core.nextTask_inTurn hsound hsome, fun core htrace => ?_⟩
  let holds (core : Core) : Prop := Pooled core.entries core.buffers ∧
    core.buffers.shape = (slotCount, slotBytes, reservedDemandSlots)
  have hkeeps : ∀ {core core' act}, Core.Acts core core' act → holds core → holds core' :=
    fun hacts hbefore => ⟨hacts.pooled hbefore.1, hacts.shape.trans hbefore.2⟩
  have hreached : holds system.core :=
    holds_of_reaches (fun _ _ _ => hkeeps) hreach (boot_sound hboot) (boot_pooled hboot)
  obtain ⟨hpooled, hshape⟩ := htrace.lift (fun _ => hkeeps) hreached
  simp only [FixedBufferPool.shape, Prod.mk.injEq] at hshape
  obtain ⟨hcount, hbytes, hreserved⟩ := hshape
  rw [← hcount, ← hbytes, ← hreserved]
  exact ⟨hpooled.background_le, fun bytes hfits hdemand => hpooled.demand_free hfits hdemand⟩

/-- A read that is demanded, and the slot that is kept for it. -/
theorem demanded_read_in_order : ∃ (system : CacheSystem) (task : Task) (core' : Core),
    system.core.nextTaskLocked = (some task, core') ∧ Core.InTurn system.core task core' ∧
      (system.core.buffers.tryAcquire 4096 .demand).isSome := by
  let expected (system : CacheSystem) : Bool :=
    system.core.nextTaskLocked.1.isSome &&
      decide ((system.core.entries.sum fun _ entry => entry.demandStaging) = 0)
  have hrun : (runChecked (step fun _ => zeroDigest) (fun _ _ => true) (bootSmall none)
      [.acquire relu2Key relu2Manifest {} 1]).any expected = true := by
    decide +kernel
  obtain ⟨system, hreach, hexpected⟩ := reaches_of_small (fun _ _ _ => True.intro) hrun
  obtain ⟨hsome, hnone⟩ := Bool.and_eq_true_iff.1 hexpected
  obtain ⟨task, htask⟩ := Option.isSome_iff_exists.1 hsome
  obtain ⟨horder, hslots⟩ := work_in_order (bootSmall_eq none) hreach
  refine ⟨system, task, system.core.nextTaskLocked.2, Prod.ext htask rfl,
    horder task _ (Prod.ext htask rfl), (hslots system.core .refl).2 4096 (by decide) ?_⟩
  rw [of_decide_eq_true hnone]
  decide

end CacheSystem

end QuantumLlm.Runtime
