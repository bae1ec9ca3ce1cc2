import QuantumLlm.Runtime.Cache.Phases

/-!
# Expert cache: soundness of the running system

Every step of the running system keeps the core sound and every token of work in
flight matched by the phase of its entry. This is what makes a completion find
its entry where its thread left it.
-/

namespace QuantumLlm.Runtime

namespace Worker

def key? : Worker → Option ExpertKey
  | .idle => none
  | .popped key => some key
  | .validated prepared | .copying prepared | .finishing prepared => some prepared.key

def prepared? : Worker → Option Prepared
  | .idle | .popped _ => none
  | .validated prepared | .copying prepared | .finishing prepared => some prepared

end Worker

namespace CacheSystem

variable {system system' : CacheSystem} {key : ExpertKey}

/-- Selected and started reads of a key. -/
def loads (system : CacheSystem) (key : ExpertKey) : Nat :=
  system.tasks.count ⟨.read, key⟩ + system.reads.countP (·.key = key)

/-- Selected and started uploads of a key. -/
def sends (system : CacheSystem) (key : ExpertKey) : Nat :=
  system.tasks.count ⟨.upload, key⟩ + system.uploads.countP (·.key = key)

/-- Queued and running preparations of a key. -/
def preparations (system : CacheSystem) (key : ExpertKey) : Nat :=
  system.core.hostPrepareQueue.count key + if system.worker.key? = some key then 1 else 0

/-- One token for an entry in the phase, none otherwise. -/
def due (phase expected : Phase) : Nat := if phase = expected then 1 else 0

@[simp] theorem due_self (phase : Phase) : due phase phase = 1 := if_pos rfl

variable {phase expected target : Phase} {operation : Operation} {core core' middle : Core}

theorem due_of_ne (h : phase ≠ expected) : due phase expected = 0 :=
  if_neg h

theorem due_pos (h : 0 < due phase expected) : phase = expected := by
  by_contra hne
  rw [due_of_ne hne] at h
  exact Nat.lt_irrefl 0 h

abbrev phaseOf (system : CacheSystem) (key : ExpertKey) : Phase := (system.core.entry key).phase

structure Sound (system : CacheSystem) : Prop where
  core : system.core.Sound
  loads : ∀ key, system.loads key = due (system.phaseOf key) .loading
  sends : ∀ key, system.sends key = due (system.phaseOf key) .uploading
  preparations : ∀ key, system.preparations key ≤ due (system.phaseOf key) .preparing
  /-- Only a stopped worker gives a preparation up. -/
  running : system.core.shuttingDown = false →
    ∀ key, system.preparations key = due (system.phaseOf key) .preparing
  sized : ∀ prepared, system.worker.prepared? = some prepared →
    prepared.key ∈ system.core.entries.keys ∧
      (system.core.entry prepared.key).record.storedBytes ≠ 0
  retained : ∀ prepared, system.worker.prepared? = some prepared → prepared.retained.isSome →
    system.core.config.retainHostCopy
  copying : ∀ prepared, system.worker = .copying prepared → system.core.config.retainHostCopy

section

variable (h : system.Sound)

include h

theorem Sound.loading_of_read
    (hmem : operation ∈ system.reads) : system.phaseOf operation.key = .loading := by
  refine due_pos ?_
  rw [← h.loads]
  have hpos : 0 < system.reads.countP (·.key = operation.key) :=
    List.countP_pos_iff.2 ⟨operation, hmem, by simp⟩
  exact Nat.lt_of_lt_of_le hpos (Nat.le_add_left _ _)

theorem Sound.uploading_of_upload
    (hmem : operation ∈ system.uploads) : system.phaseOf operation.key = .uploading := by
  refine due_pos ?_
  rw [← h.sends]
  have hpos : 0 < system.uploads.countP (·.key = operation.key) :=
    List.countP_pos_iff.2 ⟨operation, hmem, by simp⟩
  exact Nat.lt_of_lt_of_le hpos (Nat.le_add_left _ _)

theorem Sound.uploading_of_task (hmem : ⟨.upload, key⟩ ∈ system.tasks) :
    system.phaseOf key = .uploading := by
  refine due_pos ?_
  rw [← h.sends]
  exact Nat.lt_of_lt_of_le (List.count_pos_iff.2 hmem) (Nat.le_add_right _ _)

theorem Sound.preparing_of_worker (hkey : system.worker.key? = some key) :
    system.phaseOf key = .preparing := by
  refine due_pos (Nat.lt_of_lt_of_le ?_ (h.preparations key))
  rw [CacheSystem.preparations, if_pos hkey]
  exact Nat.succ_pos _

/-- The invariant only looks at the core, the tokens and the worker. -/
theorem Sound.of_steady (hcore : Core.Steady system.core system'.core)
    (hloads : ∀ key, system'.loads key = system.loads key)
    (hsends : ∀ key, system'.sends key = system.sends key)
    (hworker : system'.worker = system.worker) : system'.Sound := by
  have hphase : ∀ key, system'.phaseOf key = system.phaseOf key := hcore.phase h.core
  have hpreparations : ∀ key, system'.preparations key = system.preparations key := by
    intro key
    rw [CacheSystem.preparations, CacheSystem.preparations, hcore.queue, hworker]
  refine ⟨hcore.sound h.core, fun key => ?_, fun key => ?_, fun key => ?_, fun hrunning key => ?_,
    fun prepared hprepared => ?_, fun prepared hprepared hsome => ?_, fun prepared hcopying => ?_⟩
  · rw [hloads, hphase, h.loads]
  · rw [hsends, hphase, h.sends]
  · rw [hpreparations, hphase]
    exact h.preparations key
  · rw [hpreparations, hphase]
    refine h.running ?_ key
    by_contra hstopped
    have hlast := hcore.stopped (by simpa using hstopped)
    rw [hrunning] at hlast
    cases hlast
  · rw [hworker] at hprepared
    obtain ⟨hkey, hsize⟩ := h.sized prepared hprepared
    obtain ⟨hmem, hrecord⟩ := hcore.record _ hkey
    exact ⟨hmem, by rw [hrecord]; exact hsize⟩
  · rw [hworker] at hprepared
    rw [hcore.retain]
    exact h.retained prepared hprepared hsome
  · rw [hworker] at hcopying
    rw [hcore.retain]
    exact h.copying prepared hcopying

end

/-- What no section undoes: the entries, the configuration and the shutdown. -/
structure Lasting (core core' : Core) : Prop where
  record : ∀ other ∈ core.entries.keys,
    other ∈ core'.entries.keys ∧ (core'.entry other).record = (core.entry other).record
  retain : core'.config.retainHostCopy = core.config.retainHostCopy
  stopped : core.shuttingDown → core'.shuttingDown

theorem Lasting.trans (first : Lasting core middle) (second : Lasting middle core') :
    Lasting core core' where
  record other hother := by
    obtain ⟨hmiddle, hrecord⟩ := first.record other hother
    obtain ⟨hmem, hlast⟩ := second.record other hmiddle
    exact ⟨hmem, hlast.trans hrecord⟩
  retain := second.retain.trans first.retain
  stopped hstopped := second.stopped (first.stopped hstopped)

/-- A section after which `key` is in phase `target` and some keys are behind the queue. -/
structure Shifts (key : ExpertKey) (target : Phase) (queued : List ExpertKey)
    (core core' : Core) : Prop extends Lasting core core' where
  sound : core'.Sound
  self : (core'.entry key).phase = target
  others : ∀ other, other ≠ key → (core'.entry other).phase = (core.entry other).phase
  queue : core'.hostPrepareQueue = core.hostPrepareQueue ++ queued

theorem Shifts.of_moves {move : Move} (h : Core.Moves key move core core') (hsound : core.Sound) :
    Shifts key (move.phaseAfter (core.entry key).phase) (move.queued key) core core' where
  sound := h.sound hsound
  self := h.phase_self hsound
  others _ hne := h.phase_other hne
  queue := h.queue
  record _ hother := ⟨h.key_mem' hother, @Core.Acts.record _ _ _ (.move key move) h hother⟩
  retain := by rw [h.config]
  stopped hstopped := by rw [h.shuttingDown]; exact hstopped

theorem Shifts.before {queued : List ExpertKey} (hsound : core.Sound)
    (first : Core.Steady core middle) (second : Shifts key target queued middle core') :
    Shifts key target queued core core' where
  toLasting := .trans ⟨first.record, first.retain, first.stopped⟩ second.toLasting
  sound := second.sound
  self := second.self
  others other hne := (second.others other hne).trans (first.phase hsound other)
  queue := by rw [second.queue, first.queue]

theorem Shifts.after {queued : List ExpertKey} (first : Shifts key target queued core middle)
    (second : Core.Steady middle core') : Shifts key target queued core core' where
  toLasting := first.toLasting.trans ⟨second.record, second.retain, second.stopped⟩
  sound := second.sound first.sound
  self := (second.phase first.sound key).trans first.self
  others other hne := (second.phase first.sound other).trans (first.others other hne)
  queue := second.queue.trans first.queue

theorem Shifts.trans {between : Phase} {queued : List ExpertKey}
    (first : Shifts key between [] core middle) (second : Shifts key target queued middle core') :
    Shifts key target queued core core' where
  toLasting := first.toLasting.trans second.toLasting
  sound := second.sound
  self := second.self
  others other hne := (second.others other hne).trans (first.others other hne)
  queue := by rw [second.queue, first.queue, List.append_nil]

/-- The tokens of `key` follow its phase, those of other keys stay. -/
structure Retokens (key : ExpertKey) (target : Phase) (system system' : CacheSystem) : Prop where
  loads : system'.loads key = due target .loading
  sends : system'.sends key = due target .uploading
  preparations : system'.preparations key = due target .preparing
  others : ∀ other, other ≠ key → system'.loads other = system.loads other ∧
    system'.sends other = system.sends other ∧
    system'.preparations other = system.preparations other

theorem Sound.of_shift (h : system.Sound) {queued : List ExpertKey}
    (hcore : Shifts key target queued system.core system'.core)
    (htokens : Retokens key target system system')
    (hworker : system'.worker = system.worker ∨ system'.worker = .idle) : system'.Sound := by
  have hkept : ∀ prepared, system'.worker.prepared? = some prepared →
      system.worker.prepared? = some prepared := by
    intro prepared hprepared
    rcases hworker with hsame | hidle
    · rw [hsame] at hprepared
      exact hprepared
    · rw [hidle] at hprepared
      cases hprepared
  have hself : system'.phaseOf key = target := hcore.self
  have hothers : ∀ other, other ≠ key → system'.phaseOf other = system.phaseOf other :=
    hcore.others
  refine ⟨hcore.sound, fun other => ?_, fun other => ?_, fun other => ?_, fun hrunning other => ?_,
    fun prepared hprepared => ?_, fun prepared hprepared hsome => ?_, fun prepared hcopying => ?_⟩
  · by_cases heq : other = key
    · rw [heq, hself, htokens.loads]
    · rw [hothers other heq, (htokens.others other heq).1, h.loads]
  · by_cases heq : other = key
    · rw [heq, hself, htokens.sends]
    · rw [hothers other heq, (htokens.others other heq).2.1, h.sends]
  · by_cases heq : other = key
    · rw [heq, hself, htokens.preparations]
    · rw [hothers other heq, (htokens.others other heq).2.2]
      exact h.preparations other
  · by_cases heq : other = key
    · rw [heq, hself, htokens.preparations]
    · rw [hothers other heq, (htokens.others other heq).2.2]
      refine h.running ?_ other
      by_contra hstopped
      have hlast := hcore.stopped (by simpa using hstopped)
      rw [hrunning] at hlast
      cases hlast
  · obtain ⟨hkey, hsize⟩ := h.sized prepared (hkept prepared hprepared)
    obtain ⟨hmem, hrecord⟩ := hcore.record _ hkey
    exact ⟨hmem, by rw [hrecord]; exact hsize⟩
  · rw [hcore.retain]
    exact h.retained prepared (hkept prepared hprepared) hsome
  · rcases hworker with hsame | hidle
    · rw [hcore.retain]
      exact h.copying prepared (hsame ▸ hcopying)
    · rw [hidle] at hcopying
      cases hcopying

theorem Sound.of_worker {worker : Worker} (h : system.Sound)
    (hkey : worker.key? = system.worker.key?)
    (hprepared : ∀ prepared, worker.prepared? = some prepared →
      prepared.key ∈ system.core.entries.keys ∧
        (system.core.entry prepared.key).record.storedBytes ≠ 0 ∧
        (prepared.retained.isSome → system.core.config.retainHostCopy))
    (hcopying : ∀ prepared, worker = .copying prepared → system.core.config.retainHostCopy) :
    Sound { system with worker } := by
  have hpreparations : ∀ key, CacheSystem.preparations { system with worker } key =
      system.preparations key := by
    intro key
    rw [CacheSystem.preparations, CacheSystem.preparations, hkey]
  exact ⟨h.core, h.loads, h.sends, fun key => by rw [hpreparations]; exact h.preparations key,
    fun hrunning key => by rw [hpreparations]; exact h.running hrunning key,
    fun prepared hsome => ⟨(hprepared prepared hsome).1, (hprepared prepared hsome).2.1⟩,
    fun prepared hsome => (hprepared prepared hsome).2.2, hcopying⟩

end CacheSystem

end QuantumLlm.Runtime
