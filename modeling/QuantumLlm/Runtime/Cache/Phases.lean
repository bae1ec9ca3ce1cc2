import QuantumLlm.Runtime.Cache.Clients
import QuantumLlm.Runtime.Cache.System

/-!
# Expert cache: work in flight

An entry in flight is in one of three phases. The tasks, operations and queue
slots outside the core are tokens of these phases: the invariant of the running
system is that every entry in flight has exactly one.
-/

namespace QuantumLlm.Runtime

/-- What an entry waits for. -/
inductive Phase where
  | idle
  | loading
  | preparing
  | uploading
  deriving DecidableEq, Repr

namespace Entry

def phase (entry : Entry) : Phase :=
  match entry.state with
  | .ssdLoading => if entry.preparingHost then .preparing else .loading
  | .gpuUploading => .uploading
  | _ => .idle

variable {entry : Entry}

theorem phase_of_body {other : Entry} (h : other.body = entry.body) :
    other.phase = entry.phase :=
  field_of_body phase h

theorem phase_loading_iff :
    entry.phase = .loading ↔ entry.state = .ssdLoading ∧ entry.preparingHost = false := by
  unfold phase
  cases entry.state <;> simp

theorem phase_preparing_iff :
    entry.phase = .preparing ↔ entry.state = .ssdLoading ∧ entry.preparingHost := by
  unfold phase
  cases entry.state <;> simp

theorem phase_uploading_iff : entry.phase = .uploading ↔ entry.state = .gpuUploading := by
  unfold phase
  cases entry.state <;> simp
  split <;> simp

theorem phase_idle_iff :
    entry.phase = .idle ↔ entry.state ≠ .ssdLoading ∧ entry.state ≠ .gpuUploading := by
  unfold phase
  cases entry.state <;> simp
  split <;> simp

end Entry

/-- The phase a move leads to. -/
def Move.phaseAfter (phase : Phase) : Move → Phase
  | .fail _ | .abandonLoad | .store _ _ | .abandonUpload | .finishUpload _ => .idle
  | .startLoad _ _ | .unqueue => .loading
  | .startUpload _ => .uploading
  | .queue => .preparing
  | _ => phase

namespace Entry

variable {config : ExpertCacheConfig} {entry : Entry}

theorem phase_unstage (h : entry.state = .ramReady) : entry.unstage.phase = entry.phase := by
  rw [phase_idle_iff.2 (by simp [h] : entry.state ≠ .ssdLoading ∧ entry.state ≠ .gpuUploading),
    phase_idle_iff]
  unfold unstage
  split <;> simp [h, enter, releaseStaging]

theorem phase_abandonedIfIdle : entry.abandonedIfIdle.phase = entry.phase := by
  unfold abandonedIfIdle
  split
  next => rfl
  next =>
    split
    next hready =>
      simp only [Bool.and_eq_true, decide_eq_true_eq] at hready
      exact phase_unstage hready.1
    next => rfl

theorem phase_hostSatisfied : entry.hostSatisfied.phase = entry.phase := by
  unfold hostSatisfied
  split <;> rfl

theorem state_evicted {needRam needVram : Bool} :
    (entry.evicted needRam needVram).state = entry.state ∨
      (entry.evicted needRam needVram).state = .ramReady ∨
      (entry.evicted needRam needVram).state = .absent := by
  have hhost : (entry.evictHost needRam).state = entry.state := by
    unfold evictHost
    split <;> rfl
  have hdevice : ((entry.evictHost needRam).evictDevice needVram).state = entry.state ∨
      ((entry.evictHost needRam).evictDevice needVram).state = .ramReady ∨
      ((entry.evictHost needRam).evictDevice needVram).state = .absent := by
    unfold evictDevice
    split_ifs
    · exact Or.inr (Or.inl rfl)
    · exact Or.inr (Or.inr rfl)
    · exact Or.inl hhost
    · exact Or.inl hhost
  unfold evicted evictEmpty
  split
  next => exact Or.inr (Or.inr rfl)
  next => exact hdevice

theorem moved_phase {move : Move} (hok : EntryOk config entry)
    (henabled : Enabled config entry move) :
    (entry.moved config move).phase = move.phaseAfter entry.phase := by
  cases move with
  | evict needRam needVram =>
    have hidle : entry.phase = .idle := by
      rw [phase_idle_iff]
      have hevictable := henabled.1
      simp only [evictable, Bool.and_eq_true, decide_eq_true_eq] at hevictable
      exact ⟨hevictable.1.1.2, hevictable.1.2⟩
    show (entry.evicted needRam needVram).phase = entry.phase
    rw [hidle, phase_idle_iff]
    rw [phase_idle_iff] at hidle
    rcases @state_evicted entry needRam needVram with hstate | hstate | hstate <;>
      simp [hstate, hidle]
  | join | joinHost | reject | shrink | grant | release | clear => rfl
  | withdraw | withdrawHost => exact phase_abandonedIfIdle
  | fail | abandonLoad | store | startUpload => rfl
  | startLoad lease admitted =>
    rw [Move.phaseAfter, phase_loading_iff]
    have hidle : entry.preparingHost = false := by
      by_contra hset
      have hloading := hok.preparing (by simpa using hset)
      rw [henabled.1] at hloading
      cases hloading
    cases admitted <;> exact ⟨rfl, hidle⟩
  | queue => rw [Move.phaseAfter, phase_preparing_iff]; exact ⟨henabled, rfl⟩
  | unqueue => rw [Move.phaseAfter, phase_loading_iff]; exact ⟨henabled, rfl⟩
  | settle =>
    show entry.settled.phase = entry.phase
    rw [← @phase_hostSatisfied entry]
    unfold settled
    have hstate : entry.hostSatisfied.state = .ramReady := by
      unfold hostSatisfied
      split <;> exact henabled
    simp only
    split
    next => exact phase_unstage hstate
    next => rfl
  | abandonUpload =>
    show (entry.uploadAbandoned).phase = .idle
    unfold uploadAbandoned
    rw [phase_unstage rfl]
    rfl
  | finishUpload allocation =>
    show (entry.uploaded config.retainHostCopy allocation).phase = .idle
    unfold uploaded releaseUploadSource
    split <;> rfl

theorem moved_record {move : Move} : (entry.moved config move).record = entry.record := by
  have hunstage : ∀ entry : Entry, entry.unstage.record = entry.record := by
    intro entry
    unfold unstage
    split <;> rfl
  have hidle : ∀ entry : Entry, entry.abandonedIfIdle.record = entry.record := by
    intro entry
    unfold abandonedIfIdle
    split_ifs
    · rfl
    · exact hunstage entry
    · rfl
  cases move with
  | evict needRam needVram =>
    have hhost : (entry.evictHost needRam).record = entry.record := by
      unfold evictHost
      split <;> rfl
    have hdevice : ((entry.evictHost needRam).evictDevice needVram).record = entry.record := by
      unfold evictDevice
      split_ifs <;> exact hhost
    show (entry.evicted needRam needVram).record = _
    unfold evicted evictEmpty
    split <;> exact hdevice
  | withdraw | withdrawHost => exact hidle _
  | startLoad lease admitted => cases admitted <;> rfl
  | startUpload reserved => cases reserved <;> rfl
  | settle =>
    have hsatisfied : entry.hostSatisfied.record = entry.record := by
      unfold hostSatisfied
      split <;> rfl
    show entry.settled.record = _
    unfold settled
    simp only
    split
    next => exact (hunstage _).trans hsatisfied
    next => exact hsatisfied
  | abandonUpload => exact hunstage _
  | finishUpload allocation =>
    show (entry.uploaded config.retainHostCopy allocation).record = _
    unfold uploaded releaseUploadSource
    split <;> rfl
  | _ => rfl

end Entry

namespace Core

variable {core middle core' : Core} {key other : ExpertKey} {act : Act}

theorem Moves.phase_self {move : Move} (h : Moves key move core core') (hsound : core.Sound) :
    (core'.entry key).phase = move.phaseAfter (core.entry key).phase := by
  rw [h.entry]
  exact Entry.moved_phase (hsound.ok key) h.enabled

theorem Moves.phase_other {move : Move} (h : Moves key move core core') (hne : other ≠ key) :
    (core'.entry other).phase = (core.entry other).phase := by
  rw [h.others other hne]

theorem Noted.phase (h : Noted core core') (key : ExpertKey) :
    (core'.entry key).phase = (core.entry key).phase :=
  Entry.phase_of_body (h.body key)

/-- The act moves no entry to another phase and hands nothing to the worker. -/
def Act.Still (core : Core) : Act → Prop
  | .move key made =>
    made.phaseAfter (core.entry key).phase = (core.entry key).phase ∧ made.queued key = []
  | .pop _ => False
  | _ => True

/-- What a section that keeps every phase leaves to the rest of the system. -/
structure Steady (core core' : Core) : Prop where
  sound : core.Sound → core'.Sound
  phase : core.Sound → ∀ key, (core'.entry key).phase = (core.entry key).phase
  queue : core'.hostPrepareQueue = core.hostPrepareQueue
  record : ∀ key ∈ core.entries.keys,
    key ∈ core'.entries.keys ∧ (core'.entry key).record = (core.entry key).record
  retain : core'.config.retainHostCopy = core.config.retainHostCopy
  stopped : core.shuttingDown → core'.shuttingDown

theorem Acts.record (h : Acts core core' act) (hkey : key ∈ core.entries.keys) :
    (core'.entry key).record = (core.entry key).record := by
  rcases h.entry_cases key with hbody | ⟨move, _, _, hentry⟩ | ⟨_, _, hmissing, _⟩
  · exact Entry.field_of_body Entry.record hbody
  · rw [hentry]
    exact Entry.moved_record
  · exact absurd hkey hmissing

theorem Acts.stopped (h : Acts core core' act) (hstopped : core.shuttingDown) :
    core'.shuttingDown := by
  cases act with
  | note => rw [Noted.shuttingDown h]; exact hstopped
  | move => rw [Local.shuttingDown h.toLocal]; exact hstopped
  | emplace | issue | answer | returned | dropped => cases h; exact hstopped
  | stop => cases h; rfl
  | configure => rw [h.2.2.2]; exact hstopped
  | pop => rw [h.2]; exact hstopped

namespace Steady

theorem refl : Steady core core :=
  ⟨fun h => h, fun _ _ => rfl, rfl, fun _ hkey => ⟨hkey, rfl⟩, rfl, fun h => h⟩

theorem of_eq (h : core' = core) : Steady core core' := h ▸ refl

theorem trans (first : Steady core middle) (second : Steady middle core') : Steady core core' where
  sound h := second.sound (first.sound h)
  phase h key := (second.phase (first.sound h) key).trans (first.phase h key)
  queue := second.queue.trans first.queue
  record key hkey := by
    obtain ⟨hmiddle, hrecord⟩ := first.record key hkey
    obtain ⟨hmem, hlast⟩ := second.record key hmiddle
    exact ⟨hmem, hlast.trans hrecord⟩
  retain := second.retain.trans first.retain
  stopped h := second.stopped (first.stopped h)

theorem of_act (h : Acts core core' act) (hstill : act.Still core) : Steady core core' where
  sound := h.sound
  phase hsound key := by
    cases act with
    | note => exact Noted.phase h key
    | move moved move =>
      by_cases heq : key = moved
      · subst heq
        rw [h.phase_self hsound, hstill.1]
      · exact h.phase_other heq
    | emplace created record =>
      cases h
      rcases core.emplace_cases created record key with hsame | ⟨_, _, hold, hnew⟩
      · rw [hsame]
      · rw [hold, hnew]
        rfl
    | issue | answer | returned | dropped | stop => cases h; rfl
    | configure => rw [h.2.2.2]; rfl
    | pop => cases hstill
  queue := by
    cases act with
    | note => exact Noted.queue h
    | move moved move => rw [h.queue, hstill.2, List.append_nil]
    | emplace | issue | answer | returned | dropped | stop => cases h; rfl
    | configure => rw [h.2.2.2]; rfl
    | pop => cases hstill
  record _ hkey := ⟨h.key_mem hkey, h.record hkey⟩
  retain := h.retainHostCopy
  stopped := h.stopped

theorem of_trace {allowed : Core → Act → Prop} (h : Trace allowed core core')
    (hstill : ∀ core act, allowed core act → act.Still core) : Steady core core' := by
  induction h with
  | refl => exact refl
  | tail _ hallowed hact ih => exact ih.trans (of_act hact (hstill _ _ hallowed))

theorem of_spare {excluded : Option ExpertKey} (h : Trace (Spare excluded) core core') :
    Steady core core' :=
  of_trace h fun _ _ hspare => by
    rcases hspare with rfl | ⟨victim, needRam, needVram, rfl, _⟩
    · trivial
    · exact ⟨rfl, rfl⟩

theorem of_noted (h : Noted core core') : Steady core core' :=
  @of_act core core' .note h trivial

theorem of_moves {move : Move} (h : Moves key move core core')
    (hphase : move.phaseAfter (core.entry key).phase = (core.entry key).phase)
    (hqueue : move.queued key = []) : Steady core core' :=
  @of_act core core' (.move key move) h ⟨hphase, hqueue⟩

theorem of_scan (h : Trace Scan core core') : Steady core core' :=
  of_trace h fun core act hscan => by
    cases act with
    | move key move =>
      cases move with
      | evict | reject => exact ⟨rfl, rfl⟩
      | fail status =>
        refine ⟨?_, rfl⟩
        have habsent := hscan.1
        exact (Entry.phase_idle_iff.2 (by simp [habsent])).symm
      | _ => cases hscan
    | note => trivial
    | _ => cases hscan

theorem of_requests {ticket : Ticket} {record : PayloadRecord}
    (h : Requests key ticket record core core') : Steady core core' := by
  have hissue : Steady core (core.issue ticket) := @of_act _ _ (.issue ticket) rfl trivial
  have hanswer : ∀ (core : Core) (status : Status), Steady core (core.answer ticket.id status) :=
    fun core status => @of_act _ _ (.answer ticket.id status) rfl trivial
  cases h with
  | stopped => exact hissue.trans (hanswer _ _)
  | opened htrace hends =>
    have hopen := hissue.trans
      ((@of_act _ _ (.emplace key record) rfl trivial).trans (of_spare htrace))
    refine hopen.trans ?_
    cases hends with
    | refused => exact hanswer _ _
    | hit => exact hanswer _ _
    | leased hmoves => exact (of_moves hmoves rfl rfl).trans (hanswer _ _)
    | joined _ _ hmoves => exact of_moves hmoves rfl rfl
    | joinedHost _ _ _ hmoves => exact of_moves hmoves rfl rfl

theorem of_returnLease (core : Core) (lease : Lease) : Steady core (core.returnLease lease) := by
  have hforget : ∀ core : Core, Steady core (core.forget lease) :=
    fun core => @of_act _ _ (.returned lease) rfl trivial
  rcases core.returnLease_spec lease with ⟨_, heq⟩ | ⟨removed, noted, hmoves, hnoted, heq⟩
  · rw [heq]
    exact hforget core
  · rw [heq]
    exact ((of_moves hmoves rfl rfl).trans (of_noted hnoted)).trans (hforget noted)

end Steady

end Core

end QuantumLlm.Runtime
