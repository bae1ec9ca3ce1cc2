import QuantumLlm.Runtime.Cache.Steps

/-!
# Expert cache: invariants of runs

A step of the system is a trace of acts, so what every act keeps holds in every
state of every run.
-/

namespace QuantumLlm.Runtime

namespace Core

/-- A completion that hands its allocation over: somebody waits for the upload, the
allocation is accepted, and the directory takes it. -/
def Lands (core : Core) (key : ExpertKey) (result : UploadResult) (published : Status)
    (allocation : DeviceAllocation) : Prop :=
  (core.entry key).state = .gpuUploading ∧ (core.entry key).waiters ≠ [] ∧
    acceptedAllocation (core.entry key) result = some allocation ∧
    (core.directory.isSome → published.ok)

/-- A read that the walk found pending, with room for it where the walk stopped. -/
structure Starts (core middle : Core) (key : ExpertKey) (lease : PoolLease)
    (admitted : Option Bool) : Prop where
  pending : (core.entry key).state = .absent ∧ (core.entry key).hasWaiters
  config : middle.config = core.config
  reserved : (middle.entry key).vramReserved = (core.entry key).vramReserved
  ring : middle.config.placement.vramTransientBytes = 0 → ∀ resident, admitted = some resident →
    resident = true ∨ deviceBytes (middle.entry key).record = 0
  rooms : core.Sound → core.Classed → middle.Rooms key (.startLoad lease admitted)

/-- What the acts of a step are known by: a budget is configured by its own action, a device
copy arrives with the completion of its upload, and what is started was selected. -/
def Permits (system : CacheSystem) (action : Action) (core : Core) : Act → Prop
  | .configure budget transientBytes => action = .configureVramBudget budget transientBytes
  | .move key (.finishUpload allocation) => ∃ operation result published,
      action = .uploadComplete operation result published ∧ operation.key = key ∧
        Lands system.core key result published allocation ∧
        (core.entry key).references = (system.core.entry key).references
  | .move key (.startLoad lease admitted) =>
    action = .nextTask ∧ Starts system.core core key lease admitted
  | .move key (.startUpload reserved) =>
    system.core.Sound → system.core.Classed → core.Rooms key (.startUpload reserved)
  | _ => True

variable {core middle core' : Core} {key : ExpertKey} {system : CacheSystem} {action : Action}

theorem Spare.permits {excluded : Option ExpertKey} {act : Act} (h : Spare excluded core act) :
    Permits system action core act := by
  rcases h with rfl | ⟨victim, needRam, needVram, rfl, -⟩ <;> exact True.intro

theorem Scan.permits {act : Act} (h : Scan core act) : Permits system action core act := by
  cases act with
  | move key move => cases move <;> first | exact True.intro | exact False.elim h
  | note => exact True.intro
  | _ => exact False.elim h

theorem Clears.permits {act : Act} (h : Clears core act) : Permits system action core act := by
  obtain ⟨key, rfl⟩ := h
  exact True.intro

theorem Noted.permits (h : Noted core core') : Trace (Permits system action) core core' :=
  @Trace.single _ core core' .note True.intro h

theorem Ends.permits {ticket : Ticket} (h : Ends key ticket core core') :
    Trace (Permits system action) core core' := by
  cases h with
  | refused => exact @Trace.single _ _ _ (.answer ticket.id _) True.intro rfl
  | hit => exact @Trace.single _ _ _ (.answer ticket.id _) True.intro rfl
  | leased hmoves =>
    exact (@Trace.single _ _ _ (.move key (.grant ticket.id _)) True.intro hmoves).trans
      (@Trace.single _ _ _ (.answer ticket.id _) True.intro rfl)
  | joined _ _ hmoves => exact @Trace.single _ _ _ (.move key (.join _)) True.intro hmoves
  | joinedHost _ _ _ hmoves => exact @Trace.single _ _ _ (.move key (.joinHost _)) True.intro hmoves

theorem Requests.permits {ticket : Ticket} {record : PayloadRecord}
    (h : Requests key ticket record core core') :
    Trace (Permits system action) core core' := by
  have hissue : Trace (Permits system action) core (core.issue ticket) :=
    @Trace.single _ _ _ (.issue ticket) True.intro rfl
  cases h with
  | stopped => exact hissue.trans (@Trace.single _ _ _ (.answer ticket.id _) True.intro rfl)
  | opened hspare hends =>
    have hemplace : Trace (Permits system action) (core.issue ticket)
        ((core.issue ticket).emplace key record) :=
      @Trace.single _ _ _ (.emplace key record) True.intro rfl
    exact (hissue.trans hemplace).trans
      ((hspare.mono fun _ _ hspare => hspare.permits).trans hends.permits)

theorem returnLease_permits (lease : Lease) :
    Trace (Permits system action) core (core.returnLease lease) := by
  rcases core.returnLease_spec lease with ⟨-, hforget⟩ | ⟨removed, noted, hmoves, hnoted, hforget⟩
  · rw [hforget]
    exact @Trace.single _ _ _ (.returned lease) True.intro rfl
  · rw [hforget]
    have hrelease : Trace (Permits system action) core removed :=
      @Trace.single _ _ _ (.move lease.key .release) True.intro hmoves
    exact (hrelease.trans hnoted.permits).trans
      (@Trace.single _ _ _ (.returned lease) True.intro rfl)

theorem dropHandle_permits (id : WaiterId) :
    Trace (Permits system action) core (core.dropHandle id) := by
  have hmark : Trace (Permits system action) core (core.markDropped id) :=
    @Trace.single _ _ _ (.dropped id) True.intro rfl
  unfold dropHandle
  cases core.journal.leases.find? (·.id = id) with
  | none => exact hmark
  | some lease => exact hmark.trans (returnLease_permits lease)

theorem Moves.permits {move : Move} (h : Moves key move core core')
    (hfree : (∀ allocation, move ≠ .finishUpload allocation) ∧
      (∀ lease admitted, move ≠ .startLoad lease admitted) ∧
      ∀ reserved, move ≠ .startUpload reserved) :
    Trace (Permits system action) core core' := by
  refine @Trace.single _ _ _ (.move key move) ?_ h
  cases move with
  | finishUpload allocation => exact absurd rfl (hfree.1 allocation)
  | startLoad lease admitted => exact absurd rfl (hfree.2.1 lease admitted)
  | startUpload reserved => exact absurd rfl (hfree.2.2 reserved)
  | _ => exact True.intro

theorem ReadOutcome.permits {result : ReadResult} (h : ReadOutcome key result core core') :
    Trace (Permits system action) core core' := by
  cases h with
  | ignored => exact .refl
  | abandoned hbefore hmoves hafter =>
    exact (hbefore.permits.trans (hmoves.permits (by simp))).trans hafter.permits
  | failed hbefore hmoves => exact hbefore.permits.trans (hmoves.permits (by simp))
  | queued hbefore hmoves => exact hbefore.permits.trans (hmoves.permits (by simp))

theorem FailureOutcome.permits {status : Status} (h : FailureOutcome key status core core') :
    Trace (Permits system action) core core' := by
  cases h with
  | ignored => exact .refl
  | failed hunqueue hmoves => exact (hunqueue.permits (by simp)).trans (hmoves.permits (by simp))

theorem FinishOutcome.permits {admission : ExpertAdmission}
    {retained : Option ImmutableHostBuffer} (h : FinishOutcome key admission retained core core') :
    Trace (Permits system action) core core' := by
  cases h with
  | ignored => exact .refl
  | abandoned hunqueue hmoves => exact (hunqueue.permits (by simp)).trans (hmoves.permits (by simp))
  | finished hunqueue hstore hspare hsettle =>
    exact ((hunqueue.permits (by simp)).trans (hstore.permits (by simp))).trans
      ((hspare.mono fun _ _ hspare => hspare.permits).trans (hsettle.permits (by simp)))

theorem hasWaiters_evicted {entry : Entry} {needRam needVram : Bool} :
    (entry.evicted needRam needVram).hasWaiters = entry.hasWaiters := by
  have hhost : (entry.evictHost needRam).hasWaiters = entry.hasWaiters := by
    unfold Entry.evictHost
    split <;> rfl
  have hdevice : ∀ entry : Entry, (entry.evictDevice needVram).hasWaiters = entry.hasWaiters := by
    intro entry
    unfold Entry.evictDevice
    split
    next => split <;> rfl
    next => rfl
  have hempty : ∀ entry : Entry, entry.evictEmpty.hasWaiters = entry.hasWaiters := by
    intro entry
    unfold Entry.evictEmpty
    split <;> rfl
  rw [Entry.evicted, hempty, hdevice, hhost]

theorem scan_pending (h : Trace Scan core middle) (hstate : (middle.entry key).state = .absent)
    (hwaiting : (middle.entry key).hasWaiters) :
    ((core.entry key).state = .absent ∧ (core.entry key).hasWaiters) ∧
      (middle.entry key).vramReserved = (core.entry key).vramReserved := by
  refine @Trace.lift _ _ _ (fun later => (later.entry key).state = .absent →
    (later.entry key).hasWaiters → ((core.entry key).state = .absent ∧
      (core.entry key).hasWaiters) ∧ (later.entry key).vramReserved =
        (core.entry key).vramReserved) h ?_ (fun hstart hwaits => ⟨⟨hstart, hwaits⟩, rfl⟩) hstate
    hwaiting
  intro before after act hscan hact hbefore hstate hwaiting
  rcases hact.entry_cases key with hbody | ⟨move, rfl, henabled, hentry⟩ | ⟨record, rfl, -⟩
  · rw [Entry.field_of_body Entry.state hbody] at hstate
    rw [Entry.field_of_body Entry.hasWaiters hbody] at hwaiting
    rw [Entry.field_of_body Entry.vramReserved hbody]
    exact hbefore hstate hwaiting
  · rw [hentry] at hstate hwaiting ⊢
    cases move with
    | evict needRam needVram =>
      have hidle := henabled.1
      rw [Entry.moved, hasWaiters_evicted] at hwaiting
      simp [Entry.evictable, hwaiting] at hidle
    | reject =>
      refine hbefore hstate ?_
      simp only [Entry.moved, Entry.withoutFailFast, Entry.hasWaiters, Bool.or_eq_true,
        Bool.not_eq_true', List.isEmpty_eq_false_iff] at hwaiting ⊢
      exact hwaiting.imp_left fun hsome hnil => hsome (by rw [hnil]; rfl)
    | fail status => cases hwaiting
    | _ => exact hscan.elim
  · exact hscan.elim

theorem scan_config (h : Trace Scan core middle) : middle.config = core.config := by
  refine @Trace.lift _ _ _ (fun later => later.config = core.config) h ?_ rfl
  intro before after act hscan hact hbefore
  cases act with
  | note => exact (Noted.config hact).trans hbefore
  | move key move => exact (Local.config hact.toLocal).trans hbefore
  | _ => exact hscan.elim

theorem Selected.permits {task : Option Task} (h : Selected system.core task core') :
    Trace (Permits system .nextTask) system.core core' := by
  cases h with
  | none hscan => exact hscan.mono fun _ _ hscan => hscan.permits
  | upload hscan hmoves hrooms =>
    exact (hscan.mono fun _ _ hscan => hscan.permits).trans
      (@Trace.single _ _ _ (.move _ (.startUpload _)) hrooms hmoves)
  | read hscan hmoves hring hrooms =>
    obtain ⟨hpending, hreserved⟩ := scan_pending hscan hmoves.enabled.1 hmoves.enabled.2.1
    exact (hscan.mono fun _ _ hscan => hscan.permits).trans
      (@Trace.single _ _ _ (.move _ (.startLoad _ _))
        ⟨rfl, ⟨hpending, scan_config hscan, hreserved, hring, hrooms⟩⟩ hmoves)

theorem UploadOutcome.permits {operation : Operation} {result : UploadResult} {published : Status}
    (h : UploadOutcome operation.key result published system.core core') :
    Trace (Permits system (.uploadComplete operation result published)) system.core core' := by
  cases h with
  | ignored => exact .refl
  | abandoned hbefore hmoves => exact hbefore.permits.trans (hmoves.permits (by simp))
  | rejected hbefore _ _ hmoves => exact hbefore.permits.trans (hmoves.permits (by simp))
  | unpublished hbefore _ _ _ _ hshrink hmoves =>
    exact (hbefore.permits.trans (hshrink.permits (by simp))).trans (hmoves.permits (by simp))
  | @finished middle shrunk _ allocation hbefore haccepted hpublished hshrink hfinish =>
    have hbody {α : Type} (field : Entry → α)
        (hfield : ∀ entry : Entry, field entry.body = field entry) :
        field (middle.entry operation.key) = field (system.core.entry operation.key) :=
      Entry.field_of_body field (hbefore.body operation.key) hfield
    have hlands : Lands system.core operation.key result published allocation := by
      refine ⟨?_, ?_, ?_, hpublished⟩
      · rw [← hbody Entry.state fun _ => rfl]
        exact hshrink.enabled.1
      · have hwaiters := hfinish.enabled.2.2
        rw [hshrink.entry] at hwaiters
        rw [← hbody Entry.waiters fun _ => rfl]
        exact hwaiters
      · rw [← hbody (acceptedAllocation · result) fun _ => rfl]
        exact haccepted
    have hreferences : (shrunk.entry operation.key).references =
        (system.core.entry operation.key).references := by
      rw [hshrink.entry]
      exact hbody Entry.references fun _ => rfl
    have hpermits : Permits system (.uploadComplete operation result published) shrunk
        (.move operation.key (.finishUpload allocation)) :=
      ⟨operation, result, published, rfl, rfl, hlands, hreferences⟩
    exact (hbefore.permits.trans (hshrink.permits (by simp))).tail hpermits hfinish

end Core

theorem Effect.permits {system : CacheSystem} {action : Action} {core' : Core}
    (h : Effect system action core') :
    Core.Trace (Core.Permits system action) system.core core' := by
  have hspare : ∀ {excluded : Option ExpertKey} {core core' : Core},
      Core.Trace (Core.Spare excluded) core core' →
      Core.Trace (Core.Permits system action) core core' :=
    fun htrace => htrace.mono fun _ _ hspare => hspare.permits
  cases h with
  | acquired _ hrequests => exact hrequests.permits
  | preloaded _ hrequests => exact hrequests.permits
  | leased _ htrace hmoves => exact (hspare htrace).trans (hmoves.permits (by simp))
  | spared htrace => exact hspare htrace
  | withdrawn hmoves => exact hmoves.permits (by simp)
  | withdrawnHost hmoves => exact hmoves.permits (by simp)
  | dropped => exact Core.dropHandle_permits _
  | returned => exact Core.returnLease_permits _
  | @configured budget transientBytes _ hacts =>
    exact @Core.Trace.single _ _ _ (.configure budget transientBytes) rfl hacts
  | stopped htrace =>
    exact (@Core.Trace.single _ system.core _ .stop True.intro rfl).trans
      (htrace.mono fun _ _ hclears => hclears.permits)
  | selected _ hselected => exact hselected.permits
  | read _ houtcome => exact houtcome.permits
  | uploaded _ houtcome => exact houtcome.permits
  | @popped key _ hacts => exact @Core.Trace.single _ _ _ (.pop key) True.intro hacts
  | failed _ _ houtcome => exact houtcome.permits
  | finished _ houtcome => exact houtcome.permits

namespace CacheSystem

variable {sha256 : List UInt8 → Sha256Digest} {system system' start : CacheSystem}
  {action : Action} {allowed : CacheSystem → Action → Prop} {holds : Core → Prop}

theorem step_keeps (hact : ∀ {core core' act}, core.Sound → Core.Permits system action core act →
      Core.Acts core core' act → holds core → holds core')
    (hsound : system.Sound) (hholds : holds system.core)
    (hstep : system.step sha256 action = some system') : holds system'.core := by
  have htrace := (step_spec hsound hstep).2.2.permits
  have hboth := @Core.Trace.lift _ _ _ (fun core => core.Sound ∧ holds core) htrace
    (fun hpermits hacts hbefore =>
      ⟨hacts.sound hbefore.1, hact hbefore.1 hpermits hacts hbefore.2⟩) ⟨hsound.core, hholds⟩
  exact hboth.2

theorem holds_of_reaches (hact : ∀ {system action core core' act}, allowed system action →
      core.Sound → Core.Permits system action core act → Core.Acts core core' act →
      holds core → holds core')
    (hreach : Reaches (step sha256) allowed start system) (hsound : start.Sound)
    (hholds : holds start.core) : holds system.core :=
  hreach.invariant hholds fun hreach hbefore hallowed hstep =>
    step_keeps (hact hallowed) (Sound.of_reaches hreach hsound) hbefore hstep

end CacheSystem

end QuantumLlm.Runtime
