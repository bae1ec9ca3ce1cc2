import QuantumLlm.Runtime.Cache.Completions

/-!
# Expert cache: client sections

What the public operations do. A request issues one ticket and ends in exactly
one way: its promise is set, or its waiter joins the entry.
-/

namespace QuantumLlm.Runtime

namespace Core

open Entry

variable {core core' : Core} {key : ExpertKey}

variable {excluded : Option ExpertKey} {access : ExpertAccess} {record : PayloadRecord}

theorem Noted.spares {middle : Core} (h : Noted core middle)
    (hrest : Trace (Spare excluded) middle core') : Trace (Spare excluded) core core' :=
  h.spare.trans hrest

theorem promote_spare {ramForce vramForce : Bool} (hkey : key ∈ core.entries.keys) :
    Trace (Spare (some key)) core
      ((core.promoteRamLocked key ramForce).promoteVramLocked key vramForce) := by
  have hram := @promoteRam_spare core key ramForce hkey
  exact hram.trans (promoteVram_spare (hram.key_mem hkey))

theorem residentRequested_noted (hkey : key ∈ core.entries.keys) :
    Noted core (core.modify key ({ · with vramResidentRequested := true })) :=
  modify_noted hkey rfl rfl

theorem ramRequested_noted {persistent : Entry → Bool} (hkey : key ∈ core.entries.keys) :
    Noted core (core.modify key fun entry =>
      { entry with ramProtectedRequested := true, ramProtectionPersistent := persistent entry }) :=
  modify_noted hkey rfl rfl

theorem touchPromote_spare (hkey : key ∈ core.entries.keys) :
    Trace (Spare (some key)) core
      (((core.touchLocked key).promoteRamLocked key false).promoteVramLocked key false) := by
  have htouch := touch_noted hkey
  exact htouch.spares (promote_spare (htouch.keys ▸ hkey))

theorem noteAcquire_spare {options : ExpertAcquireOptions} (hkey : key ∈ core.entries.keys) :
    Trace (Spare (some key)) core (core.noteAcquire key options) := by
  simp only [noteAcquire]
  generalize htouched : (if options.recordAccess then
    ((core.touchLocked key).promoteRamLocked key false).promoteVramLocked key false
    else core) = touched
  have hfirst : Trace (Spare (some key)) core touched := by
    rw [← htouched]
    split
    next => exact touchPromote_spare hkey
    next => exact .refl
  have hkey1 := hfirst.key_mem hkey
  split
  next =>
    have hflag := residentRequested_noted hkey1
    exact hfirst.trans (hflag.spares (promoteVram_spare (hflag.keys ▸ hkey1)))
  next => exact hfirst

theorem Trace.spare_none (h : Trace (Spare excluded) core core') :
    Trace (Spare none) core core' :=
  h.mono fun _ _ hspare => hspare.imp id
    fun ⟨victim, needRam, needVram, hact, _⟩ => ⟨victim, needRam, needVram, hact, by simp⟩

theorem touchTimes_spare (count : Nat) {rest : Core → Core} (hkey : key ∈ core.entries.keys)
    (hrest : ∀ touched : Core, key ∈ touched.entries.keys →
      Trace (Spare (some key)) touched (rest touched)) :
    Trace (Spare none) core (rest (core.touchTimes key count)) := by
  have htouch := @touchTimes_noted core key count hkey
  have hkey1 : key ∈ (core.touchTimes key count).entries.keys := by rw [htouch.keys]; exact hkey
  exact (htouch.spares (hrest _ hkey1)).spare_none

theorem recordAccess_spare {count : UInt32} :
    Trace (Spare none) core (core.recordAccess key count) := by
  unfold recordAccess
  generalize count.toNat = times
  split
  next => exact .refl
  next hwanted =>
    have hkey : key ∈ core.entries.keys := by
      simp only [Bool.or_eq_true, not_or, decide_eq_true_eq, not_not] at hwanted
      exact hwanted.2
    exact @touchTimes_spare core key times
      (fun touched => (touched.promoteRamLocked key false).promoteVramLocked key false) hkey
      fun _ htouched => promote_spare htouched

theorem addRoutingScore_eq (entry : Entry) (scaledSum : UInt64) (scaledMax : UInt32) :
    ∃ mass peak, entry.addRoutingScore scaledSum scaledMax =
      { entry with routingScoreMassQ20 := mass, routingScorePeakQ20 := peak } :=
  ⟨_, _, rfl⟩

theorem addRoutingScore_noted
    (hkey : access.key ∈ core.entries.keys) : Noted core (core.addRoutingScoreLocked access) := by
  unfold addRoutingScoreLocked
  cases access.routingScore with
  | none => exact .refl
  | some scaled =>
    obtain ⟨scaledSum, scaledMax⟩ := scaled
    obtain ⟨mass, peak, hscored⟩ := addRoutingScore_eq (core.entry access.key) scaledSum scaledMax
    refine modify_noted hkey ?_ ?_
    · rw [hscored]
      rfl
    · rw [hscored]
      rfl

theorem recordOne_spare :
    Trace (Spare none) core (core.recordOne access) := by
  unfold recordOne
  generalize access.count.toNat = times
  split
  next => exact .refl
  next hwanted =>
    have hkey : access.key ∈ core.entries.keys := by
      simp only [Bool.or_eq_true, not_or, decide_eq_true_eq, not_not] at hwanted
      exact hwanted.2
    refine @touchTimes_spare core access.key times
      (fun touched => ((touched.addRoutingScoreLocked access).promoteRamLocked access.key
        false).promoteVramLocked access.key false) hkey fun touched htouched => ?_
    have hscore := addRoutingScore_noted htouched
    exact hscore.spares (promote_spare (hscore.keys ▸ htouched))

theorem foldl_recordOne_spare (accesses : List ExpertAccess) :
    Trace (Spare none) core (accesses.foldl recordOne core) := by
  induction accesses generalizing core with
  | nil => exact .refl
  | cons access rest ih => exact recordOne_spare.trans ih

theorem recordAccesses_spare {accesses : List ExpertAccess} :
    Trace (Spare none) core (core.recordAccesses accesses) := by
  unfold recordAccesses
  split
  next => exact .refl
  next => exact foldl_recordOne_spare accesses

theorem protect_spare {ram vram : Bool} : Trace (Spare none) core (core.protect key ram vram) := by
  simp only [Core.protect]
  split
  next => exact .refl
  next hwanted =>
    have hkey : key ∈ core.entries.keys := by
      simp only [Bool.or_eq_true, not_or, decide_eq_true_eq, not_not] at hwanted
      exact hwanted.2
    generalize hpinned : (if ram then
      (core.modify key ({ · with ramProtectedRequested := true })).promoteRamLocked key true
      else core) = pinned
    have hfirst : Trace (Spare (some key)) core pinned := by
      rw [← hpinned]
      split
      next =>
        have hflag := @ramRequested_noted core key Entry.ramProtectionPersistent hkey
        exact hflag.spares (promoteRam_spare (hflag.keys ▸ hkey))
      next => exact .refl
    have hkey1 := hfirst.key_mem hkey
    split
    next =>
      have hflag := residentRequested_noted hkey1
      exact (hfirst.trans (hflag.spares (promoteVram_spare (hflag.keys ▸ hkey1)))).spare_none
    next => exact hfirst.spare_none

/-- How a request that opened its entry ends. -/
inductive Ends (key : ExpertKey) (ticket : Ticket) (core : Core) : Core → Prop where
  | refused {status : Status} : status.ok = false →
      Ends key ticket core (core.answer ticket.id status)
  | hit : ticket.host = true → Ends key ticket core (core.answer ticket.id Status.success)
  | leased {leased : Core} {grant : Grant} : Moves key (.grant ticket.id grant) core leased →
      Ends key ticket core (leased.answer ticket.id Status.success)
  | joined {core' : Core} {waiter : Waiter} : waiter.id = ticket.id → ticket.host = false →
      Moves key (.join waiter) core core' → Ends key ticket core core'
  | joinedHost {core' : Core} {waiter : HostWaiter} : waiter.id = ticket.id →
      ticket.host = true → (core.entry key).hostCopy = none →
      Moves key (.joinHost waiter) core core' → Ends key ticket core core'

/-- A request: refused by a stopped cache, or opened and ended. -/
inductive Requests (key : ExpertKey) (ticket : Ticket) (record : PayloadRecord) (core : Core) :
    Core → Prop where
  | stopped : Requests key ticket record core
      ((core.issue ticket).answer ticket.id shuttingDownStatus)
  | opened {middle core' : Core} :
      Trace (Spare (some key)) ((core.issue ticket).emplace key record) middle →
      Ends key ticket middle core' → Requests key ticket record core core'

theorem mem_emplace : key ∈ (core.emplace key record).entries.keys :=
  Table.mem_keys_tryEmplace.2 (Or.inl rfl)

theorem fulfil_ends {ticket : Ticket} {grant : Option Grant} (hkey : key ∈ core.entries.keys)
    (hgrant : ∀ granted, grant = some granted →
      (core.entry key).Enabled core.config (.grant ticket.id granted))
    (hhost : grant = none → ticket.host = true) :
    Ends key ticket core (core.fulfil key ticket.id grant) := by
  cases grant with
  | none => exact .hit (hhost rfl)
  | some granted => exact .leased (grantLease_moves hkey (hgrant granted rfl))

theorem Sound.opened {ticket : Ticket} (hsound : core.Sound) :
    ((core.issue ticket).emplace key record).Sound :=
  @Acts.sound (core.issue ticket) _ (.emplace key record) rfl
    (@Acts.sound core _ (.issue ticket) rfl hsound)

theorem acquire_requests {record : PayloadRecord} {options : ExpertAcquireOptions}
    {id : WaiterId} (hsound : core.Sound) :
    Requests key ⟨id, key, false⟩ record core (core.acquire key record options id) := by
  simp only [acquire]
  split
  next => exact .stopped
  next =>
    have hspare := @noteAcquire_spare ((core.issue ⟨id, key, false⟩).emplace key record) key options
      mem_emplace
    have hkey := hspare.key_mem mem_emplace
    have hmiddle := hspare.sound hsound.opened
    refine .opened hspare ?_
    generalize (((core.issue ⟨id, key, false⟩).emplace key record).noteAcquire key options) =
      middle at hkey hmiddle ⊢
    split
    next => exact @Ends.refused key ⟨id, key, false⟩ middle mismatchStatus rfl
    next =>
      split
      next => exact @Ends.refused key ⟨id, key, false⟩ middle quarantinedStatus rfl
      next hhealthy =>
        split
        next hready =>
          simp only [Bool.and_eq_true, decide_eq_true_eq] at hready
          exact @fulfil_ends middle key ⟨id, key, false⟩ _ hkey
            (fun granted hsome => by cases hsome; exact ⟨hready.1, rfl⟩) (by simp)
        next hwaiting =>
          refine @Ends.joined key ⟨id, key, false⟩ middle _ ⟨id, options⟩ rfl rfl
            (joinWaiter_moves hkey ⟨hhealthy, fun hstate => ?_⟩)
          have hdevice := (hmiddle.ok key).device_iff.2 hstate
          simp [hstate, hdevice] at hwaiting

theorem preloadHost_requests {record : PayloadRecord} {options : HostPreloadOptions}
    {id : WaiterId} (hsound : core.Sound) :
    Requests key ⟨id, key, true⟩ record core (core.preloadHost key record options id) := by
  simp only [preloadHost]
  split
  next => exact .stopped
  next =>
    have hkey : key ∈ ((core.issue ⟨id, key, true⟩).emplace key record).entries.keys := mem_emplace
    have hmiddle : ((core.issue ⟨id, key, true⟩).emplace key record).Sound := hsound.opened
    generalize hopened : (core.issue ⟨id, key, true⟩).emplace key record = middle at hkey hmiddle ⊢
    have hstart : Trace (Spare (some key)) ((core.issue ⟨id, key, true⟩).emplace key record)
        middle := hopened ▸ .refl
    split
    next => exact .opened hstart (@Ends.refused key ⟨id, key, true⟩ middle mismatchStatus rfl)
    next =>
      split
      next => exact .opened hstart (@Ends.refused key ⟨id, key, true⟩ middle quarantinedStatus rfl)
      next hhealthy =>
        split
        next copy hcopy =>
          simp only [hitHost]
          generalize hpinned : (if options.protectRam then
            (middle.modify key ({ · with
              ramProtectedRequested := true, ramProtectionPersistent := true })).promoteRamLocked
                key true
            else middle) = pinned
          have hspare : Trace (Spare (some key)) middle pinned := by
            rw [← hpinned]
            split
            next =>
              have hflag := @ramRequested_noted middle key (fun _ => true) hkey
              exact hflag.spares (promoteRam_spare (hflag.keys ▸ hkey))
            next => exact .refl
          have hheld : (pinned.entry key).hostCopy = some copy := by
            rw [Entry.field_of_body Entry.hostCopy hspare.spare_body]
            split at hcopy
            next => exact hcopy
            next => cases hcopy
          refine .opened (hstart.trans hspare) (@fulfil_ends pinned key ⟨id, key, true⟩ _
            (hspare.key_mem hkey) (fun granted hsome => ?_) fun _ => rfl)
          split at hsome
          next =>
            cases hsome
            exact hheld
          next => cases hsome
        next hnone =>
          split
          next =>
            exact .opened hstart (@Ends.refused key ⟨id, key, true⟩ middle noHostCopyStatus rfl)
          next hwaiting =>
            have henabled : (middle.entry key).state = .absent ∨
                (middle.entry key).state = .ssdLoading := by
              cases hstate : (middle.entry key).state <;> simp_all
            refine .opened hstart (@Ends.joinedHost key ⟨id, key, true⟩ middle _ ⟨id, options⟩ rfl
              rfl ?_ (joinHostWaiter_moves hkey henabled))
            by_contra hsome
            have hcopied := ((hmiddle.ok key).copied (Option.isSome_iff_ne_none.2 hsome)).2
            rcases henabled with habsent | hloading
            · simp [habsent] at hcopied
            · simp [hloading] at hcopied

theorem tryAcquireHost_spec {record : PayloadRecord} {recordAccess : Bool} {id : WaiterId} :
    core.tryAcquireHost key record recordAccess id = core ∨
      ∃ middle copy, Trace (Spare (some key)) core middle ∧
        Moves key (.grant id (.host copy)) middle
          (core.tryAcquireHost key record recordAccess id) := by
  simp only [tryAcquireHost]
  split
  next => exact Or.inl rfl
  next hwanted =>
    have hkey : key ∈ core.entries.keys := by
      simp only [Bool.or_eq_true, not_or, decide_eq_true_eq, not_not] at hwanted
      exact hwanted.2
    split
    next => exact Or.inl rfl
    next copy hcopy =>
      right
      generalize htouched : (if recordAccess then
        ((core.touchLocked key).promoteRamLocked key false).promoteVramLocked key false
        else core) = touched
      have hspare : Trace (Spare (some key)) core touched := by
        rw [← htouched]
        split
        next => exact touchPromote_spare hkey
        next => exact .refl
      refine ⟨touched, copy, hspare, grantLease_moves (hspare.key_mem hkey) ?_⟩
      show (touched.entry key).hostCopy = some copy
      rw [Entry.field_of_body Entry.hostCopy hspare.spare_body]
      split at hcopy
      next => exact hcopy
      next => cases hcopy

theorem cancelWaiter_spec {id : WaiterId} :
    (core.cancelWaiter key id).1 = core ∨
      Moves key (.withdraw id) core (core.cancelWaiter key id).1 := by
  unfold cancelWaiter
  split
  next => exact Or.inl rfl
  next hwaiting =>
    simp only [Bool.or_eq_true, not_or, decide_eq_true_eq, not_not, Bool.not_eq_true',
      Bool.not_eq_false] at hwaiting
    exact Or.inr (withdraw_moves hwaiting.1 hwaiting.2)

theorem cancelHostWaiter_spec {id : WaiterId} :
    (core.cancelHostWaiter key id).1 = core ∨
      Moves key (.withdrawHost id) core (core.cancelHostWaiter key id).1 := by
  unfold cancelHostWaiter
  split
  next => exact Or.inl rfl
  next hwaiting =>
    simp only [Bool.or_eq_true, not_or, decide_eq_true_eq, not_not, Bool.not_eq_true',
      Bool.not_eq_false] at hwaiting
    exact Or.inr (withdrawHost_moves hwaiting.1 hwaiting.2)

theorem returnLease_spec (lease : Lease) :
    ((core.entry lease.key).references = 0 ∧ core.returnLease lease = core.forget lease) ∨
      ∃ removed noted, Moves lease.key .release core removed ∧ Noted removed noted ∧
        core.returnLease lease = noted.forget lease := by
  simp only [returnLease, releaseReference]
  split
  next hnone =>
    left
    refine ⟨?_, rfl⟩
    rcases (Bool.or_eq_true _ _).mp hnone with hmissing | hzero
    · rw [entry_of_not_mem (by simpa using hmissing)]
    · simpa using hzero
  next hheld =>
    right
    simp only [Bool.or_eq_true, not_or, decide_eq_true_eq, not_not] at hheld
    have hrelease := removeReference_moves hheld.1 hheld.2
    have hkey := hrelease.key_mem' hheld.1
    have haccess : ∀ clock, Noted (core.removeReferenceLocked lease.key)
        ((core.removeReferenceLocked lease.key).modify lease.key ({ · with lastAccess := clock })) :=
      fun clock => modify_noted hkey rfl rfl
    exact ⟨_, _, hrelease, (haccess _).trans clock_noted, rfl⟩

theorem trimTo_evicts {ramTarget vramTarget : UInt64} :
    Evicts none core (core.trimTo ramTarget vramTarget) :=
  evictWhile_evicts (evictOne_evictor _ fun _ => rfl)

theorem configureVramBudget_spec {budget : TierBudget} {transientBytes : UInt64} :
    (core.configureVramBudget budget transientBytes).2 = core ∨
      Acts core (core.configureVramBudget budget transientBytes).2
        (.configure budget transientBytes) := by
  unfold configureVramBudget
  split
  next => exact Or.inl rfl
  next =>
    split
    next => exact Or.inl rfl
    next hvalid =>
      split
      next => exact Or.inl rfl
      next hbytes =>
        right
        simp only [Bool.or_eq_true, not_or, Bool.not_eq_true', Bool.not_eq_false,
          decide_eq_true_eq, UInt64.not_le] at hvalid
        exact ⟨not_not.1 hbytes, hvalid.1, hvalid.2, rfl⟩

/-- Every entry's waiters fail. -/
def Clears (_ : Core) (act : Act) : Prop := ∃ key, act = .move key (.clear shutdownStatus)

theorem foldl_failWaiters_trace (keys : List ExpertKey) (core : Core)
    (hkeys : ∀ key ∈ keys, key ∈ core.entries.keys) :
    Trace Clears core (keys.foldl (fun core key => core.failWaitersLocked key shutdownStatus)
      core) := by
  induction keys generalizing core with
  | nil => exact .refl
  | cons key rest ih =>
    have hmoves := @failWaiters_moves core key (hkeys key List.mem_cons_self) shutdownStatus
    exact (@Trace.single Clears _ _ (.move key (.clear shutdownStatus)) ⟨key, rfl⟩ hmoves).trans
      (ih _ fun other hother => hmoves.key_mem' (hkeys other (List.mem_cons_of_mem _ hother)))

theorem shutdown_spec :
    core.shutdown.1 = core ∨
      Trace Clears { core with shuttingDown := true } core.shutdown.1 := by
  unfold shutdown
  split
  next => exact Or.inl rfl
  next =>
    exact Or.inr (foldl_failWaiters_trace core.entries.keys.items { core with shuttingDown := true }
      fun _ hkey => hkey)

end Core

end QuantumLlm.Runtime
