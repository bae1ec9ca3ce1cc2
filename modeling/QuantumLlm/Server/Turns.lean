import QuantumLlm.Server.Credits

/-!
# One turn of a request

Every turn that does not lose a popped session keeps the account of credits and
keys: the pages of the map and what the request owes change together with the
reserved pages.
-/

namespace QuantumLlm.Server

open List

variable {config : Config} {app app' : App config} {thread thread' : Thread config}

/-- What a request finds when its turn comes. -/
structure Ready (app : App config) (thread : Thread config) : Prop where
  keys : (keysOf app.sessions ++ thread.phase.keys).Nodup
  covered : pagesOf app.sessions + thread.owed ≤ app.kvReservedPages
  app : AppSound app
  thread : thread.Sound

/-- A phase that may come next, its credits apart. -/
structure Phase.Follows (phase' phase : Phase config) (disposals : List Disposal) : Prop where
  keys : phase'.keys.Subperm phase.keys
  sound : phase'.Sound
  disposed : phase'.Disposed disposals
  settled : ∀ (context : RequestContext config) (session : Session config) (persist : Bool),
    phase' ≠ .stored context session persist

section

variable {phase phase' : Phase config} {disposals disposals' : List Disposal}
  {popped : List (Session config)}

theorem Phase.Follows.thread_sound (h : phase'.Follows phase disposals) :
    ({ phase := phase', popped, disposals } : Thread config).Sound :=
  { phase := h.sound
    disposed := h.disposed
    duplicated := fun _ _ _ hphase => absurd hphase (h.settled _ _ _) }

theorem KeysMoved.of_subperm (hnext : app'.nextSessionKey = app.nextSessionKey)
    (h : (keysOf app'.sessions ++ phase'.keys).Subperm (keysOf app.sessions ++ phase.keys)) :
    KeysMoved app app' phase phase' :=
  ⟨[], .inl ⟨rfl, hnext⟩, h⟩

theorem KeysMoved.of_sessions (hnext : app'.nextSessionKey = app.nextSessionKey)
    (hsessions : app'.sessions = app.sessions) (h : phase'.keys.Subperm phase.keys) :
    KeysMoved app app' phase phase' := by
  apply KeysMoved.of_subperm hnext
  rw [hsessions]
  exact (subperm_append_left _).2 h

/-- The index of durable sessions may change, the credits of the map and the request stay. -/
theorem Turned.of_durable (happ : AppSound app') (hsessions : app'.sessions = app.sessions)
    (hreserved : app'.kvReservedPages = app.kvReservedPages)
    (hnext : app'.nextSessionKey = app.nextSessionKey) (h : phase'.Follows phase disposals)
    (howed : phase'.owed = phase.owed) :
    Turned app app' ⟨phase, popped, disposals⟩ ⟨phase', popped, disposals⟩ where
  ledger := by simp [Thread.owed, howed, hsessions, hreserved]
  capacity := fun hle => hreserved ▸ hle
  keys := KeysMoved.of_sessions hnext hsessions h.keys
  app := happ
  thread := h.thread_sound

theorem Turned.of_phase (happ : AppSound app) (h : phase'.Follows phase disposals)
    (howed : phase'.owed = phase.owed) :
    Turned app app ⟨phase, popped, disposals⟩ ⟨phase', popped, disposals⟩ :=
  Turned.of_durable happ rfl rfl rfl h howed

variable {pages : Nat}

theorem Turned.of_acquired (happ : AppSound app)
    (hacquired : app.acquirePages pages = some app') (h : phase'.Follows phase disposals)
    (howed : phase'.owed = phase.owed + pages) :
    Turned app app' ⟨phase, popped, disposals⟩ ⟨phase', popped, disposals⟩ := by
  obtain ⟨hreserved, hfits, hsessions, hdisk, hnext⟩ := acquirePages_some hacquired
  refine ⟨?_, fun _ => hfits, KeysMoved.of_sessions hnext hsessions h.keys, ?_, h.thread_sound⟩
  · simp only [hreserved, hsessions, Thread.owed, howed]
    omega
  · exact ⟨hsessions ▸ happ.resident, hdisk ▸ happ.durable⟩

theorem Turned.of_released (happ : AppSound app) (hle : pages ≤ app.kvReservedPages)
    (h : phase'.Follows phase disposals') (howed : phase'.owed + pages = phase.owed) :
    Turned app { app with kvReservedPages := app.kvReservedPages - pages }
      ⟨phase, popped, disposals⟩ ⟨phase', popped, disposals'⟩ := by
  refine ⟨?_, ?_, KeysMoved.of_sessions rfl rfl h.keys, ⟨happ.resident, happ.durable⟩,
    h.thread_sound⟩
  · simp only [Thread.owed]
    omega
  · intro hcapacity
    exact Nat.le_trans (Nat.sub_le _ _) hcapacity

theorem Turned.of_allocated (happ : AppSound app) (hkeys : phase'.keys = [app.nextSessionKey])
    (hsound : phase'.Sound) (hdisposed : phase'.Disposed disposals)
    (hsettled : ∀ (context : RequestContext config) (session : Session config) (persist : Bool),
      phase' ≠ .stored context session persist)
    (howed : phase'.owed = phase.owed) :
    Turned app app.allocateSessionKey.1 ⟨phase, popped, disposals⟩
      ⟨phase', popped, disposals⟩ where
  ledger := by simp [Thread.owed, howed, App.allocateSessionKey]
  capacity := fun hle => hle
  keys := by
    refine ⟨[app.nextSessionKey], .inr ⟨rfl, rfl⟩, ?_⟩
    simp only [hkeys]
    refine (perm_append_comm.subperm).trans ?_
    exact (sublist_append_left _ _).subperm
  app := ⟨happ.resident, happ.durable⟩
  thread :=
    { phase := hsound
      disposed := hdisposed
      duplicated := fun _ _ _ hphase => absurd hphase (hsettled _ _ _) }

end

theorem Thread.settle_spec (hphase : thread.phase.Sound)
    (hdisposed : thread.phase.Disposed thread.disposals)
    (hpages : ∀ context session persist, thread.phase = .stored context session persist →
      ∀ popped ∈ thread.popped, popped.pages = context.heldPages) :
    thread.settle.Sound ∧ thread.settle.owed = thread.owed ∧
      thread.settle.phase.keys = thread.phase.keys := by
  obtain ⟨phase, popped, disposals⟩ := thread
  rw [Thread.settle]
  split
  next context session persist hpopped hstored =>
    cases hstored
    cases persist with
    | true =>
      refine ⟨⟨rfl, hdisposed, ?_⟩, rfl, rfl⟩
      intro context session persist hphase
      cases hphase
    | false =>
      refine ⟨⟨trivial, ?_, ?_⟩, rfl, rfl⟩
      · simpa [Phase.Disposed] using hdisposed
      · exact nofun
  next hother =>
    refine ⟨⟨hphase, hdisposed, ?_⟩, rfl, rfl⟩
    intro context session persist hstored
    refine ⟨?_, hpages context session persist hstored⟩
    intro hpopped
    exact hother context session persist hpopped hstored

variable {session stored : Session config} {context : RequestContext config}
  {disposals : List Disposal}

theorem dropped_turned {rest : List (Session config)}
    (hready : Ready app thread) (hpopped : thread.popped = session :: rest)
    (h : Thread.step app thread (.drop .dropped) = some (app', thread')) :
    Turned app app' thread thread' := by
  have hcovered := hready.covered
  rw [Thread.owed, hpopped, pagesOf_cons] at hcovered
  simp only [Thread.step, hpopped, releaseContextCredits_some session.pages_pos
    (show session.pages ≤ app.kvReservedPages by omega), Option.some.injEq, Prod.mk.injEq] at h
  obtain ⟨rfl, rfl⟩ := h
  have hrest : ∀ context stored persist, thread.phase = .stored context stored persist →
      ∀ popped ∈ rest, popped.pages = context.heldPages := by
    intro context stored persist hphase popped hmem
    apply (hready.thread.duplicated context stored persist hphase).2 popped
    rw [hpopped]
    exact mem_cons_of_mem _ hmem
  obtain ⟨hsound, howed, hkeys⟩ :=
    @Thread.settle_spec config { thread with popped := rest } hready.thread.phase
      hready.thread.disposed hrest
  refine ⟨?_, ?_, KeysMoved.of_sessions rfl rfl ?_, ⟨hready.app.resident, hready.app.durable⟩,
    hsound⟩
  · rw [howed, Thread.owed, Thread.owed, hpopped, pagesOf_cons]
    simp only
    omega
  · intro hcapacity
    exact Nat.le_trans (Nat.sub_le _ _) hcapacity
  · rw [hkeys]

section

variable {phase next otherwise : Phase config} {disposals : List Disposal}

theorem evict_turned (hready : Ready app ⟨phase, [], disposals⟩)
    (h : some (Thread.evict app ⟨phase, [], disposals⟩ next otherwise) = some (app', thread'))
    (hnext : next.Follows phase disposals) (hotherwise : otherwise.Follows phase disposals)
    (howed : next.owed = phase.owed) (howed' : otherwise.owed = phase.owed) :
    Turned app app' ⟨phase, [], disposals⟩ thread' := by
  rw [Thread.evict] at h
  split at h
  next =>
    cases h
    exact Turned.of_phase hready.app hotherwise howed'
  next evicted session hevicted =>
    cases h
    obtain ⟨hsessions, hreserved, hdisk, hkey⟩ := evictLruSession_some hevicted
    refine ⟨?_, fun hle => hreserved ▸ hle, KeysMoved.of_subperm hkey ?_, ⟨?_, ?_⟩,
      hnext.thread_sound⟩
    · simp only [Thread.owed, howed, hsessions, hreserved, pagesOf_cons, pagesOf_nil]
      omega
    · rw [hsessions]
      exact ((sublist_cons_self _ _).subperm).append hnext.keys
    · intro other hother
      apply hready.app.resident other
      rw [hsessions]
      exact mem_cons_of_mem _ hother
    · exact hdisk ▸ hready.app.durable

variable {prompt : List Nat} {signature : Signature}

theorem sweep_turned {cutoff : Nat}
    (hready : Ready app ⟨.sweeping prompt signature, [], disposals⟩) :
    Turned app (app.sweepIdleSessions cutoff).1 ⟨.sweeping prompt signature, [], disposals⟩
      ⟨.checking prompt signature, (app.sweepIdleSessions cutoff).2, disposals⟩ := by
  have hpages := pagesOf_filter app.sessions fun session => session.lastUsed < cutoff
  simp only [← decide_not] at hpages
  have hkept : ∀ session ∈ (app.sweepIdleSessions cutoff).1.sessions, session ∈ app.sessions :=
    fun session hsession => (mem_filter.1 hsession).1
  refine ⟨?_, fun hle => hle, KeysMoved.of_subperm rfl ?_, ⟨?_, hready.app.durable⟩,
    ⟨trivial, hready.thread.disposed, ?_⟩⟩
  · simp only [Thread.owed, Phase.owed, App.sweepIdleSessions, pagesOf_nil]
    omega
  · simp only [Phase.keys, append_nil]
    exact (filter_sublist.map _).subperm
  · exact fun session hsession => hready.app.resident session (hkept session hsession)
  · exact nofun

theorem checkout_turned (hready : Ready app ⟨.checking prompt signature, [], disposals⟩)
    (h : Thread.step app ⟨.checking prompt signature, [], disposals⟩ .go =
      some (app', thread')) :
    Turned app app' ⟨.checking prompt signature, [], disposals⟩ thread' := by
  have hdisposed : disposals = [] := hready.thread.disposed
  have hkeys := hready.keys
  simp only [Phase.keys, append_nil] at hkeys
  obtain ⟨rfl, rfl⟩ := Prod.mk.inj (Option.some.inj h)
  rcases checkoutSession_cases hready.app hkeys prompt signature with
    hnone | ⟨session, sessions, hheld, hresident, hperm⟩ |
      ⟨session, diskSessions, hheld, hdurable, hkept⟩
  · rw [hnone]
    exact Turned.of_phase hready.app ⟨nil_subperm, ⟨rfl, by simp⟩, hdisposed, by simp⟩ rfl
  · simp only [hheld, hresident, if_true]
    refine ⟨?_, fun hle => hle, KeysMoved.of_subperm rfl ?_, ⟨?_, hready.app.durable⟩,
      ⟨⟨rfl, ?_⟩, hdisposed, ?_⟩⟩
    · simp only [Thread.owed, Phase.owed, RequestContext.owed, pagesOf_nil, pagesOf_perm hperm,
        pagesOf_cons, Bool.false_eq_true, if_false]
      omega
    · simp only [Phase.keys, Option.map_some, Option.toList_some, append_nil]
      exact ((perm_append_comm).trans (hperm.map _).symm).subperm
    · exact fun other hother =>
        hready.app.resident other (hperm.mem_iff.2 (mem_cons_of_mem _ hother))
    · intro held hsame
      cases hsame
      rfl
    · exact nofun
  · simp only [hheld, hdurable, Bool.false_eq_true, if_false]
    exact Turned.of_durable
      ⟨hready.app.resident, fun entry hentry => hready.app.durable entry (hkept entry hentry)⟩
      rfl rfl rfl ⟨nil_subperm, trivial, hdisposed, by simp⟩ rfl

end

theorem assign_fresh {sessions : List (Session config)}
    (h : stored.key ∉ keysOf sessions) : App.assign sessions stored = sessions ++ [stored] := by
  rw [App.assign, if_neg]
  intro hany
  obtain ⟨session, hsession, hkey⟩ := any_eq_true.1 hany
  exact h (mem_map.2 ⟨session, hsession, of_decide_eq_true hkey⟩)

theorem store_turned {source : Session config} {now : Nat}
    {persist : Bool} (hready : Ready app thread) (hpopped : thread.popped = [])
    (hdisposals : thread.disposals = []) (hretained : context.retained = false)
    (hheld : context.heldPages = source.pages) (howed : thread.phase.owed = context.owed)
    (hkey : thread.phase.keys = [source.key])
    (h : some (Thread.store app thread context source now persist) = some (app', thread')) :
    Turned app app' thread thread' := by
  have hkeys := hready.keys
  rw [hkey, nodup_append'] at hkeys
  have hfresh : source.key ∉ keysOf app.sessions :=
    fun hmem => hkeys.2.2 hmem (mem_singleton_self _)
  simp only [Option.some.injEq] at h
  rw [Thread.store] at h
  generalize hstored : ({ source with lastUsed := now, resident := true } : Session config) =
    stored at h
  have hkey' : stored.key = source.key := by rw [← hstored]
  have hpages' : stored.pages = source.pages := by rw [← hstored]
  have hresident : stored.resident = true := by rw [← hstored]
  have hsessions : (app.storeSession stored).sessions = (app.sessions.filter fun session =>
      !(session.tokens = stored.tokens && session.mediaSignature = stored.mediaSignature)) ++
        [stored] := by
    rw [App.storeSession]
    simp only [Bool.not_eq_true, Bool.decide_eq_false]
    apply assign_fresh
    rw [hkey']
    exact fun hmem => hfresh ((filter_sublist.map _).subset hmem)
  have hduplicates : ∀ duplicate ∈ app.duplicates stored,
      duplicate.pages = context.heldPages := by
    intro duplicate hmem
    have htokens : duplicate.tokens = stored.tokens := by
      have hsame := (mem_filter.1 hmem).2
      simp only [Bool.and_eq_true, decide_eq_true_eq] at hsame
      exact hsame.1
    rw [duplicate.pages_eq, htokens, ← stored.pages_eq, hpages', hheld]
  obtain ⟨rfl, rfl⟩ := Prod.mk.inj h
  obtain ⟨hsound, howed', hkeys'⟩ := @Thread.settle_spec config
    { phase := .stored context stored persist
      popped := app.duplicates stored
      disposals := thread.disposals ++ [.handedOver stored.pages] }
    hretained (by simp [Phase.Disposed, hdisposals, hpages', hheld])
    (by
      intro other session persist' hphase
      cases hphase
      exact hduplicates)
  refine ⟨?_, fun hle => hle, KeysMoved.of_subperm rfl ?_, ⟨?_, hready.app.durable⟩, hsound⟩
  · have hsplit := pagesOf_filter app.sessions fun session =>
      session.tokens = stored.tokens && session.mediaSignature = stored.mediaSignature
    rw [howed', hsessions, Thread.owed, Thread.owed, hpopped, howed]
    simp only [App.storeSession, App.duplicates, pagesOf_append, pagesOf_cons, pagesOf_nil,
      Phase.owed, RequestContext.owed, hretained, Bool.false_eq_true, if_false]
    omega
  · rw [hkeys', hsessions, hkey, ← hkey']
    simp only [Phase.keys, append_nil, keysOf, map_append, map_cons, map_nil]
    exact ((filter_sublist.map _).append_right _).subperm
  · intro session hsession
    rw [hsessions] at hsession
    rcases mem_append.1 hsession with hold | hnew
    · exact hready.app.resident session (mem_filter.1 hold).1
    · rw [mem_singleton.1 hnew]
      exact hresident

section

variable {context : RequestContext config} {session : Option (Session config)}
  {next : Resize config} {disposals : List Disposal}

theorem resized_follows (hretained : context.retained = false) (hdisposals : disposals = []) :
    (Thread.resized context session next).Follows (.resizing context session next) disposals := by
  cases next with
  | parking visible signature checkpoint exact =>
    exact ⟨List.Subperm.refl _, hretained, hdisposals, by simp [Thread.resized]⟩
  | storing kept =>
    exact ⟨List.Subperm.refl _, ⟨hretained, rfl⟩, hdisposals, by simp [Thread.resized]⟩

theorem resized_owed (hretained : context.retained = false) :
    (Thread.resized context session next).owed = next.target := by
  cases next <;> simp [Thread.resized, Phase.owed, RequestContext.owed, hretained]

theorem resize_turned (hready : Ready app ⟨.resizing context session next, [], disposals⟩)
    (h : some (Thread.resize app ⟨.resizing context session next, [], disposals⟩ context session
      next) = some (app', thread')) :
    Turned app app' ⟨.resizing context session next, [], disposals⟩ thread' := by
  have hretained : context.retained = false := hready.thread.phase
  have hdisposals : disposals = [] := hready.thread.disposed
  have hcovered := hready.covered
  have howed := @resized_owed config context session next hretained
  have hheld : (Phase.resizing context session next).owed = context.heldPages := by
    simp [Phase.owed, RequestContext.owed, hretained]
  have hfollows := @resized_follows config context session next disposals hretained hdisposals
  rw [Thread.owed, hheld] at hcovered
  rw [Thread.resize] at h
  split at h
  next hless =>
    rw [releaseContextCredits_some (by omega) (by omega)] at h
    cases h
    exact Turned.of_released hready.app (by omega) hfollows (by omega)
  next hmore =>
    split at h
    next hsame =>
      cases h
      exact Turned.of_phase hready.app hfollows (by omega)
    next hneeded =>
      split at h
      next =>
        cases h
        exact Turned.of_phase hready.app
          ⟨List.Subperm.refl _, hretained, hdisposals, by simp⟩ rfl
      next grown hacquired =>
        cases h
        exact Turned.of_acquired hready.app hacquired hfollows (by omega)

theorem releasing_follows {phase : Phase config} (hretained : context.retained = false)
    (hdisposals : disposals = []) :
    (Phase.releasing context).Follows phase disposals :=
  ⟨nil_subperm, trivial, by simp [Phase.Disposed, hretained, hdisposals], by simp⟩

theorem ended_turned {visible : List Nat} {signature : Signature} {checkpoint : Nat} {exact : Bool}
    {key retainedTokens parkedPages parkedBytes : Nat}
    (hready : Ready app
      ⟨.parking context session visible signature checkpoint exact key, [], disposals⟩) :
    Turned app app ⟨.parking context session visible signature checkpoint exact key, [], disposals⟩
      (Thread.ended
        ⟨.parking context session visible signature checkpoint exact key, [], disposals⟩ context
        session visible signature checkpoint exact key retainedTokens parkedPages parkedBytes) := by
  have hretained : context.retained = false := hready.thread.phase
  have hdisposals : disposals = [] := hready.thread.disposed
  have hreleasing : Turned app app
      ⟨.parking context session visible signature checkpoint exact key, [], disposals⟩
      ⟨.releasing context, [], disposals⟩ :=
    Turned.of_phase hready.app (releasing_follows hretained hdisposals) rfl
  rw [Thread.ended]
  split
  next =>
    split
    next => exact hreleasing
    next =>
      split
      next => exact hreleasing
      next =>
        exact Turned.of_phase hready.app
          ⟨List.Subperm.refl _, hretained, hdisposals, by simp⟩ rfl
  next => exact hreleasing

end

theorem releasing_turned (hready : Ready app ⟨.releasing context, [], disposals⟩)
    (h : Thread.step app ⟨.releasing context, [], disposals⟩ .go = some (app', thread')) :
    Turned app app' ⟨.releasing context, [], disposals⟩ thread' := by
  have hdisposed : disposals = if context.retained then [.handedOver context.heldPages] else [] :=
    hready.thread.disposed
  have hcovered := hready.covered
  change (if context.retained = true then _ else _) = _ at h
  split at h
  next hretained =>
    cases h
    refine Turned.of_phase hready.app ⟨nil_subperm, trivial, ?_, by simp⟩ ?_
    · simp [Phase.Disposed, hdisposed, hretained]
    · simp [Phase.owed, RequestContext.owed, hretained]
  next hretained =>
    rw [Bool.not_eq_true] at hretained
    have howed : (Phase.releasing context).owed = context.heldPages := by
      simp [Phase.owed, RequestContext.owed, hretained]
    rw [hretained] at hdisposed
    rw [Thread.owed, howed] at hcovered
    split at h
    next hpos =>
      rw [releaseContextCredits_some hpos (by omega)] at h
      cases h
      refine Turned.of_released hready.app (by omega)
        ⟨nil_subperm, hretained, ?_, by simp⟩ ?_
      · simp [Phase.Disposed, hdisposed, hpos]
      · rw [howed]
        exact Nat.zero_add _
    next hzero =>
      cases h
      refine Turned.of_phase hready.app ⟨nil_subperm, hretained, ?_, by simp⟩ ?_
      · simp [Phase.Disposed, hdisposed, hzero]
      · rw [howed]
        simp only [Phase.owed]
        omega

theorem returnDiskSession_spec (happ : AppSound app) (session : Session config) :
    (app.returnDiskSession session).sessions = app.sessions ∧
      (app.returnDiskSession session).kvReservedPages = app.kvReservedPages ∧
      (app.returnDiskSession session).nextSessionKey = app.nextSessionKey ∧
      AppSound (app.returnDiskSession session) := by
  rw [App.returnDiskSession]
  split
  next => exact ⟨rfl, rfl, rfl, happ⟩
  next =>
    refine ⟨rfl, rfl, rfl, happ.resident, ?_⟩
    intro entry hentry
    rcases mem_append.1 hentry with hold | hnew
    · exact happ.durable entry (mem_filter.1 hold).1
    · rw [mem_singleton.1 hnew]

theorem publishDurable_spec (happ : AppSound app) (stored : Session config)
    (persistentId : String) (generation : Nat) :
    let published := app.publishDurable stored persistentId generation
    keysOf published.sessions = keysOf app.sessions ∧
      pagesOf published.sessions = pagesOf app.sessions ∧ AppSound published := by
  refine ⟨?_, ?_, ?_, ?_⟩
  · rw [keysOf, keysOf, App.publishDurable, map_map]
    apply map_congr_left
    intro session _
    simp only [Function.comp]
    split <;> rfl
  · rw [pagesOf, pagesOf, App.publishDurable, map_map]
    apply congrArg List.sum
    apply map_congr_left
    intro session _
    simp only [Function.comp]
    split <;> rfl
  · intro session hsession
    obtain ⟨old, hold, rfl⟩ := mem_map.1 hsession
    split <;> exact happ.resident old hold
  · intro entry hentry
    rcases mem_append.1 hentry with hold | hnew
    · exact happ.durable entry (mem_filter.1 hold).1
    · rw [mem_singleton.1 hnew]

theorem published_turned {persistentId : String} {generation : Nat}
    (hready : Ready app ⟨.persisting context stored, [], disposals⟩) :
    Turned app (app.publishDurable stored persistentId generation)
      ⟨.persisting context stored, [], disposals⟩ ⟨.cleaning context, [], disposals⟩ := by
  obtain ⟨hkeys, hpages, happ⟩ := publishDurable_spec hready.app stored persistentId generation
  refine ⟨?_, fun hle => hle, KeysMoved.of_subperm rfl ?_, happ, hready.thread.phase,
    hready.thread.disposed, ?_⟩
  · rw [hpages]
    rfl
  · rw [hkeys]
    exact List.Subperm.refl _
  · exact nofun

theorem loading_turned {ok : Bool} (hready : Ready app ⟨.loading session, [], disposals⟩)
    (h : Thread.step app ⟨.loading session, [], disposals⟩ (.load ok) = some (app', thread')) :
    Turned app app' ⟨.loading session, [], disposals⟩ thread' := by
  have hdisposed : disposals = [] := hready.thread.disposed
  have hcovered := hready.covered
  simp only [Thread.owed, Phase.owed, pagesOf_nil] at hcovered
  change (if ok = true then _ else _) = _ at h
  split at h
  next =>
    cases h
    refine Turned.of_allocated hready.app rfl ⟨rfl, ?_⟩ hdisposed (by simp) rfl
    intro held hsame
    cases hsame
    rfl
  next =>
    have hpaid : session.pages ≤ app.allocateSessionKey.1.kvReservedPages := by
      change session.pages ≤ app.kvReservedPages
      omega
    rw [releaseContextCredits_some session.pages_pos hpaid] at h
    cases h
    refine ⟨?_, ?_, ⟨[app.nextSessionKey], .inr ⟨rfl, rfl⟩, ?_⟩,
      ⟨hready.app.resident, hready.app.durable⟩, trivial, hdisposed, ?_⟩
    · simp only [Thread.owed, Phase.owed, pagesOf_nil, App.allocateSessionKey]
      omega
    · intro hcapacity
      exact Nat.le_trans (Nat.sub_le _ _) hcapacity
    · exact (sublist_cons_self _ _).subperm
    · exact nofun

theorem Thread.step_turned {choice : Choice} (hready : Ready app thread)
    (hkept : thread.popped ≠ [] → choice ≠ .drop .broken)
    (h : Thread.step app thread choice = some (app', thread')) :
    Turned app app' thread thread' := by
  obtain ⟨phase, popped, disposals⟩ := thread
  cases popped with
  | cons session rest =>
    cases choice with
    | drop outcome =>
      cases outcome with
      | dropped => exact dropped_turned hready rfl h
      | broken => exact absurd rfl (hkept (by simp))
    | _ => simp [Thread.step] at h
  | nil =>
    have hsound := hready.thread.phase
    have hdisposed := hready.thread.disposed
    simp only [Thread.step] at h
    split at h
    next prompt signature cutoff =>
      split at h
      next =>
        cases h
        exact sweep_turned hready
      next =>
        cases h
        exact Turned.of_phase hready.app
          ⟨nil_subperm, ⟨rfl, by simp⟩, hdisposed, by simp⟩ rfl
    next prompt signature => exact checkout_turned hready h
    next session =>
      split at h
      next =>
        cases h
        exact Turned.of_phase hready.app ⟨nil_subperm, trivial, hdisposed, by simp⟩ rfl
      next hacquired =>
        cases h
        exact Turned.of_acquired hready.app hacquired
          ⟨nil_subperm, trivial, hdisposed, by simp⟩ (by simp [Phase.owed])
    next session =>
      exact evict_turned hready h ⟨nil_subperm, trivial, hdisposed, by simp⟩
        ⟨nil_subperm, trivial, hdisposed, by simp⟩ rfl rfl
    next session ok => exact loading_turned hready h
    next session =>
      cases h
      obtain ⟨hsessions, hreserved, hkey, happ⟩ := returnDiskSession_spec hready.app session
      exact Turned.of_durable happ hsessions hreserved hkey
        ⟨nil_subperm, ⟨rfl, by simp⟩, hdisposed, by simp⟩ rfl
    next context session =>
      exact evict_turned hready h ⟨List.Subperm.refl _, hsound, hdisposed, by simp⟩
        (releasing_follows hsound.1 hdisposed) rfl rfl
    next context held =>
      cases h
      exact Turned.of_phase hready.app
        ⟨nil_subperm, ⟨hsound.1, by simp⟩, hdisposed, by simp⟩ rfl
    next context held now =>
      exact store_turned hready rfl hdisposed hsound.1 (hsound.2 held rfl) rfl rfl h
    next context session visible signature checkpoint exact =>
      split at h
      next => cases h
      next =>
        split at h
        next =>
          cases h
          exact Turned.of_phase hready.app
            ⟨List.Subperm.refl _, hsound.1, hdisposed, by simp⟩ rfl
        next =>
          cases h
          exact Turned.of_phase hready.app (releasing_follows hsound.1 hdisposed) rfl
    next context session =>
      cases h
      exact Turned.of_phase hready.app (releasing_follows hsound.1 hdisposed) rfl
    next context session next => exact resize_turned hready h
    next context session next =>
      exact evict_turned hready h ⟨List.Subperm.refl _, hsound, hdisposed, by simp⟩
        (releasing_follows hsound hdisposed) rfl rfl
    next context session visible signature checkpoint exact =>
      cases session with
      | some held =>
        cases h
        exact Turned.of_phase hready.app
          ⟨List.Subperm.refl _, hsound, hdisposed, by simp⟩ rfl
      | none =>
        cases h
        exact Turned.of_allocated hready.app rfl hsound hdisposed (by simp) rfl
    next context session visible signature checkpoint exact key =>
      exact evict_turned hready h ⟨List.Subperm.refl _, hsound, hdisposed, by simp⟩
        (releasing_follows hsound hdisposed) rfl rfl
    next context session visible signature checkpoint exact key =>
      cases h
      exact Turned.of_phase hready.app (releasing_follows hsound hdisposed) rfl
    next context session visible signature checkpoint exact key retainedTokens parkedPages
        parkedBytes =>
      cases h
      exact ended_turned hready
    next context kept now => exact store_turned hready rfl hdisposed hsound.1 hsound.2 rfl rfl h
    next context stored written =>
      cases written with
      | none =>
        cases h
        exact Turned.of_phase hready.app ⟨nil_subperm, trivial,
          hdisposed.trans (if_pos hsound).symm, by simp⟩
          (by simp only [Phase.owed, RequestContext.owed]; exact if_pos hsound)
      | some written =>
        cases h
        exact published_turned hready
    next context removed =>
      cases h
      exact Turned.of_durable
        ⟨hready.app.resident,
          fun entry hentry => hready.app.durable entry (mem_filter.1 hentry).1⟩
        rfl rfl rfl ⟨nil_subperm, trivial, hdisposed.trans (if_pos hsound).symm, by simp⟩
        (by simp only [Phase.owed, RequestContext.owed]; exact if_pos hsound)
    next context => exact releasing_turned hready h
    next context outcome =>
      have hfollows : (Phase.finished context).Follows (.returning context) disposals :=
        ⟨nil_subperm, trivial, by
          simpa [Phase.Disposed, (show context.retained = false from hsound)] using hdisposed,
          by simp⟩
      split at h
      next session _ =>
        cases h
        obtain ⟨hsessions, hreserved, hkey, happ⟩ := returnDiskSession_spec hready.app session
        exact Turned.of_durable happ hsessions hreserved hkey hfollows rfl
      next =>
        cases h
        exact Turned.of_phase hready.app hfollows rfl
    next => cases h

end QuantumLlm.Server
