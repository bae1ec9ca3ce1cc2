import QuantumLlm.Server.Turns

/-!
# Conservation of page credits

Whatever the order of the turns, the reserved pages are those of the sessions in
the map and those that the requests have in hand, as long as no popped session is
lost on the way to its worker.
-/

namespace QuantumLlm.Server

open List

variable {config : Config} {service service' : Service config}

def Service.owed (service : Service config) : Nat :=
  Interleaved.total Thread.owed service.threads

/-- The sum of `held_pages` of the live contexts that are not retained. -/
def Service.held (service : Service config) : Nat :=
  Interleaved.total (fun thread => thread.phase.held) service.threads

/-- The keys of the map and those the requests may store under. -/
def Service.names (service : Service config) : List Nat :=
  keysOf service.shared.sessions ++ service.threads.flatMap fun thread => thread.phase.keys

structure Balanced (service : Service config) : Prop where
  reserved : service.shared.kvReservedPages = pagesOf service.shared.sessions + service.owed
  capacity : service.shared.kvReservedPages ≤ config.sessionPageCapacity
  distinct : service.names.Nodup
  allocated : ∀ key ∈ service.names, key < service.shared.nextSessionKey
  shared : AppSound service.shared
  threads : ∀ thread ∈ service.threads, thread.Sound

/-- No session that was popped is lost to an error that is not the worker's. -/
def Service.KeepsPopped (service : Service config) : Action → Prop
  | .turn index (.drop .broken) =>
    ∀ thread, service.threads[index]? = some thread → thread.popped = []
  | _ => True

theorem Balanced.start (diskSessions : List (String × Session config)) :
    Balanced (Service.start diskSessions) where
  reserved := rfl
  capacity := Nat.zero_le _
  distinct := nodup_nil
  allocated := by simp [Service.names, Service.start, keysOf]
  shared := by
    refine ⟨by simp [Service.start], ?_⟩
    intro entry hentry
    obtain ⟨old, -, rfl⟩ := mem_map.1 hentry
    rfl
  threads := by simp [Service.start]

theorem Balanced.arrive (hbalanced : Balanced service) (prompt : List Nat)
    (signature : Signature) :
    Balanced { service with
      threads := service.threads ++ [{ phase := .sweeping prompt signature }] } where
  reserved := by
    rw [hbalanced.reserved]
    simp [Service.owed, Interleaved.total, Thread.owed, Phase.owed]
  capacity := hbalanced.capacity
  distinct := by simpa [Service.names, Phase.keys] using hbalanced.distinct
  allocated := by simpa [Service.names, Phase.keys] using hbalanced.allocated
  shared := hbalanced.shared
  threads := by
    intro thread hthread
    rcases mem_append.1 hthread with hold | hnew
    · exact hbalanced.threads thread hold
    · rw [mem_singleton.1 hnew]
      exact ⟨trivial, rfl, by simp⟩

variable {thread : Thread config}

theorem Balanced.ready (hbalanced : Balanced service)
    (hthread : thread ∈ service.threads) : Ready service.shared thread where
  keys := by
    refine hbalanced.distinct.sublist ((List.Sublist.refl _).append ?_)
    obtain ⟨before, after, hsplit⟩ := append_of_mem hthread
    rw [hsplit, flatMap_append, flatMap_cons]
    exact (sublist_append_left _ _).trans (sublist_append_right _ _)
  covered := by
    rw [hbalanced.reserved]
    exact Nat.add_le_add_left (Interleaved.weight_le_total _ hthread) _
  app := hbalanced.shared
  thread := hbalanced.threads thread hthread

theorem Balanced.turn (hbalanced : Balanced service) {index : Nat} {choice : Choice}
    (hkept : service.KeepsPopped (.turn index choice))
    (h : service.turn Thread.step index choice = some service') : Balanced service' := by
  obtain ⟨before, thread, after, shared', thread', hthreads, hindex, -, hstep, rfl⟩ :=
    Interleaved.turn_spec h
  have hmem : thread ∈ service.threads := by
    rw [hthreads]
    exact mem_append_right _ mem_cons_self
  have hturned : Turned service.shared shared' thread thread' := by
    apply Thread.step_turned (hbalanced.ready hmem) ?_ hstep
    rintro hpopped rfl
    exact hpopped (hkept thread hindex)
  obtain ⟨fresh, hfresh, hmoved⟩ := hturned.keys
  have hsub : ∀ key ∈ Service.names ⟨shared', before ++ thread' :: after⟩,
      key ∈ fresh ++ service.names := by
    intro key hkey
    have hmoved' := hmoved.subset
    simp only [Service.names, hthreads, mem_append, flatMap_append,
      flatMap_cons, subset_def] at hkey hmoved' ⊢
    grind
  have hbelow : ∀ key ∈ fresh, key = service.shared.nextSessionKey := by
    rcases hfresh with ⟨rfl, -⟩ | ⟨rfl, -⟩ <;> simp
  refine ⟨?_, hturned.capacity hbalanced.capacity, ?_, ?_, hturned.app, ?_⟩
  · have hledger := hturned.ledger
    have hreserved := hbalanced.reserved
    simp only [Service.owed, hthreads, Interleaved.total_split] at hreserved ⊢
    omega
  · have hdistinct := hbalanced.distinct
    rw [Service.names, hthreads] at hdistinct
    apply Interleaved.nodup_split hdistinct ?_ ?_ hmoved
    · intro key hkey hold
      rw [← hthreads] at hold
      have hless := hbalanced.allocated key hold
      rw [hbelow key hkey] at hless
      exact Nat.lt_irrefl _ hless
    · rcases hfresh with ⟨rfl, -⟩ | ⟨rfl, -⟩ <;> simp
  · intro key hkey
    rcases mem_append.1 (hsub key hkey) with hnew | hold
    · have hkey' := hbelow key hnew
      rcases hfresh with ⟨rfl, -⟩ | ⟨rfl, hnext⟩
      · cases hnew
      · change key < shared'.nextSessionKey
        omega
    · have hless := hbalanced.allocated key hold
      change key < shared'.nextSessionKey
      rcases hfresh with ⟨-, hnext⟩ | ⟨-, hnext⟩ <;> omega
  · intro other hother
    rcases mem_append.1 hother with hbefore | hafter
    · exact hbalanced.threads other (hthreads ▸ mem_append_left _ hbefore)
    · rcases mem_cons.1 hafter with rfl | hafter
      · exact hturned.thread
      · exact hbalanced.threads other
          (hthreads ▸ mem_append_right _ (mem_cons_of_mem _ hafter))

theorem Balanced.step {action : Action} (hbalanced : Balanced service)
    (hkept : service.KeepsPopped action) (h : service.step action = some service') :
    Balanced service' := by
  cases action with
  | arrive prompt signature =>
    cases h
    exact hbalanced.arrive prompt signature
  | turn index choice => exact hbalanced.turn hkept h

theorem Balanced.of_reaches {diskSessions : List (String × Session config)}
    (h : Reaches Service.step Service.KeepsPopped (Service.start diskSessions) service) :
    Balanced service :=
  h.invariant (Balanced.start diskSessions) fun _ hbalanced hkept hstep =>
    hbalanced.step hkept hstep

theorem Thread.Sound.held_le (hsound : thread.Sound) :
    thread.phase.held ≤ thread.owed := by
  obtain ⟨phase, popped, disposals⟩ := thread
  rw [Thread.owed]
  cases phase with
  | stored context session persist =>
    obtain ⟨hpopped, hpages⟩ := hsound.duplicated context session persist rfl
    have hretained : context.retained = false := hsound.phase
    obtain ⟨first, rest, rfl⟩ := exists_cons_of_ne_nil hpopped
    have hfirst := hpages first mem_cons_self
    simp only [Phase.held, RequestContext.owed, hretained, Bool.false_eq_true, if_false,
      pagesOf_cons]
    omega
  | persisting context session =>
    have hretained : context.retained = true := hsound.phase
    simp [Phase.held, RequestContext.owed, hretained]
  | cleaning context =>
    have hretained : context.retained = true := hsound.phase
    simp [Phase.held, RequestContext.owed, hretained]
  | _ => simp [Phase.held, Phase.owed]

theorem Thread.Sound.held_eq (hsound : thread.Sound)
    (hrest : thread.atRest = true) : thread.phase.held = thread.owed := by
  obtain ⟨phase, popped, disposals⟩ := thread
  rw [Thread.atRest, Bool.and_eq_true] at hrest
  obtain ⟨hpopped, hphase⟩ := hrest
  have hnil : popped = [] := isEmpty_iff.1 hpopped
  rw [Thread.owed, hnil, pagesOf_nil, Nat.zero_add]
  cases phase with
  | loading session => cases hphase
  | stored context session persist =>
    exact absurd hnil (hsound.duplicated context session persist rfl).1
  | persisting context session =>
    have hretained : context.retained = true := hsound.phase
    simp [Phase.held, Phase.owed, RequestContext.owed, hretained]
  | cleaning context =>
    have hretained : context.retained = true := hsound.phase
    simp [Phase.held, Phase.owed, RequestContext.owed, hretained]
  | _ => rfl

/-- How the pages of a finished context must have ended: exactly once. -/
def Thread.EndedOnce (thread : Thread config) : Prop :=
  ∀ context, thread.phase = .finished (some context) →
    thread.disposals =
      if context.retained then [.handedOver context.heldPages]
      else if 0 < context.heldPages then [.released context.heldPages] else []

theorem Thread.Sound.disposed_once (hsound : thread.Sound) :
    thread.disposals.length ≤ 1 ∧ thread.EndedOnce ∧ thread.phase ≠ .raised := by
  obtain ⟨phase, popped, disposals⟩ := thread
  have hdisposed := hsound.disposed
  refine ⟨?_, ?_, ?_⟩
  · cases phase with
    | finished context => cases context <;> grind [Phase.Disposed]
    | _ => grind [Phase.Disposed]
  · intro context hfinished
    cases hfinished
    exact hdisposed
  · intro hraised
    cases hraised
    exact hdisposed

/-- **Page credits are conserved** in every run that loses no popped session: at rest the reserved
pages are those of the map and of the live contexts, they never are fewer nor more than there
are, the pages of each context end exactly once, and no release raises. -/
theorem credits_conserved {diskSessions : List (String × Session config)}
    (h : Reaches Service.step Service.KeepsPopped (Service.start diskSessions) service) :
    ((∀ thread ∈ service.threads, thread.atRest) →
      service.shared.kvReservedPages = pagesOf service.shared.sessions + service.held) ∧
    pagesOf service.shared.sessions + service.held ≤ service.shared.kvReservedPages ∧
    service.shared.kvReservedPages ≤ config.sessionPageCapacity ∧
    ∀ thread ∈ service.threads,
      thread.disposals.length ≤ 1 ∧ thread.EndedOnce ∧ thread.phase ≠ .raised := by
  have hbalanced := Balanced.of_reaches h
  refine ⟨?_, ?_, hbalanced.capacity, ?_⟩
  · intro hrest
    rw [hbalanced.reserved, Service.held, Service.owed]
    rw [Interleaved.total_congr fun thread hthread =>
      (hbalanced.threads thread hthread).held_eq (hrest thread hthread)]
  · rw [hbalanced.reserved]
    apply Nat.add_le_add_left
    exact Interleaved.total_le_total fun thread hthread => (hbalanced.threads thread hthread).held_le
  · exact fun thread hthread => (hbalanced.threads thread hthread).disposed_once

def smallConfig : Config where
  kvPageTokens := 16
  kvPageTokens_pos := by decide
  sessionPageCapacity := 4

/-- A request that ends as a retained session of one page. -/
def retainedTurn : List Action :=
  .arrive [1, 2, 3] none :: ([.sweep 0, .go, .retain [1, 2, 3] none 3 false, .go, .go, .ended 3 1 96,
    .go, .store 5, .persist none, .go].map (Action.turn 0))

/-- A second request that evicts it, and whose DROP ends so. -/
def evictingTurn (outcome : Drop) : List Action :=
  .arrive [9] none :: ([.sweep 0, .go, .evict, .drop outcome].map (Action.turn 1))

def endingTurn : List Action :=
  [.go, .drop .dropped].map (Action.turn 1)

def keepsPopped (service : Service config) : Action → Bool
  | .turn index (.drop .broken) => service.threads[index]?.all fun thread => thread.popped.isEmpty
  | _ => true

theorem keepsPopped_iff {action : Action} (h : keepsPopped service action = true) :
    service.KeepsPopped action := by
  unfold Service.KeepsPopped
  split
  next index =>
    intro thread hthread
    simpa [keepsPopped, hthread] using h
  next => trivial

/-- With the worker's answer the page comes back. -/
theorem eviction_conserves : ∃ service : Service smallConfig,
    service.shared.kvReservedPages = 0 ∧ service.threads.length = 2 ∧
      ((∀ thread ∈ service.threads, thread.atRest) →
        service.shared.kvReservedPages = pagesOf service.shared.sessions + service.held) := by
  have hrun : ((runChecked Service.step keepsPopped (Service.start ([] : List
      (String × Session smallConfig))) (retainedTurn ++ evictingTurn .dropped)).map fun service =>
        (service.shared.kvReservedPages, service.threads.length)) = some (0, 2) := by
    decide +kernel
  obtain ⟨service, hrun, hstate⟩ := Option.map_eq_some_iff.1 hrun
  obtain ⟨hreserved, hthreads⟩ := Prod.mk.inj hstate
  have hreach := Reaches.of_runChecked (fun _ _ => keepsPopped_iff) hrun
  exact ⟨service, hreserved, hthreads, (credits_conserved hreach).1⟩

/-- A broken pipe while an evicted session is dropped: nothing holds its page any more. -/
theorem broken_drop_loses_credits : ∃ service : Service smallConfig,
    Reaches Service.step (fun _ _ => True) (Service.start []) service ∧
      (∀ thread ∈ service.threads, thread.atRest) ∧
      service.shared.kvReservedPages ≠ pagesOf service.shared.sessions + service.held := by
  have hrun : ((runActions Service.step (Service.start ([] : List
      (String × Session smallConfig))) (retainedTurn ++ evictingTurn .broken ++ endingTurn)).map
        fun service => (service.threads.all Thread.atRest, service.shared.kvReservedPages,
          pagesOf service.shared.sessions + service.held)) = some (true, 1, 0) := by
    decide +kernel
  obtain ⟨service, hrun, hstate⟩ := Option.map_eq_some_iff.1 hrun
  simp only [Prod.mk.injEq, all_eq_true] at hstate
  obtain ⟨hrest, hreserved, hsum⟩ := hstate
  refine ⟨service, Reaches.of_runActions hrun, hrest, ?_⟩
  rw [hreserved, hsum]
  decide

end QuantumLlm.Server
