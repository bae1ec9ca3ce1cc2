import QuantumLlm.Server.Durable.Steps

/-!
# The index of durable sessions

In every run whose operations disturb no other request, the index and the files
name generations that load, and the index never goes back to an older one.
-/

namespace QuantumLlm.Server.Durable

open List

variable {service service' : Service}

structure Service.Sound (service : Service) : Prop where
  store : service.shared.Sound
  requests : ∀ phase ∈ service.threads, phase.Sound service.shared
  distinct : (service.threads.flatMap Phase.stored).Nodup

theorem Service.start_sound : Service.start.Sound where
  store :=
    { distinct := nodup_nil
      known := by simp [start]
      named := by simp [start]
      entries := by simp [start]
      older := by simp [start]
      indexes := by simp [start, Store.indexOf]
      kept := by simp [start]
      sessions := by simp [start] }
  requests := by simp [start]
  distinct := by simp [start]

/-- Only directories with a `session.json` have an entry. -/
def Store.Indexed (store : Store) : Prop :=
  ∀ entry ∈ store.diskSessions, ∃ generation, store.indexOf entry.1 = some generation

theorem Store.Sound.files {store : Store} (h : store.Sound) : store.files.Sound where
  distinct := nodup_nil
  known := by simp [Store.files]
  named := by simp [Store.files]
  entries := by simp [Store.files]
  older := by simp [Store.files]
  indexes := h.indexes
  kept := h.kept
  sessions := by simp [Store.files]

theorem Store.Sound.removeDirectory {store : Store} (h : store.Sound) (hindexed : store.Indexed)
    {persistentId : String} (hnone : store.indexOf persistentId = none) :
    (store.withDirectory persistentId {}).Sound := by
  have hsnapshots : ∀ other, other ≠ persistentId →
      (store.withDirectory persistentId {}).snapshotsOf other = store.snapshotsOf other := by
    intro other hne
    simp [Store.snapshotsOf, Store.withDirectory, hne]
  have hindex : ∀ other,
      (store.withDirectory persistentId {}).indexOf other = store.indexOf other := by
    intro other
    rw [indexOf_withDirectory]
    split
    next hsame => rw [hsame, hnone]
    next => rfl
  have hne : ∀ other generation, store.indexOf other = some generation →
      other ≠ persistentId := by
    rintro other generation hsome rfl
    rw [hnone] at hsome
    cases hsome
  refine ⟨h.distinct, h.known, h.named, ?_, h.older, ?_, ?_, h.sessions⟩
  · intro entry hentry
    obtain ⟨generation, hsome⟩ := hindexed entry hentry
    rw [hsnapshots entry.1 (hne _ _ hsome)]
    exact h.entries entry hentry
  · intro other generation hsome
    rw [hindex] at hsome
    rw [hsnapshots other (hne _ _ hsome)]
    exact h.indexes other generation hsome
  · intro other hnonzero hevicted
    rw [hindex]
    exact h.kept other hnonzero hevicted

theorem Store.Sound.loadPersistentSessions {store : Store} (h : store.Sound)
    (hindexed : store.Indexed) (listed : List String) :
    (store.loadPersistentSessions listed).Sound := by
  induction listed generalizing store with
  | nil => exact h
  | cons persistentId rest ih =>
    rw [Store.loadPersistentSessions]
    split
    next hnone =>
      apply ih (h.removeDirectory hindexed hnone)
      intro entry hentry
      obtain ⟨generation, hsome⟩ := hindexed entry hentry
      refine ⟨generation, ?_⟩
      rw [indexOf_withDirectory, if_neg]
      · exact hsome
      · rintro rfl
        rw [Store.indexOf, hnone] at hsome
        cases hsome
    next generation hsome =>
      apply ih (h.publish hsome)
      intro entry hentry
      rcases mem_putEntry hentry with ⟨hold, -⟩ | rfl
      · exact hindexed entry hold
      · exact ⟨generation, hsome⟩

theorem Service.Sound.turn (h : service.Sound) {index : Nat} {choice : Choice}
    (hundisturbed : service.undisturbed (.turn index choice) = true)
    (hstep : service.turn Phase.step index choice = some service') :
    service'.Sound ∧ service.shared.Newer service'.shared := by
  obtain ⟨before, phase, after, store', phase', hthreads, hindex, hothers, hturn, rfl⟩ :=
    Interleaved.turn_spec hstep
  have hdistinct := h.distinct
  rw [hthreads] at hdistinct
  have hmem : ∀ other ∈ before ++ after, other ∈ service.threads := by
    intro other hother
    rw [hthreads, mem_append, mem_cons]
    rcases mem_append.1 hother with hbefore | hafter
    · exact .inl hbefore
    · exact .inr (.inr hafter)
  rw [Service.undisturbed, hindex, Option.all_some, hothers] at hundisturbed
  have hturned := Phase.step_turned h.store
    (h.requests phase (by rw [hthreads]; exact mem_append_right _ mem_cons_self))
    (fun other hother => h.requests other (hmem other hother))
    (fun other hother copy hcopy => Interleaved.names_of_others hdistinct hother hcopy)
    hundisturbed hturn
  refine ⟨⟨hturned.store, ?_, ?_⟩, hturned.newer⟩
  · intro other hother
    rcases mem_append.1 hother with hbefore | hafter
    · exact hturned.others other (mem_append_left _ hbefore)
    · rcases mem_cons.1 hafter with rfl | hafter
      · exact hturned.phase
      · exact hturned.others other (mem_append_right _ hafter)
  · obtain ⟨fresh, hfresh, hmoved⟩ := hturned.stored
    have hknown : ∀ copy ∈ (before ++ phase :: after).flatMap Phase.stored,
        copy < service.shared.nextCopy := by
      intro copy hcopy
      obtain ⟨other, hother, hstored⟩ := mem_flatMap.1 hcopy
      apply (h.requests other (hthreads ▸ hother)).known
      cases other <;> simp_all [Phase.stored, Phase.copies]
    apply @Interleaved.nodup_split _ Phase.stored [] [] fresh
    · exact hdistinct
    · rcases hfresh with rfl | rfl
      · simp
      · intro copy hcopy hold
        rw [mem_singleton.1 hcopy] at hold
        exact Nat.lt_irrefl _ (hknown _ hold)
    · rcases hfresh with rfl | rfl <;> simp
    · exact hmoved

theorem Service.Sound.step (h : service.Sound) {action : Action}
    (hundisturbed : service.undisturbed action = true)
    (hstep : service.step action = some service') :
    service'.Sound := by
  cases action with
  | arrive =>
    cases hstep
    refine ⟨h.store, ?_, by simpa [Phase.stored] using h.distinct⟩
    intro phase hphase
    rcases mem_append.1 hphase with hold | hnew
    · exact h.requests phase hold
    · rw [mem_singleton.1 hnew]
      exact ⟨trivial, by simp [Phase.copies]⟩
  | evict copy =>
    cases hstep
    refine ⟨h.store.of_sessions fun other hother =>
      h.store.sessions other (mem_of_mem_erase hother), ?_, h.distinct⟩
    intro phase hphase
    exact ⟨(h.requests phase hphase).relies.of_snapshots (fun _ _ => rfl) (fun _ => rfl)
      (fun _ => le_rfl) fun _ hentry => hentry, (h.requests phase hphase).known⟩
  | turn index choice => exact (h.turn hundisturbed hstep).1
  | crash listed =>
    cases hstep
    refine ⟨h.store.files.loadPersistentSessions (by simp [Store.Indexed, Store.files]) listed,
      ?_, by simp [Phase.stored]⟩
    intro phase hphase
    rw [mem_singleton.1 hphase]
    exact ⟨trivial, by simp [Phase.copies]⟩

theorem loadPersistentSessions_newest {store : Store} (h : store.Sound) (hindexed : store.Indexed)
    (hnewest : ∀ entry ∈ store.diskSessions, store.latest entry.1 ≤ store.generationOf entry.2)
    (listed : List String) :
    (store.loadPersistentSessions listed).latest = store.latest ∧
      ∀ entry ∈ (store.loadPersistentSessions listed).diskSessions,
        store.latest entry.1 ≤ (store.loadPersistentSessions listed).generationOf entry.2 := by
  induction listed generalizing store with
  | nil => exact ⟨rfl, hnewest⟩
  | cons persistentId rest ih =>
    rw [Store.loadPersistentSessions]
    split
    next hnone =>
      apply ih (h.removeDirectory hindexed hnone) ?_ hnewest
      intro entry hentry
      obtain ⟨generation, hsome⟩ := hindexed entry hentry
      refine ⟨generation, ?_⟩
      rw [indexOf_withDirectory, if_neg]
      · exact hsome
      · rintro rfl
        rw [Store.indexOf, hnone] at hsome
        cases hsome
    next generation hsome =>
      apply ih (h.publish hsome)
      · intro entry hentry
        rcases mem_putEntry hentry with ⟨hold, -⟩ | rfl
        · exact hindexed entry hold
        · exact ⟨generation, hsome⟩
      · intro entry hentry
        rcases (Store.Newer.publish h hsome).entries entry hentry with hnew | ⟨hold, hle⟩
        · exact hnew
        · exact (hnewest entry hold).trans hle

theorem Service.Sound.newer (h : service.Sound) {action : Action}
    (hundisturbed : service.undisturbed action = true)
    (hstep : service.step action = some service') : service.shared.Newer service'.shared := by
  cases action with
  | arrive =>
    cases hstep
    exact Store.Newer.refl _
  | evict copy =>
    cases hstep
    exact Store.Newer.of_fewer (fun _ => le_rfl) (fun _ hentry => hentry) (fun _ _ => rfl) h.store
  | turn index choice => exact (h.turn hundisturbed hstep).2
  | crash listed =>
    cases hstep
    obtain ⟨hlatest, hnewest⟩ := loadPersistentSessions_newest h.store.files
      (by simp [Store.Indexed, Store.files]) (by simp [Store.files]) listed
    exact
      { latest := fun persistentId => by rw [hlatest]; rfl
        entries := fun entry hentry => .inl (hnewest entry hentry) }

def Undisturbed (service : Service) (action : Action) : Prop := service.undisturbed action = true

theorem Service.Sound.of_reaches (h : service.Sound)
    (hreach : Reaches Service.step Undisturbed service service') : service'.Sound :=
  hreach.invariant h fun _ hsound hundisturbed hstep => hsound.step hundisturbed hstep

theorem Service.Sound.entries_newer (h : service.Sound) {entry entry' : String × Nat}
    (hentry : entry ∈ service.shared.diskSessions)
    (hreach : Reaches Service.step Undisturbed service service')
    (hentry' : entry' ∈ service'.shared.diskSessions) (hsame : entry'.1 = entry.1) :
    service.shared.generationOf entry.2 ≤ service'.shared.generationOf entry'.2 := by
  let bounded (service' : Service) : Prop :=
    service.shared.generationOf entry.2 ≤ service'.shared.latest entry.1 ∧
      ∀ entry' ∈ service'.shared.diskSessions, entry'.1 = entry.1 →
        service.shared.generationOf entry.2 ≤ service'.shared.generationOf entry'.2
  have hbounded : bounded service' := by
    apply @Reaches.invariant _ _ _ _ _ _ bounded hreach
    · refine ⟨h.store.older entry hentry, ?_⟩
      intro other hother hname
      rw [inj_on_of_nodup_map h.store.distinct hother hentry hname]
    · intro middle middle' action hmiddle hholds hundisturbed hstep
      have hnewer := (h.of_reaches hmiddle).newer hundisturbed hstep
      refine ⟨hholds.1.trans (hnewer.latest _), ?_⟩
      intro other hother hname
      rcases hnewer.entries other hother with hnew | ⟨hold, hle⟩
      · rw [hname] at hnew
        exact hholds.1.trans hnew
      · exact (hholds.2 other hold hname).trans hle
  exact hbounded.2 entry' hentry' hsame

/-- **The index never names a missing generation**, nor does a `session.json`, in any run whose
operations disturb no other request; its entries only move to newer generations, and what was
committed last and not evicted is still there. -/
theorem index_names_loadable
    (h : Reaches Service.step Undisturbed Service.start service) :
    (∀ entry ∈ service.shared.diskSessions, service.shared.loads entry.2 = true) ∧
    (∀ persistentId generation, service.shared.indexOf persistentId = some generation →
      (service.shared.snapshotsOf persistentId).loadable generation = true) ∧
    (∀ service', Reaches Service.step Undisturbed service service' →
      ∀ entry ∈ service.shared.diskSessions, ∀ entry' ∈ service'.shared.diskSessions,
        entry'.1 = entry.1 →
          service.shared.generationOf entry.2 ≤ service'.shared.generationOf entry'.2) ∧
    (∀ persistentId, service.shared.latest persistentId ≠ 0 →
      (∀ generation, (persistentId, generation) ∈ service.shared.evicted →
        generation < service.shared.latest persistentId) →
      service.shared.indexOf persistentId = some (service.shared.latest persistentId) ∧
        (service.shared.snapshotsOf persistentId).loadable
          (service.shared.latest persistentId) = true) := by
  have hsound := Service.start_sound.of_reaches h
  refine ⟨?_, ?_, ?_, ?_⟩
  · intro entry hentry
    rw [Store.loads, hsound.store.named entry hentry]
    exact hsound.store.entries entry hentry
  · exact fun persistentId generation hindex =>
      (hsound.store.indexes persistentId generation hindex).1
  · exact fun service' hreach entry hentry entry' hentry' hsame =>
      hsound.entries_newer hentry hreach hentry' hsame
  · intro persistentId hnonzero hevicted
    have hindex := hsound.store.kept persistentId hnonzero hevicted
    exact ⟨hindex, (hsound.store.indexes persistentId _ hindex).1⟩

/-- Checkout, retention and `_persist_session` of one request. -/
def persistedTurn (index : Nat) (checkout : List Choice) (now : Nat) : List Action :=
  let persisted : List Choice := [.retain [], .save "x" now ["a"], .writeBlob "a", .writeManifest,
    .writeIndex, .prune]
  .arrive :: (checkout ++ persisted).map (Action.turn index)

def publishedTurn (index : Nat) : List Action :=
  [.go, .go, .go, .cleanup [], .go].map (Action.turn index)

/-- A second request that takes the durable copy, after an eviction, and a restart. -/
theorem durable_turn_is_kept : ∃ service : Service,
    service.shared.diskSessions.length = 1 ∧
      ∀ entry ∈ service.shared.diskSessions, service.shared.loads entry.2 = true := by
  have hrun : ((runChecked Service.step Service.undisturbed Service.start
      (persistedTurn 0 [.fresh] 10 ++ publishedTurn 0 ++ [.evict 0] ++
        persistedTurn 1 [.durable "x", .load true] 20 ++
        [.turn 1 (.removeManifest 10)] ++ publishedTurn 1 ++ [.crash ["x"]])).map
          fun service => service.shared.diskSessions.length) = some 1 := by
    decide +kernel
  obtain ⟨service, hrun, hlength⟩ := Option.map_eq_some_iff.1 hrun
  have hreach : Reaches Service.step Undisturbed Service.start service :=
    Reaches.of_runChecked (fun _ _ hcheck => hcheck) hrun
  exact ⟨service, hlength, (index_names_loadable hreach).1⟩

/-- One request has the copy of the map, another the durable one. The first prunes the generation
of the second, which gives it back: with no request left, the index names it. -/
theorem shared_id_loses_generation : ∃ service : Service,
    Reaches Service.step (fun _ _ => True) Service.start service ∧
      (∀ phase ∈ service.threads, phase = .finished) ∧
      ∃ entry ∈ service.shared.diskSessions, service.shared.loads entry.2 = false := by
  have hrun : ((runActions Service.step Service.start
      (persistedTurn 0 [.fresh] 10 ++ publishedTurn 0 ++
        [.arrive, .turn 1 (.durable "x"), .turn 1 (.load true)] ++
        persistedTurn 2 [.resident 0] 20 ++ [.turn 2 (.removeManifest 10)] ++
        publishedTurn 2 ++ [.turn 1 .fail, .turn 1 .go])).map fun service =>
          (service.threads.all fun phase => decide (phase = .finished),
            service.shared.diskSessions.any fun entry => !service.shared.loads entry.2)) =
      some (true, true) := by
    decide +kernel
  obtain ⟨service, hrun, hstate⟩ := Option.map_eq_some_iff.1 hrun
  simp only [Prod.mk.injEq, all_eq_true, decide_eq_true_eq, any_eq_true,
    Bool.not_eq_true'] at hstate
  exact ⟨service, Reaches.of_runActions hrun, hstate.1, hstate.2⟩

end QuantumLlm.Server.Durable
