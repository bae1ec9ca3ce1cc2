import QuantumLlm.Server.Durable.Sound

/-!
# One operation of a request

An undisturbed operation keeps the index, the files and what the other requests
rely on. Only PRUNE and the removal of a directory take anything away.
-/

namespace QuantumLlm.Server.Durable

open List

variable {store store' : Store} {phase phase' : Phase} {copy : Nat} {persistentId : String}
  {generation : Nat} {name : String} {live : List String}

theorem Store.Sound.writeBlob (h : store.Sound) : (store.withSnapshots persistentId
    ((store.directories persistentId).snapshots.writeBlob name)).Sound :=
  h.withSnapshots fun _ _ hloadable => Generations.loadable_writeBlob hloadable name

theorem Phase.Sound.writeBlob (h : phase.Sound store) : phase.Sound (store.withSnapshots
    persistentId ((store.directories persistentId).snapshots.writeBlob name)) :=
  h.withSnapshots (fun _ _ hblob => Generations.blob_writeBlob hblob name)
    (fun _ _ hloadable => Generations.loadable_writeBlob hloadable name) fun _ _ _ hnamed => hnamed

theorem Store.Sound.writeManifest (h : store.Sound) (hnew : store.latest persistentId < generation) :
    (store.withSnapshots persistentId
      ((store.directories persistentId).snapshots.writeManifest generation live)).Sound := by
  apply h.withSnapshots
  intro other hnames hloadable
  apply Generations.loadable_writeManifest_of_ne hloadable
  rcases hnames with hindex | ⟨entry, hentry, rfl, rfl⟩
  · have hlatest := (h.indexes persistentId other hindex).2
    omega
  · have holder := h.older entry hentry
    omega

theorem Phase.Sound.writeManifest (h : phase.Sound store)
    (hnew : store.latest persistentId < generation)
    (hother : phase.hasSaved persistentId generation = false) :
    phase.Sound (store.withSnapshots persistentId
      ((store.directories persistentId).snapshots.writeManifest generation live)) := by
  apply h.withSnapshots
  · exact fun _ _ hblob => hblob
  · intro other hsaved hloadable
    apply Generations.loadable_writeManifest_of_ne hloadable
    rintro rfl
    rw [hsaved] at hother
    cases hother
  · intro other named hle hnamed
    have hne : other ≠ generation := by omega
    simp only [Generations.writeManifest, hne, if_false] at hnamed
    exact hnamed

theorem indexOf_withDirectory (directory : Directory) (other : String) :
    (store.withDirectory persistentId directory).indexOf other =
      if other = persistentId then directory.index else store.indexOf other := by
  simp only [Store.indexOf, Store.withDirectory]
  split <;> rfl

theorem snapshotsOf_withIndex (index : Option Nat) (other : String) :
    (store.withDirectory persistentId
      { store.directories persistentId with index }).snapshotsOf other =
        store.snapshotsOf other := by
  simp only [Store.snapshotsOf, Store.withDirectory]
  split
  next hsame => rw [hsame]
  next => rfl

theorem Store.Sound.commit (h : store.Sound) (hnew : store.latest persistentId < generation)
    (hloadable : (store.snapshotsOf persistentId).loadable generation = true) :
    (store.commit persistentId generation).Sound := by
  have hindex : ∀ other, (store.commit persistentId generation).indexOf other =
      if other = persistentId then some generation else store.indexOf other :=
    indexOf_withDirectory _
  have hlatest : ∀ other, (store.commit persistentId generation).latest other =
      if other = persistentId then generation else store.latest other := by
    intro other
    simp only [Store.commit]
    split
    next hsame =>
      rw [hsame]
      omega
    next => rfl
  refine ⟨h.distinct, h.known, h.named, ?_, ?_, ?_, ?_, h.sessions⟩
  · intro entry hentry
    have hkept := h.entries entry hentry
    rw [← @snapshotsOf_withIndex store persistentId (some generation)] at hkept
    exact hkept
  · intro entry hentry
    have holder := h.older entry hentry
    rw [hlatest]
    split
    next hsame =>
      rw [hsame] at holder
      exact holder.trans hnew.le
    next => exact holder
  · intro other committed hcommitted
    rw [hindex] at hcommitted
    rw [hlatest]
    have hsnapshots : (store.commit persistentId generation).snapshotsOf other =
        store.snapshotsOf other := snapshotsOf_withIndex _ _
    rw [hsnapshots]
    split
    next hsame =>
      rw [if_pos hsame] at hcommitted
      cases hcommitted
      rw [hsame]
      exact ⟨hloadable, rfl⟩
    next hother =>
      rw [if_neg hother] at hcommitted
      exact h.indexes other committed hcommitted
  · intro other hnonzero hevicted
    rw [hindex, hlatest] at *
    split
    next => rfl
    next hother =>
      rw [if_neg hother] at hnonzero
      simp only [hother, if_false] at hevicted
      exact h.kept other hnonzero hevicted

theorem latest_le_commit (other : String) :
    store.latest other ≤ (store.commit persistentId generation).latest other := by
  simp only [Store.commit]
  split
  next => exact Nat.le_max_left _ _
  next => exact le_rfl

theorem Phase.Sound.commit (h : phase.Sound store) :
    phase.Sound (store.commit persistentId generation) :=
  ⟨h.relies.of_snapshots (fun _ _ => rfl) (fun _ => snapshotsOf_withIndex _ _) latest_le_commit
    fun _ hentry => hentry, h.known⟩

variable {removed : Nat}

theorem Store.Sound.removeManifest (h : store.Sound) (hfree : ¬ store.Names persistentId removed) :
    (store.withSnapshots persistentId
      ((store.directories persistentId).snapshots.removeManifest removed)).Sound := by
  apply h.withSnapshots
  intro other hnames hloadable
  apply Generations.loadable_removeManifest hloadable
  rintro rfl
  exact hfree hnames

theorem Store.Sound.removeBlob (h : store.Sound)
    (hfree : ∀ generation named, store.Names persistentId generation →
      (store.snapshotsOf persistentId).manifest generation = some named → name ∉ named) :
    (store.withSnapshots persistentId
      ((store.directories persistentId).snapshots.removeBlob name)).Sound := by
  apply h.withSnapshots
  intro other hnames hloadable
  exact Generations.loadable_removeBlob hloadable fun named hnamed =>
    hfree other named hnames hnamed

section

variable (h : phase.Sound store) (hother : phase.savesInto persistentId = false)

include h hother

/-- A request that is not between its SAVE and its commit relies on no file but the manifests of
committed generations, which are only read. -/
theorem Phase.Sound.removeManifest :
    phase.Sound (store.withSnapshots persistentId
      ((store.directories persistentId).snapshots.removeManifest removed)) := by
  apply h.withSnapshots
  · intro name hsaves
    rw [hother] at hsaves
    cases hsaves
  · intro generation hsaved
    cases phase <;> simp_all [Phase.hasSaved, Phase.savesInto]
  · intro generation named _ hnamed
    simp only [Generations.removeManifest] at hnamed
    split at hnamed
    next => cases hnamed
    next => exact hnamed

theorem Phase.Sound.removeBlob :
    phase.Sound (store.withSnapshots persistentId
      ((store.directories persistentId).snapshots.removeBlob name)) := by
  apply h.withSnapshots
  · intro blob hsaves
    rw [hother] at hsaves
    cases hsaves
  · intro generation hsaved
    cases phase <;> simp_all [Phase.hasSaved, Phase.savesInto]
  · exact fun generation named _ hnamed => hnamed

end

theorem Store.Sound.cleanup (h : store.Sound) (removed : List String) :
    (store.cleanupPersistentSessions removed).Sound := by
  have hfewer := h.of_fewer (filter_sublist (p := fun entry =>
    decide (¬ (entry.1 ∈ removed ∧ entry.1 ∉ store.liveIds))) (l := store.diskSessions))
  exact
    { hfewer with
      kept := fun persistentId hnonzero hevicted =>
        h.kept persistentId hnonzero fun generation hmem =>
          hevicted generation (mem_append_left _ hmem) }

theorem Phase.Sound.cleanup (h : phase.Sound store) (removed : List String) :
    phase.Sound (store.cleanupPersistentSessions removed) :=
  ⟨h.relies.of_snapshots (fun _ _ => rfl) (fun _ => rfl) (fun _ => le_rfl)
    fun _ hentry => mem_append_left _ hentry, h.known⟩

theorem Store.Sound.removeIndex (h : store.Sound)
    (hevicted : (persistentId, generation) ∈ store.evicted)
    (hlatest : store.latest persistentId ≤ generation) :
    (store.withDirectory persistentId
      { store.directories persistentId with index := none }).Sound := by
  refine ⟨h.distinct, h.known, h.named, ?_, h.older, ?_, ?_, h.sessions⟩
  · intro entry hentry
    rw [snapshotsOf_withIndex]
    exact h.entries entry hentry
  · intro other committed hcommitted
    rw [indexOf_withDirectory] at hcommitted
    rw [snapshotsOf_withIndex]
    split at hcommitted
    next => cases hcommitted
    next => exact h.indexes other committed hcommitted
  · intro other hnonzero hnone
    rw [indexOf_withDirectory]
    split
    next hsame =>
      have hless := hnone generation (hsame ▸ hevicted)
      rw [hsame] at hless
      exact absurd hlatest (Nat.not_le_of_lt hless)
    next => exact h.kept other hnonzero hnone

theorem Phase.Sound.removeIndex (h : phase.Sound store) : phase.Sound (store.withDirectory
    persistentId { store.directories persistentId with index := none }) :=
  ⟨h.relies.of_snapshots (fun _ _ => rfl) (fun _ => snapshotsOf_withIndex _ _) (fun _ => le_rfl)
    fun _ hentry => hentry, h.known⟩

/-- Entries that were not there before name the newest committed generation. -/
structure Store.Newer (store store' : Store) : Prop where
  latest : ∀ persistentId, store.latest persistentId ≤ store'.latest persistentId
  entries : ∀ entry' ∈ store'.diskSessions,
    store.latest entry'.1 ≤ store'.generationOf entry'.2 ∨
      entry' ∈ store.diskSessions ∧ store.generationOf entry'.2 ≤ store'.generationOf entry'.2

theorem Store.Newer.of_fewer (hlatest : ∀ persistentId,
      store.latest persistentId ≤ store'.latest persistentId)
    (hentries : ∀ entry ∈ store'.diskSessions, entry ∈ store.diskSessions)
    (hcopies : ∀ copy < store.nextCopy, store'.copies copy = store.copies copy)
    (h : store.Sound) : store.Newer store' where
  latest := hlatest
  entries := by
    intro entry hentry
    right
    refine ⟨hentries entry hentry, le_of_eq ?_⟩
    rw [Store.generationOf, Store.generationOf, hcopies _ (h.known entry (hentries entry hentry))]

theorem Store.Newer.refl (store : Store) : store.Newer store where
  latest := fun _ => le_rfl
  entries := fun _ hentry => .inr ⟨hentry, le_rfl⟩

theorem Store.Newer.putEntry (h : store.Sound)
    (hindex : store.indexOf persistentId = some (store.generationOf copy)) :
    store.Newer (store.putEntry persistentId copy) where
  latest := fun _ => le_rfl
  entries := by
    intro entry hentry
    rcases mem_putEntry hentry with ⟨hold, -⟩ | rfl
    · exact .inr ⟨hold, le_rfl⟩
    · exact .inl (h.indexes persistentId _ hindex).2.ge

theorem Store.Newer.returnDiskSession (h : store.Sound)
    (hcommitted : Phase.isCommitted store copy = true) :
    store.Newer (store.returnDiskSession copy) := by
  rw [Phase.isCommitted] at hcommitted
  rw [Store.returnDiskSession]
  split
  next => exact Store.Newer.refl store
  next persistentId hid =>
    rw [hid] at hcommitted
    exact Store.Newer.putEntry h (of_decide_eq_true hcommitted)

theorem Store.Newer.publish (h : store.Sound)
    (hindex : store.indexOf persistentId = some generation) :
    store.Newer (store.publish persistentId generation) where
  latest := fun _ => le_rfl
  entries := by
    intro entry hentry
    rcases mem_putEntry hentry with ⟨hold, -⟩ | rfl
    · right
      refine ⟨hold, le_of_eq ?_⟩
      change _ = ((store.allocate _).copies entry.2).snapshotGeneration
      rw [copies_allocate (h.known entry hold)]
      rfl
    · left
      have hnew : (store.publish persistentId generation).generationOf store.nextCopy =
          generation := by
        simp [Store.publish, Store.generationOf, Store.putEntry, Store.allocate]
      rw [hnew]
      exact (h.indexes persistentId _ hindex).2.ge

theorem Store.Newer.assign (h : store.Sound) (hmay : store.MayName copy persistentId)
    (hindex : (∀ entry ∈ store.diskSessions, entry.2 ≠ copy) ∨
      store.indexOf persistentId = some generation) :
    store.Newer (store.assign copy
      { persistentId := some persistentId, snapshotGeneration := generation }) where
  latest := fun _ => le_rfl
  entries := by
    intro entry hentry
    by_cases hsame : entry.2 = copy
    · left
      have hname : entry.1 = persistentId := hmay entry.1 (hsame ▸ h.named entry hentry)
      have hgeneration : (store.assign copy
          { persistentId := some persistentId, snapshotGeneration := generation }).generationOf
            entry.2 = generation := by
        simp [Store.generationOf, Store.assign, hsame]
      rw [hgeneration, hname]
      rcases hindex with hfree | hindex
      · exact absurd hsame (hfree entry hentry)
      · exact (h.indexes persistentId _ hindex).2.ge
    · right
      refine ⟨hentry, le_of_eq ?_⟩
      simp [Store.generationOf, Store.assign, hsame]

/-- What an undisturbed operation of one request keeps, for the store and for the others. -/
structure Turned (store store' : Store) (phase phase' : Phase) (others : List Phase) : Prop where
  newer : store.Newer store'
  stored : ∃ fresh : List Nat, (fresh = [] ∨ fresh = [store.nextCopy]) ∧
    phase'.stored.Subperm (fresh ++ phase.stored)
  counted : store.nextCopy ≤ store'.nextCopy
  others : ∀ other ∈ others, other.Sound store'
  phase : phase'.Sound store'
  store : store'.Sound

section

variable {others : List Phase} {entry : String × Nat} {stored source : Nat}

theorem Turned.of_store (hstore : store.Sound) (hothers : ∀ other ∈ others, other.Sound store)
    (hphase : phase'.Sound store) (hstored : phase'.stored.Subperm phase.stored) :
    Turned store store phase phase' others where
  newer := Store.Newer.refl store
  stored := ⟨[], .inl rfl, hstored⟩
  counted := le_rfl
  others := hothers
  phase := hphase
  store := hstore

variable {snapshots : Generations Nat String}

theorem Turned.of_snapshots (hstore : store.Sound)
    (hothers : ∀ other ∈ others, other.Sound (store.withSnapshots persistentId snapshots))
    (hphase : phase'.Sound (store.withSnapshots persistentId snapshots))
    (hsound : (store.withSnapshots persistentId snapshots).Sound)
    (hstored : phase'.stored.Subperm phase.stored) :
    Turned store (store.withSnapshots persistentId snapshots) phase phase' others where
  newer := Store.Newer.of_fewer (fun _ => le_rfl) (fun _ hentry => hentry) (fun _ _ => rfl) hstore
  stored := ⟨[], .inl rfl, hstored⟩
  counted := le_rfl
  others := hothers
  phase := hphase
  store := hsound

theorem returned_turned (hstore : store.Sound) (hothers : ∀ other ∈ others, other.Sound store)
    (hphase : phase'.Sound store) (hstored : phase'.stored = [])
    (hknown : copy < store.nextCopy) (hcommitted : Phase.isCommitted store copy = true) :
    Turned store (store.returnDiskSession copy) phase phase' others where
  newer := Store.Newer.returnDiskSession hstore hcommitted
  stored := ⟨[], .inl rfl, by rw [hstored]; exact nil_subperm⟩
  counted := by
    rw [Store.returnDiskSession]
    split <;> exact le_rfl
  others := fun other hother => (hothers other hother).returnDiskSession copy
  phase := hphase.returnDiskSession copy
  store := hstore.returnDiskSession hknown hcommitted

theorem Phase.Sound.storeSession (h : phase.Sound store) (source : Option Nat)
    (duplicates : List Nat) : phase.Sound (store.storeSession source duplicates) :=
  ⟨(h.allocate (source.elim {} store.copies)).relies.of_snapshots (fun _ _ => rfl) (fun _ => rfl)
    (fun _ => le_rfl) fun _ hentry => hentry, (h.allocate (source.elim {} store.copies)).known⟩

theorem Phase.Sound.publish (h : phase.Sound store) :
    phase.Sound (store.publish persistentId generation) :=
  ⟨(h.allocate { persistentId := some persistentId, snapshotGeneration := generation }).relies
    |>.of_snapshots (fun _ _ => rfl) (fun _ => rfl) (fun _ => le_rfl) fun _ hentry => hentry,
    (h.allocate { persistentId := some persistentId, snapshotGeneration := generation }).known⟩

theorem Store.Newer.storeSession (h : store.Sound) (source : Option Nat) (duplicates : List Nat) :
    store.Newer (store.storeSession source duplicates) :=
  Store.Newer.of_fewer (fun _ => le_rfl) (fun _ hentry => hentry)
    (fun _ hcopy => copies_allocate hcopy) h

theorem retained_turned {context source : Option Nat} {duplicates : List Nat}
    (hstore : store.Sound) (hothers : ∀ other ∈ others, other.Sound store)
    (hphase : (Phase.generating context source).Sound store) :
    Turned store (store.storeSession source duplicates) (.generating context source)
      (.persisting store.nextCopy source) others where
  newer := Store.Newer.storeSession hstore source duplicates
  stored := ⟨[store.nextCopy], .inr rfl, by simp [Phase.stored]⟩
  counted := Nat.le_succ _
  others := fun other hother => (hothers other hother).storeSession source duplicates
  phase := by
    have hknown : ∀ copy ∈ source, copy < store.nextCopy := by
      intro copy hcopy
      apply hphase.known
      simp only [Phase.copies, mem_append, Option.mem_toList]
      exact .inr hcopy
    refine ⟨?_, ?_⟩
    · intro persistentId hid
      have hnew : (store.storeSession source duplicates).copies store.nextCopy =
          source.elim {} store.copies := if_pos rfl
      rw [hnew] at hid
      cases source with
      | none => cases hid
      | some copy =>
        refine ⟨copy, rfl, ?_⟩
        have hold : (store.storeSession (some copy) duplicates).copies copy =
            store.copies copy := copies_allocate (hknown copy rfl)
        rw [hold]
        exact hid
    · intro copy hcopy
      rcases mem_cons.1 hcopy with rfl | hsource
      · exact Nat.lt_succ_self _
      · exact Nat.lt_succ_of_lt (hknown copy (Option.mem_toList.1 hsource))
  store := hstore.storeSession source duplicates

theorem prune_frees (hundisturbed : ((store.directories persistentId).index = some generation &&
      (store.diskSessions.all fun entry =>
        entry.1 ≠ persistentId || store.generationOf entry.2 = generation) &&
      others.all fun other => !other.savesInto persistentId) = true)
    (hphase : (Phase.pruning stored persistentId generation live).Sound store) :
    (∀ other, store.Names persistentId other → other = generation) ∧
      (∀ other ∈ others, other.savesInto persistentId = false) ∧
      ∀ other named, store.Names persistentId other →
        (store.snapshotsOf persistentId).manifest other = some named → named = live := by
  simp only [Bool.and_eq_true, decide_eq_true_eq, all_eq_true, Bool.or_eq_true,
    Bool.not_eq_true'] at hundisturbed
  obtain ⟨⟨hindex, hentries⟩, hothers⟩ := hundisturbed
  have honly : ∀ other, store.Names persistentId other → other = generation := by
    rintro other (hnamed | ⟨entry, hentry, hname, rfl⟩)
    · rw [Store.indexOf, hindex] at hnamed
      exact (Option.some.inj hnamed).symm
    · exact (hentries entry hentry).resolve_left (fun hne => hne hname)
  refine ⟨honly, hothers, ?_⟩
  intro other named hnames hmanifest
  rw [honly other hnames] at hmanifest
  exact hphase.relies.2.2 named hmanifest

theorem removal_frees
    (hundisturbed : ((store.directories persistentId).index = none &&
      (store.diskSessions.all fun entry => entry.1 ≠ persistentId) &&
      others.all fun other => !other.savesInto persistentId) = true) :
    (∀ other, ¬ store.Names persistentId other) ∧
      ∀ other ∈ others, other.savesInto persistentId = false := by
  simp only [Bool.and_eq_true, decide_eq_true_eq, all_eq_true, Bool.not_eq_true']
    at hundisturbed
  obtain ⟨⟨hindex, hentries⟩, hothers⟩ := hundisturbed
  refine ⟨?_, hothers⟩
  rintro other (hnamed | ⟨entry, hentry, hname, -⟩)
  · rw [Store.indexOf, hindex] at hnamed
    cases hnamed
  · exact hentries entry hentry hname

theorem removed_turned (hstore : store.Sound)
    (hothers : ∀ other ∈ others, other.Sound store) (hphase : phase.Sound store)
    (hfree : ∀ other ∈ others, other.savesInto persistentId = false)
    (hself : phase.savesInto persistentId = false)
    (hkeeps : ∀ other : Phase, other.Sound store → other.savesInto persistentId = false →
      other.Sound (store.withSnapshots persistentId snapshots))
    (hsound : (store.withSnapshots persistentId snapshots).Sound) :
    Turned store (store.withSnapshots persistentId snapshots) phase phase others :=
  Turned.of_snapshots hstore (fun other hother => hkeeps other (hothers other hother)
    (hfree other hother)) (hkeeps phase hphase hself) hsound (List.Subperm.refl _)

end

end QuantumLlm.Server.Durable
