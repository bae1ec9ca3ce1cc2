import QuantumLlm.Server.Durable.Requests

/-!
# What the index and the files keep

Every entry and every `session.json` names a generation that loads. Each operation
of the requests keeps this for the store, and keeps what the other requests rely
on, unless it disturbs them.
-/

namespace QuantumLlm.Server.Durable

open List

variable {store store' : Store} {phase phase' : Phase} {copy : Nat} {persistentId : String}
  {generation : Nat}

namespace Store

def snapshotsOf (store : Store) (persistentId : String) : Generations Nat String :=
  (store.directories persistentId).snapshots

def indexOf (store : Store) (persistentId : String) : Option Nat :=
  (store.directories persistentId).index

structure Sound (store : Store) : Prop where
  distinct : (store.diskSessions.map Prod.fst).Nodup
  known : ∀ entry ∈ store.diskSessions, entry.2 < store.nextCopy
  named : ∀ entry ∈ store.diskSessions,
    (store.copies entry.2).persistentId = some entry.1
  entries : ∀ entry ∈ store.diskSessions,
    (store.snapshotsOf entry.1).loadable (store.generationOf entry.2) = true
  older : ∀ entry ∈ store.diskSessions, store.generationOf entry.2 ≤ store.latest entry.1
  indexes : ∀ persistentId generation, store.indexOf persistentId = some generation →
    (store.snapshotsOf persistentId).loadable generation = true ∧
      generation = store.latest persistentId
  kept : ∀ persistentId, store.latest persistentId ≠ 0 →
    (∀ generation, (persistentId, generation) ∈ store.evicted →
      generation < store.latest persistentId) →
    store.indexOf persistentId = some (store.latest persistentId)
  sessions : ∀ copy ∈ store.sessions, copy < store.nextCopy

end Store

/-- The session objects a request refers to. -/
def Phase.copies : Phase → List Nat
  | .loading copy | .declined copy => [copy]
  | .generating context source => context.toList ++ source.toList
  | .persisting stored source => stored :: source.toList
  | .saving stored _ _ _ _ | .saved stored _ _ | .committed stored _ _ | .pruning stored _ _ _
  | .pruned stored _ _ => [stored]
  | .returning context => context.toList
  | _ => []

/-- The object that a request has stored and will name. -/
def Phase.stored : Phase → List Nat
  | .persisting stored _ | .saving stored _ _ _ _ | .saved stored _ _ | .committed stored _ _
  | .pruning stored _ _ _ | .pruned stored _ _ => [stored]
  | _ => []

/-- An object that has no other id. -/
def Store.MayName (store : Store) (copy : Nat) (persistentId : String) : Prop :=
  ∀ other, (store.copies copy).persistentId = some other → other = persistentId

/-- What a request relies on between its operations. -/
def Phase.Relies (store : Store) : Phase → Prop
  | .persisting stored source => ∀ persistentId,
      (store.copies stored).persistentId = some persistentId →
        ∃ copy, source = some copy ∧ (store.copies copy).persistentId = some persistentId
  | .saving stored persistentId _ _ written => store.MayName stored persistentId ∧
      ∀ name ∈ written, (store.snapshotsOf persistentId).blob name = true
  | .saved stored persistentId generation => store.MayName stored persistentId ∧
      (store.snapshotsOf persistentId).loadable generation = true
  | .committed stored persistentId generation => store.MayName stored persistentId ∧
      generation ≤ store.latest persistentId
  | .pruning stored persistentId generation live => store.MayName stored persistentId ∧
      generation ≤ store.latest persistentId ∧
      ∀ named, (store.snapshotsOf persistentId).manifest generation = some named → named = live
  | .pruned stored persistentId _ => store.MayName stored persistentId
  | .removing removed => ∀ entry ∈ removed, entry ∈ store.evicted
  | _ => True

structure Phase.Sound (phase : Phase) (store : Store) : Prop where
  relies : phase.Relies store
  known : ∀ copy ∈ phase.copies, copy < store.nextCopy

theorem mem_putEntry {entry : String × Nat}
    (h : entry ∈ (store.putEntry persistentId copy).diskSessions) :
    entry ∈ store.diskSessions ∧ entry.1 ≠ persistentId ∨ entry = (persistentId, copy) := by
  rcases mem_append.1 h with hold | hnew
  · obtain ⟨hmem, hne⟩ := mem_filter.1 hold
    exact .inl ⟨hmem, of_decide_eq_true hne⟩
  · exact .inr (mem_singleton.1 hnew)

theorem putEntry_distinct (h : (store.diskSessions.map Prod.fst).Nodup) :
    ((store.putEntry persistentId copy).diskSessions.map Prod.fst).Nodup := by
  rw [Store.putEntry, map_append, nodup_append']
  refine ⟨h.sublist (filter_sublist.map _), by simp, ?_⟩
  intro name hname hsame
  obtain ⟨entry, hentry, rfl⟩ := mem_map.1 hname
  have hne := (mem_filter.1 hentry).2
  simp only [map_cons, map_nil, mem_singleton] at hsame
  exact of_decide_eq_true hne hsame

theorem Store.Sound.putEntry (h : store.Sound) (hknown : copy < store.nextCopy)
    (hnamed : (store.copies copy).persistentId = some persistentId)
    (hindex : store.indexOf persistentId = some (store.generationOf copy)) :
    (store.putEntry persistentId copy).Sound := by
  obtain ⟨hloadable, hlatest⟩ := h.indexes persistentId _ hindex
  refine ⟨putEntry_distinct h.distinct, ?_, ?_, ?_, ?_, h.indexes, h.kept, h.sessions⟩
  all_goals
    intro entry hentry
    rcases mem_putEntry hentry with ⟨hold, -⟩ | rfl
  · exact h.known entry hold
  · exact hknown
  · exact h.named entry hold
  · exact hnamed
  · exact h.entries entry hold
  · exact hloadable
  · exact h.older entry hold
  · exact hlatest.le

theorem Store.Sound.of_fewer {entries : List (String × Nat)} (h : store.Sound)
    (hfewer : entries.Sublist store.diskSessions) :
    ({ store with diskSessions := entries } : Store).Sound where
  distinct := h.distinct.sublist (hfewer.map _)
  known := fun entry hentry => h.known entry (hfewer.subset hentry)
  named := fun entry hentry => h.named entry (hfewer.subset hentry)
  entries := fun entry hentry => h.entries entry (hfewer.subset hentry)
  older := fun entry hentry => h.older entry (hfewer.subset hentry)
  indexes := h.indexes
  kept := h.kept
  sessions := h.sessions

theorem Store.Sound.of_sessions {sessions : List Nat} (h : store.Sound)
    (hknown : ∀ copy ∈ sessions, copy < store.nextCopy) :
    ({ store with sessions } : Store).Sound :=
  { h with sessions := hknown }

theorem Store.MayName.of_copy (h : store.MayName copy persistentId)
    (hcopy : store'.copies copy = store.copies copy) : store'.MayName copy persistentId := by
  rw [Store.MayName, hcopy]
  exact h

section

variable (h : phase.Relies store)
  (hcopies : ∀ copy ∈ phase.copies, store'.copies copy = store.copies copy)

include h hcopies

/-- Whatever keeps its session objects, the blobs it has written, the generation it has saved and
the manifests of committed generations. -/
theorem Phase.Relies.transfer (hblobs : ∀ persistentId name, phase.savesInto persistentId = true →
      (store.snapshotsOf persistentId).blob name = true →
        (store'.snapshotsOf persistentId).blob name = true)
    (hsaved : ∀ persistentId generation, phase.hasSaved persistentId generation = true →
      (store.snapshotsOf persistentId).loadable generation = true →
        (store'.snapshotsOf persistentId).loadable generation = true)
    (hmanifest : ∀ persistentId generation named, generation ≤ store.latest persistentId →
      (store'.snapshotsOf persistentId).manifest generation = some named →
        (store.snapshotsOf persistentId).manifest generation = some named)
    (hlatest : ∀ persistentId, store.latest persistentId ≤ store'.latest persistentId)
    (hevicted : ∀ entry ∈ store.evicted, entry ∈ store'.evicted) : phase.Relies store' := by
  cases phase with
  | persisting stored source =>
    intro persistentId hid
    rw [hcopies stored (by simp [Phase.copies])] at hid
    obtain ⟨copy, rfl, hcopy⟩ := h persistentId hid
    refine ⟨copy, rfl, ?_⟩
    rw [hcopies copy (by simp [Phase.copies])]
    exact hcopy
  | saving stored persistentId generation live written =>
    refine ⟨h.1.of_copy (hcopies stored (by simp [Phase.copies])), ?_⟩
    exact fun name hname => hblobs _ _ (by simp [Phase.savesInto]) (h.2 name hname)
  | saved stored persistentId generation =>
    refine ⟨h.1.of_copy (hcopies stored (by simp [Phase.copies])), ?_⟩
    exact hsaved _ _ (by simp [Phase.hasSaved]) h.2
  | committed stored persistentId generation =>
    exact ⟨h.1.of_copy (hcopies stored (by simp [Phase.copies])), h.2.trans (hlatest _)⟩
  | pruning stored persistentId generation live =>
    refine ⟨h.1.of_copy (hcopies stored (by simp [Phase.copies])), h.2.1.trans (hlatest _), ?_⟩
    exact fun named hnamed => h.2.2 named (hmanifest _ _ _ h.2.1 hnamed)
  | pruned stored persistentId generation =>
    exact Store.MayName.of_copy h (hcopies stored (by simp [Phase.copies]))
  | removing removed => exact fun entry hentry => hevicted entry (h entry hentry)
  | _ => trivial

theorem Phase.Relies.of_snapshots
    (hsnapshots : ∀ persistentId, store'.snapshotsOf persistentId = store.snapshotsOf persistentId)
    (hlatest : ∀ persistentId, store.latest persistentId ≤ store'.latest persistentId)
    (hevicted : ∀ entry ∈ store.evicted, entry ∈ store'.evicted) : phase.Relies store' := by
  apply h.transfer hcopies ?_ ?_ ?_ hlatest hevicted
  all_goals
    simp_all

end

theorem copies_allocate {value : Copy} (h : copy < store.nextCopy) :
    (store.allocate value).copies copy = store.copies copy :=
  if_neg (Nat.ne_of_lt h)

theorem Store.Sound.allocate (h : store.Sound) (value : Copy) : (store.allocate value).Sound := by
  have hold : ∀ entry ∈ store.diskSessions,
      (store.allocate value).copies entry.2 = store.copies entry.2 :=
    fun entry hentry => copies_allocate (h.known entry hentry)
  refine ⟨h.distinct, ?_, ?_, ?_, ?_, h.indexes, h.kept, ?_⟩
  · exact fun entry hentry => Nat.lt_succ_of_lt (h.known entry hentry)
  · intro entry hentry
    rw [hold entry hentry]
    exact h.named entry hentry
  · intro entry hentry
    rw [Store.generationOf, hold entry hentry]
    exact h.entries entry hentry
  · intro entry hentry
    rw [Store.generationOf, hold entry hentry]
    exact h.older entry hentry
  · exact fun copy hcopy => Nat.lt_succ_of_lt (h.sessions copy hcopy)

theorem Phase.Sound.allocate (h : phase.Sound store) (value : Copy) :
    phase.Sound (store.allocate value) where
  relies := h.relies.of_snapshots
    (fun copy hcopy => copies_allocate (h.known copy hcopy)) (fun _ => rfl) (fun _ => le_rfl)
    fun _ hentry => hentry
  known := fun copy hcopy => Nat.lt_succ_of_lt (h.known copy hcopy)

theorem Store.Sound.storeSession (h : store.Sound) (source : Option Nat) (duplicates : List Nat) :
    (store.storeSession source duplicates).Sound := by
  apply (h.allocate (source.elim {} store.copies)).of_sessions
  intro copy hcopy
  rcases mem_append.1 hcopy with hold | hnew
  · exact Nat.lt_succ_of_lt (h.sessions copy (mem_filter.1 hold).1)
  · rw [mem_singleton.1 hnew]
    exact Nat.lt_succ_self _

theorem Store.Sound.publish (h : store.Sound)
    (hindex : store.indexOf persistentId = some generation) :
    (store.publish persistentId generation).Sound := by
  have hnew : (store.allocate
      { persistentId := some persistentId, snapshotGeneration := generation }).copies
        store.nextCopy = { persistentId := some persistentId, snapshotGeneration := generation } :=
    if_pos rfl
  apply (h.allocate _).putEntry (Nat.lt_succ_self _)
  · rw [hnew]
  · rw [Store.generationOf, hnew]
    exact hindex

theorem Store.Sound.returnDiskSession (h : store.Sound) (hknown : copy < store.nextCopy)
    (hcommitted : Phase.isCommitted store copy = true) :
    (store.returnDiskSession copy).Sound := by
  rw [Phase.isCommitted] at hcommitted
  rw [Store.returnDiskSession]
  split
  next => exact h
  next persistentId hid =>
    rw [hid] at hcommitted
    exact h.putEntry hknown hid (of_decide_eq_true hcommitted)

theorem Phase.Sound.returnDiskSession (h : phase.Sound store) (copy : Nat) :
    phase.Sound (store.returnDiskSession copy) := by
  rw [Store.returnDiskSession]
  split
  next => exact h
  next =>
    exact ⟨h.relies.of_snapshots (fun _ _ => rfl) (fun _ => rfl) (fun _ => le_rfl)
      fun _ hentry => hentry, h.known⟩

theorem Store.Sound.assign (h : store.Sound) (hmay : store.MayName copy persistentId)
    (hindex : (∀ entry ∈ store.diskSessions, entry.2 ≠ copy) ∨
      store.indexOf persistentId = some generation) :
    (store.assign copy
      { persistentId := some persistentId, snapshotGeneration := generation }).Sound := by
  have hcases : ∀ entry ∈ store.diskSessions,
      (entry.2 ≠ copy ∧ (store.assign copy
        { persistentId := some persistentId, snapshotGeneration := generation }).copies entry.2 =
          store.copies entry.2) ∨
      (entry.1 = persistentId ∧ store.indexOf persistentId = some generation ∧
        (store.assign copy
          { persistentId := some persistentId, snapshotGeneration := generation }).copies entry.2 =
            { persistentId := some persistentId, snapshotGeneration := generation }) := by
    intro entry hentry
    by_cases hsame : entry.2 = copy
    · right
      refine ⟨hmay entry.1 (hsame ▸ h.named entry hentry), ?_, if_pos hsame⟩
      rcases hindex with hfree | hindex
      · exact absurd hsame (hfree entry hentry)
      · exact hindex
    · exact .inl ⟨hsame, if_neg hsame⟩
  refine ⟨h.distinct, h.known, ?_, ?_, ?_, h.indexes, h.kept, h.sessions⟩
  all_goals
    intro entry hentry
    rcases hcases entry hentry with ⟨-, hcopy⟩ | ⟨hname, hcommitted, hcopy⟩
    all_goals try rw [Store.generationOf]
    all_goals rw [hcopy]
  · exact h.named entry hentry
  · rw [hname]
  · exact h.entries entry hentry
  · rw [hname]
    exact (h.indexes persistentId generation hcommitted).1
  · exact h.older entry hentry
  · rw [hname]
    exact (h.indexes persistentId generation hcommitted).2.le

theorem Phase.Sound.assign (h : phase.Sound store) (hmay : store.MayName copy persistentId)
    (hother : copy ∉ phase.stored) : phase.Sound (store.assign copy
      { persistentId := some persistentId, snapshotGeneration := generation }) := by
  refine ⟨?_, h.known⟩
  have hrelies := h.relies
  have hsame : ∀ stored, stored ≠ copy → (store.assign copy
      { persistentId := some persistentId, snapshotGeneration := generation }).copies stored =
        store.copies stored := fun stored hne => if_neg hne
  cases phase with
  | persisting stored source =>
    intro other hid
    rw [hsame stored (by rintro rfl; simp [Phase.stored] at hother)] at hid
    obtain ⟨previous, rfl, hprevious⟩ := hrelies other hid
    refine ⟨previous, rfl, ?_⟩
    by_cases hshared : previous = copy
    · rw [Store.assign]
      simp only [hshared, if_true]
      rw [hmay other (hshared ▸ hprevious)]
    · rw [hsame previous hshared]
      exact hprevious
  | saving stored other kept live written =>
    exact ⟨hrelies.1.of_copy (hsame stored (by rintro rfl; simp [Phase.stored] at hother)),
      hrelies.2⟩
  | saved stored other kept =>
    exact ⟨hrelies.1.of_copy (hsame stored (by rintro rfl; simp [Phase.stored] at hother)),
      hrelies.2⟩
  | committed stored other kept =>
    exact ⟨hrelies.1.of_copy (hsame stored (by rintro rfl; simp [Phase.stored] at hother)),
      hrelies.2⟩
  | pruning stored other kept live =>
    exact ⟨hrelies.1.of_copy (hsame stored (by rintro rfl; simp [Phase.stored] at hother)),
      hrelies.2⟩
  | pruned stored other kept =>
    exact Store.MayName.of_copy hrelies
      (hsame stored (by rintro rfl; simp [Phase.stored] at hother))
  | _ => exact hrelies

/-- A generation that the index or `session.json` names. -/
def Store.Names (store : Store) (persistentId : String) (generation : Nat) : Prop :=
  store.indexOf persistentId = some generation ∨
    ∃ entry ∈ store.diskSessions, entry.1 = persistentId ∧ store.generationOf entry.2 = generation

section

variable {snapshots : Generations Nat String}

theorem snapshotsOf_withSnapshots (other : String) :
    (store.withSnapshots persistentId snapshots).snapshotsOf other =
      if other = persistentId then snapshots else store.snapshotsOf other := by
  simp only [Store.snapshotsOf, Store.withSnapshots, Store.withDirectory]
  split <;> rfl

theorem indexOf_withSnapshots (other : String) :
    (store.withSnapshots persistentId snapshots).indexOf other = store.indexOf other := by
  simp only [Store.indexOf, Store.withSnapshots, Store.withDirectory]
  split
  next hsame => rw [hsame]
  next => rfl

theorem Store.Sound.withSnapshots (h : store.Sound)
    (hnamed : ∀ generation, store.Names persistentId generation →
      (store.snapshotsOf persistentId).loadable generation = true →
        snapshots.loadable generation = true) :
    (store.withSnapshots persistentId snapshots).Sound := by
  refine ⟨h.distinct, h.known, h.named, ?_, h.older, ?_, ?_, h.sessions⟩
  · intro entry hentry
    rw [snapshotsOf_withSnapshots]
    split
    next hsame =>
      apply hnamed _ (.inr ⟨entry, hentry, hsame, rfl⟩)
      rw [← hsame]
      exact h.entries entry hentry
    next => exact h.entries entry hentry
  · intro other generation hindex
    rw [indexOf_withSnapshots] at hindex
    obtain ⟨hloadable, hlatest⟩ := h.indexes other generation hindex
    refine ⟨?_, hlatest⟩
    rw [snapshotsOf_withSnapshots]
    split
    next hsame => exact hnamed _ (.inl (hsame ▸ hindex)) (hsame ▸ hloadable)
    next => exact hloadable
  · intro other hnonzero hevicted
    rw [indexOf_withSnapshots]
    exact h.kept other hnonzero hevicted

theorem Phase.Sound.withSnapshots (h : phase.Sound store)
    (hblobs : ∀ name, phase.savesInto persistentId = true →
      (store.snapshotsOf persistentId).blob name = true → snapshots.blob name = true)
    (hsaved : ∀ generation, phase.hasSaved persistentId generation = true →
      (store.snapshotsOf persistentId).loadable generation = true →
        snapshots.loadable generation = true)
    (hmanifest : ∀ generation named, generation ≤ store.latest persistentId →
      snapshots.manifest generation = some named →
        (store.snapshotsOf persistentId).manifest generation = some named) :
    phase.Sound (store.withSnapshots persistentId snapshots) := by
  refine ⟨h.relies.transfer (fun _ _ => rfl) ?_ ?_ ?_ (fun _ => le_rfl) fun _ hentry => hentry,
    h.known⟩
  · intro other name hsaves hblob
    rw [snapshotsOf_withSnapshots]
    split
    next hsame => exact hblobs name (hsame ▸ hsaves) (hsame ▸ hblob)
    next => exact hblob
  · intro other generation hsaves hloadable
    rw [snapshotsOf_withSnapshots]
    split
    next hsame => exact hsaved generation (hsame ▸ hsaves) (hsame ▸ hloadable)
    next => exact hloadable
  · intro other generation named hle hnamed
    rw [snapshotsOf_withSnapshots] at hnamed
    split at hnamed
    next hsame =>
      rw [hsame]
      exact hmanifest generation named (hsame ▸ hle) hnamed
    next => exact hnamed

end

end QuantumLlm.Server.Durable
