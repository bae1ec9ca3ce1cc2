import QuantumLlm.Server.Durable.Turns

/-!
# Every turn of a request

Each undisturbed turn, taken from the cases of `Phase.step`.
-/

namespace QuantumLlm.Server.Durable

open List

variable {store store' : Store} {phase phase' : Phase} {others : List Phase} {choice : Choice}

theorem Phase.step_turned (hstore : store.Sound) (hphase : phase.Sound store)
    (hothers : ∀ other ∈ others, other.Sound store)
    (hdistinct : ∀ other ∈ others, ∀ copy ∈ phase.stored, copy ∉ other.stored)
    (hundisturbed : phase.undisturbed store others choice = true)
    (h : Phase.step store phase choice = some (store', phase')) :
    Turned store store' phase phase' others := by
  have hrelies := hphase.relies
  have hknown := hphase.known
  simp only [Phase.step] at h
  split at h
  next =>
    cases h
    exact Turned.of_store hstore hothers ⟨trivial, by simp [Phase.copies]⟩ nil_subperm
  next copy =>
    split at h
    next hmem =>
      cases h
      have hcopies : ∀ other ∈ store.sessions.erase copy, other < store.nextCopy :=
        fun other hother => hstore.sessions other (mem_of_mem_erase hother)
      exact
        { newer := Store.Newer.of_fewer (fun _ => le_rfl) (fun _ hentry => hentry)
            (fun _ _ => rfl) hstore
          stored := ⟨[], .inl rfl, nil_subperm⟩
          counted := le_rfl
          others := fun other hother => ⟨(hothers other hother).relies.of_snapshots
            (fun _ _ => rfl) (fun _ => rfl) (fun _ => le_rfl) fun _ hentry => hentry,
            (hothers other hother).known⟩
          phase := ⟨trivial, by simpa [Phase.copies] using hstore.sessions copy hmem⟩
          store := hstore.of_sessions hcopies }
    next => cases h
  next persistentId =>
    split at h
    next => cases h
    next entry hfind =>
      cases h
      exact
        { newer := Store.Newer.of_fewer (fun _ => le_rfl)
            (fun _ hentry => filter_sublist.subset hentry) (fun _ _ => rfl) hstore
          stored := ⟨[], .inl rfl, nil_subperm⟩
          counted := le_rfl
          others := fun other hother => ⟨(hothers other hother).relies.of_snapshots
            (fun _ _ => rfl) (fun _ => rfl) (fun _ => le_rfl) fun _ hentry => hentry,
            (hothers other hother).known⟩
          phase := ⟨trivial, by
            simpa [Phase.copies, Store.removeEntry] using
              hstore.known entry (mem_of_find?_eq_some hfind)⟩
          store := hstore.of_fewer filter_sublist }
  next copy ok =>
    cases h
    split
    next =>
      exact Turned.of_store hstore hothers
        ⟨trivial, by simpa [Phase.copies] using hknown⟩ nil_subperm
    next => exact Turned.of_store hstore hothers ⟨trivial, hknown⟩ nil_subperm
  next copy =>
    cases h
    exact returned_turned hstore hothers ⟨trivial, by simp [Phase.copies]⟩ rfl
      (hknown copy (mem_singleton_self _)) hundisturbed
  next context source =>
    cases h
    exact Turned.of_store hstore hothers
      ⟨trivial, fun copy hcopy => hknown copy (mem_append_left _ (by
        simpa [Phase.copies] using hcopy))⟩ nil_subperm
  next context source duplicates =>
    cases h
    exact
      { newer := Store.Newer.storeSession hstore source duplicates
        stored := ⟨[], .inl rfl, nil_subperm⟩
        counted := Nat.le_succ _
        others := fun other hother => (hothers other hother).storeSession source duplicates
        phase := ⟨trivial, by simp [Phase.copies]⟩
        store := hstore.storeSession source duplicates }
  next context source duplicates =>
    cases h
    exact retained_turned hstore hothers hphase
  next context source =>
    cases h
    exact Turned.of_store hstore hothers
      ⟨trivial, fun copy hcopy => hknown copy (mem_append_left _ hcopy)⟩ nil_subperm
  next stored source uuid now live =>
    cases h
    refine Turned.of_store hstore hothers ⟨⟨?_, by simp⟩, ?_⟩ (List.Subperm.refl _)
    · intro other hother
      obtain ⟨copy, rfl, hcopy⟩ := hrelies other hother
      simp [hcopy]
    · exact fun copy hcopy => hknown copy (by
        rw [mem_singleton.1 hcopy]
        exact mem_cons_self)
  next stored persistentId generation live written name =>
    cases h
    have hwritten := @Phase.Sound.writeBlob _ _ persistentId name hphase
    refine Turned.of_snapshots hstore (fun other hother => (hothers other hother).writeBlob)
      ⟨⟨hwritten.relies.1, ?_⟩, hknown⟩ hstore.writeBlob (List.Subperm.refl _)
    intro blob hblob
    rcases mem_append.1 hblob with hold | hnew
    · exact hwritten.relies.2 blob hold
    · rw [mem_singleton.1 hnew, snapshotsOf_withSnapshots, if_pos rfl]
      exact Generations.blob_writeBlob_self
  next stored persistentId generation live written =>
    split at h
    next hall =>
      cases h
      simp only [Phase.undisturbed, Bool.and_eq_true, decide_eq_true_eq, all_eq_true,
        Bool.not_eq_true'] at hundisturbed
      obtain ⟨hnew, hfree⟩ := hundisturbed
      refine Turned.of_snapshots hstore
        (fun other hother => (hothers other hother).writeManifest hnew (hfree other hother))
        ⟨⟨hrelies.1, ?_⟩, hknown⟩ (hstore.writeManifest hnew) (List.Subperm.refl _)
      rw [snapshotsOf_withSnapshots, if_pos rfl]
      exact Generations.loadable_writeManifest fun name hname => hrelies.2 name (hall hname)
    next => cases h
  next stored persistentId generation =>
    cases h
    have hnew : store.latest persistentId < generation := of_decide_eq_true hundisturbed
    exact
      { newer := Store.Newer.of_fewer latest_le_commit (fun _ hentry => hentry) (fun _ _ => rfl)
          hstore
        stored := ⟨[], .inl rfl, List.Subperm.refl _⟩
        counted := le_rfl
        others := fun other hother => (hothers other hother).commit
        phase := ⟨⟨hrelies.1, by simp [Store.commit]⟩, hknown⟩
        store := hstore.commit hnew hrelies.2 }
  next stored source =>
    cases h
    exact Turned.of_store hstore hothers ⟨trivial, by simp [Phase.copies]⟩ nil_subperm
  next =>
    cases h
    exact Turned.of_store hstore hothers ⟨trivial, by simp [Phase.copies]⟩ nil_subperm
  next =>
    cases h
    exact Turned.of_store hstore hothers ⟨trivial, by simp [Phase.copies]⟩ nil_subperm
  next stored persistentId generation =>
    split at h
    next =>
      cases h
      exact Turned.of_store hstore hothers ⟨hrelies.1, hknown⟩ (List.Subperm.refl _)
    next live hlive =>
      cases h
      refine Turned.of_store hstore hothers ⟨⟨hrelies.1, hrelies.2, ?_⟩, hknown⟩
        (List.Subperm.refl _)
      intro named hnamed
      rw [Store.snapshotsOf, hlive] at hnamed
      exact (Option.some.inj hnamed).symm
  next stored persistentId generation =>
    cases h
    exact Turned.of_store hstore hothers ⟨hrelies.1, hknown⟩ (List.Subperm.refl _)
  next stored persistentId generation live removed =>
    split at h
    next hne =>
      cases h
      obtain ⟨honly, hfree, -⟩ := prune_frees hundisturbed hphase
      exact removed_turned hstore hothers hphase hfree rfl
        (fun other hother => hother.removeManifest)
        (hstore.removeManifest fun hnames => hne (honly _ hnames))
    next => cases h
  next stored persistentId generation live name =>
    split at h
    next hunused =>
      cases h
      obtain ⟨-, hfree, hlive⟩ := prune_frees hundisturbed hphase
      exact removed_turned hstore hothers hphase hfree rfl
        (fun other hother => hother.removeBlob)
        (hstore.removeBlob fun other named hnames hnamed => hlive other named hnames hnamed ▸ hunused)
    next => cases h
  next stored persistentId generation live =>
    cases h
    exact Turned.of_store hstore hothers ⟨hrelies.1, hknown⟩ (List.Subperm.refl _)
  next stored persistentId generation =>
    cases h
    have hindex : (∀ entry ∈ store.diskSessions, entry.2 ≠ stored) ∨
        store.indexOf persistentId = some generation := by
      simpa [Phase.undisturbed, Store.indexOf] using hundisturbed
    exact
      { newer := Store.Newer.assign hstore hrelies hindex
        stored := ⟨[], .inl rfl, nil_subperm⟩
        counted := le_rfl
        others := fun other hother => (hothers other hother).assign hrelies
          (hdistinct other hother stored (mem_singleton_self _))
        phase := ⟨trivial, by simp [Phase.copies]⟩
        store := hstore.assign hrelies hindex }
  next persistentId generation =>
    cases h
    have hindex : store.indexOf persistentId = some generation := of_decide_eq_true hundisturbed
    exact
      { newer := Store.Newer.publish hstore hindex
        stored := ⟨[], .inl rfl, nil_subperm⟩
        counted := Nat.le_succ _
        others := fun other hother => (hothers other hother).publish
        phase := ⟨trivial, by simp [Phase.copies]⟩
        store := hstore.publish hindex }
  next removed =>
    cases h
    exact
      { newer := Store.Newer.of_fewer (fun _ => le_rfl)
          (fun _ hentry => filter_sublist.subset hentry) (fun _ _ => rfl) hstore
        stored := ⟨[], .inl rfl, nil_subperm⟩
        counted := le_rfl
        others := fun other hother => (hothers other hother).cleanup removed
        phase := ⟨fun _ hentry => mem_append_right _ hentry, by simp [Phase.copies]⟩
        store := hstore.cleanup removed }
  next persistentId generation rest =>
    cases h
    exact
      { newer := Store.Newer.of_fewer (fun _ => le_rfl) (fun _ hentry => hentry)
          (fun _ _ => rfl) hstore
        stored := ⟨[], .inl rfl, List.Subperm.refl _⟩
        counted := le_rfl
        others := fun other hother => (hothers other hother).removeIndex
        phase := hphase.removeIndex
        store := hstore.removeIndex (hrelies _ mem_cons_self)
          (of_decide_eq_true hundisturbed) }
  next persistentId generation rest removed =>
    cases h
    obtain ⟨hunnamed, hfree⟩ := removal_frees hundisturbed
    exact removed_turned hstore hothers hphase hfree rfl
      (fun other hother => hother.removeManifest) (hstore.removeManifest (hunnamed _))
  next persistentId generation rest name =>
    cases h
    obtain ⟨hunnamed, hfree⟩ := removal_frees hundisturbed
    exact removed_turned hstore hothers hphase hfree rfl
      (fun other hother => hother.removeBlob)
      (hstore.removeBlob fun other _ hnames => absurd hnames (hunnamed other))
  next entry rest =>
    cases h
    exact Turned.of_store hstore hothers
      ⟨fun other hother => hrelies other (mem_cons_of_mem _ hother), by simp [Phase.copies]⟩
      nil_subperm
  next =>
    cases h
    exact Turned.of_store hstore hothers ⟨trivial, by simp [Phase.copies]⟩ nil_subperm
  next =>
    cases h
    exact Turned.of_store hstore hothers ⟨trivial, by simp [Phase.copies]⟩ nil_subperm
  next copy =>
    cases h
    exact returned_turned hstore hothers ⟨trivial, by simp [Phase.copies]⟩ rfl
      (hknown copy (by simp [Phase.copies])) hundisturbed
  next => cases h

end QuantumLlm.Server.Durable
