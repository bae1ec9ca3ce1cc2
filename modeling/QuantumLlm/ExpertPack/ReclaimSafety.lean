import QuantumLlm.ExpertPack.Reclaimed

/-!
# Nothing is lost that is needed

The pass over the shards, the packs with a pass behind each, and any number of
crashed runs: a shard that is gone has its tensors committed and is in the reclaim
journal. The next run succeeds exactly when no shard is gone.
-/

namespace QuantumLlm.ExpertPack

open Compilation List

variable {Tensor Expert Fields Rest : Type}
  {compilation : Compilation Tensor Expert Fields Rest} {written : Directory Fields Rest}
  {state : State Fields} {dense : DenseRecords Fields} {packs : List (ExpertRecords Fields)}
  {remaining : List Expert}

variable {written' : Directory Fields Rest}

theorem Resumable.congr (h : Resumable compilation written state)
    (hget : ∀ path, written'.get path = written.get path) :
    Resumable compilation written' state := by
  refine h.of_same (fun path _ => hget path) ?_
  intro name temporary hsome
  rw [hget] at hsome
  exact h.metadata name temporary hsome

section

variable (h : Committed compilation written state dense packs remaining)

include h

theorem Committed.congr (hget : ∀ path, written'.get path = written.get path) :
    Committed compilation written' state dense packs remaining where
  resumable := h.resumable.congr hget
  clean :=
    { temporaries := fun path hpath => (hget path).trans (h.clean.temporaries path hpath)
      packs := fun path hpath => (hget path).trans (h.clean.packs path hpath)
      manifest := (hget _).trans h.clean.manifest
      report := (hget _).trans h.clean.report }
  denseWritten := h.denseWritten
  denseEntries := h.denseEntries
  denseBytes := (hget _).trans h.denseBytes
  packed := h.packed
  entries := h.entries
  packBytes := fun number pack hpack => (hget _).trans (h.packBytes number pack hpack)

theorem Committed.get_rewritten
    (path : Path) : (replaced written .state (.state state)).get path = written.get path := by
  rw [get_replaced]
  split
  next hstate => rw [hstate, h.resumable.journal]
  next =>
    split
    next htemporary => rw [htemporary, h.clean.temporaries _ rfl]
    next => rfl

end

namespace Reclaim

variable {sharding : Sharding compilation} {store : Store Fields Rest} {shard : String}

def unlinked (store : Store Fields Rest) (shard : String) : Store Fields Rest :=
  { store with shards := store.shards.filter (· ≠ shard) }

theorem not_mem_unlinked {other : String} :
    other ∉ (unlinked store shard).shards ↔ other ∉ store.shards ∨ other = shard := by
  simp only [unlinked, mem_filter, decide_eq_true_eq, not_and, not_not]
  tauto

variable {holds : Store Fields Rest → Prop} {fails : Failure → Store Fields Rest → Prop}
  {written' : Directory Fields Rest} {shards : List String} {pack : ExpertRecords Fields}

theorem safe_unlinkShard (hbefore : holds store) (hafter : holds (unlinked store shard)) :
    Durable.Safe holds fails (fun _ store' => store' = unlinked store shard)
      (sharding.unlinkShard shard) store := by
  rw [Sharding.unlinkShard]
  split
  next => exact ⟨hbefore, hafter, hafter, rfl⟩
  next => exact ⟨hbefore, hafter, rfl⟩

theorem Spent.unlink (h : Spent sharding remaining store)
    (hconsumed : Consumed sharding remaining shard) (hjournaled : shard ∈ paths store.journal) :
    Spent sharding remaining (unlinked store shard) where
  consumed := by
    intro other hother hgone
    rcases not_mem_unlinked.1 hgone with hbefore | rfl
    · exact h.consumed other hother hbefore
    · exact hconsumed
  journaled := by
    intro other hother hgone
    rcases not_mem_unlinked.1 hgone with hbefore | rfl
    · exact h.journaled other hother hbefore
    · exact hjournaled
  named := h.named

/-- What a crash leaves while a shard goes, when the journal of the conversion is as it was. -/
theorem Settled.held_of_spent {store' : Store Fields Rest}
    (h : Settled sharding state dense packs remaining written store)
    (hspent : Spent sharding remaining store') (hresumable : Resumable compilation written' state)
    (hdisk : store'.disk = ⟨some written', none⟩) : Held sharding store' := by
  refine hspent.held (fun name => h.listed) ?_ ?_
  · rw [hdisk]
    exact .journaled hresumable
  · rw [hdisk]
    intro other state' hother hsome
    obtain rfl : written' = other := Option.some.inj hother
    rw [hresumable.journal] at hsome
    cases hsome
    exact h.behind

theorem safe_commitReclaimed {entry : ReclaimEntry}
    (hdisk : store.disk = ⟨some written, none⟩) (hbefore : holds store)
    (htorn : holds { store with disk := ⟨some (written.put ⟨.state, true⟩ .torn), none⟩ })
    (hput : holds { store with
      disk := ⟨some ((written.put ⟨.state, true⟩ .torn).put ⟨.state, true⟩ (.state state)), none⟩ })
    (hafter : holds { store with
      disk := ⟨some (replaced written .state (.state state)), none⟩
      reclaimed := store.reclaimed ++ [entry] }) :
    Durable.Safe holds fails
      (fun _ store' => store' = { store with
        disk := ⟨some (replaced written .state (.state state)), none⟩
        reclaimed := store.reclaimed ++ [entry] })
      (Sharding.commitReclaimed state entry) store := by
  obtain ⟨disk, shards, journal, reclaimed⟩ := store
  obtain rfl : disk = ⟨some written, none⟩ := hdisk
  exact ⟨hbefore, htorn, hput, hafter, hafter, rfl⟩

theorem safe_reclaimShard (h : Settled sharding state dense packs remaining written store)
    (hshard : shard ∈ sharding.shards) (hconsumed : Consumed sharding remaining shard) :
    Durable.Safe (Held sharding) (Barren sharding)
      (fun _ store' => ∃ written', Settled sharding state dense packs remaining written' store')
      (sharding.reclaimShard state shard) store := by
  change Durable.Safe _ _ _ (if shard ∉ store.shards then _ else _) store
  by_cases hgone : shard ∉ store.shards
  · rw [if_pos hgone, if_pos (h.reclaimed shard hshard hgone)]
    exact ⟨h.held, written, h⟩
  rw [if_neg hgone]
  by_cases hforeign : sharding.kind shard = .foreign
  · rw [if_pos hforeign]
    exact ⟨h.held, by rw [h.disk], .inr (.inl ⟨shard, hshard, hforeign⟩)⟩
  rw [if_neg hforeign]
  by_cases hnamed : shard ∈ paths store.reclaimed
  · -- The user has brought the shard back: it is in both lists already.
    rw [if_pos hnamed]
    have hspent := h.spent.unlink hconsumed (h.spent.named hnamed)
    have hafter : Settled sharding state dense packs remaining written (unlinked store shard) := by
      refine ⟨h.disk, h.committed, h.left, hspent, ?_⟩
      intro other hother hmissing
      rcases not_mem_unlinked.1 hmissing with hbefore | rfl
      · exact h.reclaimed other hother hbefore
      · exact hnamed
    refine (safe_unlinkShard h.held hafter.held).mono (fun _ _ => id) ?_
    rintro - store' rfl
    exact ⟨written, hafter⟩
  rw [if_neg hnamed]
  let entry : ReclaimEntry :=
    { path := shard, info := sharding.inventory shard, expertsCommitted := state.experts.length }
  let journaled : Store Fields Rest := { store with journal := store.reclaimed ++ [entry] }
  have hjournal : Settled sharding state dense packs remaining written journaled := by
    refine ⟨h.disk, h.committed, h.left, ⟨h.spent.consumed, ?_, ?_⟩, h.reclaimed⟩
    · intro other hother hmissing
      rw [paths, map_append, mem_append]
      exact .inl (h.reclaimed other hother hmissing)
    · intro other hother
      rw [paths, map_append, mem_append]
      exact .inl hother
  have hentry : shard ∈ paths journaled.journal := by
    rw [paths, map_append, mem_append]
    exact .inr mem_cons_self
  have hspent := hjournal.spent.unlink hconsumed hentry
  have hresumable := h.committed.resumable
  obtain ⟨htorn, hput⟩ := hresumable.temporaries .state (by simp) (.state state)
  have hrewritten := h.committed.get_rewritten
  have hafter : Settled sharding state dense packs remaining
      (replaced written .state (.state state))
      { unlinked journaled shard with
        disk := ⟨some (replaced written .state (.state state)), none⟩
        reclaimed := store.reclaimed ++ [entry] } := by
    refine ⟨rfl, h.committed.congr hrewritten, h.left,
      ⟨hspent.consumed, hspent.journaled, fun _ => id⟩, ?_⟩
    intro other hother hmissing
    rw [paths, map_append, mem_append]
    rcases not_mem_unlinked.1 hmissing with hbefore | rfl
    · exact .inl (h.reclaimed other hother hbefore)
    · exact .inr mem_cons_self
  have hunlinked : Held sharding (unlinked journaled shard) :=
    hjournal.held_of_spent hspent hresumable h.disk
  refine ⟨h.held, hjournal.held, ?_⟩
  apply Durable.Safe.bind (safe_unlinkShard hjournal.held hunlinked)
  rintro value store' rfl
  have hcommit : Durable.Safe (Held sharding) (Barren sharding)
      (fun _ store' => store' = { unlinked journaled shard with
        disk := ⟨some (replaced written .state (.state state)), none⟩
        reclaimed := store.reclaimed ++ [entry] })
      (Sharding.commitReclaimed state entry) (unlinked journaled shard) := by
    refine safe_commitReclaimed h.disk hunlinked ?_ ?_ hafter.held
    · exact hjournal.held_of_spent ⟨hspent.consumed, hspent.journaled, hspent.named⟩ htorn rfl
    · exact hjournal.held_of_spent ⟨hspent.consumed, hspent.journaled, hspent.named⟩ hput rfl
  refine hcommit.mono (fun _ _ => id) ?_
  rintro - store' rfl
  exact ⟨_, hafter⟩

theorem safe_reclaimShards {future : List String} :
    ∀ {written : Directory Fields Rest} {store : Store Fields Rest},
      Settled sharding state dense packs remaining written store →
      (∀ shard ∈ shards, shard ∈ sharding.shards ∧
        (shard ∉ future → Consumed sharding remaining shard)) →
      Durable.Safe (Held sharding) (Barren sharding)
        (fun _ store' => ∃ written', Settled sharding state dense packs remaining written' store')
        (sharding.reclaimShards state future shards) store := by
  induction shards with
  | nil => exact fun h _ => ⟨h.held, _, h⟩
  | cons shard rest ih =>
    intro written store h hshards
    obtain ⟨hshard, hconsumed⟩ := hshards shard mem_cons_self
    have hrest := fun other hother => hshards other (mem_cons_of_mem _ hother)
    rw [Sharding.reclaimShards]
    split
    next => exact ih h hrest
    next hfree =>
      apply Durable.Safe.bind (safe_reclaimShard h hshard (hconsumed hfree))
      rintro value store' ⟨written', hsettled⟩
      exact ih hsettled hrest

namespace Sharding

/-- The shards of the weights of an expert. -/
def weightShards (sharding : Sharding compilation) (expert : Expert) : List String :=
  ((sharding.expertTensors expert).gate.toList ++
    [(sharding.expertTensors expert).up, (sharding.expertTensors expert).down]).map sharding.shardOf

/-- Behind each pack: what is still to be read shares its shard with a weight that is still to be
read. -/
def Covered (sharding : Sharding compilation) : Prop :=
  ∀ number remaining, Left compilation number remaining → ∀ expert ∈ remaining,
    ∀ name ∈ sharding.reads expert, ∃ other ∈ remaining,
      sharding.shardOf name ∈ sharding.weightShards other

def Gated (sharding : Sharding compilation) : Prop :=
  ∀ expert ∈ compilation.experts, (sharding.expertTensors expert).gate ≠ none

theorem futureShards_eq {future : List String}
    (h : sharding.futureShards remaining = .ok future) :
    future = remaining.flatMap sharding.weightShards := by
  induction remaining generalizing future with
  | nil =>
    cases h
    rfl
  | cons expert rest ih =>
    rw [futureShards] at h
    split at h
    next => cases h
    next gate hgate =>
      obtain ⟨later, hlater, hfuture⟩ := bind_eq_ok h
      cases hfuture
      rw [flatMap_cons, ← ih hlater, weightShards, hgate]
      rfl

theorem futureShards_error {failure : Failure}
    (h : sharding.futureShards remaining = .error failure) :
    ∃ expert ∈ remaining, (sharding.expertTensors expert).gate = none := by
  induction remaining with
  | nil => cases h
  | cons expert rest ih =>
    rw [futureShards] at h
    split at h
    next hgate => exact ⟨expert, mem_cons_self, hgate⟩
    next =>
      cases hlater : sharding.futureShards rest with
      | ok later =>
        rw [hlater] at h
        cases h
      | error other =>
        obtain ⟨found, hfound, hgate⟩ := ih (by
          rw [hlater] at h ⊢
          exact h)
        exact ⟨found, mem_cons_of_mem _ hfound, hgate⟩

theorem Covered.consumed (h : sharding.Covered) {number : Nat}
    (hleft : Left compilation number remaining)
    (hfree : shard ∉ remaining.flatMap sharding.weightShards) :
    Consumed sharding remaining shard := by
  intro name _ hof expert hexpert hreads
  obtain ⟨other, hother, hshard⟩ := h number remaining hleft expert hexpert name hreads
  exact hfree (mem_flatMap.2 ⟨other, hother, hof ▸ hshard⟩)

end Sharding

theorem Settled.remaining_subset
    (h : Settled sharding state dense packs remaining written store) :
    ∀ expert ∈ remaining, expert ∈ compilation.experts := by
  obtain ⟨first, hsplit, -⟩ := h.committed.packed.split
  intro expert hexpert
  rw [hsplit]
  exact mem_append_right _ hexpert

theorem safe_reclaimConsumed (hcovered : sharding.Covered)
    (h : Settled sharding state dense packs remaining written store) :
    Durable.Safe (Held sharding) (Barren sharding)
      (fun _ store' => ∃ written', Settled sharding state dense packs remaining written' store')
      (sharding.reclaimConsumed state remaining) store := by
  refine Durable.Safe.bind_ofExcept h.held ?_ ?_
  · intro future hfuture
    rw [Sharding.futureShards_eq hfuture]
    exact safe_reclaimShards h fun shard hshard => ⟨hshard, hcovered.consumed h.left⟩
  · intro failure hfailure
    obtain ⟨expert, hexpert, hgate⟩ := Sharding.futureShards_error hfailure
    exact ⟨by rw [h.disk], .inr (.inr ⟨expert, h.remaining_subset expert hexpert, hgate⟩)⟩

theorem Settled.present (h : Settled sharding state dense packs remaining written store) :
    ∀ expert ∈ remaining, sharding.present store.shards (sharding.reads expert) = true := by
  intro expert hexpert
  simp only [Sharding.present, all_eq_true, decide_eq_true_eq]
  intro name hreads
  have hname := sharding.expert_mem expert (h.remaining_subset expert hexpert) name hreads
  by_contra hgone
  exact h.spent.consumed _ (sharding.shardOf_mem name hname) hgone name hname rfl expert hexpert
    hreads

theorem fillExpertPack_reading
    (hpresent : ∀ expert ∈ remaining, sharding.present shards (sharding.reads expert) = true)
    {number : Nat} :
    (sharding.reading shards).fillExpertPack number pack remaining =
      compilation.fillExpertPack number pack remaining := by
  induction remaining generalizing pack with
  | nil => rfl
  | cons expert rest ih =>
    have hrecord : (sharding.reading shards).expertRecord number pack.bytes.length expert =
        compilation.expertRecord number pack.bytes.length expert :=
      if_pos (hpresent expert mem_cons_self)
    rw [fillExpertPack, fillExpertPack, hrecord]
    have hrest := fun other hother => hpresent other (mem_cons_of_mem expert hother)
    simp only [ih hrest]
    rfl

theorem Settled.writeExpertPack_reading
    (h : Settled sharding state dense packs remaining written store) (number : Nat) :
    (sharding.reading store.shards).writeExpertPack number remaining =
      compilation.writeExpertPack number remaining := by
  rw [writeExpertPack, writeExpertPack, fillExpertPack_reading h.present]

theorem reading_all (h : ∀ shard ∈ sharding.shards, shard ∈ store.shards)
    (state : State Fields) :
    (sharding.reading store.shards).commitDense state =
      (compilation.commitDense state : ExpertPack.Program Fields Rest _) := by
  have hrecords : ∀ (rest : List Tensor) (pack : DenseRecords Fields),
      (∀ tensor ∈ rest, tensor ∈ compilation.dense) →
      (sharding.reading store.shards).writeDenseRecords pack rest =
        compilation.writeDenseRecords pack rest := by
    intro rest
    induction rest with
    | nil => exact fun _ _ => rfl
    | cons tensor rest ih =>
      intro pack hrest
      have hpresent : sharding.present store.shards (sharding.denseTensors tensor) = true := by
        simp only [Sharding.present, all_eq_true, decide_eq_true_eq]
        intro name hreads
        exact h _ (sharding.shardOf_mem name
          (sharding.dense_mem tensor (hrest tensor mem_cons_self) name hreads))
      have hwrite : (sharding.reading store.shards).writeDenseRecord pack tensor =
          compilation.writeDenseRecord pack tensor := by
        simp only [writeDenseRecord, Sharding.reading, if_pos hpresent]
        rfl
      rw [writeDenseRecords, writeDenseRecords, hwrite]
      have hlater := fun other hother => hrest other (mem_cons_of_mem tensor hother)
      simp only [ih _ hlater]
  have hpack : (sharding.reading store.shards).writeDensePack =
      (compilation.writeDensePack : ExpertPack.Program Fields Rest _) := by
    have hall := hrecords compilation.dense {} fun _ => id
    rw [writeDensePack, writeDensePack]
    change (update fun files => files.put ⟨.dense, true⟩ .torn) >>= (fun _ =>
      Durable.ofExcept ((sharding.reading store.shards).writeDenseRecords {} compilation.dense) >>=
        _) = _
    rw [hall]
  rw [commitDense, commitDense, hpack]
  rfl

theorem Settled.next {expert : Expert} {rest : List Expert}
    (h : Settled sharding state dense packs (expert :: remaining) written store)
    (hfill : compilation.fillExpertPack packs.length {} (expert :: remaining) = .ok (pack, rest))
    (hcommitted : Committed compilation written'
      { state with experts := state.experts ++ pack.entries } dense (packs ++ [pack]) rest) :
    Settled sharding { state with experts := state.experts ++ pack.entries } dense
      (packs ++ [pack]) rest written' { store with disk := ⟨some written', none⟩ } := by
  obtain ⟨added, hadded, -⟩ := fillExpertPack_spec hfill
  refine ⟨rfl, hcommitted, ?_, ⟨?_, h.spent.journaled, h.spent.named⟩, h.reclaimed⟩
  · rw [length_append, length_singleton]
    exact .pack h.left hfill
  · intro shard hshard hgone name hname hof other hother
    apply h.spent.consumed shard hshard hgone name hname hof
    rw [hadded]
    exact mem_append_right _ hother

theorem safe_writeExpertPacks (hcovered : sharding.Covered) {fuel : Nat} :
    ∀ {written : Directory Fields Rest} {state : State Fields}
      {packs : List (ExpertRecords Fields)} {remaining : List Expert} {store : Store Fields Rest},
      Settled sharding state dense packs remaining written store → remaining.length ≤ fuel →
      Durable.Safe (Held sharding) (Barren sharding)
        (fun state' store' => ∃ written' packs',
          Settled sharding state' dense packs' [] written' store')
        (sharding.writeExpertPacks state packs.length fuel remaining) store := by
  induction fuel with
  | zero =>
    intro written state packs remaining store h hfuel
    obtain rfl : remaining = [] := length_eq_zero_iff.1 (Nat.le_zero.1 hfuel)
    exact ⟨h.held, written, packs, h⟩
  | succ fuel ih =>
    intro written state packs remaining store h hfuel
    cases remaining with
    | nil => exact ⟨h.held, written, packs, h⟩
    | cons expert remaining =>
      change Durable.Safe _ _ _
        (onDisk ((sharding.reading store.shards).writeExpertPack packs.length
          (expert :: remaining)) >>= _) store
      rw [h.writeExpertPack_reading]
      have hwrite := safe_writeExpertPack h.committed
      have hkeep := h.stateIs
      rw [← h.disk] at hwrite hkeep
      apply Durable.Safe.bind
        (h.spent.safe_onDisk (fun name => h.listed) hwrite (keeps_writeExpertPack.safe hkeep))
      rintro ⟨pack, rest⟩ store' ⟨disk, rfl, ⟨hfill, rfl⟩, hkept⟩
      have hspent : Spent sharding (expert :: remaining) { store with
          disk := ⟨some (replaced written (.experts packs.length) (.bytes pack.bytes)),
            none⟩ } :=
        ⟨h.spent.consumed, h.spent.journaled, h.spent.named⟩
      have hbehind : Behind compilation state
          { state with experts := state.experts ++ pack.entries } :=
        ⟨(h.next hfill (h.committed.commit hfill)).paced, rfl, prefix_append _ _⟩
      apply Durable.Safe.bind
        (hspent.safe_onDisk (fun name => h.listed) (h.committed.safe_commit hfill)
          (safe_stateIs_replaceState hkept hbehind))
      rintro value store' ⟨disk, rfl, ⟨written', rfl, hcommitted⟩, -⟩
      apply Durable.Safe.bind (safe_reclaimConsumed hcovered (h.next hfill hcommitted))
      rintro value store' ⟨written'', hsettled⟩
      have hcount := fillExpertPack_length hfill
      have hnext := ih hsettled (hcount.trans (Nat.le_of_succ_le_succ hfuel))
      rw [length_append, length_singleton] at hnext
      exact hnext

theorem safe_resume (hcovered : sharding.Covered) (hwhole : Whole sharding store)
    (hnamed : paths store.reclaimed ⊆ paths store.journal)
    (hdisk : store.disk = ⟨some written, none⟩)
    (hresumable : Resumable compilation written state) (hclean : Clean written state)
    (hpaced : StateIs (Paced compilation) store.disk) :
    Durable.Safe (Held sharding) (Barren sharding)
      (fun _ store' => Published compilation store'.disk) (sharding.resume state) store := by
  change Durable.Safe _ _ _ (onDisk ((sharding.reading store.shards).commitDense state) >>= _) store
  rw [reading_all hwhole]
  have hcommit := (safe_commitDense hresumable hclean).weaken fun disk =>
    (Or.inr : Recoverable compilation disk → Owned compilation disk)
  have hstate : Paced compilation state :=
    hpaced written state (by rw [hdisk]) hresumable.journal
  rw [← hdisk] at hcommit
  apply Durable.Safe.bind (hwhole.safe_onDisk hnamed hcommit
    (safe_stateIs_commitDense hpaced fun _ _ => hstate))
  rintro ⟨state, counts⟩ store' ⟨disk, rfl, ⟨written, dense, packs, remaining, rfl, hcommitted,
    hcounts⟩, hkept⟩
  have hlength : (state.experts.map fun entry => entry.pack).dedup.length = packs.length := by
    rw [hcommitted.entries, hcommitted.packed.length_dedup]
  have hremaining : compilation.experts.drop state.experts.length = remaining := by
    rw [hcommitted.entries, hcommitted.packed.drop_eq]
  rw [hlength, hremaining]
  have hsettled : Settled sharding state dense packs remaining written
      { store with disk := ⟨some written, none⟩ } := by
    refine ⟨rfl, hcommitted, ?_, ⟨?_, ?_, hnamed⟩, ?_⟩
    · exact (paced_iff hcommitted).1 (hkept written state rfl hcommitted.resumable.journal)
    all_goals exact fun shard hshard hgone => absurd (hwhole shard hshard) hgone
  apply Durable.Safe.bind (safe_reclaimConsumed hcovered hsettled)
  rintro value store' ⟨written', hswept⟩
  have hcomponents : Durable.Safe (Recoverable compilation) (Fruitless compilation)
      (fun _ disk => compilation.components = .ok () ∧ disk = store'.disk)
      (Durable.ofExcept compilation.components) store'.disk := by
    rw [hswept.disk]
    refine Durable.Safe.ofExcept (.journaled hswept.committed.resumable) ?_ ?_
    · exact fun value hvalue => ⟨hvalue, rfl⟩
    · rintro error herror
      refine ⟨rfl, ?_⟩
      rintro ⟨plan, hplan⟩
      rw [hplan.components] at herror
      cases herror
  have hkeep := hswept.stateIs
  rw [← hswept.disk] at hkeep
  apply Durable.Safe.bind (hswept.spent.safe_onDisk (fun name => hswept.listed) hcomponents
    ((Durable.Keeps.ofExcept _).safe hkeep))
  rintro value store'' ⟨disk, rfl, ⟨hgiven, rfl⟩, -⟩
  apply Durable.Safe.bind (safe_writeExpertPacks hcovered hswept le_rfl)
  rintro state' store'' ⟨written'', packs', hdone⟩
  have hfinish := safe_finish hdone.committed hgiven hcounts
  have hlast := hdone.stateIs
  rw [← hdone.disk] at hfinish hlast
  refine (hdone.spent.safe_onDisk (fun name => hdone.listed) hfinish
    (keeps_finish.safe hlast)).mono (fun _ _ => id) ?_
  rintro - final ⟨disk, rfl, hpublished, -⟩
  exact hpublished

theorem safe_compile (hcovered : sharding.Covered) (h : Held sharding store)
    (houtput : store.disk.output = none) (hwhole : Whole sharding store)
    (hready : store.disk.unfinished = none ∨ Recoverable compilation store.disk) :
    Durable.Safe (Held sharding) (Barren sharding)
      (fun _ store' => Published compilation store'.disk) (sharding.compile true) store := by
  obtain ⟨⟨unfinished, output⟩, shards, journal, reclaimed⟩ := store
  obtain rfl : output = none := houtput
  have hopen : ¬ ¬ ∀ shard ∈ sharding.shards, shard ∈ shards := not_not.2 hwhole
  simp only [Sharding.compile, Durable.Safe, Option.isSome_none, Bool.false_eq_true, if_false,
    if_neg hopen]
  cases unfinished with
  | none =>
    let started : Store Fields Rest := { disk := ⟨some [], none⟩, shards }
    have hwhole' : Whole sharding started := hwhole
    have hempty : Unjournaled (⟨some [], none⟩ : Disk Fields Rest) := unjournaled_empty
    have hnone : StateIs (Paced compilation) (⟨some [], none⟩ : Disk Fields Rest) := by
      intro written state hwritten hsome
      cases hwritten
      cases hsome
    refine ⟨h, ?_⟩
    have htorn := @unjournaled_put _ _ _ .torn hempty
    have hput := @unjournaled_put _ _ _ (.state compilation.newState) htorn
    obtain ⟨hresumable, hclean⟩ := @resumable_newState _ _ _ _ compilation
    have hreplace : Durable.Safe (Owned compilation) (Fruitless compilation)
        (fun _ disk => disk = ⟨some (replaced [] .state (.state compilation.newState)), none⟩)
        (replaceFile .state (.state compilation.newState)) started.disk :=
      safe_replaceFile (.inl hempty) (.inl htorn) (.inl hput) (.inr (.journaled hresumable))
    apply Durable.Safe.bind (hwhole'.safe_onDisk (fun _ => id) hreplace
      (safe_stateIs_replaceState hnone (by exact Left.start)))
    rintro value store' ⟨disk, rfl, rfl, hpaced⟩
    have hjournaled := hwhole'.withDisk
      ⟨some (replaced [] .state (.state compilation.newState)), none⟩
    apply Durable.Safe.bind (hjournaled.safe_onDisk (fun _ => id)
      (safe_fsyncDirectory (.inr (.journaled hresumable))) (keeps_fsyncDirectory.safe hpaced))
    rintro value store' ⟨disk, rfl, rfl, -⟩
    exact safe_resume hcovered hjournaled (fun _ => id) rfl hresumable hclean hpaced
  | some written =>
    have hrecoverable := hready.resolve_left (by simp)
    simp only [not_true_eq_false, if_false]
    by_cases hmarked : (written.get (.final .manifest)).isSome ∧
        (written.get (.final .completed)).isSome
    · rw [if_pos hmarked]
      have hsafe := (safe_publishFinished (h.owned.complete hmarked.2)).weaken fun disk =>
        (Or.inr : Recoverable compilation disk → Owned compilation disk)
      refine (Whole.safe_onDisk hwhole h.named hsafe
        (keeps_publishFinished.safe h.paced)).mono (fun _ _ => id) ?_
      rintro - final ⟨disk, rfl, hpublished, -⟩
      exact hpublished
    rw [if_neg hmarked]
    cases hrecoverable with
    | complete hcomplete =>
      obtain ⟨plan, -, hstored⟩ := hcomplete
      refine absurd ?_ hmarked
      rw [hstored.get_eq (by simp), hstored.get_eq (by simp)]
      exact ⟨rfl, rfl⟩
    | @journaled written state hjournal =>
      rw [hjournal.journal]
      simp only
      rw [if_neg (not_not.2 hjournal.contract)]
      have hdiscard := (safe_unlinkAll hjournal hjournal.discards).weaken fun disk =>
        (Or.inr : Recoverable compilation disk → Owned compilation disk)
      apply Durable.Safe.bind (Whole.safe_onDisk hwhole h.named hdiscard
        (keeps_unlinkAll.safe h.paced))
      rintro value store' ⟨disk, rfl, ⟨kept, rfl, hresumable, hget⟩, hpaced⟩
      have hclean := clean_of_discarded hget
      have howned : Owned compilation (⟨some kept, none⟩ : Disk Fields Rest) :=
        .inr (.journaled hresumable)
      have hkept := hwhole.withDisk ⟨some kept, none⟩
      apply Durable.Safe.bind (hkept.safe_onDisk h.named (safe_files howned)
        (keeps_files.safe hpaced))
      rintro read store' ⟨disk, rfl, ⟨rfl, rfl⟩, -⟩
      have hvalid : Durable.Safe (Owned compilation) (Fruitless compilation)
          (fun _ disk => disk = ⟨some kept, none⟩)
          (Durable.ofExcept (compilation.validateResumePrefix kept state))
          ⟨some kept, none⟩ := by
        refine Durable.Safe.ofExcept howned (fun _ _ => rfl) ?_
        rintro error herror
        refine ⟨rfl, ?_⟩
        rintro ⟨plan, hplan⟩
        rw [validateResumePrefix_ok hresumable hplan] at herror
        cases herror
      apply Durable.Safe.bind (hkept.safe_onDisk h.named hvalid
        ((Durable.Keeps.ofExcept _).safe hpaced))
      rintro value store' ⟨disk, rfl, rfl, -⟩
      exact safe_resume hcovered hkept h.named rfl hresumable hclean hpaced

theorem refuses_output (houtput : store.disk.output.isSome) :
    (sharding.compile true).Refuses store := by
  simp [Durable.Refuses, Sharding.compile, Durable.run, Durable.crashed, houtput]

theorem refuses_missing (hgone : ¬ Whole sharding store) :
    (sharding.compile true).Refuses store := by
  rw [Whole] at hgone
  by_cases houtput : store.disk.output.isSome
  · exact refuses_output houtput
  · simp only [Durable.Refuses, Sharding.compile, Durable.run, Durable.crashed, if_neg houtput,
      if_pos hgone]
    exact ⟨⟨_, rfl⟩, trivial⟩

theorem refuses_unjournaled (hdisk : store.disk = ⟨some written, none⟩)
    (h : Unjournaled store.disk) : (sharding.compile true).Refuses store := by
  obtain ⟨disk, shards, journal, reclaimed⟩ := store
  obtain rfl : disk = ⟨some written, none⟩ := hdisk
  by_cases hwhole : Whole sharding ⟨⟨some written, none⟩, shards, journal, reclaimed⟩
  · have hopen : ¬ ∃ shard, shard ∈ sharding.shards ∧ shard ∉ shards := by
      rintro ⟨shard, hshard, hgone⟩
      exact hgone (hwhole shard hshard)
    simp [Durable.Refuses, Sharding.compile, Durable.run, Durable.crashed, hopen,
      h.journal written rfl, h.incomplete written rfl]
  · exact refuses_missing hwhole

theorem Sharding.LeftBehind.held (hcovered : sharding.Covered) (h : sharding.LeftBehind store) :
    Held sharding store := by
  refine h.invariant ?_ ?_
  · rintro - rfl
    refine Whole.held (fun _ => id) (fun _ => id)
      (.inl ⟨rfl, by rintro - ⟨⟩, by rintro - ⟨⟩⟩) ?_
    rintro - state ⟨⟩
  · intro store store' hheld hmem
    have hkeep : (sharding.compile true).Refuses store → Held sharding store' := by
      rintro ⟨-, hcrashed⟩
      rw [hcrashed, mem_singleton] at hmem
      rwa [hmem]
    cases houtput : store.disk.output with
    | some written => exact hkeep (refuses_output (by rw [houtput]; rfl))
    | none =>
      by_cases hwhole : Whole sharding store
      · cases hunfinished : store.disk.unfinished with
        | none => exact (safe_compile hcovered hheld houtput hwhole
            (.inl hunfinished)).of_mem_crashed hmem
        | some written =>
          rcases hheld.owned with hunjournaled | hrecoverable
          · have hdisk : store.disk = ⟨some written, none⟩ := by
              rw [← hunfinished, ← houtput]
            exact hkeep (refuses_unjournaled hdisk hunjournaled)
          · exact (safe_compile hcovered hheld houtput hwhole
              (.inr hrecoverable)).of_mem_crashed hmem
      · exact hkeep (refuses_missing hwhole)

/-- Journal or marker, so that a run goes on with the conversion. -/
def hasRecords (disk : Disk Fields Rest) : Bool :=
  disk.unfinished.any fun written =>
    (written.get (.final .state)).isSome || (written.get (.final .completed)).isSome

theorem recoverable_of_hasRecords {disk : Disk Fields Rest} (h : Owned compilation disk)
    (hrecords : hasRecords disk = true) : Recoverable compilation disk := by
  refine h.resolve_left fun hunjournaled => ?_
  obtain ⟨written, hwritten, hsome⟩ := (Option.any_eq_true _ _).1 hrecords
  rw [hunjournaled.journal written hwritten, hunjournaled.incomplete written hwritten] at hsome
  cases hsome

/-- Two disks with the same container. -/
def SameContainer (disk disk' : Disk Fields Rest) : Prop :=
  ∃ written written' : Directory Fields Rest, disk = ⟨none, some written⟩ ∧
    disk' = ⟨none, some written'⟩ ∧ ∀ path, written.get path = written'.get path

def Linked (sharding : Sharding compilation) : Prop :=
  ∀ shard ∈ sharding.shards, sharding.kind shard ≠ .foreign

/-- Where every tensor that is still to be read shares its shard with a weight that is, a shard
that is gone has all its tensors committed and is in the reclaim journal. A run behind the crash
ends with the container of a conversion that reclaims nothing exactly when no shard is gone. -/
theorem reclaim_keeps_needed (hcovered : sharding.Covered) (h : sharding.LeftBehind store) :
    (∀ shard ∈ sharding.shards, shard ∉ store.shards → shard ∈ paths store.journal ∧
      ∀ name ∈ sharding.tensors, sharding.shardOf name = shard →
        Recorded sharding store.disk name) ∧
    (sharding.Gated → Linked sharding → ∀ published : Disk Fields Rest,
      (compilation.compile true).run {} = (.ok (), published) →
      hasRecords store.disk = true → store.disk.output = none →
      ((∃ rerun, (sharding.compile true).run store = (.ok (), rerun) ∧
          SameContainer rerun.disk published) ↔
        ∀ shard ∈ sharding.shards, shard ∈ store.shards)) := by
  have hheld := h.held hcovered
  refine ⟨fun shard hshard hgone =>
    ⟨hheld.journaled shard hshard hgone, hheld.recorded shard hshard hgone⟩, ?_⟩
  intro hgated hlinked published hpublished hrecords houtput
  constructor
  · rintro ⟨rerun, hrerun, -⟩
    by_contra hgone
    obtain ⟨⟨failure, hfailed⟩, -⟩ := @refuses_missing _ _ _ _ compilation sharding store hgone
    rw [hrerun] at hfailed
    cases hfailed
  · intro hwhole
    have hplain := (@safe_compile_start _ _ _ _ compilation true).of_run.2
    rw [hpublished] at hplain
    have hsafe := safe_compile hcovered hheld houtput hwhole
      (.inr (recoverable_of_hasRecords hheld.owned hrecords))
    have hrerun := hsafe.of_run.2
    generalize hresult : (sharding.compile true).run store = rerun at hrerun
    obtain ⟨result, store'⟩ := rerun
    cases result with
    | ok value =>
      obtain ⟨written, written', hdisk, hdisk', hget, -⟩ := hplain.same hrerun
      exact ⟨store', rfl, written', written, hdisk', hdisk, hget⟩
    | error failure =>
      obtain ⟨plan, -, hplan, -⟩ := hplain
      obtain ⟨-, hnone | ⟨shard, hshard, hforeign⟩ | ⟨expert, hexpert, hgate⟩⟩ := hrerun
      · exact absurd ⟨plan, hplan⟩ hnone
      · exact absurd hforeign (hlinked shard hshard)
      · exact absurd hgate (hgated expert hexpert)

theorem Sharding.covered_of_weights (h : sharding.nativeNvfp4 = false) : sharding.Covered := by
  intro number remaining _ expert hexpert name hreads
  refine ⟨expert, hexpert, ?_⟩
  rw [Sharding.reads, ExpertTensors.reads, h] at hreads
  exact mem_map_of_mem hreads

/-- The weights of two experts in a shard each, the first with the dense tensor. -/
def smallSharding : Sharding smallCompilation where
  tensors := ["embedding", "gate0", "up0", "down0", "gate1", "up1", "down1"]
  shardOf := fun name => if name ∈ ["gate1", "up1", "down1"] then "second" else "first"
  shards := ["first", "second"]
  inventory := fun _ => ⟨8, 7⟩
  denseTensors := fun _ => ["embedding"]
  expertTensors := fun expert =>
    if expert = 0 then { gate := some "gate0", up := "up0", down := "down0" }
    else { gate := some "gate1", up := "up1", down := "down1" }
  nativeNvfp4 := false
  shardOf_mem := by decide
  dense_mem := by decide
  expert_mem := by decide
  claimed := by decide

def smallMatrix (name : String) : MatrixTensors :=
  ⟨name, name ++ ".weight_scale", name ++ ".weight_scale_2", name ++ ".input_scale"⟩

def singleCompilation : Compilation Unit Nat Unit Unit :=
  { smallCompilation with experts := [0] }

/-- One expert, with its sidecars in a shard of their own. -/
def sidecarSharding : Sharding singleCompilation where
  tensors := "embedding" :: ["gate", "up", "down"].flatMap fun name => (smallMatrix name).reads
  shardOf := fun name => if name ∈ ["embedding", "gate", "up", "down"] then "weights" else "scales"
  shards := ["scales", "weights"]
  inventory := fun _ => ⟨8, 7⟩
  denseTensors := fun _ => ["embedding"]
  expertTensors := fun _ =>
    { gate := some "gate", up := "up", down := "down"
      nvfp4Gate := some (smallMatrix "gate")
      nvfp4Up := some (smallMatrix "up")
      nvfp4Down := some (smallMatrix "down") }
  nativeNvfp4 := true
  shardOf_mem := by decide
  dense_mem := by decide
  expert_mem := by decide
  claimed := by decide

/-- One expert without a gate. -/
def ungatedSharding : Sharding singleCompilation where
  tensors := ["embedding", "up", "down"]
  shardOf := fun _ => "weights"
  shards := ["weights"]
  inventory := fun _ => ⟨8, 7⟩
  denseTensors := fun _ => ["embedding"]
  expertTensors := fun _ => { gate := none, up := "up", down := "down" }
  nativeNvfp4 := false
  shardOf_mem := by decide
  dense_mem := by decide
  expert_mem := by decide
  claimed := by decide

/-- A crash behind the first deletion, and one just before it, from where a run goes on. -/
theorem small_reclaim_keeps_needed :
    (∃ store : Store Unit Unit, smallSharding.LeftBehind store ∧ "first" ∉ store.shards ∧
      "first" ∈ paths store.journal ∧ Recorded smallSharding store.disk "embedding") ∧
    ∃ store : Store Unit Unit, smallSharding.LeftBehind store ∧
      store.shards = ["first", "second"] ∧ paths store.journal = ["first"] ∧
      ∃ rerun published, (smallSharding.compile true).run store = (.ok (), rerun) ∧
        (smallCompilation.compile true).run {} = (.ok (), published) ∧
        SameContainer rerun.disk published := by
  have hcovered := smallSharding.covered_of_weights rfl
  have hgated : smallSharding.Gated := by
    change ∀ expert ∈ smallCompilation.experts, (smallSharding.expertTensors expert).gate ≠ none
    decide
  have hlinked : Linked smallSharding := by rintro shard - ⟨⟩
  constructor
  · have hfound : ((smallSharding.compile true).crashed smallSharding.untouched).any fun store =>
        decide ("first" ∉ store.shards) := by
      decide +kernel
    obtain ⟨store, hmem, hfound⟩ := any_eq_true.1 hfound
    have hgone := of_decide_eq_true hfound
    have hleft : smallSharding.LeftBehind store := .again (.start rfl) hmem
    obtain ⟨hjournal, hrecorded⟩ :=
      (reclaim_keeps_needed hcovered hleft).1 "first" (by decide) hgone
    exact ⟨store, hleft, hgone, hjournal, hrecorded "embedding" (by decide) (by decide)⟩
  have hfound : ((smallSharding.compile true).crashed smallSharding.untouched).any fun store =>
      decide (store.shards = ["first", "second"]) &&
        decide (paths store.journal = ["first"]) && hasRecords store.disk &&
          store.disk.output.isNone := by
    decide +kernel
  obtain ⟨store, hmem, hfound⟩ := any_eq_true.1 hfound
  simp only [Bool.and_eq_true, decide_eq_true_eq, Option.isNone_iff_eq_none] at hfound
  obtain ⟨⟨⟨hshards, hjournal⟩, hrecords⟩, houtput⟩ := hfound
  have hleft : smallSharding.LeftBehind store := .again (.start rfl) hmem
  generalize hrun : (smallCompilation.compile true).run {} = published
  obtain ⟨result, published⟩ := published
  obtain rfl : result = .ok () := by
    rw [← smallCompilation_ok, hrun]
  have hwhole : ∀ shard ∈ smallSharding.shards, shard ∈ store.shards := by
    rw [hshards]
    exact fun _ => id
  obtain ⟨rerun, hrerun, hsame⟩ := ((reclaim_keeps_needed hcovered hleft).2 hgated hlinked
    published hrun hrecords houtput).2 hwhole
  exact ⟨store, hleft, hshards, hjournal, rerun, published, hrerun, rfl, hsame⟩

theorem sidecars_lost : ∃ store : Store Unit Unit, sidecarSharding.LeftBehind store ∧
    "scales" ∈ sidecarSharding.shards ∧ "scales" ∉ store.shards ∧
    "gate.weight_scale" ∈ sidecarSharding.tensors ∧
    sidecarSharding.shardOf "gate.weight_scale" = "scales" ∧
    ¬ Recorded sidecarSharding store.disk "gate.weight_scale" := by
  have hfound : ((sidecarSharding.compile true).crashed sidecarSharding.untouched).any fun store =>
      decide ("scales" ∉ store.shards) && store.disk.output.isNone &&
        store.disk.unfinished.all fun written => (index written).2.isEmpty := by
    decide +kernel
  obtain ⟨store, hmem, hfound⟩ := List.any_eq_true.1 hfound
  simp only [Bool.and_eq_true, decide_eq_true_eq, Option.isNone_iff_eq_none] at hfound
  obtain ⟨⟨hgone, houtput⟩, hempty⟩ := hfound
  refine ⟨store, .again (.start rfl) hmem, by decide, hgone, by decide, by decide, ?_⟩
  rintro ⟨written, hwritten, hrecorded⟩
  rw [houtput] at hwritten
  obtain hunfinished := hwritten.resolve_right (by simp)
  rw [hunfinished, Option.all_some, List.isEmpty_iff] at hempty
  obtain ⟨entry, hentry, -⟩ := hrecorded.listed.experts 0 (by decide) (by decide)
  rw [hempty] at hentry
  cases hentry

/-- A checkpoint that is converted as it is, and where reclaim deletes the sidecars that are still
to be read; one where a crash behind the first deletion stops every run that follows; and one that
is not converted with reclaim because an expert has no gate. -/
theorem reclaim_breaks_conversions :
    ((∃ store : Store Unit Unit, sidecarSharding.LeftBehind store ∧
        "scales" ∈ sidecarSharding.shards ∧ "scales" ∉ store.shards ∧
        "gate.weight_scale" ∈ sidecarSharding.tensors ∧
        sidecarSharding.shardOf "gate.weight_scale" = "scales" ∧
        ¬ Recorded sidecarSharding store.disk "gate.weight_scale") ∧
      ((sidecarSharding.compile true).run sidecarSharding.untouched).1 =
        .error (.compile (.record "No such file or directory"))) ∧
    (∃ store : Store Unit Unit, smallSharding.LeftBehind store ∧
      paths store.journal = ["first"] ∧ store.shards = ["second"] ∧
      ((smallSharding.compile true).run store).1 = .error .shardMissing) ∧
    ((singleCompilation.compile true).run {}).1 = .ok () ∧
    ((ungatedSharding.compile true).run ungatedSharding.untouched).1 = .error .noGate := by
  refine ⟨⟨sidecars_lost, by decide +kernel⟩, ?_, by decide +kernel, by decide +kernel⟩
  have hfound : ((smallSharding.compile true).crashed smallSharding.untouched).any fun store =>
      decide (paths store.journal = ["first"]) && decide (store.shards = ["second"]) &&
        decide (((smallSharding.compile true).run store).1 = .error .shardMissing) := by
    decide +kernel
  obtain ⟨store, hmem, hfound⟩ := any_eq_true.1 hfound
  simp only [Bool.and_eq_true, decide_eq_true_eq] at hfound
  exact ⟨store, .again (.start rfl) hmem, hfound.1.1, hfound.1.2, hfound.2⟩

end Reclaim

end QuantumLlm.ExpertPack
