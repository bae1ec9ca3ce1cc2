import QuantumLlm.ExpertPack.Recorded

/-!
# What reclaim may delete

A shard that no weight of a remaining expert needs is deleted, whatever else is in
it. Where every tensor that remains to be read shares its shard with such a weight,
nothing is lost that is not committed. A shard that is gone stops the next run all
the same, because the checkpoint no longer opens.
-/

namespace QuantumLlm.ExpertPack.Reclaim

open Compilation

variable {Tensor Expert Fields Rest : Type}
  {compilation : Compilation Tensor Expert Fields Rest} {sharding : Sharding compilation}
  {written written' : Directory Fields Rest} {state : State Fields}

/-! ## Programs that leave the journal alone -/

section

variable {allowed : State Fields → Prop}

theorem keeps_update {change : Directory Fields Rest → Directory Fields Rest}
    (h : ∀ files, (change files).get (.final .state) = files.get (.final .state) ∨
      (change files).get (.final .state) = none) :
    Durable.Keeps (StateIs allowed) (update change) := by
  refine ⟨?_, trivial⟩
  rintro ⟨unfinished, output⟩ hstate written state hwritten hsome
  cases unfinished with
  | none => cases hwritten
  | some before =>
    cases hwritten
    rcases h before with hsame | hnone
    · exact hstate before state rfl (hsame ▸ hsome)
    · rw [hnone] at hsome
      cases hsome

theorem keeps_fsyncDirectory :
    Durable.Keeps (StateIs allowed : Disk Fields Rest → Prop) fsyncDirectory :=
  ⟨fun _ => id, trivial⟩

variable {path : Path} {content : Content Fields Rest} {file : FileName} {disk : Disk Fields Rest}

theorem keeps_put (hpath : path ≠ .final .state) :
    Durable.Keeps (StateIs allowed) (update fun files => files.put path content) := by
  apply keeps_update
  intro files
  rw [Files.get_put, if_neg hpath.symm]
  exact .inl rfl

theorem keeps_rename (hfile : file ≠ .state) :
    Durable.Keeps (StateIs allowed : Disk Fields Rest → Prop)
      (update fun files => files.rename ⟨file, true⟩ ⟨file, false⟩) := by
  apply keeps_update
  intro files
  cases hget : files.get ⟨file, true⟩ with
  | none =>
    rw [Files.rename, hget]
    exact .inl rfl
  | some content =>
    rw [Files.get_rename hget, if_neg (by simpa [Path.final] using hfile.symm),
      if_neg (by simp [Path.final])]
    exact .inl rfl

theorem keeps_replaceFile
    (hfile : file ≠ .state) : Durable.Keeps (StateIs allowed) (replaceFile file content) := by
  have htemporary : (⟨file, true⟩ : Path) ≠ .final .state := by simp [Path.final]
  exact (keeps_put htemporary).bind fun _ => (keeps_put htemporary).bind fun _ =>
    keeps_rename hfile

theorem keeps_unlink :
    Durable.Keeps (StateIs allowed : Disk Fields Rest → Prop) (unlink path) := by
  apply keeps_update
  intro files
  rw [Files.get_erase]
  split
  next => exact .inr rfl
  next => exact .inl rfl

theorem keeps_unlinkAll {paths : List Path} :
    Durable.Keeps (StateIs allowed : Disk Fields Rest → Prop) (unlinkAll paths) := by
  induction paths with
  | nil => trivial
  | cons path rest ih => exact keeps_unlink.bind fun _ => ih

theorem keeps_files : Durable.Keeps (StateIs allowed : Disk Fields Rest → Prop) files :=
  fun _ => trivial

theorem keeps_publish : Durable.Keeps (StateIs allowed : Disk Fields Rest → Prop) publish := by
  refine ⟨?_, trivial⟩
  rintro disk - written state ⟨⟩

theorem keeps_writeDensePack : Durable.Keeps (StateIs allowed : Disk Fields Rest → Prop)
    compilation.writeDensePack := by
  refine (keeps_put (by simp [Path.final])).bind fun _ => (Durable.Keeps.ofExcept _).bind fun pack => ?_
  refine (keeps_put (by simp [Path.final])).bind fun _ => (keeps_rename (by simp)).bind fun _ => ?_
  exact keeps_fsyncDirectory.bind fun _ => trivial

theorem keeps_writeExpertPack {number : Nat} :
    Durable.Keeps (StateIs allowed : Disk Fields Rest → Prop)
      (compilation.writeExpertPack number remaining) := by
  refine (keeps_put (by simp [Path.final])).bind fun _ => (Durable.Keeps.ofExcept _).bind fun pack => ?_
  refine (keeps_put (by simp [Path.final])).bind fun _ => (keeps_rename (by simp)).bind fun _ => ?_
  exact keeps_fsyncDirectory.bind fun _ => trivial

theorem keeps_copyMetadata {entries : List (String × List UInt8)} :
    Durable.Keeps (StateIs allowed : Disk Fields Rest → Prop) (copyMetadata entries) := by
  induction entries with
  | nil => exact keeps_fsyncDirectory
  | cons entry rest ih => exact (keeps_replaceFile (by simp)).bind fun _ => ih

theorem keeps_publishFinished : Durable.Keeps (StateIs allowed : Disk Fields Rest → Prop)
    compilation.publishFinished := by
  refine keeps_files.bind fun written => ?_
  have hpublish : Durable.Keeps (StateIs allowed : Disk Fields Rest → Prop)
      (publish >>= fun _ => fsyncDirectory) := keeps_publish.bind fun _ => keeps_fsyncDirectory
  split
  next =>
    split
    next =>
      split
      next => exact keeps_unlink.bind fun _ => keeps_fsyncDirectory.bind fun _ => hpublish
      next => exact hpublish
    next => trivial
  next => trivial

theorem keeps_finish {counts : CalibrationCounts} :
    Durable.Keeps (StateIs allowed : Disk Fields Rest → Prop)
      (compilation.finish state counts) := by
  refine (Durable.Keeps.ofExcept _).bind fun metadata => keeps_copyMetadata.bind fun _ => ?_
  refine (Durable.Keeps.ofExcept _).bind fun model => ?_
  refine (keeps_replaceFile (by simp)).bind fun _ => keeps_fsyncDirectory.bind fun _ => ?_
  refine (Durable.Keeps.ofExcept _).bind fun report => keeps_files.bind fun written => ?_
  refine (Durable.Keeps.ofExcept _).bind fun manifest => ?_
  refine (keeps_replaceFile (by simp)).bind fun _ => (keeps_replaceFile (by simp)).bind fun _ => ?_
  refine (keeps_replaceFile (by simp)).bind fun _ => keeps_fsyncDirectory.bind fun _ => ?_
  refine keeps_files.bind fun completed => ?_
  split
  next =>
    refine keeps_unlink.bind fun _ => keeps_fsyncDirectory.bind fun _ => ?_
    exact keeps_publish.bind fun _ => keeps_fsyncDirectory
  next => trivial

theorem safe_stateIs_replaceState (h : StateIs allowed disk) (hstate : allowed state) :
    Durable.Safe (StateIs allowed) (fun _ disk => StateIs allowed disk)
      (fun _ disk => StateIs allowed disk)
      (replaceFile .state (.state state)) disk := by
  obtain ⟨unfinished, output⟩ := disk
  cases unfinished with
  | none => exact ⟨h, h, h, h, h⟩
  | some written =>
    have hput : ∀ content, StateIs allowed
        (⟨some (written.put ⟨.state, true⟩ content), output⟩ : Disk Fields Rest) := by
      rintro content - state ⟨⟩ hsome
      rw [Files.get_put, if_neg (by simp [Path.final])] at hsome
      exact h written state rfl hsome
    have hplaced : StateIs allowed
        (⟨some (replaced written .state (.state state)), output⟩ : Disk Fields Rest) := by
      rintro - other ⟨⟩ hsome
      cases hsome
      exact hstate
    refine ⟨h, hput .torn, ?_, hplaced, hplaced⟩
    rintro - other ⟨⟩ hsome
    rw [Files.get_put, if_neg (by simp [Path.final]), Files.get_put,
      if_neg (by simp [Path.final])] at hsome
    exact h written other rfl hsome

theorem safe_stateIs_commitDense (h : StateIs allowed disk)
    (hstate : ∀ dense calibration, allowed { state with
      dense, activationCalibration := calibration }) :
    Durable.Safe (StateIs allowed) (fun _ disk => StateIs allowed disk)
      (fun _ disk => StateIs allowed disk) (compilation.commitDense state) disk := by
  rw [commitDense]
  split
  next =>
    apply Durable.Safe.bind (keeps_writeDensePack.safe h)
    intro pack disk hdisk
    apply Durable.Safe.bind (safe_stateIs_replaceState hdisk (hstate _ _))
    exact fun _ disk hdisk => ⟨hdisk, hdisk⟩
  next =>
    split
    next => exact ⟨h, h⟩
    next source _ => exact Durable.Safe.bind_ofExcept h (fun _ _ => ⟨h, h⟩) fun _ _ => h

end

/-! ## What holds on the way -/

/-- The experts that are left behind each pack, and how many packs there are. -/
inductive Left (compilation : Compilation Tensor Expert Fields Rest) : Nat → List Expert → Prop where
  | start : Left compilation 0 compilation.experts
  | pack {number : Nat} {expert : Expert} {remaining rest : List Expert}
      {pack : ExpertRecords Fields} : Left compilation number (expert :: remaining) →
      compilation.fillExpertPack number {} (expert :: remaining) = .ok (pack, rest) →
      Left compilation (number + 1) rest

/-- A journal stands behind a pack. -/
def Paced (compilation : Compilation Tensor Expert Fields Rest) (state : State Fields) : Prop :=
  Left compilation (state.experts.map fun entry => entry.pack).dedup.length
    (compilation.experts.drop state.experts.length)

/-- A later journal, with at least the same records. -/
structure Behind (compilation : Compilation Tensor Expert Fields Rest)
    (state state' : State Fields) : Prop where
  paced : Paced compilation state'
  dense : state'.dense = state.dense
  experts : state.experts <+: state'.experts

/-- What a crash may leave. -/
structure Held (sharding : Sharding compilation) (store : Store Fields Rest) : Prop where
  owned : Owned compilation store.disk
  paced : StateIs (Paced compilation) store.disk
  named : paths store.reclaimed ⊆ paths store.journal
  journaled : ∀ shard ∈ sharding.shards, shard ∉ store.shards → shard ∈ paths store.journal
  recorded : ∀ shard ∈ sharding.shards, shard ∉ store.shards → ∀ name ∈ sharding.tensors,
    sharding.shardOf name = shard → Recorded sharding store.disk name

/-- No tensor of the shard is still to be read. -/
def Consumed (sharding : Sharding compilation) (remaining : List Expert) (shard : String) : Prop :=
  ∀ name ∈ sharding.tensors, sharding.shardOf name = shard →
    ∀ expert ∈ remaining, name ∉ sharding.reads expert

/-- What a run may do without, with some experts left. -/
structure Spent (sharding : Sharding compilation) (remaining : List Expert)
    (store : Store Fields Rest) : Prop where
  consumed : ∀ shard ∈ sharding.shards, shard ∉ store.shards →
    Consumed sharding remaining shard
  journaled : ∀ shard ∈ sharding.shards, shard ∉ store.shards → shard ∈ paths store.journal
  named : paths store.reclaimed ⊆ paths store.journal

/-- Between two packs: the journal counts, and every shard that is gone is in its list. -/
structure Settled (sharding : Sharding compilation) (state : State Fields)
    (dense : DenseRecords Fields) (packs : List (ExpertRecords Fields)) (remaining : List Expert)
    (written : Directory Fields Rest) (store : Store Fields Rest) : Prop where
  disk : store.disk = ⟨some written, none⟩
  committed : Committed compilation written state dense packs remaining
  left : Left compilation packs.length remaining
  spent : Spent sharding remaining store
  reclaimed : ∀ shard ∈ sharding.shards, shard ∉ store.shards → shard ∈ paths store.reclaimed

/-- Where a run fails: there is nothing to publish, a link leaves the cache or a gate is missing. -/
def Barren (sharding : Sharding compilation) (_ : Failure) (store : Store Fields Rest) : Prop :=
  store.disk.output = none ∧ ((¬ ∃ plan : Plan Fields Rest, Planned compilation plan) ∨
    (∃ shard ∈ sharding.shards, sharding.kind shard = .foreign) ∨
    ∃ expert ∈ compilation.experts, (sharding.expertTensors expert).gate = none)

variable {dense : DenseRecords Fields} {packs : List (ExpertRecords Fields)}
  {remaining : List Expert} {store : Store Fields Rest} {shard : String}

theorem paced_iff (h : Committed compilation written state dense packs remaining) :
    Paced compilation state ↔ Left compilation packs.length remaining := by
  rw [Paced, h.entries, h.packed.length_dedup, h.packed.drop_eq]

section

variable (h : Settled sharding state dense packs remaining written store)

include h

theorem Settled.paced :
    Paced compilation state :=
  (paced_iff h.committed).2 h.left

theorem Settled.listed
    {name : String} (hconsumed : ∀ expert ∈ remaining, name ∉ sharding.reads expert) :
    Listed sharding state.dense state.experts name := by
  rw [h.committed.denseEntries, h.committed.entries]
  exact listed_of_packed h.committed.denseWritten h.committed.packed hconsumed

end

theorem Spent.held (h : Spent sharding remaining store)
    (hlisted : ∀ name, (∀ expert ∈ remaining, name ∉ sharding.reads expert) →
      Listed sharding state.dense state.experts name)
    (hrecoverable : Recoverable compilation store.disk)
    (hbehind : StateIs (Behind compilation state) store.disk) : Held sharding store where
  owned := .inr hrecoverable
  paced := fun written state' hwritten hstate => (hbehind written state' hwritten hstate).paced
  named := h.named
  journaled := h.journaled
  recorded := by
    intro shard hshard hgone name hname hof
    apply recorded_of_recoverable hrecoverable hname
    intro written' state' hwritten hstate
    have hlater := hbehind written' state' hwritten hstate
    rw [hlater.dense]
    exact (hlisted name (h.consumed shard hshard hgone name hname hof)).mono hlater.experts

section

variable (h : Settled sharding state dense packs remaining written store)

include h

theorem Settled.behind :
    Behind compilation state state :=
  ⟨h.paced, rfl, List.prefix_rfl⟩

theorem Settled.stateIs :
    StateIs (Behind compilation state) (⟨some written, none⟩ : Disk Fields Rest) := by
  intro other state' hother hsome
  obtain rfl : written = other := Option.some.inj hother
  rw [h.committed.resumable.journal] at hsome
  cases hsome
  exact h.behind

theorem Settled.held :
    Held sharding store := by
  refine h.spent.held (fun name => h.listed) ?_ ?_
  · rw [h.disk]
    exact .journaled h.committed.resumable
  · rw [h.disk]
    exact h.stateIs

end

variable {α : Type} {program : ExpertPack.Program Fields Rest α}
  {post kept : α → Disk Fields Rest → Prop} {fails : ExpertPack.Failure → Disk Fields Rest → Prop}

theorem Spent.safe_onDisk
    (h : Spent sharding remaining store)
    (hlisted : ∀ name, (∀ expert ∈ remaining, name ∉ sharding.reads expert) →
      Listed sharding state.dense state.experts name)
    (hsafe : Durable.Safe (Recoverable compilation) (Fruitless compilation) post program store.disk)
    (hkeeps : Durable.Safe (StateIs (Behind compilation state)) fails kept program store.disk) :
    Durable.Safe (Held sharding) (Barren sharding)
      (fun value store' => ∃ disk, store' = { store with disk } ∧ post value disk ∧ kept value disk)
      (onDisk program) store := by
  refine (Durable.Safe.zoom (by intros; rfl) (by intros; rfl) (by intros; rfl)
    (hsafe.and hkeeps) ?_).mono ?_ fun _ _ => id
  · rintro disk ⟨hrecoverable, hstate⟩
    exact Spent.held ⟨h.consumed, h.journaled, h.named⟩ hlisted hrecoverable hstate
  · rintro - - ⟨error, disk, rfl, rfl, hfails, -⟩
    exact ⟨hfails.1, .inl hfails.2⟩

def Whole (sharding : Sharding compilation) (store : Store Fields Rest) : Prop :=
  ∀ shard ∈ sharding.shards, shard ∈ store.shards

theorem Whole.withDisk (h : Whole sharding store) (disk : Disk Fields Rest) :
    Whole sharding { store with disk } :=
  h

section

variable (h : Whole sharding store) (hnamed : paths store.reclaimed ⊆ paths store.journal)

include h hnamed

theorem Whole.held
    (howned : Owned compilation store.disk) (hpaced : StateIs (Paced compilation) store.disk) :
    Held sharding store where
  owned := howned
  paced := hpaced
  named := hnamed
  journaled := fun shard hshard hgone => absurd (h shard hshard) hgone
  recorded := fun shard hshard hgone => absurd (h shard hshard) hgone

theorem Whole.safe_onDisk

    (hsafe : Durable.Safe (Owned compilation) (Fruitless compilation) post program store.disk)
    (hkeeps : Durable.Safe (StateIs (Paced compilation)) fails kept program store.disk) :
    Durable.Safe (Held sharding) (Barren sharding)
      (fun value store' => ∃ disk, store' = { store with disk } ∧ post value disk ∧ kept value disk)
      (onDisk program) store := by
  refine (Durable.Safe.zoom (by intros; rfl) (by intros; rfl) (by intros; rfl)
    (hsafe.and hkeeps) ?_).mono ?_ fun _ _ => id
  · rintro disk ⟨howned, hpaced⟩
    exact Whole.held h hnamed howned hpaced
  · rintro - - ⟨error, disk, rfl, rfl, hfails, -⟩
    exact ⟨hfails.1, .inl hfails.2⟩

end

end QuantumLlm.ExpertPack.Reclaim
