import QuantumLlm.ExpertPack.Contracts

/-!
# Reclaiming source shards

`compile_checkpoint` with `reclaim_source_shards`: behind the dense pack, and behind
each expert pack that the journal names, the shards that hold no weight of an expert
still to come are deleted from the checkpoint. Each goes in steps of its own: the
reclaim journal, the shard, and the list of reclaimed shards in the journal of the
conversion.
-/

namespace QuantumLlm.ExpertPack.Reclaim

open Compilation

/-- `NativeNvfp4MatrixSource`, by the physical names of its tensors. -/
structure MatrixTensors where
  weight : String
  scale : String
  weightGlobalScale : String
  inputGlobalScale : String

def MatrixTensors.reads (matrix : MatrixTensors) : List String :=
  [matrix.weight, matrix.scale, matrix.weightGlobalScale, matrix.inputGlobalScale]

/-- `ExpertSource`, by the physical names of its tensors. -/
structure ExpertTensors where
  gate : Option String
  up : String
  down : String
  nvfp4Gate : Option MatrixTensors := none
  nvfp4Up : Option MatrixTensors := none
  nvfp4Down : Option MatrixTensors := none

/-- What `write_expert_record` opens. -/
def ExpertTensors.reads (expert : ExpertTensors) (nativeNvfp4 : Bool) : List String :=
  if nativeNvfp4 then
    ([expert.nvfp4Gate, expert.nvfp4Up, expert.nvfp4Down].filterMap id).flatMap
      MatrixTensors.reads
  else expert.gate.toList ++ [expert.up, expert.down]

inductive ShardFile where
  | file
  /-- A link of a snapshot into the blobs of its cache. -/
  | snapshot
  /-- Any other link. -/
  | foreign
  deriving DecidableEq

variable {Tensor Expert Fields Rest : Type}

/-- The tensors of a checkpoint in its shards, and which record reads which of them. -/
structure Sharding (compilation : Compilation Tensor Expert Fields Rest) where
  tensors : List String
  shardOf : String → String
  shards : List String
  kind : String → ShardFile := fun _ => .file
  /-- `_source_inventory`. -/
  inventory : String → FileInfo
  denseTensors : Tensor → List String
  expertTensors : Expert → ExpertTensors
  nativeNvfp4 : Bool
  shardOf_mem : ∀ name ∈ tensors, shardOf name ∈ shards
  dense_mem : ∀ tensor ∈ compilation.dense, ∀ name ∈ denseTensors tensor, name ∈ tensors
  expert_mem : ∀ expert ∈ compilation.experts,
    ∀ name ∈ (expertTensors expert).reads nativeNvfp4, name ∈ tensors
  /-- The adapters accept no tensor that they do not know. -/
  claimed : ∀ name ∈ tensors, (∃ tensor ∈ compilation.dense, name ∈ denseTensors tensor) ∨
    ∃ expert ∈ compilation.experts, name ∈ (expertTensors expert).reads nativeNvfp4

/-- An entry of `source-reclaim-journal.json`. -/
structure ReclaimEntry where
  path : String
  info : FileInfo
  expertsCommitted : Nat
  restore : String := "huggingface download of the same pinned revision"
  deriving DecidableEq

/-- What survives a crash. `reclaimed` is written with the journal of the conversion, and the
journal of the reclaim is empty where there is no file. -/
structure Store (Fields Rest : Type) where
  disk : Disk Fields Rest := {}
  shards : List String
  journal : List ReclaimEntry := []
  reclaimed : List ReclaimEntry := []

inductive Failure where
  | compile (failure : ExpertPack.Failure)
  /-- "missing or unsafe shard path" -/
  | shardMissing
  /-- `None` has no attribute `shard`. -/
  | noGate
  /-- "consumed source shard disappeared without journal" -/
  | disappeared (shard : String)
  /-- "refusing to reclaim a symlink outside a Hugging Face snapshot", "refusing to unlink source
  target outside cache blobs" -/
  | foreign (shard : String)
  deriving DecidableEq

abbrev Program (Fields Rest α : Type) := Durable (Store Fields Rest) Failure α

def onDisk {α : Type} (program : ExpertPack.Program Fields Rest α) : Program Fields Rest α :=
  program.zoom Store.disk (fun store disk => { store with disk }) .compile

def presentShards : Program Fields Rest (List String) := .read fun store => .done store.shards

def paths (entries : List ReclaimEntry) : List String := entries.map fun entry => entry.path

namespace Sharding

variable {compilation : Compilation Tensor Expert Fields Rest} (sharding : Sharding compilation)

def reads (expert : Expert) : List String :=
  (sharding.expertTensors expert).reads sharding.nativeNvfp4

/-- The shards of the weights; the attribute of a gate that is `None` does not exist. -/
def futureShards : List Expert → Except Failure (List String)
  | [] => .ok []
  | expert :: rest =>
    match (sharding.expertTensors expert).gate with
    | none => .error .noGate
    | some gate => do
      let later ← futureShards rest
      return [gate, (sharding.expertTensors expert).up,
        (sharding.expertTensors expert).down].map sharding.shardOf ++ later

def journalShard (entry : ReclaimEntry) : Program Fields Rest Unit := do
  .write (fun store => { store with journal := store.reclaimed ++ [entry] }) (.done ())
  onDisk fsyncDirectory

/-- The blob of a snapshot goes behind its link, and nothing finds it any more. -/
def unlinkShard (shard : String) : Program Fields Rest Unit :=
  .write (fun store => { store with shards := store.shards.filter (· ≠ shard) })
    (if sharding.kind shard = .snapshot then .write id (.done ()) else .done ())

/-- The journal of the conversion is replaced, with one reclaimed shard more. -/
def commitReclaimed (state : State Fields) (entry : ReclaimEntry) : Program Fields Rest Unit := do
  onDisk (update fun files => files.put ⟨.state, true⟩ .torn)
  onDisk (update fun files => files.put ⟨.state, true⟩ (.state state))
  .write (fun store => { store with
    disk := { store.disk with
      unfinished := store.disk.unfinished.map fun files =>
        files.rename ⟨.state, true⟩ ⟨.state, false⟩ }
    reclaimed := store.reclaimed ++ [entry] }) (.done ())
  onDisk fsyncDirectory

def reclaimShard (state : State Fields) (shard : String) : Program Fields Rest Unit :=
  .read fun store =>
    if shard ∉ store.shards then
      if shard ∈ paths store.reclaimed then .done () else .throw (.disappeared shard)
    else if sharding.kind shard = .foreign then .throw (.foreign shard)
    else if shard ∈ paths store.reclaimed then sharding.unlinkShard shard
    else do
      let entry : ReclaimEntry :=
        { path := shard, info := sharding.inventory shard, expertsCommitted := state.experts.length }
      journalShard entry
      sharding.unlinkShard shard
      commitReclaimed state entry

def reclaimShards (state : State Fields) (future : List String) :
    List String → Program Fields Rest Unit
  | [] => .done ()
  | shard :: rest =>
    if shard ∈ future then reclaimShards state future rest
    else do
      sharding.reclaimShard state shard
      reclaimShards state future rest

/-- `_reclaim_consumed_source_shards`, with the experts from `next_expert` on. -/
def reclaimConsumed (state : State Fields) (remaining : List Expert) :
    Program Fields Rest Unit := do
  let future ← Durable.ofExcept (sharding.futureShards remaining)
  sharding.reclaimShards state future sharding.shards

def present (shards : List String) (names : List String) : Bool :=
  names.all fun name => decide (sharding.shardOf name ∈ shards)

/-- The record writers on what is left of the checkpoint. -/
def reading (shards : List String) : Compilation Tensor Expert Fields Rest :=
  { compilation with
    denseRecord := fun offset tensor captured =>
      if sharding.present shards (sharding.denseTensors tensor) then
        compilation.denseRecord offset tensor captured
      else .error (.record "No such file or directory")
    expertRecord := fun index offset expert =>
      if sharding.present shards (sharding.reads expert) then
        compilation.expertRecord index offset expert
      else .error (.record "No such file or directory") }

def writeExpertPacks (state : State Fields) (index : Nat) :
    Nat → List Expert → Program Fields Rest (State Fields)
  | _, [] => .done state
  | 0, _ :: _ => .throw (.compile .exhausted)
  | fuel + 1, expert :: rest => do
    let shards ← presentShards
    let filled ← onDisk ((sharding.reading shards).writeExpertPack index (expert :: rest))
    let state := { state with experts := state.experts ++ filled.1.entries }
    onDisk (replaceFile .state (.state state))
    sharding.reclaimConsumed state filled.2
    writeExpertPacks state (index + 1) fuel filled.2

def resume (state : State Fields) : Program Fields Rest Unit := do
  let shards ← presentShards
  let committed ← onDisk ((sharding.reading shards).commitDense state)
  let remaining := compilation.experts.drop committed.1.experts.length
  sharding.reclaimConsumed committed.1 remaining
  onDisk (Durable.ofExcept compilation.components)
  let index := (committed.1.experts.map fun entry => entry.pack).dedup.length
  let state ← sharding.writeExpertPacks committed.1 index remaining.length remaining
  onDisk (compilation.finish state committed.2)

/-- `compile_checkpoint`. The checkpoint opens when its index finds every shard. -/
def compile (resuming : Bool) : Program Fields Rest Unit :=
  .read fun store =>
    if store.disk.output.isSome then .throw (.compile .outputExists)
    else if ¬ ∀ shard ∈ sharding.shards, shard ∈ store.shards then .throw .shardMissing
    else
      match store.disk.unfinished with
      | none => do
        .write (fun store => { store with
          disk := { store.disk with unfinished := some [] }
          journal := []
          reclaimed := [] }) (.done ())
        onDisk (replaceFile .state (.state compilation.newState))
        onDisk fsyncDirectory
        sharding.resume compilation.newState
      | some written =>
        if ¬ resuming then .throw (.compile .partialExists)
        else if (written.get (.final .manifest)).isSome ∧
            (written.get (.final .completed)).isSome then
          onDisk compilation.publishFinished
        else
          match written.get (.final .state) with
          | some (.state state) =>
            if state.contractSha256 ≠ compilation.contractSha256 then
              .throw (.compile .contractChanged)
            else do
              onDisk (unlinkAll (discarded written state))
              let kept ← onDisk files
              onDisk (Durable.ofExcept (compilation.validateResumePrefix kept state))
              sharding.resume state
          | _ => .throw (.compile .noState)

/-- A checkpoint that nobody has touched. -/
def untouched : Store Fields Rest := { shards := sharding.shards }

/-- What any number of runs leave, each crashed at any write, failed or done. -/
def LeftBehind : Store Fields Rest → Prop :=
  (sharding.compile true).Crashes fun store => store = sharding.untouched

end Sharding

end QuantumLlm.ExpertPack.Reclaim
