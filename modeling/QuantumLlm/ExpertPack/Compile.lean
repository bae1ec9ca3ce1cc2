import Mathlib.Algebra.GroupWithZero.Nat
import QuantumLlm.ExpertPack.Container
import QuantumLlm.Lib.Recovery

/-!
# Compiling a checkpoint

`compile_checkpoint` without source reclaim, as a program over the directory of
the unfinished conversion and the directory that is published. A file is replaced
in three writes: the temporary file while it is written, the temporary file once
it is synchronized, and its rename.
-/

namespace QuantumLlm.ExpertPack

variable {Tensor Expert Fields Rest : Type}

/-- The directory with the suffix `.partial`, and the output. -/
structure Disk (Fields Rest : Type) where
  unfinished : Option (Directory Fields Rest) := none
  output : Option (Directory Fields Rest) := none

abbrev Program (Fields Rest α : Type) := Durable (Disk Fields Rest) Failure α

def update (change : Directory Fields Rest → Directory Fields Rest) : Program Fields Rest Unit :=
  .write (fun disk => { disk with unfinished := disk.unfinished.map change }) (.done ())

/-- `fsync_directory`. -/
def fsyncDirectory : Program Fields Rest Unit := .write id (.done ())

def files : Program Fields Rest (Directory Fields Rest) :=
  .read fun disk => .done (disk.unfinished.getD [])

def unlink (path : Path) : Program Fields Rest Unit := update fun files => files.erase path

/-- Writes a temporary file, synchronizes it and renames it. -/
def replaceFile (file : FileName) (content : Content Fields Rest) : Program Fields Rest Unit := do
  update fun files => files.put ⟨file, true⟩ .torn
  update fun files => files.put ⟨file, true⟩ content
  update fun files => files.rename ⟨file, true⟩ ⟨file, false⟩

/-- The directory gets its final name. -/
def publish : Program Fields Rest Unit :=
  .write (fun disk => { unfinished := none, output := disk.unfinished }) (.done ())

namespace Compilation

variable (compilation : Compilation Tensor Expert Fields Rest)

def loadCapture (counts : CalibrationCounts) (tensor : Tensor) :
    Except Failure (CalibrationCounts × Bool) :=
  match compilation.calibration with
  | none => .ok (counts, false)
  | some source =>
    if compilation.denseFp4 tensor then
      (source.load counts (compilation.denseName tensor)).mapError .calibration
    else .ok (counts, false)

def recordCapture (counts : CalibrationCounts) (tensor : Tensor) (captured : Bool)
    (selection : Selection) : Except Failure CalibrationCounts :=
  match compilation.calibration with
  | none => .ok counts
  | some source =>
    if captured then
      (source.recordSelection counts (compilation.denseName tensor) selection).mapError
        .calibration
    else .ok counts

structure DenseRecords (Fields : Type) where
  counts : CalibrationCounts := {}
  bytes : List UInt8 := []
  entries : List (DenseEntry Fields) := []

/-- `write_dense_record` behind what the pack has. -/
def writeDenseRecord (pack : DenseRecords Fields) (tensor : Tensor) :
    Except Failure (DenseRecords Fields) := do
  let loaded ← compilation.loadCapture pack.counts tensor
  let record ← compilation.denseRecord pack.bytes.length tensor loaded.2
  let counts ← compilation.recordCapture loaded.1 tensor loaded.2 record.2.2
  return {
    counts
    bytes := pack.bytes ++ record.1
    entries := pack.entries ++
      [{ name := compilation.denseName tensor
         offset := pack.bytes.length
         storedBytes := record.1.length
         fields := record.2.1 }] }

def writeDenseRecords (pack : DenseRecords Fields) : List Tensor → Except Failure (DenseRecords Fields)
  | [] => .ok pack
  | tensor :: rest => do
    let pack ← compilation.writeDenseRecord pack tensor
    writeDenseRecords pack rest

/-- `_write_dense_pack`. -/
def writeDensePack : Program Fields Rest (DenseRecords Fields) := do
  update fun files => files.put ⟨.dense, true⟩ .torn
  let pack ← Durable.ofExcept (compilation.writeDenseRecords {} compilation.dense)
  update fun files => files.put ⟨.dense, true⟩ (.bytes pack.bytes)
  update fun files => files.rename ⟨.dense, true⟩ ⟨.dense, false⟩
  fsyncDirectory
  return pack

structure ExpertRecords (Fields : Type) where
  bytes : List UInt8 := []
  entries : List (ExpertEntry Fields) := []

/-- Records until the next one may not fit; the experts that are left. -/
def fillExpertPack (index : Nat) (pack : ExpertRecords Fields) :
    List Expert → Except Failure (ExpertRecords Fields × List Expert)
  | [] => .ok (pack, [])
  | expert :: rest =>
    if pack.bytes.length ≠ 0 ∧ compilation.maxExpertPackBytes <
        pack.bytes.length + compilation.predictedRecordBytes then
      .ok (pack, expert :: rest)
    else do
      let record ← compilation.expertRecord index pack.bytes.length expert
      fillExpertPack index
        { bytes := pack.bytes ++ record.1
          entries := pack.entries ++
            [{ layer := (compilation.expertKey expert).1
               expert := (compilation.expertKey expert).2
               pack := index
               offset := pack.bytes.length
               storedBytes := record.1.length
               fields := record.2 }] } rest

def writeExpertPack (index : Nat) (remaining : List Expert) :
    Program Fields Rest (ExpertRecords Fields × List Expert) := do
  update fun files => files.put ⟨.experts index, true⟩ .torn
  let filled ← Durable.ofExcept (compilation.fillExpertPack index {} remaining)
  update fun files => files.put ⟨.experts index, true⟩ (.bytes filled.1.bytes)
  update fun files => files.rename ⟨.experts index, true⟩ ⟨.experts index, false⟩
  fsyncDirectory
  return filled

/-- The loop over the packs, each committed by the journal. -/
def writeExpertPacks (state : State Fields) (index : Nat) :
    Nat → List Expert → Program Fields Rest (State Fields)
  | _, [] => .done state
  | 0, _ :: _ => .throw .exhausted
  | fuel + 1, expert :: rest => do
    let filled ← compilation.writeExpertPack index (expert :: rest)
    let state := { state with experts := state.experts ++ filled.1.entries }
    replaceFile .state (.state state)
    writeExpertPacks state (index + 1) fuel filled.2

def copyMetadata : List (String × List UInt8) → Program Fields Rest Unit
  | [] => fsyncDirectory
  | entry :: rest => do
    replaceFile (.metadata entry.1) (.bytes entry.2)
    copyMetadata rest

def packInfo (written : Directory Fields Rest) (pack : Option Nat) (recordCount : Nat) :
    Except Failure PackInfo :=
  match payload written (packFile pack) with
  | none => .error (.packMissing (packFile pack))
  | some payload => .ok { pack, recordCount, info := compilation.info payload }

def packInfos (written : Directory Fields Rest) (experts : List (ExpertEntry Fields)) :
    List Nat → Except Failure (List PackInfo)
  | [] => .ok []
  | index :: rest => do
    let count := (experts.filter fun entry => entry.pack = index).length
    let info ← compilation.packInfo written (some index) count
    let infos ← packInfos written experts rest
    return info :: infos

/-- `_build_manifest`. -/
def buildManifest (written : Directory Fields Rest) (dense : List (DenseEntry Fields))
    (experts : List (ExpertEntry Fields)) (metadata : List (String × List UInt8))
    (runtimeModel : List UInt8) (report : Option CalibrationSnapshot) :
    Except Failure (Manifest Fields Rest) := do
  let densePack ← compilation.packInfo written none dense.length
  let expertPacks ← compilation.packInfos written experts (packIndices experts)
  let rest ← compilation.describe dense experts
  let body : ManifestBody Fields Rest :=
    { tensors := dense
      experts
      packs := densePack :: expertPacks
      metadata := metadata.map fun entry => (entry.1, compilation.info entry.2)
      modelProgram := compilation.info runtimeModel
      activationCalibration := report
      rest }
  return { body, contentSha256 := compilation.contentSha256 body }

def finalizeCalibration (counts : CalibrationCounts) :
    Except Failure (Option CalibrationSnapshot) :=
  match compilation.calibration with
  | none => .ok none
  | some source => ((source.finalize counts).map some).mapError .calibration

/-- What is left to do when marker and manifest are there. -/
def publishFinished : Program Fields Rest Unit := do
  let written ← files
  if compilation.validateContainer written then
    if (written.get (.final .report)).isSome then
      if (written.get (.final .state)).isSome then do
        unlink (.final .state)
        fsyncDirectory
        publish
        fsyncDirectory
      else do
        publish
        fsyncDirectory
    else .throw .reportMissing
  else .throw .validation

/-- What follows the journal of a complete conversion. -/
def finish (state : State Fields) (counts : CalibrationCounts) : Program Fields Rest Unit := do
  let metadata ← Durable.ofExcept compilation.metadata
  copyMetadata metadata
  let runtimeModel ← Durable.ofExcept compilation.runtimeModel
  replaceFile .runtimeModel (.bytes runtimeModel)
  fsyncDirectory
  let report ← Durable.ofExcept (compilation.finalizeCalibration counts)
  let written ← files
  let manifest ← Durable.ofExcept
    (compilation.buildManifest written state.dense state.experts metadata runtimeModel report)
  replaceFile .manifest (.manifest manifest)
  replaceFile .report .report
  replaceFile .completed (.marker (compilation.marker manifest))
  fsyncDirectory
  let completed ← files
  if compilation.validateContainer completed then do
    unlink (.final .state)
    fsyncDirectory
    publish
    fsyncDirectory
  else .throw .validation

/-- The directory `tokenizer` is not searched. -/
def isTemporary (path : Path) : Bool :=
  match path.file with
  | .metadata _ => false
  | _ => path.temporary

def isUncommitted (state : State Fields) (path : Path) : Bool :=
  match path.file, path.temporary with
  | .experts index, false => index ∉ state.experts.map fun entry => entry.pack
  | _, _ => false

/-- What `_discard_uncommitted_files` removes. -/
def discarded (written : Directory Fields Rest) (state : State Fields) : List Path :=
  let paths := written.map Prod.fst
  paths.filter isTemporary ++ paths.filter (isUncommitted state) ++
    [Path.final .manifest, Path.final .report, Path.final .completed].filter (· ∈ paths)

def unlinkAll : List Path → Program Fields Rest Unit
  | [] => .done ()
  | path :: rest => do
    unlink path
    unlinkAll rest

/-- The entries of one pack against its bytes, and where they end. -/
def checkRecords (index : Nat) (payload : List UInt8) :
    Nat → List (ExpertEntry Fields) → Except Failure Nat
  | cursor, [] => .ok cursor
  | cursor, entry :: rest =>
    if entry.offset ≠ cursor then .error (.packGap index)
    else if ¬ compilation.validExpert payload entry then .error (.packInvalid index)
    else checkRecords index payload (cursor + entry.storedBytes) rest

def checkPacks (written : Directory Fields Rest) (experts : List (ExpertEntry Fields)) :
    List Nat → Except Failure Unit
  | [] => .ok ()
  | index :: rest =>
    match payload written (.experts index) with
    | none => .error (.packMissing (.experts index))
    | some payload => do
      let cursor ← compilation.checkRecords index payload 0
        (experts.filter fun entry => entry.pack = index)
      if payload.length ≠ cursor then .error (.packUnindexed index)
      else checkPacks written experts rest

def checkDense (written : Directory Fields Rest) (dense : List (DenseEntry Fields)) :
    Except Failure Unit :=
  if dense = [] then .ok ()
  else
    match payload written .dense with
    | none => .error .denseMissing
    | some payload =>
      if ¬ dense.all (compilation.validDense payload) then .error .denseInvalid
      else if payload.length ≠ (dense.map fun entry => entry.storedBytes).sum then
        .error .denseUnindexed
      else .ok ()

/-- `_validate_resume_prefix`. -/
def validateResumePrefix (written : Directory Fields Rest) (state : State Fields) :
    Except Failure Unit := do
  let names := state.dense.map fun entry => entry.name
  if names ≠ [] ∧ names ≠ compilation.dense.map compilation.denseName then .error .densePrefix
  compilation.checkDense written state.dense
  let keys := state.experts.map fun entry => (entry.layer, entry.expert)
  if keys ≠ (compilation.experts.map compilation.expertKey).take keys.length then
    .error .expertPrefix
  compilation.checkPacks written state.experts (state.experts.map fun entry => entry.pack).dedup

def journaledCalibration (state : State Fields) (counts : CalibrationCounts) :
    Option CalibrationSnapshot :=
  match compilation.calibration with
  | none => state.activationCalibration
  | some source => some (source.snapshot counts)

/-- The journal with the dense pack in it, and the calibration behind it. -/
def commitDense (state : State Fields) : Program Fields Rest (State Fields × CalibrationCounts) :=
  if state.dense = [] then do
    let pack ← compilation.writeDensePack
    let state := { state with
      dense := pack.entries
      activationCalibration := compilation.journaledCalibration state pack.counts }
    replaceFile .state (.state state)
    return (state, pack.counts)
  else
    match compilation.calibration with
    | none => return (state, {})
    | some source => do
      let counts ← Durable.ofExcept
        ((source.restore state.activationCalibration).mapError .calibration)
      return (state, counts)

/-- From a journal to the published container. -/
def resume (state : State Fields) : Program Fields Rest Unit := do
  let committed ← compilation.commitDense state
  Durable.ofExcept compilation.components
  let index := (committed.1.experts.map fun entry => entry.pack).dedup.length
  let remaining := compilation.experts.drop committed.1.experts.length
  let state ← compilation.writeExpertPacks committed.1 index remaining.length remaining
  compilation.finish state committed.2

def newState : State Fields := { contractSha256 := compilation.contractSha256 }

/-- `compile_checkpoint`, with or without `--resume`. -/
def compile (resuming : Bool) : Program Fields Rest Unit :=
  .read fun disk =>
    if disk.output.isSome then .throw .outputExists
    else
      match disk.unfinished with
      | none => do
        Durable.write (fun disk => { disk with unfinished := some [] }) (.done ())
        replaceFile .state (.state compilation.newState)
        fsyncDirectory
        compilation.resume compilation.newState
      | some written =>
        if ¬ resuming then .throw .partialExists
        else if (written.get (.final .manifest)).isSome ∧
            (written.get (.final .completed)).isSome then
          compilation.publishFinished
        else
          match written.get (.final .state) with
          | some (.state state) =>
            if state.contractSha256 ≠ compilation.contractSha256 then
              .throw .contractChanged
            else do
              unlinkAll (discarded written state)
              let kept ← files
              Durable.ofExcept (compilation.validateResumePrefix kept state)
              compilation.resume state
          | _ => .throw .noState

end Compilation

end QuantumLlm.ExpertPack
