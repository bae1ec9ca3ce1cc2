import Mathlib.Data.List.Dedup
import Mathlib.Data.List.Sort
import QuantumLlm.ExpertPack.Calibration
import QuantumLlm.Lib.Files

/-!
# Containers

The files of a container, the journal of a conversion that is not finished, and
`validate_container`. What a checkpoint and its options determine without the
disk is a `Compilation`: the record writers, the record validators and the parts
of the manifest that neither pack nor index.
-/

namespace QuantumLlm.ExpertPack

inductive FileName where
  | state
  | dense
  | experts (index : Nat)
  | manifest
  | report
  | completed
  | runtimeModel
  /-- A file of the directory `tokenizer`. -/
  | metadata (name : String)
  deriving DecidableEq

/-- A file, or the temporary file that is renamed to it. -/
structure Path where
  file : FileName
  temporary : Bool := false
  deriving DecidableEq

structure DenseEntry (Fields : Type) where
  name : String
  offset : Nat
  storedBytes : Nat
  fields : Fields
  deriving DecidableEq

structure ExpertEntry (Fields : Type) where
  layer : Nat
  expert : Nat
  pack : Nat
  offset : Nat
  storedBytes : Nat
  fields : Fields
  deriving DecidableEq

structure State (Fields : Type) where
  contractSha256 : Nat
  dense : List (DenseEntry Fields) := []
  experts : List (ExpertEntry Fields) := []
  activationCalibration : Option CalibrationSnapshot := none
  deriving DecidableEq

structure FileInfo where
  bytes : Nat
  sha256 : Nat
  deriving DecidableEq

/-- `pack` is `none` for the dense pack. -/
structure PackInfo where
  pack : Option Nat
  recordCount : Nat
  info : FileInfo
  deriving DecidableEq

/-- The manifest without its content hash. -/
structure ManifestBody (Fields Rest : Type) where
  tensors : List (DenseEntry Fields)
  experts : List (ExpertEntry Fields)
  packs : List PackInfo
  metadata : List (String × FileInfo)
  modelProgram : FileInfo
  activationCalibration : Option CalibrationSnapshot
  rest : Rest
  deriving DecidableEq

structure Manifest (Fields Rest : Type) where
  body : ManifestBody Fields Rest
  contentSha256 : Nat
  deriving DecidableEq

structure Marker where
  manifestContentSha256 : Nat
  manifestFileSha256 : Nat
  deriving DecidableEq

inductive Content (Fields Rest : Type) where
  | bytes (payload : List UInt8)
  | state (state : State Fields)
  | manifest (manifest : Manifest Fields Rest)
  /-- Its times differ from run to run. -/
  | report
  | marker (marker : Marker)
  /-- Some part of what was to be written. -/
  | torn
  deriving DecidableEq

inductive Failure where
  | record (text : String)
  | calibration (failure : CalibrationFailure)
  | outputExists
  | partialExists
  | noState
  | contractChanged
  | densePrefix
  | denseMissing
  | denseInvalid
  | denseUnindexed
  | expertPrefix
  | packMissing (file : FileName)
  | packGap (index : Nat)
  | packInvalid (index : Nat)
  | packUnindexed (index : Nat)
  | validation
  | reportMissing
  | exhausted
  deriving DecidableEq

abbrev Directory (Fields Rest : Type) := Files Path (Content Fields Rest)

structure Compilation (Tensor Expert Fields Rest : Type) where
  contractSha256 : Nat
  dense : List Tensor
  denseName : Tensor → String
  /-- Whether the tensor is written with the encoding that asks for a capture. -/
  denseFp4 : Tensor → Bool
  /-- The record at an offset, given whether its capture was loaded. -/
  denseRecord : Nat → Tensor → Bool → Except Failure (List UInt8 × Fields × Selection)
  experts : List Expert
  expertKey : Expert → Nat × Nat
  /-- The record in a pack at an offset. -/
  expertRecord : Nat → Nat → Expert → Except Failure (List UInt8 × Fields)
  predictedRecordBytes : Nat
  maxExpertPackBytes : Nat
  calibration : Option CalibrationSource
  /-- At most one routed component, and one when there are experts. -/
  components : Except Failure Unit
  metadata : Except Failure (List (String × List UInt8))
  runtimeModel : Except Failure (List UInt8)
  describe : List (DenseEntry Fields) → List (ExpertEntry Fields) → Except Failure Rest
  sha256 : List UInt8 → Nat
  contentSha256 : ManifestBody Fields Rest → Nat
  fileSha256 : Manifest Fields Rest → Nat
  validDense : List UInt8 → DenseEntry Fields → Bool
  validExpert : List UInt8 → ExpertEntry Fields → Bool
  /-- What `validate_container` checks without the packs. -/
  wellFormed : Manifest Fields Rest → List UInt8 → Bool

variable {Tensor Expert Fields Rest : Type}

def Path.final (file : FileName) : Path := { file }

/-- A file under its own name, as bytes. -/
def payload (files : Directory Fields Rest) (file : FileName) : Option (List UInt8) :=
  match files.get (.final file) with
  | some (.bytes payload) => some payload
  | _ => none

def packFile : Option Nat → FileName
  | none => .dense
  | some index => .experts index

/-- `experts-{index:03d}.qpack`. -/
def packName (index : Nat) : String :=
  let digits := toString index
  "experts-" ++ "".pushn '0' (3 - digits.length) ++ digits ++ ".qpack"

/-- The packs of the entries, in the order of their names. -/
def packIndices (experts : List (ExpertEntry Fields)) : List Nat :=
  (experts.map fun entry => entry.pack).dedup.insertionSort fun index other =>
    packName index ≤ packName other

/-- The records of a pack one after the other; how many bytes they take. -/
def coverage {α : Type} (offset storedBytes : α → Nat) (valid : α → Bool) : Nat → List α → Option Nat
  | cursor, [] => some cursor
  | cursor, entry :: rest =>
    if offset entry = cursor ∧ valid entry then
      coverage offset storedBytes valid (cursor + storedBytes entry) rest
    else none

namespace Compilation

variable (compilation : Compilation Tensor Expert Fields Rest)

def info (payload : List UInt8) : FileInfo :=
  { bytes := payload.length, sha256 := compilation.sha256 payload }

def marker (manifest : Manifest Fields Rest) : Marker where
  manifestContentSha256 := manifest.contentSha256
  manifestFileSha256 := compilation.fileSha256 manifest

def infoMatches (files : Directory Fields Rest) (file : FileName) (info : FileInfo) : Bool :=
  (payload files file).any fun payload => compilation.info payload = info

def validPack (files : Directory Fields Rest) (body : ManifestBody Fields Rest)
    (pack : PackInfo) : Bool :=
  match payload files (packFile pack.pack) with
  | none => false
  | some payload =>
    match pack.pack with
    | none =>
      let records := body.tensors.insertionSort fun entry other => entry.offset ≤ other.offset
      coverage DenseEntry.offset DenseEntry.storedBytes (compilation.validDense payload) 0
          records = some payload.length && records.length = pack.recordCount
    | some index =>
      let records := (body.experts.filter fun entry => entry.pack = index).insertionSort
        fun entry other => entry.offset ≤ other.offset
      coverage ExpertEntry.offset ExpertEntry.storedBytes (compilation.validExpert payload) 0
          records = some payload.length && records.length = pack.recordCount

/-- A pack file is in the index. -/
def indexed (packs : List (Option Nat)) (path : Path) : Bool :=
  match path with
  | ⟨.dense, false⟩ => none ∈ packs
  | ⟨.experts index, false⟩ => some index ∈ packs
  | _ => true

/-- `validate_container`. -/
def validateContainer (files : Directory Fields Rest) : Bool :=
  match files.get (.final .manifest), files.get (.final .completed) with
  | some (.manifest manifest), some (.marker marker) =>
    let body := manifest.body
    let packs : List (Option Nat) := body.packs.map fun pack => pack.pack
    manifest.contentSha256 = compilation.contentSha256 body &&
      marker = compilation.marker manifest &&
      (payload files .runtimeModel).any (fun payload =>
        compilation.info payload = body.modelProgram &&
          compilation.wellFormed manifest payload) &&
      decide packs.Nodup &&
      body.packs.all (fun pack =>
        compilation.infoMatches files (packFile pack.pack) pack.info) &&
      body.packs.all (compilation.validPack files body) &&
      (body.tensors.isEmpty || none ∈ packs) &&
      body.experts.all (fun entry => some entry.pack ∈ packs) &&
      files.all (fun entry => indexed packs entry.1) &&
      body.metadata.all fun entry => compilation.infoMatches files (.metadata entry.1) entry.2
  | _, _ => false

end Compilation

end QuantumLlm.ExpertPack
