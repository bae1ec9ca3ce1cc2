import QuantumLlm.Lib.Fallible
import QuantumLlm.Lib.Lines
import QuantumLlm.Runtime.Storage

/-!
# Expert catalogs

The index of one routed-expert component. It is read from two tables of text, one line for
each extent and one for each expert, or handed over record by record. What the source
throws is the text of an error here.
-/

namespace QuantumLlm.Runtime

open Fallible

/-- The digit of a character, of either case. -/
def nibble (subject : String) (value : Char) : Except String UInt8 :=
  if '0' ≤ value ∧ value ≤ '9' then .ok (UInt8.ofNat (value.toNat - '0'.toNat))
  else if 'a' ≤ value ∧ value ≤ 'f' then .ok (UInt8.ofNat (value.toNat - 'a'.toNat + 10))
  else if 'A' ≤ value ∧ value ≤ 'F' then .ok (UInt8.ofNat (value.toNat - 'A'.toNat + 10))
  else .error (subject ++ " SHA-256 contains an invalid digit")

/-- `digest` of the catalog and of the artifact, which differ in the subject of their texts. -/
def digestOf (subject : String) (text : String) : Except String Sha256Digest := do
  ensure (text.length = 64) (subject ++ " SHA-256 has the wrong length")
  let nibbles ← each (nibble subject) text.toList
  pure
    ⟨(List.range 32).map fun index =>
      (nibbles.getD (index * 2) 0 <<< 4) ||| nibbles.getD (index * 2 + 1) 0, by simp⟩

/-- `root / name`. -/
def child (root name : String) : String :=
  if root = "" ∨ root.toList.getLast? = some '/' then root ++ name else root ++ "/" ++ name

structure ExpertCatalogLayout where
  extentHeader : String
  catalogHeader : String
  extentsPerExpert : UInt64
  payloadIsCatalogRelative : Bool := false
  deriving DecidableEq

structure ExpertCatalogConfig where
  catalogRoot : String
  sourceRoot : String
  layerCount : UInt32
  expertsPerLayer : UInt32
  hiddenSize : UInt32
  intermediateSize : UInt32
  quantBlockSize : UInt32 := 0
  storedBytes : UInt64
  decodedBytes : UInt64
  deviceBytes : UInt64
  sourceAbi : UInt32
  recordAbi : UInt32 := 0
  headerBytes : UInt32 := 0
  alignment : UInt32
  layouts : List ExpertCatalogLayout

structure ExpertCatalog where
  records : List PayloadRecord := []
  sourceBytes : UInt64 := 0
  layers : UInt32 := 0
  experts : UInt32 := 0
  deriving DecidableEq

namespace ExpertCatalog

/-- A product of two 32-bit counts, which 64 bits hold. -/
def expertCount (config : ExpertCatalogConfig) : Nat :=
  config.layerCount.toNat * config.expertsPerLayer.toNat

def Valid (config : ExpertCatalogConfig) : Prop :=
  config.catalogRoot ≠ "" ∧ config.sourceRoot ≠ "" ∧ config.layerCount ≠ 0 ∧
    config.expertsPerLayer ≠ 0 ∧ config.hiddenSize ≠ 0 ∧ config.intermediateSize ≠ 0 ∧
    config.storedBytes ≠ 0 ∧ config.decodedBytes ≠ 0 ∧ config.deviceBytes ≠ 0 ∧
    config.sourceAbi ≠ 0 ∧ config.alignment ≠ 0 ∧ config.layouts.isEmpty = false ∧
    expertCount config ≤ 0xffffffffffffffff

instance (config : ExpertCatalogConfig) : Decidable (Valid config) := by
  unfold Valid
  infer_instance

/-- The lines that `getline` reads. Nothing comes behind the last newline. -/
def lines (text : String) : List String :=
  let pieces := Lines.split '\n' text
  if pieces.getLast? = some "" then pieces.dropLast else pieces

def fields (line : String) : List String := Lines.split '\t' line

/-- A file name: any other path has a root, or a parent. -/
def relativePath (text : String) : Except String String := do
  ensure (text ≠ "" ∧ '/' ∉ text.toList) "catalog source path is not a file name"
  ensure (text ≠ "..") "catalog source path escapes its root"
  pure text

def unsignedInteger (text : String) : Except String UInt64 :=
  match Lines.decimal? (2 ^ 64) text with
  | some value => .ok (UInt64.ofNat value)
  | none => .error "catalog integer is not canonical unsigned decimal"

def digest (text : String) : Except String Sha256Digest := digestOf "catalog" text

def readExtent (payloadRoot line : String) : Except String PayloadExtent :=
  match fields line with
  | [destination, bytes, source, path] => do
    let path ← relativePath path
    let sourceOffset ← unsignedInteger source
    let destinationOffset ← unsignedInteger destination
    let bytes ← unsignedInteger bytes
    pure { path := child payloadRoot path, sourceOffset, destinationOffset, bytes }
  | _ => .error "extent index row has the wrong shape"

/-- The whole extent index, with the layout that its header selects. -/
def readExtents (config : ExpertCatalogConfig) (input : Option String) :
    Except String (ExpertCatalogLayout × List PayloadExtent) :=
  match (input.map lines).getD [] with
  | [] => .error "extent index has no header"
  | header :: rows =>
    match config.layouts.find? (·.extentHeader = header) with
    | none => .error "extent index layout is unsupported"
    | some selected => do
      ensure (selected.catalogHeader ≠ "" ∧ selected.extentsPerExpert ≠ 0)
        "extent index layout is unsupported"
      let extents ← each (readExtent (if selected.payloadIsCatalogRelative
        then config.catalogRoot else config.sourceRoot)) rows
      ensure (extents.length =
          (UInt64.ofNat (expertCount config) * selected.extentsPerExpert).toNat)
        "extent index is incomplete"
      pure (selected, extents)

/-- The loop over the extents of a record: the offset behind the last one. -/
def contiguous : UInt64 → List PayloadExtent → Except String UInt64
  | offset, [] => .ok offset
  | offset, extent :: rest => do
    ensure (extent.destinationOffset = offset) "expert extents are not contiguous"
    contiguous (offset + extent.bytes) rest

/-- The extents of the expert at an index. -/
def extentsAt (selected : ExpertCatalogLayout) (extents : List PayloadExtent) (index : Nat) :
    List PayloadExtent :=
  (extents.drop (UInt64.ofNat index * selected.extentsPerExpert).toNat).take
    selected.extentsPerExpert.toNat

def readRow (config : ExpertCatalogConfig) (selected : ExpertCatalogLayout)
    (extents : List PayloadExtent) (expectedIndex : Nat) (line : String) :
    Except String PayloadRecord :=
  match fields line with
  | [layer, expert, stored, sha256, first, count] => do
    let layer ← unsignedInteger layer
    let expert ← unsignedInteger expert
    let stored ← unsignedInteger stored
    let first ← unsignedInteger first
    let count ← unsignedInteger count
    ensure (layer.toNat = expectedIndex / config.expertsPerLayer.toNat ∧
        expert.toNat = expectedIndex % config.expertsPerLayer.toNat ∧
        stored = config.storedBytes ∧
        first = UInt64.ofNat expectedIndex * selected.extentsPerExpert ∧
        count = selected.extentsPerExpert ∧ (first + count).toNat ≤ extents.length)
      "catalog ordering or geometry is invalid"
    let assigned := (extents.drop first.toNat).take count.toNat
    let destinationOffset ← contiguous 0 assigned
    ensure (destinationOffset = stored) "expert extents do not cover the record"
    let payloadSha256 ← digest sha256
    pure
      { extents := assigned
        storedBytes := stored
        decodedBytes := config.decodedBytes
        deviceBytes := config.deviceBytes
        hidden := config.hiddenSize
        intermediate := config.intermediateSize
        quantBlockSize := config.quantBlockSize
        sourceAbi := config.sourceAbi
        recordAbi := config.recordAbi
        headerBytes := config.headerBytes
        alignment := config.alignment
        payloadSha256 }
  | _ => .error "catalog row has the wrong shape"

/-- The rows of a catalog, each with its index. -/
def readRows (config : ExpertCatalogConfig) (selected : ExpertCatalogLayout)
    (extents : List PayloadExtent) (rows : List String) : Except String (List PayloadRecord) :=
  each (fun row => readRow config selected extents row.2 row.1) rows.zipIdx

def readCatalog (config : ExpertCatalogConfig) (extentInput catalogInput : Option String) :
    Except String ExpertCatalog := do
  let (selected, extents) ← readExtents config extentInput
  match (catalogInput.map lines).getD [] with
  | [] => .error "catalog header does not match extent layout"
  | header :: rows =>
    ensure (header = selected.catalogHeader) "catalog header does not match extent layout"
    let records ← readRows config selected extents rows
    ensure (records.length = expertCount config) "catalog is incomplete"
    pure
      { records
        sourceBytes := records.foldl (fun total record => total + record.storedBytes) 0
        layers := config.layerCount
        experts := config.expertsPerLayer }

/-- `ExpertCatalog::load`, by the contents of the two files; a file that cannot be opened has none. -/
def load (config : ExpertCatalogConfig) (extentInput catalogInput : Option String)
    (destination : ExpertCatalog) : Except Status ExpertCatalog := do
  ensure (destination.records = [])
    ⟨.invalidArgument, "expert catalog destination is not empty"⟩
  ensure (Valid config) ⟨.invalidArgument, "expert catalog config is invalid"⟩
  (readCatalog config extentInput catalogInput).mapError fun what =>
    ⟨.invalidArgument, "invalid expert catalog: " ++ what⟩

/-- The checks of `from_records`, carrying the byte count. -/
def countBytes : UInt64 → List PayloadRecord → Except Status UInt64
  | sourceBytes, [] => .ok sourceBytes
  | sourceBytes, record :: rest => do
    ensure (¬ (record.storedBytes = 0 ∨ record.sourceAbi = 0))
      ⟨.invalidArgument, "in-memory expert catalog contains an invalid record"⟩
    ensure (¬ sourceBytes > 0xffffffffffffffff - record.storedBytes)
      ⟨.invalidArgument, "in-memory expert catalog byte count overflows"⟩
    countBytes (sourceBytes + record.storedBytes) rest

/-- `ExpertCatalog::from_records`. -/
def fromRecords (layerCount expertsPerLayer : UInt32) (records : List PayloadRecord)
    (destination : ExpertCatalog) : Except Status ExpertCatalog := do
  ensure (¬ (destination.records ≠ [] ∨ layerCount = 0 ∨ expertsPerLayer = 0 ∨
      records.length ≠ layerCount.toNat * expertsPerLayer.toNat))
    ⟨.invalidArgument, "in-memory expert catalog cardinality is invalid"⟩
  let sourceBytes ← countBytes 0 records
  pure { records, sourceBytes, layers := layerCount, experts := expertsPerLayer }

/-- `ExpertCatalog::find`. -/
def find (catalog : ExpertCatalog) (layer expert : UInt32) : Option PayloadRecord :=
  if layer ≥ catalog.layers ∨ expert ≥ catalog.experts ∨
      catalog.records.length ≠ catalog.layers.toNat * catalog.experts.toNat then none
  else catalog.records[layer.toNat * catalog.experts.toNat + expert.toNat]?

end ExpertCatalog

end QuantumLlm.Runtime
