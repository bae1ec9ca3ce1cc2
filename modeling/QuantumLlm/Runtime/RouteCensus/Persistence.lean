import QuantumLlm.Lib.Decoder
import QuantumLlm.Runtime.RouteCensus.Consistency

/-!
# Stored route censuses

The bytes a census is stored as and the reader that authenticates and checks
them. Every check of the reader is an identity that reachable censuses keep, so
a stored census is always read back.
-/

namespace QuantumLlm.Runtime

open List

namespace RouteCensus

/-- `"QRTCENS1"`. -/
def kMagic : Bytes := [0x51, 0x52, 0x54, 0x43, 0x45, 0x4e, 0x53, 0x31]

def kVersion : UInt32 := 2

def kLegacyVersion : UInt32 := 1

/-! ## Layout -/

structure Header where
  magic : Bytes := kMagic
  version : UInt32 := kVersion
  generation : UInt64
  modelId : UInt64
  encodingAbi : UInt32
  layerCount : UInt32
  expertsPerLayer : UInt32
  routeWidth : UInt32
  decayInterval : UInt64
  modelHash : Sha256Digest
  observation : UInt64
  completedRoutes : UInt64
  totalSelections : UInt64
  consecutiveReuse : UInt64
  cellCount : UInt64

def putHeader (header : Header) : Bytes :=
  header.magic ++ (putU32 header.version ++ (putU64 header.generation ++ (putU64 header.modelId ++
  (putU32 header.encodingAbi ++ (putU32 header.layerCount ++ (putU32 header.expertsPerLayer ++
  (putU32 header.routeWidth ++ (putU64 header.decayInterval ++ (header.modelHash.bytes ++
  (putU64 header.observation ++ (putU64 header.completedRoutes ++
  (putU64 header.totalSelections ++ (putU64 header.consecutiveReuse ++
  putU64 header.cellCount)))))))))))))

def takeHeader : Reader Header := do
  let magic ← takeBytes kMagic.length
  let version ← takeU32
  let generation ← takeU64
  let modelId ← takeU64
  let encodingAbi ← takeU32
  let layerCount ← takeU32
  let expertsPerLayer ← takeU32
  let routeWidth ← takeU32
  let decayInterval ← takeU64
  let modelHash ← takeDigest
  let observation ← takeU64
  let completedRoutes ← takeU64
  let totalSelections ← takeU64
  let consecutiveReuse ← takeU64
  let cellCount ← takeU64
  pure { magic, version, generation, modelId, encodingAbi, layerCount, expertsPerLayer,
         routeWidth, decayInterval, modelHash, observation, completedRoutes, totalSelections,
         consecutiveReuse, cellCount }

def putCell (cell : Cell) : Bytes :=
  putU64 cell.total ++ (putU64 cell.heatQ20 ++ (putU64 cell.heatObservation ++
  (putU64 cell.lastSeen ++ (putU64 cell.cpu ++ putU64 cell.gpu))))

def takeCell : Reader Cell := do
  let total ← takeU64
  let heatQ20 ← takeU64
  let heatObservation ← takeU64
  let lastSeen ← takeU64
  let cpu ← takeU64
  let gpu ← takeU64
  pure { total, heatQ20, heatObservation, lastSeen, cpu, gpu }

def putLayer (layer : LayerState) : Bytes :=
  putU64 layer.observations ++ (putU64 layer.consecutiveReuse ++
  layer.previousRoute.flatMap putU32)

def putTransitions (transitions : List UInt32) : Bytes :=
  putU64 (UInt64.ofNat transitions.length) ++ transitions.flatMap putU32

def header (census : RouteCensus) (generation : UInt64) : Header where
  generation
  modelId := census.config.modelId
  encodingAbi := census.config.encodingAbi
  layerCount := census.config.layerCount
  expertsPerLayer := census.config.expertsPerLayer
  routeWidth := census.config.routeWidth
  decayInterval := census.config.decayIntervalObservations
  modelHash := census.config.modelContentHash
  observation := census.observation
  completedRoutes := census.completedRoutes
  totalSelections := census.totalSelections
  consecutiveReuse := census.consecutiveReuseSelections
  cellCount := UInt64.ofNat census.cells.length

def payload (census : RouteCensus) (generation : UInt64) : Bytes :=
  putHeader (census.header generation) ++ (census.cells.flatMap putCell ++
  (census.layers.flatMap putLayer ++ putTransitions census.transitions))

variable (sha256 : Bytes → Sha256Digest)

def serialize (census : RouteCensus) (generation : UInt64) : Bytes :=
  sealed sha256 (census.payload generation)

/-! ## Reading back -/

/-- The stored census is of another model, geometry or schema. -/
def Header.mismatched (header : Header) (expected : RouteCensusConfig) : Bool :=
  header.magic ≠ kMagic || (header.version ≠ kVersion && header.version ≠ kLegacyVersion) ||
    header.generation = 0 || header.encodingAbi ≠ expected.encodingAbi ||
    header.layerCount ≠ expected.layerCount ||
    header.expertsPerLayer ≠ expected.expertsPerLayer ||
    header.routeWidth ≠ expected.routeWidth ||
    header.decayInterval ≠ expected.decayIntervalObservations ||
    header.modelHash ≠ expected.modelContentHash ||
    header.cellCount ≠ expected.layerCount.toUInt64 * expected.expertsPerLayer.toUInt64

def upperBound (expected : RouteCensusConfig) : Nat :=
  264 + expected.cellCount * 48 + expected.layers * (16 + 4 * expected.width) +
    expected.transitionCount * 4

def cellInvalid : Status := ⟨.ioFailed, "route census cell is invalid or truncated"⟩

def layerInvalid : Status := ⟨.ioFailed, "route census layer state is invalid"⟩

def routeInvalid : Status := ⟨.ioFailed, "route census previous route is invalid"⟩

def decodeCell (observation : UInt64) : Decoder Status Cell := do
  let cell ← takeCell.orFail cellInvalid
  Decoder.ensure (cell.invalid observation = false) cellInvalid
  pure cell

def decodeExpert (expected : RouteCensusConfig) : Decoder Status UInt32 := do
  let expert ← takeU32.orFail routeInvalid
  Decoder.ensure (expert < expected.expertsPerLayer) routeInvalid
  pure expert

def decodeLayer (expected : RouteCensusConfig) : Decoder Status LayerState := do
  let observations ← takeU64.orFail layerInvalid
  let consecutiveReuse ← takeU64.orFail layerInvalid
  Decoder.ensure (({ observations, consecutiveReuse } : LayerState).invalid expected = false)
    layerInvalid
  let previousRoute ← takeMany (decodeExpert expected) expected.width
  pure { observations, consecutiveReuse, previousRoute }

def decodeTransitions (expected : RouteCensusConfig) : Decoder Status (List UInt32) := do
  let count ← takeU64.orFail ⟨.ioFailed, "route census transition header is invalid"⟩
  Decoder.ensure (count = UInt64.ofNat expected.transitionCount)
    ⟨.ioFailed, "route census transition header is invalid"⟩
  takeMany (takeU32.orFail ⟨.ioFailed, "route census transition table is truncated"⟩)
    expected.transitionCount

/-- The aggregates that `decode_file` compares last. -/
def balanced (census : RouteCensus) : Bool :=
  census.observation = census.completedRoutes &&
    saturatedSum (census.layers.map (·.observations)) = census.completedRoutes &&
    saturatedSum (census.cells.map (·.total)) = census.totalSelections &&
    saturatedSum (census.layers.map (·.consecutiveReuse)) = census.consecutiveReuseSelections

/-- The earlier version stores no transitions; those of a new census are zero. -/
def decodeTable (expected : RouteCensusConfig) (version : UInt32) : Decoder Status (List UInt32) :=
  if version = kVersion then decodeTransitions expected
  else pure (List.replicate expected.transitionCount 0)

def restored (expected : RouteCensusConfig) (hvalid : expected.valid = true) (header : Header)
    (cells : List Cell) (layers : List LayerState) (transitions : List UInt32) : RouteCensus where
  config := expected
  configValid := hvalid
  cells
  layers
  transitions
  generation := header.generation
  observation := header.observation
  completedRoutes := header.completedRoutes
  totalSelections := header.totalSelections
  consecutiveReuseSelections := header.consecutiveReuse

/-- The fields after the authentication, and whether the namespace is rebound. -/
def decodePayload (expected : RouteCensusConfig) (hvalid : expected.valid = true) :
    Decoder Status (RouteCensus × Bool) := do
  let header ← takeHeader.orFail ⟨.ioFailed, "route census header is truncated"⟩
  Decoder.ensure (header.mismatched expected = false)
    ⟨.invalidArgument, "route census model or schema identity mismatch"⟩
  let cells ← takeMany (decodeCell header.observation) expected.cellCount
  let layers ← takeMany (decodeLayer expected) expected.layers
  let transitions ← decodeTable expected header.version
  let left ← unread
  Decoder.ensure (left = 0 ∧ (restored expected hvalid header cells layers transitions).balanced = true)
    ⟨.ioFailed, "route census aggregate accounting mismatch"⟩
  pure (restored expected hvalid header cells layers transitions,
    header.modelId ≠ expected.modelId)

/-- `decode_file` on the contents of the file. `load`, its caller, has checked
the configuration. -/
def decodeFile (expected : RouteCensusConfig) (hvalid : expected.valid = true) (bytes : Bytes) :
    Except Status (RouteCensus × Bool) :=
  if bytes.length < 128 ∨ bytes.length > upperBound expected then
    .error ⟨.ioFailed, "invalid route census file size"⟩
  else if bytes.length ≤ kDigestBytes then
    .error ⟨.checksumMismatch, "route census authentication is absent"⟩
  else if ¬ Authentic sha256 bytes then
    .error ⟨.checksumMismatch, "route census checksum mismatch"⟩
  else
    match (decodePayload expected hvalid).run (payloadOf bytes) with
    | .ok (result, _) => .ok result
    | .error status => .error status

theorem reads_header : Reads takeHeader putHeader fun header => header.magic.length = 8 := by
  intro bytes value rest
  simp only [takeHeader, run_bind_iff, run_pure_iff, (reads_takeBytes _).run_iff,
    reads_u32.run_iff, reads_u64.run_iff, reads_digest.run_iff, true_and]
  constructor
  · rintro ⟨magic, _, ⟨hmagic, rfl⟩, version, _, rfl, generation, _, rfl, modelId, _, rfl,
      encodingAbi, _, rfl, layerCount, _, rfl, expertsPerLayer, _, rfl, routeWidth, _, rfl,
      decayInterval, _, rfl, modelHash, _, rfl, observation, _, rfl, completedRoutes, _, rfl,
      totalSelections, _, rfl, consecutiveReuse, _, rfl, cellCount, _, rfl, rfl, rfl⟩
    refine ⟨hmagic, ?_⟩
    simp only [putHeader, append_assoc, id_eq]
  · rintro ⟨hmagic, rfl⟩
    simp only [putHeader, append_assoc]
    exact ⟨_, _, ⟨hmagic, rfl⟩, _, _, rfl, _, _, rfl, _, _, rfl, _, _, rfl, _, _, rfl, _, _, rfl,
      _, _, rfl, _, _, rfl, _, _, rfl, _, _, rfl, _, _, rfl, _, _, rfl, _, _, rfl, _, _, rfl, rfl,
      rfl⟩

theorem reads_cell : Reads takeCell putCell fun _ => True := by
  intro bytes value rest
  simp only [takeCell, run_bind_iff, run_pure_iff, reads_u64.run_iff, true_and]
  constructor
  · rintro ⟨total, _, rfl, heat, _, rfl, heatObservation, _, rfl, lastSeen, _, rfl, cpu, _, rfl,
      gpu, _, rfl, rfl, rfl⟩
    simp only [putCell, append_assoc]
  · rintro rfl
    exact ⟨_, _, rfl, _, _, rfl, _, _, rfl, _, _, rfl, _, _, rfl, _, _, rfl, rfl, rfl⟩

theorem decodes_cell (observation : UInt64) : Decodes (decodeCell observation) putCell
    fun cell => True ∧ cell.invalid observation = false :=
  (Decodes.orFail reads_cell cellInvalid).ensure _ _

theorem decodes_expert (expected : RouteCensusConfig) : Decodes (decodeExpert expected) putU32
    fun expert => True ∧ expert < expected.expertsPerLayer :=
  (Decodes.orFail reads_u32 routeInvalid).ensure _ _

/-- A layer state that is read back. -/
def LayerState.Stored (expected : RouteCensusConfig) (layer : LayerState) : Prop :=
  layer.invalid expected = false ∧ layer.previousRoute.length = expected.width ∧
    ∀ expert ∈ layer.previousRoute, True ∧ expert < expected.expertsPerLayer

theorem decodes_layer (expected : RouteCensusConfig) :
    Decodes (decodeLayer expected) putLayer (LayerState.Stored expected) := by
  intro bytes value rest
  simp only [decodeLayer, decode_bind_iff, decode_ensure_iff, decode_pure_iff, decode_orFail_iff]
  constructor
  · rintro ⟨observations, b1, h1, reuse, b2, h2, passed, b3, ⟨hvalid, rfl⟩, route, b4, hroute, rfl,
      rfl⟩
    obtain ⟨-, rfl⟩ := reads_u64.run_iff.1 h1
    obtain ⟨-, rfl⟩ := reads_u64.run_iff.1 h2
    obtain ⟨hstored, rfl⟩ := ((decodes_expert expected).takeMany _ _ _ _).1 hroute
    refine ⟨⟨hvalid, hstored⟩, ?_⟩
    simp only [putLayer, append_assoc]
  · rintro ⟨⟨hvalid, hstored⟩, rfl⟩
    have hroute := ((decodes_expert expected).takeMany expected.width).run_append rest hstored
    exact ⟨_, _, takeU64_put _ _, _, _, takeU64_put _ _, (), _, ⟨hvalid, rfl⟩, _, _, hroute, rfl, rfl⟩

theorem decodes_transitions (expected : RouteCensusConfig) :
    Decodes (decodeTransitions expected) putTransitions
      fun transitions => transitions.length = expected.transitionCount := by
  intro bytes value rest
  have hmany := (Decodes.orFail reads_u32
    (⟨.ioFailed, "route census transition table is truncated"⟩ : Status)).takeMany
      expected.transitionCount
  simp only [decodeTransitions, decode_bind_iff, decode_ensure_iff, decode_orFail_iff]
  constructor
  · rintro ⟨count, b1, h1, passed, b2, ⟨hcount, rfl⟩, htable⟩
    obtain ⟨-, rfl⟩ := reads_u64.run_iff.1 h1
    obtain ⟨⟨hlength, -⟩, rfl⟩ := (hmany _ _ _).1 htable
    refine ⟨hlength, ?_⟩
    rw [putTransitions, hlength, ← hcount, append_assoc]
  · rintro ⟨hlength, rfl⟩
    rw [putTransitions, hlength, append_assoc]
    exact ⟨_, _, takeU64_put _ _, (), _, ⟨rfl, rfl⟩,
      hmany.run_append rest ⟨hlength, fun _ _ => trivial⟩⟩

/-! ## Round trip -/

end RouteCensus

/-- The configuration under another model namespace. -/
def RouteCensusConfig.relocated (config : RouteCensusConfig) (modelId : UInt64) :
    RouteCensusConfig := { config with modelId }

namespace RouteCensus

/-- The census under the configuration and generation it is read back with. -/
def rebound (census : RouteCensus) (expected : RouteCensusConfig) (hvalid : expected.valid = true)
    (generation : UInt64) : RouteCensus :=
  { census with config := expected, configValid := hvalid, generation }

variable {sha256} {census : RouteCensus} {generation modelId : UInt64}
  {expected : RouteCensusConfig} {hvalid : expected.valid = true}

theorem cellCount_ofNat (config : RouteCensusConfig) : UInt64.ofNat config.cellCount =
    config.layerCount.toUInt64 * config.expertsPerLayer.toUInt64 := by
  rfl

theorem header_matches (h : Consistent census) (hgeneration : generation ≠ 0) :
    (census.header generation).mismatched (census.config.relocated modelId) = false := by
  have hcells : UInt64.ofNat census.cells.length =
      census.config.layerCount.toUInt64 * census.config.expertsPerLayer.toUInt64 := by
    rw [h.cellCount, cellCount_ofNat]
  simp [Header.mismatched, header, RouteCensusConfig.relocated, hgeneration, hcells]

theorem balanced_iff : census.balanced = true ↔ census.observation = census.completedRoutes ∧
    saturatedSum (census.layers.map (·.observations)) = census.completedRoutes ∧
    saturatedSum (census.cells.map (·.total)) = census.totalSelections ∧
    saturatedSum (census.layers.map (·.consecutiveReuse)) = census.consecutiveReuseSelections := by
  simp only [balanced, Bool.and_eq_true, decide_eq_true_eq, and_assoc]

section

variable (h : Consistent census)

include h

theorem Consistent.balanced : census.balanced = true :=
  balanced_iff.2 ⟨h.completed, h.observed, h.selected, h.reuse⟩

theorem Consistent.stored_cells :
    ∀ cell ∈ census.cells, True ∧ cell.invalid census.observation = false :=
  fun cell hcell => ⟨trivial, h.cells cell hcell⟩

theorem Consistent.stored_layers (modelId : UInt64) :
    ∀ layer ∈ census.layers, LayerState.Stored (census.config.relocated modelId) layer := by
  intro layer hlayer
  obtain ⟨hwidth, hexperts⟩ := h.routes layer hlayer
  exact ⟨h.layers layer hlayer, hwidth, fun expert hexpert => ⟨trivial, hexperts expert hexpert⟩⟩

theorem decodePayload_payload (hgeneration : generation ≠ 0)
    (hexpected : (census.config.relocated modelId).valid = true) :
    (decodePayload (census.config.relocated modelId) hexpected).run (census.payload generation) =
      .ok ((census.rebound (census.config.relocated modelId) hexpected generation,
        decide (census.config.modelId ≠ modelId)), []) := by
  have hmismatch := @header_matches census generation modelId h hgeneration
  have htable : (decodeTable (census.config.relocated modelId) kVersion).run
      (putTransitions census.transitions ++ []) = .ok (census.transitions, []) := by
    exact (decodes_transitions _).run_append [] h.transitionCount
  have hlayers := ((decodes_layer (census.config.relocated modelId)).takeMany
    census.config.layers).run_append (putTransitions census.transitions ++ [])
      ⟨h.layerCount, h.stored_layers modelId⟩
  have hcells := ((decodes_cell census.observation).takeMany census.config.cellCount).run_append
      (census.layers.flatMap putLayer ++ (putTransitions census.transitions ++ []))
      ⟨h.cellCount, h.stored_cells⟩
  unfold decodePayload
  simp only [decode_bind_iff, decode_ensure_iff, decode_pure_iff, decode_orFail_iff,
    decode_unread_iff]
  have hbytes : census.payload generation = putHeader (census.header generation) ++
      (census.cells.flatMap putCell ++ (census.layers.flatMap putLayer ++
        (putTransitions census.transitions ++ []))) := by
    rw [append_nil]
    rfl
  rw [hbytes]
  exact ⟨census.header generation, _, reads_header.run_append rfl, (), _, ⟨hmismatch, rfl⟩,
    census.cells, _, hcells, census.layers, _, hlayers, census.transitions, _, htable, 0, _,
    ⟨rfl, rfl⟩, (), _, ⟨⟨rfl, h.balanced⟩, rfl⟩, rfl, rfl⟩

end

theorem length_flatMap_of_forall {α : Type} {values : List α} {write : α → Bytes} {size : Nat}
    (h : ∀ value ∈ values, (write value).length = size) :
    (values.flatMap write).length = values.length * size := by
  induction values with
  | nil => simp
  | cons value rest ih =>
    rw [forall_mem_cons] at h
    rw [flatMap_cons, length_append, ih h.2, h.1, length_cons, Nat.add_one_mul]
    omega

theorem putLayer_length {layer : LayerState} (h : layer.previousRoute.length = expected.width) :
    (putLayer layer).length = 16 + expected.width * 4 := by
  have hroute := @length_flatMap_of_forall _ layer.previousRoute putU32 4
    fun expert _ => putU32_length expert
  rw [putLayer, length_append, length_append, putU64_length, putU64_length, hroute, h]
  omega

theorem payload_length (h : Consistent census) : (census.payload generation).length =
    132 + census.config.cellCount * 48 + census.config.layers * (16 + census.config.width * 4) +
      census.config.transitionCount * 4 := by
  have hcells := @length_flatMap_of_forall _ census.cells putCell 48 fun cell _ => by
    simp [putCell]
  have hlayers := @length_flatMap_of_forall _ census.layers putLayer
    (16 + census.config.width * 4) fun layer hlayer => putLayer_length (h.routes layer hlayer).1
  have htransitions := @length_flatMap_of_forall _ census.transitions putU32 4
    fun count _ => putU32_length count
  have hheader : (putHeader (census.header generation)).length = 124 := by
    simp [putHeader, header, kMagic, Sha256Digest.length_eq]
  rw [payload, putTransitions, length_append, length_append, length_append,
    length_append, hheader, hcells, hlayers, htransitions, putU64_length, h.cellCount,
    h.layerCount, h.transitionCount]
  omega

theorem decodeFile_serialize (h : Consistent census) (hgeneration : generation ≠ 0)
    (hexpected : (census.config.relocated modelId).valid = true) :
    decodeFile sha256 (census.config.relocated modelId) hexpected
        (census.serialize sha256 generation) =
      .ok (census.rebound (census.config.relocated modelId) hexpected generation,
        decide (census.config.modelId ≠ modelId)) := by
  have hlength : (census.serialize sha256 generation).length = 164 +
      census.config.cellCount * 48 + census.config.layers * (16 + 4 * census.config.width) +
        census.config.transitionCount * 4 := by
    rw [serialize, sealed_length, payload_length h, Nat.mul_comm 4]
    omega
  have hbound : upperBound (census.config.relocated modelId) = 264 +
      census.config.cellCount * 48 + census.config.layers * (16 + 4 * census.config.width) +
        census.config.transitionCount * 4 := rfl
  have hauthentic : Authentic sha256 (census.serialize sha256 generation) := authentic_sealed
  have hpayload : payloadOf (census.serialize sha256 generation) = census.payload generation :=
    payloadOf_sealed
  have hsize : ¬ ((census.serialize sha256 generation).length < 128 ∨
      (census.serialize sha256 generation).length >
        upperBound (census.config.relocated modelId)) := by
    omega
  have hdigest : ¬ (census.serialize sha256 generation).length ≤ kDigestBytes := by
    rw [hlength, kDigestBytes]
    omega
  rw [decodeFile, if_neg hsize, if_neg hdigest, if_neg (not_not.2 hauthentic), hpayload,
    decodePayload_payload h hgeneration hexpected]

variable {bytes rest : Bytes} {changed : Bool}

theorem decodeTable_length {version : UInt32} {transitions : List UInt32}
    (h : (decodeTable expected version).run bytes = .ok (transitions, rest)) :
    transitions.length = expected.transitionCount := by
  unfold decodeTable at h
  split at h
  next => exact ((decodes_transitions expected _ _ _).1 h).1
  next =>
    rw [decode_pure_iff] at h
    rw [← h.1, length_replicate]

theorem decodePayload_consistent
    (h : (decodePayload expected hvalid).run bytes = .ok ((census, changed), rest)) :
    Consistent census ∧ census.config = expected := by
  unfold decodePayload at h
  simp only [decode_bind_iff, decode_ensure_iff, decode_pure_iff, decode_orFail_iff,
    decode_unread_iff, Prod.mk.injEq] at h
  obtain ⟨header, b1, -, -, b2, -, cells, b3, hcells, layers, b4, hlayers, transitions, b5,
    htable, left, b6, -, -, b7, ⟨⟨-, hbalanced⟩, -⟩, ⟨rfl, -⟩, -⟩ := h
  obtain ⟨⟨hcellCount, hcellsValid⟩, -⟩ :=
    ((decodes_cell header.observation).takeMany _ _ _ _).1 hcells
  obtain ⟨⟨hlayerCount, hlayersStored⟩, -⟩ := ((decodes_layer expected).takeMany _ _ _ _).1 hlayers
  obtain ⟨hcompleted, hobserved, hselected, hreuse⟩ := balanced_iff.1 hbalanced
  refine ⟨?_, rfl⟩
  exact
    { cellCount := hcellCount
      layerCount := hlayerCount
      transitionCount := decodeTable_length htable
      routes := fun layer hlayer =>
        ⟨(hlayersStored layer hlayer).2.1, fun expert hexpert =>
          ((hlayersStored layer hlayer).2.2 expert hexpert).2⟩
      cells := fun cell hcell => (hcellsValid cell hcell).2
      layers := fun layer hlayer => (hlayersStored layer hlayer).1
      completed := hcompleted
      observed := hobserved
      selected := hselected
      reuse := hreuse }

theorem decodeFile_consistent
    (h : decodeFile sha256 expected hvalid bytes = .ok (census, changed)) :
    Consistent census ∧ census.config = expected := by
  unfold decodeFile at h
  split at h
  next => cases h
  next =>
    split at h
    next => cases h
    next =>
      split at h
      next => cases h
      next =>
        split at h
        next hrun =>
          cases h
          exact decodePayload_consistent hrun
        next => cases h

/-- Persistence of every reachable census: it starts fresh or from a stored file,
observes, and is then stored and read under the same model, possibly relocated.
The checks of the reader are identities of the census, and nothing is lost. -/
theorem stored_census_round_trips {config : RouteCensusConfig} {valid : config.valid = true}
    {start : RouteCensus} {observations : List Observation}
    (hstart : start = fresh config valid ∨
      ∃ bytes changed, decodeFile sha256 config valid bytes = .ok (start, changed))
    (hroom : Headroom start observations.length)
    (hrun : runActions observeAccepted start observations = some census)
    (hgeneration : generation ≠ 0) (hexpected : (config.relocated modelId).valid = true) :
    Consistent census ∧
      decodeFile sha256 (config.relocated modelId) hexpected (census.serialize sha256 generation) =
        .ok (census.rebound (config.relocated modelId) hexpected generation,
          decide (config.modelId ≠ modelId)) := by
  have hconsistent : Consistent start ∧ start.config = config := by
    rcases hstart with rfl | ⟨bytes, changed, hdecode⟩
    · exact ⟨consistent_fresh valid, rfl⟩
    · exact decodeFile_consistent hdecode
  obtain ⟨hcensus, hconfig, -⟩ := hconsistent.1.observations hroom hrun
  rw [hconsistent.2] at hconfig
  subst hconfig
  exact ⟨hcensus, decodeFile_serialize hcensus hgeneration hexpected⟩

/-- One layer of two experts, routed to one at a time. -/
def smallConfig : RouteCensusConfig where
  modelId := 7
  modelContentHash := ⟨List.replicate 32 1, oneBytes_length⟩
  encodingAbi := 1
  layerCount := 1
  expertsPerLayer := 2
  routeWidth := 1

theorem smallConfig_valid : smallConfig.valid = true := by decide +kernel

theorem two_routes_round_trip : ∃ census,
    runActions observeAccepted (fresh smallConfig smallConfig_valid)
        [⟨0, [1], []⟩, ⟨0, [1], [1]⟩] = some census ∧
      decodeFile (fun _ => ⟨List.replicate 32 0, rfl⟩) (smallConfig.relocated 8) (by decide +kernel)
          (census.serialize (fun _ => ⟨List.replicate 32 0, rfl⟩) 1) =
        .ok (census.rebound (smallConfig.relocated 8) (by decide +kernel) 1, true) := by
  have hsome : (runActions observeAccepted (fresh smallConfig smallConfig_valid)
      [⟨0, [1], []⟩, ⟨0, [1], [1]⟩]).isSome = true := by decide +kernel
  obtain ⟨census, hrun⟩ := Option.isSome_iff_exists.1 hsome
  have hexpected : (smallConfig.relocated 8).valid = true := by decide +kernel
  have hroom : Headroom (fresh smallConfig smallConfig_valid)
      ([⟨0, [1], []⟩, ⟨0, [1], [1]⟩] : List Observation).length :=
    ⟨by decide +kernel, by decide +kernel⟩
  have hround := (@stored_census_round_trips (fun _ => ⟨List.replicate 32 0, rfl⟩) census 1 8
    smallConfig smallConfig_valid _ _ (Or.inl rfl) hroom hrun (by decide) hexpected).2
  exact ⟨census, hrun, hround⟩

end RouteCensus

end QuantumLlm.Runtime
