import QuantumLlm.Runtime.Sha256

/-!
# Route census

Which experts each layer routed to, how often, how recently and on which
device: the tables, and the observation that updates them. All counters are
fixed width and saturate.
-/

namespace QuantumLlm.Runtime

namespace RouteCensus

def kHeatUnitQ20 : UInt64 := 1048576

/-- `std::numeric_limits<std::uint64_t>::max()`. -/
def kMaximumU64 : UInt64 := 0xffffffffffffffff

/-- `std::numeric_limits<std::uint32_t>::max()`. -/
def kMaximumU32 : UInt32 := 0xffffffff

def saturatedAdd (left right : UInt64) : UInt64 :=
  if right > kMaximumU64 - left then kMaximumU64 else left + right

end RouteCensus

structure RouteCensusConfig where
  modelId : UInt64 := 0
  modelContentHash : Sha256Digest
  encodingAbi : UInt32 := 0
  layerCount : UInt32 := 0
  expertsPerLayer : UInt32 := 0
  routeWidth : UInt32 := 0
  decayIntervalObservations : UInt64 := 4096
  deriving DecidableEq

namespace RouteCensusConfig

/-- `valid_config`. A table of at most `10 ^ 6` cells has a transition count
that does not wrap around. -/
def valid (config : RouteCensusConfig) : Bool :=
  let cells := config.layerCount.toUInt64 * config.expertsPerLayer.toUInt64
  let transitions := cells * config.expertsPerLayer.toUInt64
  config.modelId ≠ 0 && nonzeroDigest config.modelContentHash && config.encodingAbi ≠ 0 &&
    config.layerCount ≠ 0 && config.expertsPerLayer ≠ 0 && config.routeWidth ≠ 0 &&
    config.routeWidth ≤ config.expertsPerLayer && config.decayIntervalObservations ≠ 0 &&
    cells ≤ 1000000 && transitions ≤ 8000000

def layers (config : RouteCensusConfig) : Nat := config.layerCount.toNat

def experts (config : RouteCensusConfig) : Nat := config.expertsPerLayer.toNat

def width (config : RouteCensusConfig) : Nat := config.routeWidth.toNat

def cellCount (config : RouteCensusConfig) : Nat := config.layers * config.experts

def transitionCount (config : RouteCensusConfig) : Nat :=
  config.layers * config.experts * config.experts

end RouteCensusConfig

namespace RouteCensus

structure Cell where
  total : UInt64 := 0
  heatQ20 : UInt64 := 0
  heatObservation : UInt64 := 0
  lastSeen : UInt64 := 0
  cpu : UInt64 := 0
  gpu : UInt64 := 0
  deriving DecidableEq

structure LayerState where
  observations : UInt64 := 0
  consecutiveReuse : UInt64 := 0
  previousRoute : List UInt32 := []
  deriving DecidableEq

end RouteCensus

/-- A census exists for valid configurations only; the constructor throws otherwise. -/
structure RouteCensus where
  config : RouteCensusConfig
  configValid : config.valid = true
  cells : List RouteCensus.Cell
  layers : List RouteCensus.LayerState
  transitions : List UInt32
  generation : UInt64 := 0
  observation : UInt64 := 0
  completedRoutes : UInt64 := 0
  totalSelections : UInt64 := 0
  consecutiveReuseSelections : UInt64 := 0
  deriving DecidableEq

namespace RouteCensus

/-- `RouteCensus::RouteCensus`: value-initialized tables. -/
def fresh (config : RouteCensusConfig) (configValid : config.valid = true) : RouteCensus where
  config
  configValid
  cells := List.replicate config.cellCount {}
  layers := List.replicate config.layers { previousRoute := List.replicate config.width 0 }
  transitions := List.replicate config.transitionCount 0

def effectiveHeat (census : RouteCensus) (cell : Cell) : UInt64 :=
  if cell.heatQ20 = 0 ∨ census.observation ≤ cell.heatObservation then cell.heatQ20
  else
    let shifts := (census.observation - cell.heatObservation) /
      census.config.decayIntervalObservations
    if shifts ≥ 64 then 0 else cell.heatQ20 >>> shifts

def setCounters (census : RouteCensus) (observation completedRoutes totalSelections : UInt64) :
    RouteCensus :=
  { census with observation, completedRoutes, totalSelections }

/-- The counters of the whole census. -/
def counted (census : RouteCensus) (selections : UInt64) : RouteCensus :=
  census.setCounters (saturatedAdd census.observation 1) (saturatedAdd census.completedRoutes 1)
    (saturatedAdd census.totalSelections selections)

def layerAt (census : RouteCensus) (layer : UInt32) : LayerState :=
  census.layers.getD layer.toNat {}

def transitionIndex (census : RouteCensus) (layer previous expert : UInt32) : Nat :=
  layer.toNat * census.config.experts * census.config.experts +
    previous.toNat * census.config.experts + expert.toNat

def cellIndex (census : RouteCensus) (layer expert : UInt32) : Nat :=
  layer.toNat * census.config.experts + expert.toNat

/-- One pair of a route and its successor. -/
def linked (layer previous : UInt32) (census : RouteCensus) (expert : UInt32) : RouteCensus :=
  { census with
    transitions := census.transitions.modify (census.transitionIndex layer previous expert)
      fun transition => if transition ≠ kMaximumU32 then transition + 1 else transition }

/-- An expert that the previous route of the layer already had. -/
def reused (layer : UInt32) (previousRoute : List UInt32) (census : RouteCensus)
    (expert : UInt32) : RouteCensus :=
  if expert ∈ previousRoute then
    { census with
      layers := census.layers.modify layer.toNat fun state =>
        { state with consecutiveReuse := saturatedAdd state.consecutiveReuse 1 }
      consecutiveReuseSelections := saturatedAdd census.consecutiveReuseSelections 1 }
  else census

/-- A layer that has a previous route counts transitions and reuse. -/
def followed (census : RouteCensus) (layer : UInt32) (routedExperts : List UInt32) : RouteCensus :=
  let previousRoute := (census.layerAt layer).previousRoute
  if (census.layerAt layer).observations ≠ 0 then
    let census := previousRoute.foldl
      (fun census previous => routedExperts.foldl (linked layer previous) census) census
    routedExperts.foldl (reused layer previousRoute) census
  else census

def remembered (census : RouteCensus) (layer : UInt32) (routedExperts : List UInt32) :
    RouteCensus :=
  { census with
    layers := census.layers.modify layer.toNat fun state =>
      { state with
        observations := saturatedAdd state.observations 1
        previousRoute := routedExperts } }

def touchedCell (census : RouteCensus) (onCpu : Bool) (cell : Cell) : Cell where
  heatQ20 := saturatedAdd (census.effectiveHeat cell) kHeatUnitQ20
  heatObservation := census.observation
  total := saturatedAdd cell.total 1
  lastSeen := census.observation
  cpu := if onCpu then saturatedAdd cell.cpu 1 else cell.cpu
  gpu := if onCpu then cell.gpu else saturatedAdd cell.gpu 1

def touched (layer : UInt32) (cpuExperts : List UInt32) (census : RouteCensus)
    (expert : UInt32) : RouteCensus :=
  { census with
    cells := census.cells.modify (census.cellIndex layer expert)
      (census.touchedCell (expert ∈ cpuExperts)) }

/-- What an accepted observation does. -/
def recorded (census : RouteCensus) (layer : UInt32) (routedExperts cpuExperts : List UInt32) :
    RouteCensus :=
  let census := census.counted (UInt64.ofNat routedExperts.length)
  let census := (census.followed layer routedExperts).remembered layer routedExperts
  routedExperts.foldl (touched layer cpuExperts) census

/-- A check of every expert of a route walks the route. -/
local instance (priority := high) {holds : UInt32 → Prop} [DecidablePred holds]
    (route : List UInt32) : Decidable (∀ expert ∈ route, holds expert) :=
  List.decidableBAll holds route

def observe (census : RouteCensus) (layer : UInt32) (routedExperts cpuExperts : List UInt32) :
    Status × RouteCensus :=
  if layer ≥ census.config.layerCount ∨ routedExperts.length ≠ census.config.width ∨
      cpuExperts.length > routedExperts.length then
    (⟨.invalidArgument, "invalid route census observation"⟩, census)
  else if ¬ (routedExperts.Nodup ∧ ∀ expert ∈ routedExperts,
      expert < census.config.expertsPerLayer) then
    (⟨.invalidArgument, "route census expert is invalid or duplicated"⟩, census)
  else if ¬ (cpuExperts.Nodup ∧ ∀ expert ∈ cpuExperts, expert ∈ routedExperts) then
    (⟨.invalidArgument, "route census CPU selection is not a unique routed expert"⟩, census)
  else (.success, census.recorded layer routedExperts cpuExperts)

end RouteCensus

end QuantumLlm.Runtime
