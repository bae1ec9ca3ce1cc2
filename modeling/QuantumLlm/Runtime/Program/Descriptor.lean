import QuantumLlm.Lib.OrderedMap
import QuantumLlm.Runtime.Storage
import Mathlib.Data.String.Basic

/-!
# Model descriptors

The program an artifact declares: kernels, layers, operations and, from schema v3
on, the data flow between named values. `validateModelDescriptor` accepts or
names the first thing that is wrong.
-/

namespace QuantumLlm.Runtime.Program

def kModelLevelOperationLayer : UInt32 := 0xffffffff

structure RouterProgramDescriptor where
  capability : String := ""
  abiVersion : UInt32 := 1
  parameters : OrderedMap String UInt64 := .empty

structure RoutedExpertComponentDescriptor where
  name : String
  namespaceId : UInt64 := 0
  layerCount : UInt32 := 0
  expertsPerLayer : UInt32 := 0
  routeWidth : UInt32 := 0
  sharedExpertsPerLayer : UInt32 := 0
  hiddenSize : UInt32 := 0
  intermediateSize : UInt32 := 0
  executionCapability : String := ""
  executionAbi : UInt32 := 1
  sourceAbi : UInt32 := 0
  encodingAbi : UInt32 := 0
  encoding : String := ""
  attributes : OrderedMap String UInt64 := .empty
  router : RouterProgramDescriptor := {}

structure KernelRequirement where
  capability : String
  abiVersion : UInt32 := 1

structure LayerProgramDescriptor where
  logicalLayer : UInt32 := 0
  blockCapability : String
  blockAbiVersion : UInt32 := 1
  routedComponent : String := ""
  componentLayer : UInt32 := 0
  parameters : OrderedMap String UInt64 := .empty

/-- A named value and its ABI, at a port of an operation or as a program endpoint. -/
structure ValueBinding where
  value : String
  abi : String
  deriving DecidableEq

structure OperationProgramDescriptor where
  logicalOperation : UInt32 := 0
  logicalLayer : UInt32 := 0
  capability : String
  abiVersion : UInt32 := 1
  routedComponent : String := ""
  componentLayer : UInt32 := 0
  parameters : OrderedMap String UInt64 := .empty
  tensorBindings : OrderedMap String String := .empty
  inputBindings : OrderedMap String ValueBinding := .empty
  outputBindings : OrderedMap String ValueBinding := .empty

structure ExactDecodeProgramDescriptor where
  capability : String
  abiVersion : UInt32 := 1
  maximumEmittedTokens : UInt32 := 0
  parameters : OrderedMap String UInt64 := .empty
  tensorBindings : OrderedMap String String := .empty

structure ModelDescriptor where
  schemaVersion : UInt32 := 1
  architectureId : String
  contentHash : Sha256Digest := ⟨List.replicate 32 0, zeroBytes_length⟩
  vocabSize : UInt32 := 0
  maxContextTokens : UInt32 := 0
  hiddenSize : UInt32 := 0
  attributes : OrderedMap String UInt64 := .empty
  tensorBindings : OrderedMap String String := .empty
  routedComponents : List RoutedExpertComponentDescriptor := []
  requiredKernels : List KernelRequirement := []
  layerProgram : List LayerProgramDescriptor := []
  operationProgram : List OperationProgramDescriptor := []
  programInputs : OrderedMap String ValueBinding := .empty
  programOutputs : OrderedMap String ValueBinding := .empty
  exactDecodeProgram : Option ExactDecodeProgramDescriptor := none

/-- A check, with the text of the failure. -/
def require (holds : Prop) [Decidable holds] (message : String) : Except Status Unit :=
  if holds then .ok () else .error ⟨.invalidArgument, message⟩

/-- A loop whose rounds are independent checks. -/
def checkAll {α : Type} (check : α → Except Status Unit) : List α → Except Status Unit
  | [] => .ok ()
  | item :: rest => do
    check item
    checkAll check rest

@[simp] theorem require_ok_iff {holds : Prop} [Decidable holds] {message : String} {result : Unit} :
    require holds message = .ok result ↔ holds := by
  unfold require
  split <;> simp [*]

theorem bind_ok_iff {α β : Type} {first : Except Status α} {next : α → Except Status β}
    {result : β} :
    (first >>= next) = .ok result ↔ ∃ value, first = .ok value ∧ next value = .ok result := by
  cases first with
  | error status => simp [bind, Except.bind]
  | ok value => simp [bind, Except.bind]

@[simp] theorem pure_ok_iff {α : Type} {value result : α} :
    (pure value : Except Status α) = .ok result ↔ value = result := by
  simp [pure, Except.pure]

@[simp] theorem checkAll_ok_iff {α : Type} {check : α → Except Status Unit} {items : List α}
    {result : Unit} : checkAll check items = .ok result ↔ ∀ item ∈ items, check item = .ok () := by
  induction items with
  | nil => simp [checkAll]
  | cons item rest ih =>
    simp only [checkAll, bind_ok_iff, ih, List.mem_cons, forall_eq_or_imp]
    exact ⟨fun ⟨_, hitem, hrest⟩ => ⟨hitem, hrest⟩, fun ⟨hitem, hrest⟩ => ⟨(), hitem, hrest⟩⟩

def validAtom (text : String) : Bool :=
  text ≠ "" && !text.toList.any fun c => c = '\t' || c = '\r' || c = '\n'

def expertTableEntries (component : RoutedExpertComponentDescriptor) : UInt64 :=
  component.layerCount.toUInt64 * component.expertsPerLayer.toUInt64

def findRoutedComponent (descriptor : ModelDescriptor) (name : String) :
    Option RoutedExpertComponentDescriptor :=
  descriptor.routedComponents.find? (·.name = name)

def validateRoutedComponent (item : RoutedExpertComponentDescriptor) (modelHiddenSize : UInt32) :
    Except Status Unit := do
  require (¬ (item.name = "" ∨ item.namespaceId = 0 ∨ item.layerCount = 0 ∨
      item.expertsPerLayer = 0 ∨ item.routeWidth = 0 ∨ item.routeWidth > item.expertsPerLayer ∨
      item.hiddenSize = 0 ∨ item.intermediateSize = 0 ∨ item.sourceAbi = 0 ∨
      item.encodingAbi = 0 ∨ item.executionCapability = "" ∨ item.executionAbi = 0 ∨
      item.encoding = "" ∨ item.hiddenSize ≠ modelHiddenSize))
    "routed expert component geometry or identity is invalid"
  require (¬ expertTableEntries item > 0xffffffffffffffff / 128)
    "routed expert table exceeds addressable metadata"

def checkComponents (hiddenSize : UInt32) : List String → List UInt64 →
    List RoutedExpertComponentDescriptor → Except Status Unit
  | _, _, [] => .ok ()
  | names, namespaces, item :: rest => do
    validateRoutedComponent item hiddenSize
    require (item.name ∉ names ∧ item.namespaceId ∉ namespaces)
      "routed expert component geometry or identity is invalid"
    checkComponents hiddenSize (item.name :: names) (item.namespaceId :: namespaces) rest

abbrev KernelKey := String × UInt32

/-- The set of requirements, when they are valid and none is declared twice. -/
def checkRequirements : List KernelKey → List KernelRequirement → Except Status (List KernelKey)
  | seen, [] => .ok seen
  | seen, item :: rest => do
    require (¬ (item.capability = "" ∨ item.abiVersion = 0 ∨
        (item.capability, item.abiVersion) ∈ seen))
      "kernel requirement is invalid or duplicated"
    checkRequirements (seen ++ [(item.capability, item.abiVersion)]) rest

def checkTensorBindings (message : String) (bindings : OrderedMap String String) :
    Except Status Unit :=
  checkAll (fun entry => require (validAtom entry.1 ∧ validAtom entry.2) message) bindings.entries

def checkExactDecode (descriptor : ModelDescriptor) (requirements : List KernelKey) :
    Except Status Unit :=
  match descriptor.exactDecodeProgram with
  | none => .ok ()
  | some decode => do
    require (¬ (descriptor.schemaVersion < 3 ∨ ¬ validAtom decode.capability ∨
        decode.abiVersion = 0 ∨ decode.maximumEmittedTokens < 2 ∨
        (decode.capability, decode.abiVersion) ∉ requirements))
      "exact decode program is invalid or unsupported"
    checkAll (fun entry => require (validAtom entry.1)
      "exact decode program parameter is invalid") decode.parameters.entries
    checkTensorBindings "exact decode tensor binding is invalid" decode.tensorBindings

def checkComponentKernels (descriptor : ModelDescriptor) (requirements : List KernelKey) :
    Except Status Unit :=
  checkAll (fun item => do
    require ((item.executionCapability, item.executionAbi) ∈ requirements)
      "routed component lacks its execution kernel requirement"
    require (¬ ((descriptor.schemaVersion ≥ 2 ∧ item.router.capability = "") ∨
        (item.router.capability ≠ "" ∧ (item.router.abiVersion = 0 ∨
          (item.router.capability, item.router.abiVersion) ∉ requirements))))
      "routed component lacks its routing kernel requirement") descriptor.routedComponents

/-- What a layer or an operation says about its component: an available layer of it, or nothing. -/
def checkComponentLayer (descriptor : ModelDescriptor) (routedComponent : String)
    (componentLayer : UInt32) (unavailable withoutComponent : String) : Except Status Unit :=
  if routedComponent ≠ "" then
    match findRoutedComponent descriptor routedComponent with
    | none => .error ⟨.invalidArgument, unavailable⟩
    | some component => require (componentLayer < component.layerCount) unavailable
  else require (componentLayer = 0) withoutComponent

/-- The set of logical layers, in the order of the program. -/
def checkLayers (descriptor : ModelDescriptor) (requirements : List KernelKey) :
    List UInt32 → List LayerProgramDescriptor → Except Status (List UInt32)
  | logicalLayers, [] => .ok logicalLayers
  | logicalLayers, layer :: rest => do
    require (¬ (layer.blockCapability = "" ∨ layer.blockAbiVersion = 0 ∨
        layer.logicalLayer.toNat ≠ logicalLayers.length ∨ layer.logicalLayer ∈ logicalLayers ∨
        (layer.blockCapability, layer.blockAbiVersion) ∉ requirements))
      "layer program is invalid or lacks a kernel requirement"
    checkComponentLayer descriptor layer.routedComponent layer.componentLayer
      "layer program references an unavailable expert component"
      "dense layer program has a routed component index"
    checkLayers descriptor requirements (logicalLayers ++ [layer.logicalLayer]) rest

/-- Whether a set of indices runs from zero without a gap, by its ends. -/
def contiguous (indices : List UInt32) : Bool :=
  (indices.map (·.toNat)).min? = some 0 &&
    (indices.map (·.toNat)).max?.map (· + 1) = some indices.length

structure OperationScan where
  logicalOperations : List UInt32 := []
  operationLayers : List UInt32 := []
  previousLayer : UInt32 := 0
  firstOperation : Bool := true

def checkBindings (message : String) (bindings : OrderedMap String ValueBinding) :
    Except Status Unit :=
  checkAll (fun entry =>
    require (validAtom entry.1 ∧ validAtom entry.2.value ∧ validAtom entry.2.abi) message)
    bindings.entries

def OperationProgramDescriptor.modelLevel (operation : OperationProgramDescriptor) : Bool :=
  operation.logicalLayer = kModelLevelOperationLayer

/-- An operation belongs to no component when it is at the model level. -/
def checkOperationComponent (descriptor : ModelDescriptor)
    (operation : OperationProgramDescriptor) : Except Status Unit := do
  require (operation.routedComponent = "" ∨ operation.modelLevel = false)
    "model-level operation references an expert component"
  checkComponentLayer descriptor operation.routedComponent operation.componentLayer
    "operation program references an unavailable expert component"
    "model-level operation has a component-local index"

def checkOperation (descriptor : ModelDescriptor) (requirements : List KernelKey)
    (logicalLayers : List UInt32) (scan : OperationScan)
    (operation : OperationProgramDescriptor) : Except Status OperationScan := do
  require (¬ (operation.capability = "" ∨ operation.abiVersion = 0 ∨
      operation.logicalOperation.toNat ≠ scan.logicalOperations.length ∨
      operation.logicalOperation ∈ scan.logicalOperations ∨
      (operation.modelLevel = false ∧ operation.logicalLayer ∉ logicalLayers) ∨
      (operation.modelLevel = true ∧ descriptor.schemaVersion < 3) ∨
      (operation.modelLevel = false ∧ scan.firstOperation = false ∧
        operation.logicalLayer < scan.previousLayer) ∨
      (operation.capability, operation.abiVersion) ∉ requirements))
    "operation program is invalid or unsupported"
  checkTensorBindings "operation tensor binding is invalid" operation.tensorBindings
  checkBindings "operation input binding is invalid" operation.inputBindings
  checkBindings "operation output binding is invalid" operation.outputBindings
  checkOperationComponent descriptor operation
  pure
    { logicalOperations := scan.logicalOperations ++ [operation.logicalOperation]
      operationLayers :=
        if operation.modelLevel then scan.operationLayers
        else scan.operationLayers ++ [operation.logicalLayer]
      previousLayer :=
        if operation.modelLevel then scan.previousLayer else operation.logicalLayer
      firstOperation := operation.modelLevel && scan.firstOperation }

def scanOperations (descriptor : ModelDescriptor) (requirements : List KernelKey)
    (logicalLayers : List UInt32) : OperationScan → List OperationProgramDescriptor →
    Except Status OperationScan
  | scan, [] => .ok scan
  | scan, operation :: rest => do
    let scan ← checkOperation descriptor requirements logicalLayers scan operation
    scanOperations descriptor requirements logicalLayers scan rest

/-- Whether an operation of a routed layer has this kernel. -/
def routedOperation (descriptor : ModelDescriptor) (layer : LayerProgramDescriptor)
    (capability : String) (abi : UInt32) : Bool :=
  descriptor.operationProgram.any fun operation =>
    operation.logicalLayer = layer.logicalLayer &&
      operation.routedComponent = layer.routedComponent &&
      operation.componentLayer = layer.componentLayer &&
      operation.capability = capability && operation.abiVersion = abi

def checkRoutedLayer (descriptor : ModelDescriptor) (layer : LayerProgramDescriptor) :
    Except Status Unit :=
  let message := "routed layer lacks explicit router or expert operations"
  if layer.routedComponent = "" then .ok ()
  else
    match findRoutedComponent descriptor layer.routedComponent with
    | none => .error ⟨.invalidArgument, message⟩
    | some component =>
      require (routedOperation descriptor layer component.router.capability
          component.router.abiVersion = true ∧
        routedOperation descriptor layer component.executionCapability
          component.executionAbi = true) message

def checkOperations (descriptor : ModelDescriptor) (requirements : List KernelKey)
    (logicalLayers : List UInt32) : Except Status Unit := do
  require (¬ (descriptor.schemaVersion ≥ 2 ∧ descriptor.operationProgram = []))
    "schema v2 model descriptor lacks its operation program"
  if descriptor.operationProgram = [] then .ok ()
  else
    let scan ← scanOperations descriptor requirements logicalLayers {} descriptor.operationProgram
    require (contiguous scan.logicalOperations ∧
        scan.operationLayers.all (· ∈ logicalLayers) ∧
        logicalLayers.all (· ∈ scan.operationLayers))
      "operation program indices or layer coverage are invalid"
    if descriptor.schemaVersion ≥ 2 then
      checkAll (checkRoutedLayer descriptor) descriptor.layerProgram
    else .ok ()

/-- Value names with their ABIs. -/
abbrev AvailableValues := List (String × String)

/-- The values that a map of endpoints or outputs adds, in the order of its keys. -/
def produced (bindings : OrderedMap String ValueBinding) : AvailableValues :=
  bindings.entries.map fun entry => (entry.2.value, entry.2.abi)

/-- `emplace` of every value, each for the first time. -/
def addAll (message : String) : AvailableValues → AvailableValues → Except Status AvailableValues
  | available, [] => .ok available
  | available, value :: rest => do
    require (available.lookup value.1 = none) message
    addAll message (available ++ [value]) rest

def checkInputs (descriptor : ModelDescriptor) : Except Status AvailableValues := do
  let message := "schema v3 program input is invalid or duplicated"
  checkBindings message descriptor.programInputs
  addAll message [] (produced descriptor.programInputs)

def checkFlow (available : AvailableValues) (operation : OperationProgramDescriptor) :
    Except Status AvailableValues := do
  require (¬ (operation.inputBindings.entries = [] ∧ operation.outputBindings.entries = []))
    "schema v3 operation lacks explicit data flow"
  checkAll (fun entry => require (available.lookup entry.2.value = some entry.2.abi)
    "schema v3 operation input is unavailable or has the wrong ABI") operation.inputBindings.entries
  addAll "schema v3 operation output has multiple producers" available
    (produced operation.outputBindings)

def checkFlows : AvailableValues → List OperationProgramDescriptor → Except Status AvailableValues
  | available, [] => .ok available
  | available, operation :: rest => do
    let available ← checkFlow available operation
    checkFlows available rest

def checkDataFlow (descriptor : ModelDescriptor) : Except Status Unit := do
  require (¬ (descriptor.programInputs.entries = [] ∨ descriptor.programOutputs.entries = []))
    "schema v3 model descriptor lacks program endpoints"
  let available ← checkInputs descriptor
  let available ← checkFlows available descriptor.operationProgram
  checkAll (fun entry =>
    require (validAtom entry.1 ∧ validAtom entry.2.value ∧ validAtom entry.2.abi ∧
        available.lookup entry.2.value = some entry.2.abi)
      "schema v3 program output is unavailable or invalid") descriptor.programOutputs.entries

def checkLegacy (descriptor : ModelDescriptor) : Except Status Unit :=
  require (descriptor.programInputs.entries = [] ∧ descriptor.programOutputs.entries = [] ∧
      descriptor.exactDecodeProgram.isNone ∧
      descriptor.operationProgram.all fun operation =>
        operation.inputBindings.entries.isEmpty && operation.outputBindings.entries.isEmpty)
    "legacy model descriptor contains schema v3 data flow"

def validateModelDescriptor (descriptor : ModelDescriptor) : Except Status Unit := do
  require (¬ ((descriptor.schemaVersion ≠ 1 ∧ descriptor.schemaVersion ≠ 2 ∧
        descriptor.schemaVersion ≠ 3) ∨ descriptor.architectureId = "" ∨
      descriptor.vocabSize = 0 ∨ descriptor.maxContextTokens = 0 ∨ descriptor.hiddenSize = 0 ∨
      descriptor.layerProgram.isEmpty ∨ descriptor.requiredKernels.isEmpty))
    "model descriptor architecture is incomplete"
  checkTensorBindings "model tensor binding is invalid" descriptor.tensorBindings
  checkComponents descriptor.hiddenSize [] [] descriptor.routedComponents
  let requirements ← checkRequirements [] descriptor.requiredKernels
  checkExactDecode descriptor requirements
  checkComponentKernels descriptor requirements
  let logicalLayers ← checkLayers descriptor requirements [] descriptor.layerProgram
  require (contiguous logicalLayers) "layer program logical indices are not contiguous"
  checkOperations descriptor requirements logicalLayers
  if descriptor.schemaVersion < 3 then checkLegacy descriptor else checkDataFlow descriptor

end QuantumLlm.Runtime.Program
