import QuantumLlm.Runtime.Program.Descriptor

/-!
# Compiled model programs

Names become indices: kernels, components and values are looked up once, and the
values of a schema v3 program are numbered in the order they are defined in.
-/

namespace QuantumLlm.Runtime.Program

/-- A capability, with the startup validation of its provider, which may throw. -/
structure KernelCapability where
  capability : String
  minimumAbi : UInt32 := 1
  maximumAbi : UInt32 := 1
  validate : Option (ModelDescriptor → Except String Status) := none

structure CompiledKernelBinding where
  requirementIndex : UInt32
  providerRegistryIndex : UInt32 := 0
  providerCapabilityIndex : UInt32
  deriving DecidableEq

structure CompiledLayerProgram where
  logicalLayer : UInt32
  blockKernelBinding : UInt32
  routedComponentIndex : Option UInt32
  componentLayer : UInt32
  parameters : OrderedMap String UInt64

/-- `CompiledOperationProgram::ValueBinding`. -/
structure PortBinding where
  port : String
  valueIndex : UInt32
  deriving DecidableEq

structure CompiledOperationProgram where
  logicalOperation : UInt32
  logicalLayer : UInt32
  kernelBinding : UInt32
  routedComponentIndex : Option UInt32
  componentLayer : UInt32
  parameters : OrderedMap String UInt64
  tensorBindings : OrderedMap String String
  inputValues : List PortBinding := []
  outputValues : List PortBinding := []

structure CompiledProgramValue where
  name : String
  abi : String
  deriving DecidableEq

structure CompiledProgramEndpoint where
  role : String
  valueIndex : UInt32
  deriving DecidableEq

structure CompiledExactDecodeProgram where
  kernelBinding : UInt32
  maximumEmittedTokens : UInt32
  parameters : OrderedMap String UInt64
  tensorBindings : OrderedMap String String

structure CompiledModelProgram where
  kernels : List CompiledKernelBinding
  layers : List CompiledLayerProgram
  operations : List CompiledOperationProgram
  values : List CompiledProgramValue := []
  inputs : List CompiledProgramEndpoint := []
  outputs : List CompiledProgramEndpoint := []
  exactDecode : Option CompiledExactDecodeProgram := none

def kernelMatches (required : KernelRequirement) (available : KernelCapability) : Bool :=
  available.capability = required.capability && available.minimumAbi ≤ required.abiVersion &&
    required.abiVersion ≤ available.maximumAbi

def checkCapability (descriptor : ModelDescriptor) (capabilities : List KernelCapability)
    (required : KernelRequirement) : Except Status Unit :=
  match capabilities.find? (kernelMatches required) with
  | none =>
    .error ⟨.invalidArgument,
      "execution provider lacks required kernel capability: " ++ required.capability⟩
  | some found =>
    match found.validate with
    | none => .ok ()
    | some validate =>
      match validate descriptor with
      | .error what => .error ⟨.internal, "execution provider validation failed: " ++ what⟩
      | .ok constrained => if constrained.ok then .ok () else .error constrained

def providerSupportsModel (descriptor : ModelDescriptor) (capabilities : List KernelCapability) :
    Except Status Unit := do
  validateModelDescriptor descriptor
  checkAll (checkCapability descriptor capabilities) descriptor.requiredKernels

/-- `at` of a map; what it throws ends the compilation. -/
def atKey {K V : Type} [DecidableEq K] (map : List (K × V)) (key : K) : Except Status V :=
  match map.lookup key with
  | some value => .ok value
  | none => .error ⟨.internal, "model program compilation failed: map::at"⟩

/-- A loop that pushes one result each round. -/
def compileEach {α β : Type} (compile : α → Except Status β) : List α → Except Status (List β)
  | [] => .ok []
  | item :: rest => do
    let compiled ← compile item
    let others ← compileEach compile rest
    pure (compiled :: others)

def kernelBindings (descriptor : ModelDescriptor) : List (KernelKey × UInt32) :=
  descriptor.requiredKernels.zipIdx.map fun entry =>
    ((entry.1.capability, entry.1.abiVersion), UInt32.ofNat entry.2)

def componentIndices (descriptor : ModelDescriptor) : List (String × UInt32) :=
  descriptor.routedComponents.zipIdx.map fun entry => (entry.1.name, UInt32.ofNat entry.2)

def compileKernels (descriptor : ModelDescriptor) (capabilities : List KernelCapability) :
    List CompiledKernelBinding :=
  descriptor.requiredKernels.zipIdx.map fun entry =>
    { requirementIndex := UInt32.ofNat entry.2
      providerCapabilityIndex := UInt32.ofNat (capabilities.findIdx (kernelMatches entry.1)) }

def compileComponent (descriptor : ModelDescriptor) (routedComponent : String) :
    Except Status (Option UInt32) :=
  if routedComponent = "" then .ok none
  else (atKey (componentIndices descriptor) routedComponent).map some

def compileLayer (descriptor : ModelDescriptor) (layer : LayerProgramDescriptor) :
    Except Status CompiledLayerProgram := do
  let component ← compileComponent descriptor layer.routedComponent
  let kernel ← atKey (kernelBindings descriptor) (layer.blockCapability, layer.blockAbiVersion)
  pure
    { logicalLayer := layer.logicalLayer
      blockKernelBinding := kernel
      routedComponentIndex := component
      componentLayer := layer.componentLayer
      parameters := layer.parameters }

/-- The operation of a layer, for artifacts without an operation program. -/
def compileLegacyOperation (descriptor : ModelDescriptor)
    (entry : LayerProgramDescriptor × Nat) : Except Status CompiledOperationProgram := do
  let component ← compileComponent descriptor entry.1.routedComponent
  let kernel ← atKey (kernelBindings descriptor)
    (entry.1.blockCapability, entry.1.blockAbiVersion)
  pure
    { logicalOperation := UInt32.ofNat entry.2
      logicalLayer := entry.1.logicalLayer
      kernelBinding := kernel
      routedComponentIndex := component
      componentLayer := entry.1.componentLayer
      parameters := entry.1.parameters
      tensorBindings := .empty }

def compileOperation (descriptor : ModelDescriptor) (operation : OperationProgramDescriptor) :
    Except Status CompiledOperationProgram := do
  let component ← compileComponent descriptor operation.routedComponent
  let kernel ← atKey (kernelBindings descriptor) (operation.capability, operation.abiVersion)
  pure
    { logicalOperation := operation.logicalOperation
      logicalLayer := operation.logicalLayer
      kernelBinding := kernel
      routedComponentIndex := component
      componentLayer := operation.componentLayer
      parameters := operation.parameters
      tensorBindings := operation.tensorBindings }

def compileOperations (descriptor : ModelDescriptor) :
    Except Status (List CompiledOperationProgram) :=
  if descriptor.operationProgram = [] then
    compileEach (compileLegacyOperation descriptor) descriptor.layerProgram.zipIdx
  else compileEach (compileOperation descriptor) descriptor.operationProgram

/-- The values so far, and the index of each name. -/
structure ValueTable where
  values : List CompiledProgramValue := []
  indices : List (String × UInt32) := []

/-- `add_value`. The index is a cast of the number of values. -/
def ValueTable.addValue (table : ValueTable) (name abi : String) : ValueTable × UInt32 :=
  let index := UInt32.ofNat table.values.length
  ({ values := table.values ++ [⟨name, abi⟩]
     indices :=
       if table.indices.lookup name = none then table.indices ++ [(name, index)]
       else table.indices }, index)

/-- The values of a map, in the order of its keys, with the key of each index. -/
def ValueTable.addValues (table : ValueTable) :
    List (String × ValueBinding) → ValueTable × List (String × UInt32)
  | [] => (table, [])
  | entry :: rest =>
    let added := table.addValue entry.2.value entry.2.abi
    let others := added.1.addValues rest
    (others.1, (entry.1, added.2) :: others.2)

/-- The ports of an operation. -/
def compileFlow (table : ValueTable) (source : OperationProgramDescriptor)
    (compiled : CompiledOperationProgram) : Except Status (ValueTable × CompiledOperationProgram) := do
  let inputs ← compileEach (fun entry : String × ValueBinding =>
    (atKey table.indices entry.2.value).map fun index => PortBinding.mk entry.1 index)
    source.inputBindings.entries
  let outputs := table.addValues source.outputBindings.entries
  pure (outputs.1, { compiled with
    inputValues := inputs
    outputValues := outputs.2.map fun entry => ⟨entry.1, entry.2⟩ })

def compileFlows : ValueTable → List (OperationProgramDescriptor × CompiledOperationProgram) →
    Except Status (ValueTable × List CompiledOperationProgram)
  | table, [] => .ok (table, [])
  | table, (source, compiled) :: rest => do
    let first ← compileFlow table source compiled
    let others ← compileFlows first.1 rest
    pure (others.1, first.2 :: others.2)

/-- Inputs, operations and outputs of a schema v3 program. -/
def compileDataFlow (descriptor : ModelDescriptor) (program : CompiledModelProgram) :
    Except Status CompiledModelProgram := do
  let inputs := ValueTable.addValues {} descriptor.programInputs.entries
  let flows ← compileFlows inputs.1 (descriptor.operationProgram.zip program.operations)
  let outputs ← compileEach (fun entry : String × ValueBinding =>
    (atKey flows.1.indices entry.2.value).map fun index => CompiledProgramEndpoint.mk entry.1 index)
    descriptor.programOutputs.entries
  pure { program with
    operations := flows.2
    values := flows.1.values
    inputs := inputs.2.map fun entry => ⟨entry.1, entry.2⟩
    outputs }

def compileExactDecode (descriptor : ModelDescriptor) :
    Except Status (Option CompiledExactDecodeProgram) :=
  match descriptor.exactDecodeProgram with
  | none => .ok none
  | some decode => do
    let kernel ← atKey (kernelBindings descriptor) (decode.capability, decode.abiVersion)
    pure (some
      { kernelBinding := kernel
        maximumEmittedTokens := decode.maximumEmittedTokens
        parameters := decode.parameters
        tensorBindings := decode.tensorBindings })

def compileModelProgram (descriptor : ModelDescriptor) (capabilities : List KernelCapability) :
    Except Status CompiledModelProgram := do
  providerSupportsModel descriptor capabilities
  let layers ← compileEach (compileLayer descriptor) descriptor.layerProgram
  let operations ← compileOperations descriptor
  let program : CompiledModelProgram :=
    { kernels := compileKernels descriptor capabilities, layers, operations }
  let program ←
    if descriptor.schemaVersion ≥ 3 then compileDataFlow descriptor program else pure program
  let exactDecode ← compileExactDecode descriptor
  pure { program with exactDecode }

end QuantumLlm.Runtime.Program
