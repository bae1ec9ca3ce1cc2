import QuantumLlm.Lib.Foremost
import QuantumLlm.Lib.OrderedSet
import QuantumLlm.Runtime.Program.Layers

/-!
# Execution providers

The registry chooses a provider for every kernel, and compilation looks the kernels up
once more among the capabilities that were chosen.
-/

namespace QuantumLlm.Runtime.Program

/-- `ExecutionProviderDefinition`; binding only asks whether there is an implementation. -/
structure ExecutionProviderDefinition (I : Type) where
  name : String
  priority : UInt32 := 0
  capabilities : List KernelCapability
  implementation : Option I := none

inductive ExecutionProviderBindingMode where
  | metadata
  | executable
  deriving DecidableEq

structure BoundExecutionProviderReference (I : Type) where
  name : String
  registryIndex : UInt32
  implementation : Option I

structure BoundExecutionProvider (I : Type) where
  providers : List (BoundExecutionProviderReference I)
  modelContentHash : Sha256Digest
  modelSchemaVersion : UInt32
  program : CompiledModelProgram

abbrev ExecutionProviderRegistry (I : Type) := List (ExecutionProviderDefinition I)

variable {I : Type}

def checkCapabilities : List String → List KernelCapability → Except Status Unit
  | _, [] => .ok ()
  | names, capability :: rest => do
    require (¬ (capability.capability = "" ∨ capability.minimumAbi = 0 ∨
        capability.maximumAbi < capability.minimumAbi ∨ capability.capability ∈ names))
      "execution provider capability is invalid or duplicated"
    checkCapabilities (capability.capability :: names) rest

/-- `ExecutionProviderRegistry::add`. -/
def ExecutionProviderRegistry.add (providers : ExecutionProviderRegistry I)
    (provider : ExecutionProviderDefinition I) : Except Status (ExecutionProviderRegistry I) := do
  require (¬ (provider.name = "" ∨ provider.capabilities = []))
    "execution provider definition is incomplete"
  require (provider.name ∉ providers.map (·.name)) "execution provider name is duplicated"
  checkCapabilities [] provider.capabilities
  pure (providers ++ [provider])

/-- What a registry can hold. -/
inductive Registered : ExecutionProviderRegistry I → Prop where
  | empty : Registered []
  | add {providers providers' : ExecutionProviderRegistry I}
      {provider : ExecutionProviderDefinition I} (registered : Registered providers)
      (added : providers.add provider = .ok providers') : Registered providers'

/-- A choice for a kernel; the places are casts of those in the registry. -/
structure SelectedCapability (I : Type) where
  provider : ExecutionProviderDefinition I
  capability : KernelCapability
  providerIndex : UInt32
  capabilityIndex : UInt32

def SelectedCapability.preferred (candidate best : SelectedCapability I) : Bool :=
  decide (candidate.provider.priority > best.provider.priority) ||
    (decide (candidate.provider.priority = best.provider.priority) &&
      decide (candidate.provider.name < best.provider.name))

/-- What a validator says of the model. One that throws ends the binding. -/
def accepts (descriptor : ModelDescriptor) (capability : KernelCapability) : Except Status Bool :=
  match capability.validate with
  | none => .ok true
  | some validate =>
    match validate descriptor with
    | .error what => .error ⟨.internal, "execution provider binding failed: " ++ what⟩
    | .ok constrained => .ok constrained.ok

/-- A loop that carries its best choice. -/
def scanAll {α β : Type} (consider : β → α → Except Status β) : β → List α → Except Status β
  | best, [] => .ok best
  | best, item :: rest => do
    let best ← consider best item
    scanAll consider best rest

def considerCapability (descriptor : ModelDescriptor) (required : KernelRequirement)
    (candidate : ExecutionProviderDefinition I) (providerIndex : Nat)
    (best : Option (SelectedCapability I)) (entry : KernelCapability × Nat) :
    Except Status (Option (SelectedCapability I)) :=
  if kernelMatches required entry.1 = false then .ok best
  else do
    let constrained ← accepts descriptor entry.1
    pure (if constrained = false then best
      else keepForemost SelectedCapability.preferred best
        { provider := candidate
          capability := entry.1
          providerIndex := UInt32.ofNat providerIndex
          capabilityIndex := UInt32.ofNat entry.2 })

def considerProvider (mode : ExecutionProviderBindingMode) (descriptor : ModelDescriptor)
    (required : KernelRequirement) (best : Option (SelectedCapability I))
    (entry : ExecutionProviderDefinition I × Nat) : Except Status (Option (SelectedCapability I)) :=
  if mode = .executable ∧ entry.1.implementation.isNone then .ok best
  else
    scanAll (considerCapability descriptor required entry.1 entry.2) best
      entry.1.capabilities.zipIdx

def selectCapability (mode : ExecutionProviderBindingMode)
    (providers : ExecutionProviderRegistry I) (descriptor : ModelDescriptor)
    (required : KernelRequirement) : Except Status (SelectedCapability I) := do
  let best ← scanAll (considerProvider mode descriptor required) none providers.zipIdx
  match best with
  | none =>
    .error ⟨.invalidArgument,
      "no execution provider implements required kernel: " ++ required.capability⟩
  | some selected => .ok selected

/-- `at` of a vector; what it throws ends the binding. -/
def atPlace {α : Type} (items : List α) (place : Nat) : Except Status α :=
  match items[place]? with
  | some item => .ok item
  | none => .error ⟨.internal, "execution provider binding failed: vector::at"⟩

def assignProvider (selected : List (SelectedCapability I)) (kernel : CompiledKernelBinding) :
    Except Status CompiledKernelBinding := do
  let chosen ← atPlace selected kernel.requirementIndex.toNat
  pure { kernel with
    providerRegistryIndex := chosen.providerIndex
    providerCapabilityIndex := chosen.capabilityIndex }

/-- The set of registry indices that the kernels refer to. -/
def referenced (kernels : List CompiledKernelBinding) : OrderedSet Nat :=
  .ofList (kernels.map fun kernel => kernel.providerRegistryIndex.toNat)

def reference (providers : ExecutionProviderRegistry I) (index : Nat) :
    Except Status (BoundExecutionProviderReference I) := do
  let provider ← atPlace providers index
  pure
    { name := provider.name
      registryIndex := UInt32.ofNat index
      implementation := provider.implementation }

/-- `ExecutionProviderRegistry::bind`. -/
def ExecutionProviderRegistry.bind (mode : ExecutionProviderBindingMode)
    (providers : ExecutionProviderRegistry I) (descriptor : ModelDescriptor) :
    Except Status (BoundExecutionProvider I) := do
  validateModelDescriptor descriptor
  let selected ← compileEach (selectCapability mode providers descriptor) descriptor.requiredKernels
  let program ← compileModelProgram descriptor (selected.map (·.capability))
  let kernels ← compileEach (assignProvider selected) program.kernels
  let references ← compileEach (reference providers) (referenced kernels).items
  pure
    { providers := references
      modelContentHash := descriptor.contentHash
      modelSchemaVersion := descriptor.schemaVersion
      program := { program with kernels } }

end QuantumLlm.Runtime.Program
