import QuantumLlm.Lib.Lines
import QuantumLlm.Runtime.Program.Descriptor

/-!
# Model descriptor artifacts

The text form of a model descriptor: a header line, and one record of fields a line.
`parseModelDescriptorArtifact` fills a descriptor record by record and accepts what
`validateModelDescriptor` accepts.
-/

namespace QuantumLlm.Runtime.Program

open OrderedMap (insertNew?)

def splitFields (line : String) : List String := Lines.split '\t' line

def parseU64 (text : String) : Option UInt64 := (Lines.decimal? (2 ^ 64) text).map UInt64.ofNat

def parseU32 (text : String) : Option UInt32 := do
  let wide ← parseU64 text
  if wide > 0xffffffff then none else some wide.toUInt32

/-- The first element that meets a test, changed in its place. -/
def changeFirst {α : Type} (found : α → Bool) (change : α → Option α) : List α → Option (List α)
  | [] => none
  | item :: rest =>
    if found item then (change item).map (· :: rest)
    else (changeFirst found change rest).map (item :: ·)

/-- Whether a layer or an operation names a component, and which: `-` is none. -/
def routedField (text : String) : Option String :=
  if text = "-" then some "" else if validAtom text then some text else none

/-- The descriptor so far, and whether its model record has been read. -/
structure ParseState where
  descriptor : ModelDescriptor
  model : Bool := false

namespace ParseState

variable (state : ParseState)

def parseModel : List String → Option ParseState
  | [schema, architecture, vocab, context, hidden] =>
    if state.model ∨ ¬ validAtom architecture then none
    else do
      let schemaVersion ← parseU32 schema
      let vocabSize ← parseU32 vocab
      let maxContextTokens ← parseU32 context
      let hiddenSize ← parseU32 hidden
      some
        { descriptor :=
            { state.descriptor with
              schemaVersion, vocabSize, maxContextTokens, hiddenSize
              architectureId := architecture }
          model := true }
  | _ => none

def parseAttribute : List String → Option ParseState
  | [key, value] =>
    if ¬ state.model ∨ ¬ validAtom key then none
    else do
      let value ← parseU64 value
      let attributes ← insertNew? state.descriptor.attributes key value
      some { state with descriptor := { state.descriptor with attributes } }
  | _ => none

def parseModelTensor : List String → Option ParseState
  | [role, tensor] =>
    if ¬ state.model ∨ ¬ validAtom role ∨ ¬ validAtom tensor then none
    else do
      let tensorBindings ← insertNew? state.descriptor.tensorBindings role tensor
      some { state with descriptor := { state.descriptor with tensorBindings } }
  | _ => none

def parseProgramInput : List String → Option ParseState
  | [role, value, abi] =>
    if ¬ state.model ∨ ¬ validAtom role ∨ ¬ validAtom value ∨ ¬ validAtom abi then none
    else do
      let programInputs ← insertNew? state.descriptor.programInputs role ⟨value, abi⟩
      some { state with descriptor := { state.descriptor with programInputs } }
  | _ => none

def parseProgramOutput : List String → Option ParseState
  | [role, value, abi] =>
    if ¬ state.model ∨ ¬ validAtom role ∨ ¬ validAtom value ∨ ¬ validAtom abi then none
    else do
      let programOutputs ← insertNew? state.descriptor.programOutputs role ⟨value, abi⟩
      some { state with descriptor := { state.descriptor with programOutputs } }
  | _ => none

def parseKernel : List String → Option ParseState
  | [capability, abi] =>
    if ¬ state.model ∨ ¬ validAtom capability then none
    else do
      let abiVersion ← parseU32 abi
      some
        { state with
          descriptor :=
            { state.descriptor with
              requiredKernels :=
                state.descriptor.requiredKernels ++ [{ capability, abiVersion }] } }
  | _ => none

def parseExactDecode : List String → Option ParseState
  | [capability, abi, maximum] =>
    if ¬ state.model ∨ state.descriptor.exactDecodeProgram.isSome ∨ ¬ validAtom capability then
      none
    else do
      let abiVersion ← parseU32 abi
      let maximumEmittedTokens ← parseU32 maximum
      some
        { state with
          descriptor :=
            { state.descriptor with
              exactDecodeProgram := some { capability, abiVersion, maximumEmittedTokens } } }
  | _ => none

/-- Changes the exact decode program, where there is one. -/
def changeExactDecode
    (change : ExactDecodeProgramDescriptor → Option ExactDecodeProgramDescriptor) :
    Option ParseState := do
  let decode ← state.descriptor.exactDecodeProgram
  let decode ← change decode
  some { state with descriptor := { state.descriptor with exactDecodeProgram := some decode } }

def parseExactDecodeParameter : List String → Option ParseState
  | [key, value] =>
    if ¬ validAtom key then none
    else do
      let value ← parseU64 value
      state.changeExactDecode fun decode =>
        (insertNew? decode.parameters key value).map ({ decode with parameters := · })
  | _ => none

def parseExactDecodeTensor : List String → Option ParseState
  | [role, tensor] =>
    if ¬ validAtom role ∨ ¬ validAtom tensor then none
    else
      state.changeExactDecode fun decode =>
        (insertNew? decode.tensorBindings role tensor).map ({ decode with tensorBindings := · })
  | _ => none

def parseComponent (namespaceBase : UInt64) : List String → Option ParseState
  | [name, offset, layers, experts, width, shared, hidden, intermediate, execution, abi, source,
      encodingAbi, encoding] =>
      if ¬ state.model ∨ ¬ validAtom name ∨ ¬ validAtom execution ∨ ¬ validAtom encoding then none
      else do
        let namespaceOffset ← parseU64 offset
        if namespaceOffset > 0xffffffffffffffff - namespaceBase then none
        else
          let layerCount ← parseU32 layers
          let expertsPerLayer ← parseU32 experts
          let routeWidth ← parseU32 width
          let sharedExpertsPerLayer ← parseU32 shared
          let hiddenSize ← parseU32 hidden
          let intermediateSize ← parseU32 intermediate
          let executionAbi ← parseU32 abi
          let sourceAbi ← parseU32 source
          let encodingAbi ← parseU32 encodingAbi
          let item : RoutedExpertComponentDescriptor :=
            { name, layerCount, expertsPerLayer, routeWidth, sharedExpertsPerLayer, hiddenSize
              intermediateSize, executionAbi, sourceAbi, encodingAbi, encoding
              namespaceId := namespaceBase + namespaceOffset
              executionCapability := execution }
          some
            { state with
              descriptor :=
                { state.descriptor with
                  routedComponents := state.descriptor.routedComponents ++ [item] } }
  | _ => none

/-- Changes the component of a name. -/
def changeComponent (name : String)
    (change : RoutedExpertComponentDescriptor → Option RoutedExpertComponentDescriptor) :
    Option ParseState := do
  let routedComponents ← changeFirst (·.name = name) change state.descriptor.routedComponents
  some { state with descriptor := { state.descriptor with routedComponents } }

def parseComponentAttribute : List String → Option ParseState
  | [name, key, value] =>
    if ¬ validAtom key then none
    else do
      let value ← parseU64 value
      state.changeComponent name fun component =>
        (insertNew? component.attributes key value).map ({ component with attributes := · })
  | _ => none

def parseRouter : List String → Option ParseState
  | [name, capability, abi] =>
    if ¬ validAtom capability then none
    else do
      let abiVersion ← parseU32 abi
      state.changeComponent name fun component =>
        if component.router.capability ≠ "" then none
        else some { component with router := { component.router with capability, abiVersion } }
  | _ => none

def parseRouterParameter : List String → Option ParseState
  | [name, key, value] =>
    if ¬ validAtom key then none
    else do
      let value ← parseU64 value
      state.changeComponent name fun component =>
        if component.router.capability = "" then none
        else
          (insertNew? component.router.parameters key value).map fun parameters =>
            { component with router := { component.router with parameters } }
  | _ => none

def parseLayer : List String → Option ParseState
  | [logical, capability, abi, component, componentLayer] =>
    if ¬ state.model ∨ ¬ validAtom capability then none
    else do
      let logicalLayer ← parseU32 logical
      let blockAbiVersion ← parseU32 abi
      let componentLayer ← parseU32 componentLayer
      let routedComponent ← routedField component
      let item : LayerProgramDescriptor :=
        { logicalLayer, blockAbiVersion, componentLayer, routedComponent
          blockCapability := capability }
      some
        { state with
          descriptor :=
            { state.descriptor with layerProgram := state.descriptor.layerProgram ++ [item] } }
  | _ => none

def parseLayerParameter : List String → Option ParseState
  | [logical, key, value] =>
    if ¬ validAtom key then none
    else do
      let logicalLayer ← parseU32 logical
      let value ← parseU64 value
      let layerProgram ← changeFirst (·.logicalLayer = logicalLayer) (fun layer =>
        (insertNew? layer.parameters key value).map ({ layer with parameters := · }))
        state.descriptor.layerProgram
      some { state with descriptor := { state.descriptor with layerProgram } }
  | _ => none

/-- The layer of an operation: `-` is the model level. -/
def layerField (text : String) : Option UInt32 :=
  if text = "-" then some kModelLevelOperationLayer else parseU32 text

def parseOperation : List String → Option ParseState
  | [logical, layer, capability, abi, component, componentLayer] =>
    if ¬ state.model ∨ ¬ validAtom capability then none
    else do
      let logicalOperation ← parseU32 logical
      let logicalLayer ← layerField layer
      let abiVersion ← parseU32 abi
      let componentLayer ← parseU32 componentLayer
      let routedComponent ← routedField component
      let item : OperationProgramDescriptor :=
        { logicalOperation, logicalLayer, capability, abiVersion, componentLayer
          routedComponent }
      some
        { state with
          descriptor :=
            { state.descriptor with
              operationProgram := state.descriptor.operationProgram ++ [item] } }
  | _ => none

/-- Changes the operation of a number. -/
def changeOperation (logical : String)
    (change : OperationProgramDescriptor → Option OperationProgramDescriptor) :
    Option ParseState := do
  let logicalOperation ← parseU32 logical
  let operationProgram ← changeFirst (·.logicalOperation = logicalOperation) change
    state.descriptor.operationProgram
  some { state with descriptor := { state.descriptor with operationProgram } }

def parseOperationParameter : List String → Option ParseState
  | [logical, key, value] =>
    if ¬ validAtom key then none
    else do
      let value ← parseU64 value
      state.changeOperation logical fun operation =>
        (insertNew? operation.parameters key value).map ({ operation with parameters := · })
  | _ => none

def parseOperationTensor : List String → Option ParseState
  | [logical, role, tensor] =>
    if ¬ validAtom role ∨ ¬ validAtom tensor then none
    else
      state.changeOperation logical fun operation =>
        (insertNew? operation.tensorBindings role tensor).map
          ({ operation with tensorBindings := · })
  | _ => none

def parseOperationInput : List String → Option ParseState
  | [logical, port, value, abi] =>
    if ¬ validAtom port ∨ ¬ validAtom value ∨ ¬ validAtom abi then none
    else
      state.changeOperation logical fun operation =>
        (insertNew? operation.inputBindings port ⟨value, abi⟩).map
          ({ operation with inputBindings := · })
  | _ => none

def parseOperationOutput : List String → Option ParseState
  | [logical, port, value, abi] =>
    if ¬ validAtom port ∨ ¬ validAtom value ∨ ¬ validAtom abi then none
    else
      state.changeOperation logical fun operation =>
        (insertNew? operation.outputBindings port ⟨value, abi⟩).map
          ({ operation with outputBindings := · })
  | _ => none

/-- One record; nothing when it is malformed. -/
def parseRecord (namespaceBase : UInt64) : List String → Option ParseState
  | [] => none
  | kind :: fields =>
    match kind with
    | "model" => state.parseModel fields
    | "attribute" => state.parseAttribute fields
    | "model_tensor" => state.parseModelTensor fields
    | "program_input" => state.parseProgramInput fields
    | "program_output" => state.parseProgramOutput fields
    | "kernel" => state.parseKernel fields
    | "exact_decode" => state.parseExactDecode fields
    | "exact_decode_parameter" => state.parseExactDecodeParameter fields
    | "exact_decode_tensor" => state.parseExactDecodeTensor fields
    | "component" => state.parseComponent namespaceBase fields
    | "component_attribute" => state.parseComponentAttribute fields
    | "router" => state.parseRouter fields
    | "router_parameter" => state.parseRouterParameter fields
    | "layer" => state.parseLayer fields
    | "layer_parameter" => state.parseLayerParameter fields
    | "operation" => state.parseOperation fields
    | "operation_parameter" => state.parseOperationParameter fields
    | "operation_tensor" => state.parseOperationTensor fields
    | "operation_input" => state.parseOperationInput fields
    | "operation_output" => state.parseOperationOutput fields
    | _ => none

end ParseState

/-- Between two lines of a text. -/
structure Reader where
  state : ParseState
  header : Bool := false
  lineNumber : Nat := 0

/-- A line without a carriage return at its end. -/
def withoutReturn (line : String) : String :=
  if line.toList.getLast? = some '\r' then String.ofList line.toList.dropLast else line

def kHeader : String := "expert-runtime-model-v1"

def Reader.readLine (namespaceBase : UInt64) (reader : Reader) (line : String) :
    Except Status Reader :=
  let lineNumber := reader.lineNumber + 1
  let line := withoutReturn line
  if line = "" then .ok { reader with lineNumber }
  else if reader.header = false then
    if line = kHeader then .ok { reader with header := true, lineNumber }
    else .error ⟨.invalidArgument, "unknown model descriptor artifact header"⟩
  else
    match reader.state.parseRecord namespaceBase (splitFields line) with
    | some state => .ok { reader with state, lineNumber }
    | none => .error ⟨.invalidArgument, "malformed model descriptor line " ++ toString lineNumber⟩

/-- The descriptor of a text. The piece behind the last newline is empty, like an empty line. -/
def parseModelDescriptorArtifact (text : String) (contentHash : Sha256Digest)
    (namespaceBase : UInt64) : Except Status ModelDescriptor := do
  require (namespaceBase ≠ 0) "model descriptor namespace base is zero"
  let start : Reader := { state := { descriptor := { architectureId := "", contentHash } } }
  let reader ← (Lines.split '\n' text).foldlM (Reader.readLine namespaceBase) start
  require (reader.header ∧ reader.state.model) "model descriptor artifact is incomplete"
  validateModelDescriptor reader.state.descriptor
  pure reader.state.descriptor

end QuantumLlm.Runtime.Program
