import QuantumLlm.Lib.Numbering
import QuantumLlm.Runtime.Program.Compile

/-!
# Validated programs are in SSA form

What the checks on names promise, and the program that compilation makes of it:
every name becomes its place in the list of all definitions.
-/

namespace QuantumLlm.Runtime.Program

open List

variable {descriptor : ModelDescriptor} {capabilities : List KernelCapability}

/-! ## What validation promises -/

def requirementKeys (descriptor : ModelDescriptor) : List KernelKey :=
  descriptor.requiredKernels.map fun item => (item.capability, item.abiVersion)

/-- All values, in the order the program defines them. -/
def definitions (descriptor : ModelDescriptor) : AvailableValues :=
  produced descriptor.programInputs ++
    descriptor.operationProgram.flatMap fun operation => produced operation.outputBindings

/-- Every operation consumes what is available where it stands. -/
def Flows : AvailableValues → List OperationProgramDescriptor → Prop
  | _, [] => True
  | available, operation :: rest =>
    (∀ value ∈ produced operation.inputBindings, value ∈ available) ∧
      Flows (available ++ produced operation.outputBindings) rest

structure Validated (descriptor : ModelDescriptor) : Prop where
  operations : descriptor.operationProgram ≠ []
  logical : ∀ (position : Nat) (source : OperationProgramDescriptor),
    descriptor.operationProgram[position]? = some source → source.logicalOperation.toNat = position
  layerKernels : ∀ layer ∈ descriptor.layerProgram,
    (layer.blockCapability, layer.blockAbiVersion) ∈ requirementKeys descriptor
  layerComponents : ∀ layer ∈ descriptor.layerProgram, layer.routedComponent ≠ "" →
    layer.routedComponent ∈ descriptor.routedComponents.map (·.name)
  operationKernels : ∀ operation ∈ descriptor.operationProgram,
    (operation.capability, operation.abiVersion) ∈ requirementKeys descriptor
  operationComponents : ∀ operation ∈ descriptor.operationProgram,
    operation.routedComponent ≠ "" →
      operation.routedComponent ∈ descriptor.routedComponents.map (·.name)
  exactKernel : ∀ decode, descriptor.exactDecodeProgram = some decode →
    (decode.capability, decode.abiVersion) ∈ requirementKeys descriptor
  nodup : ((definitions descriptor).map Prod.fst).Nodup
  flows : Flows (produced descriptor.programInputs) descriptor.operationProgram
  outputs : ∀ value ∈ produced descriptor.programOutputs, value ∈ definitions descriptor

theorem checkRequirements_ok {seen result : List KernelKey} {items : List KernelRequirement}
    (h : checkRequirements seen items = .ok result) :
    result = seen ++ items.map fun item => (item.capability, item.abiVersion) := by
  induction items generalizing seen with
  | nil =>
    simp only [checkRequirements, Except.ok.injEq] at h
    simp [h]
  | cons item rest ih =>
    simp only [checkRequirements, bind_ok_iff, require_ok_iff] at h
    obtain ⟨_, -, hrest⟩ := h
    simp [ih hrest]

variable {name : String} {requirements : List KernelKey} {logicalLayers : List UInt32}
  {scan result : OperationScan} {operations : List OperationProgramDescriptor}
  {available : AvailableValues} {binding : ValueBinding}

theorem findRoutedComponent_mem {component : RoutedExpertComponentDescriptor}
    (h : findRoutedComponent descriptor name = some component) :
    name ∈ descriptor.routedComponents.map (·.name) := by
  have hname : component.name = name := by simpa using find?_some h
  exact mem_map.2 ⟨component, mem_of_find?_eq_some h, hname⟩

theorem checkComponentLayer_ok {routedComponent unavailable withoutComponent : String}
    {componentLayer : UInt32} (h : checkComponentLayer descriptor routedComponent componentLayer
      unavailable withoutComponent = .ok ()) (hname : routedComponent ≠ "") :
    routedComponent ∈ descriptor.routedComponents.map (·.name) := by
  rw [checkComponentLayer, if_pos hname] at h
  split at h
  next => cases h
  next component hfound => exact findRoutedComponent_mem hfound

theorem checkLayers_ok {seen result : List UInt32} {layers : List LayerProgramDescriptor}
    (h : checkLayers descriptor requirements seen layers = .ok result) :
    ∀ layer ∈ layers, (layer.blockCapability, layer.blockAbiVersion) ∈ requirements ∧
      (layer.routedComponent ≠ "" →
        layer.routedComponent ∈ descriptor.routedComponents.map (·.name)) := by
  induction layers generalizing seen with
  | nil => simp
  | cons layer rest ih =>
    simp only [checkLayers, bind_ok_iff, require_ok_iff] at h
    obtain ⟨_, hlayer, _, hcomponent, hrest⟩ := h
    intro other hother
    rcases mem_cons.1 hother with rfl | hother
    · simp only [not_or, not_not] at hlayer
      exact ⟨hlayer.2.2.2.2, checkComponentLayer_ok hcomponent⟩
    · exact ih hrest other hother

theorem checkOperation_ok {operation : OperationProgramDescriptor}
    (h : checkOperation descriptor requirements logicalLayers scan operation = .ok result) :
    (operation.capability, operation.abiVersion) ∈ requirements ∧
      (operation.routedComponent ≠ "" →
        operation.routedComponent ∈ descriptor.routedComponents.map (·.name)) := by
  simp only [checkOperation, checkOperationComponent, bind_ok_iff, require_ok_iff, not_or,
    not_not] at h
  obtain ⟨_, hoperation, _, -, _, -, _, -, _, ⟨_, -, hcomponent⟩, -⟩ := h
  exact ⟨hoperation.2.2.2.2.2.2.2, checkComponentLayer_ok hcomponent⟩

section

variable (h : scanOperations descriptor requirements logicalLayers scan operations = .ok result)

include h

theorem scanOperations_ok
    :
    ∀ operation ∈ operations, (operation.capability, operation.abiVersion) ∈ requirements ∧
      (operation.routedComponent ≠ "" →
        operation.routedComponent ∈ descriptor.routedComponents.map (·.name)) := by
  induction operations generalizing scan with
  | nil => simp
  | cons operation rest ih =>
    simp only [scanOperations, bind_ok_iff] at h
    obtain ⟨next, hoperation, hrest⟩ := h
    intro other hother
    rcases mem_cons.1 hother with rfl | hother
    · exact checkOperation_ok hoperation
    · exact ih hrest other hother

theorem scanOperations_logical {position : Nat} {source : OperationProgramDescriptor}
    (hsource : operations[position]? = some source) :
    source.logicalOperation.toNat = scan.logicalOperations.length + position := by
  induction operations generalizing scan position with
  | nil => simp at hsource
  | cons operation rest ih =>
    simp only [scanOperations, checkOperation, bind_ok_iff, require_ok_iff, pure_ok_iff] at h
    obtain ⟨next, ⟨_, hoperation, _, -, _, -, _, -, _, -, rfl⟩, hrest⟩ := h
    cases position with
    | zero =>
      obtain rfl : operation = source := by simpa using hsource
      simp only [not_or, not_not] at hoperation
      exact hoperation.2.2.1
    | succ position =>
      have hlater := ih hrest (by simpa using hsource)
      simp only [length_append, length_singleton] at hlater
      omega

end

theorem addAll_ok_iff {message : String} {values result : AvailableValues}
    (hnodup : (available.map Prod.fst).Nodup) :
    addAll message available values = .ok result ↔
      ((available ++ values).map Prod.fst).Nodup ∧ result = available ++ values := by
  induction values generalizing available with
  | nil => simp [addAll, hnodup, eq_comm]
  | cons value rest ih =>
    simp only [addAll, bind_ok_iff, require_ok_iff]
    have hassoc : available ++ value :: rest = (available ++ [value]) ++ rest := by simp
    constructor
    · rintro ⟨_, hnew, hrest⟩
      rw [lookup_eq_none_iff_not_mem] at hnew
      have hmore : ((available ++ [value]).map Prod.fst).Nodup := by
        rw [map_append, nodup_append_comm]
        exact nodup_cons.2 ⟨hnew, hnodup⟩
      rw [hassoc]
      exact (ih hmore).1 hrest
    · rintro ⟨hall, rfl⟩
      rw [hassoc] at hall
      have hmore : ((available ++ [value]).map Prod.fst).Nodup := by
        rw [map_append] at hall
        exact hall.of_append_left
      have hnew : available.lookup value.1 = none := by
        rw [lookup_eq_none_iff_not_mem]
        rw [map_append, nodup_append_comm] at hmore
        exact (nodup_cons.1 hmore).1
      exact ⟨(), hnew, (ih hmore).2 ⟨hall, hassoc⟩⟩

theorem mem_produced {bindings : OrderedMap String ValueBinding} {value : String × String} :
    value ∈ produced bindings ↔
      ∃ entry ∈ bindings.entries, (entry.2.value, entry.2.abi) = value := by
  simp [produced]

theorem checkFlows_ok {result : AvailableValues} (hnodup : (available.map Prod.fst).Nodup)
    (h : checkFlows available operations = .ok result) :
    (result.map Prod.fst).Nodup ∧ Flows available operations ∧
      result = available ++ operations.flatMap fun operation =>
        produced operation.outputBindings := by
  induction operations generalizing available with
  | nil =>
    simp only [checkFlows, Except.ok.injEq] at h
    subst h
    exact ⟨hnodup, trivial, by simp⟩
  | cons operation rest ih =>
    simp only [checkFlows, checkFlow, bind_ok_iff, require_ok_iff, checkAll_ok_iff] at h
    obtain ⟨more, ⟨_, -, _, hinputs, hadded⟩, hrest⟩ := h
    obtain ⟨hmore, rfl⟩ := (addAll_ok_iff hnodup).1 hadded
    obtain ⟨hresult, hflows, rfl⟩ := ih hmore hrest
    refine ⟨hresult, ⟨?_, hflows⟩, by simp⟩
    intro value hvalue
    obtain ⟨entry, hentry, rfl⟩ := mem_produced.1 hvalue
    exact mem_of_lookup (hinputs entry hentry)

theorem checkDataFlow_ok (h : checkDataFlow descriptor = .ok ()) :
    ((definitions descriptor).map Prod.fst).Nodup ∧
      Flows (produced descriptor.programInputs) descriptor.operationProgram ∧
      ∀ value ∈ produced descriptor.programOutputs, value ∈ definitions descriptor := by
  simp only [checkDataFlow, checkInputs, bind_ok_iff, require_ok_iff, checkAll_ok_iff] at h
  obtain ⟨_, -, inputs, ⟨_, -, hinputs⟩, all, hflows, houtputs⟩ := h
  obtain ⟨hnodup, rfl⟩ := (addAll_ok_iff (by simp)).1 hinputs
  obtain ⟨hall, hvalid, rfl⟩ := checkFlows_ok hnodup hflows
  refine ⟨hall, hvalid, ?_⟩
  intro value hvalue
  obtain ⟨entry, hentry, rfl⟩ := mem_produced.1 hvalue
  exact mem_of_lookup (houtputs entry hentry).2.2.2

theorem validated_of_ok (h : validateModelDescriptor descriptor = .ok ())
    (hschema : descriptor.schemaVersion ≥ 3) : Validated descriptor := by
  simp only [validateModelDescriptor, bind_ok_iff, require_ok_iff] at h
  obtain ⟨_, -, _, -, _, -, requirements, hrequirements, _, hexact, _, -, logicalLayers, hlayers,
    _, -, _, hoperations, hflow⟩ := h
  rw [if_neg (by simpa using hschema)] at hflow
  obtain rfl := checkRequirements_ok hrequirements
  obtain ⟨hnodup, hflows, houtputs⟩ := checkDataFlow_ok hflow
  simp only [checkOperations, bind_ok_iff, require_ok_iff] at hoperations
  obtain ⟨_, hnonempty, hoperations⟩ := hoperations
  have hsome : descriptor.operationProgram ≠ [] := by
    intro hnil
    exact hnonempty ⟨UInt32.le_trans (by decide : (2 : UInt32) ≤ 3) hschema, hnil⟩
  rw [if_neg hsome, bind_ok_iff] at hoperations
  obtain ⟨scan, hscan, -⟩ := hoperations
  exact
    { operations := hsome
      logical := fun position source hsource => by
        simpa using scanOperations_logical hscan hsource
      layerKernels := fun layer hlayer => (checkLayers_ok hlayers layer hlayer).1
      layerComponents := fun layer hlayer => (checkLayers_ok hlayers layer hlayer).2
      operationKernels := fun operation hmem => (scanOperations_ok hscan operation hmem).1
      operationComponents := fun operation hmem => (scanOperations_ok hscan operation hmem).2
      exactKernel := by
        intro decode hdecode
        simp only [checkExactDecode, hdecode, bind_ok_iff, require_ok_iff, not_or, not_not] at hexact
        obtain ⟨_, hall, -⟩ := hexact
        exact hall.2.2.2.2
      nodup := hnodup
      flows := hflows
      outputs := houtputs }

/-! ## The compiled program -/

/-- The index of a value: its place among the definitions, cast to 32 bits. -/
def indexOf (definitions : AvailableValues) (binding : ValueBinding) : UInt32 :=
  UInt32.ofNat (definitions.idxOf (binding.value, binding.abi))

def portsOf (definitions : AvailableValues) (bindings : OrderedMap String ValueBinding) :
    List PortBinding :=
  bindings.entries.map fun entry => ⟨entry.1, indexOf definitions entry.2⟩

def endpointsOf (definitions : AvailableValues) (bindings : OrderedMap String ValueBinding) :
    List CompiledProgramEndpoint :=
  bindings.entries.map fun entry => ⟨entry.1, indexOf definitions entry.2⟩

theorem compileEach_ok {α β : Type} {compile : α → Except Status β} {items : List α}
    {holds : α → β → Prop} (h : ∀ item ∈ items, ∃ result, compile item = .ok result ∧
      holds item result) :
    ∃ results, compileEach compile items = .ok results ∧ List.Forall₂ holds items results := by
  induction items with
  | nil => exact ⟨[], rfl, .nil⟩
  | cons item rest ih =>
    obtain ⟨result, hresult, hholds⟩ := h item mem_cons_self
    obtain ⟨results, hresults, hall⟩ := ih fun other hother => h other (mem_cons_of_mem _ hother)
    refine ⟨result :: results, ?_, .cons hholds hall⟩
    simp only [compileEach, bind_ok_iff, pure_ok_iff]
    exact ⟨result, hresult, results, hresults, rfl⟩

theorem compileEach_map {α β : Type} {compile : α → Except Status β} {items : List α}
    {result : α → β} (h : ∀ item ∈ items, compile item = .ok (result item)) :
    compileEach compile items = .ok (items.map result) := by
  induction items with
  | nil => rfl
  | cons item rest ih =>
    simp only [compileEach, bind_ok_iff, pure_ok_iff]
    exact ⟨result item, h item mem_cons_self, rest.map result,
      ih fun other hother => h other (mem_cons_of_mem _ hother), rfl⟩

/-- The table after the definition of these values. -/
def tableOf (available : AvailableValues) : ValueTable where
  values := available.map fun value => ⟨value.1, value.2⟩
  indices := numbered UInt32.ofNat available

theorem addValue_tableOf {abi : String} (hnew : name ∉ available.map Prod.fst) :
    (tableOf available).addValue name abi =
      (tableOf (available ++ [(name, abi)]), UInt32.ofNat available.length) := by
  have hnone : (numbered UInt32.ofNat available).lookup name = none := by
    rwa [lookup_eq_none_iff_not_mem, keys_numbered]
  simp [ValueTable.addValue, tableOf, hnone, numbered_snoc]

theorem addValues_tableOf {available : AvailableValues} {entries : List (String × ValueBinding)}
    (hnodup : ((available ++ entries.map fun entry => (entry.2.value, entry.2.abi)).map
      Prod.fst).Nodup) :
    (tableOf available).addValues entries =
      (tableOf (available ++ entries.map fun entry => (entry.2.value, entry.2.abi)),
        entries.map fun entry => (entry.1, indexOf
          (available ++ entries.map fun entry => (entry.2.value, entry.2.abi)) entry.2)) := by
  induction entries generalizing available with
  | nil => simp [ValueTable.addValues]
  | cons entry rest ih =>
    have hassoc : available ++ (entry :: rest).map (fun entry => (entry.2.value, entry.2.abi)) =
        (available ++ [(entry.2.value, entry.2.abi)]) ++
          rest.map fun entry => (entry.2.value, entry.2.abi) := by
      simp
    rw [hassoc] at hnodup ⊢
    have hnew : entry.2.value ∉ available.map Prod.fst := by
      rw [append_assoc, map_append] at hnodup
      intro hmem
      exact (disjoint_of_nodup_append hnodup) hmem (by simp)
    have hindex : indexOf ((available ++ [(entry.2.value, entry.2.abi)]) ++
        rest.map fun entry => (entry.2.value, entry.2.abi)) entry.2 =
          UInt32.ofNat available.length := by
      have habsent : (entry.2.value, entry.2.abi) ∉ available := by
        intro hmem
        exact hnew (mem_map.2 ⟨_, hmem, rfl⟩)
      rw [indexOf, append_assoc, idxOf_append_of_notMem habsent]
      simp
    simp only [ValueTable.addValues, addValue_tableOf hnew, ih hnodup, map_cons, hindex]

theorem idxOf_mem_append {more : AvailableValues}
    (hmem : (binding.value, binding.abi) ∈ available) :
    indexOf (available ++ more) binding = indexOf available binding := by
  rw [indexOf, idxOf_append_of_mem hmem, indexOf]

theorem atKey_tableOf
    (hnodup : (available.map Prod.fst).Nodup) (hmem : (binding.value, binding.abi) ∈ available) :
    atKey (tableOf available).indices binding.value = .ok (indexOf available binding) := by
  simp only [atKey, tableOf, lookup_numbered hnodup hmem]
  rfl

/-- The compiled operation with its ports. -/
def withPorts (definitions : AvailableValues) (source : OperationProgramDescriptor)
    (compiled : CompiledOperationProgram) : CompiledOperationProgram :=
  { compiled with
    inputValues := portsOf definitions source.inputBindings
    outputValues := portsOf definitions source.outputBindings }

theorem compileFlow_tableOf {available more : AvailableValues}
    {source : OperationProgramDescriptor} {compiled : CompiledOperationProgram}
    (hnodup : ((available ++ produced source.outputBindings ++ more).map Prod.fst).Nodup)
    (hinputs : ∀ value ∈ produced source.inputBindings, value ∈ available) :
    compileFlow (tableOf available) source compiled =
      .ok (tableOf (available ++ produced source.outputBindings),
        withPorts (available ++ produced source.outputBindings ++ more) source compiled) := by
  have hstarts : ((available ++ produced source.outputBindings).map Prod.fst).Nodup := by
    rw [map_append] at hnodup
    exact hnodup.of_append_left
  have havailable : (available.map Prod.fst).Nodup := by
    rw [map_append] at hstarts
    exact hstarts.of_append_left
  have hports : compileEach (fun entry : String × ValueBinding =>
      (atKey (tableOf available).indices entry.2.value).map fun index => PortBinding.mk entry.1 index)
      source.inputBindings.entries =
      .ok (portsOf (available ++ produced source.outputBindings ++ more) source.inputBindings) := by
    apply compileEach_map
    intro entry hentry
    have hmem := hinputs (entry.2.value, entry.2.abi) (mem_produced.2 ⟨entry, hentry, rfl⟩)
    rw [atKey_tableOf havailable hmem, append_assoc, idxOf_mem_append hmem]
    rfl
  have hvalues := @addValues_tableOf available source.outputBindings.entries hstarts
  simp only [compileFlow, hports, hvalues, bind_ok_iff, Except.ok.injEq, exists_eq_left',
    pure_ok_iff, Prod.mk.injEq]
  refine ⟨rfl, ?_⟩
  simp only [withPorts, portsOf, map_map]
  congr 1
  apply map_congr_left
  intro entry hentry
  have hmem : (entry.2.value, entry.2.abi) ∈ available ++ produced source.outputBindings :=
    mem_append_right _ (mem_produced.2 ⟨entry, hentry, rfl⟩)
  simp only [Function.comp_apply, idxOf_mem_append hmem]
  rfl

theorem compileFlows_tableOf {available : AvailableValues}
    {sources : List OperationProgramDescriptor} {compiled : List CompiledOperationProgram}
    (hlength : compiled.length = sources.length)
    (hnodup : ((available ++ sources.flatMap fun source =>
      produced source.outputBindings).map Prod.fst).Nodup)
    (hflows : Flows available sources) :
    compileFlows (tableOf available) (sources.zip compiled) =
      .ok (tableOf (available ++ sources.flatMap fun source => produced source.outputBindings),
        List.zipWith (withPorts (available ++ sources.flatMap fun source =>
          produced source.outputBindings)) sources compiled) := by
  induction sources generalizing available compiled with
  | nil => simp [compileFlows]
  | cons source rest ih =>
    cases compiled with
    | nil => simp at hlength
    | cons first others =>
      have hassoc : available ++ (source :: rest).flatMap (fun source =>
          produced source.outputBindings) =
          (available ++ produced source.outputBindings) ++
            rest.flatMap fun source => produced source.outputBindings := by
        simp
      rw [hassoc] at hnodup ⊢
      have hfirst := @compileFlow_tableOf _ _ _ first hnodup hflows.1
      have hrest := @ih _ others (by simpa using hlength) hnodup hflows.2
      simp only [zip_cons_cons, compileFlows, hfirst, hrest, bind_ok_iff,
        Except.ok.injEq, exists_eq_left', pure_ok_iff, zipWith_cons_cons]

theorem ofNat_lt {place bound : Nat} (h : place < bound) : (UInt32.ofNat place).toNat < bound := by
  exact lt_of_le_of_lt (Nat.mod_le _ _) h

theorem atKey_ok {K V : Type} [DecidableEq K] {map : List (K × V)} {key : K}
    (hmem : key ∈ map.map Prod.fst) : ∃ value, atKey map key = .ok value ∧ (key, value) ∈ map := by
  cases hlookup : map.lookup key with
  | none => exact absurd hmem (lookup_eq_none_iff_not_mem.1 hlookup)
  | some value => exact ⟨value, by rw [atKey, hlookup], mem_of_lookup hlookup⟩

theorem kernelBindings_ok {key : KernelKey} (hmem : key ∈ requirementKeys descriptor) :
    ∃ kernel, atKey (kernelBindings descriptor) key = .ok kernel ∧
      kernel.toNat < descriptor.requiredKernels.length := by
  have hkey : key ∈ (kernelBindings descriptor).map Prod.fst := by
    obtain ⟨item, hitem, rfl⟩ := List.mem_map.1 hmem
    obtain ⟨index, hindex⟩ := List.getElem?_of_mem hitem
    simp only [kernelBindings, List.map_map, List.mem_map]
    exact ⟨(item, index), List.mem_zipIdx_iff_getElem?.2 hindex, rfl⟩
  obtain ⟨kernel, hat, hbinding⟩ := atKey_ok hkey
  refine ⟨kernel, hat, ?_⟩
  obtain ⟨entry, hentry, heq⟩ := List.mem_map.1 hbinding
  cases heq
  have hget := List.mem_zipIdx_iff_getElem?.1 hentry
  exact ofNat_lt (List.getElem?_eq_some_iff.1 hget).1

theorem compileComponent_ok (h : name ≠ "" → name ∈ descriptor.routedComponents.map (·.name)) :
    ∃ component, compileComponent descriptor name = .ok component ∧
      ∀ index, component = some index → index.toNat < descriptor.routedComponents.length := by
  by_cases hname : name = ""
  · exact ⟨none, by rw [compileComponent, if_pos hname], by simp⟩
  have hkey : name ∈ (componentIndices descriptor).map Prod.fst := by
    obtain ⟨item, hitem, hitemName⟩ := List.mem_map.1 (h hname)
    obtain ⟨index, hindex⟩ := List.getElem?_of_mem hitem
    simp only [componentIndices, List.map_map, List.mem_map]
    exact ⟨(item, index), List.mem_zipIdx_iff_getElem?.2 hindex, hitemName⟩
  obtain ⟨index, hat, hbinding⟩ := atKey_ok hkey
  refine ⟨some index, by rw [compileComponent, if_neg hname, hat]; rfl, ?_⟩
  intro other hother
  cases hother
  obtain ⟨entry, hentry, heq⟩ := List.mem_map.1 hbinding
  cases heq
  have hget := List.mem_zipIdx_iff_getElem?.1 hentry
  exact ofNat_lt (List.getElem?_eq_some_iff.1 hget).1

/-- A compiled layer refers to kernels and components that exist. -/
def LayerBound (descriptor : ModelDescriptor) (layer : CompiledLayerProgram) : Prop :=
  layer.blockKernelBinding.toNat < descriptor.requiredKernels.length ∧
    ∀ index, layer.routedComponentIndex = some index →
      index.toNat < descriptor.routedComponents.length

/-- So does a compiled operation. -/
def OperationBound (descriptor : ModelDescriptor) (operation : CompiledOperationProgram) : Prop :=
  operation.kernelBinding.toNat < descriptor.requiredKernels.length ∧
    ∀ index, operation.routedComponentIndex = some index →
      index.toNat < descriptor.routedComponents.length

theorem compileLayers_ok
    (h : ∀ layer ∈ descriptor.layerProgram,
      (layer.blockCapability, layer.blockAbiVersion) ∈ requirementKeys descriptor ∧
        (layer.routedComponent ≠ "" →
          layer.routedComponent ∈ descriptor.routedComponents.map (·.name))) : ∃ layers,
    compileEach (compileLayer descriptor) descriptor.layerProgram = .ok layers ∧
      List.Forall₂ (fun _ layer => LayerBound descriptor layer) descriptor.layerProgram layers := by
  apply compileEach_ok
  intro layer hlayer
  obtain ⟨kernel, hkernel, hbound⟩ := kernelBindings_ok (h layer hlayer).1
  obtain ⟨component, hcomponent, hinside⟩ := compileComponent_ok (h layer hlayer).2
  simp only [compileLayer, hkernel, hcomponent, bind_ok_iff, Except.ok.injEq, exists_eq_left',
    pure_ok_iff]
  exact ⟨hbound, hinside⟩

theorem compileOperations_ok (h : Validated descriptor) : ∃ operations,
    compileOperations descriptor = .ok operations ∧
      List.Forall₂ (fun source compiled => OperationBound descriptor compiled ∧
        compiled.logicalOperation = source.logicalOperation) descriptor.operationProgram
        operations := by
  rw [compileOperations, if_neg h.operations]
  apply compileEach_ok
  intro operation hoperation
  obtain ⟨kernel, hkernel, hbound⟩ := kernelBindings_ok (h.operationKernels operation hoperation)
  obtain ⟨component, hcomponent, hinside⟩ :=
    compileComponent_ok (h.operationComponents operation hoperation)
  simp only [compileOperation, hkernel, hcomponent, bind_ok_iff, Except.ok.injEq, exists_eq_left',
    pure_ok_iff]
  exact ⟨⟨hbound, hinside⟩, trivial⟩

/-- A compiled operation, with the ports of its source. -/
structure CompiledFrom (descriptor : ModelDescriptor) (source : OperationProgramDescriptor)
    (compiled : CompiledOperationProgram) : Prop where
  bound : OperationBound descriptor compiled
  logical : compiled.logicalOperation = source.logicalOperation
  inputs : compiled.inputValues = portsOf (definitions descriptor) source.inputBindings
  outputs : compiled.outputValues = portsOf (definitions descriptor) source.outputBindings

/-- What compilation makes of a validated program. -/
structure Compiled (descriptor : ModelDescriptor) (capabilities : List KernelCapability)
    (program : CompiledModelProgram) : Prop where
  kernels : program.kernels = compileKernels descriptor capabilities
  layers : List.Forall₂ (fun _ layer => LayerBound descriptor layer) descriptor.layerProgram
    program.layers
  operations : List.Forall₂ (CompiledFrom descriptor) descriptor.operationProgram
    program.operations
  values : program.values = (definitions descriptor).map fun value => ⟨value.1, value.2⟩
  inputs : program.inputs = endpointsOf (definitions descriptor) descriptor.programInputs
  outputs : program.outputs = endpointsOf (definitions descriptor) descriptor.programOutputs
  exactDecode : ∀ decode, program.exactDecode = some decode →
    decode.kernelBinding.toNat < descriptor.requiredKernels.length

theorem compileDataFlow_ok (h : Validated descriptor) {program : CompiledModelProgram}
    (hlength : program.operations.length = descriptor.operationProgram.length) :
    compileDataFlow descriptor program = .ok { program with
      operations := List.zipWith (withPorts (definitions descriptor)) descriptor.operationProgram
        program.operations
      values := (definitions descriptor).map fun value => ⟨value.1, value.2⟩
      inputs := endpointsOf (definitions descriptor) descriptor.programInputs
      outputs := endpointsOf (definitions descriptor) descriptor.programOutputs } := by
  have hinputNames : ((produced descriptor.programInputs).map Prod.fst).Nodup := by
    have hall := h.nodup
    rw [definitions, map_append] at hall
    exact hall.of_append_left
  have hinputs := @addValues_tableOf [] descriptor.programInputs.entries (by simpa [produced] using hinputNames)
  have hflows := @compileFlows_tableOf (produced descriptor.programInputs)
    descriptor.operationProgram program.operations hlength h.nodup h.flows
  have houtputs : compileEach (fun entry : String × ValueBinding =>
      (atKey (tableOf (definitions descriptor)).indices entry.2.value).map fun index =>
        CompiledProgramEndpoint.mk entry.1 index) descriptor.programOutputs.entries =
      .ok (endpointsOf (definitions descriptor) descriptor.programOutputs) := by
    apply compileEach_map
    intro entry hentry
    rw [atKey_tableOf h.nodup (h.outputs _ (mem_produced.2 ⟨entry, hentry, rfl⟩))]
    rfl
  have hstart : (tableOf []).addValues descriptor.programInputs.entries =
      (tableOf (produced descriptor.programInputs), descriptor.programInputs.entries.map
        fun entry => (entry.1, indexOf (produced descriptor.programInputs) entry.2)) := by
    simpa [produced] using hinputs
  have hempty : ({} : ValueTable) = tableOf [] := rfl
  simp only [compileDataFlow, hempty, hstart, bind_ok_iff, pure_ok_iff]
  refine ⟨_, hflows, _, houtputs, ?_⟩
  congr 1
  simp only [endpointsOf, map_map]
  apply map_congr_left
  intro entry hentry
  have hmem : (entry.2.value, entry.2.abi) ∈ produced descriptor.programInputs :=
    mem_produced.2 ⟨entry, hentry, rfl⟩
  simp only [Function.comp_apply, definitions, idxOf_mem_append hmem]

theorem compileExactDecode_ok
    (h : ∀ decode, descriptor.exactDecodeProgram = some decode →
      (decode.capability, decode.abiVersion) ∈ requirementKeys descriptor) : ∃ exactDecode,
    compileExactDecode descriptor = .ok exactDecode ∧ ∀ decode, exactDecode = some decode →
      decode.kernelBinding.toNat < descriptor.requiredKernels.length := by
  cases hdecode : descriptor.exactDecodeProgram with
  | none => exact ⟨none, by rw [compileExactDecode, hdecode], by simp⟩
  | some decode =>
    obtain ⟨kernel, hkernel, hbound⟩ := kernelBindings_ok (h decode hdecode)
    refine ⟨_, by simp only [compileExactDecode, hdecode, hkernel]; rfl, ?_⟩
    intro other hother
    cases hother
    exact hbound

theorem forall₂_withPorts {sources : List OperationProgramDescriptor}
    {compiled : List CompiledOperationProgram}
    (h : List.Forall₂ (fun source compiled => OperationBound descriptor compiled ∧
      compiled.logicalOperation = source.logicalOperation) sources compiled) :
    List.Forall₂ (CompiledFrom descriptor) sources
      (List.zipWith (withPorts (definitions descriptor)) sources compiled) := by
  induction h with
  | nil => exact .nil
  | cons hfirst _ ih => exact .cons ⟨hfirst.1, hfirst.2, rfl, rfl⟩ ih

theorem validateModelDescriptor_of_supports
    (h : providerSupportsModel descriptor capabilities = .ok ()) :
    validateModelDescriptor descriptor = .ok () := by
  simp only [providerSupportsModel, bind_ok_iff] at h
  obtain ⟨_, hvalid, -⟩ := h
  exact hvalid

theorem compileModelProgram_ok (hschema : descriptor.schemaVersion ≥ 3)
    (hsupports : providerSupportsModel descriptor capabilities = .ok ()) :
    ∃ program, compileModelProgram descriptor capabilities = .ok program ∧
      Compiled descriptor capabilities program := by
  have h := validated_of_ok (validateModelDescriptor_of_supports hsupports) hschema
  obtain ⟨layers, hlayers, hlayersBound⟩ :=
    compileLayers_ok fun layer hlayer => ⟨h.layerKernels layer hlayer, h.layerComponents layer hlayer⟩
  obtain ⟨operations, hoperations, hbound⟩ := compileOperations_ok h
  obtain ⟨exactDecode, hexact, hexactBound⟩ := compileExactDecode_ok h.exactKernel
  have hflow := @compileDataFlow_ok descriptor h
    { kernels := compileKernels descriptor capabilities, layers, operations } hbound.length_eq.symm
  refine ⟨{
      kernels := compileKernels descriptor capabilities
      layers
      operations := List.zipWith (withPorts (definitions descriptor)) descriptor.operationProgram
        operations
      values := (definitions descriptor).map fun value => ⟨value.1, value.2⟩
      inputs := endpointsOf (definitions descriptor) descriptor.programInputs
      outputs := endpointsOf (definitions descriptor) descriptor.programOutputs
      exactDecode }, ?_, ?_⟩
  · simp only [compileModelProgram, bind_ok_iff]
    refine ⟨(), hsupports, layers, hlayers, operations, hoperations, ?_⟩
    rw [if_pos hschema, hflow]
    simp only [bind_ok_iff, Except.ok.injEq, exists_eq_left', hexact, pure_ok_iff]
  · exact ⟨rfl, hlayersBound, forall₂_withPorts hbound, rfl, rfl, rfl, hexactBound⟩

end QuantumLlm.Runtime.Program
