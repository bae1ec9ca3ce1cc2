import QuantumLlm.Lib.Pointwise
import QuantumLlm.Runtime.Program.Ssa

/-!
# Indices that stand for one value each

Value indices are 32 bits wide and the cast that makes them is not checked. Up
to 2^32 definitions every index stands for one value; beyond, the first indices
come round again.
-/

namespace QuantumLlm.Runtime.Program

open List

variable {descriptor : ModelDescriptor} {capabilities : List KernelCapability}
  {program : CompiledModelProgram}

/-- The values that exist before an operation: those of the inputs and of the operations before it. -/
def CompiledModelProgram.definedBefore (program : CompiledModelProgram) (operation : Nat) :
    List UInt32 :=
  program.inputs.map (·.valueIndex) ++
    (program.operations.take operation).flatMap fun compiled =>
      compiled.outputValues.map (·.valueIndex)

def CompiledModelProgram.defined (program : CompiledModelProgram) : List UInt32 :=
  program.definedBefore program.operations.length

/-- An index leads to the value of a binding. -/
def CompiledModelProgram.StandsFor (program : CompiledModelProgram) (index : UInt32)
    (binding : ValueBinding) : Prop :=
  program.values[index.toNat]? = some ⟨binding.value, binding.abi⟩

/-- An operation and its source: same ports, inputs defined before, values of the same name and ABI. -/
structure OperationSsa (descriptor : ModelDescriptor) (program : CompiledModelProgram)
    (position : Nat) (source : OperationProgramDescriptor) (compiled : CompiledOperationProgram) :
    Prop where
  kernel : compiled.kernelBinding.toNat < program.kernels.length
  component : ∀ index, compiled.routedComponentIndex = some index →
    index.toNat < descriptor.routedComponents.length
  inputs : List.Forall₂ (fun entry port => port.port = entry.1 ∧
    port.valueIndex ∈ program.definedBefore position ∧ program.StandsFor port.valueIndex entry.2)
    source.inputBindings.entries compiled.inputValues
  outputs : List.Forall₂ (fun entry port => port.port = entry.1 ∧
    program.StandsFor port.valueIndex entry.2) source.outputBindings.entries compiled.outputValues

structure Ssa (descriptor : ModelDescriptor) (capabilities : List KernelCapability)
    (program : CompiledModelProgram) : Prop where
  kernels : ∀ kernel ∈ program.kernels,
    kernel.requirementIndex.toNat < descriptor.requiredKernels.length ∧
      kernel.providerCapabilityIndex.toNat < capabilities.length
  layers : ∀ layer ∈ program.layers, layer.blockKernelBinding.toNat < program.kernels.length ∧
    ∀ index, layer.routedComponentIndex = some index →
      index.toNat < descriptor.routedComponents.length
  exactDecode : ∀ decode, program.exactDecode = some decode →
    decode.kernelBinding.toNat < program.kernels.length
  length_eq : program.operations.length = descriptor.operationProgram.length
  operations : ∀ position source compiled, descriptor.operationProgram[position]? = some source →
    program.operations[position]? = some compiled →
    OperationSsa descriptor program position source compiled
  inRange : ∀ index ∈ program.defined, index.toNat < program.values.length
  once : ∀ index < program.values.length, (program.defined.map (·.toNat)).count index = 1
  inputs : List.Forall₂ (fun entry endpoint => endpoint.role = entry.1 ∧
    program.StandsFor endpoint.valueIndex entry.2) descriptor.programInputs.entries program.inputs
  outputs : List.Forall₂ (fun entry endpoint => endpoint.role = entry.1 ∧
    endpoint.valueIndex ∈ program.defined ∧ program.StandsFor endpoint.valueIndex entry.2)
    descriptor.programOutputs.entries program.outputs

/-- The values defined before an operation. -/
def definitionsBefore (descriptor : ModelDescriptor) (operation : Nat) : AvailableValues :=
  produced descriptor.programInputs ++
    (descriptor.operationProgram.take operation).flatMap fun source =>
      produced source.outputBindings

/-- The place of a value, as an index. -/
def placeOf (definitions : AvailableValues) (value : String × String) : UInt32 :=
  UInt32.ofNat (definitions.idxOf value)

theorem definitions_eq : definitions descriptor =
    definitionsBefore descriptor descriptor.operationProgram.length := by
  rw [definitions, definitionsBefore, take_length]

theorem definitionsBefore_starts (operation : Nat) :
    definitionsBefore descriptor operation <+: definitions descriptor := by
  refine prefix_append_right_inj _ |>.2 ?_
  conv => rhs; rw [← take_append_drop operation descriptor.operationProgram]
  rw [flatMap_append]
  exact prefix_append _ _

variable {position : Nat} {source : OperationProgramDescriptor} {value : String × String}

theorem Flows.inputs {available : AvailableValues} {operations : List OperationProgramDescriptor}
    (h : Flows available operations) (hsource : operations[position]? = some source) :
    ∀ value ∈ produced source.inputBindings, value ∈ available ++
      (operations.take position).flatMap fun source => produced source.outputBindings := by
  induction operations generalizing available position with
  | nil => simp at hsource
  | cons operation rest ih =>
    cases position with
    | zero =>
      obtain rfl : operation = source := by simpa using hsource
      simpa using h.1
    | succ position =>
      intro value hvalue
      have hmem := ih h.2 (by simpa using hsource) value hvalue
      simpa [append_assoc] using hmem

theorem Validated.inputs (h : Validated descriptor)
    (hsource : descriptor.operationProgram[position]? = some source) :
    ∀ value ∈ produced source.inputBindings, value ∈ definitionsBefore descriptor position :=
  h.flows.inputs hsource

theorem Validated.nodup_definitions (h : Validated descriptor) : (definitions descriptor).Nodup :=
  h.nodup.of_map _

theorem mem_definitions_of_output (hsource : descriptor.operationProgram[position]? = some source)
    (hvalue : value ∈ produced source.outputBindings) :
    value ∈ definitions descriptor := by
  refine mem_append_right _ (mem_flatMap.2 ⟨source, ?_, hvalue⟩)
  exact mem_of_getElem? hsource

theorem mem_definitions_of_input
    (hvalue : value ∈ produced descriptor.programInputs) : value ∈ definitions descriptor :=
  mem_append_left _ hvalue

theorem valueIndices_endpointsOf (all : AvailableValues) (bindings : OrderedMap String ValueBinding) :
    (endpointsOf all bindings).map (·.valueIndex) = (produced bindings).map (placeOf all) := by
  simp only [endpointsOf, produced, map_map]
  rfl

theorem valueIndices_portsOf (all : AvailableValues) (bindings : OrderedMap String ValueBinding) :
    (portsOf all bindings).map (·.valueIndex) = (produced bindings).map (placeOf all) := by
  simp only [portsOf, produced, map_map]
  rfl

theorem flatMap_outputs {sources : List OperationProgramDescriptor}
    {compiled : List CompiledOperationProgram}
    (h : List.Forall₂ (CompiledFrom descriptor) sources compiled) :
    compiled.flatMap (fun operation => operation.outputValues.map (·.valueIndex)) =
      (sources.flatMap fun source => produced source.outputBindings).map
        (placeOf (definitions descriptor)) := by
  induction h with
  | nil => rfl
  | cons hfirst _ ih =>
    rw [flatMap_cons, flatMap_cons, map_append, ih, hfirst.outputs, valueIndices_portsOf]

section

variable (h : Compiled descriptor capabilities program)

include h

theorem Compiled.definedBefore (position : Nat) :
    program.definedBefore position =
      (definitionsBefore descriptor position).map (placeOf (definitions descriptor)) := by
  rw [CompiledModelProgram.definedBefore, definitionsBefore, map_append, h.inputs,
    valueIndices_endpointsOf, flatMap_outputs (forall₂_take position h.operations)]

theorem Compiled.defined :
    program.defined = (definitions descriptor).map (placeOf (definitions descriptor)) := by
  rw [CompiledModelProgram.defined, ← h.operations.length_eq, h.definedBefore, ← definitions_eq]

theorem Compiled.length_values :
    program.values.length = (definitions descriptor).length := by
  rw [h.values, length_map]

theorem Compiled.defined_toNat (hvalid : Validated descriptor) :
    program.defined.map (·.toNat) =
      (List.range (definitions descriptor).length).map (· % 2 ^ 32) := by
  rw [h.defined, ← map_idxOf hvalid.nodup_definitions, map_map, map_map]
  apply map_congr_left
  intro value _
  simp only [Function.comp_apply, placeOf, UInt32.toNat_ofNat']

end

theorem toNat_placeOf (hfits : (definitions descriptor).length ≤ 2 ^ 32)
    (hmem : value ∈ definitions descriptor) :
    (placeOf (definitions descriptor) value).toNat = (definitions descriptor).idxOf value := by
  exact Nat.mod_eq_of_lt (lt_of_lt_of_le (idxOf_lt_length_of_mem hmem) hfits)

theorem Compiled.standsFor (h : Compiled descriptor capabilities program)
    (hfits : (definitions descriptor).length ≤ 2 ^ 32) {binding : ValueBinding}
    (hmem : (binding.value, binding.abi) ∈ definitions descriptor) :
    program.StandsFor (indexOf (definitions descriptor) binding) binding := by
  have hplace := toNat_placeOf hfits hmem
  rw [placeOf] at hplace
  rw [CompiledModelProgram.StandsFor, h.values, indexOf, hplace, getElem?_map, getElem?_idxOf hmem]
  rfl

theorem count_range {length index : Nat} (h : index < length) :
    (List.range length).count index = 1 :=
  count_eq_one_of_mem nodup_range (mem_range.2 h)

theorem count_range_mod {length modulus : Nat} (hpos : 0 < modulus) (h : modulus < length) :
    2 ≤ ((List.range length).map (· % modulus)).count 0 := by
  obtain ⟨more, rfl⟩ := Nat.exists_eq_add_of_lt h
  have hsplit : List.range (modulus + more + 1) =
      List.range modulus ++ (List.range (more + 1)).map (modulus + ·) := by
    rw [Nat.add_assoc, range_add]
  have hfirst : [0].Sublist (List.range modulus) :=
    singleton_sublist.2 (mem_range.2 hpos)
  have hsecond : [modulus].Sublist ((List.range (more + 1)).map (modulus + ·)) :=
    singleton_sublist.2 (mem_map.2 ⟨0, by simp, by simp⟩)
  have hboth := ((hfirst.append hsecond).map (· % modulus)).count_le 0
  rw [hsplit]
  simpa using hboth

theorem checkCapability_ok {required : KernelRequirement}
    (h : checkCapability descriptor capabilities required = .ok ()) :
    capabilities.findIdx (kernelMatches required) < capabilities.length := by
  rw [findIdx_lt_length]
  cases hfind : capabilities.find? (kernelMatches required) with
  | none => simp [checkCapability, hfind] at h
  | some found => exact ⟨found, mem_of_find?_eq_some hfind, find?_some hfind⟩

section

variable (h : Compiled descriptor capabilities program)

include h

theorem Compiled.kernels_length :
    program.kernels.length = descriptor.requiredKernels.length := by
  rw [h.kernels, compileKernels, length_map, length_zipIdx]

theorem Compiled.kernels_inRange
    (hsupports : providerSupportsModel descriptor capabilities = .ok ()) :
    ∀ kernel ∈ program.kernels,
      kernel.requirementIndex.toNat < descriptor.requiredKernels.length ∧
        kernel.providerCapabilityIndex.toNat < capabilities.length := by
  simp only [providerSupportsModel, bind_ok_iff, checkAll_ok_iff] at hsupports
  obtain ⟨_, -, hcapabilities⟩ := hsupports
  intro kernel hkernel
  rw [h.kernels] at hkernel
  obtain ⟨entry, hentry, rfl⟩ := List.mem_map.1 hkernel
  have hget := List.mem_zipIdx_iff_getElem?.1 hentry
  exact ⟨ofNat_lt (List.getElem?_eq_some_iff.1 hget).1,
    ofNat_lt (checkCapability_ok (hcapabilities entry.1 (List.mem_of_getElem? hget)))⟩

theorem Compiled.operationSsa
    (hvalid : Validated descriptor) (hfits : (definitions descriptor).length ≤ 2 ^ 32)
     {compiled : CompiledOperationProgram}
    (hsource : descriptor.operationProgram[position]? = some source)
    (hcompiled : program.operations[position]? = some compiled) :
    OperationSsa descriptor program position source compiled := by
  have hfrom := forall₂_getElem? h.operations hsource hcompiled
  constructor
  case kernel =>
    rw [h.kernels_length]
    exact hfrom.bound.1
  case component => exact hfrom.bound.2
  case inputs =>
    rw [hfrom.inputs]
    apply forall₂_map
    intro entry hentry
    have hbefore := hvalid.inputs hsource _ (mem_produced.2 ⟨entry, hentry, rfl⟩)
    refine ⟨rfl, ?_, h.standsFor hfits ((definitionsBefore_starts position).subset hbefore)⟩
    rw [h.definedBefore]
    exact mem_map.2 ⟨_, hbefore, rfl⟩
  case outputs =>
    rw [hfrom.outputs]
    apply forall₂_map
    intro entry hentry
    exact ⟨rfl, h.standsFor hfits
      (mem_definitions_of_output hsource (mem_produced.2 ⟨entry, hentry, rfl⟩))⟩

theorem Compiled.ssa (hsupports : providerSupportsModel descriptor capabilities = .ok ())
    (hvalid : Validated descriptor) (hfits : (definitions descriptor).length ≤ 2 ^ 32) :
    Ssa descriptor capabilities program := by
  have hrange : program.defined.map (·.toNat) = List.range (definitions descriptor).length := by
    rw [h.defined_toNat hvalid]
    conv => rhs; rw [← map_id (List.range _)]
    apply map_congr_left
    intro index hindex
    exact Nat.mod_eq_of_lt (lt_of_lt_of_le (mem_range.1 hindex) hfits)
  constructor
  case kernels => exact h.kernels_inRange hsupports
  case layers =>
    intro layer hlayer
    rw [h.kernels_length]
    obtain ⟨_, -, hbound⟩ := forall₂_mem_right h.layers hlayer
    exact hbound
  case exactDecode =>
    rw [h.kernels_length]
    exact h.exactDecode
  case length_eq => exact h.operations.length_eq.symm
  case operations =>
    intro position source compiled hsource hcompiled
    exact h.operationSsa hvalid hfits hsource hcompiled
  case inRange =>
    intro index hindex
    have hmem : index.toNat ∈ List.range (definitions descriptor).length := by
      rw [← hrange]
      exact mem_map.2 ⟨index, hindex, rfl⟩
    rw [h.length_values]
    exact mem_range.1 hmem
  case once =>
    intro index hindex
    rw [hrange]
    exact count_range (by rwa [h.length_values] at hindex)
  case inputs =>
    rw [h.inputs]
    apply forall₂_map
    intro entry hentry
    exact ⟨rfl, h.standsFor hfits (mem_definitions_of_input (mem_produced.2 ⟨entry, hentry, rfl⟩))⟩
  case outputs =>
    rw [h.outputs]
    apply forall₂_map
    intro entry hentry
    have hmem := hvalid.outputs _ (mem_produced.2 ⟨entry, hentry, rfl⟩)
    refine ⟨rfl, ?_, h.standsFor hfits hmem⟩
    rw [h.defined]
    exact mem_map.2 ⟨_, hmem, rfl⟩

theorem Compiled.fits_of_once (hvalid : Validated descriptor)
    (honce : ∀ index < program.values.length, (program.defined.map (·.toNat)).count index = 1) :
    (definitions descriptor).length ≤ 2 ^ 32 := by
  by_contra hlong
  have hpos : 0 < program.values.length := by
    rw [h.length_values]
    omega
  have htwice := @count_range_mod (definitions descriptor).length (2 ^ 32) (by omega) (by omega)
  rw [← h.defined_toNat hvalid, honce 0 hpos] at htwice
  omega

end

end QuantumLlm.Runtime.Program
