import QuantumLlm.Lib.Halving
import QuantumLlm.Lib.Pointwise
import QuantumLlm.Runtime.Program.Ssa

/-!
# Operations by layer

The operations of a layer are looked up by searches that take the program to be in the
order of its layers. Validation asks that of the operations of layers only: those at the
model level, whose layer number is the greatest there is, may stand between them.
-/

namespace QuantumLlm.Runtime.Program

open List

variable {descriptor : ModelDescriptor} {capabilities : List KernelCapability}
  {program : CompiledModelProgram}

/-- `MoeVirtualMachine::operations`, by `lower_bound` and from there `upper_bound`. -/
def CompiledModelProgram.operationsOf (program : CompiledModelProgram) (logicalLayer : UInt32) :
    List CompiledOperationProgram :=
  Halving.equalRange (fun operation => decide (operation.logicalLayer < logicalLayer))
    (fun operation => decide (logicalLayer < operation.logicalLayer)) program.operations

/-- The layer and the kernel of every operation, as the artifact declares them. -/
def declaredOperations (descriptor : ModelDescriptor) : List (UInt32 × KernelKey) :=
  if descriptor.operationProgram = [] then
    descriptor.layerProgram.map fun layer =>
      (layer.logicalLayer, layer.blockCapability, layer.blockAbiVersion)
  else
    descriptor.operationProgram.map fun operation =>
      (operation.logicalLayer, operation.capability, operation.abiVersion)

/-- A compiled operation is on its layer and has the binding of its kernel. -/
def Bound (descriptor : ModelDescriptor) (declared : UInt32 × KernelKey)
    (operation : CompiledOperationProgram) : Prop :=
  operation.logicalLayer = declared.1 ∧
    atKey (kernelBindings descriptor) declared.2 = .ok operation.kernelBinding

theorem compileEach_forall₂ {α β : Type} {compile : α → Except Status β} {items : List α}
    {results : List β} (h : compileEach compile items = .ok results) :
    List.Forall₂ (fun item result => compile item = .ok result) items results := by
  induction items generalizing results with
  | nil =>
    cases h
    exact .nil
  | cons item rest ih =>
    simp only [compileEach, bind_ok_iff, pure_ok_iff] at h
    obtain ⟨result, hresult, others, hothers, rfl⟩ := h
    exact .cons hresult (ih hothers)

theorem compileOperations_bound {operations : List CompiledOperationProgram}
    (h : compileOperations descriptor = .ok operations) :
    List.Forall₂ (Bound descriptor) (declaredOperations descriptor) operations := by
  unfold compileOperations at h
  unfold declaredOperations
  by_cases hlegacy : descriptor.operationProgram = []
  · rw [if_pos hlegacy] at h ⊢
    have hzip : descriptor.layerProgram = descriptor.layerProgram.zipIdx.map Prod.fst :=
      zipIdx_map_fst 0 _ |>.symm
    rw [hzip, map_map, forall₂_map_left_iff]
    refine (compileEach_forall₂ h).imp fun entry operation hcompiled => ?_
    simp only [compileLegacyOperation, bind_ok_iff, pure_ok_iff] at hcompiled
    obtain ⟨component, -, kernel, hkernel, rfl⟩ := hcompiled
    exact ⟨rfl, hkernel⟩
  · rw [if_neg hlegacy] at h ⊢
    rw [forall₂_map_left_iff]
    refine (compileEach_forall₂ h).imp fun source operation hcompiled => ?_
    simp only [compileOperation, bind_ok_iff, pure_ok_iff] at hcompiled
    obtain ⟨component, -, kernel, hkernel, rfl⟩ := hcompiled
    exact ⟨rfl, hkernel⟩

theorem compileFlows_kept {table : ValueTable} {sources : List OperationProgramDescriptor}
    {compiled : List CompiledOperationProgram} {result : ValueTable × List CompiledOperationProgram}
    (hlength : sources.length = compiled.length)
    (h : compileFlows table (sources.zip compiled) = .ok result) :
    List.Forall₂ (fun before after => after.logicalLayer = before.logicalLayer ∧
      after.kernelBinding = before.kernelBinding) compiled result.2 := by
  induction compiled generalizing table sources result with
  | nil =>
    rw [zip_nil_right, compileFlows] at h
    cases h
    exact .nil
  | cons first others ih =>
    cases sources with
    | nil => cases hlength
    | cons source rest =>
      simp only [zip_cons_cons, compileFlows, compileFlow, bind_ok_iff, pure_ok_iff] at h
      obtain ⟨middle, ⟨inputs, -, rfl⟩, last, hlast, rfl⟩ := h
      exact .cons ⟨rfl, rfl⟩ (ih (Nat.succ.inj hlength) hlast)

theorem validate_of_compile (h : compileModelProgram descriptor capabilities = .ok program) :
    validateModelDescriptor descriptor = .ok () := by
  simp only [compileModelProgram, bind_ok_iff] at h
  obtain ⟨_, hsupports, -⟩ := h
  exact validateModelDescriptor_of_supports hsupports

theorem operationProgram_ne_nil (h : validateModelDescriptor descriptor = .ok ())
    (hschema : descriptor.schemaVersion ≥ 2) : descriptor.operationProgram ≠ [] := by
  simp only [validateModelDescriptor, checkOperations, bind_ok_iff, require_ok_iff] at h
  obtain ⟨_, -, _, -, _, -, requirements, -, _, -, _, -, logicalLayers, -, _, -, _, ⟨_, hsome, -⟩,
    -⟩ := h
  exact fun hnil => hsome ⟨hschema, hnil⟩

theorem compile_bound (h : compileModelProgram descriptor capabilities = .ok program) :
    List.Forall₂ (Bound descriptor) (declaredOperations descriptor) program.operations := by
  have hvalid := validate_of_compile h
  simp only [compileModelProgram, bind_ok_iff] at h
  obtain ⟨_, -, layers, -, operations, hoperations, h⟩ := h
  have hbound := compileOperations_bound hoperations
  by_cases hschema : descriptor.schemaVersion ≥ 3
  · simp only [if_pos hschema, compileDataFlow, bind_ok_iff, pure_ok_iff] at h
    obtain ⟨flowing, ⟨flows, hflows, outputs, -, rfl⟩, exactDecode, -, rfl⟩ := h
    have hsome := operationProgram_ne_nil hvalid
      (UInt32.le_trans (by decide : (2 : UInt32) ≤ 3) hschema)
    have hlength : descriptor.operationProgram.length = operations.length := by
      rw [← hbound.length_eq, declaredOperations, if_neg hsome, length_map]
    refine (forall₂_comp hbound (compileFlows_kept hlength hflows)).imp ?_
    intro declared operation hboth
    obtain ⟨before, ⟨hlayer, hkernel⟩, hkeptLayer, hkeptKernel⟩ := hboth
    exact ⟨hkeptLayer.trans hlayer, by rw [hkeptKernel, hkernel]⟩
  · simp only [if_neg hschema, bind_ok_iff, pure_ok_iff] at h
    obtain ⟨flowing, rfl, exactDecode, -, rfl⟩ := h
    exact hbound

theorem checkLayers_numbered {requirements : List KernelKey} {seen result : List UInt32}
    {layers : List LayerProgramDescriptor}
    (h : checkLayers descriptor requirements seen layers = .ok result) :
    result = seen ++ layers.map (·.logicalLayer) ∧
      ∀ place (hplace : place < layers.length),
        layers[place].logicalLayer.toNat = seen.length + place := by
  induction layers generalizing seen with
  | nil =>
    cases h
    exact ⟨(append_nil _).symm, fun place hplace => absurd hplace (Nat.not_lt_zero _)⟩
  | cons layer rest ih =>
    simp only [checkLayers, bind_ok_iff, require_ok_iff, not_or, not_not] at h
    obtain ⟨_, ⟨-, -, hlayer, -, -⟩, _, -, hrest⟩ := h
    obtain ⟨hresult, hnumbered⟩ := ih hrest
    constructor
    · rw [hresult, append_assoc, map_cons, singleton_append]
    · intro place hplace
      cases place with
      | zero => exact hlayer
      | succ place =>
        have hlater := hnumbered place (Nat.lt_of_succ_lt_succ hplace)
        rw [length_append, length_singleton] at hlater
        rw [getElem_cons_succ, hlater]
        omega

/-- What the scan has checked of the layers: those of layers are known and in order, and they are
what it collects. -/
structure Scanned (logicalLayers : List UInt32) (scan result : OperationScan)
    (operations : List OperationProgramDescriptor) : Prop where
  known : ∀ operation ∈ operations, operation.modelLevel = false →
    operation.logicalLayer ∈ logicalLayers
  ordered : operations.Pairwise fun earlier later => earlier.modelLevel = false →
    later.modelLevel = false → earlier.logicalLayer ≤ later.logicalLayer
  later : scan.firstOperation = false → ∀ operation ∈ operations, operation.modelLevel = false →
    scan.previousLayer ≤ operation.logicalLayer
  collected : ∀ layer ∈ result.operationLayers, layer ∈ scan.operationLayers ∨
    ∃ operation ∈ operations, operation.modelLevel = false ∧ operation.logicalLayer = layer

theorem scanOperations_scanned {requirements : List KernelKey} {logicalLayers : List UInt32}
    {scan result : OperationScan} {operations : List OperationProgramDescriptor}
    (h : scanOperations descriptor requirements logicalLayers scan operations = .ok result) :
    Scanned logicalLayers scan result operations := by
  induction operations generalizing scan with
  | nil =>
    cases h
    exact ⟨by simp, .nil, by simp, fun layer hlayer => .inl hlayer⟩
  | cons operation rest ih =>
    simp only [scanOperations, checkOperation, bind_ok_iff, require_ok_iff, pure_ok_iff, not_or,
      not_and, not_not] at h
    obtain ⟨next, ⟨_, ⟨-, -, -, -, hknown, -, hlater, -⟩, _, -, _, -, _, -, _, -, rfl⟩, hrest⟩ := h
    obtain ⟨hrestKnown, hordered, hrestLater, hcollected⟩ := ih hrest
    cases hmodel : operation.modelLevel with
    | true =>
      simp only [hmodel, if_true, Bool.true_and] at hrestLater hcollected
      refine ⟨?_, ?_, ?_, ?_⟩
      · intro other hother hlayer
        rcases mem_cons.1 hother with rfl | hother
        · rw [hmodel] at hlayer
          cases hlayer
        · exact hrestKnown other hother hlayer
      · refine pairwise_cons.2 ⟨fun other _ hlayer => ?_, hordered⟩
        rw [hmodel] at hlayer
        cases hlayer
      · intro hfirst other hother hlayer
        rcases mem_cons.1 hother with rfl | hother
        · rw [hmodel] at hlayer
          cases hlayer
        · exact hrestLater hfirst other hother hlayer
      · intro layer hlayer
        rcases hcollected layer hlayer with hold | ⟨other, hother, hlevel⟩
        · exact .inl hold
        · exact .inr ⟨other, mem_cons_of_mem _ hother, hlevel⟩
    | false =>
      simp only [hmodel, Bool.false_eq_true, if_false, Bool.false_and] at hrestLater hcollected
      have hfollows := hrestLater trivial
      refine ⟨?_, pairwise_cons.2 ⟨fun other hother _ => hfollows other hother, hordered⟩, ?_, ?_⟩
      · intro other hother hlayer
        rcases mem_cons.1 hother with rfl | hother
        · exact hknown hmodel
        · exact hrestKnown other hother hlayer
      · intro hfirst other hother hlayer
        have hhead : scan.previousLayer ≤ operation.logicalLayer :=
          UInt32.not_lt.1 (hlater hmodel hfirst)
        rcases mem_cons.1 hother with rfl | hother
        · exact hhead
        · exact UInt32.le_trans hhead (hfollows other hother hlayer)
      · intro layer hlayer
        rcases hcollected layer hlayer with hold | ⟨other, hother, hlevel⟩
        · rcases mem_append.1 hold with hold | hnew
          · exact .inl hold
          · exact .inr ⟨operation, mem_cons_self, hmodel, (mem_singleton.1 hnew).symm⟩
        · exact .inr ⟨other, mem_cons_of_mem _ hother, hlevel⟩

/-- What validation promises of the layers, whatever the schema version. -/
structure Layered (descriptor : ModelDescriptor) : Prop where
  numbered : ∀ place (hplace : place < descriptor.layerProgram.length),
    descriptor.layerProgram[place].logicalLayer.toNat = place
  known : ∀ operation ∈ descriptor.operationProgram, operation.modelLevel = false →
    ∃ layer ∈ descriptor.layerProgram, layer.logicalLayer = operation.logicalLayer
  ordered : descriptor.operationProgram.Pairwise fun earlier later => earlier.modelLevel = false →
    later.modelLevel = false → earlier.logicalLayer ≤ later.logicalLayer
  covered : descriptor.operationProgram ≠ [] → ∀ layer ∈ descriptor.layerProgram,
    layer.logicalLayer ≠ kModelLevelOperationLayer

theorem layered_of_ok (h : validateModelDescriptor descriptor = .ok ()) : Layered descriptor := by
  simp only [validateModelDescriptor, checkOperations, bind_ok_iff] at h
  obtain ⟨_, -, _, -, _, -, requirements, -, _, -, _, -, logicalLayers, hlayers, _, -, _,
    ⟨_, -, hoperations⟩, -⟩ := h
  obtain ⟨rfl, hnumbered⟩ := checkLayers_numbered hlayers
  by_cases hnone : descriptor.operationProgram = []
  · exact
      { numbered := fun place hplace => by simpa using hnumbered place hplace
        known := by simp [hnone]
        ordered := by simp [hnone]
        covered := fun hsome => absurd hnone hsome }
  rw [if_neg hnone, bind_ok_iff] at hoperations
  obtain ⟨scan, hscan, hoperations⟩ := hoperations
  simp only [bind_ok_iff, require_ok_iff, all_eq_true, decide_eq_true_eq] at hoperations
  obtain ⟨_, ⟨-, -, hcovers⟩, -⟩ := hoperations
  have hscanned := scanOperations_scanned hscan
  exact
    { numbered := fun place hplace => by simpa using hnumbered place hplace
      known := fun operation hmem hlayer => mem_map.1 (hscanned.known operation hmem hlayer)
      ordered := hscanned.ordered
      covered := by
        intro _ layer hlayer hmodel
        have hmem := hcovers _ (mem_map.2 ⟨layer, hlayer, rfl⟩)
        rcases hscanned.collected _ hmem with hnil | ⟨operation, -, hlevel, hsame⟩
        · cases hnil
        · rw [OperationProgramDescriptor.modelLevel, hsame, hmodel] at hlevel
          simp at hlevel }

/-- From the first operation at the model level on there is no operation of a layer. -/
def ModelLevelLast (descriptor : ModelDescriptor) : Prop :=
  descriptor.operationProgram.Pairwise fun earlier later =>
    earlier.modelLevel = true → later.modelLevel = true

instance : Decidable (ModelLevelLast descriptor) :=
  inferInstanceAs (Decidable (List.Pairwise _ _))

/-- A lookup finds the operations of its layer in the order of the program, and none at the model
level. An artifact without an operation program has none of those. -/
structure ExactLookup (descriptor : ModelDescriptor) (program : CompiledModelProgram)
    (layer : UInt32) : Prop where
  operations : program.operationsOf layer =
    program.operations.filter fun operation => operation.logicalLayer = layer
  layered : descriptor.operationProgram ≠ [] → ∀ operation ∈ program.operationsOf layer,
    operation.logicalLayer ≠ kModelLevelOperationLayer

theorem operations_layers (h : List.Forall₂ (Bound descriptor) (declaredOperations descriptor)
    program.operations) : program.operations.map (·.logicalLayer) =
      (declaredOperations descriptor).map Prod.fst := by
  generalize declaredOperations descriptor = declared, program.operations = operations at h
  induction h with
  | nil => rfl
  | cons hfirst _ ih => rw [map_cons, map_cons, hfirst.1, ih]

theorem le_modelLevel (layer : UInt32) : layer ≤ kModelLevelOperationLayer := by
  exact Nat.le_of_lt_succ layer.toNat_lt

theorem declaredOperations_ordered (h : Layered descriptor) (hlast : ModelLevelLast descriptor) :
    ((declaredOperations descriptor).map Prod.fst).Pairwise (· ≤ ·) := by
  unfold declaredOperations
  split
  · rw [map_map, pairwise_map, pairwise_iff_getElem]
    intro earlier later hearlier hlater hlt
    rw [UInt32.le_iff_toNat_le, Function.comp_apply, Function.comp_apply]
    rw [h.numbered earlier hearlier, h.numbered later hlater]
    exact hlt.le
  · rw [map_map, pairwise_map]
    refine (h.ordered.and hlast).imp ?_
    intro earlier later hboth
    obtain ⟨hordered, hmodel⟩ := hboth
    by_cases hlater : later.modelLevel = true
    · rw [Function.comp_apply, Function.comp_apply, of_decide_eq_true hlater]
      exact le_modelLevel _
    · rw [Bool.not_eq_true] at hlater
      refine hordered ?_ hlater
      by_contra hearlier
      rw [hmodel (by simpa using hearlier)] at hlater
      cases hlater

theorem neither_eq (layer : UInt32) (operation : CompiledOperationProgram) :
    (!decide (operation.logicalLayer < layer) && !decide (layer < operation.logicalLayer)) =
      decide (operation.logicalLayer = layer) := by
  rw [← decide_not, ← decide_not, ← Bool.decide_and, decide_eq_decide, UInt32.not_lt, UInt32.not_lt]
  exact ⟨fun h => UInt32.le_antisymm h.2 h.1, fun h => by subst h; exact ⟨UInt32.le_refl _, UInt32.le_refl _⟩⟩

theorem operationsOf_ordered
    (h : program.operations.Pairwise fun earlier later => earlier.logicalLayer ≤ later.logicalLayer)
    (layer : UInt32) : program.operationsOf layer =
      program.operations.filter fun operation => operation.logicalLayer = layer := by
  rw [CompiledModelProgram.operationsOf, Halving.equalRange_ordered]
  · simp only [neither_eq]
  · refine h.imp fun hle hless => ?_
    rw [decide_eq_true_eq] at hless ⊢
    exact UInt32.lt_of_le_of_lt hle hless
  · refine h.imp fun hle hless => ?_
    rw [decide_eq_true_eq] at hless ⊢
    exact UInt32.lt_of_lt_of_le hless hle

theorem modelLevel_of_exact {place : Nat} (h : Layered descriptor)
    (hbound : List.Forall₂ (Bound descriptor) (declaredOperations descriptor) program.operations)
    (hexact : ∀ layer ∈ descriptor.layerProgram,
      ExactLookup descriptor program layer.logicalLayer)
    (hplace : place + 1 < descriptor.operationProgram.length)
    (hmodel : descriptor.operationProgram[place].modelLevel = true) :
    descriptor.operationProgram[place + 1].modelLevel = true := by
  by_contra hlayered
  rw [Bool.not_eq_true] at hlayered
  have hsome : descriptor.operationProgram ≠ [] := by
    intro hnil
    rw [hnil] at hplace
    exact absurd hplace (Nat.not_lt_zero _)
  have hlayers := operations_layers hbound
  rw [declaredOperations, if_neg hsome, map_map] at hlayers
  have hlength : program.operations.length = descriptor.operationProgram.length := by
    simpa using congrArg List.length hlayers
  have hat : ∀ position (hposition : position < descriptor.operationProgram.length),
      program.operations[position].logicalLayer =
        descriptor.operationProgram[position].logicalLayer := by
    intro position hposition
    have hsame := congrArg (·[position]?) hlayers
    simpa [hlength, hposition] using hsame
  obtain ⟨layer, hlayer, hsame⟩ := h.known _ (getElem_mem hplace) hlayered
  have hfound := (hexact layer hlayer).operations
  simp only [← neither_eq] at hfound
  have hbefore := Halving.before_of_exact_range (by omega : place + 1 < program.operations.length)
    hfound (by rw [hat _ hplace, hsame]; simp)
  rw [hat place (by omega), of_decide_eq_true hmodel] at hbefore
  rcases hbefore with hless | hnot
  · exact absurd (of_decide_eq_true hless) (UInt32.not_lt.2 (le_modelLevel _))
  · have hle := UInt32.not_lt.1 (of_decide_eq_false hnot)
    exact h.covered hsome layer hlayer (UInt32.le_antisymm (le_modelLevel _) hle)

/-- The lookup of every layer is exact if and only if the operations at the model level are the
last ones. -/
theorem lookups_exact_iff (h : compileModelProgram descriptor capabilities = .ok program) :
    (∀ layer ∈ descriptor.layerProgram, ExactLookup descriptor program layer.logicalLayer) ↔
      ModelLevelLast descriptor := by
  have hlayered := layered_of_ok (validate_of_compile h)
  have hbound := compile_bound h
  constructor
  · intro hexact
    apply pairwise_iff_getElem.2
    intro earlier later hearlier hlater hlt hmodel
    induction later, hlt using Nat.le_induction with
    | base => exact modelLevel_of_exact hlayered hbound hexact hlater hmodel
    | succ later hle ih => exact modelLevel_of_exact hlayered hbound hexact hlater (ih (by omega))
  · intro hlast layer hlayer
    have hordered := declaredOperations_ordered hlayered hlast
    rw [← operations_layers hbound, pairwise_map] at hordered
    have hfound := operationsOf_ordered hordered layer.logicalLayer
    refine ⟨hfound, fun hsome operation hoperation => ?_⟩
    rw [hfound] at hoperation
    have hsame : operation.logicalLayer = layer.logicalLayer := by
      simpa using of_mem_filter hoperation
    rw [hsame]
    exact hlayered.covered hsome layer hlayer

/-- One value, under the name of a port. -/
def port (name value : String) : OrderedMap String ValueBinding :=
  OrderedMap.empty.emplace name ⟨value, "fixture.scalar.u64.v1"⟩

/-- One layer, with the embedding in front of it or in it, and the head behind. -/
def fixture (embeddingLayer : UInt32) : ModelDescriptor where
  schemaVersion := 3
  architectureId := "unknown.future.architecture"
  vocabSize := 8192
  maxContextTokens := 4096
  hiddenSize := 64
  requiredKernels :=
    [⟨"fixture.embed.v7", 7⟩, ⟨"fixture.transform.v11", 11⟩, ⟨"fixture.head.v3", 3⟩]
  layerProgram := [{ blockCapability := "fixture.transform.v11", blockAbiVersion := 11 }]
  operationProgram :=
    [{ logicalLayer := embeddingLayer
       capability := "fixture.embed.v7"
       abiVersion := 7
       inputBindings := port "token" "request.token"
       outputBindings := port "hidden" "embedded.hidden" },
     { logicalOperation := 1
       capability := "fixture.transform.v11"
       abiVersion := 11
       inputBindings := port "hidden" "embedded.hidden"
       outputBindings := port "hidden" "transformed.hidden" },
     { logicalOperation := 2
       logicalLayer := kModelLevelOperationLayer
       capability := "fixture.head.v3"
       abiVersion := 3
       inputBindings := port "hidden" "transformed.hidden"
       outputBindings := port "token" "response.token" }]
  programInputs := port "token" "request.token"
  programOutputs := port "next_token" "response.token"

def fixtureProvider : List KernelCapability :=
  [⟨"fixture.embed.v7", 7, 7, none⟩, ⟨"fixture.transform.v11", 11, 11, none⟩,
    ⟨"fixture.head.v3", 3, 3, none⟩]

theorem fixture_compiles (embeddingLayer : UInt32)
    (h : embeddingLayer ∈ [0, kModelLevelOperationLayer]) : ∃ program,
      compileModelProgram (fixture embeddingLayer) fixtureProvider = .ok program := by
  have hok : ([0, kModelLevelOperationLayer].all fun layer =>
      (compileModelProgram (fixture layer) fixtureProvider).isOk) = true := by
    decide +kernel
  have hfixture := all_eq_true.1 hok embeddingLayer h
  cases hcompiled : compileModelProgram (fixture embeddingLayer) fixtureProvider with
  | error status =>
    rw [hcompiled] at hfixture
    cases hfixture
  | ok program => exact ⟨program, rfl⟩

/-- With the embedding in the layer only the head is at the model level. -/
theorem lookups_exact_behind_embedding : ∃ program,
    compileModelProgram (fixture 0) fixtureProvider = .ok program ∧
      ∀ layer ∈ (fixture 0).layerProgram, ExactLookup (fixture 0) program layer.logicalLayer := by
  obtain ⟨program, hprogram⟩ := fixture_compiles 0 (by decide)
  exact ⟨program, hprogram, (lookups_exact_iff hprogram).2 (by decide)⟩

/-- With the embedding at the model level the lookup of the layer finds it as well. -/
theorem lookup_finds_embedding : ∃ program,
    compileModelProgram (fixture kModelLevelOperationLayer) fixtureProvider = .ok program ∧
      (program.operationsOf 0).map (·.logicalLayer) = [kModelLevelOperationLayer, 0] ∧
      ¬ ExactLookup (fixture kModelLevelOperationLayer) program 0 := by
  obtain ⟨program, hprogram⟩ := fixture_compiles kModelLevelOperationLayer (by decide)
  have hfound : (compileModelProgram (fixture kModelLevelOperationLayer) fixtureProvider).toOption.map
      (fun program => (program.operationsOf 0).map (·.logicalLayer)) =
      some [kModelLevelOperationLayer, 0] := by
    decide +kernel
  rw [hprogram] at hfound
  have hlayers : (program.operationsOf 0).map (·.logicalLayer) = [kModelLevelOperationLayer, 0] :=
    Option.some.inj hfound
  refine ⟨program, hprogram, hlayers, fun hexact => ?_⟩
  have hmem : kModelLevelOperationLayer ∈ (program.operationsOf 0).map (·.logicalLayer) := by
    rw [hlayers]
    exact mem_cons_self
  obtain ⟨operation, hoperation, hmodel⟩ := mem_map.1 hmem
  exact hexact.layered (by decide) operation hoperation hmodel

end QuantumLlm.Runtime.Program
