import QuantumLlm.Runtime.Program.Binding

/-!
# Every kernel gets its best provider

A binding succeeds if every kernel has an eligible provider, and then it gives each kernel
the one of greatest priority, the least name first, in whatever order they were registered.
Registry places and kernel places are cast to 32 bits, which bounds how many there can be.
-/

namespace QuantumLlm.Runtime.Program

open List

variable {I : Type} {mode : ExecutionProviderBindingMode} {providers : ExecutionProviderRegistry I}
  {descriptor : ModelDescriptor} {required : KernelRequirement}

def Accepts (descriptor : ModelDescriptor) (capability : KernelCapability) : Prop :=
  ∀ validate, capability.validate = some validate →
    ∃ constrained, validate descriptor = .ok constrained ∧ constrained.ok = true

/-- A provider that can take a kernel. -/
structure Eligible (mode : ExecutionProviderBindingMode) (providers : ExecutionProviderRegistry I)
    (descriptor : ModelDescriptor) (required : KernelRequirement)
    (provider : ExecutionProviderDefinition I) : Prop where
  mem : provider ∈ providers
  implementation : mode = .executable → provider.implementation.isSome
  capability : ∃ capability ∈ provider.capabilities,
    kernelMatches required capability = true ∧ Accepts descriptor capability

/-- The eligible provider of greatest priority, the least name first. -/
structure Best (mode : ExecutionProviderBindingMode) (providers : ExecutionProviderRegistry I)
    (descriptor : ModelDescriptor) (required : KernelRequirement)
    (provider : ExecutionProviderDefinition I) : Prop where
  eligible : Eligible mode providers descriptor required provider
  greatest : ∀ other, Eligible mode providers descriptor required other →
    other.priority < provider.priority ∨
      other.priority = provider.priority ∧ provider.name ≤ other.name

/-- A binding index leads to the binding of this kernel. -/
def RefersTo (descriptor : ModelDescriptor) (program : CompiledModelProgram) (binding : UInt32)
    (key : KernelKey) : Prop :=
  ∃ kernel required, program.kernels[binding.toNat]? = some kernel ∧
    descriptor.requiredKernels[kernel.requirementIndex.toNat]? = some required ∧
      (required.capability, required.abiVersion) = key

/-- A plan that names the best provider of every kernel. -/
structure Plans (mode : ExecutionProviderBindingMode) (providers : ExecutionProviderRegistry I)
    (descriptor : ModelDescriptor) (plan : BoundExecutionProvider I) : Prop where
  /-- The kernels are the required ones in their order, each with its best provider. -/
  kernels : List.Forall₂ (fun required kernel => ∃ provider,
    providers[kernel.providerRegistryIndex.toNat]? = some provider ∧
      Best mode providers descriptor required provider) descriptor.requiredKernels
    plan.program.kernels
  operations : List.Forall₂ (fun declared operation =>
    RefersTo descriptor plan.program operation.kernelBinding declared.2)
    (declaredOperations descriptor) plan.program.operations
  layers : List.Forall₂ (fun source layer =>
    RefersTo descriptor plan.program layer.blockKernelBinding
      (source.blockCapability, source.blockAbiVersion)) descriptor.layerProgram plan.program.layers
  /-- The providers are those that a kernel refers to. -/
  providers : ∀ reference, reference ∈ plan.providers ↔ ∃ kernel ∈ plan.program.kernels,
    ∃ provider, providers[kernel.providerRegistryIndex.toNat]? = some provider ∧
      reference = ⟨provider.name, kernel.providerRegistryIndex, provider.implementation⟩
  once : (plan.providers.map (·.registryIndex)).Nodup

/-- The name of the provider of each kernel. -/
def BoundExecutionProvider.kernelProviders (plan : BoundExecutionProvider I)
    (providers : ExecutionProviderRegistry I) : List (Option String) :=
  plan.program.kernels.map fun kernel =>
    providers[kernel.providerRegistryIndex.toNat]?.map (·.name)

structure BindsBest (mode : ExecutionProviderBindingMode) (providers : ExecutionProviderRegistry I)
    (descriptor : ModelDescriptor) : Prop where
  complete : (∃ plan, providers.bind mode descriptor = .ok plan) ↔
    ∀ required ∈ descriptor.requiredKernels, ∃ provider,
      Eligible mode providers descriptor required provider
  optimal : ∀ plan, providers.bind mode descriptor = .ok plan →
    Plans mode providers descriptor plan
  anyOrder : ∀ others : ExecutionProviderRegistry I, others.Perm providers →
    ((∃ plan, others.bind mode descriptor = .ok plan) ↔
      ∃ plan, providers.bind mode descriptor = .ok plan) ∧
    ∀ plan plan', providers.bind mode descriptor = .ok plan →
      others.bind mode descriptor = .ok plan' →
        plan'.kernelProviders others = plan.kernelProviders providers ∧
          (plan'.providers.map (·.name)).Perm (plan.providers.map (·.name))

/-- No validator throws on the model. -/
def Predicates (providers : ExecutionProviderRegistry I) (descriptor : ModelDescriptor) : Prop :=
  ∀ provider ∈ providers, ∀ capability ∈ provider.capabilities, ∀ validate,
    capability.validate = some validate → ∃ constrained, validate descriptor = .ok constrained

/-- What a validator says, where it does not throw. -/
def accepted (descriptor : ModelDescriptor) (capability : KernelCapability) : Bool :=
  match accepts descriptor capability with
  | .ok constrained => constrained
  | .error _ => false

def capabilityOffer (descriptor : ModelDescriptor) (required : KernelRequirement)
    (candidate : ExecutionProviderDefinition I) (providerIndex : Nat)
    (entry : KernelCapability × Nat) : List (SelectedCapability I) :=
  if kernelMatches required entry.1 && accepted descriptor entry.1 then
    [{ provider := candidate
       capability := entry.1
       providerIndex := UInt32.ofNat providerIndex
       capabilityIndex := UInt32.ofNat entry.2 }]
  else []

def providerOffers (mode : ExecutionProviderBindingMode) (descriptor : ModelDescriptor)
    (required : KernelRequirement) (entry : ExecutionProviderDefinition I × Nat) :
    List (SelectedCapability I) :=
  if mode = .executable ∧ entry.1.implementation.isNone then []
  else entry.1.capabilities.zipIdx.flatMap (capabilityOffer descriptor required entry.1 entry.2)

/-- Everything the scan of the registry compares. -/
def offers (mode : ExecutionProviderBindingMode) (providers : ExecutionProviderRegistry I)
    (descriptor : ModelDescriptor) (required : KernelRequirement) : List (SelectedCapability I) :=
  providers.zipIdx.flatMap (providerOffers mode descriptor required)

variable {capability : KernelCapability} {candidate best : SelectedCapability I}
  {capabilities : List KernelCapability} {kernels : List CompiledKernelBinding} {index : Nat}

theorem accepts_ok (h : ∀ validate, capability.validate = some validate →
      ∃ constrained, validate descriptor = .ok constrained) :
    accepts descriptor capability = .ok (accepted descriptor capability) := by
  unfold accepted
  cases hvalidate : capability.validate with
  | none => simp [accepts, hvalidate]
  | some validate =>
    obtain ⟨constrained, hconstrained⟩ := h validate hvalidate
    simp [accepts, hvalidate, hconstrained]

theorem accepted_iff :
    accepted descriptor capability = true ↔ Accepts descriptor capability := by
  unfold accepted accepts Accepts
  cases hvalidate : capability.validate with
  | none => simp
  | some validate => cases hconstrained : validate descriptor <;> simp [hconstrained]

theorem scanAll_eq {α β : Type} {consider : Option β → α → Except Status (Option β)}
    {before : β → β → Bool} {offered : α → List β} {items : List α}
    (h : ∀ best, ∀ item ∈ items,
      consider best item = .ok ((offered item).foldl (keepForemost before) best))
    (best : Option β) : scanAll consider best items =
      .ok ((items.flatMap offered).foldl (keepForemost before) best) := by
  induction items generalizing best with
  | nil => rfl
  | cons item rest ih =>
    rw [scanAll, h best item mem_cons_self, flatMap_cons, foldl_append]
    exact ih (fun best other hother => h best other (mem_cons_of_mem _ hother)) _

theorem considerProvider_eq (hpredicates : Predicates providers descriptor)
    (best : Option (SelectedCapability I)) {entry : ExecutionProviderDefinition I × Nat}
    (hentry : entry ∈ providers.zipIdx) : considerProvider mode descriptor required best entry =
      .ok ((providerOffers mode descriptor required entry).foldl
        (keepForemost SelectedCapability.preferred) best) := by
  have hmem : entry.1 ∈ providers := (mem_zipIdx' hentry).2 ▸ getElem_mem _
  unfold considerProvider providerOffers
  split
  · rfl
  · apply scanAll_eq
    intro best capability hcapability
    have hmemCapability : capability.1 ∈ entry.1.capabilities :=
      (mem_zipIdx' hcapability).2 ▸ getElem_mem _
    have haccepts := accepts_ok (hpredicates entry.1 hmem capability.1 hmemCapability)
    unfold considerCapability capabilityOffer
    cases hmatches : kernelMatches required capability.1 with
    | false => simp
    | true =>
      cases haccepted : accepted descriptor capability.1 with
      | false => simp [haccepts, haccepted, Bind.bind, Except.bind, pure, Except.pure]
      | true => simp [haccepts, haccepted, Bind.bind, Except.bind, pure, Except.pure]

theorem selectCapability_eq (hpredicates : Predicates providers descriptor) :
    selectCapability mode providers descriptor required =
      match foremost SelectedCapability.preferred (offers mode providers descriptor required) with
      | none => .error ⟨.invalidArgument,
          "no execution provider implements required kernel: " ++ required.capability⟩
      | some selected => .ok selected := by
  have hscan := scanAll_eq (fun best entry hentry =>
    @considerProvider_eq I mode providers descriptor required hpredicates best entry hentry) none
  rw [selectCapability, hscan]
  rfl

/-- A choice comes of an eligible provider, by its place. -/
structure Offered (mode : ExecutionProviderBindingMode) (providers : ExecutionProviderRegistry I)
    (descriptor : ModelDescriptor) (required : KernelRequirement)
    (selected : SelectedCapability I) : Prop where
  place : ∃ place, providers[place]? = some selected.provider ∧
    selected.providerIndex = UInt32.ofNat place
  eligible : Eligible mode providers descriptor required selected.provider
  capability : kernelMatches required selected.capability = true
  accepts : Accepts descriptor selected.capability

theorem offered_of_mem {selected : SelectedCapability I}
    (h : selected ∈ offers mode providers descriptor required) :
    Offered mode providers descriptor required selected := by
  obtain ⟨entry, hentry, hselected⟩ := mem_flatMap.1 h
  have hplace := mem_zipIdx_iff_getElem?.1 hentry
  unfold providerOffers at hselected
  split at hselected
  next => cases hselected
  next hcallable =>
    obtain ⟨capability, hcapability, hselected⟩ := mem_flatMap.1 hselected
    have hmem : capability.1 ∈ entry.1.capabilities :=
      (mem_zipIdx' hcapability).2 ▸ getElem_mem _
    unfold capabilityOffer at hselected
    split at hselected
    next hoffer =>
      rw [Bool.and_eq_true] at hoffer
      have haccepts := accepted_iff.1 hoffer.2
      rw [mem_singleton.1 hselected]
      refine ⟨⟨entry.2, hplace, rfl⟩, ⟨mem_of_getElem? hplace, fun hmode => ?_, ?_⟩, hoffer.1,
        haccepts⟩
      · by_contra hmissing
        exact hcallable ⟨hmode, by simpa using hmissing⟩
      · exact ⟨capability.1, hmem, hoffer.1, haccepts⟩
    next => cases hselected

theorem mem_offers_of_eligible {provider : ExecutionProviderDefinition I}
    (h : Eligible mode providers descriptor required provider) :
    ∃ selected ∈ offers mode providers descriptor required, selected.provider = provider := by
  obtain ⟨place, hplace⟩ := getElem?_of_mem h.mem
  obtain ⟨capability, hcapability, hmatches, haccepts⟩ := h.capability
  obtain ⟨index, hindex⟩ := getElem?_of_mem hcapability
  refine ⟨⟨provider, capability, UInt32.ofNat place, UInt32.ofNat index⟩, ?_, rfl⟩
  refine mem_flatMap.2 ⟨(provider, place), mem_zipIdx_iff_getElem?.2 hplace, ?_⟩
  have hcallable : ¬ (mode = .executable ∧ provider.implementation.isNone = true) := by
    intro hboth
    have hsome := h.implementation hboth.1
    rw [Option.isNone_iff_eq_none.1 hboth.2] at hsome
    cases hsome
  rw [providerOffers, if_neg hcallable]
  refine mem_flatMap.2 ⟨(capability, index), mem_zipIdx_iff_getElem?.2 hindex, ?_⟩
  rw [capabilityOffer, hmatches, accepted_iff.2 haccepts]
  exact mem_singleton_self _

theorem preferred_iff : candidate.preferred best = true ↔
    best.provider.priority.toNat < candidate.provider.priority.toNat ∨
      candidate.provider.priority.toNat = best.provider.priority.toNat ∧
        candidate.provider.name < best.provider.name := by
  simp only [SelectedCapability.preferred, Bool.or_eq_true, Bool.and_eq_true, decide_eq_true_eq,
    gt_iff_lt, UInt32.lt_iff_toNat_lt, UInt32.toNat_inj]

theorem not_preferred_iff :
    candidate.preferred best = false ↔
      candidate.provider.priority.toNat < best.provider.priority.toNat ∨
        candidate.provider.priority.toNat = best.provider.priority.toNat ∧
          best.provider.name ≤ candidate.provider.name := by
  rw [← Bool.not_eq_true, preferred_iff, not_or, not_and, not_lt, not_lt]
  constructor
  · intro h
    rcases Nat.lt_or_eq_of_le h.1 with hlt | heq
    · exact .inl hlt
    · exact .inr ⟨heq, h.2 heq⟩
  · rintro (hlt | ⟨heq, hle⟩)
    · exact ⟨hlt.le, fun heq => absurd heq hlt.ne⟩
    · exact ⟨heq.le, fun _ => hle⟩

theorem preferred_trans (left middle right : SelectedCapability I)
    (h : left.preferred middle = false) (h' : middle.preferred right = false) :
    left.preferred right = false := by
  rw [not_preferred_iff] at h h' ⊢
  rcases h with hlt | ⟨heq, hle⟩
  · rcases h' with hlt' | ⟨heq', -⟩
    · exact .inl (hlt.trans hlt')
    · exact .inl (hlt.trans_eq heq')
  · rcases h' with hlt' | ⟨heq', hle'⟩
    · exact .inl (heq.trans_lt hlt')
    · exact .inr ⟨heq.trans heq', hle'.trans hle⟩

theorem preferred_asymm (left right : SelectedCapability I) (h : left.preferred right = true) :
    right.preferred left = false := by
  rw [preferred_iff] at h
  rw [not_preferred_iff]
  rcases h with hlt | ⟨heq, hlt⟩
  · exact .inl hlt
  · exact .inr ⟨heq.symm, hlt.le⟩

theorem selectCapability_best (hpredicates : Predicates providers descriptor)
    {selected : SelectedCapability I}
    (h : selectCapability mode providers descriptor required = .ok selected) :
    Offered mode providers descriptor required selected ∧
      Best mode providers descriptor required selected.provider := by
  rw [selectCapability_eq hpredicates] at h
  split at h
  next => cases h
  next found hfound =>
    cases h
    have hoffered := offered_of_mem (mem_of_foremost hfound)
    refine ⟨hoffered, hoffered.eligible, fun other hother => ?_⟩
    obtain ⟨offer, hoffer, rfl⟩ := mem_offers_of_eligible hother
    have hbehind := not_before_foremost preferred_trans preferred_asymm hfound offer hoffer
    rw [not_preferred_iff, UInt32.toNat_inj] at hbehind
    rwa [UInt32.lt_iff_toNat_lt]

theorem selectCapability_isOk_iff (hpredicates : Predicates providers descriptor) :
    (∃ selected, selectCapability mode providers descriptor required = .ok selected) ↔
      ∃ provider, Eligible mode providers descriptor required provider := by
  constructor
  · rintro ⟨selected, hselected⟩
    exact ⟨selected.provider, (selectCapability_best hpredicates hselected).2.eligible⟩
  · rintro ⟨provider, hprovider⟩
    obtain ⟨offer, hoffer, -⟩ := mem_offers_of_eligible hprovider
    rw [selectCapability_eq hpredicates]
    cases hfound : foremost SelectedCapability.preferred
        (offers mode providers descriptor required) with
    | none =>
      rw [foremost_eq_none_iff.1 hfound] at hoffer
      cases hoffer
    | some selected => exact ⟨selected, rfl⟩

/-- What a layer, an operation or an exact decode names is declared, whatever the schema version. -/
structure KernelsDeclared (descriptor : ModelDescriptor) : Prop where
  layers : ∀ layer ∈ descriptor.layerProgram,
    (layer.blockCapability, layer.blockAbiVersion) ∈ requirementKeys descriptor ∧
      (layer.routedComponent ≠ "" →
        layer.routedComponent ∈ descriptor.routedComponents.map (·.name))
  operations : ∀ operation ∈ descriptor.operationProgram,
    (operation.capability, operation.abiVersion) ∈ requirementKeys descriptor ∧
      (operation.routedComponent ≠ "" →
        operation.routedComponent ∈ descriptor.routedComponents.map (·.name))
  exactDecode : ∀ decode, descriptor.exactDecodeProgram = some decode →
    (decode.capability, decode.abiVersion) ∈ requirementKeys descriptor

theorem declared_of_ok (h : validateModelDescriptor descriptor = .ok ()) : KernelsDeclared descriptor := by
  simp only [validateModelDescriptor, checkOperations, bind_ok_iff] at h
  obtain ⟨_, -, _, -, _, -, requirements, hrequirements, _, hexact, _, -, logicalLayers, hlayers,
    _, -, _, ⟨_, -, hoperations⟩, -⟩ := h
  obtain rfl := checkRequirements_ok hrequirements
  refine ⟨fun layer hlayer => checkLayers_ok hlayers layer hlayer, fun operation hoperation => ?_,
    fun decode hdecode => ?_⟩
  · have hsome : descriptor.operationProgram ≠ [] := ne_nil_of_mem hoperation
    rw [if_neg hsome, bind_ok_iff] at hoperations
    obtain ⟨scan, hscan, -⟩ := hoperations
    exact scanOperations_ok hscan operation hoperation
  · simp only [checkExactDecode, hdecode, bind_ok_iff, require_ok_iff, not_or, not_not] at hexact
    obtain ⟨_, hall, -⟩ := hexact
    exact hall.2.2.2.2

theorem compileOperations_isOk (h : KernelsDeclared descriptor) :
    ∃ operations, compileOperations descriptor = .ok operations := by
  unfold compileOperations
  by_cases hlegacy : descriptor.operationProgram = []
  · rw [if_pos hlegacy]
    obtain ⟨operations, hoperations, -⟩ := @compileEach_ok _ _ (compileLegacyOperation descriptor)
      descriptor.layerProgram.zipIdx (fun _ _ => True) fun entry hentry => by
        have hlayer := h.layers entry.1 ((mem_zipIdx' hentry).2 ▸ getElem_mem _)
        obtain ⟨kernel, hkernel, -⟩ := kernelBindings_ok hlayer.1
        obtain ⟨component, hcomponent, -⟩ := compileComponent_ok hlayer.2
        simp only [compileLegacyOperation, hkernel, hcomponent, bind_ok_iff, Except.ok.injEq,
          exists_eq_left', pure_ok_iff]
    exact ⟨operations, hoperations⟩
  · rw [if_neg hlegacy]
    obtain ⟨operations, hoperations, -⟩ := @compileEach_ok _ _ (compileOperation descriptor)
      descriptor.operationProgram (fun _ _ => True) fun operation hoperation => by
        obtain ⟨kernel, hkernel, -⟩ := kernelBindings_ok (h.operations operation hoperation).1
        obtain ⟨component, hcomponent, -⟩ :=
          compileComponent_ok (h.operations operation hoperation).2
        simp only [compileOperation, hkernel, hcomponent, bind_ok_iff, Except.ok.injEq,
          exists_eq_left', pure_ok_iff]
    exact ⟨operations, hoperations⟩

theorem compile_isOk (h : providerSupportsModel descriptor capabilities = .ok ()) :
    ∃ program, compileModelProgram descriptor capabilities = .ok program := by
  by_cases hschema : descriptor.schemaVersion ≥ 3
  · obtain ⟨program, hprogram, -⟩ := compileModelProgram_ok hschema h
    exact ⟨program, hprogram⟩
  have hdeclared := declared_of_ok (validateModelDescriptor_of_supports h)
  obtain ⟨layers, hlayers, -⟩ := compileLayers_ok hdeclared.layers
  obtain ⟨operations, hoperations⟩ := compileOperations_isOk hdeclared
  obtain ⟨exactDecode, hexact, -⟩ := compileExactDecode_ok hdeclared.exactDecode
  refine ⟨{ kernels := compileKernels descriptor capabilities, layers, operations, exactDecode }, ?_⟩
  simp only [compileModelProgram, bind_ok_iff]
  refine ⟨(), h, layers, hlayers, operations, hoperations, ?_⟩
  rw [if_neg hschema]
  simp only [bind_ok_iff, pure_ok_iff, exists_eq_left', hexact, Except.ok.injEq]

theorem compile_layers {program : CompiledModelProgram}
    (h : compileModelProgram descriptor capabilities = .ok program) :
    program.kernels = compileKernels descriptor capabilities ∧
      List.Forall₂ (fun source layer => atKey (kernelBindings descriptor)
        (source.blockCapability, source.blockAbiVersion) = .ok layer.blockKernelBinding)
        descriptor.layerProgram program.layers := by
  simp only [compileModelProgram, bind_ok_iff] at h
  obtain ⟨_, -, layers, hlayers, operations, -, h⟩ := h
  have hbound : List.Forall₂ (fun source layer => atKey (kernelBindings descriptor)
      (source.blockCapability, source.blockAbiVersion) = .ok layer.blockKernelBinding)
      descriptor.layerProgram layers := by
    refine (compileEach_forall₂ hlayers).imp fun source layer hcompiled => ?_
    simp only [compileLayer, bind_ok_iff, pure_ok_iff] at hcompiled
    obtain ⟨component, -, kernel, hkernel, rfl⟩ := hcompiled
    exact hkernel
  by_cases hschema : descriptor.schemaVersion ≥ 3
  · simp only [if_pos hschema, compileDataFlow, bind_ok_iff, pure_ok_iff] at h
    obtain ⟨flowing, ⟨flows, -, outputs, -, rfl⟩, exactDecode, -, rfl⟩ := h
    exact ⟨rfl, hbound⟩
  · simp only [if_neg hschema, bind_ok_iff, pure_ok_iff] at h
    obtain ⟨flowing, rfl, exactDecode, -, rfl⟩ := h
    exact ⟨rfl, hbound⟩

variable {selected : List (SelectedCapability I)}

/-- The capabilities that were chosen support the model: the one that is found for a kernel may be
the choice for another, but that one accepts the model as well. -/
theorem supports_selected (hvalid : validateModelDescriptor descriptor = .ok ())
    (h : List.Forall₂ (Offered mode providers descriptor) descriptor.requiredKernels selected) :
    providerSupportsModel descriptor (selected.map (·.capability)) = .ok () := by
  simp only [providerSupportsModel, hvalid, bind_ok_iff, checkAll_ok_iff]
  refine ⟨(), trivial, fun required hrequired => ?_⟩
  obtain ⟨choice, hchoice, hoffered⟩ := forall₂_mem_left h hrequired
  unfold checkCapability
  cases hfound : (selected.map (·.capability)).find? (kernelMatches required) with
  | none =>
    have hnot := find?_eq_none.1 hfound choice.capability (mem_map_of_mem hchoice)
    exact absurd hoffered.capability hnot
  | some capability =>
    obtain ⟨owner, howner, rfl⟩ := mem_map.1 (mem_of_find?_eq_some hfound)
    obtain ⟨other, -, hother⟩ := forall₂_mem_right h howner
    cases hvalidate : owner.capability.validate with
    | none => simp only [hvalidate]
    | some validate =>
      obtain ⟨constrained, hconstrained, hok⟩ := hother.accepts validate hvalidate
      simp only [hvalidate, hconstrained, hok, if_true]

theorem kernelBindings_place {key : KernelKey} {kernel : UInt32}
    (h : atKey (kernelBindings descriptor) key = .ok kernel) : ∃ place required,
      descriptor.requiredKernels[place]? = some required ∧
        (required.capability, required.abiVersion) = key ∧ kernel = UInt32.ofNat place := by
  unfold atKey at h
  split at h
  next value hlookup =>
    cases h
    obtain ⟨entry, hentry, heq⟩ := mem_map.1 (mem_of_lookup hlookup)
    cases heq
    exact ⟨entry.2, entry.1, mem_zipIdx_iff_getElem?.1 hentry, rfl, rfl⟩
  next => cases h

/-- The kernel that is compiled at a place, by the choice that it is assigned. -/
structure Assigned (selected : List (SelectedCapability I)) (place : Nat)
    (kernel : CompiledKernelBinding) : Prop where
  requirement : kernel.requirementIndex = UInt32.ofNat place
  choice : ∃ choice, selected[place % 2 ^ 32]? = some choice ∧
    kernel.providerRegistryIndex = choice.providerIndex

theorem assignProvider_assigned (h : compileEach (assignProvider selected)
      (compileKernels descriptor capabilities) = .ok kernels) :
    kernels.length = descriptor.requiredKernels.length ∧
      ∀ place kernel, kernels[place]? = some kernel → Assigned selected place kernel := by
  have hall := compileEach_forall₂ h
  have hlength : kernels.length = descriptor.requiredKernels.length := by
    rw [← hall.length_eq, compileKernels, List.length_map, List.length_zipIdx]
  refine ⟨hlength, fun place kernel hkernel => ?_⟩
  have hplace : place < descriptor.requiredKernels.length := by
    rw [← hlength]
    exact (List.getElem?_eq_some_iff.1 hkernel).1
  have hsource : (compileKernels descriptor capabilities)[place]? =
      some { requirementIndex := UInt32.ofNat place
             providerCapabilityIndex := UInt32.ofNat
               (capabilities.findIdx (kernelMatches descriptor.requiredKernels[place])) } := by
    simp [compileKernels, hplace]
  have hassigned := forall₂_getElem? hall hsource hkernel
  simp only [assignProvider, atPlace, bind_ok_iff, pure_ok_iff, UInt32.toNat_ofNat'] at hassigned
  obtain ⟨choice, hchoice, rfl⟩ := hassigned
  refine ⟨rfl, choice, ?_, rfl⟩
  split at hchoice
  next found hfound =>
    cases hchoice
    exact hfound
  next => cases hchoice

theorem assignProvider_isOk {capabilities : List KernelCapability}
    (h : selected.length = descriptor.requiredKernels.length) : ∃ kernels,
      compileEach (assignProvider selected) (compileKernels descriptor capabilities) =
        .ok kernels := by
  obtain ⟨kernels, hkernels, -⟩ := @compileEach_ok _ _ (assignProvider selected)
    (compileKernels descriptor capabilities) (fun _ _ => True) fun kernel hkernel => by
      obtain ⟨entry, hentry, rfl⟩ := mem_map.1 hkernel
      have hplace := (mem_zipIdx' hentry).1
      have hless : (UInt32.ofNat entry.2).toNat < selected.length := ofNat_lt (h ▸ hplace)
      simp only [assignProvider, atPlace, getElem?_eq_getElem hless, bind_ok_iff,
        pure_ok_iff, Except.ok.injEq, exists_eq_left']
  exact ⟨kernels, hkernels⟩

theorem mem_ofList {K : Type} [LinearOrder K] {key : K} {keys : List K} :
    key ∈ (OrderedSet.ofList keys).items ↔ key ∈ keys := by
  induction keys with
  | nil => exact Iff.rfl
  | cons first rest ih =>
    rw [mem_cons, ← ih]
    exact OrderedSet.mem_insert

theorem mem_referenced :
    index ∈ (referenced kernels).items ↔
      ∃ kernel ∈ kernels, kernel.providerRegistryIndex.toNat = index := by
  rw [referenced, mem_ofList, mem_map]

theorem reference_ok {found : BoundExecutionProviderReference I}
    (h : reference providers index = .ok found) : ∃ provider, providers[index]? = some provider ∧
      found = ⟨provider.name, UInt32.ofNat index, provider.implementation⟩ := by
  simp only [reference, atPlace, bind_ok_iff, pure_ok_iff] at h
  obtain ⟨provider, hprovider, rfl⟩ := h
  cases hheld : providers[index]? with
  | none =>
    rw [hheld] at hprovider
    cases hprovider
  | some held =>
    rw [hheld] at hprovider
    cases hprovider
    exact ⟨_, rfl, rfl⟩

theorem references_spec {references : List (BoundExecutionProviderReference I)}
    (h : compileEach (reference providers) (referenced kernels).items = .ok references) :
    (∀ found, found ∈ references ↔ ∃ kernel ∈ kernels, ∃ provider,
      providers[kernel.providerRegistryIndex.toNat]? = some provider ∧
        found = ⟨provider.name, kernel.providerRegistryIndex, provider.implementation⟩) ∧
      (references.map (·.registryIndex)).Nodup := by
  have hall := compileEach_forall₂ h
  constructor
  · intro found
    constructor
    · intro hfound
      obtain ⟨index, hindex, href⟩ := forall₂_mem_right hall hfound
      obtain ⟨kernel, hkernel, rfl⟩ := mem_referenced.1 hindex
      obtain ⟨provider, hprovider, rfl⟩ := reference_ok href
      exact ⟨kernel, hkernel, provider, hprovider, by rw [UInt32.ofNat_toNat]⟩
    · rintro ⟨kernel, hkernel, provider, hprovider, rfl⟩
      obtain ⟨found, hfound, href⟩ := forall₂_mem_left hall (mem_referenced.2 ⟨kernel, hkernel, rfl⟩)
      obtain ⟨held, hheld, rfl⟩ := reference_ok href
      rw [hprovider] at hheld
      cases hheld
      rwa [UInt32.ofNat_toNat] at hfound
  · have hindices : references.map (fun found => found.registryIndex.toNat) =
        (referenced kernels).items := by
      have hplaces : ∀ index ∈ (referenced kernels).items, index < 2 ^ 32 := by
        intro index hindex
        obtain ⟨kernel, -, rfl⟩ := mem_referenced.1 hindex
        exact kernel.providerRegistryIndex.toNat_lt
      clear h
      generalize (referenced kernels).items = indices at hall hplaces
      induction hall with
      | nil => rfl
      | cons hfirst _ ih =>
        obtain ⟨provider, -, rfl⟩ := reference_ok hfirst
        rw [forall_mem_cons] at hplaces
        rw [map_cons, ih hplaces.2, UInt32.toNat_ofNat', Nat.mod_eq_of_lt hplaces.1]
    have hnodup := (referenced kernels).nodup
    rw [← hindices] at hnodup
    apply List.Nodup.of_map UInt32.toNat
    rw [map_map]
    exact hnodup

end QuantumLlm.Runtime.Program
