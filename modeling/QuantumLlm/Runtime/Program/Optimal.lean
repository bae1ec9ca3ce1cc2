import Mathlib.Data.List.Perm.Lattice
import QuantumLlm.Runtime.Program.BestProviders
import QuantumLlm.Runtime.Program.Guarantee

/-!
# When a binding is optimal

A binding is complete whatever the registry holds. It names the best providers exactly when
the places it refers to are small enough for the 32 bits they are cast to.
-/

namespace QuantumLlm.Runtime.Program

open List

variable {I : Type} {mode : ExecutionProviderBindingMode}
  {providers others : ExecutionProviderRegistry I} {descriptor : ModelDescriptor}
  {required : KernelRequirement} {provider other : ExecutionProviderDefinition I}
  {plan : BoundExecutionProvider I} {selected : List (SelectedCapability I)}

theorem names_nodup (h : Registered providers) : (providers.map (·.name)).Nodup := by
  induction h with
  | empty => exact nodup_nil
  | add registered added ih =>
    simp only [ExecutionProviderRegistry.add, bind_ok_iff, require_ok_iff, pure_ok_iff] at added
    obtain ⟨_, -, _, hname, _, -, rfl⟩ := added
    rw [map_append, map_singleton]
    exact nodup_append.2 ⟨ih, nodup_singleton _, by
      intro left hleft right hright heq
      rw [mem_singleton.1 hright] at heq
      exact hname (heq ▸ hleft)⟩

theorem best_unique (hnames : (providers.map (·.name)).Nodup)
    (h : Best mode providers descriptor required provider)
    (h' : Best mode providers descriptor required other) : provider = other := by
  have hname : provider.name = other.name := by
    rcases h.greatest other h'.eligible with hlt | ⟨heq, hle⟩
    · rcases h'.greatest provider h.eligible with hlt' | ⟨heq', -⟩
      · exact absurd (UInt32.lt_trans hlt hlt') (UInt32.lt_irrefl _)
      · exact absurd hlt (heq' ▸ UInt32.lt_irrefl _)
    · rcases h'.greatest provider h.eligible with hlt' | ⟨-, hle'⟩
      · exact absurd hlt' (heq ▸ UInt32.lt_irrefl _)
      · exact le_antisymm hle hle'
  exact inj_on_of_nodup_map hnames h.eligible.mem h'.eligible.mem hname

theorem eligible_perm (h : others.Perm providers) :
    Eligible mode others descriptor required provider ↔
      Eligible mode providers descriptor required provider :=
  ⟨fun heligible => ⟨h.mem_iff.1 heligible.mem, heligible.implementation, heligible.capability⟩,
    fun heligible => ⟨h.mem_iff.2 heligible.mem, heligible.implementation, heligible.capability⟩⟩

theorem best_perm (h : others.Perm providers) : Best mode others descriptor required provider ↔
    Best mode providers descriptor required provider := by
  constructor
  · intro hbest
    exact ⟨(eligible_perm h).1 hbest.eligible, fun other hother =>
      hbest.greatest other ((eligible_perm h).2 hother)⟩
  · intro hbest
    exact ⟨(eligible_perm h).2 hbest.eligible, fun other hother =>
      hbest.greatest other ((eligible_perm h).1 hother)⟩

/-- A plan, and the choices it is made from. -/
structure Chosen (mode : ExecutionProviderBindingMode) (providers : ExecutionProviderRegistry I)
    (descriptor : ModelDescriptor) (selected : List (SelectedCapability I))
    (plan : BoundExecutionProvider I) : Prop where
  choices : List.Forall₂ (fun required choice =>
    Offered mode providers descriptor required choice ∧
      Best mode providers descriptor required choice.provider) descriptor.requiredKernels selected
  length : plan.program.kernels.length = descriptor.requiredKernels.length
  assigned : ∀ place kernel, plan.program.kernels[place]? = some kernel →
    Assigned selected place kernel
  operations : List.Forall₂ (Bound descriptor) (declaredOperations descriptor)
    plan.program.operations
  layers : List.Forall₂ (fun source layer => atKey (kernelBindings descriptor)
    (source.blockCapability, source.blockAbiVersion) = .ok layer.blockKernelBinding)
    descriptor.layerProgram plan.program.layers
  providers : ∀ reference, reference ∈ plan.providers ↔ ∃ kernel ∈ plan.program.kernels,
    ∃ provider, providers[kernel.providerRegistryIndex.toNat]? = some provider ∧
      reference = ⟨provider.name, kernel.providerRegistryIndex, provider.implementation⟩
  once : (plan.providers.map (·.registryIndex)).Nodup

theorem chosen_of_bind (hpredicates : Predicates providers descriptor)
    (h : providers.bind mode descriptor = .ok plan) :
    ∃ selected, Chosen mode providers descriptor selected plan := by
  simp only [ExecutionProviderRegistry.bind, bind_ok_iff, pure_ok_iff] at h
  obtain ⟨_, -, selected, hselected, program, hprogram, kernels, hkernels, references, hreferences,
    rfl⟩ := h
  obtain ⟨hcompiled, hlayers⟩ := compile_layers hprogram
  rw [hcompiled] at hkernels
  obtain ⟨hlength, hassigned⟩ := assignProvider_assigned hkernels
  obtain ⟨hproviders, honce⟩ := references_spec hreferences
  have hoperations := compile_bound hprogram
  exact ⟨selected,
    { choices := (compileEach_forall₂ hselected).imp fun required choice hchoice =>
        selectCapability_best hpredicates hchoice
      length := hlength
      assigned := hassigned
      operations := hoperations
      layers := hlayers
      providers := hproviders
      once := honce }⟩

theorem Chosen.kernel (h : Chosen mode providers descriptor selected plan) {place : Nat}
    {kernel : CompiledKernelBinding} (hkernel : plan.program.kernels[place]? = some kernel) :
    ∃ earlier provider registered,
      descriptor.requiredKernels[place % 2 ^ 32]? = some earlier ∧
        Best mode providers descriptor earlier provider ∧
        providers[registered]? = some provider ∧
        kernel.providerRegistryIndex.toNat = registered % 2 ^ 32 := by
  obtain ⟨choice, hchoice, hindex⟩ := (h.assigned place kernel hkernel).choice
  have hless : place % 2 ^ 32 < descriptor.requiredKernels.length := by
    rw [h.choices.length_eq]
    exact (List.getElem?_eq_some_iff.1 hchoice).1
  obtain ⟨hoffered, hbest⟩ := forall₂_getElem? h.choices
    (List.getElem?_eq_getElem hless) hchoice
  obtain ⟨registered, hregistered, hplace⟩ := hoffered.place
  refine ⟨_, choice.provider, registered, List.getElem?_eq_getElem hless, hbest, hregistered, ?_⟩
  rw [hindex, hplace, UInt32.toNat_ofNat']

theorem reference_eq {index : Nat} (h : providers[index]? = some provider) :
    reference providers index =
      .ok ⟨provider.name, UInt32.ofNat index, provider.implementation⟩ := by
  unfold reference atPlace
  rw [h]
  rfl

theorem bind_isOk_iff (hpredicates : Predicates providers descriptor)
    (hvalid : validateModelDescriptor descriptor = .ok ()) :
    (∃ plan, providers.bind mode descriptor = .ok plan) ↔
      ∀ required ∈ descriptor.requiredKernels, ∃ provider,
        Eligible mode providers descriptor required provider := by
  constructor
  · intro h required hrequired
    obtain ⟨plan, hplan⟩ := h
    obtain ⟨selected, hchosen⟩ := chosen_of_bind hpredicates hplan
    obtain ⟨choice, -, -, hbest⟩ := forall₂_mem_left hchosen.choices hrequired
    exact ⟨choice.provider, hbest.eligible⟩
  · intro h
    obtain ⟨selected, hselected, hoffered⟩ := @compileEach_ok _ _
      (selectCapability mode providers descriptor) descriptor.requiredKernels
      (Offered mode providers descriptor) fun required hrequired => by
        obtain ⟨choice, hchoice⟩ := (selectCapability_isOk_iff hpredicates).2 (h required hrequired)
        exact ⟨choice, hchoice, (selectCapability_best hpredicates hchoice).1⟩
    obtain ⟨program, hprogram⟩ := compile_isOk (supports_selected hvalid hoffered)
    obtain ⟨kernels, hkernels⟩ := @assignProvider_isOk I descriptor selected
      (selected.map (·.capability)) hoffered.length_eq.symm
    rw [← (compile_layers hprogram).1] at hkernels
    have hplaces : ∀ index ∈ (referenced kernels).items, ∃ found,
        reference providers index = .ok found ∧ True := by
      intro index hindex
      obtain ⟨kernel, hkernel, rfl⟩ := mem_referenced.1 hindex
      obtain ⟨place, hplace⟩ := List.getElem?_of_mem hkernel
      rw [(compile_layers hprogram).1] at hkernels
      obtain ⟨choice, hchoice, hindex⟩ := ((assignProvider_assigned hkernels).2 place kernel
        hplace).choice
      obtain ⟨required, -, hplaced⟩ := forall₂_mem_right hoffered (List.mem_of_getElem? hchoice)
      obtain ⟨registered, hregistered, hcast⟩ := hplaced.place
      have hless := (List.getElem?_eq_some_iff.1 hregistered).1
      have hcastLess : kernel.providerRegistryIndex.toNat < providers.length := by
        rw [hindex, hcast]
        exact ofNat_lt hless
      exact ⟨_, reference_eq (List.getElem?_eq_getElem hcastLess), trivial⟩
    obtain ⟨references, hreferences, -⟩ := compileEach_ok hplaces
    refine ⟨⟨references, descriptor.contentHash, descriptor.schemaVersion,
      { program with kernels }⟩, ?_⟩
    simp only [ExecutionProviderRegistry.bind, bind_ok_iff, pure_ok_iff]
    exact ⟨(), hvalid, selected, hselected, program, hprogram, kernels, hkernels, references,
      hreferences, rfl⟩

theorem checkRequirements_nodup {seen result : List KernelKey} {items : List KernelRequirement}
    (h : checkRequirements seen items = .ok result) (hseen : seen.Nodup) : result.Nodup := by
  induction items generalizing seen with
  | nil =>
    cases h
    exact hseen
  | cons item rest ih =>
    simp only [checkRequirements, bind_ok_iff, require_ok_iff, not_or] at h
    obtain ⟨_, ⟨-, -, hnew⟩, hrest⟩ := h
    refine ih hrest ?_
    rw [← concat_eq_append]
    exact hseen.concat hnew

theorem requirementKeys_nodup (h : validateModelDescriptor descriptor = .ok ()) :
    descriptor.requiredKernels ≠ [] ∧ (requirementKeys descriptor).Nodup := by
  simp only [validateModelDescriptor, bind_ok_iff, require_ok_iff, not_or] at h
  obtain ⟨_, ⟨-, -, -, -, -, -, hsome⟩, _, -, _, -, requirements, hrequirements, -⟩ := h
  have hkeys := checkRequirements_ok hrequirements
  rw [nil_append] at hkeys
  constructor
  · intro hnil
    exact hsome (by rw [hnil]; rfl)
  · rw [requirementKeys, ← hkeys]
    exact checkRequirements_nodup hrequirements nodup_nil

/-- The keys that operations and layers refer to. -/
def referencedKeys (descriptor : ModelDescriptor) : List KernelKey :=
  (declaredOperations descriptor).map (·.2) ++
    descriptor.layerProgram.map fun layer => (layer.blockCapability, layer.blockAbiVersion)

/-- Every place that a binding refers to is the place that it is cast to, or as good. -/
structure Addressable (mode : ExecutionProviderBindingMode) (providers : ExecutionProviderRegistry I)
    (descriptor : ModelDescriptor) : Prop where
  registry : providers.length ≤ 2 ^ 32
  /-- Behind the first `2 ^ 32` kernels, the best providers repeat. -/
  kernels : ∀ place required earlier, descriptor.requiredKernels[place]? = some required →
    descriptor.requiredKernels[place % 2 ^ 32]? = some earlier → ∀ provider,
      Best mode providers descriptor earlier provider →
        Best mode providers descriptor required provider
  keys : ∀ key ∈ referencedKeys descriptor, ∃ place < 2 ^ 32, ∃ required,
    descriptor.requiredKernels[place]? = some required ∧
      (required.capability, required.abiVersion) = key

section

variable (h : Chosen mode providers descriptor selected plan)
  (hvalid : validateModelDescriptor descriptor = .ok ())

include h hvalid

theorem refersTo_of_key {key : KernelKey} {binding : UInt32}
    (hkey : ∃ place < 2 ^ 32, ∃ required, descriptor.requiredKernels[place]? = some required ∧
      (required.capability, required.abiVersion) = key)
    (hbinding : atKey (kernelBindings descriptor) key = .ok binding) :
    RefersTo descriptor plan.program binding key := by
  obtain ⟨place, hplace, required, hrequired, heq⟩ := hkey
  obtain ⟨found, required', hrequired', heq', rfl⟩ := kernelBindings_place hbinding
  have hsame : found = place := by
    have hnodup := (requirementKeys_nodup hvalid).2
    have hkeys : (requirementKeys descriptor)[found]? = (requirementKeys descriptor)[place]? := by
      rw [requirementKeys, List.getElem?_map, List.getElem?_map, hrequired, hrequired']
      exact congrArg some (heq'.trans heq.symm)
    have hless : found < (requirementKeys descriptor).length := by
      rw [requirementKeys, List.length_map]
      exact (List.getElem?_eq_some_iff.1 hrequired').1
    exact (List.getElem?_inj hless hnodup).1 hkeys
  subst hsame
  have hless : found < plan.program.kernels.length := by
    rw [h.length]
    exact (List.getElem?_eq_some_iff.1 hrequired').1
  obtain ⟨kernel, hkernel⟩ : ∃ kernel, plan.program.kernels[found]? = some kernel :=
    ⟨_, List.getElem?_eq_getElem hless⟩
  refine ⟨kernel, required', ?_, ?_, heq'⟩
  · rw [UInt32.toNat_ofNat', Nat.mod_eq_of_lt hplace]
    exact hkernel
  · rw [(h.assigned found _ hkernel).requirement, UInt32.toNat_ofNat', Nat.mod_eq_of_lt hplace]
    exact hrequired'

theorem Chosen.plans
    (hfits : Addressable mode providers descriptor) : Plans mode providers descriptor plan := by
  refine ⟨?_, ?_, ?_, h.providers, h.once⟩
  · refine List.forall₂_iff_get.2 ⟨h.length.symm, fun place hplace hplace' => ?_⟩
    obtain ⟨earlier, provider, registered, hearlier, hbest, hregistered, hindex⟩ :=
      h.kernel (List.getElem?_eq_getElem hplace')
    have hless : registered < 2 ^ 32 :=
      Nat.lt_of_lt_of_le (List.getElem?_eq_some_iff.1 hregistered).1 hfits.registry
    refine ⟨provider, ?_, hfits.kernels place _ earlier (List.getElem?_eq_getElem hplace)
      hearlier provider hbest⟩
    rw [List.get_eq_getElem, hindex, Nat.mod_eq_of_lt hless]
    exact hregistered
  · refine (forall₂_mem h.operations).imp fun declared operation hboth => ?_
    exact refersTo_of_key h hvalid (hfits.keys declared.2
      (List.mem_append_left _ (List.mem_map_of_mem hboth.2.1))) hboth.1.2
  · refine (forall₂_mem h.layers).imp fun source layer hboth => ?_
    exact refersTo_of_key h hvalid (hfits.keys _ (List.mem_append_right _ (List.mem_map.2
      ⟨source, hboth.2.1, rfl⟩))) hboth.1

end

theorem kernelProviders_eq {plan' : BoundExecutionProvider I}
    (hnames : (providers.map (·.name)).Nodup) (hperm : others.Perm providers)
    (h : Plans mode providers descriptor plan) (h' : Plans mode others descriptor plan') :
    plan'.kernelProviders others = plan.kernelProviders providers := by
  refine forall₂_map_eq h'.kernels h.kernels fun required kernel' kernel hboth hboth' => ?_
  obtain ⟨provider', hprovider', hbest'⟩ := hboth
  obtain ⟨provider, hprovider, hbest⟩ := hboth'
  rw [hprovider, hprovider', best_unique hnames hbest ((best_perm hperm).1 hbest')]

theorem mem_provider_names (h : Plans mode providers descriptor plan) {name : String} :
    name ∈ plan.providers.map (·.name) ↔ some name ∈ plan.kernelProviders providers := by
  constructor
  · intro hname
    obtain ⟨found, hfound, rfl⟩ := mem_map.1 hname
    obtain ⟨kernel, hkernel, provider, hprovider, rfl⟩ := (h.providers found).1 hfound
    exact mem_map.2 ⟨kernel, hkernel, by rw [hprovider]; rfl⟩
  · intro hname
    obtain ⟨kernel, hkernel, hsome⟩ := mem_map.1 hname
    obtain ⟨provider, hprovider, rfl⟩ := Option.map_eq_some_iff.1 hsome
    exact mem_map.2 ⟨_, (h.providers _).2 ⟨kernel, hkernel, provider, hprovider, rfl⟩, rfl⟩

theorem provider_names_nodup (hnames : (providers.map (·.name)).Nodup)
    (h : Plans mode providers descriptor plan) : (plan.providers.map (·.name)).Nodup := by
  refine List.Nodup.map_on ?_ h.once.of_map
  intro left hleft right hright heq
  obtain ⟨kernel, -, provider, hprovider, rfl⟩ := (h.providers left).1 hleft
  obtain ⟨kernel', -, provider', hprovider', rfl⟩ := (h.providers right).1 hright
  have hsame := List.inj_on_of_nodup_map hnames (List.mem_of_getElem? hprovider)
    (List.mem_of_getElem? hprovider') heq
  have hindex : kernel.providerRegistryIndex.toNat = kernel'.providerRegistryIndex.toNat := by
    refine (List.getElem?_inj (List.getElem?_eq_some_iff.1 hprovider).1 hnames.of_map).1 ?_
    rw [hprovider, hprovider', hsame]
  rw [hsame, UInt32.toNat_inj.1 hindex]

theorem predicates_perm (hperm : others.Perm providers) (h : Predicates providers descriptor) :
    Predicates others descriptor :=
  fun provider hprovider => h provider (hperm.mem_iff.1 hprovider)

theorem addressable_perm (hperm : others.Perm providers)
    (h : Addressable mode providers descriptor) : Addressable mode others descriptor := by
  refine ⟨hperm.length_eq ▸ h.registry, ?_, h.keys⟩
  intro place required earlier hrequired hearlier provider hbest
  exact (best_perm hperm).2 (h.kernels place required earlier hrequired hearlier provider
    ((best_perm hperm).1 hbest))

section

variable (hnames : (providers.map (·.name)).Nodup) (hpredicates : Predicates providers descriptor)
  (hvalid : validateModelDescriptor descriptor = .ok ())

include hnames hpredicates hvalid

theorem bindsBest_of_addressable (hfits : (∀ required ∈ descriptor.requiredKernels, ∃ provider,
      Eligible mode providers descriptor required provider) →
        Addressable mode providers descriptor) : BindsBest mode providers descriptor := by
  have hplans : ∀ registry : ExecutionProviderRegistry I, registry.Perm providers →
      ∀ plan, registry.bind mode descriptor = .ok plan → Plans mode registry descriptor plan := by
    intro registry hperm plan hplan
    have hregistry := predicates_perm hperm hpredicates
    obtain ⟨selected, hchosen⟩ := chosen_of_bind hregistry hplan
    refine hchosen.plans hvalid (addressable_perm hperm (hfits fun required hrequired => ?_))
    obtain ⟨provider, hprovider⟩ :=
      (bind_isOk_iff hregistry hvalid).1 ⟨plan, hplan⟩ required hrequired
    exact ⟨provider, (eligible_perm hperm).1 hprovider⟩
  refine ⟨bind_isOk_iff hpredicates hvalid, hplans providers (.refl _), fun others hperm => ?_⟩
  constructor
  · rw [bind_isOk_iff hpredicates hvalid, bind_isOk_iff (predicates_perm hperm hpredicates) hvalid]
    simp only [eligible_perm hperm]
  · intro plan plan' hplan hplan'
    have h := hplans providers (.refl _) plan hplan
    have h' := hplans others hperm plan' hplan'
    have hkernels := kernelProviders_eq hnames hperm h h'
    have hnames' : (others.map (·.name)).Nodup := (hperm.map _).nodup_iff.2 hnames
    refine ⟨hkernels, (perm_ext_iff_of_nodup (provider_names_nodup hnames' h')
      (provider_names_nodup hnames h)).2 fun name => ?_⟩
    rw [mem_provider_names h', mem_provider_names h, hkernels]

theorem registry_le (hall : ∀ required ∈ descriptor.requiredKernels, ∃ provider,
      Eligible mode providers descriptor required provider)
    (h : BindsBest mode providers descriptor) : providers.length ≤ 2 ^ 32 := by
  by_contra hlong
  obtain ⟨plan, hplan⟩ := h.complete.2 hall
  obtain ⟨required, rest, hrequired⟩ :=
    List.exists_cons_of_ne_nil (requirementKeys_nodup hvalid).1
  have hkernels := (h.optimal plan hplan).kernels
  rw [hrequired] at hkernels
  obtain ⟨provider, hprovider, hbest⟩ : ∃ provider,
      (plan.kernelProviders providers)[0]? = some (some provider.name) ∧
        Best mode providers descriptor required provider := by
    cases hcases : plan.program.kernels with
    | nil =>
      rw [hcases] at hkernels
      cases hkernels
    | cons kernel kernels =>
      rw [hcases] at hkernels
      obtain ⟨⟨provider, hplace, hbest⟩, -⟩ := List.forall₂_cons.1 hkernels
      refine ⟨provider, ?_, hbest⟩
      rw [BoundExecutionProvider.kernelProviders, hcases, List.map_cons, hplace]
      rfl
  obtain ⟨front, behind, hsplit⟩ := List.append_of_mem hbest.eligible.mem
  have hlength : 2 ^ 32 ≤ (front ++ behind).length := by
    rw [hsplit, List.length_append, List.length_cons] at hlong
    rw [List.length_append]
    omega
  obtain ⟨others, hothers, hperm, hplace⟩ : ∃ others : ExecutionProviderRegistry I,
      others.length = providers.length ∧ others.Perm providers ∧
        others[2 ^ 32]? = some provider := by
    have hperm : ((front ++ behind).take (2 ^ 32) ++ provider :: (front ++ behind).drop (2 ^ 32)).Perm
        providers := by
      refine List.perm_middle.trans ?_
      rw [List.take_append_drop, hsplit]
      exact List.perm_middle.symm
    refine ⟨_, hperm.length_eq, hperm, ?_⟩
    have htaken : ((front ++ behind).take (2 ^ 32)).length = 2 ^ 32 := by
      rw [List.length_take, Nat.min_eq_left hlength]
    rw [List.getElem?_append_right htaken.le, htaken, Nat.sub_self]
    rfl
  obtain ⟨hcomplete, hsame⟩ := h.anyOrder others hperm
  obtain ⟨plan', hplan'⟩ := hcomplete.2 ⟨plan, hplan⟩
  have hnamed := (hsame plan plan' hplan hplan').1
  obtain ⟨selected, hchosen⟩ := chosen_of_bind (predicates_perm hperm hpredicates) hplan'
  have hfirst : 0 < plan'.program.kernels.length := by
    rw [hchosen.length, hrequired]
    exact Nat.succ_pos _
  obtain ⟨earlier, other, registered, hearlier, hother, hregistered, hindex⟩ :=
    hchosen.kernel (List.getElem?_eq_getElem hfirst)
  rw [hrequired] at hearlier
  cases hearlier
  have heq := best_unique hnames hbest ((best_perm hperm).1 hother)
  subst heq
  have hnames' : (others.map (·.name)).Nodup := (hperm.map _).nodup_iff.2 hnames
  have hcast : registered = 2 ^ 32 := by
    refine (List.getElem?_inj (List.getElem?_eq_some_iff.1 hregistered).1 hnames'.of_map).1 ?_
    rw [hregistered, hplace]
  rw [hcast, Nat.mod_self] at hindex
  have hzero : (plan'.kernelProviders others)[0]? = some (others[0]?.map (·.name)) := by
    rw [BoundExecutionProvider.kernelProviders, List.getElem?_map, List.getElem?_eq_getElem hfirst,
      Option.map_some, hindex]
  rw [hnamed, hprovider] at hzero
  have hclash : (others.map (·.name))[0]? = (others.map (·.name))[2 ^ 32]? := by
    rw [List.getElem?_map, List.getElem?_map, hplace, ← Option.some.inj hzero]
    rfl
  have hsomewhere : 0 < (others.map (·.name)).length := by
    rw [List.length_map, hothers]
    omega
  exact absurd ((List.getElem?_inj hsomewhere hnames').1 hclash) (by decide)

theorem addressable_of_bindsBest (hall : ∀ required ∈ descriptor.requiredKernels, ∃ provider,
      Eligible mode providers descriptor required provider)
    (h : BindsBest mode providers descriptor) : Addressable mode providers descriptor := by
  have hlength := registry_le hnames hpredicates hvalid hall h
  obtain ⟨plan, hplan⟩ := h.complete.2 hall
  have hplans := h.optimal plan hplan
  obtain ⟨selected, hchosen⟩ := chosen_of_bind hpredicates hplan
  have hkey : ∀ {binding : UInt32} {key : KernelKey},
      RefersTo descriptor plan.program binding key → ∃ place < 2 ^ 32, ∃ required,
        descriptor.requiredKernels[place]? = some required ∧
          (required.capability, required.abiVersion) = key := by
    intro binding key hrefers
    obtain ⟨kernel, required, -, hrequired, heq⟩ := hrefers
    exact ⟨_, kernel.requirementIndex.toNat_lt, required, hrequired, heq⟩
  refine ⟨hlength, ?_, ?_⟩
  · intro place required earlier hrequired hearlier provider hbest
    have hless : place < plan.program.kernels.length := by
      rw [hchosen.length]
      exact (List.getElem?_eq_some_iff.1 hrequired).1
    have hkernel := List.getElem?_eq_getElem hless
    obtain ⟨named, hnamed, hbestNamed⟩ := forall₂_getElem? hplans.kernels hrequired hkernel
    obtain ⟨earlier', other, registered, hearlier', hother, hregistered, hindex⟩ :=
      hchosen.kernel hkernel
    rw [hearlier] at hearlier'
    cases hearlier'
    have hplaced : registered < 2 ^ 32 :=
      Nat.lt_of_lt_of_le (List.getElem?_eq_some_iff.1 hregistered).1 hlength
    rw [hindex, Nat.mod_eq_of_lt hplaced, hregistered] at hnamed
    cases hnamed
    rwa [best_unique hnames hbest hother]
  · intro key hmem
    rcases List.mem_append.1 hmem with hoperation | hlayer
    · obtain ⟨declared, hdeclared, rfl⟩ := List.mem_map.1 hoperation
      obtain ⟨operation, -, hrefers⟩ := forall₂_mem_left hplans.operations hdeclared
      exact hkey hrefers
    · obtain ⟨source, hsource, rfl⟩ := List.mem_map.1 hlayer
      obtain ⟨layer, -, hrefers⟩ := forall₂_mem_left hplans.layers hsource
      exact hkey hrefers

end

theorem registered_of (hnames : (providers.map (·.name)).Nodup)
    (hcomplete : ∀ provider ∈ providers, ¬ (provider.name = "" ∨ provider.capabilities = []) ∧
      checkCapabilities [] provider.capabilities = .ok ()) : Registered providers := by
  induction providers using List.reverseRecOn with
  | nil => exact .empty
  | append_singleton earlier provider ih =>
    rw [map_append, map_singleton] at hnames
    obtain ⟨hearlier, -, hdisjoint⟩ := nodup_append.1 hnames
    obtain ⟨hsome, hcapabilities⟩ := hcomplete provider (by simp)
    have hregistered := ih hearlier fun other hother =>
      hcomplete other (mem_append_left _ hother)
    have hadded : ExecutionProviderRegistry.add earlier provider = .ok (earlier ++ [provider]) := by
      simp only [ExecutionProviderRegistry.add, bind_ok_iff, require_ok_iff, pure_ok_iff]
      exact ⟨(), hsome, (), fun hname => hdisjoint _ hname _ (mem_singleton_self _) rfl,
        (), hcapabilities, trivial⟩
    exact .add hregistered hadded

def fixtureDefinition (name : String) (priority : UInt32) : ExecutionProviderDefinition Unit where
  name := name
  priority := priority
  capabilities := fixtureProvider

def pair : ExecutionProviderRegistry Unit :=
  [fixtureDefinition "fixture.reference" 0, fixtureDefinition "fixture.tuned" 1]

/-- One provider too many, and the last one is the best. -/
def crowd : ExecutionProviderRegistry Unit :=
  (List.range (2 ^ 32 + 1)).map fun number =>
    fixtureDefinition (label 33 number) (if number = 2 ^ 32 then 1 else 0)

end QuantumLlm.Runtime.Program
