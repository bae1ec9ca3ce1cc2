import QuantumLlm.Runtime.Program.Artifact

/-!
# Records that leave the kernels alone

All records but those of kernels and of the exact decode program are read in the same way
whatever kernels are required so far and whatever the exact decode program is, and leave
both as they are.
-/

namespace QuantumLlm.Runtime.Program

open Option

namespace ParseState

/-- The state with other kernels and another exact decode program. -/
def withExact (state : ParseState) (kernels : List KernelRequirement)
    (decode : Option ExactDecodeProgramDescriptor) : ParseState :=
  { state with
    descriptor :=
      { state.descriptor with requiredKernels := kernels, exactDecodeProgram := decode } }

/-- Reading a record does not depend on the kernels and on the exact decode program. -/
def Keeps (parse : ParseState → Option ParseState) : Prop :=
  ∀ state kernels decode,
    parse (withExact state kernels decode) = (parse state).map (withExact · kernels decode)

theorem keeps_none : Keeps fun _ => none := fun _ _ _ => rfl

theorem keeps_some {next : ParseState → ParseState}
    (h : ∀ state kernels decode,
      next (withExact state kernels decode) = withExact (next state) kernels decode) :
    Keeps fun state => some (next state) :=
  fun state kernels decode => congrArg some (h state kernels decode)

theorem keeps_bind {α : Type} {value : ParseState → Option α}
    {next : ParseState → α → Option ParseState}
    (hvalue : ∀ state kernels decode, value (withExact state kernels decode) = value state)
    (h : ∀ item, Keeps (next · item)) : Keeps fun state => value state >>= next state := by
  intro state kernels decode
  dsimp only
  rw [hvalue]
  cases value state with
  | none => rfl
  | some item => exact h item state kernels decode

theorem keeps_ite {holds : ParseState → Prop} {decides : ∀ state, Decidable (holds state)}
    {next : ParseState → Option ParseState}
    (hholds : ∀ state kernels decode, holds (withExact state kernels decode) = holds state)
    (h : Keeps next) : Keeps fun state => @ite _ (holds state) (decides state) none (next state) := by
  intro state kernels decode
  dsimp only
  by_cases hstate : holds state
  · rw [if_pos hstate, if_pos (by rw [hholds]; exact hstate)]
    rfl
  · rw [if_neg hstate, if_neg (by rw [hholds]; exact hstate)]
    exact h state kernels decode

variable {fields : List String} {base : UInt64}

theorem keeps_changeComponent {name : String}
    {change : RoutedExpertComponentDescriptor → Option RoutedExpertComponentDescriptor} :
    Keeps (changeComponent · name change) := by
  refine keeps_bind (fun _ _ _ => rfl) fun routedComponents => ?_
  exact keeps_some fun _ _ _ => rfl

theorem keeps_changeOperation {logical : String}
    {change : OperationProgramDescriptor → Option OperationProgramDescriptor} :
    Keeps (changeOperation · logical change) := by
  refine keeps_bind (fun _ _ _ => rfl) fun logicalOperation => ?_
  refine keeps_bind (fun _ _ _ => rfl) fun operationProgram => ?_
  exact keeps_some fun _ _ _ => rfl

/-- The kinds of records that read or change the kernels or the exact decode program. -/
def exactKinds : List String :=
  ["kernel", "exact_decode", "exact_decode_parameter", "exact_decode_tensor"]

/-- A record of any other kind is guarded, then read field by field, then entered. -/
theorem keeps_parseRecord {kind : String} (hkind : kind ∉ exactKinds) :
    Keeps (parseRecord · base (kind :: fields)) := by
  unfold exactKinds at hkind
  simp only [List.mem_cons, List.not_mem_nil, or_false, not_or] at hkind
  obtain ⟨hkernel, hdecode, hparameter, htensor⟩ := hkind
  unfold parseRecord
  dsimp only
  split
  all_goals first
    | exact absurd rfl hkernel
    | exact absurd rfl hdecode
    | exact absurd rfl hparameter
    | exact absurd rfl htensor
    | exact keeps_none
    | unfold parseModel
    | unfold parseAttribute
    | unfold parseModelTensor
    | unfold parseProgramInput
    | unfold parseProgramOutput
    | unfold parseComponent
    | unfold parseComponentAttribute
    | unfold parseRouter
    | unfold parseRouterParameter
    | unfold parseLayer
    | unfold parseLayerParameter
    | unfold parseOperation
    | unfold parseOperationParameter
    | unfold parseOperationTensor
    | unfold parseOperationInput
    | unfold parseOperationOutput
  all_goals
    split
    next =>
      refine keeps_ite (fun _ _ _ => rfl) ?_
      repeat first
        | exact keeps_some fun _ _ _ => rfl
        | exact keeps_changeComponent
        | exact keeps_changeOperation
        | refine keeps_bind (fun _ _ _ => rfl) fun _ => ?_
        | refine keeps_ite (fun _ _ _ => rfl) ?_
    next => exact keeps_none

variable {state state' : ParseState}

theorem withExact_self :
    withExact state state.descriptor.requiredKernels state.descriptor.exactDecodeProgram = state :=
  rfl

/-- A record of another kind leaves the kernels and the exact decode program as they are. -/
theorem kept_of_parseRecord {kind : String} (hkind : kind ∉ exactKinds)
    (h : state.parseRecord base (kind :: fields) = some state') :
    state'.descriptor.requiredKernels = state.descriptor.requiredKernels ∧
      state'.descriptor.exactDecodeProgram = state.descriptor.exactDecodeProgram := by
  have hself := @keeps_parseRecord fields base kind hkind state
    state.descriptor.requiredKernels state.descriptor.exactDecodeProgram
  rw [withExact_self] at hself
  dsimp only at hself
  rw [h] at hself
  have hsame := Option.some.inj hself
  exact ⟨congrArg (fun other => other.descriptor.requiredKernels) hsame,
    congrArg (fun other => other.descriptor.exactDecodeProgram) hsame⟩

theorem parseKernel_iff : state.parseRecord base ("kernel" :: fields) = some state' ↔
    ∃ capability abi abiVersion, fields = [capability, abi] ∧ state.model = true ∧
      validAtom capability = true ∧ parseU32 abi = some abiVersion ∧
      state' = state.withExact (state.descriptor.requiredKernels ++ [⟨capability, abiVersion⟩])
        state.descriptor.exactDecodeProgram := by
  change state.parseKernel fields = some state' ↔ _
  unfold parseKernel
  constructor
  · intro h
    split at h
    next capability abi =>
      split at h
      · cases h
      next hvalid =>
        obtain ⟨abiVersion, habi, h⟩ := bind_eq_some_iff.1 h
        rw [not_or, not_not, not_not] at hvalid
        exact ⟨capability, abi, abiVersion, rfl, hvalid.1, hvalid.2, habi, (Option.some.inj h).symm⟩
    next => cases h
  · intro h
    obtain ⟨capability, abi, abiVersion, rfl, hmodel, hvalid, habi, rfl⟩ := h
    dsimp only
    rw [if_neg (by rw [hmodel, hvalid]; simp), habi]
    rfl

theorem parseExactDecode_iff : state.parseRecord base ("exact_decode" :: fields) = some state' ↔
    ∃ capability abi maximum abiVersion maximumEmittedTokens,
      fields = [capability, abi, maximum] ∧ state.model = true ∧
      state.descriptor.exactDecodeProgram = none ∧ validAtom capability = true ∧
      parseU32 abi = some abiVersion ∧ parseU32 maximum = some maximumEmittedTokens ∧
      state' = state.withExact state.descriptor.requiredKernels
        (some { capability, abiVersion, maximumEmittedTokens }) := by
  change state.parseExactDecode fields = some state' ↔ _
  unfold parseExactDecode
  constructor
  · intro h
    split at h
    next capability abi maximum =>
      split at h
      · cases h
      next hvalid =>
        obtain ⟨abiVersion, habi, h⟩ := bind_eq_some_iff.1 h
        obtain ⟨maximumEmittedTokens, hmaximum, h⟩ := bind_eq_some_iff.1 h
        rw [not_or, not_or, not_not, not_not, Bool.not_eq_true, isSome_eq_false_iff,
          isNone_iff_eq_none] at hvalid
        exact ⟨capability, abi, maximum, abiVersion, maximumEmittedTokens, rfl, hvalid.1,
          hvalid.2.1, hvalid.2.2, habi, hmaximum, (Option.some.inj h).symm⟩
    next => cases h
  · intro h
    obtain ⟨capability, abi, maximum, abiVersion, maximumEmittedTokens, rfl, hmodel, hnone, hvalid,
      habi, hmaximum, rfl⟩ := h
    dsimp only
    rw [if_neg (by rw [hmodel, hvalid, hnone]; simp), habi, hmaximum]
    rfl

theorem parseExactDecodeParameter_iff :
    state.parseRecord base ("exact_decode_parameter" :: fields) = some state' ↔
    ∃ key text value decode parameters, fields = [key, text] ∧ validAtom key = true ∧
      parseU64 text = some value ∧ state.descriptor.exactDecodeProgram = some decode ∧
      decode.parameters.insertNew? key value = some parameters ∧
      state' = state.withExact state.descriptor.requiredKernels
        (some { decode with parameters }) := by
  change state.parseExactDecodeParameter fields = some state' ↔ _
  unfold parseExactDecodeParameter changeExactDecode
  constructor
  · intro h
    split at h
    next key text =>
      split at h
      · cases h
      next hvalid =>
        obtain ⟨value, hvalue, h⟩ := bind_eq_some_iff.1 h
        obtain ⟨decode, hdecode, h⟩ := bind_eq_some_iff.1 h
        obtain ⟨changed, hchanged, h⟩ := bind_eq_some_iff.1 h
        obtain ⟨parameters, hparameters, rfl⟩ := map_eq_some_iff.1 hchanged
        exact ⟨key, text, value, decode, parameters, rfl, not_not.1 hvalid, hvalue, hdecode,
          hparameters, (Option.some.inj h).symm⟩
    next => cases h
  · intro h
    obtain ⟨key, text, value, decode, parameters, rfl, hvalid, hvalue, hdecode, hparameters, rfl⟩ := h
    dsimp only
    rw [if_neg (not_not.2 hvalid), hvalue, hdecode]
    simp only [bind_eq_bind, bind_some, hparameters, map_some]
    rfl

theorem parseExactDecodeTensor_iff :
    state.parseRecord base ("exact_decode_tensor" :: fields) = some state' ↔
    ∃ role tensor decode tensorBindings, fields = [role, tensor] ∧ validAtom role = true ∧
      validAtom tensor = true ∧ state.descriptor.exactDecodeProgram = some decode ∧
      decode.tensorBindings.insertNew? role tensor = some tensorBindings ∧
      state' = state.withExact state.descriptor.requiredKernels
        (some { decode with tensorBindings }) := by
  change state.parseExactDecodeTensor fields = some state' ↔ _
  unfold parseExactDecodeTensor changeExactDecode
  constructor
  · intro h
    split at h
    next role tensor =>
      split at h
      · cases h
      next hvalid =>
        rw [not_or, not_not, not_not] at hvalid
        obtain ⟨decode, hdecode, h⟩ := bind_eq_some_iff.1 h
        obtain ⟨changed, hchanged, h⟩ := bind_eq_some_iff.1 h
        obtain ⟨tensorBindings, hbindings, rfl⟩ := map_eq_some_iff.1 hchanged
        exact ⟨role, tensor, decode, tensorBindings, rfl, hvalid.1, hvalid.2, hdecode, hbindings,
          (Option.some.inj h).symm⟩
    next => cases h
  · intro h
    obtain ⟨role, tensor, decode, tensorBindings, rfl, hrole, htensor, hdecode, hbindings, rfl⟩ := h
    dsimp only
    rw [if_neg (by rw [hrole, htensor]; simp), hdecode]
    simp only [bind_eq_bind, bind_some, hbindings, map_some]
    rfl

end ParseState

end QuantumLlm.Runtime.Program
