import QuantumLlm.ExpertPack.MtpUpgrade
import QuantumLlm.Runtime.Program.Ssa
import QuantumLlm.Runtime.Program.Untouched

/-!
# The upgraded program

The runtime's parser reads an upgraded program next to the program it was made of: record
for record it reaches the same descriptor, but for the required kernel and the exact decode
program. The descriptor is accepted where nothing else uses the kernel that is gone.
-/

namespace QuantumLlm.ExpertPack

open PythonText QuantumLlm.Runtime.Program List
open OrderedMap (insertNew?)
open QuantumLlm.Runtime (Sha256Digest)
open QuantumLlm.Runtime.Program.ParseState (withExact)

def oldRequirement : KernelRequirement := ⟨denseMtpExactV1, 1⟩
def newRequirement : KernelRequirement := ⟨denseMtpExactV2, 2⟩

def newKeys : List String :=
  ["source_mtp_layers", "draft_depth", "draft_vocabulary_size", "mtp_kv_encoding"]

/-- The parameter that an upgraded program's parameter comes from. -/
def origin (key : String) : String := if key ∈ newKeys then "draft_layers" else key

/-- Every parameter of the new program comes from one of the old program. -/
def ParametersMatch (old new : OrderedMap String UInt64) : Prop :=
  ∀ key ∈ new.keys, validAtom key = true ∧ origin key ∈ old.keys

/-- The required kernels, before and behind the record of the old kernel. -/
def KernelsMatch (seen : Bool) (old new : List KernelRequirement) : Prop :=
  if seen = true then ∃ before behind, old = before ++ oldRequirement :: behind ∧
    new = before ++ newRequirement :: behind
  else new = old

def DecodeMatch (maximum : UInt32) (seen : Bool) :
    Option ExactDecodeProgramDescriptor → Option ExactDecodeProgramDescriptor → Prop
  | none, none => seen = false
  | some old, some new =>
    new.tensorBindings = old.tensorBindings ∧ ParametersMatch old.parameters new.parameters ∧
    (seen = true → new.capability = denseMtpExactV2 ∧ new.abiVersion = 2 ∧
      new.maximumEmittedTokens = maximum)
  | _, _ => False

/-- The states of the parser at one record of the two programs. -/
structure StatesMatch (maximum : UInt32) (kernelSeen decodeSeen : Bool) (old new : ParseState) :
    Prop where
  state : new = old.withExact new.descriptor.requiredKernels new.descriptor.exactDecodeProgram
  kernels : KernelsMatch kernelSeen old.descriptor.requiredKernels new.descriptor.requiredKernels
  fresh : ∀ item ∈ old.descriptor.requiredKernels, item.capability ≠ denseMtpExactV2
  decode : DecodeMatch maximum decodeSeen old.descriptor.exactDecodeProgram
    new.descriptor.exactDecodeProgram

variable {maximum : UInt32} {kernelSeen decodeSeen : Bool} {old old' new : ParseState}
  {base : UInt64} {fields : Record} {draftDepth draftVocabularySize : Int}

variable {next : OrderedMap String UInt64} {key : String} {value : UInt64}
  {decode : ExactDecodeProgramDescriptor} {program : Option ExactDecodeProgramDescriptor}

theorem mem_keys_insertNew? {map : OrderedMap String UInt64}
    (h : map.insertNew? key value = some next) :
    key ∉ map.keys ∧ ∀ other, other ∈ next.keys ↔ other = key ∨ other ∈ map.keys := by
  unfold OrderedMap.insertNew? at h
  split at h
  · cases h
  · rename_i hfresh
    have hnew : key ∉ map.keys := by
      rw [← OrderedMap.contains_iff]
      exact hfresh
    have hnone : map.find? key = none := by
      cases hfound : map.find? key with
      | none => rfl
      | some found => exact absurd (OrderedMap.mem_keys_iff.2 ⟨found, hfound⟩) hnew
    cases h
    refine ⟨hnew, fun other => ?_⟩
    rw [(OrderedMap.keys_emplace_perm hnone).mem_iff, mem_cons]

theorem insertNew?_of_not_mem {map : OrderedMap String UInt64} {key : String} {value : UInt64}
    (h : key ∉ map.keys) : ∃ next, map.insertNew? key value = some next := by
  unfold OrderedMap.insertNew?
  rw [if_neg (by rw [OrderedMap.contains_iff]; exact h)]
  exact ⟨_, rfl⟩

theorem origin_of_other (h : key ∉ newKeys) : origin key = key := if_neg h

theorem origin_of_new (h : key ∈ newKeys) : origin key = "draft_layers" := if_pos h

theorem ParametersMatch.keep {old new : OrderedMap String UInt64}
    (h : ParametersMatch old new) (hkey : key ∉ newKeys)
    (hvalid : validAtom key = true) (hold : old.insertNew? key value = some next) :
    ∃ next', new.insertNew? key value = some next' ∧ ParametersMatch next next' := by
  obtain ⟨hfresh, hkeys⟩ := mem_keys_insertNew? hold
  have hnew : key ∉ new.keys := by
    intro hmem
    have horigin := (h key hmem).2
    rw [origin_of_other hkey] at horigin
    exact hfresh horigin
  obtain ⟨next', hnext⟩ := @insertNew?_of_not_mem _ _ value hnew
  refine ⟨next', hnext, fun other hother => ?_⟩
  rcases ((mem_keys_insertNew? hnext).2 other).1 hother with rfl | hmem
  · exact ⟨hvalid, (hkeys _).2 (.inl (origin_of_other hkey))⟩
  · exact ⟨(h other hmem).1, (hkeys _).2 (.inr (h other hmem).2)⟩

theorem ParametersMatch.replace {old new : OrderedMap String UInt64}
    (h : ParametersMatch old new) (hkey : key ∈ newKeys) (hfresh : key ∉ new.keys)
    (hvalid : validAtom key = true) (hlayers : "draft_layers" ∈ old.keys) (value : UInt64) :
    ∃ next, new.insertNew? key value = some next ∧ ParametersMatch old next ∧
      ∀ other, other ∈ next.keys ↔ other = key ∨ other ∈ new.keys := by
  obtain ⟨next, hnext⟩ := @insertNew?_of_not_mem _ _ value hfresh
  refine ⟨next, hnext, fun other hother => ?_, (mem_keys_insertNew? hnext).2⟩
  rcases ((mem_keys_insertNew? hnext).2 other).1 hother with rfl | hmem
  · rw [origin_of_new hkey]
    exact ⟨hvalid, hlayers⟩
  · exact h other hmem

theorem ParametersMatch.mono {old new : OrderedMap String UInt64}
    (h : ParametersMatch old new) (hmore : ∀ key ∈ old.keys, key ∈ next.keys) :
    ParametersMatch next new := fun key hkey => ⟨(h key hkey).1, hmore _ (h key hkey).2⟩

/-! ## One record -/

/-- What the contract says of one record. -/
structure Migratable (fields : Record) : Prop where
  fresh : denseMtpExactV2 ∉ fields
  parameter : ∀ key value, fields = ["exact_decode_parameter", key, value] → key ∉ newKeys

theorem StatesMatch.model_eq (h : StatesMatch maximum kernelSeen decodeSeen old new) :
    new.model = old.model := by
  rw [h.state]
  rfl

theorem KernelsMatch.append {old new : List KernelRequirement} (h : KernelsMatch kernelSeen old new)
    (item : KernelRequirement) : KernelsMatch kernelSeen (old ++ [item]) (new ++ [item]) := by
  unfold KernelsMatch at h ⊢
  split
  · rename_i hseen
    rw [if_pos hseen] at h
    obtain ⟨before, behind, rfl, rfl⟩ := h
    exact ⟨before, behind ++ [item], by simp, by simp⟩
  · rename_i hseen
    rw [if_neg hseen] at h
    rw [h]

theorem DecodeMatch.some_of_old
    (h : DecodeMatch maximum decodeSeen (some decode) program) : ∃ decode',
      program = some decode' ∧ decode'.tensorBindings = decode.tensorBindings ∧
      ParametersMatch decode.parameters decode'.parameters ∧
      (decodeSeen = true → decode'.capability = denseMtpExactV2 ∧ decode'.abiVersion = 2 ∧
        decode'.maximumEmittedTokens = maximum) := by
  cases program with
  | none => exact False.elim h
  | some decode' => exact ⟨decode', rfl, h⟩

theorem DecodeMatch.none_of_old
    (h : DecodeMatch maximum decodeSeen none program) : program = none ∧ decodeSeen = false := by
  cases program with
  | none => exact ⟨rfl, h⟩
  | some decode' => exact False.elim h

section

variable (h : StatesMatch maximum kernelSeen decodeSeen old new)

include h

theorem StatesMatch.kernel (hfresh : denseMtpExactV2 ∉ fields)
    (hread : old.parseRecord base ("kernel" :: fields) = some old') :
    ∃ new', new.parseRecord base ("kernel" :: fields) = some new' ∧
      StatesMatch maximum kernelSeen decodeSeen old' new' := by
  obtain ⟨capability, abi, abiVersion, rfl, hmodel, hvalid, habi, rfl⟩ :=
    ParseState.parseKernel_iff.1 hread
  refine ⟨_, ParseState.parseKernel_iff.2 ⟨capability, abi, abiVersion, rfl, ?_, hvalid, habi, rfl⟩,
    ?_, h.kernels.append _, ?_, h.decode⟩
  · rw [h.model_eq]
    exact hmodel
  · rw [h.state]
    rfl
  · intro item hitem
    rcases mem_append.1 hitem with hearlier | hlast
    · exact h.fresh item hearlier
    · rw [mem_singleton.1 hlast]
      rintro rfl
      exact hfresh mem_cons_self

theorem StatesMatch.exactDecode
    (hread : old.parseRecord base ("exact_decode" :: fields) = some old') :
    ∃ new', new.parseRecord base ("exact_decode" :: fields) = some new' ∧
      StatesMatch maximum kernelSeen decodeSeen old' new' := by
  obtain ⟨capability, abi, maximum', abiVersion, maximumEmittedTokens, rfl, hmodel, hnone, hvalid,
    habi, hmaximum, rfl⟩ := ParseState.parseExactDecode_iff.1 hread
  have hdecode := h.decode
  rw [hnone] at hdecode
  obtain ⟨hprogram, hseen⟩ := hdecode.none_of_old
  refine ⟨_, ParseState.parseExactDecode_iff.2 ⟨capability, abi, maximum', abiVersion,
    maximumEmittedTokens, rfl, ?_, hprogram, hvalid, habi, hmaximum, rfl⟩, ?_, h.kernels, h.fresh, ?_⟩
  · rw [h.model_eq]
    exact hmodel
  · rw [h.state]
    rfl
  · refine ⟨rfl, fun key hkey => ?_, fun hthere => ?_⟩
    · cases hkey
    · rw [hseen] at hthere
      cases hthere

theorem StatesMatch.parameter
    (hkeys : ∀ key value, fields = [key, value] → key ∉ newKeys)
    (hread : old.parseRecord base ("exact_decode_parameter" :: fields) = some old') :
    ∃ new', new.parseRecord base ("exact_decode_parameter" :: fields) = some new' ∧
      StatesMatch maximum kernelSeen decodeSeen old' new' := by
  obtain ⟨key, text, value, decode, parameters, rfl, hvalid, hvalue, hprogram, hinsert, rfl⟩ :=
    ParseState.parseExactDecodeParameter_iff.1 hread
  have hdecode := h.decode
  rw [hprogram] at hdecode
  obtain ⟨decode', hprogram', htensors, hparameters, hseen⟩ := hdecode.some_of_old
  obtain ⟨parameters', hinsert', hmatch⟩ :=
    hparameters.keep (hkeys key text rfl) hvalid hinsert
  refine ⟨_, ParseState.parseExactDecodeParameter_iff.2 ⟨key, text, value, decode', parameters',
    rfl, hvalid, hvalue, hprogram', hinsert', rfl⟩, ?_, h.kernels, h.fresh, htensors, hmatch, hseen⟩
  rw [h.state]
  rfl

theorem StatesMatch.tensor
    (hread : old.parseRecord base ("exact_decode_tensor" :: fields) = some old') :
    ∃ new', new.parseRecord base ("exact_decode_tensor" :: fields) = some new' ∧
      StatesMatch maximum kernelSeen decodeSeen old' new' := by
  obtain ⟨role, tensor, decode, tensorBindings, rfl, hrole, htensor, hprogram, hinsert, rfl⟩ :=
    ParseState.parseExactDecodeTensor_iff.1 hread
  have hdecode := h.decode
  rw [hprogram] at hdecode
  obtain ⟨decode', hprogram', htensors, hparameters, hseen⟩ := hdecode.some_of_old
  refine ⟨_, ParseState.parseExactDecodeTensor_iff.2 ⟨role, tensor, decode', tensorBindings, rfl,
    hrole, htensor, hprogram', ?_, rfl⟩, ?_, h.kernels, h.fresh, rfl, hparameters, hseen⟩
  · rw [htensors]
    exact hinsert
  · rw [h.state]
    rfl

end

theorem StatesMatch.same (h : StatesMatch maximum kernelSeen decodeSeen old new)
    (hread : old.parseRecord base fields = some old') (hfields : Migratable fields) :
    ∃ new', new.parseRecord base fields = some new' ∧
      StatesMatch maximum kernelSeen decodeSeen old' new' := by
  cases fields with
  | nil => cases hread
  | cons kind fields =>
    by_cases hkind : kind ∈ ParseState.exactKinds
    · unfold ParseState.exactKinds at hkind
      simp only [mem_cons, not_mem_nil, or_false] at hkind
      rcases hkind with rfl | rfl | rfl | rfl
      · exact h.kernel (fun hmem => hfields.fresh (mem_cons_of_mem _ hmem)) hread
      · exact h.exactDecode hread
      · refine h.parameter (fun key value hrest => ?_) hread
        exact hfields.parameter key value (congrArg _ hrest)
      · exact h.tensor hread
    · obtain ⟨hkernels, hprogram⟩ := ParseState.kept_of_parseRecord hkind hread
      have hboth := @ParseState.keeps_parseRecord fields base kind hkind old
        new.descriptor.requiredKernels new.descriptor.exactDecodeProgram
      rw [← h.state] at hboth
      dsimp only at hboth
      rw [hread] at hboth
      refine ⟨_, hboth, rfl, ?_, ?_, ?_⟩
      · rw [hkernels]
        exact h.kernels
      · rw [hkernels]
        exact h.fresh
      · rw [hprogram]
        exact h.decode

/-- The numbers of the new records are read back. -/
structure Numbers (draftDepth draftVocabularySize : Int) (maximum : UInt32) : Prop where
  depth : ∃ value, parseU64 (toString draftDepth) = some value
  vocabulary : ∃ value, parseU64 (toString draftVocabularySize) = some value
  next : parseU32 (toString (draftDepth + 1)) = some maximum
  pair : 2 ≤ maximum

theorem StatesMatch.oldKernel (h : StatesMatch maximum false decodeSeen old new)
    (hread : old.parseRecord base oldKernel = some old') : ∃ new',
      new.parseRecord base newKernel = some new' ∧
        StatesMatch maximum true decodeSeen old' new' := by
  obtain ⟨capability, abi, abiVersion, hfields, hmodel, hvalid, habi, rfl⟩ :=
    ParseState.parseKernel_iff.1 hread
  cases hfields
  have habi' : abiVersion = 1 := Option.some.inj (habi.symm.trans (by decide +kernel))
  subst habi'
  have hsame : new.descriptor.requiredKernels = old.descriptor.requiredKernels := h.kernels
  refine ⟨_, ParseState.parseKernel_iff.2 ⟨denseMtpExactV2, "2", 2, rfl, ?_, by decide +kernel,
    by decide +kernel, rfl⟩, ?_, ?_, ?_, h.decode⟩
  · rw [h.model_eq]
    exact hmodel
  · rw [h.state]
    rfl
  · refine ⟨old.descriptor.requiredKernels, [], rfl, ?_⟩
    rw [← hsame]
    rfl
  · intro item hitem
    rcases mem_append.1 hitem with hearlier | hlast
    · exact h.fresh item hearlier
    · rw [mem_singleton.1 hlast]
      decide +kernel

theorem StatesMatch.oldDecode (hnumbers : Numbers draftDepth draftVocabularySize maximum)
    (h : StatesMatch maximum kernelSeen decodeSeen old new)
    (hread : old.parseRecord base oldDecode = some old') : ∃ new',
      new.parseRecord base (newDecode draftDepth) = some new' ∧
        StatesMatch maximum kernelSeen true old' new' := by
  obtain ⟨capability, abi, maximum', abiVersion, maximumEmittedTokens, hfields, hmodel, hnone, hvalid,
    habi, hmaximum, rfl⟩ := ParseState.parseExactDecode_iff.1 hread
  have hdecode := h.decode
  rw [hnone] at hdecode
  obtain ⟨hprogram, -⟩ := hdecode.none_of_old
  refine ⟨_, ParseState.parseExactDecode_iff.2 ⟨denseMtpExactV2, "2", toString (draftDepth + 1), 2,
    maximum, rfl, ?_, hprogram, by decide +kernel, by decide +kernel, hnumbers.next, rfl⟩,
    ?_, h.kernels, h.fresh, rfl, fun key hkey => ?_, fun _ => ⟨rfl, rfl, rfl⟩⟩
  · rw [h.model_eq]
    exact hmodel
  · rw [h.state]
    rfl
  · cases hkey

theorem StatesMatch.newParameter (h : StatesMatch maximum kernelSeen decodeSeen old new)
    (base : UInt64) (key : String) {text : String}
    (hprogram : new.descriptor.exactDecodeProgram = some decode)
    (hlayers : ∀ program, old.descriptor.exactDecodeProgram = some program →
      "draft_layers" ∈ program.parameters.keys)
    (hkey : key ∈ newKeys) (hfresh : key ∉ decode.parameters.keys) (hvalid : validAtom key = true)
    (hvalue : parseU64 text = some value) : ∃ new' decode',
      new.parseRecord base ["exact_decode_parameter", key, text] = some new' ∧
        StatesMatch maximum kernelSeen decodeSeen old new' ∧
        new'.descriptor.exactDecodeProgram = some decode' ∧
        ∀ other, other ∈ decode'.parameters.keys ↔ other = key ∨ other ∈ decode.parameters.keys := by
  have hdecode := h.decode
  rw [hprogram] at hdecode
  cases hold : old.descriptor.exactDecodeProgram with
  | none =>
    rw [hold] at hdecode
    exact False.elim hdecode
  | some program =>
    rw [hold] at hdecode
    obtain ⟨htensors, hparameters, hseen⟩ := hdecode
    obtain ⟨next, hnext, hmatch, hkeys⟩ :=
      hparameters.replace hkey hfresh hvalid (hlayers program hold) value
    refine ⟨_, _, ParseState.parseExactDecodeParameter_iff.2 ⟨key, text, value, decode, next, rfl,
      hvalid, hvalue, hprogram, hnext, rfl⟩, ⟨?_, h.kernels, h.fresh, ?_⟩, rfl, hkeys⟩
    · rw [h.state]
      rfl
    · rw [hold]
      exact ⟨htensors, hmatch, hseen⟩

theorem StatesMatch.draftLayers (hnumbers : Numbers draftDepth draftVocabularySize maximum)
    (h : StatesMatch maximum kernelSeen decodeSeen old new)
    (hread : old.parseRecord base draftLayers = some old') : ∃ new',
      (draftParameters draftDepth draftVocabularySize).foldlM
        (fun state fields => state.parseRecord base fields) new = some new' ∧
        StatesMatch maximum kernelSeen decodeSeen old' new' := by
  obtain ⟨key, text, value, decode, parameters, hfields, hvalid, hvalue, hprogram, hinsert, rfl⟩ :=
    ParseState.parseExactDecodeParameter_iff.1 hread
  cases hfields
  obtain ⟨hfresh, hkeys⟩ := mem_keys_insertNew? hinsert
  have hdecode := h.decode
  rw [hprogram] at hdecode
  obtain ⟨decode', hprogram', htensors, hparameters, hseen⟩ := hdecode.some_of_old
  have hnew : ∀ other ∈ newKeys, other ∉ decode'.parameters.keys := by
    intro other hother hmem
    have horigin := (hparameters other hmem).2
    rw [origin_of_new hother] at horigin
    exact hfresh horigin
  have hstart : StatesMatch maximum kernelSeen decodeSeen
      (old.withExact old.descriptor.requiredKernels (some { decode with parameters })) new := by
    refine ⟨h.state, h.kernels, h.fresh, ?_⟩
    rw [hprogram']
    exact ⟨htensors, hparameters.mono fun other hother => (hkeys other).2 (.inr hother), hseen⟩
  have hlayers : ∀ program, (old.withExact old.descriptor.requiredKernels
      (some { decode with parameters })).descriptor.exactDecodeProgram = some program →
      "draft_layers" ∈ program.parameters.keys := by
    intro program hsome
    cases hsome
    exact (hkeys _).2 (.inl rfl)
  obtain ⟨depth, hdepth⟩ := hnumbers.depth
  obtain ⟨vocabulary, hvocabulary⟩ := hnumbers.vocabulary
  have hone : parseU64 "1" = some 1 := by decide +kernel
  obtain ⟨first, program, hfirst, hstart, hprogram', hfirstKeys⟩ := hstart.newParameter
    base "source_mtp_layers" hprogram' hlayers (by decide) (hnew _ (by decide))
    (by decide +kernel) hone
  obtain ⟨second, program, hsecond, hstart, hprogram', hsecondKeys⟩ := hstart.newParameter
    base "draft_depth" hprogram' hlayers (by decide)
    (by rw [hfirstKeys, not_or]; exact ⟨by decide, hnew _ (by decide)⟩) (by decide +kernel) hdepth
  obtain ⟨third, program, hthird, hstart, hprogram', hthirdKeys⟩ := hstart.newParameter
    base "draft_vocabulary_size" hprogram' hlayers (by decide)
    (by
      rw [hsecondKeys, hfirstKeys, not_or, not_or]
      exact ⟨by decide, by decide, hnew _ (by decide)⟩) (by decide +kernel) hvocabulary
  obtain ⟨fourth, program, hfourth, hstart, -, -⟩ := hstart.newParameter
    base "mtp_kv_encoding" hprogram' hlayers (by decide)
    (by
      rw [hthirdKeys, hsecondKeys, hfirstKeys, not_or, not_or, not_or]
      exact ⟨by decide, by decide, by decide, hnew _ (by decide)⟩) (by decide +kernel) hone
  refine ⟨fourth, ?_, hstart⟩
  unfold draftParameters
  simp only [foldlM_cons, foldlM_nil, hfirst, hsecond, hthird, hfourth,
    Option.bind_eq_bind, Option.bind_some, Option.pure_def]

theorem StatesMatch.record (hnumbers : Numbers draftDepth draftVocabularySize maximum)
    (h : StatesMatch maximum kernelSeen decodeSeen old new) (hfields : Migratable fields)
    (honce : kernelSeen = true → fields ≠ ExpertPack.oldKernel)
    (hread : old.parseRecord base fields = some old') : ∃ new',
      (upgradeRecord draftDepth draftVocabularySize fields).foldlM
        (fun state fields => state.parseRecord base fields) new = some new' ∧
      StatesMatch maximum (kernelSeen || fields = ExpertPack.oldKernel)
        (decodeSeen || fields = ExpertPack.oldDecode) old' new' := by
  unfold upgradeRecord
  by_cases hkernel : fields = ExpertPack.oldKernel
  · have hseen : kernelSeen = false := by
      cases kernelSeen with
      | true => exact absurd hkernel (honce rfl)
      | false => rfl
    subst hkernel hseen
    obtain ⟨new', hnew, hmatch⟩ := h.oldKernel hread
    refine ⟨new', ?_, ?_⟩
    · rw [if_pos rfl, foldlM_cons, hnew]
      rfl
    · have hother : decide (ExpertPack.oldKernel = ExpertPack.oldDecode) = false := by
        decide +kernel
      rw [hother, Bool.or_false]
      exact hmatch
  · rw [if_neg hkernel, decide_eq_false hkernel, Bool.or_false]
    by_cases hdecode : fields = ExpertPack.oldDecode
    · subst hdecode
      obtain ⟨new', hnew, hmatch⟩ := h.oldDecode hnumbers hread
      refine ⟨new', ?_, ?_⟩
      · rw [if_pos rfl, foldlM_cons, hnew]
        rfl
      · rw [decide_eq_true rfl, Bool.or_true]
        exact hmatch
    · rw [if_neg hdecode, decide_eq_false hdecode, Bool.or_false]
      by_cases hlayers : fields = ExpertPack.draftLayers
      · subst hlayers
        exact h.draftLayers hnumbers hread
      · rw [if_neg hlayers]
        obtain ⟨new', hnew, hmatch⟩ := h.same hread hfields
        refine ⟨new', ?_, hmatch⟩
        rw [foldlM_cons, hnew]
        rfl

/-! ## The checks of the descriptor -/

/-- A component, a layer or an operation uses a kernel. -/
def Refers (descriptor : ModelDescriptor) (key : KernelKey) : Prop :=
  (∃ item ∈ descriptor.routedComponents, (item.executionCapability, item.executionAbi) = key ∨
    (item.router.capability, item.router.abiVersion) = key) ∨
  (∃ layer ∈ descriptor.layerProgram, (layer.blockCapability, layer.blockAbiVersion) = key) ∨
  ∃ operation ∈ descriptor.operationProgram, (operation.capability, operation.abiVersion) = key

section

variable {descriptor : ModelDescriptor} {kernels : List KernelRequirement}
  {program : Option ExactDecodeProgramDescriptor} {requirements others : List KernelKey}

variable (descriptor kernels program) in
/-- The descriptor with other kernels and another exact decode program. -/
def exchanged : ModelDescriptor :=
  { descriptor with requiredKernels := kernels, exactDecodeProgram := program }

theorem checkRequirements_iff {seen : List KernelKey} {items : List KernelRequirement} :
    checkRequirements seen items = .ok requirements ↔
      requirements = seen ++ items.map (fun item => (item.capability, item.abiVersion)) ∧
      (∀ item ∈ items, item.capability ≠ "" ∧ item.abiVersion ≠ 0) ∧
      (items.map fun item => (item.capability, item.abiVersion)).Nodup ∧
      ∀ item ∈ items, (item.capability, item.abiVersion) ∉ seen := by
  induction items generalizing seen with
  | nil =>
    rw [map_nil, append_nil]
    constructor
    · intro h
      cases h
      exact ⟨rfl, nofun, nodup_nil, nofun⟩
    · rintro ⟨rfl, -, -, -⟩
      rfl
  | cons item rest ih =>
    unfold checkRequirements
    rw [bind_ok_iff]
    constructor
    · rintro ⟨_, hitem, hrest⟩
      rw [require_ok_iff, not_or, not_or] at hitem
      obtain ⟨hname, habi, hfresh⟩ := hitem
      obtain ⟨hsame, hall, hnodup, hapart⟩ := ih.1 hrest
      refine ⟨?_, forall_mem_cons.2 ⟨⟨hname, habi⟩, hall⟩, nodup_cons.2 ⟨fun hmem => ?_, hnodup⟩,
        forall_mem_cons.2 ⟨hfresh, fun other hother hmem => ?_⟩⟩
      · rw [hsame, append_assoc]
        rfl
      · obtain ⟨other, hother, hkey⟩ := mem_map.1 hmem
        refine hapart other hother (mem_append_right _ ?_)
        rw [hkey]
        exact mem_singleton_self _
      · exact hapart other hother (mem_append_left _ hmem)
    · rintro ⟨hsame, hall, hnodup, hapart⟩
      obtain ⟨⟨hname, habi⟩, hall⟩ := forall_mem_cons.1 hall
      obtain ⟨hfresh, hapart⟩ := forall_mem_cons.1 hapart
      obtain ⟨hother, hnodup⟩ := nodup_cons.1 hnodup
      refine ⟨(), require_ok_iff.2 ?_, ih.2 ⟨?_, hall, hnodup, fun other hmem hseen => ?_⟩⟩
      · rw [not_or, not_or]
        exact ⟨hname, habi, hfresh⟩
      · rw [hsame, append_assoc]
        rfl
      · rcases mem_append.1 hseen with hearlier | hlast
        · exact hapart other hmem hearlier
        · exact hother (mem_map.2 ⟨other, hmem, mem_singleton.1 hlast⟩)

theorem checkLayers_mono {seen result : List UInt32} {layers : List LayerProgramDescriptor}
    (h : checkLayers descriptor requirements seen layers = .ok result)
    (hkeys : ∀ layer ∈ layers, (layer.blockCapability, layer.blockAbiVersion) ∈ others) :
    checkLayers (exchanged descriptor kernels program) others seen layers = .ok result := by
  induction layers generalizing seen with
  | nil => exact h
  | cons layer rest ih =>
    obtain ⟨_, hlayer, h⟩ := bind_ok_iff.1 h
    obtain ⟨_, hcomponent, h⟩ := bind_ok_iff.1 h
    rw [require_ok_iff, not_or, not_or, not_or, not_or] at hlayer
    refine bind_ok_iff.2 ⟨(), require_ok_iff.2 ?_, bind_ok_iff.2 ⟨_, hcomponent,
      ih h fun other hother => hkeys other (mem_cons_of_mem _ hother)⟩⟩
    rw [not_or, not_or, not_or, not_or]
    exact ⟨hlayer.1, hlayer.2.1, hlayer.2.2.1, hlayer.2.2.2.1,
      not_not.2 (hkeys layer mem_cons_self)⟩

variable {logicalLayers : List UInt32}

theorem scanOperations_mono {scan result : OperationScan}
    {operations : List OperationProgramDescriptor}
    (h : scanOperations descriptor requirements logicalLayers scan operations = .ok result)
    (hkeys : ∀ operation ∈ operations, (operation.capability, operation.abiVersion) ∈ others) :
    scanOperations (exchanged descriptor kernels program) others logicalLayers scan operations =
      .ok result := by
  induction operations generalizing scan with
  | nil => exact h
  | cons operation rest ih =>
    obtain ⟨next, hnext, h⟩ := bind_ok_iff.1 h
    refine bind_ok_iff.2 ⟨next, ?_, ih h fun other hother => hkeys other (mem_cons_of_mem _ hother)⟩
    obtain ⟨_, hoperation, hnext⟩ := bind_ok_iff.1 hnext
    refine bind_ok_iff.2 ⟨(), require_ok_iff.2 ?_, hnext⟩
    rw [require_ok_iff] at hoperation
    simp only [not_or] at hoperation ⊢
    refine ⟨hoperation.1, hoperation.2.1, hoperation.2.2.1, hoperation.2.2.2.1,
      hoperation.2.2.2.2.1, hoperation.2.2.2.2.2.1, hoperation.2.2.2.2.2.2.1, ?_⟩
    exact not_not.2 (hkeys operation mem_cons_self)

theorem checkOperations_mono (h : checkOperations descriptor requirements logicalLayers = .ok ())
    (hkeys : ∀ operation ∈ descriptor.operationProgram,
      (operation.capability, operation.abiVersion) ∈ others) :
    checkOperations (exchanged descriptor kernels program) others logicalLayers = .ok () := by
  obtain ⟨_, hsome, h⟩ := bind_ok_iff.1 h
  refine bind_ok_iff.2 ⟨_, hsome, ?_⟩
  by_cases hempty : descriptor.operationProgram = []
  · exact if_pos hempty
  · rw [if_neg hempty] at h
    obtain ⟨scan, hscan, h⟩ := bind_ok_iff.1 h
    refine (if_neg hempty).trans (bind_ok_iff.2 ⟨scan, scanOperations_mono hscan hkeys, h⟩)

theorem checkComponentKernels_iff : checkComponentKernels descriptor requirements = .ok () ↔
    ∀ item ∈ descriptor.routedComponents,
      (item.executionCapability, item.executionAbi) ∈ requirements ∧
      ¬ ((descriptor.schemaVersion ≥ 2 ∧ item.router.capability = "") ∨
        (item.router.capability ≠ "" ∧ (item.router.abiVersion = 0 ∨
          (item.router.capability, item.router.abiVersion) ∉ requirements))) := by
  unfold checkComponentKernels
  rw [checkAll_ok_iff]
  refine forall_congr' fun item => forall_congr' fun _ => ?_
  rw [bind_ok_iff]
  constructor
  · rintro ⟨_, hexecution, hrouter⟩
    exact ⟨require_ok_iff.1 hexecution, require_ok_iff.1 hrouter⟩
  · rintro ⟨hexecution, hrouter⟩
    exact ⟨(), require_ok_iff.2 hexecution, require_ok_iff.2 hrouter⟩

def keyOf (item : KernelRequirement) : KernelKey := (item.capability, item.abiVersion)

theorem mem_keys_exchanged {before behind : List KernelRequirement} {key : KernelKey}
    (hnodup : ((before ++ oldRequirement :: behind).map keyOf).Nodup) :
    key ∈ (before ++ newRequirement :: behind).map keyOf ↔
      key = keyOf newRequirement ∨
        (key ≠ keyOf oldRequirement ∧ key ∈ (before ++ oldRequirement :: behind).map keyOf) := by
  simp only [map_append, map_cons, mem_append, mem_cons] at hnodup ⊢
  have hapart : keyOf oldRequirement ∉ before.map keyOf ∧ keyOf oldRequirement ∉ behind.map keyOf := by
    obtain ⟨-, hrest, hboth⟩ := nodup_append.1 hnodup
    exact ⟨fun hmem => hboth _ hmem _ mem_cons_self rfl, (nodup_cons.1 hrest).1⟩
  constructor
  · rintro (hbefore | rfl | hbehind)
    · refine .inr ⟨?_, .inl hbefore⟩
      rintro rfl
      exact hapart.1 hbefore
    · exact .inl rfl
    · refine .inr ⟨?_, .inr (.inr hbehind)⟩
      rintro rfl
      exact hapart.2 hbehind
  · rintro (rfl | ⟨hother, hbefore | hsame | hbehind⟩)
    · exact .inr (.inl rfl)
    · exact .inl hbefore
    · exact absurd hsame hother
    · exact .inr (.inr hbehind)

theorem exchanged_valid_iff {before behind : List KernelRequirement}
    (hvalid : validateModelDescriptor descriptor = .ok ())
    (hold : descriptor.requiredKernels = before ++ oldRequirement :: behind)
    (hnew : kernels = before ++ newRequirement :: behind)
    (hfresh : ∀ item ∈ descriptor.requiredKernels, item.capability ≠ denseMtpExactV2)
    (hdecode : DecodeMatch maximum true descriptor.exactDecodeProgram program)
    (hmaximum : 2 ≤ maximum) :
    validateModelDescriptor (exchanged descriptor kernels program) = .ok () ↔
      ¬ Refers descriptor (keyOf oldRequirement) := by
  subst hnew
  simp only [validateModelDescriptor, bind_ok_iff, require_ok_iff] at hvalid
  obtain ⟨_, harchitecture, _, htensors, _, hcomponents, requirements, hrequirements, _, hexact, _,
    hcomponentKernels, logicalLayers, hlayers, _, hcontiguous, _, hoperations, hflow⟩ := hvalid
  obtain ⟨rfl, hitems, hnodup, -⟩ := checkRequirements_iff.1 hrequirements
  rw [hold] at hexact hcomponentKernels hlayers hoperations hitems hnodup hfresh
  have hkeys := fun key => @mem_keys_exchanged _ _ key hnodup
  have hapart : keyOf oldRequirement ∉ (before ++ newRequirement :: behind).map keyOf := by
    rw [hkeys]
    rintro (hsame | ⟨hother, -⟩)
    · revert hsame
      decide +kernel
    · exact hother rfl
  cases hprogram : descriptor.exactDecodeProgram with
  | none =>
    rw [hprogram] at hdecode
    exact absurd hdecode.none_of_old.2 (by decide)
  | some decode =>
    rw [hprogram] at hdecode
    obtain ⟨decode', rfl, htensors', hparameters, hseen⟩ := hdecode.some_of_old
    unfold checkExactDecode at hexact
    rw [hprogram] at hexact
    obtain ⟨_, hexact, hrest⟩ := bind_ok_iff.1 hexact
    obtain ⟨_, -, hbindings⟩ := bind_ok_iff.1 hrest
    rw [require_ok_iff, not_or, not_or, not_or, not_or] at hexact
    have hschema := hexact.1
    constructor
    · intro h hrefers
      simp only [validateModelDescriptor, bind_ok_iff, require_ok_iff] at h
      obtain ⟨_, -, _, -, _, -, requirements, hrequirements, _, -, _, hcomponentKernels, logicalLayers,
        hlayers, _, -, _, hoperations, -⟩ := h
      obtain ⟨rfl, -, -, -⟩ := checkRequirements_iff.1 hrequirements
      rcases hrefers with ⟨item, hitem, hkey | hkey⟩ | ⟨layer, hlayer, hkey⟩ |
        ⟨operation, hoperation, hkey⟩
      · have hmem := (checkComponentKernels_iff.1 hcomponentKernels item hitem).1
        exact hapart (hkey ▸ hmem)
      · have hrouter := (checkComponentKernels_iff.1 hcomponentKernels item hitem).2
        have hname : item.router.capability ≠ "" := by
          rw [show item.router.capability = denseMtpExactV1 from congrArg Prod.fst hkey]
          decide
        exact hrouter (.inr ⟨hname, .inr (hkey ▸ hapart)⟩)
      · exact hapart (hkey ▸ (checkLayers_ok hlayers layer hlayer).1)
      · unfold checkOperations at hoperations
        obtain ⟨_, -, hoperations⟩ := bind_ok_iff.1 hoperations
        split at hoperations
        next hnone => exact absurd hnone (ne_nil_of_mem hoperation)
        next =>
          obtain ⟨scan, hscan, -⟩ := bind_ok_iff.1 hoperations
          exact hapart (hkey ▸ (scanOperations_ok hscan operation hoperation).1)
    · intro hrefers
      have hkept : ∀ key ∈ (before ++ oldRequirement :: behind).map keyOf,
          key ≠ keyOf oldRequirement → key ∈ (before ++ newRequirement :: behind).map keyOf :=
        fun key hkey hother => (hkeys key).2 (.inr ⟨hother, hkey⟩)
      have hcheck : checkRequirements [] (before ++ newRequirement :: behind) =
          .ok ((before ++ newRequirement :: behind).map keyOf) := by
        refine checkRequirements_iff.2 ⟨rfl, fun item hitem => ?_, ?_, fun item _ => not_mem_nil⟩
        · simp only [mem_append, mem_cons] at hitem hitems
          rcases hitem with hbefore | rfl | hbehind
          · exact hitems item (.inl hbefore)
          · exact ⟨by decide, by decide⟩
          · exact hitems item (.inr (.inr hbehind))
        · change ((before ++ newRequirement :: behind).map keyOf).Nodup
          have hnot : ∀ item ∈ before ++ oldRequirement :: behind,
              keyOf item ≠ keyOf newRequirement := fun item hitem hsame =>
            hfresh item hitem (congrArg Prod.fst hsame)
          simp only [map_append, map_cons] at hnodup ⊢
          obtain ⟨hfirst, hlast, hboth⟩ := nodup_append.1 hnodup
          refine nodup_append.2 ⟨hfirst, nodup_cons.2 ⟨fun hmem => ?_,
            (nodup_cons.1 hlast).2⟩, fun left hleft right hright => ?_⟩
          · obtain ⟨item, hitem, hsame⟩ := mem_map.1 hmem
            exact hnot item (mem_append_right _ (mem_cons_of_mem _ hitem)) hsame
          · rcases mem_cons.1 hright with rfl | hlater
            · rintro rfl
              obtain ⟨item, hitem, hsame⟩ := mem_map.1 hleft
              exact hnot item (mem_append_left _ hitem) hsame
            · exact hboth left hleft right (mem_cons_of_mem _ hlater)
      simp only [validateModelDescriptor, bind_ok_iff, require_ok_iff]
      refine ⟨(), ?_, (), htensors, (), hcomponents, _, hcheck, (), ?_, (), ?_, logicalLayers, ?_, (),
        hcontiguous, (), ?_, (if_neg hschema).trans ((if_neg hschema).symm.trans hflow)⟩
      · simp only [not_or] at harchitecture ⊢
        obtain ⟨hversion, hname, hvocabulary, hcontext, hhidden, hlayerProgram, -⟩ := harchitecture
        refine ⟨hversion, hname, hvocabulary, hcontext, hhidden, hlayerProgram, ?_⟩
        simp [exchanged]
      · unfold checkExactDecode exchanged
        refine bind_ok_iff.2 ⟨(), require_ok_iff.2 ?_, bind_ok_iff.2 ⟨(), ?_, ?_⟩⟩
        · obtain ⟨hcapability, habi, hemitted⟩ := hseen rfl
          rw [hcapability, habi, hemitted, not_or, not_or, not_or, not_or]
          refine ⟨hschema, by decide +kernel, by decide, UInt32.not_lt.2 hmaximum, not_not.2 ?_⟩
          exact (hkeys _).2 (.inl rfl)
        · rw [checkAll_ok_iff]
          intro entry hentry
          exact require_ok_iff.2 (hparameters _ (mem_map_of_mem hentry)).1
        · rw [htensors']
          exact hbindings
      · rw [checkComponentKernels_iff]
        intro item hitem
        obtain ⟨hexecution, hrouter⟩ := checkComponentKernels_iff.1 hcomponentKernels item hitem
        refine ⟨hkept _ hexecution fun hsame => hrefers (.inl ⟨item, hitem, .inl hsame⟩), ?_⟩
        rintro (hlacks | ⟨hname, habi | hmissing⟩)
        · exact hrouter (.inl hlacks)
        · exact hrouter (.inr ⟨hname, .inl habi⟩)
        · refine hrouter (.inr ⟨hname, .inr fun hmem => hmissing ?_⟩)
          exact hkept _ hmem fun hsame => hrefers (.inl ⟨item, hitem, .inr hsame⟩)
      · exact checkLayers_mono hlayers fun layer hlayer =>
          hkept _ (checkLayers_ok hlayers layer hlayer).1 fun hsame =>
            hrefers (.inr (.inl ⟨layer, hlayer, hsame⟩))
      · refine checkOperations_mono hoperations fun operation hoperation => ?_
        obtain ⟨_, -, hoperations⟩ := bind_ok_iff.1 hoperations
        split at hoperations
        next hnone => exact absurd hnone (ne_nil_of_mem hoperation)
        next =>
          obtain ⟨scan, hscan, -⟩ := bind_ok_iff.1 hoperations
          exact hkept _ (scanOperations_ok hscan operation hoperation).1 fun hsame =>
            hrefers (.inr (.inr ⟨operation, hoperation, hsame⟩))

end

/-! ## The lines -/

/-- Two readers between two lines. -/
structure ReadersMatch (maximum : UInt32) (kernelSeen decodeSeen : Bool)
    (old new : Runtime.Program.Reader) : Prop where
  header : new.header = old.header
  state : StatesMatch maximum kernelSeen decodeSeen old.state new.state

section

variable {reader oldReader oldReader' newReader : Runtime.Program.Reader} {line : String}

theorem withoutReturn_of_plain (h : ∀ c ∈ line.toList, c ∉ boundaries) :
    withoutReturn line = line := by
  refine if_neg fun hlast => ?_
  exact h _ (mem_of_getLast? hlast) (by decide)

theorem readLine_record (hheader : reader.header = true) (hsome : line ≠ "")
    (hplain : ∀ c ∈ line.toList, c ∉ boundaries) : ∀ {next : Runtime.Program.Reader},
    Reader.readLine base reader line = .ok next ↔ ∃ state,
      reader.state.parseRecord base (splitRecord line) = some state ∧
        next = { reader with state, lineNumber := reader.lineNumber + 1 } := by
  intro next
  unfold Reader.readLine
  rw [withoutReturn_of_plain hplain, if_neg hsome, hheader, if_neg (by decide),
    show splitFields line = splitRecord line from rfl]
  cases reader.state.parseRecord base (splitRecord line) with
  | none =>
    constructor
    · exact nofun
    · rintro ⟨state, h, -⟩
      cases h
  | some state =>
    constructor
    · intro h
      cases h
      exact ⟨state, rfl, rfl⟩
    · rintro ⟨state', h, rfl⟩
      cases h
      rfl

theorem readLines_records {records : List Record} {state : ParseState}
    (hheader : reader.header = true)
    (hrecords : ∀ fields ∈ records, splitRecord (joinRecord fields) = fields ∧
      joinRecord fields ≠ "" ∧ ∀ c ∈ (joinRecord fields).toList, c ∉ boundaries)
    (h : records.foldlM (fun state fields => state.parseRecord base fields) reader.state =
      some state) : ∃ next, (records.map joinRecord).foldlM (Reader.readLine base) reader = .ok next ∧
        next.header = true ∧ next.state = state := by
  induction records generalizing reader with
  | nil =>
    cases h
    exact ⟨reader, rfl, hheader, rfl⟩
  | cons fields rest ih =>
    obtain ⟨middle, hmiddle, h⟩ := Option.bind_eq_some_iff.1 h
    obtain ⟨hsplit, hsome, hplain⟩ := hrecords fields mem_cons_self
    have hline := (readLine_record hheader hsome hplain).2 ⟨middle, by rw [hsplit]; exact hmiddle, rfl⟩
    obtain ⟨next, hnext, hlast, hstate⟩ := @ih
      { reader with state := middle, lineNumber := reader.lineNumber + 1 } hheader
      (fun other hother => hrecords other (mem_cons_of_mem _ hother)) h
    refine ⟨next, ?_, hlast, hstate⟩
    rw [map_cons, foldlM_cons, hline]
    exact hnext

theorem splitRecord_joinRecord (hfields : fields ≠ [])
    (h : ∀ field ∈ fields, '\t' ∉ field.toList) : splitRecord (joinRecord fields) = fields :=
  Lines.split_join h hfields

theorem tab_not_mem_toString {value : Int} (h : 0 ≤ value) : '\t' ∉ (toString value).toList := by
  intro hmem
  obtain ⟨natural, rfl⟩ := Int.eq_ofNat_of_zero_le h
  have hdigit : '\t'.isDigit = true := Lines.isDigit_of_mem_toString hmem
  exact absurd hdigit (by decide)

theorem splitRecord_upgraded (hdepth : 0 ≤ draftDepth) (hvocabulary : 0 ≤ draftVocabularySize)
    (hsome : line ≠ "") : ∀ fields ∈ upgradeRecord draftDepth draftVocabularySize (splitRecord line),
      splitRecord (joinRecord fields) = fields ∧ joinRecord fields ≠ "" := by
  have hnext : '\t' ∉ (toString (draftDepth + 1)).toList := tab_not_mem_toString (by omega)
  have hdraft := tab_not_mem_toString hdepth
  have hsize := tab_not_mem_toString hvocabulary
  unfold upgradeRecord
  intro fields hfields
  split at hfields
  · obtain rfl := mem_singleton.1 hfields
    exact ⟨by decide +kernel, by decide +kernel⟩
  · split at hfields
    · obtain rfl := mem_singleton.1 hfields
      refine ⟨splitRecord_joinRecord (cons_ne_nil _ _) ?_, Lines.join_ne_empty (by decide)⟩
      unfold newDecode
      simp only [forall_mem_cons]
      exact ⟨by decide +kernel, by decide +kernel, by decide +kernel, hnext, nofun⟩
    · split at hfields
      · unfold draftParameters at hfields
        simp only [mem_cons, not_mem_nil, or_false] at hfields
        rcases hfields with rfl | rfl | rfl | rfl
        · exact ⟨by decide +kernel, by decide +kernel⟩
        · refine ⟨splitRecord_joinRecord (cons_ne_nil _ _) ?_, Lines.join_ne_empty (by decide)⟩
          simp only [forall_mem_cons]
          exact ⟨by decide +kernel, by decide +kernel, hdraft, nofun⟩
        · refine ⟨splitRecord_joinRecord (cons_ne_nil _ _) ?_, Lines.join_ne_empty (by decide)⟩
          simp only [forall_mem_cons]
          exact ⟨by decide +kernel, by decide +kernel, hsize, nofun⟩
        · exact ⟨by decide +kernel, by decide +kernel⟩
      · obtain rfl := mem_singleton.1 hfields
        rw [joinRecord_splitRecord]
        exact ⟨rfl, hsome⟩

theorem ReadersMatch.oneLine (hnumbers : Numbers draftDepth draftVocabularySize maximum)
    (hdepth : 0 ≤ draftDepth) (hvocabulary : 0 ≤ draftVocabularySize)
    (h : ReadersMatch maximum kernelSeen decodeSeen oldReader newReader)
    (hplain : ∀ c ∈ line.toList, c ∉ boundaries) (hfields : Migratable (splitRecord line))
    (honce : kernelSeen = true → splitRecord line ≠ oldKernel)
    (hread : Reader.readLine base oldReader line = .ok oldReader') : ∃ newReader',
      (rewriteLine draftDepth draftVocabularySize line).foldlM (Reader.readLine base) newReader =
        .ok newReader' ∧
      ReadersMatch maximum (kernelSeen || splitRecord line = oldKernel)
        (decodeSeen || splitRecord line = oldDecode) oldReader' newReader' := by
  by_cases hrecord : line ≠ "" ∧ oldReader.header = true
  · obtain ⟨hsome, hheader⟩ := hrecord
    obtain ⟨state, hstate, rfl⟩ := (readLine_record hheader hsome hplain).1 hread
    obtain ⟨state', hupgraded, hmatch⟩ := h.state.record hnumbers hfields honce hstate
    obtain ⟨newReader', hnew, hnewHeader, hnewState⟩ := readLines_records (h.header.trans hheader)
      (fun fields hmem => ⟨(splitRecord_upgraded hdepth hvocabulary hsome fields hmem).1,
        (splitRecord_upgraded hdepth hvocabulary hsome fields hmem).2,
        rewriteLine_plain hdepth hvocabulary hplain _ (mem_map_of_mem hmem)⟩) hupgraded
    exact ⟨newReader', hnew, hnewHeader.trans hheader.symm, hnewState ▸ hmatch⟩
  · -- an empty line, or the header
    have hother : ¬ Rewrites line ∧ oldReader'.state = oldReader.state ∧ ∃ next,
        Reader.readLine base newReader line = .ok next ∧ next.header = oldReader'.header ∧
          next.state = newReader.state := by
      by_cases hempty : line = ""
      · subst hempty
        have hblank : ∀ reader, Reader.readLine base reader "" =
            .ok { reader with lineNumber := reader.lineNumber + 1 } := fun reader => rfl
        cases hread
        exact ⟨by unfold Rewrites; decide +kernel, rfl, _, hblank newReader, h.header, rfl⟩
      · have hbefore : oldReader.header = false :=
          Bool.eq_false_iff.2 fun hheader => hrecord ⟨hempty, hheader⟩
        unfold Reader.readLine at hread ⊢
        rw [withoutReturn_of_plain hplain, if_neg hempty] at hread ⊢
        rw [if_pos hbefore] at hread
        rw [if_pos (h.header.trans hbefore)]
        split at hread
        next hline =>
          cases hread
          rw [if_pos hline]
          refine ⟨?_, rfl, _, rfl, rfl, rfl⟩
          rw [hline]
          unfold Rewrites
          decide +kernel
        next => cases hread
    obtain ⟨hrewrites, hsame, next, hnext, hheader, hstate⟩ := hother
    have hkernel : splitRecord line ≠ oldKernel := fun hsplit =>
      hrewrites (.inl (by rw [← hsplit, joinRecord_splitRecord]))
    have hdecode : splitRecord line ≠ oldDecode := fun hsplit =>
      hrewrites (.inr (.inl (by rw [← hsplit, joinRecord_splitRecord])))
    rw [decide_eq_false hkernel, decide_eq_false hdecode, Bool.or_false, Bool.or_false]
    refine ⟨next, ?_, hheader, ?_⟩
    · rw [rewriteLine_of_other hrewrites, foldlM_cons, hnext]
      rfl
    · rw [hstate, hsame]
      exact h.state

variable {lines : List String}

theorem ReadersMatch.allLines (hnumbers : Numbers draftDepth draftVocabularySize maximum)
    (hdepth : 0 ≤ draftDepth) (hvocabulary : 0 ≤ draftVocabularySize)
    (h : ReadersMatch maximum kernelSeen decodeSeen oldReader newReader)
    (hplain : ∀ line ∈ lines, ∀ c ∈ line.toList, c ∉ boundaries)
    (hfields : ∀ line ∈ lines, Migratable (splitRecord line))
    (honce : (lines.map splitRecord).count oldKernel + (if kernelSeen then 1 else 0) ≤ 1)
    (hread : lines.foldlM (Reader.readLine base) oldReader = .ok oldReader') : ∃ newReader',
      (lines.flatMap (rewriteLine draftDepth draftVocabularySize)).foldlM (Reader.readLine base)
        newReader = .ok newReader' ∧
      ReadersMatch maximum (kernelSeen || oldKernel ∈ lines.map splitRecord)
        (decodeSeen || oldDecode ∈ lines.map splitRecord) oldReader' newReader' := by
  induction lines generalizing kernelSeen decodeSeen oldReader newReader with
  | nil =>
    cases hread
    refine ⟨newReader, rfl, ?_⟩
    rw [map_nil, decide_eq_false not_mem_nil, decide_eq_false not_mem_nil,
      Bool.or_false, Bool.or_false]
    exact h
  | cons line rest ih =>
    obtain ⟨middle, hmiddle, hread⟩ := bind_ok_iff.1 hread
    rw [map_cons, count_cons] at honce
    obtain ⟨newMiddle, hnewMiddle, hmatch⟩ := h.oneLine hnumbers hdepth hvocabulary
      (hplain line mem_cons_self) (hfields line mem_cons_self)
      (fun hseen hkernel => by
        rw [hseen, hkernel] at honce
        simp at honce) hmiddle
    obtain ⟨newReader', hnew, hlast⟩ := ih hmatch
      (fun other hother => hplain other (mem_cons_of_mem _ hother))
      (fun other hother => hfields other (mem_cons_of_mem _ hother))
      (by
        by_cases hkernel : splitRecord line = oldKernel
        · rw [hkernel] at honce
          cases kernelSeen with
          | true => simp at honce
          | false => simpa [hkernel] using honce
        · simpa [hkernel] using honce) hread
    refine ⟨newReader', ?_, ?_⟩
    · rw [flatMap_cons, foldlM_append, hnewMiddle]
      exact hnew
    · have hboth : ∀ seen (fields : Record), (seen || decide (splitRecord line = fields) ||
          decide (fields ∈ rest.map splitRecord)) =
          (seen || decide (fields ∈ (line :: rest).map splitRecord)) := by
        intro seen fields
        rw [map_cons, Bool.or_assoc, ← Bool.decide_or]
        congr 1
        refine decide_eq_decide.2 ?_
        rw [mem_cons, eq_comm]
      rw [← hboth, ← hboth]
      exact hlast

theorem parsed_of_mem (hread : lines.foldlM (Reader.readLine base) reader = .ok oldReader')
    (hplain : ∀ line ∈ lines, ∀ c ∈ line.toList, c ∉ boundaries) (hline : line ∈ lines)
    (hsome : line ≠ "") (hother : line ≠ kHeader) :
    ∃ state state' : ParseState, state.parseRecord base (splitRecord line) = some state' := by
  induction lines generalizing reader with
  | nil => cases hline
  | cons first rest ih =>
    obtain ⟨middle, hmiddle, hread⟩ := bind_ok_iff.1 hread
    rcases mem_cons.1 hline with rfl | hlater
    · have hfirst := hplain line mem_cons_self
      cases hheader : reader.header with
      | true =>
        obtain ⟨state, hstate, -⟩ := (readLine_record hheader hsome hfirst).1 hmiddle
        exact ⟨reader.state, state, hstate⟩
      | false =>
        unfold Reader.readLine at hmiddle
        rw [withoutReturn_of_plain hfirst, if_neg hsome, if_pos hheader, if_neg hother] at hmiddle
        cases hmiddle
    · exact ih hread (fun other hmem => hplain other (mem_cons_of_mem _ hmem)) hlater

end

/-! ## The programs -/

section

variable {text result : String} {contentHash : Sha256Digest} {descriptor : ModelDescriptor}

theorem migratable_of_contract {records : List Record} (h : checkContract records = .ok ()) :
    ∀ fields ∈ records, Migratable fields := by
  obtain ⟨hfresh, hparameters, -, -⟩ := checkContract_ok h
  intro fields hfields
  refine ⟨hfresh fields hfields, fun key value hsame => ?_⟩
  have hkey := hparameters key value (hsame ▸ hfields)
  have hapart : ∀ other ∈ Dict.keys migratableParameters, other ∉ newKeys := by decide
  exact hapart key hkey

theorem parseU64_toString {value : Nat} (h : value < 2 ^ 64) :
    ∃ number, parseU64 (toString value) = some number := by
  unfold parseU64
  rw [Lines.decimal?_toString h]
  exact ⟨_, rfl⟩

variable {vocabulary : String}

/-- The numbers of an accepted request are read back, when the vocabulary of the program is. -/
theorem numbers_of_request {size : UInt32} {target : Int}
    (hdepth : draftDepth = 3 ∨ draftDepth = 4) (htarget : int? vocabulary = some target)
    (hpositive : 0 < draftVocabularySize) (hbound : draftVocabularySize ≤ target)
    (hsize : parseU32 vocabulary = some size) :
    ∃ maximum, Numbers draftDepth draftVocabularySize maximum := by
  obtain ⟨wide, hwide, -⟩ := Option.bind_eq_some_iff.1 hsize
  obtain ⟨value, hvalue, -⟩ := Option.map_eq_some_iff.1 hwide
  have hsame := int?_eq hvalue htarget
  have hlimit : value < 2 ^ 64 := by
    unfold Lines.decimal? at hvalue
    split at hvalue
    next hall =>
      cases hvalue
      exact hall.2.2
    next => cases hvalue
  obtain ⟨natural, rfl⟩ := Int.eq_ofNat_of_zero_le (Int.le_of_lt hpositive)
  have hvocabulary := @parseU64_toString natural (by omega)
  rcases hdepth with rfl | rfl
  · exact ⟨4, ⟨3, by decide +kernel⟩, hvocabulary, by decide +kernel, by decide⟩
  · exact ⟨5, ⟨4, by decide +kernel⟩, hvocabulary, by decide +kernel, by decide⟩

theorem parse_ok_iff : parseModelDescriptorArtifact text contentHash base = .ok descriptor ↔
    base ≠ 0 ∧ ∃ reader, (Lines.split '\n' text).foldlM (Reader.readLine base)
        { state := { descriptor := { architectureId := "", contentHash } } } = .ok reader ∧
      (reader.header = true ∧ reader.state.model = true) ∧
      validateModelDescriptor reader.state.descriptor = .ok () ∧
      reader.state.descriptor = descriptor := by
  constructor
  · intro h
    obtain ⟨_, hbase, h⟩ := bind_ok_iff.1 h
    obtain ⟨reader, hreader, h⟩ := bind_ok_iff.1 h
    obtain ⟨_, hcomplete, h⟩ := bind_ok_iff.1 h
    obtain ⟨_, hvalid, h⟩ := bind_ok_iff.1 h
    exact ⟨require_ok_iff.1 hbase, reader, hreader, require_ok_iff.1 hcomplete, hvalid,
      pure_ok_iff.1 h⟩
  · rintro ⟨hbase, reader, hreader, hcomplete, hvalid, rfl⟩
    exact bind_ok_iff.2 ⟨(), require_ok_iff.2 hbase, bind_ok_iff.2 ⟨reader, hreader,
      bind_ok_iff.2 ⟨(), require_ok_iff.2 hcomplete, bind_ok_iff.2 ⟨(), hvalid, rfl⟩⟩⟩⟩

theorem parsed_vocabulary {lines : List String} {reader final : Runtime.Program.Reader}
    {kind schema architecture context hidden : String}
    (hread : lines.foldlM (Reader.readLine base) reader = .ok final)
    (hplain : ∀ line ∈ lines, ∀ c ∈ line.toList, c ∉ boundaries)
    (hmodel : [kind, schema, architecture, vocabulary, context, hidden] ∈
      recordsOf "model" (lines.map splitRecord)) :
    ∃ size, parseU32 vocabulary = some size := by
  obtain ⟨hmem, hkind⟩ := mem_filter.1 hmodel
  obtain ⟨line, hline, hsplit⟩ := mem_map.1 hmem
  have hkind : kind = "model" := by simpa using hkind
  subst hkind
  have hother : ∀ text, splitRecord text ≠ ["model", schema, architecture, vocabulary, context,
      hidden] → line ≠ text := by
    rintro text hne rfl
    exact hne hsplit
  obtain ⟨state, state', hparsed⟩ := parsed_of_mem hread hplain hline
    (hother _ (by rw [show splitRecord "" = [""] by decide +kernel]; simp))
    (hother _ (by rw [show splitRecord kHeader = [kHeader] by decide +kernel]; simp))
  rw [hsplit] at hparsed
  change state.parseModel [schema, architecture, vocabulary, context, hidden] = some state' at hparsed
  unfold ParseState.parseModel at hparsed
  dsimp only at hparsed
  split at hparsed
  · cases hparsed
  · obtain ⟨version, -, hparsed⟩ := Option.bind_eq_some_iff.1 hparsed
    obtain ⟨size, hsize, -⟩ := Option.bind_eq_some_iff.1 hparsed
    exact ⟨size, hsize⟩

/-- The runtime accepts the upgraded program exactly where nothing else uses the old kernel. -/
theorem upgraded_accepted_iff
    (h : upgradeText draftDepth draftVocabularySize text = .ok result) (honly : OnlyNewlines text)
    (hold : parseModelDescriptorArtifact text contentHash base = .ok descriptor) :
    (∃ upgraded, parseModelDescriptorArtifact result contentHash base = .ok upgraded) ↔
      ¬ Refers descriptor (keyOf oldRequirement) := by
  obtain ⟨hdepth, -, hmodel, hcontract, -⟩ := upgradeText_ok h
  obtain ⟨hdepthNonneg, hsizeNonneg⟩ := numbers_nonneg h
  obtain ⟨kind, schema, architecture, vocabulary, context, hidden, target, hrecords, htarget,
    hpositive, hbound⟩ := checkModel_ok hmodel
  obtain ⟨-, -, hkernel, hdecode⟩ := checkContract_ok hcontract
  obtain ⟨hresult, honlyResult⟩ := splitlines_result h
  obtain ⟨hbase, reader, hreader, hcomplete, hvalid, rfl⟩ := parse_ok_iff.1 hold
  rw [honly.split] at hreader
  have hplain : ∀ line ∈ splitlines text ++ [""], ∀ c ∈ line.toList, c ∉ boundaries := by
    intro line hline
    rcases mem_append.1 hline with hbefore | hlast
    · exact splitlines_not_boundary hbefore
    · rw [mem_singleton.1 hlast]
      exact nofun
  have hsplit : (splitlines text ++ [""]).map splitRecord =
      (splitlines text).map splitRecord ++ [[""]] := by
    rw [map_append, map_singleton, show splitRecord "" = [""] by decide +kernel]
  have hrecord : [kind, schema, architecture, vocabulary, context, hidden] ∈
      recordsOf "model" ((splitlines text ++ [""]).map splitRecord) := by
    unfold recordsOf at hrecords ⊢
    rw [hsplit, filter_append, hrecords]
    exact mem_append_left _ (mem_singleton_self _)
  obtain ⟨size, hsize⟩ := parsed_vocabulary hreader hplain hrecord
  obtain ⟨maximum, hnumbers⟩ := numbers_of_request hdepth htarget hpositive hbound hsize
  have hstart : ReadersMatch maximum false false
      { state := { descriptor := { architectureId := "", contentHash } } }
      { state := { descriptor := { architectureId := "", contentHash } } } :=
    ⟨rfl, ⟨rfl, rfl, nofun, rfl⟩⟩
  have hfields : ∀ line ∈ splitlines text ++ [""], Migratable (splitRecord line) := by
    intro line hline
    rcases mem_append.1 hline with hbefore | hlast
    · exact migratable_of_contract hcontract _ (mem_map_of_mem hbefore)
    · rw [mem_singleton.1 hlast, show splitRecord "" = [""] by decide +kernel]
      exact ⟨by decide +kernel, fun key value hsame => absurd (List.cons.inj hsame).1 (by decide)⟩
  have honce : ((splitlines text ++ [""]).map splitRecord).count oldKernel +
      (if false = true then 1 else 0) ≤ 1 := by
    rw [hsplit, count_append, hkernel, if_neg Bool.false_ne_true]
    decide +kernel
  obtain ⟨newReader, hnew, hmatch⟩ :=
    hstart.allLines hnumbers hdepthNonneg hsizeNonneg hplain hfields honce hreader
  have hseen : ∀ fields : Record, ((splitlines text).map splitRecord).count fields = 1 →
      (false || decide (fields ∈ (splitlines text ++ [""]).map splitRecord)) = true := by
    intro fields hcount
    rw [Bool.false_or, decide_eq_true_iff, hsplit]
    exact mem_append_left _ (count_pos_iff.1 (by omega))
  rw [hseen oldKernel hkernel, hseen oldDecode hdecode] at hmatch
  have hblank : rewriteLine draftDepth draftVocabularySize "" = [""] :=
    rewriteLine_of_other (by unfold Rewrites; decide +kernel)
  rw [flatMap_append, flatMap_singleton, hblank, ← hresult, ← honlyResult.split] at hnew
  obtain ⟨before, behind, hbefore, hafter⟩ := hmatch.state.kernels
  have hvalidIff := exchanged_valid_iff hvalid hbefore hafter hmatch.state.fresh
    hmatch.state.decode hnumbers.pair
  have hdescriptor : newReader.state.descriptor = exchanged reader.state.descriptor
      newReader.state.descriptor.requiredKernels newReader.state.descriptor.exactDecodeProgram :=
    congrArg ParseState.descriptor hmatch.state.state
  rw [← hvalidIff, ← hdescriptor]
  constructor
  · rintro ⟨upgraded, hupgraded⟩
    obtain ⟨-, final, hfinal, -, hvalidFinal, -⟩ := parse_ok_iff.1 hupgraded
    rw [hnew] at hfinal
    cases hfinal
    exact hvalidFinal
  · intro hvalidNew
    refine ⟨_, parse_ok_iff.2 ⟨hbase, newReader, hnew, ⟨?_, ?_⟩, hvalidNew, rfl⟩⟩
    · exact hmatch.header.trans hcomplete.1
    · exact hmatch.state.model_eq.trans hcomplete.2

/-- What the upgrade of a program claims: only its records change, the runtime accepts what it
accepted before, and there is no second upgrade. -/
structure UpgradesProgram (draftDepth draftVocabularySize : Int) (payload result : ByteArray) :
    Prop where
  frame : ∀ text, String.fromUTF8? payload = some text →
    result = (rewritten draftDepth draftVocabularySize text).toUTF8
  accepted : ∀ text upgraded, String.fromUTF8? payload = some text →
    String.fromUTF8? result = some upgraded → ∀ contentHash base,
      (∃ descriptor, parseModelDescriptorArtifact text contentHash base = .ok descriptor) →
        ∃ descriptor, parseModelDescriptorArtifact upgraded contentHash base = .ok descriptor
  again : ∀ nextDepth nextVocabularySize, ∃ what,
    upgradeDenseMtpProgramBytes nextDepth nextVocabularySize result = .error what

/-- The lines of the program end with newlines and nothing else, and nothing but its exact decode
program uses the kernel that is exchanged. -/
def Upgradable (payload : ByteArray) : Prop :=
  ∀ text, String.fromUTF8? payload = some text → OnlyNewlines text ∧
    ∀ contentHash base descriptor,
      parseModelDescriptorArtifact text contentHash base = .ok descriptor →
        ¬ Refers descriptor (keyOf oldRequirement)

theorem fromUTF8?_toUTF8 (text : String) : String.fromUTF8? text.toUTF8 = some text := by
  exact dif_pos text.isValidUTF8

theorem toUTF8_inj {left right : String} (h : left.toUTF8 = right.toUTF8) : left = right := by
  have hboth := fromUTF8?_toUTF8 left
  rw [h, fromUTF8?_toUTF8] at hboth
  exact (Option.some.inj hboth).symm

theorem upgradeBytes_of_text {text result : String}
    (h : upgradeText draftDepth draftVocabularySize text = .ok result) :
    upgradeDenseMtpProgramBytes draftDepth draftVocabularySize text.toUTF8 =
      .ok result.toUTF8 := by
  unfold upgradeDenseMtpProgramBytes
  rw [fromUTF8?_toUTF8]
  dsimp only
  rw [h]
  rfl

/-- The upgrade of a program does what it claims exactly for the upgradable programs. -/
theorem upgrades_program_iff {payload upgraded : ByteArray}
    (h : upgradeDenseMtpProgramBytes draftDepth draftVocabularySize payload = .ok upgraded) :
    UpgradesProgram draftDepth draftVocabularySize payload upgraded ↔ Upgradable payload := by
  unfold upgradeDenseMtpProgramBytes at h
  split at h
  next text htext =>
    cases hresult : upgradeText draftDepth draftVocabularySize text with
    | error what =>
      rw [hresult] at h
      cases h
    | ok result =>
      rw [hresult] at h
      cases h
      constructor
      · intro hupgrades other hother
        rw [htext] at hother
        cases hother
        have honly : OnlyNewlines text :=
          (eq_rewritten_iff hresult).1 (toUTF8_inj (hupgrades.frame text htext))
        refine ⟨honly, fun contentHash base descriptor hparsed => ?_⟩
        exact (upgraded_accepted_iff hresult honly hparsed).1
          (hupgrades.accepted text result htext (fromUTF8?_toUTF8 result) contentHash base
            ⟨descriptor, hparsed⟩)
      · intro hupgradable
        obtain ⟨honly, hunused⟩ := hupgradable text htext
        refine ⟨fun other hother => ?_, fun other final hother hfinal contentHash base hparsed => ?_,
          fun nextDepth nextVocabularySize => ?_⟩
        · rw [htext] at hother
          cases hother
          rw [(eq_rewritten_iff hresult).2 honly]
        · rw [htext] at hother
          cases hother
          rw [fromUTF8?_toUTF8] at hfinal
          cases hfinal
          obtain ⟨descriptor, hdescriptor⟩ := hparsed
          exact (upgraded_accepted_iff hresult honly hdescriptor).2
            (hunused contentHash base descriptor hdescriptor)
        · obtain ⟨what, hwhat⟩ := upgradeText_again hresult nextDepth nextVocabularySize
          refine ⟨what, ?_⟩
          unfold upgradeDenseMtpProgramBytes
          rw [fromUTF8?_toUTF8]
          dsimp only
          rw [hwhat]
          rfl
  next =>
    obtain ⟨_, _, hnone⟩ := Fallible.bind_ok.1 h
    cases hnone

end

/-- The records of a program of one layer and one operation around its exact decode program. -/
def smallRecords (kernel decode : Record) (parameters : List Record) (tensor : String) :
    List Record :=
  [["expert-runtime-model-v1"], ["model", "3", "arch", "8", "16", "4"],
    ["attribute", "mtp_layers", "1"], ["kernel", "block", "1"], kernel, decode] ++ parameters ++
  [["exact_decode_parameter", "embedding_first", "1"], ["exact_decode_parameter", "post_norm", "1"],
    ["exact_decode_tensor", "layer.0.weight", tensor],
    ["program_input", "in", "a", "x"], ["program_output", "out", "b", "x"],
    ["layer", "0", "block", "1", "-", "0"], ["operation", "0", "0", "block", "1", "-", "0"],
    ["operation_input", "0", "in", "a", "x"], ["operation_output", "0", "out", "b", "x"]]

def oldRecords (tensor : String) : List Record :=
  smallRecords oldKernel oldDecode [draftLayers] tensor

def programText (records : List Record) : String :=
  Lines.terminated '\n' (records.map joinRecord)

theorem splitlines_small (tensor : String) : splitlines (programText (oldRecords tensor)) =
    ((oldRecords tensor).map joinRecord).flatMap fun line =>
      splitlines (line ++ String.singleton '\n') :=
  splitlines_terminated (cons_ne_nil _ _)

theorem upgradeText_small : upgradeText 3 8 (programText (oldRecords "weight")) =
    .ok (programText (smallRecords newKernel (newDecode 3) (draftParameters 3 8) "weight")) := by
  have hlines : splitlines (programText (oldRecords "weight")) =
      (oldRecords "weight").map joinRecord := by
    rw [splitlines_small]
    decide +kernel
  have hrecords : (splitlines (programText (oldRecords "weight"))).map splitRecord =
      oldRecords "weight" := by
    rw [hlines]
    decide +kernel
  exact upgradeText_of_records hrecords (.inl rfl) (by rw [hlines]; decide +kernel)
    (by decide +kernel) (by decide +kernel)

theorem upgrades_small :
    UpgradesProgram 3 8 (programText (oldRecords "weight")).toUTF8
        (programText
          (smallRecords newKernel (newDecode 3) (draftParameters 3 8) "weight")).toUTF8 ↔
      Upgradable (programText (oldRecords "weight")).toUTF8 :=
  upgrades_program_iff (upgradeBytes_of_text upgradeText_small)

/-- A tensor with a character that ends a line of `splitlines` alone. -/
def brokenTensor : String := String.ofList ['w', Char.ofNat 0x85, 'x']

theorem breaks_line : ∃ result,
    upgradeDenseMtpProgramBytes 3 8 (programText (oldRecords brokenTensor)).toUTF8 = .ok result ∧
      ¬ UpgradesProgram 3 8 (programText (oldRecords brokenTensor)).toUTF8 result := by
  have hupgraded : ∃ result,
      upgradeText 3 8 (programText (oldRecords brokenTensor)) = .ok result := by
    refine ⟨_, upgradeText_of_records rfl (.inl rfl) ?_ ?_ ?_⟩
    · rw [splitlines_small]
      decide +kernel
    · rw [splitlines_small]
      decide +kernel
    · rw [splitlines_small]
      decide +kernel
  obtain ⟨result, hresult⟩ := hupgraded
  refine ⟨result.toUTF8, upgradeBytes_of_text hresult, fun hupgrades => ?_⟩
  have honly := (eq_rewritten_iff hresult).1
    (toUTF8_inj (hupgrades.frame _ (fromUTF8?_toUTF8 _)))
  have hmem : Char.ofNat 0x85 ∈ (programText (oldRecords brokenTensor)).toList := by
    unfold programText
    rw [Lines.terminated, String.toList_append]
    refine mem_append_left _ (@Lines.mem_join_of_mem _ _
      (joinRecord ["exact_decode_tensor", "layer.0.weight", brokenTensor]) _ ?_ ?_)
    · exact mem_map_of_mem (by decide +kernel)
    · decide +kernel
  exact absurd (honly.others _ hmem (by decide)) (by decide)

end QuantumLlm.ExpertPack
