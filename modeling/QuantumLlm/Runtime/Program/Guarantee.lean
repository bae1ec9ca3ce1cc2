import QuantumLlm.Runtime.Executor.Lifecycle
import QuantumLlm.Runtime.Program.Simulation

/-!
# Validated programs compile and run

A program that validation and the providers accept compiles to single
assignments and runs as its names say, as long as its values have 32-bit indices
of their own.
-/

namespace QuantumLlm.Runtime.Program

open Executor List

variable {descriptor : ModelDescriptor} {capabilities : List KernelCapability}
  {program : CompiledModelProgram} {plan : Plan} {providers : Providers}
  {inputs : OrderedMap String ExecutionValue}

/-- The operations handed out so far and the results so far, against the evaluation. -/
structure FollowsDataflow (descriptor : ModelDescriptor) (plan : Plan) (providers : Providers)
    (inputs : OrderedMap String ExecutionValue) (turns : List Turn)
    (outputs : List (String × ExecutionValue)) (trace : List (Nat × List ExecutionValue))
    (outcome : RequestState × List ProgramExecutionResult) : Prop where
  evaluated : evaluate descriptor providers inputs = some (outputs, trace)
  /-- The evaluation runs every operation once, in order. -/
  once : trace.map Prod.fst = List.range descriptor.operationProgram.length
  executed : outcome.1.executed <+: trace
  /-- No result yet, the deadline, or the outputs of the whole evaluation. -/
  results : outcome.2 = [] ∨
    (∃ turn ∈ turns, ∃ round, turn.expired round = true) ∧ outcome.2 =
      [{ status := ⟨.deadlineExceeded, "model program execution deadline expired"⟩ }] ∨
    ∃ final : OrderedMap String ExecutionValue, final.entries = outputs ∧
      outcome.1.executed = trace ∧ outcome.2 = [{ status := Status.success, outputs := final }]
  /-- A poll that is not late and finds every operation ready returns the outputs. -/
  progress : outcome.2 = [] → ∀ turn : Turn, (∀ round, turn.expired round = false) →
    (∀ operation, turn.ready operation = true) →
    (∀ operation, turn.issued operation = .handle) →
    ∃ final : OrderedMap String ExecutionValue, final.entries = outputs ∧
      (outcome.1.poll plan providers turn).2 = some { status := Status.success, outputs := final }

/-- Every run of every step of every session of the program, bound to any providers. -/
def RunsAsNamed (descriptor : ModelDescriptor) (program : CompiledModelProgram) : Prop :=
  ∀ kernels : List CompiledKernelBinding, kernels.length = program.kernels.length →
    ∃ plan, prepare { program with kernels } = .ok plan ∧
      ∀ providers, WellFormed descriptor providers →
      ∀ (sessionProgram : SessionProgram) (loaded : Bool) (session : SessionState),
      sessionProgram.prepared = plan.prepared →
      Reaches (SessionState.step sessionProgram) (fun _ _ => True)
        (SessionState.begun sessionProgram loaded) session →
      ∀ inputs state, RequestState.start plan session inputs = .ok state →
      ∀ turns : List Turn, (∀ turn ∈ turns, ∀ operation, turn.issued operation = .handle) →
      ∃ outputs trace, FollowsDataflow descriptor plan providers inputs turns outputs trace
        (state.run plan providers turns)

theorem Compiled.indexed (h : Compiled descriptor capabilities program)
    (kernels : List CompiledKernelBinding) : Indexed descriptor { program with kernels } where
  operations := h.operations.imp fun _ _ hfrom => ⟨hfrom.inputs, hfrom.outputs⟩
  values := h.values
  inputs := h.inputs
  outputs := h.outputs

theorem Compiled.prepare (h : Compiled descriptor capabilities program)
    (hvalid : Validated descriptor) {kernels : List CompiledKernelBinding}
    (hlength : kernels.length = program.kernels.length) : ∃ prepared,
      prepare { program with kernels } = .ok ⟨{ program with kernels }, prepared⟩ ∧
        prepared.length = program.operations.length := by
  have hprepared : ∀ entry ∈ program.operations.zipIdx, ∃ registry,
      prepareInstruction { program with kernels } entry = .ok registry ∧ True := by
    intro entry hentry
    have hget := List.mem_zipIdx_iff_getElem?.1 hentry
    have hposition : entry.2 < descriptor.operationProgram.length := by
      rw [h.operations.length_eq]
      exact (List.getElem?_eq_some_iff.1 hget).1
    have hsource := List.getElem?_eq_getElem hposition
    have hfrom := forall₂_getElem? h.operations hsource hget
    have hkernel : entry.1.kernelBinding.toNat < kernels.length := by
      rw [hlength, h.kernels_length]
      exact hfrom.bound.1
    have hlogical : entry.1.logicalOperation.toNat = entry.2 := by
      rw [hfrom.logical]
      exact hvalid.logical _ _ hsource
    refine ⟨(kernels[entry.1.kernelBinding.toNat]).providerRegistryIndex, ?_, trivial⟩
    simp only [prepareInstruction, bind_ok_iff, require_ok_iff, exists_const,
      List.getElem?_eq_getElem hkernel]
    exact ⟨hlogical, trivial⟩
  obtain ⟨prepared, hprepared, hall⟩ := compileEach_ok hprepared
  refine ⟨prepared, ?_, by simpa using hall.length_eq.symm⟩
  simp only [Program.prepare, hprepared, bind_ok_iff, Except.ok.injEq, exists_eq_left', pure_ok_iff]

variable {states : List UInt32} {state : RequestState} {flow : Dataflow}
  {width left right number count : Nat} {hfits : count ≤ 2 ^ width}

theorem forall₂_instructs {sources : List OperationProgramDescriptor}
    {operations : List CompiledOperationProgram} {prepared : List UInt32}
    (h : List.Forall₂ (CompiledFrom descriptor) sources operations)
    (hlength : prepared.length = operations.length) (hstates : ∀ index ∈ prepared, index ∈ states) :
    List.Forall₂ (Instructs descriptor states) sources (operations.zip prepared) := by
  induction h generalizing prepared with
  | nil => simp
  | cons hfirst _ ih =>
    cases prepared with
    | nil => simp at hlength
    | cons index rest =>
      refine .cons ⟨hfirst.inputs, hstates index mem_cons_self⟩ ?_
      exact ih (by simpa using hlength) fun other hother =>
        hstates other (mem_cons_of_mem _ hother)

theorem start_follows (hvalid : Validated descriptor) (hindexed : Indexed descriptor plan.program)
    (hfits : (definitions descriptor).length ≤ 2 ^ 32) {session : SessionState}
    (h : RequestState.start plan session inputs = .ok state) :
    session.closed = false ∧ state.nextOperation = 0 ∧ ∃ flow,
      Follows descriptor providers inputs session.providerStates state flow := by
  simp only [RequestState.start, bind_ok_iff, require_ok_iff] at h
  obtain ⟨_, -, hplaced⟩ := h
  split at hplaced
  next => cases hplaced
  next values hvalues =>
    split at hplaced
    next => cases hplaced
    next hopen =>
      split at hplaced
      next => cases hplaced
      next =>
        cases hplaced
        refine ⟨by simpa using hopen, rfl, ?_⟩
        have hlength : plan.program.values.length = (definitions descriptor).length := by
          rw [hindexed.values, length_map]
        have hall : definitions descriptor = [] ++ flowOf descriptor.programInputs.entries ++
            descriptor.operationProgram.flatMap fun operation =>
              produced operation.outputBindings := rfl
        rw [hindexed.inputs, endpointsOf, hlength, ← slots_nil] at hvalues
        obtain ⟨added, hadded, rfl, hnames⟩ :=
          placeInputs_slots hvalid.nodup hfits hall (show Names [] [] from rfl) hvalues
        refine ⟨{ environment := added }, rfl, rfl, rfl, ⟨?_, ?_, rfl⟩, rfl, Nat.zero_le _, ?_, ?_⟩
        · rw [evaluateUpTo, hadded]
          rfl
        · simpa [definitionsBefore, flowOf, produced] using hnames
        · exact fun _ => rfl
        · exact fun hbusy => absurd hbusy (by simp)

theorem evaluate_all (hvalid : Validated descriptor)
    (hfits : (definitions descriptor).length ≤ 2 ^ 32) (hformed : WellFormed descriptor providers)
    {start : Dataflow} (hstart : Evaluated descriptor providers inputs 0 start) :
    ∃ flow outputs, Evaluated descriptor providers inputs descriptor.operationProgram.length flow ∧
      evaluate descriptor providers inputs = some (outputs, flow.trace) := by
  obtain ⟨flow, hflow⟩ := evaluated_all hvalid hfits hformed hstart (Nat.le_refl _)
  have hnames : Names (definitions descriptor) flow.environment := by
    rw [definitions_eq]
    exact hflow.names
  obtain ⟨outputs, final, hnamed, -, -⟩ := collectOutputs_slots hnames hvalid.nodup hfits
    (fun entry hentry => hvalid.outputs _ (mem_produced.2 ⟨entry, hentry, rfl⟩))
    OrderedMap.empty descriptor.programOutputs.sorted (by simp [OrderedMap.keys, OrderedMap.empty])
  refine ⟨flow, outputs, hflow, ?_⟩
  rw [evaluate, hflow.reached]
  simp [hnamed]

theorem Executed.starts (h : Executed descriptor providers inputs state)
    (hflow : Evaluated descriptor providers inputs descriptor.operationProgram.length flow) :
    state.executed <+: flow.trace := by
  obtain ⟨count, before, hbefore, hcount, hexecuted⟩ := h
  rw [hexecuted]
  exact trace_start hcount hbefore.reached hflow.reached

theorem Answered.succeeds {turn : Turn} {outcome : PollOutcome}
    {outputs : List (String × ExecutionValue)} {trace : List (Nat × List ExecutionValue)}
    (h : Answered descriptor providers inputs states turn outcome)
    (hevaluate : evaluate descriptor providers inputs = some (outputs, trace))
    (hontime : ∀ round, turn.expired round = false)
    (hready : ∀ operation, turn.ready operation = true) :
    ∃ final : OrderedMap String ExecutionValue, final.entries = outputs ∧
      outcome.2 = some { status := Status.success, outputs := final } := by
  cases h with
  | pending _ hpending => exact absurd hpending (by simp [hready])
  | expired _ hexpired => exact absurd hexpired (by simp [hontime])
  | @succeeded state final _ hfinal =>
    rw [hevaluate, Option.some.injEq, Prod.mk.injEq] at hfinal
    exact ⟨final, hfinal.1.symm, rfl⟩

theorem run_follows (hvalid : Validated descriptor) (hindexed : Indexed descriptor plan.program)
    (hfits : (definitions descriptor).length ≤ 2 ^ 32) (hformed : WellFormed descriptor providers)
    (hplan : List.Forall₂ (Instructs descriptor states)
      descriptor.operationProgram plan.instructions)
    (h : Follows descriptor providers inputs states state flow) (hfirst : state.nextOperation = 0)
    {turns : List Turn} (hissued : ∀ turn ∈ turns, ∀ operation, turn.issued operation = .handle) :
    ∃ outputs trace, FollowsDataflow descriptor plan providers inputs turns outputs trace
      (state.run plan providers turns) := by
  have hstart := h.evaluated
  rw [hfirst] at hstart
  obtain ⟨all, outputs, hall, hevaluate⟩ := evaluate_all hvalid hfits hformed hstart
  refine ⟨outputs, all.trace, ?_⟩
  have hrun := run_answered hvalid hindexed hfits hformed hissued hplan h
  generalize state.run plan providers turns = outcome at hrun ⊢
  cases hrun with
  | pending h' =>
    refine ⟨hevaluate, hall.trace, (h'.executed hformed).starts hall, .inl rfl, ?_⟩
    intro _ turn hontime hready hhandles
    exact (poll_answered hvalid hindexed hfits hformed hhandles hplan h').succeeds hevaluate
      hontime hready
  | expired hstopped hexpired =>
    exact ⟨hevaluate, hall.trace, hstopped.executed.starts hall, .inr (.inl ⟨hexpired, rfl⟩),
      fun hnone => absurd hnone (by simp)⟩
  | @succeeded state final hstopped hfinal =>
    rw [hevaluate, Option.some.injEq, Prod.mk.injEq] at hfinal
    exact ⟨hevaluate, hall.trace, hstopped.executed.starts hall,
      .inr (.inr ⟨final, hfinal.1.symm, hfinal.2.symm, rfl⟩),
      fun hnone => absurd hnone (by simp)⟩

theorem Compiled.runsAsNamed (h : Compiled descriptor capabilities program)
    (hvalid : Validated descriptor) (hfits : (definitions descriptor).length ≤ 2 ^ 32) :
    RunsAsNamed descriptor program := by
  intro kernels hkernels
  obtain ⟨prepared, hprepare, hlength⟩ := h.prepare hvalid hkernels
  refine ⟨_, hprepare, ?_⟩
  intro providers hformed sessionProgram loaded session hprepared hreach inputs state hstart turns
    hissued
  obtain ⟨hopen, hfirst, flow, hfollows⟩ := start_follows hvalid (h.indexed kernels) hfits hstart
  have hstates := SessionState.providerStates_of_reaches hreach hopen
  have hplan : List.Forall₂ (Instructs descriptor session.providerStates)
      descriptor.operationProgram (program.operations.zip prepared) := by
    apply forall₂_instructs h.operations hlength
    intro index hindex
    rw [hstates, SessionState.begun, mem_dedup, mem_append, hprepared]
    exact .inl hindex
  exact run_follows hvalid (h.indexed kernels) hfits hformed hplan hfollows hfirst hissued

def single {V : Type} (key : String) (value : V) : OrderedMap String V :=
  ⟨[(key, value)], List.pairwise_singleton _ _⟩

/-- One operation in one layer. -/
def oneOperation (inputs : OrderedMap String ValueBinding)
    (consumed : OrderedMap String ValueBinding) : ModelDescriptor where
  schemaVersion := 3
  architectureId := "dense"
  vocabSize := 2
  maxContextTokens := 8
  hiddenSize := 1
  requiredKernels := [{ capability := "block" }]
  layerProgram := [{ blockCapability := "block" }]
  operationProgram :=
    [{ capability := "block"
       inputBindings := consumed
       outputBindings := single "hidden" ⟨"hidden", "f16"⟩ }]
  programInputs := inputs
  programOutputs := single "logits" ⟨"hidden", "f16"⟩

def blockProvider : List KernelCapability := [{ capability := "block" }]

def tokens : OrderedMap String ValueBinding := single "tokens" ⟨"tokens", "u32"⟩

/-- `width` binary digits of a number. -/
def digits : Nat → Nat → List Char
  | 0, _ => []
  | width + 1, number =>
    if number < 2 ^ width then '0' :: digits width number
    else '1' :: digits width (number - 2 ^ width)

theorem digits_lt (hlt : left < right) (hright : right < 2 ^ width) :
    digits width left < digits width right := by
  induction width generalizing left right with
  | zero => omega
  | succ width ih =>
    rw [digits, digits]
    by_cases hr : right < 2 ^ width
    · rw [if_pos hr, if_pos (by omega), cons_lt_cons_iff]
      exact .inr ⟨rfl, ih hlt hr⟩
    · rw [if_neg hr]
      by_cases hl : left < 2 ^ width
      · rw [if_pos hl, cons_lt_cons_iff]
        exact .inl (by decide)
      · rw [if_neg hl, cons_lt_cons_iff]
        exact .inr ⟨rfl, ih (by omega) (by omega)⟩

theorem digits_binary : ∀ c ∈ digits width number, c = '0' ∨ c = '1' := by
  induction width generalizing number with
  | zero => simp [digits]
  | succ width ih =>
    rw [digits]
    split
    next => simpa using fun c hc => ih c hc
    next => simpa using fun c hc => ih c hc

/-- The name of an input. -/
def label (width number : Nat) : String := String.ofList ('i' :: digits width number)

theorem label_lt (hlt : left < right) (hright : right < 2 ^ width) :
    label width left < label width right := by
  rw [String.lt_iff_toList_lt, label, label, String.toList_ofList, String.toList_ofList,
    cons_lt_cons_iff]
  exact .inr ⟨rfl, digits_lt hlt hright⟩

theorem label_valid {width number : Nat} : validAtom (label width number) = true := by
  have hchars : ∀ c ∈ 'i' :: digits width number, ¬ (c = '\t' ∨ c = '\r' ∨ c = '\n') := by
    intro c hc
    rcases mem_cons.1 hc with rfl | hc
    · decide
    · rcases digits_binary c hc with rfl | rfl <;> decide
  have hsome : label width number ≠ "" := by
    rw [label, ne_eq, String.ofList_eq_empty_iff]
    exact cons_ne_nil _ _
  rw [validAtom, label, String.toList_ofList, Bool.and_eq_true, Bool.not_eq_true']
  refine ⟨decide_eq_true hsome, any_eq_false.2 fun c hc => ?_⟩
  simpa [and_assoc] using hchars c hc

theorem label_ne : label width number ≠ "hidden" := by
  intro h
  have hchars := congrArg String.toList h
  rw [label, String.toList_ofList] at hchars
  exact absurd (List.cons.inj hchars).1 (by decide)

/-- Inputs with different names. -/
def manyInputs (width count : Nat) (hfits : count ≤ 2 ^ width) : OrderedMap String ValueBinding where
  entries := (List.range count).map fun number =>
    (label width number, ⟨label width number, "u32"⟩)
  sorted := by
    rw [List.pairwise_map]
    apply List.pairwise_lt_range.imp_of_mem
    intro left right _ hright hlt
    exact label_lt hlt (lt_of_lt_of_le (List.mem_range.1 hright) hfits)

theorem supports_oneOperation {inputs : OrderedMap String ValueBinding}
    (hsome : inputs.entries ≠ [])
    (hvalid : ∀ entry ∈ inputs.entries, validAtom entry.1 = true ∧
      validAtom entry.2.value = true ∧ validAtom entry.2.abi = true)
    (hnodup : ((produced inputs).map Prod.fst).Nodup)
    (hnew : "hidden" ∉ (produced inputs).map Prod.fst) :
    providerSupportsModel (oneOperation inputs .empty) blockProvider = .ok () := by
  have hinputs : checkInputs (oneOperation inputs .empty) = .ok (produced inputs) := by
    simp only [checkInputs, checkBindings, bind_ok_iff, checkAll_ok_iff, require_ok_iff]
    exact ⟨(), hvalid, (addAll_ok_iff (by simp)).2 ⟨by simpa [oneOperation] using hnodup, rfl⟩⟩
  have hflow : checkDataFlow (oneOperation inputs .empty) = .ok () := by
    have hlookup : (produced inputs).lookup "hidden" = none := lookup_eq_none_iff_not_mem.2 hnew
    have hfound : ((produced inputs) ++ [("hidden", "f16")]).lookup "hidden" = some "f16" := by
      rw [lookup_append, hlookup]
      rfl
    simp only [checkDataFlow, bind_ok_iff, require_ok_iff]
    refine ⟨(), ?_, produced inputs, hinputs, produced inputs ++ [("hidden", "f16")], ?_, ?_⟩
    · simp [oneOperation, hsome, single]
    · have hadded : addAll "schema v3 operation output has multiple producers" (produced inputs)
          [("hidden", "f16")] = .ok (produced inputs ++ [("hidden", "f16")]) := by
        simp only [addAll, bind_ok_iff, require_ok_iff]
        exact ⟨(), hlookup, trivial⟩
      simp only [oneOperation, checkFlows, checkFlow, bind_ok_iff, require_ok_iff]
      exact ⟨_, ⟨(), by simp [single], (), rfl, hadded⟩, rfl⟩
    · simp [oneOperation, single, hfound]
      decide
  simp only [providerSupportsModel, bind_ok_iff]
  refine ⟨(), ?_, rfl⟩
  simp only [validateModelDescriptor, bind_ok_iff]
  refine ⟨(), rfl, (), rfl, (), rfl, [("block", 1)], rfl, (), rfl, (), rfl, [0], rfl, (), rfl, (), rfl, ?_⟩
  exact hflow


theorem produced_manyInputs :
    produced (manyInputs width count hfits) =
      (List.range count).map fun number => (label width number, "u32") := by
  rw [produced, manyInputs, map_map]
  rfl

theorem label_injective (hleft : left < 2 ^ width)
    (hright : right < 2 ^ width) (heq : label width left = label width right) : left = right := by
  rcases Nat.lt_trichotomy left right with hlt | hsame | hlt
  · exact absurd heq (label_lt hlt hright).ne
  · exact hsame
  · exact absurd heq.symm (label_lt hlt hleft).ne

theorem supports_manyInputs (hfits : count ≤ 2 ^ width) (hpos : 0 < count) :
    providerSupportsModel (oneOperation (manyInputs width count hfits) .empty) blockProvider =
      .ok () := by
  have hnames : (produced (manyInputs width count hfits)).map Prod.fst =
      (List.range count).map (label width) := by
    rw [produced_manyInputs, map_map]
    rfl
  apply supports_oneOperation
  · intro hnil
    have hlength := congrArg List.length hnil
    rw [manyInputs, length_map, length_range, length_nil] at hlength
    omega
  · intro entry hentry
    obtain ⟨number, -, rfl⟩ := mem_map.1 hentry
    exact ⟨label_valid, label_valid, (by decide : validAtom "u32" = true)⟩
  · rw [hnames]
    refine List.Nodup.map_on ?_ nodup_range
    intro left hleft right hright heq
    exact label_injective (lt_of_lt_of_le (mem_range.1 hleft) hfits)
      (lt_of_lt_of_le (mem_range.1 hright) hfits) heq
  · rw [hnames]
    intro hmem
    obtain ⟨number, -, hlabel⟩ := mem_map.1 hmem
    exact label_ne hlabel

theorem not_ssa_manyInputs (hlong : 2 ^ 32 < count) (hprogram : compileModelProgram
      (oneOperation (manyInputs width count hfits) .empty) blockProvider = .ok program) :
    ¬ Ssa (oneOperation (manyInputs width count hfits) .empty) blockProvider program := by
  intro hssa
  have hsupports := supports_manyInputs hfits (Nat.zero_lt_of_lt hlong)
  have hschema : (oneOperation (manyInputs width count hfits) .empty).schemaVersion ≥ 3 :=
    UInt32.le_refl _
  have hvalid := validated_of_ok (validateModelDescriptor_of_supports hsupports) hschema
  obtain ⟨compiled, hcompiled, h⟩ := compileModelProgram_ok hschema hsupports
  rw [hcompiled] at hprogram
  cases hprogram
  have hshort := h.fits_of_once hvalid hssa.once
  have hlength : (produced (oneOperation (manyInputs width count hfits) .empty).programInputs).length =
      count := by
    rw [oneOperation, produced_manyInputs, length_map, length_range]
  rw [definitions, length_append] at hshort
  omega

/-- One input more than there are indices. -/
def tooManyInputs : OrderedMap String ValueBinding :=
  manyInputs 33 (2 ^ 32 + 1) (by decide)

end QuantumLlm.Runtime.Program
