import QuantumLlm.Runtime.Program.Dataflow

/-!
# The interpreter follows the data flow

Between polls the slots are the environment of the operations done so far. A
round completes one operation and hands out the next, with the inputs its names
lead to; nothing that can go wrong with an index does.
-/

namespace QuantumLlm.Runtime.Program

open List

variable {descriptor : ModelDescriptor} {providers : Providers} {environment : Environment}
  {program : CompiledModelProgram} {all before more : AvailableValues}

/-- What the interpreter relies on: ports and endpoints lead to the places of their names. -/
structure Indexed (descriptor : ModelDescriptor) (program : CompiledModelProgram) : Prop where
  operations : List.Forall₂ (fun source compiled =>
    compiled.inputValues = portsOf (definitions descriptor) source.inputBindings ∧
      compiled.outputValues = portsOf (definitions descriptor) source.outputBindings)
    descriptor.operationProgram program.operations
  values : program.values = (definitions descriptor).map fun value => ⟨value.1, value.2⟩
  inputs : program.inputs = endpointsOf (definitions descriptor) descriptor.programInputs
  outputs : program.outputs = endpointsOf (definitions descriptor) descriptor.programOutputs

/-- The definitions an entry list makes. -/
def flowOf (entries : List (String × ValueBinding)) : AvailableValues :=
  entries.map fun entry => (entry.2.value, entry.2.abi)

theorem toNat_indexOf_next {entry : String × ValueBinding} {rest : List (String × ValueBinding)}
    (hall : all = before ++ flowOf (entry :: rest) ++ more) (hnodup : (all.map Prod.fst).Nodup)
    (hfits : all.length ≤ 2 ^ 32) :
    (indexOf all entry.2).toNat = before.length ∧
      all[before.length]? = some (entry.2.value, entry.2.abi) := by
  have hget : all[before.length]? = some (entry.2.value, entry.2.abi) := by
    rw [hall, List.append_assoc, List.getElem?_append_right (Nat.le_refl _)]
    simp [flowOf]
  have hmem : (entry.2.value, entry.2.abi) ∈ all := List.mem_of_getElem? hget
  obtain ⟨hlt, hvalue⟩ := List.getElem?_eq_some_iff.1 hget
  refine ⟨?_, hget⟩
  rw [toNat_indexOf hfits hmem, ← hvalue]
  exact (hnodup.of_map _).idxOf_getElem _ _

variable {entries : List (String × ValueBinding)} {source : OperationProgramDescriptor}

theorem storeOutputs_slots (hvalues : program.values = all.map fun value => ⟨value.1, value.2⟩)
    (hnodup : (all.map Prod.fst).Nodup) (hfits : all.length ≤ 2 ^ 32)
    {outputs : List ExecutionValue}
    (hall : all = before ++ flowOf entries ++ more) (h : Names before environment)
    (houtputs : List.Forall₂ (fun entry value => value.valid = true ∧ value.abi = entry.2.abi)
      entries outputs) :
    RequestState.storeOutputs program (entries.map fun entry => ⟨entry.1, indexOf all entry.2⟩)
        outputs (slots all.length environment) =
      some (slots all.length (environment ++ named entries outputs)) ∧
      Names (before ++ flowOf entries) (environment ++ named entries outputs) := by
  induction houtputs generalizing before environment with
  | nil => simpa [RequestState.storeOutputs, named, flowOf] using h
  | @cons entry value rest others hvalue _ ih =>
    obtain ⟨hindex, hget⟩ := toNat_indexOf_next hall hnodup hfits
    have hlt : environment.length < all.length := by
      rw [h.length_eq]
      exact (List.getElem?_eq_some_iff.1 hget).1
    have hslot := getElem?_slots_next hlt
    rw [h.length_eq] at hslot
    have habi : (program.values[before.length]?).map (·.abi) = some value.abi := by
      rw [hvalues, List.getElem?_map, hget]
      simp [hvalue.2]
    have hset := set_slots hlt (entry.2.value, value)
    rw [h.length_eq] at hset
    have hnames : Names (before ++ [(entry.2.value, entry.2.abi)])
        (environment ++ [(entry.2.value, value)]) := by
      rw [Names, List.map_append, List.map_append, h]
      rfl
    have hrest := @ih (environment ++ [(entry.2.value, value)])
      (before ++ [(entry.2.value, entry.2.abi)])
      (by simpa [flowOf, List.append_assoc] using hall) hnames
    simp only [List.map_cons, RequestState.storeOutputs, hindex, hslot, hvalue.1, habi,
      and_self, if_true, hset]
    simpa [named, flowOf, List.append_assoc] using hrest

theorem placeInputs_slots (hnodup : (all.map Prod.fst).Nodup) (hfits : all.length ≤ 2 ^ 32)
    (hall : all = before ++ flowOf entries ++ more) (h : Names before environment)
    {values : List (Option ExecutionValue)}
    (hplaced : RequestState.placeInputs program inputs (slots all.length environment)
      (entries.map fun entry => ⟨entry.1, indexOf all entry.2⟩) = some values) :
    ∃ added, inputEnvironment inputs entries = some added ∧
      values = slots all.length (environment ++ added) ∧
      Names (before ++ flowOf entries) (environment ++ added) := by
  induction entries generalizing before environment with
  | nil =>
    obtain rfl : slots all.length environment = values := by
      simpa [RequestState.placeInputs] using hplaced
    exact ⟨[], rfl, by simp, by simpa [flowOf] using h⟩
  | cons entry rest ih =>
    obtain ⟨hindex, hget⟩ := toNat_indexOf_next hall hnodup hfits
    have hlt : environment.length < all.length := by
      rw [h.length_eq]
      exact (List.getElem?_eq_some_iff.1 hget).1
    have hnames (value : ExecutionValue) : Names (before ++ [(entry.2.value, entry.2.abi)])
        (environment ++ [(entry.2.value, value)]) := by
      rw [Names, List.map_append, List.map_append, h]
      rfl
    rw [List.map_cons, RequestState.placeInputs] at hplaced
    cases hfound : inputs.find? entry.1 with
    | none => simp [hfound] at hplaced
    | some value =>
      simp only [hfound] at hplaced
      split at hplaced
      next =>
        have hset := set_slots hlt (entry.2.value, value)
        rw [h.length_eq] at hset
        rw [hindex, hset] at hplaced
        obtain ⟨added, hadded, rfl, hall'⟩ :=
          ih (by simpa [flowOf, List.append_assoc] using hall) (hnames value) hplaced
        refine ⟨(entry.2.value, value) :: added, ?_, by simp, ?_⟩
        · simp [inputEnvironment, hfound, hadded]
        · simpa [flowOf, List.append_assoc] using hall'
      next => cases hplaced

theorem definitionsBefore_succ {position : Nat}
    (hsource : descriptor.operationProgram[position]? = some source) :
    definitionsBefore descriptor (position + 1) =
      definitionsBefore descriptor position ++ flowOf source.outputBindings.entries := by
  rw [definitionsBefore, take_add_one, hsource, definitionsBefore]
  simp [produced, flowOf]

theorem definitionsBefore_nodup (hvalid : Validated descriptor) (position : Nat) :
    ((definitionsBefore descriptor position).map Prod.fst).Nodup :=
  hvalid.nodup.sublist ((definitionsBefore_starts position).sublist.map _)

theorem named_names {values : List ExecutionValue} (h : Names before environment)
    (hlength : entries.length = values.length) :
    Names (before ++ flowOf entries) (environment ++ named entries values) := by
  have hnamed : (named entries values).map Prod.fst = (flowOf entries).map Prod.fst := by
    induction entries generalizing values with
    | nil => rfl
    | cons entry rest ih =>
      cases values with
      | nil => simp at hlength
      | cons value others => simpa [named, flowOf] using ih (by simpa using hlength)
  rw [Names, map_append, map_append, h, hnamed]

/-- What is known of the evaluation of the first operations. -/
structure Evaluated (descriptor : ModelDescriptor) (providers : Providers)
    (inputs : OrderedMap String ExecutionValue) (count : Nat) (flow : Dataflow) : Prop where
  reached : evaluateUpTo descriptor providers inputs count = some flow
  names : Names (definitionsBefore descriptor count) flow.environment
  trace : flow.trace.map Prod.fst = List.range count

variable {inputs : OrderedMap String ExecutionValue} {count : Nat} {flow : Dataflow}

theorem Evaluated.next (h : Evaluated descriptor providers inputs count flow)
    (hsource : descriptor.operationProgram[count]? = some source)
    (hformed : WellFormed descriptor providers) {operands : List ExecutionValue}
    (hoperands : consumed flow.environment source.inputBindings.entries = some operands) :
    Evaluated descriptor providers inputs (count + 1)
      { environment := flow.environment ++
          named source.outputBindings.entries (providers count operands).outputs
        trace := flow.trace ++ [(count, operands)] } where
  reached := by simp [evaluateUpTo, h.reached, hsource, evaluateOperation, hoperands]
  names := by
    rw [definitionsBefore_succ hsource]
    exact named_names h.names (hformed count source hsource operands).2.length_eq
  trace := by
    rw [map_append, h.trace, range_succ]
    rfl

theorem Evaluated.consumed (h : Evaluated descriptor providers inputs count flow)
    (hvalid : Validated descriptor) (hfits : (definitions descriptor).length ≤ 2 ^ 32)
    (hsource : descriptor.operationProgram[count]? = some source) : ∃ operands,
      consumed flow.environment source.inputBindings.entries = some operands ∧
        RequestState.gatherInputs (slots (definitions descriptor).length flow.environment)
          (portsOf (definitions descriptor) source.inputBindings) = some operands :=
  gatherInputs_slots h.names (definitionsBefore_nodup hvalid count)
    (definitionsBefore_starts count) hfits fun entry hentry =>
      hvalid.inputs hsource _ (mem_produced.2 ⟨entry, hentry, rfl⟩)

theorem evaluated_all (hvalid : Validated descriptor)
    (hfits : (definitions descriptor).length ≤ 2 ^ 32) (hformed : WellFormed descriptor providers)
    {start : Dataflow} (hstart : Evaluated descriptor providers inputs 0 start)
    (hcount : count ≤ descriptor.operationProgram.length) :
    ∃ flow, Evaluated descriptor providers inputs count flow := by
  induction count with
  | zero => exact ⟨start, hstart⟩
  | succ count ih =>
    obtain ⟨flow, hflow⟩ := ih (Nat.le_of_succ_le hcount)
    have hsource : descriptor.operationProgram[count]? =
        some (descriptor.operationProgram[count]) := getElem?_eq_getElem hcount
    obtain ⟨operands, hoperands, -⟩ := hflow.consumed hvalid hfits hsource
    exact ⟨_, hflow.next hsource hformed hoperands⟩

theorem trace_start {later : Nat} {flow' : Dataflow} (hle : count ≤ later)
    (h : evaluateUpTo descriptor providers inputs count = some flow)
    (h' : evaluateUpTo descriptor providers inputs later = some flow') :
    flow.trace <+: flow'.trace := by
  induction hle generalizing flow' with
  | refl =>
    obtain rfl : flow = flow' := Option.some.inj (h.symm.trans h')
    exact prefix_refl _
  | step hle ih =>
    rw [evaluateUpTo] at h'
    split at h'
    next previous operation hprevious hoperation =>
      obtain ⟨operands, hoperands, rfl⟩ := Option.map_eq_some_iff.1 h'
      exact (ih hprevious).trans (prefix_append _ _)
    next => cases h'

/-- A running state between two halves of a round. -/
structure Follows (descriptor : ModelDescriptor) (providers : Providers)
    (inputs : OrderedMap String ExecutionValue) (states : List UInt32) (state : RequestState)
    (flow : Dataflow) : Prop where
  states : state.providerStates = states
  running : state.terminal = false
  unpublished : state.cancelledResultPending = false
  evaluated : Evaluated descriptor providers inputs state.nextOperation flow
  values : state.values = slots (definitions descriptor).length flow.environment
  bounded : state.nextOperation ≤ descriptor.operationProgram.length
  idle : state.inflight = false → state.executed = flow.trace
  busy : state.inflight = true → ∃ source,
    descriptor.operationProgram[state.nextOperation]? = some source ∧
      consumed flow.environment source.inputBindings.entries = some state.currentInputs ∧
      state.executed = flow.trace ++ [(state.nextOperation, state.currentInputs)]

/-- Number of operations that have been handed to a provider. -/
def RequestState.handedOut (state : RequestState) : Nat :=
  if state.inflight then state.nextOperation + 1 else state.nextOperation

/-- The operations handed out are a beginning of the program, on the inputs that it names. -/
def Executed (descriptor : ModelDescriptor) (providers : Providers)
    (inputs : OrderedMap String ExecutionValue) (state : RequestState) : Prop :=
  ∃ count flow, Evaluated descriptor providers inputs count flow ∧
    count ≤ descriptor.operationProgram.length ∧ state.executed = flow.trace

variable {states : List UInt32} {state : RequestState} {plan : Plan} {turn : Turn}

theorem Follows.executed (h : Follows descriptor providers inputs states state flow)
    (hformed : WellFormed descriptor providers) :
    Executed descriptor providers inputs state := by
  rcases Bool.eq_false_or_eq_true state.inflight with hinflight | hinflight
  · obtain ⟨source, hsource, hoperands, hexecuted⟩ := h.busy hinflight
    exact ⟨_, _, h.evaluated.next hsource hformed hoperands,
      (List.getElem?_eq_some_iff.1 hsource).1, hexecuted⟩
  · exact ⟨_, _, h.evaluated, h.bounded, h.idle hinflight⟩

theorem Follows.complete (h : Follows descriptor providers inputs states state flow)
    (hvalid : Validated descriptor) (hindexed : Indexed descriptor plan.program)
    (hfits : (definitions descriptor).length ≤ 2 ^ 32) (hformed : WellFormed descriptor providers)
    (hinflight : state.inflight = true) : ∃ state' flow',
      state.complete plan (providers state.nextOperation state.currentInputs) = .next state' ∧
        Follows descriptor providers inputs states state' flow' ∧ state'.inflight = false ∧
        state'.nextOperation = state.nextOperation + 1 := by
  obtain ⟨source, hsource, hoperands, hexecuted⟩ := h.busy hinflight
  obtain ⟨hok, houtputs⟩ := hformed _ source hsource state.currentInputs
  have hlt : state.nextOperation < descriptor.operationProgram.length :=
    (List.getElem?_eq_some_iff.1 hsource).1
  obtain ⟨compiled, hcompiled⟩ : ∃ compiled,
      plan.program.operations[state.nextOperation]? = some compiled :=
    ⟨_, List.getElem?_eq_getElem (by rwa [← hindexed.operations.length_eq])⟩
  obtain ⟨-, hports⟩ := forall₂_getElem? hindexed.operations hsource hcompiled
  have hlength : (providers state.nextOperation state.currentInputs).outputs.length =
      compiled.outputValues.length := by
    rw [hports, portsOf, List.length_map, houtputs.length_eq]
  obtain ⟨rest, hrest⟩ := @definitionsBefore_starts descriptor (state.nextOperation + 1)
  rw [definitionsBefore_succ hsource] at hrest
  have hstored := (storeOutputs_slots hindexed.values hvalid.nodup hfits hrest.symm
    h.evaluated.names houtputs).1
  rw [← h.values] at hstored
  have hnext := h.evaluated.next hsource hformed hoperands
  refine ⟨{ state with
    inflight := false
    values := slots (definitions descriptor).length (flow.environment ++
      named source.outputBindings.entries
        (providers state.nextOperation state.currentInputs).outputs)
    currentInputs := []
    nextOperation := state.nextOperation + 1 }, _, ?_,
    ⟨h.states, h.running, h.unpublished, hnext, rfl, hlt, ?_, ?_⟩, rfl, rfl⟩
  · simp only [RequestState.complete, hok, if_true, hcompiled, hlength, ne_eq, not_true_eq_false,
      if_false]
    rw [hports, portsOf, hstored]
  · exact fun _ => hexecuted
  · exact fun hbusy => absurd hbusy (by simp)

theorem Follows.settle (h : Follows descriptor providers inputs states state flow)
    (hvalid : Validated descriptor) (hindexed : Indexed descriptor plan.program)
    (hfits : (definitions descriptor).length ≤ 2 ^ 32) (hformed : WellFormed descriptor providers)
    (round : Nat) :
    turn.expired round = true ∧ state.settle plan providers turn round =
        .returned (state.fail ⟨.deadlineExceeded, "model program execution deadline expired"⟩) ∨
      turn.ready state.nextOperation = false ∧
        state.settle plan providers turn round = .returned (state, none) ∨
      ∃ state' flow', state.settle plan providers turn round = .next state' ∧
        Follows descriptor providers inputs states state' flow' ∧ state'.inflight = false ∧
        state'.nextOperation = state.handedOut := by
  rw [RequestState.settle]
  by_cases hexpired : turn.expired round = true
  · exact .inl ⟨hexpired, by rw [if_pos hexpired]⟩
  rw [if_neg hexpired]
  refine .inr ?_
  by_cases hinflight : state.inflight = true
  · rw [if_pos hinflight]
    by_cases hready : turn.ready state.nextOperation = true
    · obtain ⟨state', flow', hcomplete, hfollows, hidle, hnext⟩ :=
        h.complete hvalid hindexed hfits hformed hinflight
      rw [if_pos hready]
      exact .inr ⟨state', flow', hcomplete, hfollows, hidle,
        by rw [hnext, RequestState.handedOut, if_pos hinflight]⟩
    · rw [if_neg hready]
      exact .inl ⟨Bool.eq_false_of_not_eq_true hready, rfl⟩
  · rw [if_neg hinflight]
    exact .inr ⟨state, flow, rfl, h, Bool.eq_false_of_not_eq_true hinflight,
      by rw [RequestState.handedOut, if_neg hinflight]⟩

section

variable (h : Follows descriptor providers inputs states state flow) (hvalid : Validated descriptor)

include h hvalid

theorem Follows.issue (hfits : (definitions descriptor).length ≤ 2 ^ 32)
    (hidle : state.inflight = false)
    (hsource : descriptor.operationProgram[state.nextOperation]? = some source)
    {instruction : CompiledOperationProgram × UInt32}
    (hports : instruction.1.inputValues = portsOf (definitions descriptor) source.inputBindings)
    (hstate : instruction.2 ∈ states) (hissued : turn.issued state.nextOperation = .handle) :
    ∃ state', state.issue turn instruction = .next state' ∧
      Follows descriptor providers inputs states state' flow ∧ state'.inflight = true ∧
      state'.nextOperation = state.nextOperation := by
  obtain ⟨operands, hoperands, hgathered⟩ := h.evaluated.consumed hvalid hfits hsource
  refine ⟨{ state with
    currentInputs := operands
    executed := state.executed ++ [(state.nextOperation, operands)]
    inflight := true }, ?_, ?_, rfl, rfl⟩
  · rw [RequestState.issue, hports, h.values, hgathered]
    simp only [h.states, hstate, if_true, hissued]
  · refine ⟨h.states, h.running, h.unpublished, h.evaluated, h.values, h.bounded, ?_, ?_⟩
    · exact fun hbusy => absurd hbusy (by simp)
    · exact fun _ => ⟨source, hsource, hoperands, by rw [← h.idle hidle]⟩

theorem Follows.conclude (hindexed : Indexed descriptor plan.program)
    (hfits : (definitions descriptor).length ≤ 2 ^ 32) (hidle : state.inflight = false)
    (hlast : state.nextOperation = descriptor.operationProgram.length) : ∃ outputs,
      evaluate descriptor providers inputs = some (outputs.entries, state.executed) ∧
        state.conclude plan =
          ({ state with currentInputs := [], values := [], terminal := true },
            some { status := Status.success, outputs }) := by
  have hevaluated := h.evaluated
  rw [hlast] at hevaluated
  have hnames : Names (definitions descriptor) flow.environment := by
    rw [definitions_eq]
    exact hevaluated.names
  obtain ⟨result, final, hnamed, hcollected, hentries⟩ := collectOutputs_slots hnames hvalid.nodup
    hfits (fun entry hentry => hvalid.outputs _ (mem_produced.2 ⟨entry, hentry, rfl⟩))
    OrderedMap.empty descriptor.programOutputs.sorted (by simp [OrderedMap.keys, OrderedMap.empty])
  obtain rfl : final.entries = result := by simpa [OrderedMap.empty] using hentries
  refine ⟨final, ?_, ?_⟩
  · rw [evaluate, hevaluated.reached]
    simp [hnamed, h.idle hidle]
  · rw [RequestState.conclude, h.values, hindexed.outputs, endpointsOf, hcollected]

end

/-- A request that has returned its result. -/
structure Stopped (descriptor : ModelDescriptor) (providers : Providers)
    (inputs : OrderedMap String ExecutionValue) (state : RequestState) : Prop where
  terminal : state.terminal = true
  unpublished : state.cancelledResultPending = false
  executed : Executed descriptor providers inputs state

/-- What a poll may return. -/
inductive Answered (descriptor : ModelDescriptor) (providers : Providers)
    (inputs : OrderedMap String ExecutionValue) (states : List UInt32) (turn : Turn) :
    PollOutcome → Prop
  | pending {state : RequestState} {flow : Dataflow} {operation : Nat} :
      Follows descriptor providers inputs states state flow → turn.ready operation = false →
      Answered descriptor providers inputs states turn (state, none)
  | expired {state : RequestState} {round : Nat} :
      Stopped descriptor providers inputs state → turn.expired round = true →
      Answered descriptor providers inputs states turn (state,
        some { status := ⟨.deadlineExceeded, "model program execution deadline expired"⟩ })
  | succeeded {state : RequestState} {outputs : OrderedMap String ExecutionValue} :
      Stopped descriptor providers inputs state →
      evaluate descriptor providers inputs = some (outputs.entries, state.executed) →
      Answered descriptor providers inputs states turn
        (state, some { status := Status.success, outputs })

/-- Instructions whose ports and providers are those of the operations of the source. -/
def Instructs (descriptor : ModelDescriptor) (states : List UInt32)
    (source : OperationProgramDescriptor) (instruction : CompiledOperationProgram × UInt32) :
    Prop :=
  instruction.1.inputValues = portsOf (definitions descriptor) source.inputBindings ∧
    instruction.2 ∈ states

section

variable (hvalid : Validated descriptor) (hindexed : Indexed descriptor plan.program)
  (hfits : (definitions descriptor).length ≤ 2 ^ 32) (hformed : WellFormed descriptor providers)
  (hissued : ∀ operation, turn.issued operation = .handle)

include hvalid hindexed hfits hformed hissued

theorem rounds_answered
    {sources : List OperationProgramDescriptor}
    {remaining : List (CompiledOperationProgram × UInt32)}
    (hremaining : List.Forall₂ (Instructs descriptor states) sources remaining)
    (h : Follows descriptor providers inputs states state flow)
    (hsources : sources = descriptor.operationProgram.drop state.handedOut) (round : Nat) :
    Answered descriptor providers inputs states turn
      (RequestState.rounds plan providers turn remaining round state) := by
  have hstopped : Stopped descriptor providers inputs
      (state.fail ⟨.deadlineExceeded, "model program execution deadline expired"⟩).1 :=
    ⟨rfl, h.unpublished, h.executed hformed⟩
  induction hremaining generalizing state flow round with
  | nil =>
    rw [RequestState.rounds]
    have hsettled := @Follows.settle _ _ _ _ _ _ _ turn h hvalid hindexed hfits hformed round
    rcases hsettled with
      ⟨hexpired, hsettle⟩ | ⟨hpending, hsettle⟩ | ⟨state', flow', hsettle, h', hidle, hnext⟩
    · rw [hsettle]
      exact .expired hstopped hexpired
    · rw [hsettle]
      exact .pending h hpending
    · have hlast : state'.nextOperation = descriptor.operationProgram.length := by
        have hdrop := drop_eq_nil_iff.1 hsources.symm
        rw [← hnext] at hdrop
        exact Nat.le_antisymm h'.bounded hdrop
      obtain ⟨outputs, hevaluate, hconclude⟩ := h'.conclude hvalid hindexed hfits hidle hlast
      rw [hsettle]
      simp only [hconclude]
      exact .succeeded ⟨rfl, h'.unpublished, h'.executed hformed⟩ hevaluate
  | @cons source instruction rest others hinstructs _ ih =>
    rw [RequestState.rounds]
    have hsettled := @Follows.settle _ _ _ _ _ _ _ turn h hvalid hindexed hfits hformed round
    rcases hsettled with
      ⟨hexpired, hsettle⟩ | ⟨hpending, hsettle⟩ | ⟨state', flow', hsettle, h', hidle, hnext⟩
    · rw [hsettle]
      exact .expired hstopped hexpired
    · rw [hsettle]
      exact .pending h hpending
    · have hlt : state'.nextOperation < descriptor.operationProgram.length := by
        rw [hnext]
        by_contra hge
        rw [drop_eq_nil_of_le (Nat.le_of_not_lt hge)] at hsources
        cases hsources
      rw [← hnext, drop_eq_getElem_cons hlt] at hsources
      obtain ⟨rfl, rfl⟩ := List.cons.inj hsources
      obtain ⟨state'', hissue, h'', hbusy, hsame⟩ := h'.issue hvalid hfits hidle
        (getElem?_eq_getElem hlt) hinstructs.1 hinstructs.2 (hissued _)
      rw [hsettle]
      simp only [hissue]
      apply ih h'' _ (round + 1) ⟨rfl, h''.unpublished, h''.executed hformed⟩
      rw [RequestState.handedOut, if_pos hbusy, hsame]

theorem poll_answered
    (hplan : List.Forall₂ (Instructs descriptor states) descriptor.operationProgram
      plan.instructions)
    (h : Follows descriptor providers inputs states state flow) :
    Answered descriptor providers inputs states turn (state.poll plan providers turn) := by
  rw [RequestState.poll, h.unpublished, h.running]
  exact rounds_answered hvalid hindexed hfits hformed hissued
    (forall₂_drop state.handedOut hplan) h rfl 0

end

theorem poll_stopped (h : Stopped descriptor providers inputs state) :
    state.poll plan providers turn = (state, none) := by
  simp [RequestState.poll, h.terminal, h.unpublished]

/-- A run of polls: still under way, or stopped with one result. -/
inductive RunAnswered (descriptor : ModelDescriptor) (providers : Providers)
    (inputs : OrderedMap String ExecutionValue) (states : List UInt32) (turns : List Turn) :
    RequestState × List ProgramExecutionResult → Prop
  | pending {state : RequestState} {flow : Dataflow} :
      Follows descriptor providers inputs states state flow →
      RunAnswered descriptor providers inputs states turns (state, [])
  | expired {state : RequestState} : Stopped descriptor providers inputs state →
      (∃ turn ∈ turns, ∃ round, turn.expired round = true) →
      RunAnswered descriptor providers inputs states turns (state,
        [{ status := ⟨.deadlineExceeded, "model program execution deadline expired"⟩ }])
  | succeeded {state : RequestState} {outputs : OrderedMap String ExecutionValue} :
      Stopped descriptor providers inputs state →
      evaluate descriptor providers inputs = some (outputs.entries, state.executed) →
      RunAnswered descriptor providers inputs states turns
        (state, [{ status := Status.success, outputs }])

theorem run_stopped (h : Stopped descriptor providers inputs state) (turns : List Turn) :
    state.run plan providers turns = (state, []) := by
  induction turns with
  | nil => rfl
  | cons turn rest ih => rw [RequestState.run, poll_stopped h, ih]; rfl

theorem run_answered (hvalid : Validated descriptor) (hindexed : Indexed descriptor plan.program)
    (hfits : (definitions descriptor).length ≤ 2 ^ 32) (hformed : WellFormed descriptor providers)
    {turns : List Turn} (hissued : ∀ turn ∈ turns, ∀ operation, turn.issued operation = .handle)
    (hplan : List.Forall₂ (Instructs descriptor states) descriptor.operationProgram
      plan.instructions)
    (h : Follows descriptor providers inputs states state flow) :
    RunAnswered descriptor providers inputs states turns (state.run plan providers turns) := by
  induction turns generalizing state flow with
  | nil => exact .pending h
  | cons turn rest ih =>
    have hanswered := poll_answered hvalid hindexed hfits hformed
      (hissued turn mem_cons_self) hplan h
    rw [RequestState.run]
    generalize hpolled : state.poll plan providers turn = outcome at hanswered
    cases hanswered with
    | pending h' _ =>
      have hrest := ih (fun other hother => hissued other (mem_cons_of_mem _ hother)) h'
      generalize RequestState.run plan providers _ rest = others at hrest ⊢
      cases hrest with
      | pending h'' => exact .pending h''
      | expired hstopped hexpired =>
        obtain ⟨other, hother, hround⟩ := hexpired
        exact .expired hstopped ⟨other, mem_cons_of_mem _ hother, hround⟩
      | succeeded hstopped hevaluate => exact .succeeded hstopped hevaluate
    | expired hstopped hexpired =>
      simp only [run_stopped hstopped]
      exact .expired hstopped ⟨turn, mem_cons_self, _, hexpired⟩
    | succeeded hstopped hevaluate =>
      simp only [run_stopped hstopped]
      exact .succeeded hstopped hevaluate

end QuantumLlm.Runtime.Program
