import QuantumLlm.Runtime.Program.Interpreter
import QuantumLlm.Runtime.Program.SingleAssignment

/-!
# The data flow a program names

What a program means without indices: an environment of named values that every
operation extends. The slots of the interpreter are this environment in the
order of the definitions.
-/

namespace QuantumLlm.Runtime.Program

open List

abbrev Environment := List (String × ExecutionValue)

/-- An environment and the operations that made it, with their inputs. -/
structure Dataflow where
  environment : Environment
  trace : List (Nat × List ExecutionValue) := []

/-- The values that bindings name. -/
def consumed (environment : Environment) : List (String × ValueBinding) →
    Option (List ExecutionValue)
  | [] => some []
  | entry :: rest =>
    match environment.lookup entry.2.value with
    | none => none
    | some value => (consumed environment rest).map (value :: ·)

/-- Values under the names of their bindings. -/
def named (entries : List (String × ValueBinding)) (values : List ExecutionValue) : Environment :=
  List.zipWith (fun entry value => (entry.2.value, value)) entries values

/-- The external inputs under their names. -/
def inputEnvironment (inputs : OrderedMap String ExecutionValue) :
    List (String × ValueBinding) → Option Environment
  | [] => some []
  | entry :: rest =>
    match inputs.find? entry.1 with
    | none => none
    | some value => (inputEnvironment inputs rest).map ((entry.2.value, value) :: ·)

def evaluateOperation (providers : Providers) (flow : Dataflow)
    (operation : OperationProgramDescriptor × Nat) : Option Dataflow :=
  (consumed flow.environment operation.1.inputBindings.entries).map fun inputs =>
    { environment := flow.environment ++
        named operation.1.outputBindings.entries (providers operation.2 inputs).outputs
      trace := flow.trace ++ [(operation.2, inputs)] }

/-- The first operations of a program, one after the other. -/
def evaluateUpTo (descriptor : ModelDescriptor) (providers : Providers)
    (inputs : OrderedMap String ExecutionValue) : Nat → Option Dataflow
  | 0 => (inputEnvironment inputs descriptor.programInputs.entries).map ({ environment := · })
  | count + 1 =>
    match evaluateUpTo descriptor providers inputs count, descriptor.operationProgram[count]? with
    | some flow, some operation => evaluateOperation providers flow (operation, count)
    | _, _ => none

def namedOutputs (environment : Environment) : List (String × ValueBinding) →
    Option (List (String × ExecutionValue))
  | [] => some []
  | entry :: rest =>
    match environment.lookup entry.2.value with
    | none => none
    | some value => (namedOutputs environment rest).map ((entry.1, value) :: ·)

/-- The external outputs by role, and the operations with their inputs. -/
def evaluate (descriptor : ModelDescriptor) (providers : Providers)
    (inputs : OrderedMap String ExecutionValue) :
    Option (List (String × ExecutionValue) × List (Nat × List ExecutionValue)) :=
  match evaluateUpTo descriptor providers inputs descriptor.operationProgram.length with
  | none => none
  | some flow =>
    (namedOutputs flow.environment descriptor.programOutputs.entries).map fun outputs =>
      (outputs, flow.trace)

/-- A result with the declared number of valid outputs and their ABIs. -/
def Declared (source : OperationProgramDescriptor) (result : OperationExecutionResult) : Prop :=
  result.status.ok = true ∧
    List.Forall₂ (fun entry value => value.valid = true ∧ value.abi = entry.2.abi)
      source.outputBindings.entries result.outputs

/-- Providers whose every result is as declared. -/
def WellFormed (descriptor : ModelDescriptor) (providers : Providers) : Prop :=
  ∀ position source, descriptor.operationProgram[position]? = some source →
    ∀ inputs, Declared source (providers position inputs)

/-- The slots of an environment, in the order of the definitions. -/
def slots (count : Nat) (environment : Environment) : List (Option ExecutionValue) :=
  environment.map (fun entry => some entry.2) ++
    List.replicate (count - environment.length) none

/-- An environment of exactly these definitions. -/
def Names (definitions : AvailableValues) (environment : Environment) : Prop :=
  environment.map Prod.fst = definitions.map Prod.fst

variable {descriptor : ModelDescriptor} {providers : Providers} {environment : Environment}
  {all before more : AvailableValues}

theorem Names.length_eq (h : Names before environment) : environment.length = before.length := by
  simpa using congrArg List.length h

variable {count : Nat} {value : String × String} {binding : ValueBinding}
  {entries : List (String × ValueBinding)}

theorem slots_nil (count : Nat) : slots count [] = List.replicate count none := by
  simp [slots]

theorem getElem?_slots_next (h : environment.length < count) :
    (slots count environment)[environment.length]? = some none := by
  rw [slots, getElem?_append_right (by simp)]
  simp only [length_map, Nat.sub_self, getElem?_replicate]
  rw [if_pos (by omega)]

theorem set_slots (h : environment.length < count) (entry : String × ExecutionValue) :
    (slots count environment).set environment.length (some entry.2) =
      slots count (environment ++ [entry]) := by
  obtain ⟨more, hmore⟩ := Nat.exists_eq_add_of_lt h
  have hcount : count - environment.length = more + 1 := by omega
  have hless : count - (environment ++ [entry]).length = more := by
    simp only [length_append, length_singleton]
    omega
  rw [slots, slots, hcount, hless, replicate_succ, set_append_right _ _ (by simp)]
  simp

theorem getElem?_slots {index : Nat} {entry : String × ExecutionValue}
    (h : environment[index]? = some entry) : (slots count environment)[index]? = some (some entry.2) := by
  have hlt : index < environment.length := (List.getElem?_eq_some_iff.1 h).1
  rw [slots, List.getElem?_append_left (by simpa using hlt), List.getElem?_map, h]
  rfl

theorem Names.lookup (h : Names before environment) (hnodup : (before.map Prod.fst).Nodup)
    (hmem : value ∈ before) : ∃ found,
      environment.lookup value.1 = some found ∧
        environment[before.idxOf value]? = some (value.1, found) := by
  have hplace : before.idxOf value < environment.length := by
    rw [h.length_eq]
    exact idxOf_lt_length_of_mem hmem
  obtain ⟨entry, hentry⟩ : ∃ entry, environment[before.idxOf value]? = some entry :=
    ⟨_, getElem?_eq_getElem hplace⟩
  have hname : entry.1 = value.1 := by
    have hnames := congrArg (fun names => names[before.idxOf value]?) h
    simp only [getElem?_map, hentry, getElem?_idxOf hmem, Option.map_some,
      Option.some.injEq] at hnames
    exact hnames
  have heq : entry = (value.1, entry.2) := Prod.ext hname rfl
  refine ⟨entry.2, ?_, by rw [hentry, ← heq]⟩
  rw [lookup_eq_some_iff_mem (by rwa [h]), ← heq]
  exact mem_of_getElem? hentry

theorem idxOf_start (hstarts : before <+: all) (hmem : value ∈ before) :
    all.idxOf value = before.idxOf value := by
  obtain ⟨rest, rfl⟩ := hstarts
  exact idxOf_append_of_mem hmem

theorem toNat_indexOf (hfits : all.length ≤ 2 ^ 32) (hmem : (binding.value, binding.abi) ∈ all) :
    (indexOf all binding).toNat = all.idxOf (binding.value, binding.abi) := by
  exact Nat.mod_eq_of_lt (lt_of_lt_of_le (idxOf_lt_length_of_mem hmem) hfits)

section

variable (h : Names before environment) (hnodup : (before.map Prod.fst).Nodup)
  (hstarts : before <+: all) (hfits : all.length ≤ 2 ^ 32)

include h hnodup hstarts hfits

theorem Names.slot
    (hmem : (binding.value, binding.abi) ∈ before) : ∃ found,
      environment.lookup binding.value = some found ∧
        (slots all.length environment)[(indexOf all binding).toNat]? = some (some found) := by
  obtain ⟨found, hlookup, hget⟩ := h.lookup hnodup hmem
  refine ⟨found, hlookup, ?_⟩
  rw [toNat_indexOf hfits (hstarts.subset hmem), idxOf_start hstarts hmem]
  exact getElem?_slots hget

theorem gatherInputs_slots
    (hmem : ∀ entry ∈ entries, (entry.2.value, entry.2.abi) ∈ before) : ∃ inputs,
      consumed environment entries = some inputs ∧
        RequestState.gatherInputs (slots all.length environment)
          (entries.map fun entry => ⟨entry.1, indexOf all entry.2⟩) = some inputs := by
  induction entries with
  | nil => exact ⟨[], rfl, rfl⟩
  | cons entry rest ih =>
    obtain ⟨inputs, hconsumed, hgathered⟩ :=
      ih fun other hother => hmem other (mem_cons_of_mem _ hother)
    obtain ⟨found, hlookup, hslot⟩ :=
      h.slot hnodup hstarts hfits (hmem entry mem_cons_self)
    refine ⟨found :: inputs, ?_, ?_⟩
    · simp [consumed, hlookup, hconsumed]
    · simp [RequestState.gatherInputs, hslot, hgathered]

end

theorem collectOutputs_slots (h : Names all environment) (hnodup : (all.map Prod.fst).Nodup)
    (hfits : all.length ≤ 2 ^ 32) (hmem : ∀ entry ∈ entries, (entry.2.value, entry.2.abi) ∈ all)
    (outputs : OrderedMap String ExecutionValue)
    (hsorted : entries.Pairwise fun left right => left.1 < right.1)
    (habove : ∀ entry ∈ entries, ∀ key ∈ outputs.keys, key < entry.1) : ∃ result final,
      namedOutputs environment entries = some result ∧
        RequestState.collectOutputs (slots all.length environment) outputs
          (entries.map fun entry => ⟨entry.1, indexOf all entry.2⟩) = some final ∧
        final.entries = outputs.entries ++ result := by
  induction entries generalizing outputs with
  | nil => exact ⟨[], outputs, rfl, rfl, by simp⟩
  | cons entry rest ih =>
    obtain ⟨found, hlookup, hslot⟩ :=
      h.slot hnodup (prefix_refl all) hfits (hmem entry mem_cons_self)
    obtain ⟨hfirst, hrest⟩ := pairwise_cons.1 hsorted
    have hadded : (outputs.emplace entry.1 found).entries =
        outputs.entries ++ [(entry.1, found)] :=
      OrderedMap.entries_emplace_last (habove entry mem_cons_self)
    have hmore : ∀ other ∈ rest, ∀ key ∈ (outputs.emplace entry.1 found).keys,
        key < other.1 := by
      intro other hother key hkey
      rw [OrderedMap.keys, hadded, map_append, mem_append] at hkey
      rcases hkey with hkey | hkey
      · exact habove other (mem_cons_of_mem _ hother) key hkey
      · obtain rfl : key = entry.1 := by simpa using hkey
        exact hfirst other hother
    obtain ⟨result, final, hnamed, hcollected, hentries⟩ :=
      ih (fun other hother => hmem other (mem_cons_of_mem _ hother))
        (outputs.emplace entry.1 found) hrest hmore
    refine ⟨(entry.1, found) :: result, final, ?_, ?_, ?_⟩
    · simp [namedOutputs, hlookup, hnamed]
    · simp [RequestState.collectOutputs, hslot, hcollected]
    · rw [hentries, hadded, append_assoc]
      rfl

end QuantumLlm.Runtime.Program
