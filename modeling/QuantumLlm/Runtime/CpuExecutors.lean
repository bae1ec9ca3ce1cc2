import QuantumLlm.Runtime.Record.Validation

/-!
# The indices of the CPU executors

Both CPU executors check a batch of work groups and then run two loops over the sections of
each group's record, which index without a further test. A batch is modelled by its outcome:
an undefined operation, a refusal, or the indices that the loops use.
-/

namespace QuantumLlm.Runtime.Cpu

open List

def kBlockColumns : Nat := 32
def kMaximumRowsPerExpert : Nat := 32

/-- One expert in INT8, and the selections that routed to it. -/
structure ExpertWorkGroup where
  recordBytes : ByteSpan
  sections : ExpertSections
  selections : List UInt32
  outputSlots : List UInt32

/-- One expert in FP4, and the selections that routed to it. -/
structure Fp4HostWorkGroup where
  recordBytes : ByteSpan
  sections : SplitExpertSections
  hidden : UInt32
  intermediate : UInt32
  selections : List UInt32
  outputSlots : List UInt32

/-- A use of an index: in a section of a record, whose elements are `width` bytes wide, in the
inputs, or in the outputs. -/
inductive Access where
  | load (record : ByteSpan) (offset bytes : UInt64) (width index : Nat)
  | input (index : Nat)
  | output (slot hidden : UInt32) (index : Nat)

/-- The element lies inside the section and the section inside the record, or the value inside
the inputs, or inside the outputs and its slot. -/
def Access.Inside (inputs outputs : Nat) : Access → Prop
  | .load record offset bytes width index =>
    width * (index + 1) ≤ bytes.toNat ∧ offset.toNat + bytes.toNat ≤ record.bytes.length
  | .input index => index < inputs
  | .output slot hidden index => index < outputs ∧
      slot.toNat * hidden.toNat ≤ index ∧ index < (slot.toNat + 1) * hidden.toNat

/-- What a batch comes to: where the loops run, the slots that they fill and all their
accesses. -/
inductive Outcome where
  | undefined
  | returned (status : Status)
  | ran (slots : List UInt32) (accesses : List Access)

def Outcome.Safe (inputs outputs : Nat) : Outcome → Prop
  | .undefined => False
  | .returned status => status.code = .invalidArgument
  | .ran slots accesses => slots.Nodup ∧ ∀ access ∈ accesses, access.Inside inputs outputs

def invalid (message : String) : Status := ⟨.invalidArgument, message⟩

/-- The lambda `within` of both validators. -/
def within (record : ByteSpan) (offset bytes : UInt64) : Prop :=
  offset.toNat ≤ record.bytes.length ∧ bytes.toNat ≤ record.bytes.length - offset.toNat

instance (record : ByteSpan) (offset bytes : UInt64) : Decidable (within record offset bytes) :=
  inferInstanceAs (Decidable (_ ∧ _))

/-- `validate_group` for INT8. The products of two 32-bit sizes are 64 bits wide, but that of
the rows and `top_k` is not. -/
def ExpertWorkGroup.validate (group : ExpertWorkGroup) (rows topK : UInt32)
    (inputValues outputValues : Nat) : Status :=
  let s := group.sections
  if group.recordBytes.bytes = [] ∨ group.selections = [] ∨ s.hidden = 0 ∨ s.intermediate = 0 ∨
      s.hidden.toNat % 8 ≠ 0 ∨ s.intermediate.toNat % 8 ≠ 0 ∨
      kMaximumRowsPerExpert < group.selections.length ∨
      group.outputSlots.length ≠ group.selections.length ∨
      inputValues < rows.toNat * s.hidden.toNat ∨ outputValues < s.hidden.toNat ∨
      outputValues % s.hidden.toNat ≠ 0 then invalid "invalid CPU expert work group"
  else if ¬ (within group.recordBytes s.gateUpQOffset s.gateUpQBytes ∧
      within group.recordBytes s.gateUpScaleOffset s.gateUpScaleBytes ∧
      within group.recordBytes s.downQOffset s.downQBytes ∧
      within group.recordBytes s.downScaleOffset s.downScaleBytes) then
    invalid "CPU expert section exceeds record"
  else if ∃ selection ∈ group.selections, rows * topK ≤ selection then
    invalid "CPU expert selection exceeds microbatch"
  else if ∃ slot ∈ group.outputSlots, outputValues / s.hidden.toNat ≤ slot.toNat then
    invalid "CPU expert compact output slot exceeds output"
  else .success

/-- `validate_group` for FP4, which compares the sections with the geometry. -/
def Fp4HostWorkGroup.validate (group : Fp4HostWorkGroup) (rows topK : UInt32)
    (inputValues outputValues : Nat) : Status :=
  let s := group.sections
  let hidden := group.hidden.toNat
  let intermediate := group.intermediate.toNat
  if group.recordBytes.bytes = [] ∨ group.selections = [] ∨ group.hidden = 0 ∨
      group.intermediate = 0 ∨ hidden % kBlockColumns ≠ 0 ∨ intermediate % kBlockColumns ≠ 0 ∨
      rows.toNat * topK.toNat < group.selections.length ∨
      group.outputSlots.length ≠ group.selections.length ∨ inputValues < rows.toNat * hidden ∨
      outputValues < hidden ∨ outputValues % hidden ≠ 0 then invalid "invalid FP4 host work group"
  else if s.w1WeightBytes.toNat ≠ intermediate * hidden / 2 ∨
      s.w3WeightBytes.toNat ≠ intermediate * hidden / 2 ∨
      s.w2WeightBytes.toNat ≠ hidden * intermediate / 2 ∨
      s.w1ScaleBytes.toNat ≠ intermediate * hidden / kBlockColumns ∨
      s.w3ScaleBytes.toNat ≠ intermediate * hidden / kBlockColumns ∨
      s.w2ScaleBytes.toNat ≠ hidden * intermediate / kBlockColumns then
    invalid "FP4 host section geometry mismatch"
  else if ¬ (within group.recordBytes s.w1WeightOffset s.w1WeightBytes ∧
      within group.recordBytes s.w1ScaleOffset s.w1ScaleBytes ∧
      within group.recordBytes s.w3WeightOffset s.w3WeightBytes ∧
      within group.recordBytes s.w3ScaleOffset s.w3ScaleBytes ∧
      within group.recordBytes s.w2WeightOffset s.w2WeightBytes ∧
      within group.recordBytes s.w2ScaleOffset s.w2ScaleBytes) then
    invalid "FP4 host section exceeds record"
  else if ∃ selection ∈ group.selections, rows * topK ≤ selection then
    invalid "FP4 host selection exceeds microbatch"
  else if ∃ slot ∈ group.outputSlots, outputValues / hidden ≤ slot.toNat then
    invalid "FP4 host output slot exceeds output"
  else .success

/-- One group's claims on the output slots; `none` for a slot that is claimed already. -/
def claim (claimed : List Bool) : List UInt32 → Option (List Bool)
  | [] => some claimed
  | slot :: rest =>
    if claimed.getD slot.toNat false then none else claim (claimed.set slot.toNat true) rest

/-- The loop over the groups in both `execute`s. -/
def admitAll {Group : Type} (agrees : Group → Bool) (disagree duplicate : String)
    (validate : Group → Status) (slots : Group → List UInt32) (claimed : List Bool) :
    List Group → Status
  | [] => .success
  | group :: rest =>
    if agrees group = false then invalid disagree
    else if (validate group).ok = false then validate group
    else match claim claimed (slots group) with
      | none => invalid duplicate
      | some claimed => admitAll agrees disagree duplicate validate slots claimed rest

/-- Some elements of a section, one behind the other. -/
def loads (record : ByteSpan) (offset bytes : UInt64) (width first count : Nat) : List Access :=
  (List.range count).map fun index => .load record offset bytes width (first + index)

/-- The input row of a selection. -/
def inputRow (topK hidden selection : UInt32) : List Access :=
  (List.range hidden.toNat).map fun column =>
    .input ((selection / topK).toNat * hidden.toNat + column)

/-- `packed_dot`: the scales of one row's blocks, and 16 bytes of weights for each block. -/
def packedDot (record : ByteSpan) (weightOffset weightBytes scaleOffset scaleBytes : UInt64)
    (row columns : Nat) : List Access :=
  let blocks := columns / kBlockColumns
  loads record scaleOffset scaleBytes 1 (row * blocks) blocks ++
    loads record weightOffset weightBytes 1 (row * (columns / 2)) (blocks * 16)

namespace Fp4HostWorkGroup

variable (group : Fp4HostWorkGroup)

/-- `run_gate` for all outputs; the quantized inputs lie as the inputs do. -/
def runGate (topK : UInt32) : List Access :=
  let s := group.sections
  (List.range group.intermediate.toNat).flatMap fun output =>
    group.selections.flatMap fun selection =>
      packedDot group.recordBytes s.w1WeightOffset s.w1WeightBytes s.w1ScaleOffset s.w1ScaleBytes
          output group.hidden.toNat ++
        packedDot group.recordBytes s.w3WeightOffset s.w3WeightBytes s.w3ScaleOffset
          s.w3ScaleBytes output group.hidden.toNat ++
        inputRow topK group.hidden selection

/-- `run_down` for all outputs. -/
def runDown : List Access :=
  let s := group.sections
  (List.range group.hidden.toNat).flatMap fun output =>
    (group.selections.zip group.outputSlots).flatMap fun selected =>
      .output selected.2 group.hidden (selected.2.toNat * group.hidden.toNat + output) ::
        packedDot group.recordBytes s.w2WeightOffset s.w2WeightBytes s.w2ScaleOffset
          s.w2ScaleBytes output group.intermediate.toNat

end Fp4HostWorkGroup

/-- `Fp4HostExecutor::execute`, with the quantization of all input rows. -/
def Fp4HostExecutor.execute (groups : List Fp4HostWorkGroup) (inputs : Nat) (rows topK : UInt32)
    (outputs : Nat) : Outcome :=
  match groups with
  | [] => .ran [] []
  | front :: _ =>
    if rows = 0 ∨ topK = 0 ∨ inputs = 0 ∨ outputs = 0 then
      .returned (invalid "invalid FP4 host batch")
    -- the size of `claimed` is computed before the first group is validated
    else if front.hidden = 0 then .undefined
    else
      let status := admitAll
        (fun group => group.hidden = front.hidden ∧ group.intermediate = front.intermediate)
        "FP4 host groups disagree on geometry" "duplicate FP4 host output slot"
        (·.validate rows topK inputs outputs) (·.outputSlots)
        (List.replicate (outputs / front.hidden.toNat) false) groups
      if status.ok = false then .returned status
      else .ran (groups.flatMap (·.outputSlots))
        ((List.range (rows.toNat * front.hidden.toNat)).map .input ++
          groups.flatMap fun group => group.runGate topK ++ group.runDown)

namespace ExpertWorkGroup

variable (group : ExpertWorkGroup)

/-- `run_gate_range` for all outputs; the row of the up projection is a 32-bit sum. -/
def runGateRange (topK : UInt32) : List Access :=
  let s := group.sections
  let hidden := s.hidden.toNat
  let weights := loads group.recordBytes s.gateUpQOffset s.gateUpQBytes 1
  let scales := loads group.recordBytes s.gateUpScaleOffset s.gateUpScaleBytes 4
  (List.range s.intermediate.toNat).flatMap fun output =>
    let up := (s.intermediate + UInt32.ofNat output).toNat
    weights (output * hidden) hidden ++ weights (up * hidden) hidden ++ scales output 1 ++
      scales up 1 ++ group.selections.flatMap (inputRow topK s.hidden)

/-- `run_down_range` for all outputs. -/
def runDownRange : List Access :=
  let s := group.sections
  let intermediate := s.intermediate.toNat
  (List.range s.hidden.toNat).flatMap fun output =>
    loads group.recordBytes s.downQOffset s.downQBytes 1 (output * intermediate) intermediate ++
      loads group.recordBytes s.downScaleOffset s.downScaleBytes 4 output 1 ++
      (group.selections.zip group.outputSlots).map fun selected =>
        .output selected.2 s.hidden (selected.2.toNat * s.hidden.toNat + output)

end ExpertWorkGroup

/-- `ExpertExecutor::execute` -/
def ExpertExecutor.execute (groups : List ExpertWorkGroup) (inputs : Nat) (rows topK : UInt32)
    (outputs : Nat) : Outcome :=
  match groups with
  | [] => .ran [] []
  | front :: _ =>
    if rows = 0 ∨ topK = 0 ∨ inputs = 0 ∨ outputs = 0 then
      .returned (invalid "invalid CPU expert batch")
    else if front.sections.hidden = 0 then
      .returned (invalid "CPU expert group has zero hidden size")
    else
      let status := admitAll (fun group => group.sections.hidden = front.sections.hidden)
        "CPU expert groups disagree on hidden size" "duplicate CPU expert compact output slot"
        (·.validate rows topK inputs outputs) (·.outputSlots)
        (List.replicate (outputs / front.sections.hidden.toNat) false) groups
      if status.ok = false then .returned status
      else .ran (groups.flatMap (·.outputSlots))
        (groups.flatMap fun group => group.runGateRange topK ++ group.runDownRange)

/-! ## Admission -/

section

variable {claimed : List Bool} {slots taken : List UInt32}

/-- The marks are those of the slots taken so far. -/
def Marks (claimed : List Bool) (taken : List UInt32) : Prop :=
  ∀ slot : UInt32, slot.toNat < claimed.length →
    (claimed.getD slot.toNat false = true ↔ slot ∈ taken)

theorem Marks.set (h : Marks claimed taken) (slot : UInt32) :
    Marks (claimed.set slot.toNat true) (taken ++ [slot]) := by
  intro other hother
  rw [length_set] at hother
  have hold := h other hother
  rw [getD_eq_getElem?_getD] at hold ⊢
  rw [getElem?_set, mem_append, mem_singleton]
  by_cases hsame : slot = other
  · subst hsame
    simp [hother]
  · have hindex : slot.toNat ≠ other.toNat := fun h => hsame (UInt32.toNat_inj.1 h)
    rw [if_neg hindex, hold]
    simp [Ne.symm hsame]

theorem claim_spec (h : Marks claimed taken) (hslots : ∀ slot ∈ slots, slot.toNat < claimed.length)
    (hnodup : taken.Nodup) :
    match claim claimed slots with
    | some claimed' => (taken ++ slots).Nodup ∧ Marks claimed' (taken ++ slots) ∧
        claimed'.length = claimed.length
    | none => ¬ (taken ++ slots).Nodup := by
  induction slots generalizing claimed taken with
  | nil => simpa [claim] using ⟨hnodup, h⟩
  | cons slot rest ih =>
    obtain ⟨hslot, hrest⟩ := forall_mem_cons.1 hslots
    unfold claim
    by_cases hmarked : claimed.getD slot.toNat false = true
    · have htaken := (h slot hslot).1 hmarked
      rw [if_pos hmarked]
      intro hboth
      exact (nodup_append.1 hboth).2.2 slot htaken slot mem_cons_self rfl
    · have hfree : slot ∉ taken := fun hmem => hmarked ((h slot hslot).2 hmem)
      have hnext : (taken ++ [slot]).Nodup :=
        hnodup.append (nodup_singleton slot) (by simpa using hfree)
      rw [if_neg hmarked, append_cons]
      simpa using ih (h.set slot) (by simpa using hrest) hnext

variable {Group : Type} {agrees : Group → Bool} {disagree duplicate : String}
  {validate : Group → Status} {slotsOf : Group → List UInt32} {groups : List Group}

theorem admitAll_ok_iff (h : Marks claimed taken) (hnodup : taken.Nodup)
    (hslots : ∀ group, agrees group = true → (validate group).ok = true →
      ∀ slot ∈ slotsOf group, slot.toNat < claimed.length) :
    (admitAll agrees disagree duplicate validate slotsOf claimed groups).ok = true ↔
      (∀ group ∈ groups, agrees group = true ∧ (validate group).ok = true) ∧
        (taken ++ groups.flatMap slotsOf).Nodup := by
  induction groups generalizing claimed taken with
  | nil => simpa [admitAll, Status.ok, Status.success] using hnodup
  | cons group rest ih =>
    unfold admitAll
    rw [forall_mem_cons, flatMap_cons, ← append_assoc]
    cases hagrees : agrees group with
    | false => simp [invalid, Status.ok]
    | true =>
      cases hvalid : (validate group).ok with
      | false => simp [hvalid]
      | true =>
        have hclaim := claim_spec h (hslots group hagrees hvalid) hnodup
        cases hfound : claim claimed (slotsOf group) with
        | none =>
          rw [hfound] at hclaim
          simp only [invalid, Status.ok, Bool.true_eq_false, if_false, true_and]
          refine iff_of_false (by decide) fun hboth => hclaim ?_
          exact hboth.2.of_append_left
        | some claimed' =>
          rw [hfound] at hclaim
          obtain ⟨hnext, hmarks, hlength⟩ := hclaim
          simpa using ih hmarks hnext (by simpa [hlength] using hslots)

/-- A refusal is an invalid argument. -/
def Refuses (status : Status) : Prop := status.ok = false → status.code = .invalidArgument

theorem admitAll_refuses (h : ∀ group, Refuses (validate group)) :
    Refuses (admitAll agrees disagree duplicate validate slotsOf claimed groups) := by
  induction groups generalizing claimed with
  | nil => exact fun h => nomatch h
  | cons group rest ih =>
    unfold admitAll
    split
    · exact fun _ => rfl
    · split
      · exact h group
      · split
        · exact fun _ => rfl
        · exact ih

end

/-! ## What a valid group says -/

/-- What both validators check of the rows that a group selects and fills. -/
structure Fills (rows topK hidden : UInt32) (inputs outputs : Nat)
    (selections slots : List UInt32) : Prop where
  some_selected : selections ≠ []
  length : slots.length = selections.length
  hidden_ne : hidden ≠ 0
  inputs_le : rows.toNat * hidden.toNat ≤ inputs
  selected : ∀ selection ∈ selections, selection < rows * topK
  filled : ∀ slot ∈ slots, slot.toNat < outputs / hidden.toNat

theorem validate_refuses (group : ExpertWorkGroup) (rows topK : UInt32) (inputs outputs : Nat) :
    Refuses (group.validate rows topK inputs outputs) := by
  unfold ExpertWorkGroup.validate Refuses
  dsimp only
  split_ifs <;> simp [invalid, Status.success, Status.ok]

theorem validate_fp4_refuses (group : Fp4HostWorkGroup) (rows topK : UInt32)
    (inputs outputs : Nat) : Refuses (group.validate rows topK inputs outputs) := by
  unfold Fp4HostWorkGroup.validate Refuses
  dsimp only
  split_ifs <;> simp [invalid, Status.success, Status.ok]

variable {rows topK : UInt32} {inputs outputs : Nat}

/-- What the INT8 validator checks beyond the rows. -/
structure ExpertWorkGroup.Checked (group : ExpertWorkGroup) (rows topK : UInt32)
    (inputs outputs : Nat) : Prop where
  fills : Fills rows topK group.sections.hidden inputs outputs group.selections group.outputSlots
  intermediate_ne : group.sections.intermediate ≠ 0
  gateUpQ : within group.recordBytes group.sections.gateUpQOffset group.sections.gateUpQBytes
  gateUpScale :
    within group.recordBytes group.sections.gateUpScaleOffset group.sections.gateUpScaleBytes
  downQ : within group.recordBytes group.sections.downQOffset group.sections.downQBytes
  downScale : within group.recordBytes group.sections.downScaleOffset group.sections.downScaleBytes

theorem ExpertWorkGroup.checked {group : ExpertWorkGroup}
    (h : (group.validate rows topK inputs outputs).ok = true) :
    group.Checked rows topK inputs outputs := by
  unfold ExpertWorkGroup.validate at h
  dsimp only at h
  split_ifs at h with hgroup hwithin hselections hslots <;>
    simp only [invalid, Status.ok, decide_eq_true_eq, reduceCtorEq] at h
  push Not at hgroup hselections hslots
  obtain ⟨-, hsome, hhidden, hintermediate, -, -, -, hlength, hinputs, -⟩ := hgroup
  obtain ⟨hgateUpQ, hgateUpScale, hdownQ, hdownScale⟩ := hwithin
  exact ⟨⟨hsome, hlength, hhidden, hinputs,
    fun selection hmem => UInt32.not_le.1 (hselections selection hmem), hslots⟩, hintermediate, hgateUpQ,
    hgateUpScale, hdownQ, hdownScale⟩

/-- The weights and scales of a matrix of `height` by `width`, inside the record. -/
structure Holds (record : ByteSpan) (weightOffset weightBytes scaleOffset scaleBytes : UInt64)
    (height width : Nat) : Prop where
  weightBytes_eq : weightBytes.toNat = height * width / 2
  scaleBytes_eq : scaleBytes.toNat = height * width / kBlockColumns
  weights : within record weightOffset weightBytes
  scales : within record scaleOffset scaleBytes
  blocks : width % kBlockColumns = 0

structure Fp4HostWorkGroup.Checked (group : Fp4HostWorkGroup) (rows topK : UInt32)
    (inputs outputs : Nat) : Prop where
  fills : Fills rows topK group.hidden inputs outputs group.selections group.outputSlots
  intermediate_ne : group.intermediate ≠ 0
  w1 : Holds group.recordBytes group.sections.w1WeightOffset group.sections.w1WeightBytes
    group.sections.w1ScaleOffset group.sections.w1ScaleBytes group.intermediate.toNat
    group.hidden.toNat
  w3 : Holds group.recordBytes group.sections.w3WeightOffset group.sections.w3WeightBytes
    group.sections.w3ScaleOffset group.sections.w3ScaleBytes group.intermediate.toNat
    group.hidden.toNat
  w2 : Holds group.recordBytes group.sections.w2WeightOffset group.sections.w2WeightBytes
    group.sections.w2ScaleOffset group.sections.w2ScaleBytes group.hidden.toNat
    group.intermediate.toNat

theorem Fp4HostWorkGroup.checked {group : Fp4HostWorkGroup}
    (h : (group.validate rows topK inputs outputs).ok = true) :
    group.Checked rows topK inputs outputs := by
  unfold Fp4HostWorkGroup.validate at h
  dsimp only at h
  split_ifs at h with hgroup hgeometry hwithin hselections hslots <;>
    simp only [invalid, Status.ok, decide_eq_true_eq, reduceCtorEq] at h
  push Not at hgroup hgeometry hselections hslots
  obtain ⟨-, hsome, hhidden, hintermediate, hblocks, hblocks', -, hlength, hinputs, -⟩ := hgroup
  obtain ⟨hw1, hw3, hw2, hs1, hs3, hs2⟩ := hgeometry
  obtain ⟨hwithin1, hscales1, hwithin3, hscales3, hwithin2, hscales2⟩ := hwithin
  exact ⟨⟨hsome, hlength, hhidden, hinputs,
    fun selection hmem => UInt32.not_le.1 (hselections selection hmem), hslots⟩, hintermediate,
    ⟨hw1, hs1, hwithin1, hscales1, hblocks⟩, ⟨hw3, hs3, hwithin3, hscales3, hblocks⟩,
    ⟨hw2, hs2, hwithin2, hscales2, hblocks'⟩⟩

/-! ## The indices -/

theorem row_end_le {row height : Nat} (h : row < height) (width : Nat) :
    row * width + width ≤ height * width := by
  rw [← Nat.succ_mul]
  exact Nat.mul_le_mul_right width h

theorem loads_inside_iff {record : ByteSpan} {offset bytes : UInt64} {width first count : Nat}
    (h : within record offset bytes) (hcount : 0 < count) :
    (∀ access ∈ loads record offset bytes width first count, access.Inside inputs outputs) ↔
      width * (first + count) ≤ bytes.toNat := by
  obtain ⟨hoffset, hbytes⟩ := h
  unfold loads
  rw [forall_mem_map]
  simp only [mem_range, Access.Inside]
  constructor
  · intro hall
    have hlast := (hall (count - 1) (by omega)).1
    rwa [Nat.add_assoc, Nat.sub_add_cancel hcount] at hlast
  · intro hend index hindex
    refine ⟨(Nat.mul_le_mul_left width ?_).trans hend, by omega⟩
    omega

section

variable {hidden : UInt32} {selections slots : List UInt32}
  (h : Fills rows topK hidden inputs outputs selections slots)

include h

theorem Fills.input {selection : UInt32} (hselection : selection ∈ selections) :
    ∀ access ∈ inputRow topK hidden selection, access.Inside inputs outputs := by
  have hlt := UInt32.lt_iff_toNat_lt.1 (h.selected selection hselection)
  rw [UInt32.toNat_mul] at hlt
  have hrow : (selection / topK).toNat < rows.toNat := by
    rw [UInt32.toNat_div]
    refine Nat.div_lt_of_lt_mul (lt_of_lt_of_le hlt ((Nat.mod_le _ _).trans ?_))
    rw [Nat.mul_comm]
  have hend := (row_end_le hrow hidden.toNat).trans h.inputs_le
  unfold inputRow
  rw [forall_mem_map]
  intro column hcolumn
  rw [mem_range] at hcolumn
  exact lt_of_lt_of_le (Nat.add_lt_add_left hcolumn _) hend

theorem Fills.output {selected : UInt32 × UInt32} {column : Nat}
    (hselected : selected ∈ selections.zip slots) (hcolumn : column < hidden.toNat) :
    Access.Inside inputs outputs
      (.output selected.2 hidden (selected.2.toNat * hidden.toNat + column)) := by
  have hend := (row_end_le (h.filled _ (of_mem_zip hselected).2) hidden.toNat).trans
    (Nat.div_mul_le_self outputs hidden.toNat)
  refine ⟨by omega, Nat.le_add_right _ _, ?_⟩
  rw [Nat.succ_mul]
  omega

end

theorem Holds.packedDot {record : ByteSpan}
    {weightOffset weightBytes scaleOffset scaleBytes : UInt64} {height width row : Nat}
    (h : Holds record weightOffset weightBytes scaleOffset scaleBytes height width)
    (hwidth : 0 < width) (hrow : row < height) : ∀ access ∈
      packedDot record weightOffset weightBytes scaleOffset scaleBytes row width,
      access.Inside inputs outputs := by
  obtain ⟨blocks, rfl⟩ : ∃ blocks, width = blocks * 32 :=
    ⟨width / 32, (Nat.div_mul_cancel (Nat.dvd_of_mod_eq_zero h.blocks)).symm⟩
  have hhalf : blocks * 32 / 2 = blocks * 16 := by omega
  have hblocks : blocks * 32 / kBlockColumns = blocks := Nat.mul_div_cancel _ (by decide)
  have hweights : height * (blocks * 32) / 2 = height * (blocks * 16) := by
    rw [Nat.mul_div_assoc _ (by omega), hhalf]
  have hscales : height * (blocks * 32) / kBlockColumns = height * blocks := by
    rw [← Nat.mul_assoc]
    exact Nat.mul_div_cancel _ (by decide)
  simp only [Cpu.packedDot, hhalf, hblocks, forall_mem_append]
  rw [loads_inside_iff h.scales (by omega), loads_inside_iff h.weights (by omega),
    h.scaleBytes_eq, h.weightBytes_eq, hweights, hscales, Nat.one_mul, Nat.one_mul]
  exact ⟨row_end_le hrow blocks, row_end_le hrow (blocks * 16)⟩

theorem toNat_pos {value : UInt32} (h : value ≠ 0) : 0 < value.toNat :=
  Nat.pos_of_ne_zero fun hzero => h (UInt32.toNat_inj.1 hzero)

theorem Fp4HostWorkGroup.Checked.inside {group : Fp4HostWorkGroup}
    (h : group.Checked rows topK inputs outputs) : ∀ access ∈ group.runGate topK ++ group.runDown,
      access.Inside inputs outputs := by
  have hhidden := toNat_pos h.fills.hidden_ne
  have hintermediate := toNat_pos h.intermediate_ne
  simp only [runGate, runDown, forall_mem_append, forall_mem_flatMap, mem_range, forall_mem_cons]
  exact ⟨fun output houtput selection hselection =>
      ⟨⟨h.w1.packedDot hhidden houtput, h.w3.packedDot hhidden houtput⟩, h.fills.input hselection⟩,
    fun output houtput selected hselected =>
      ⟨h.fills.output hselected houtput, h.w2.packedDot hintermediate houtput⟩⟩

/-- The sections are as large as the loops need, for the rows that a 32-bit sum can name. -/
def ExpertWorkGroup.Fits (group : ExpertWorkGroup) : Prop :=
  let s := group.sections
  let rows := min (2 * s.intermediate.toNat) (2 ^ 32)
  rows * s.hidden.toNat ≤ s.gateUpQBytes.toNat ∧ 4 * rows ≤ s.gateUpScaleBytes.toNat ∧
    s.hidden.toNat * s.intermediate.toNat ≤ s.downQBytes.toNat ∧
    4 * s.hidden.toNat ≤ s.downScaleBytes.toNat

/-- The rows of the gate and the up projection: all below a bound, and the last one below it. -/
theorem up_rows {intermediate : UInt32} (h : intermediate ≠ 0) :
    (∀ output < intermediate.toNat, output < min (2 * intermediate.toNat) (2 ^ 32) ∧
      (intermediate + UInt32.ofNat output).toNat < min (2 * intermediate.toNat) (2 ^ 32)) ∧
    ∃ output < intermediate.toNat, (intermediate + UInt32.ofNat output).toNat + 1 =
      min (2 * intermediate.toNat) (2 ^ 32) := by
  have hlt := intermediate.toNat_lt
  have hpos := toNat_pos h
  have hup : ∀ output < intermediate.toNat, (intermediate + UInt32.ofNat output).toNat =
      (intermediate.toNat + output) % 2 ^ 32 := fun output houtput => by
    rw [UInt32.toNat_add, UInt32.toNat_ofNat_of_lt' (houtput.trans hlt)]
  refine ⟨fun output houtput => ?_,
    min intermediate.toNat (2 ^ 32 - intermediate.toNat) - 1, by omega, ?_⟩
  · rw [hup output houtput]
    omega
  · rw [hup _ (by omega)]
    omega

/-- The loops use the last element of each section, and none behind it. -/
theorem ExpertWorkGroup.Checked.inside_iff {group : ExpertWorkGroup}
    (h : group.Checked rows topK inputs outputs) :
    (∀ access ∈ group.runGateRange topK ++ group.runDownRange, access.Inside inputs outputs) ↔
      group.Fits := by
  have hhidden := toNat_pos h.fills.hidden_ne
  have hintermediate := toNat_pos h.intermediate_ne
  obtain ⟨hrows, last, hlast, hend⟩ := up_rows h.intermediate_ne
  simp only [runGateRange, runDownRange, forall_mem_append, forall_mem_flatMap,
    mem_range, forall_mem_map, loads_inside_iff h.gateUpQ hhidden,
    loads_inside_iff h.gateUpScale Nat.one_pos, loads_inside_iff h.downQ hintermediate,
    loads_inside_iff h.downScale Nat.one_pos, Nat.one_mul, ← Nat.succ_mul]
  constructor
  · rintro ⟨hgate, hdown⟩
    obtain ⟨⟨⟨⟨-, hweights⟩, -⟩, hscales⟩, -⟩ := hgate last hlast
    obtain ⟨⟨hdownWeights, hdownScales⟩, -⟩ := hdown (group.sections.hidden.toNat - 1) (by omega)
    rw [Nat.succ_eq_add_one, hend] at hweights
    rw [hend] at hscales
    rw [Nat.succ_eq_add_one, Nat.sub_add_cancel hhidden] at hdownWeights
    rw [Nat.sub_add_cancel hhidden] at hdownScales
    exact ⟨hweights, hscales, hdownWeights, hdownScales⟩
  · rintro ⟨hweights, hscales, hdownWeights, hdownScales⟩
    refine ⟨fun output houtput => ?_, fun output houtput => ⟨⟨?_, by omega⟩,
      fun selected hselected => h.fills.output hselected houtput⟩⟩
    · obtain ⟨hbelow, hup⟩ := hrows output houtput
      exact ⟨⟨⟨⟨(Nat.mul_le_mul_right _ hbelow).trans hweights,
        (Nat.mul_le_mul_right _ hup).trans hweights⟩, by omega⟩, by omega⟩,
        fun selection hselection => h.fills.input hselection⟩
    · exact (Nat.mul_le_mul_right _ houtput).trans hdownWeights

/-! ## Both executors -/

/-- The batch passes every check of the INT8 executor. -/
structure Accepted (groups : List ExpertWorkGroup) (inputs : Nat) (rows topK : UInt32)
    (outputs : Nat) : Prop where
  batch : ¬ (rows = 0 ∨ topK = 0 ∨ inputs = 0 ∨ outputs = 0)
  hidden : ∀ front ∈ groups.head?, ∀ group ∈ groups, group.sections.hidden = front.sections.hidden
  valid : ∀ group ∈ groups, (group.validate rows topK inputs outputs).ok = true
  distinct : (groups.flatMap (·.outputSlots)).Nodup

theorem marks_replicate (count : Nat) : Marks (List.replicate count false) [] := by
  intro slot hslot
  simp only [length_replicate] at hslot
  simp [getD_eq_getElem?_getD, hslot]

theorem fp4_safe_iff (groups : List Fp4HostWorkGroup) (inputs : Nat) (rows topK : UInt32)
    (outputs : Nat) :
    (Fp4HostExecutor.execute groups inputs rows topK outputs).Safe inputs outputs ↔
      rows = 0 ∨ topK = 0 ∨ inputs = 0 ∨ outputs = 0 ∨ ∀ front ∈ groups.head?, front.hidden ≠ 0 := by
  cases groups with
  | nil => simp [Fp4HostExecutor.execute, Outcome.Safe]
  | cons front rest =>
    unfold Fp4HostExecutor.execute
    dsimp only
    split_ifs with hbatch hzero hstatus
    · exact iff_of_true rfl (by tauto)
    · exact iff_of_false id (by simpa [hzero] using hbatch)
    · exact iff_of_true (admitAll_refuses (fun group => validate_fp4_refuses _ _ _ _ _) hstatus)
        (by simp [hzero])
    · refine iff_of_true ?_ (by simp [hzero])
      rw [Bool.not_eq_false] at hstatus
      obtain ⟨hgroups, hdistinct⟩ := (admitAll_ok_iff (marks_replicate _) nodup_nil
        (fun group hagrees hvalid slot hslot => by
          have hfilled := (Fp4HostWorkGroup.checked hvalid).fills.filled slot hslot
          simp only [decide_eq_true_eq] at hagrees
          rwa [length_replicate, ← hagrees.1])).1 hstatus
      refine ⟨hdistinct, fun access haccess => ?_⟩
      rcases mem_append.1 haccess with hrows | hgroup
      · obtain ⟨index, hindex, rfl⟩ := mem_map.1 hrows
        have hfront := (Fp4HostWorkGroup.checked (hgroups front mem_cons_self).2).fills
        exact lt_of_lt_of_le (mem_range.1 hindex) hfront.inputs_le
      · obtain ⟨group, hmem, haccess⟩ := mem_flatMap.1 hgroup
        exact (Fp4HostWorkGroup.checked (hgroups group hmem).2).inside access haccess

theorem int8_safe_iff (groups : List ExpertWorkGroup) (inputs : Nat) (rows topK : UInt32)
    (outputs : Nat) :
    (ExpertExecutor.execute groups inputs rows topK outputs).Safe inputs outputs ↔
      (Accepted groups inputs rows topK outputs → ∀ group ∈ groups, group.Fits) := by
  cases groups with
  | nil => simp [ExpertExecutor.execute, Outcome.Safe]
  | cons front rest =>
    have hadmit := @admitAll_ok_iff _ [] _
      (fun group : ExpertWorkGroup => decide (group.sections.hidden = front.sections.hidden))
      "CPU expert groups disagree on hidden size" "duplicate CPU expert compact output slot"
      (·.validate rows topK inputs outputs) (·.outputSlots) (front :: rest)
      (marks_replicate (outputs / front.sections.hidden.toNat)) nodup_nil
      (fun group hagrees hvalid slot hslot => by
        have hfilled := (ExpertWorkGroup.checked hvalid).fills.filled slot hslot
        simp only [decide_eq_true_eq] at hagrees
        rwa [length_replicate, ← hagrees])
    unfold ExpertExecutor.execute
    dsimp only
    split_ifs with hbatch hzero hstatus
    · exact iff_of_true rfl fun haccepted => absurd hbatch haccepted.batch
    · refine iff_of_true rfl fun haccepted => ?_
      have hfront := ExpertWorkGroup.checked (haccepted.valid front mem_cons_self)
      exact absurd hzero hfront.fills.hidden_ne
    · refine iff_of_true (admitAll_refuses (fun group => validate_refuses _ _ _ _ _) hstatus)
        fun haccepted => ?_
      have hok := hadmit.2 ⟨fun group hmem =>
        ⟨by simpa using haccepted.hidden front rfl group hmem, haccepted.valid group hmem⟩,
        haccepted.distinct⟩
      rw [hstatus] at hok
      cases hok
    · rw [Bool.not_eq_false] at hstatus
      obtain ⟨hgroups, hdistinct⟩ := hadmit.1 hstatus
      have hchecked := fun group hmem => ExpertWorkGroup.checked (hgroups group hmem).2
      have haccepted : Accepted (front :: rest) inputs rows topK outputs :=
        ⟨hbatch, fun first hfirst group hmem => by
          cases hfirst
          simpa using (hgroups group hmem).1, fun group hmem => (hgroups group hmem).2, hdistinct⟩
      simp only [Outcome.Safe, forall_mem_flatMap]
      exact ⟨fun hsafe _ group hmem => (hchecked group hmem).inside_iff.1 (hsafe.2 group hmem),
        fun hfits => ⟨hdistinct, fun group hmem =>
          (hchecked group hmem).inside_iff.2 (hfits haccepted group hmem)⟩⟩

/-- When a batch is refused before anything is undefined, or runs inside its bounds: the FP4
executor must not divide by the first group's hidden size, and the INT8 executor's validator
must be right about the sections. -/
theorem executors_safe_iff (fp4Groups : List Fp4HostWorkGroup) (int8Groups : List ExpertWorkGroup)
    (inputs : Nat) (rows topK : UInt32) (outputs : Nat) :
    ((Fp4HostExecutor.execute fp4Groups inputs rows topK outputs).Safe inputs outputs ↔
      rows = 0 ∨ topK = 0 ∨ inputs = 0 ∨ outputs = 0 ∨
        ∀ front ∈ fp4Groups.head?, front.hidden ≠ 0) ∧
    ((ExpertExecutor.execute int8Groups inputs rows topK outputs).Safe inputs outputs ↔
      (Accepted int8Groups inputs rows topK outputs → ∀ group ∈ int8Groups, group.Fits)) :=
  ⟨fp4_safe_iff fp4Groups inputs rows topK outputs,
    int8_safe_iff int8Groups inputs rows topK outputs⟩

/-- A group whose sections are empty. -/
def emptySections : ExpertWorkGroup where
  recordBytes := ⟨[0], by decide⟩
  sections := { hidden := 8, intermediate := 8 }
  selections := [0]
  outputSlots := [0]

/-- A group without a geometry. -/
def noGeometry : Fp4HostWorkGroup := ⟨⟨[0], by decide⟩, {}, 0, 0, [0], [0]⟩

theorem executors_unsafe :
    ¬ (Fp4HostExecutor.execute [noGeometry] 1 1 1 1).Safe 1 1 ∧
      ¬ (ExpertExecutor.execute [emptySections] 8 1 1 8).Safe 8 8 := by
  refine ⟨fun h => ?_, fun h => ?_⟩
  · have hzero := (fp4_safe_iff _ _ _ _ _).1 h
    simp [noGeometry] at hzero
  · have haccepted : Accepted [emptySections] 8 1 1 8 :=
      ⟨by decide, by simp, by decide, by decide⟩
    have hfits := (int8_safe_iff _ _ _ _ _).1 h haccepted emptySections mem_cons_self
    exact absurd hfits.1 (by decide)

end QuantumLlm.Runtime.Cpu
