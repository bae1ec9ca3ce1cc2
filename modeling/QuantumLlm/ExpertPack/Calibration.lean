import Mathlib.Data.String.Basic
import QuantumLlm.Lib.OrderedSet

/-!
# Activation calibration

What `DenseActivationCalibrationSet` counts while the dense pack is written, and
its journey through the journal: a snapshot that is restored in a later run.
-/

namespace QuantumLlm.ExpertPack

def fp4QuantGroupSize : Nat := 32

/-- The captures and the names configured for them, which no record changes. -/
structure CalibrationSource where
  captures : OrderedSet String
  inventorySha256 : Nat
  excluded : OrderedSet String
  payloadTargets : Option (OrderedSet String)
  /-- `configure_exclusions` refuses other names. -/
  excluded_captured : ∀ name ∈ excluded, name ∈ captures

structure CalibrationCounts where
  used : OrderedSet String := OrderedSet.empty
  rows : Nat := 0
  blocks : Nat := 0
  coveringReselections : Nat := 0
  payloadReselections : Nat := 0

/-- What the quantizer reports for one matrix. -/
structure Selection where
  rows : Nat
  blocks : Nat
  changed : Nat
  payloadChanged : Nat

/-- The summary of the excluded names and of the payload targets by hash is left out. -/
structure CalibrationSnapshot where
  denseFiles : Nat
  inventorySha256 : Nat
  matrixNames : List String
  outputRows : Nat
  blocks : Nat
  coveringReselections : Nat
  excludedMatrixNames : List String
  payload : Option (List String × Nat)
  deriving DecidableEq

inductive CalibrationFailure where
  | excludedRequested (name : String)
  | notLoaded (name : String)
  | invalidCounts (name : String)
  | invalidPayloadCounts (name : String)
  | payloadNotEnabled (name : String)
  | missingState
  | incompatibleState
  | exclusionsChanged
  | incompatiblePayload
  | unusedCaptures
  | noBlocks
  | targetsNotCompiled
  deriving DecidableEq

/-- Equality of two lists as sets. -/
def sameNames (names others : List String) : Bool :=
  names.all (· ∈ others) && others.all (· ∈ names)

theorem sameNames_iff {names others : List String} :
    sameNames names others = true ↔ ∀ name, name ∈ names ↔ name ∈ others := by
  simp only [sameNames, Bool.and_eq_true, List.all_eq_true, decide_eq_true_eq]
  constructor
  · rintro ⟨hto, hfrom⟩ name
    exact ⟨hto name, hfrom name⟩
  · intro h
    exact ⟨fun name => (h name).1, fun name => (h name).2⟩

namespace CalibrationSource

variable (source : CalibrationSource) (counts : CalibrationCounts)

def selectsPayloadCodes (name : String) : Bool :=
  match source.payloadTargets with
  | none => false
  | some targets => name ∈ targets

/-- `load`, and whether there is a capture. -/
def load (name : String) : Except CalibrationFailure (CalibrationCounts × Bool) :=
  if name ∈ source.excluded then .error (.excludedRequested name)
  else if name ∈ source.captures then .ok ({ counts with used := counts.used.insert name }, true)
  else .ok (counts, false)

def recordSelection (name : String) (selection : Selection) :
    Except CalibrationFailure CalibrationCounts :=
  let blocks := selection.rows * selection.blocks
  if name ∉ counts.used then .error (.notLoaded name)
  else if selection.rows = 0 ∨ selection.blocks = 0 ∨ blocks < selection.changed then
    .error (.invalidCounts name)
  else if blocks * fp4QuantGroupSize < selection.payloadChanged then
    .error (.invalidPayloadCounts name)
  else if selection.payloadChanged ≠ 0 ∧ source.selectsPayloadCodes name = false then
    .error (.payloadNotEnabled name)
  else
    .ok
      { counts with
        rows := counts.rows + selection.rows
        blocks := counts.blocks + blocks
        coveringReselections := counts.coveringReselections + selection.changed
        payloadReselections := counts.payloadReselections + selection.payloadChanged }

def snapshot : CalibrationSnapshot where
  denseFiles := source.captures.items.length
  inventorySha256 := source.inventorySha256
  matrixNames := counts.used.items
  outputRows := counts.rows
  blocks := counts.blocks
  coveringReselections := counts.coveringReselections
  excludedMatrixNames := source.excluded.items
  payload := source.payloadTargets.map fun targets => (targets.items, counts.payloadReselections)

def restore (snapshot : Option CalibrationSnapshot) :
    Except CalibrationFailure CalibrationCounts :=
  match snapshot with
  | none => .error .missingState
  | some snapshot =>
    if snapshot.denseFiles ≠ source.captures.items.length ∨
        snapshot.inventorySha256 ≠ source.inventorySha256 ∨
        ¬ sameNames (snapshot.matrixNames ++ source.excluded.items) source.captures.items ∨
        (snapshot.matrixNames.any fun name => name ∈ source.excluded) then
      .error .incompatibleState
    else if ¬ sameNames snapshot.excludedMatrixNames source.excluded.items then
      .error .exclusionsChanged
    else
      let counts : CalibrationCounts :=
        { used := OrderedSet.ofList snapshot.matrixNames
          rows := snapshot.outputRows
          blocks := snapshot.blocks
          coveringReselections := snapshot.coveringReselections }
      match source.payloadTargets, snapshot.payload with
      | none, _ => .ok counts
      | some _, none => .error .incompatiblePayload
      | some targets, some (names, reselections) =>
        if ¬ sameNames names targets.items then .error .incompatiblePayload
        else .ok { counts with payloadReselections := reselections }

def finalize : Except CalibrationFailure CalibrationSnapshot :=
  if source.captures.items.any fun name => name ∉ counts.used ∧ name ∉ source.excluded then
    .error .unusedCaptures
  else if counts.blocks = 0 then .error .noBlocks
  else if source.payloadTargets.any fun targets => targets.items.any fun name =>
      name ∉ counts.used then .error .targetsNotCompiled
  else .ok (source.snapshot counts)

end CalibrationSource

variable {source : CalibrationSource} {counts counts' : CalibrationCounts} {name : String}

/-- What the counts of a run satisfy. -/
structure CalibrationCounts.Sound (source : CalibrationSource) (counts : CalibrationCounts) :
    Prop where
  captured : ∀ name ∈ counts.used, name ∈ source.captures
  included : ∀ name ∈ counts.used, name ∉ source.excluded
  payload : source.payloadTargets = none → counts.payloadReselections = 0

theorem CalibrationCounts.Sound.initial (source : CalibrationSource) :
    CalibrationCounts.Sound source {} where
  captured := fun name hname => absurd hname (OrderedSet.not_mem_empty name)
  included := fun name hname => absurd hname (OrderedSet.not_mem_empty name)
  payload := fun _ => rfl

theorem CalibrationCounts.Sound.load (h : counts.Sound source) {captured : Bool}
    (hload : source.load counts name = .ok (counts', captured)) : counts'.Sound source := by
  rw [CalibrationSource.load] at hload
  split at hload
  next => cases hload
  next hincluded =>
    split at hload
    next hcaptured =>
      cases hload
      refine ⟨?_, ?_, h.payload⟩
      · intro other hother
        rcases OrderedSet.mem_insert.1 hother with rfl | hold
        · exact hcaptured
        · exact h.captured other hold
      · intro other hother
        rcases OrderedSet.mem_insert.1 hother with rfl | hold
        · exact hincluded
        · exact h.included other hold
    next =>
      cases hload
      exact h

theorem CalibrationCounts.Sound.recordSelection (h : counts.Sound source) {selection : Selection}
    (hrecord : source.recordSelection counts name selection = .ok counts') :
    counts'.Sound source := by
  rw [CalibrationSource.recordSelection] at hrecord
  split at hrecord
  next => cases hrecord
  next =>
    split at hrecord
    next => cases hrecord
    next =>
      split at hrecord
      next => cases hrecord
      next =>
        split at hrecord
        next => cases hrecord
        next henabled =>
          cases hrecord
          refine ⟨h.captured, h.included, ?_⟩
          intro hnone
          have hzero := h.payload hnone
          have hdisabled : source.selectsPayloadCodes name = false := by
            rw [CalibrationSource.selectsPayloadCodes, hnone]
          have hsame : selection.payloadChanged = 0 := by
            by_contra hne
            exact henabled ⟨hne, hdisabled⟩
          simp only [hzero, hsame]

theorem CalibrationSource.restore_snapshot {report : CalibrationSnapshot} (h : counts.Sound source)
    (hfinalize : source.finalize counts = .ok report) :
    source.restore (some (source.snapshot counts)) = .ok counts := by
  have hcomplete : ∀ name ∈ source.captures, name ∈ counts.used ∨ name ∈ source.excluded := by
    rw [CalibrationSource.finalize] at hfinalize
    split at hfinalize
    next => cases hfinalize
    next hnone =>
      intro name hname
      by_contra hneither
      apply hnone
      rw [List.any_eq_true]
      exact ⟨name, hname, by simpa using hneither⟩
  have hcaptures : sameNames (counts.used.items ++ source.excluded.items)
      source.captures.items = true := by
    rw [sameNames_iff]
    intro name
    rw [List.mem_append]
    constructor
    · rintro (hused | hexcluded)
      · exact h.captured name hused
      · exact source.excluded_captured name hexcluded
    · exact hcomplete name
  have hdisjoint : (counts.used.items.any fun name => name ∈ source.excluded) = false := by
    rw [List.any_eq_false]
    intro name hname
    simpa using h.included name hname
  have hexcluded : sameNames source.excluded.items source.excluded.items = true :=
    sameNames_iff.2 fun _ => Iff.rfl
  simp only [CalibrationSource.restore]
  rw [if_neg (by simp [CalibrationSource.snapshot, hcaptures, hdisjoint]),
    if_neg (by simp [CalibrationSource.snapshot, hexcluded])]
  simp only [CalibrationSource.snapshot]
  rw [OrderedSet.ofList_items]
  cases htargets : source.payloadTargets with
  | none =>
    have hzero := h.payload htargets
    obtain ⟨used, rows, blocks, reselections, payload⟩ := counts
    simp only at hzero
    rw [hzero]
  | some targets =>
    have htarget : sameNames targets.items targets.items = true :=
      sameNames_iff.2 fun _ => Iff.rfl
    simp only [Option.map_some]
    rw [if_neg (by simp [htarget])]

theorem CalibrationSource.eq_of_restore (h : counts.Sound source)
    (hrestore : source.restore (some (source.snapshot counts)) = .ok counts') : counts' = counts := by
  simp only [CalibrationSource.restore] at hrestore
  split at hrestore
  next => cases hrestore
  next =>
    split at hrestore
    next => cases hrestore
    next =>
      simp only [CalibrationSource.snapshot, OrderedSet.ofList_items] at hrestore
      obtain ⟨used, rows, blocks, reselections, payload⟩ := counts
      cases htargets : source.payloadTargets with
      | none =>
        have hzero := h.payload htargets
        simp only [htargets] at hzero hrestore
        cases hrestore
        rw [hzero]
      | some targets =>
        simp only [htargets, Option.map_some] at hrestore
        split at hrestore
        next => cases hrestore
        next =>
          cases hrestore
          rfl

end QuantumLlm.ExpertPack
