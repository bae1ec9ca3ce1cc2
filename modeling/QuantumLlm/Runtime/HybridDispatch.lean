import Mathlib.Data.List.Sort
import QuantumLlm.Lib.Ring
import QuantumLlm.Runtime.Storage

/-!
# Hybrid dispatch

One plan for the experts of a layer: resident experts stay on the GPU, flexible ones go to the
lane with the shorter critical path, and every decision enters a bounded trace. What the
measured estimates cost a candidate on each lane is given to a plan; the other counters of the
telemetry are not modelled.
-/

namespace QuantumLlm.Runtime.HybridDispatch

inductive HybridExecutor where
  | gpuResident
  | gpuUpload
  | cpuLocal
  deriving DecidableEq

inductive HybridDispatchReason where
  | residentGpu
  | cpuOnly
  | gpuOnly
  | cpuLowerCriticalPath
  | gpuLowerCriticalPath
  | cpuStableTie
  | gpuStableTie
  | cpuCalibration
  | gpuCacheWarm

structure HybridDispatchConfig where
  maximumCandidates : Nat
  maximumTraceDecisions : Nat
  requireLiveH2dBeforeCpu : Bool
  bootstrapCpuProbe : Bool
  preferGpuOnTie : Bool
  minimumGpuUploads : Nat

/-- What the constructor requires of the bounds. -/
def HybridDispatchConfig.valid (config : HybridDispatchConfig) : Bool :=
  config.maximumCandidates ≠ 0 && config.maximumTraceDecisions ≠ 0

structure HybridDispatchCandidate where
  expert : UInt32
  selections : UInt32
  recordBytes : UInt64
  gpuResident : Bool
  cpuAvailable : Bool
  gpuAvailable : Bool
  placementTemperature : UInt64
  lastAccess : UInt64

structure HybridDispatchDecision where
  expert : UInt32
  executor : HybridExecutor
  reason : HybridDispatchReason
  cpuChoiceCriticalNs : UInt64
  gpuChoiceCriticalNs : UInt64

structure HybridDispatchPlan where
  status : Status := Status.success
  decisions : List HybridDispatchDecision := []
  projectedCpuNs : UInt64 := 0
  projectedGpuNs : UInt64 := 0
  projectedH2dNs : UInt64 := 0
  projectedCriticalNs : UInt64 := 0

/-- The telemetry that a plan reads: the rounded costs by the estimates, and the observations. -/
structure Measured where
  cpuCost : HybridDispatchCandidate → UInt64
  gpuCost : HybridDispatchCandidate → UInt64
  h2dCost : HybridDispatchCandidate → UInt64
  cpuObservations : UInt64
  h2dObservations : UInt64

def saturatingAdd (left right : UInt64) : UInt64 :=
  if right > (UInt64.ofNat (UInt64.size - 1)) - left then UInt64.ofNat (UInt64.size - 1)
  else left + right

/-- A plan in the making and the trace. -/
structure Planning where
  result : HybridDispatchPlan
  trace : Ring HybridDispatchDecision

section

variable (config : HybridDispatchConfig) (measured : Measured)

def append (planning : Planning) (decision : HybridDispatchDecision) : Planning :=
  ⟨{ planning.result with decisions := planning.result.decisions ++ [decision] },
    planning.trace.record config.maximumTraceDecisions decision⟩

/-- The loop over the candidates: the fixed and the flexible ones, unless one is refused. -/
def classify : List UInt32 → List HybridDispatchCandidate → List HybridDispatchCandidate →
    List HybridDispatchCandidate →
      Option (List HybridDispatchCandidate × List HybridDispatchCandidate)
  | _, fixed, flexible, [] => some (fixed, flexible)
  | uniqueExperts, fixed, flexible, candidate :: rest =>
    if candidate.selections = 0 ∨
        (!candidate.cpuAvailable && !candidate.gpuAvailable && !candidate.gpuResident) = true ∨
        candidate.expert ∈ uniqueExperts then none
    else if !candidate.gpuResident && candidate.cpuAvailable && candidate.gpuAvailable then
      classify (candidate.expert :: uniqueExperts) fixed (flexible ++ [candidate]) rest
    else classify (candidate.expert :: uniqueExperts) (fixed ++ [candidate]) flexible rest

/-- One turn of the loop over the fixed candidates. -/
def placeFixed (planning : Planning) (candidate : HybridDispatchCandidate) : Planning :=
  let result := planning.result
  if candidate.gpuResident then
    let gpuNs := saturatingAdd result.projectedGpuNs (measured.gpuCost candidate)
    append config { planning with result := { result with projectedGpuNs := gpuNs } }
      ⟨candidate.expert, .gpuResident, .residentGpu, 0, saturatingAdd result.projectedH2dNs gpuNs⟩
  else if candidate.cpuAvailable then
    let cpuNs := saturatingAdd result.projectedCpuNs (measured.cpuCost candidate)
    append config { planning with result := { result with projectedCpuNs := cpuNs } }
      ⟨candidate.expert, .cpuLocal, .cpuOnly, cpuNs, 0⟩
  else
    let h2dNs := saturatingAdd result.projectedH2dNs (measured.h2dCost candidate)
    let gpuNs := saturatingAdd result.projectedGpuNs (measured.gpuCost candidate)
    append config
      { planning with result := { result with projectedH2dNs := h2dNs, projectedGpuNs := gpuNs } }
      ⟨candidate.expert, .gpuUpload, .gpuOnly, 0, saturatingAdd h2dNs gpuNs⟩

/-- One turn of the loop over the flexible candidates, with the uploads so far and whether a
probe of the CPU is pending. -/
def placeFlexible : Planning × Nat × Bool → HybridDispatchCandidate → Planning × Nat × Bool
  | (planning, gpuUploads, cpuProbePending), candidate =>
    let result := planning.result
    let cpuFinish := saturatingAdd result.projectedCpuNs (measured.cpuCost candidate)
    let currentGpuFinish := saturatingAdd result.projectedH2dNs result.projectedGpuNs
    let cpuCritical := max cpuFinish currentGpuFinish
    let h2dFinish := saturatingAdd result.projectedH2dNs (measured.h2dCost candidate)
    let gpuComputeFinish := saturatingAdd result.projectedGpuNs (measured.gpuCost candidate)
    let gpuFinish := saturatingAdd h2dFinish gpuComputeFinish
    let gpuCritical := max result.projectedCpuNs gpuFinish
    let h2dUnmeasured := config.requireLiveH2dBeforeCpu ∧ measured.h2dObservations = 0
    let warmGpu := gpuUploads < config.minimumGpuUploads
    let onGpu := { planning with
      result := { result with projectedH2dNs := h2dFinish, projectedGpuNs := gpuComputeFinish } }
    let onCpu := { planning with result := { result with projectedCpuNs := cpuFinish } }
    if h2dUnmeasured ∨ warmGpu then
      (append config onGpu ⟨candidate.expert, .gpuUpload,
        if warmGpu then .gpuCacheWarm else .gpuLowerCriticalPath, cpuCritical, gpuCritical⟩,
        gpuUploads + 1, cpuProbePending)
    else if cpuProbePending then
      (append config onCpu ⟨candidate.expert, .cpuLocal, .cpuCalibration, cpuCritical,
        gpuCritical⟩, gpuUploads, false)
    else if gpuCritical < cpuCritical ∨ (gpuCritical = cpuCritical ∧ config.preferGpuOnTie) then
      (append config onGpu ⟨candidate.expert, .gpuUpload,
        if gpuCritical = cpuCritical then .gpuStableTie else .gpuLowerCriticalPath, cpuCritical,
        gpuCritical⟩, gpuUploads + 1, cpuProbePending)
    else
      (append config onCpu ⟨candidate.expert, .cpuLocal,
        if gpuCritical = cpuCritical then .cpuStableTie else .cpuLowerCriticalPath, cpuCritical,
        gpuCritical⟩, gpuUploads, cpuProbePending)

/-- The order of the flexible candidates. -/
def before (left right : HybridDispatchCandidate) : Bool :=
  let leftCost := measured.cpuCost left
  let rightCost := measured.cpuCost right
  if leftCost ≠ rightCost then leftCost > rightCost
  else if left.placementTemperature ≠ right.placementTemperature then
    left.placementTemperature > right.placementTemperature
  else if left.lastAccess ≠ right.lastAccess then left.lastAccess > right.lastAccess
  else left.expert < right.expert

/-- Both loops, up to the final sort of the decisions. -/
def place (trace : Ring HybridDispatchDecision) (fixed flexible : List HybridDispatchCandidate) :
    Planning :=
  let fixed := fixed.mergeSort fun left right => left.expert ≤ right.expert
  let planning := fixed.foldl (placeFixed config measured) ⟨{}, trace⟩
  let flexible := flexible.mergeSort fun left right => !before measured right left
  let gpuUploads := planning.result.decisions.countP (·.executor = .gpuUpload)
  let cpuProbePending := config.bootstrapCpuProbe && measured.h2dObservations ≠ 0 &&
    measured.cpuObservations = 0
  (flexible.foldl (placeFlexible config measured) (planning, gpuUploads, cpuProbePending)).1

/-- `plan`: its result, the decisions in the order they were appended, and the trace behind it. -/
def plan (trace : Ring HybridDispatchDecision) (candidates : List HybridDispatchCandidate) :
    HybridDispatchPlan × List HybridDispatchDecision × Ring HybridDispatchDecision :=
  if candidates = [] then
    ({ status := ⟨.invalidArgument, "hybrid dispatch requires at least one candidate"⟩ }, [], trace)
  else if candidates.length > config.maximumCandidates then
    ({ status := ⟨.backpressure, "hybrid dispatch candidate bound exceeded"⟩ }, [], trace)
  else match classify [] [] [] candidates with
    | none =>
      ({ status := ⟨.invalidArgument, "invalid or duplicate hybrid dispatch candidate"⟩ }, [],
        trace)
    | some (fixed, flexible) =>
      let planning := place config measured trace fixed flexible
      let result := planning.result
      ({ result with
        decisions := result.decisions.mergeSort fun left right => left.expert ≤ right.expert
        projectedCriticalNs := max result.projectedCpuNs
          (saturatingAdd result.projectedH2dNs result.projectedGpuNs) },
        result.decisions, planning.trace)

end

/-- The trace and the log of all appended decisions behind plans, each with what was measured
by then. -/
def run (config : HybridDispatchConfig) (trace : Ring HybridDispatchDecision)
    (log : List HybridDispatchDecision) : List (Measured × List HybridDispatchCandidate) →
      Ring HybridDispatchDecision × List HybridDispatchDecision
  | [] => (trace, log)
  | (measured, candidates) :: rest =>
    let planned := plan config measured trace candidates
    run config planned.2.2 (log ++ planned.2.1) rest

/-- A plan in the making has recorded its decisions behind an older log. -/
def Recorded (config : HybridDispatchConfig) (log : List HybridDispatchDecision)
    (planning : Planning) : Prop :=
  planning.trace.Keeps config.maximumTraceDecisions (log ++ planning.result.decisions)

variable {config : HybridDispatchConfig} {log : List HybridDispatchDecision} {planning : Planning}
  {trace : Ring HybridDispatchDecision}

theorem recorded_append (result : HybridDispatchPlan) (decision : HybridDispatchDecision)
    (hresult : result.decisions = planning.result.decisions) (h : Recorded config log planning) :
    Recorded config log (append config ⟨result, planning.trace⟩ decision) := by
  have hrecord := Ring.Keeps.record h decision
  rw [← hresult, List.append_assoc] at hrecord
  exact hrecord

/-! ## What a plan decides -/

section

open List

variable {measured : Measured} {candidates candidates' : List HybridDispatchCandidate}
  {candidate : HybridDispatchCandidate}

def Usable (candidate : HybridDispatchCandidate) : Prop :=
  candidate.selections ≠ 0 ∧
    (candidate.cpuAvailable ∨ candidate.gpuAvailable ∨ candidate.gpuResident)

def flexible (candidate : HybridDispatchCandidate) : Bool :=
  !candidate.gpuResident && candidate.cpuAvailable && candidate.gpuAvailable

/-- Candidates that can be run somewhere, for an expert each. -/
def Distinct (candidates : List HybridDispatchCandidate) : Prop :=
  (∀ candidate ∈ candidates, Usable candidate) ∧ (candidates.map (·.expert)).Nodup

/-- The lists that `plan` accepts. -/
def Accepts (config : HybridDispatchConfig) (candidates : List HybridDispatchCandidate) : Prop :=
  candidates ≠ [] ∧ candidates.length ≤ config.maximumCandidates ∧ Distinct candidates

theorem classify_spec (experts : List UInt32) (fixed flexibles : List HybridDispatchCandidate)
    (candidates : List HybridDispatchCandidate) :
    (Distinct candidates ∧ (∀ candidate ∈ candidates, candidate.expert ∉ experts) ∧
      classify experts fixed flexibles candidates = some
        (fixed ++ candidates.filter (!flexible ·), flexibles ++ candidates.filter flexible)) ∨
    (¬(Distinct candidates ∧ ∀ candidate ∈ candidates, candidate.expert ∉ experts) ∧
      classify experts fixed flexibles candidates = none) := by
  induction candidates generalizing experts fixed flexibles with
  | nil => simp [Distinct, classify]
  | cons candidate rest ih =>
    rw [classify]
    split
    next hrefused =>
      right
      simp only [Distinct, Usable, mem_cons]
      grind
    next haccepted =>
      have hpinned := ih (candidate.expert :: experts) (fixed ++ [candidate]) flexibles
      have hfree := ih (candidate.expert :: experts) fixed (flexibles ++ [candidate])
      simp only [Distinct, Usable, mem_cons, map_cons, nodup_cons, filter_cons, flexible] at *
      split <;> grind

theorem classify_nil (candidates : List HybridDispatchCandidate) :
    (Distinct candidates ∧ classify [] [] [] candidates =
      some (candidates.filter (!flexible ·), candidates.filter flexible)) ∨
    (¬Distinct candidates ∧ classify [] [] [] candidates = none) := by
  simpa using classify_spec [] [] [] candidates

theorem plan_of_accepts (h : Accepts config candidates) :
    plan config measured trace candidates =
      let planning := place config measured trace (candidates.filter (!flexible ·))
        (candidates.filter flexible)
      let result := planning.result
      ({ result with
        decisions := result.decisions.mergeSort fun left right => left.expert ≤ right.expert
        projectedCriticalNs := max result.projectedCpuNs
          (saturatingAdd result.projectedH2dNs result.projectedGpuNs) },
        result.decisions, planning.trace) := by
  have hclassify := (classify_nil candidates).resolve_right fun hrefused => hrefused.1 h.2.2
  unfold plan
  rw [if_neg h.1, if_neg (Nat.not_lt.2 h.2.1), hclassify.2]

theorem plan_of_refused (h : ¬Accepts config candidates) : ∃ status : Status, status.ok = false ∧
    plan config measured trace candidates = ({ status }, [], trace) := by
  unfold plan
  split
  next => exact ⟨_, rfl, rfl⟩
  next hsome =>
    split
    next => exact ⟨_, rfl, rfl⟩
    next hbound =>
      have hclassify := (classify_nil candidates).resolve_left fun haccepted =>
        h ⟨hsome, Nat.not_lt.1 hbound, haccepted.1⟩
      rw [hclassify.2]
      exact ⟨_, rfl, rfl⟩

def byExpert (candidates : List HybridDispatchCandidate) : List HybridDispatchCandidate :=
  candidates.mergeSort fun left right => left.expert ≤ right.expert

/-- A decision that the candidate allows. -/
def Allows (candidate : HybridDispatchCandidate) (decision : HybridDispatchDecision) : Prop :=
  decision.expert = candidate.expert ∧
    match decision.executor with
    | .gpuResident => candidate.gpuResident = true
    | .cpuLocal => candidate.gpuResident = false ∧ candidate.cpuAvailable = true
    | .gpuUpload => candidate.gpuResident = false ∧ candidate.gpuAvailable = true

/-- What a reason says: a lane is preferred for its critical path only where that is not the longer
one, unless no transfer has been measured. -/
def Justified (config : HybridDispatchConfig) (measured : Measured)
    (decision : HybridDispatchDecision) : Prop :=
  match decision.reason with
  | .residentGpu => decision.executor = .gpuResident
  | .cpuOnly => decision.executor = .cpuLocal
  | .gpuOnly => decision.executor = .gpuUpload
  | .cpuLowerCriticalPath => decision.executor = .cpuLocal ∧
    decision.cpuChoiceCriticalNs < decision.gpuChoiceCriticalNs
  | .gpuLowerCriticalPath => decision.executor = .gpuUpload ∧
    (decision.gpuChoiceCriticalNs < decision.cpuChoiceCriticalNs ∨
      config.requireLiveH2dBeforeCpu = true ∧ measured.h2dObservations = 0)
  | .cpuStableTie => decision.executor = .cpuLocal ∧ config.preferGpuOnTie = false ∧
    decision.gpuChoiceCriticalNs = decision.cpuChoiceCriticalNs
  | .gpuStableTie => decision.executor = .gpuUpload ∧ config.preferGpuOnTie = true ∧
    decision.gpuChoiceCriticalNs = decision.cpuChoiceCriticalNs
  | .cpuCalibration => decision.executor = .cpuLocal
  | .gpuCacheWarm => decision.executor = .gpuUpload ∧ 0 < config.minimumGpuUploads

abbrev Pairs := List (HybridDispatchCandidate × HybridDispatchDecision)

/-- What the candidates cost that go to some executors. -/
def spent (cost : HybridDispatchCandidate → UInt64) (executors : List HybridExecutor)
    (pairs : Pairs) : Nat :=
  (pairs.map fun pair => if pair.2.executor ∈ executors then (cost pair.1).toNat else 0).sum

/-- A sum that stops at the largest number. -/
def Saturates (sum : UInt64) (total : Nat) : Prop := sum.toNat = min total (UInt64.size - 1)

/-- A result, in the making or done, with the candidates it has decided about. -/
structure Decided (config : HybridDispatchConfig) (measured : Measured) (pairs : Pairs)
    (result : HybridDispatchPlan) : Prop where
  status : result.status = Status.success
  decisions : result.decisions = pairs.map Prod.snd
  allowed : ∀ pair ∈ pairs, Allows pair.1 pair.2
  justified : ∀ pair ∈ pairs, Justified config measured pair.2
  cpu : Saturates result.projectedCpuNs (spent measured.cpuCost [.cpuLocal] pairs)
  gpu : Saturates result.projectedGpuNs (spent measured.gpuCost [.gpuResident, .gpuUpload] pairs)
  h2d : Saturates result.projectedH2dNs (spent measured.h2dCost [.gpuUpload] pairs)

variable {pairs : Pairs} {decision : HybridDispatchDecision} {result : HybridDispatchPlan}

theorem saturatingAdd_saturates {total : Nat} {left : UInt64} (right : UInt64)
    (h : Saturates left total) : Saturates (saturatingAdd left right) (total + right.toNat) := by
  have hleft := left.toNat_lt
  have hright := right.toNat_lt
  unfold Saturates saturatingAdd at *
  split
  next hover =>
    rw [gt_iff_lt, UInt64.lt_iff_toNat_lt, UInt64.toNat_sub] at hover
    simp [UInt64.size] at *
    omega
  next hfits =>
    rw [gt_iff_lt, UInt64.lt_iff_toNat_lt, UInt64.toNat_sub] at hfits
    simp [UInt64.size] at *
    omega

theorem Saturates.decide {projected next : UInt64} {cost : HybridDispatchCandidate → UInt64}
    {executors : List HybridExecutor} (h : Saturates projected (spent cost executors pairs))
    (hnext : next = if decision.executor ∈ executors then saturatingAdd projected (cost candidate)
      else projected) : Saturates next (spent cost executors (pairs ++ [(candidate, decision)])) := by
  rw [hnext, spent, map_append, sum_append, map_singleton, sum_singleton]
  split
  next => exact saturatingAdd_saturates _ h
  next => exact h

/-- A decision adds to the projections of its executor, and to nothing else. -/
def Charges (measured : Measured) (candidate : HybridDispatchCandidate) (executor : HybridExecutor)
    (before after : HybridDispatchPlan) : Prop :=
  let add (executors : List HybridExecutor) (projected cost : UInt64) : UInt64 :=
    if executor ∈ executors then saturatingAdd projected cost else projected
  after.status = before.status ∧ after.decisions = before.decisions ∧
    after.projectedCpuNs = add [.cpuLocal] before.projectedCpuNs (measured.cpuCost candidate) ∧
    after.projectedGpuNs =
      add [.gpuResident, .gpuUpload] before.projectedGpuNs (measured.gpuCost candidate) ∧
    after.projectedH2dNs = add [.gpuUpload] before.projectedH2dNs (measured.h2dCost candidate)

/-- A plan in the making behind a trace has decided, and has recorded its decisions. -/
def Placed (config : HybridDispatchConfig) (measured : Measured)
    (trace : Ring HybridDispatchDecision) (pairs : Pairs) (planning : Planning) : Prop :=
  Decided config measured pairs planning.result ∧
    ∀ log, trace.Keeps config.maximumTraceDecisions log → Recorded config log planning

theorem Placed.append (h : Placed config measured trace pairs planning)
    (hallows : Allows candidate decision) (hjustified : Justified config measured decision)
    (hcharges : Charges measured candidate decision.executor planning.result result) :
    Placed config measured trace (pairs ++ [(candidate, decision)])
      (append config ⟨result, planning.trace⟩ decision) := by
  obtain ⟨hdecided, hrecorded⟩ := h
  obtain ⟨hstatus, hdecisions, hcpu, hgpu, hh2d⟩ := hcharges
  refine ⟨⟨hstatus.trans hdecided.status, ?_, ?_, ?_, hdecided.cpu.decide hcpu,
    hdecided.gpu.decide hgpu, hdecided.h2d.decide hh2d⟩,
    fun log hlog => recorded_append _ _ hdecisions (hrecorded log hlog)⟩
  · rw [map_append, ← hdecided.decisions, ← hdecisions]
    rfl
  · intro pair hpair
    rcases mem_append.1 hpair with hold | hnew
    · exact hdecided.allowed pair hold
    · rw [mem_singleton.1 hnew]
      exact hallows
  · intro pair hpair
    rcases mem_append.1 hpair with hold | hnew
    · exact hdecided.justified pair hold
    · rw [mem_singleton.1 hnew]
      exact hjustified

theorem placeFixed_placed (husable : Usable candidate)
    (h : Placed config measured trace pairs planning) : ∃ decision,
      Placed config measured trace (pairs ++ [(candidate, decision)])
        (placeFixed config measured planning candidate) := by
  unfold placeFixed
  split
  next hresident =>
    refine ⟨_, h.append ?_ rfl (by simp [Charges])⟩
    exact ⟨rfl, hresident⟩
  next hcold =>
    rw [Bool.not_eq_true] at hcold
    split
    next hcpu =>
      refine ⟨_, h.append ?_ rfl (by simp [Charges])⟩
      exact ⟨rfl, hcold, hcpu⟩
    next hcpu =>
      refine ⟨_, h.append ?_ rfl (by simp [Charges])⟩
      exact ⟨rfl, hcold, (husable.2.resolve_left hcpu).resolve_right (by simp [hcold])⟩

theorem placeFlexible_placed (state : Planning × Nat × Bool)
    (hflexible : flexible candidate = true) (h : Placed config measured trace pairs state.1) :
    ∃ decision, Placed config measured trace (pairs ++ [(candidate, decision)])
      (placeFlexible config measured state candidate).1 := by
  simp only [flexible, Bool.and_eq_true, Bool.not_eq_true'] at hflexible
  obtain ⟨⟨hcold, hcpu⟩, hgpu⟩ := hflexible
  have hside : ∀ decision, decision.expert = candidate.expert →
      decision.executor = .gpuUpload ∨ decision.executor = .cpuLocal →
      Allows candidate decision := by
    rintro ⟨expert, executor, reason, cpuNs, gpuNs⟩ rfl (hlane | hlane) <;> cases hlane
    · exact ⟨rfl, hcold, hgpu⟩
    · exact ⟨rfl, hcold, hcpu⟩
  unfold placeFlexible
  dsimp only
  split_ifs
  all_goals
    refine ⟨_, h.append (hside _ rfl (by simp)) ?_ (by simp [Charges])⟩
    simp only [Justified]
  all_goals grind

/-- What one turn of a loop keeps, the whole loop keeps. -/
theorem foldl_placed {σ : Type} {view : σ → Planning} {turn : σ → HybridDispatchCandidate → σ}
    (hturn : ∀ candidate ∈ candidates, ∀ pairs state,
      Placed config measured trace pairs (view state) → ∃ decision,
        Placed config measured trace (pairs ++ [(candidate, decision)])
          (view (turn state candidate)))
    (state : σ) (h : Placed config measured trace pairs (view state)) : ∃ added,
      added.map Prod.fst = candidates ∧
        Placed config measured trace (pairs ++ added) (view (candidates.foldl turn state)) := by
  induction candidates generalizing pairs state with
  | nil => exact ⟨[], rfl, by simpa using h⟩
  | cons candidate rest ih =>
    obtain ⟨decision, hplaced⟩ := hturn candidate mem_cons_self pairs state h
    obtain ⟨added, hadded, hrest⟩ :=
      ih (fun other hother => hturn other (mem_cons_of_mem _ hother)) _ hplaced
    exact ⟨(candidate, decision) :: added, congrArg _ hadded, by simpa using hrest⟩

theorem place_placed (husable : ∀ candidate ∈ candidates, Usable candidate) : ∃ pairs,
    pairs.map Prod.fst ~ candidates ∧ Placed config measured trace pairs
      (place config measured trace (candidates.filter (!flexible ·))
        (candidates.filter flexible)) := by
  have hstart : Placed config measured trace [] ⟨{}, trace⟩ := by
    refine ⟨⟨rfl, rfl, by simp, by simp, rfl, rfl, rfl⟩, fun log hlog => ?_⟩
    rw [Recorded, append_nil]
    exact hlog
  obtain ⟨placed, hplaced, hfixed⟩ := @foldl_placed config trace measured
    (byExpert (candidates.filter (!flexible ·))) [] _ id (placeFixed config measured)
    (fun candidate hmem _ _ h =>
      placeFixed_placed (husable candidate (mem_filter.1 (mem_mergeSort.1 hmem)).1) h) _ hstart
  obtain ⟨added, hadded, hdone⟩ := @foldl_placed config trace measured
    ((candidates.filter flexible).mergeSort fun left right => !before measured right left) placed _
    Prod.fst (placeFlexible config measured)
    (fun candidate hmem _ state h =>
      placeFlexible_placed state (mem_filter.1 (mem_mergeSort.1 hmem)).2 h) (_, _, _) hfixed
  refine ⟨placed ++ added, ?_, hdone⟩
  rw [map_append, hplaced, hadded]
  exact ((mergeSort_perm _ _).append (mergeSort_perm _ _)).trans
    (perm_append_comm.trans (filter_append_perm flexible candidates))

/-! ### The trace -/

theorem plan_keeps (measured : Measured) (candidates : List HybridDispatchCandidate)
    (h : trace.Keeps config.maximumTraceDecisions log) :
    (plan config measured trace candidates).2.2.Keeps config.maximumTraceDecisions
      (log ++ (plan config measured trace candidates).2.1) := by
  by_cases haccepts : Accepts config candidates
  · obtain ⟨pairs, -, -, hrecorded⟩ := @place_placed config trace measured _ haccepts.2.2.1
    rw [plan_of_accepts haccepts]
    exact hrecorded log h
  · obtain ⟨status, -, hplan⟩ := @plan_of_refused config trace measured _ haccepts
    rw [hplan, append_nil]
    exact h

theorem run_keeps (plans : List (Measured × List HybridDispatchCandidate))
    (h : trace.Keeps config.maximumTraceDecisions log) :
    (run config trace log plans).1.Keeps config.maximumTraceDecisions
      (run config trace log plans).2 := by
  induction plans generalizing trace log with
  | nil => exact h
  | cons entry rest ih => exact ih (plan_keeps entry.1 entry.2 h)

/-- The trace is the end of the log: the latest decisions in the order they were appended. -/
theorem trace_latest (config : HybridDispatchConfig) (hvalid : config.valid = true)
    (plans : List (Measured × List HybridDispatchCandidate)) :
    (run config {} [] plans).1.ordered config.maximumTraceDecisions =
      (run config {} [] plans).2.drop
        ((run config {} [] plans).2.length - config.maximumTraceDecisions) := by
  have hcapacity : 0 < config.maximumTraceDecisions := by
    simp only [HybridDispatchConfig.valid, Bool.and_eq_true, decide_eq_true_eq] at hvalid
    exact Nat.pos_of_ne_zero hvalid.2
  exact (run_keeps plans (Ring.keeps_nil hcapacity)).ordered

/-- Three plans for one expert each, with room for two decisions. -/
def threePlans : List (Measured × List HybridDispatchCandidate) :=
  [7, 3, 5].map fun expert => (⟨fun _ => 2, fun _ => 1, fun _ => 1, 0, 0⟩,
    [⟨expert, 1, 8, expert = 3, true, false, 0, 0⟩])

theorem trace_of_three_plans :
    ((run ⟨8, 2, false, false, false, 0⟩ {} [] threePlans).1.ordered 2).map (·.expert) = [3, 5] := by
  rw [trace_latest ⟨8, 2, false, false, false, 0⟩ rfl threePlans]
  decide +kernel

/-! ### The order of the candidates -/

theorem mergeSort_unique {le : HybridDispatchCandidate → HybridDispatchCandidate → Bool}
    (hperm : candidates ~ candidates') (hexperts : (candidates.map (·.expert)).Nodup)
    (htrans : ∀ a b c, le a b → le b c → le a c) (htotal : ∀ a b, le a b || le b a)
    (hanti : ∀ a b, le a b → le b a → a.expert = b.expert) :
    candidates.mergeSort le = candidates'.mergeSort le := by
  have hsort := mergeSort_perm candidates le
  refine (hsort.trans (hperm.trans (mergeSort_perm candidates' le).symm)).eq_of_pairwise
    (fun a b ha hb hle hge => ?_) (pairwise_mergeSort htrans htotal _)
    (pairwise_mergeSort htrans htotal _)
  exact inj_on_of_nodup_map hexperts (mem_mergeSort.1 ha)
    (hperm.mem_iff.2 (mem_mergeSort.1 hb)) (hanti a b hle hge)

theorem byExpert_perm (hperm : candidates ~ candidates')
    (hexperts : (candidates.map (·.expert)).Nodup) : byExpert candidates = byExpert candidates' := by
  refine mergeSort_unique hperm hexperts ?_ ?_ ?_
  all_goals grind

theorem byCost_perm (hperm : candidates ~ candidates')
    (hexperts : (candidates.map (·.expert)).Nodup) :
    candidates.mergeSort (fun left right => !before measured right left) =
      candidates'.mergeSort fun left right => !before measured right left := by
  refine mergeSort_unique hperm hexperts ?_ ?_ ?_
  all_goals
    unfold before
    grind

/-- A plan does not depend on the order in which the candidates are given. -/
theorem plan_perm (hperm : candidates ~ candidates') :
    plan config measured trace candidates = plan config measured trace candidates' := by
  have hempty : candidates = [] ↔ candidates' = [] := by
    rw [← length_eq_zero_iff, ← length_eq_zero_iff, hperm.length_eq]
  have hdistinct : Distinct candidates ↔ Distinct candidates' := by
    simp only [Distinct, hperm.mem_iff, (hperm.map _).nodup_iff]
  unfold plan
  simp only [hperm.length_eq, hempty]
  rcases classify_nil candidates with ⟨haccepted, hsome⟩ | ⟨hrefused, hnone⟩ <;>
    rcases classify_nil candidates' with ⟨haccepted', hsome'⟩ | ⟨hrefused', hnone'⟩
  · have hexperts (keep : HybridDispatchCandidate → Bool) :
        ((candidates.filter keep).map (·.expert)).Nodup :=
      haccepted.2.sublist (filter_sublist.map _)
    have hfixed := byExpert_perm (hperm.filter (!flexible ·)) (hexperts _)
    unfold byExpert at hfixed
    rw [hsome, hsome']
    simp only [place, hfixed, byCost_perm (hperm.filter flexible) (hexperts _)]
  · exact absurd (hdistinct.1 haccepted) hrefused'
  · exact absurd (hdistinct.2 haccepted') hrefused
  · rw [hnone, hnone']

/-- A flexible candidate and a resident one. -/
def twoCandidates : List HybridDispatchCandidate :=
  [⟨7, 1, 8, false, true, true, 0, 0⟩, ⟨3, 1, 8, true, false, false, 0, 0⟩]

def twoMeasured : Measured := ⟨fun _ => 2, fun _ => 1, fun _ => 1, 0, 0⟩

theorem plan_of_two_reversed : plan ⟨8, 2, false, false, false, 0⟩ twoMeasured {} twoCandidates =
    plan ⟨8, 2, false, false, false, 0⟩ twoMeasured {} twoCandidates.reverse :=
  plan_perm (reverse_perm twoCandidates).symm

/-- The decisions of an accepted plan and their candidates, in the order of the experts. -/
theorem plan_accepted (haccepts : Accepts config candidates) : ∃ pairs,
    pairs.map Prod.fst = byExpert candidates ∧
      Decided config measured pairs (plan config measured trace candidates).1 := by
  obtain ⟨pairs, hperm, hdecided, -⟩ := @place_placed config trace measured _ haccepts.2.2.1
  have hsort := mergeSort_perm pairs fun left right => left.1.expert ≤ right.1.expert
  rw [plan_of_accepts haccepts]
  refine ⟨_, ?_, hdecided.status, ?_, fun pair hpair => hdecided.allowed pair (hsort.mem_iff.1 hpair),
    fun pair hpair => hdecided.justified pair (hsort.mem_iff.1 hpair), ?_, ?_, ?_⟩
  · rw [← byExpert_perm hperm ((hperm.map _).nodup_iff.2 haccepts.2.2.2)]
    exact map_mergeSort fun _ _ _ _ => rfl
  · dsimp only
    rw [hdecided.decisions]
    refine (map_mergeSort fun left hleft right hright => ?_).symm
    rw [(hdecided.allowed left hleft).1, (hdecided.allowed right hright).1]
  all_goals rw [spent, (hsort.map _).sum_nat]
  · exact hdecided.cpu
  · exact hdecided.gpu
  · exact hdecided.h2d

/-- An accepted list gets one decision for each candidate, one that the candidate allows, in the
order of the experts. A refused one gets an error and leaves the trace as it was. -/
theorem plan_legal (config : HybridDispatchConfig) (measured : Measured)
    (trace : Ring HybridDispatchDecision) (candidates : List HybridDispatchCandidate) :
    (Accepts config candidates →
      (plan config measured trace candidates).1.status = Status.success ∧
        Forall₂ Allows (byExpert candidates)
          (plan config measured trace candidates).1.decisions) ∧
      (¬Accepts config candidates →
        (plan config measured trace candidates).1.status.ok = false ∧
          (plan config measured trace candidates).1.decisions = [] ∧
          (plan config measured trace candidates).2 = ([], trace)) := by
  refine ⟨fun haccepts => ?_, fun hrefused => ?_⟩
  · obtain ⟨pairs, hpairs, hdecided⟩ := @plan_accepted config trace measured candidates haccepts
    rw [← hpairs, hdecided.decisions]
    exact ⟨hdecided.status, forall₂_map_left_iff.2 (forall₂_map_right_iff.2
      (forall₂_same.2 hdecided.allowed))⟩
  · obtain ⟨status, hstatus, hplan⟩ := @plan_of_refused config trace measured _ hrefused
    rw [hplan]
    exact ⟨hstatus, rfl, rfl⟩

/-- Each decision of a plan is for the executor that its reason names, and the reason holds. -/
theorem plan_justified (config : HybridDispatchConfig) (measured : Measured)
    (trace : Ring HybridDispatchDecision) (candidates : List HybridDispatchCandidate) :
    Forall (Justified config measured) (plan config measured trace candidates).1.decisions := by
  refine forall_iff_forall_mem.2 fun decision hmem => ?_
  by_cases haccepts : Accepts config candidates
  · obtain ⟨pairs, -, hdecided⟩ := @plan_accepted config trace measured _ haccepts
    rw [hdecided.decisions] at hmem
    obtain ⟨pair, hpair, rfl⟩ := mem_map.1 hmem
    exact hdecided.justified pair hpair
  · obtain ⟨status, -, hplan⟩ := @plan_of_refused config trace measured _ haccepts
    rw [hplan] at hmem
    cases hmem

/-- The projections of an accepted plan are what its decisions cost, lane by lane; the critical path
is the longer one. -/
theorem plan_projects (trace : Ring HybridDispatchDecision) (haccepts : Accepts config candidates) :
    let result := (plan config measured trace candidates).1
    let pairs := (byExpert candidates).zip result.decisions
    Saturates result.projectedCpuNs (spent measured.cpuCost [.cpuLocal] pairs) ∧
      Saturates result.projectedGpuNs (spent measured.gpuCost [.gpuResident, .gpuUpload] pairs) ∧
      Saturates result.projectedH2dNs (spent measured.h2dCost [.gpuUpload] pairs) ∧
      result.projectedCriticalNs = max result.projectedCpuNs
        (saturatingAdd result.projectedH2dNs result.projectedGpuNs) := by
  obtain ⟨pairs, hpairs, hdecided⟩ := @plan_accepted config trace measured candidates haccepts
  dsimp only
  rw [← hpairs, hdecided.decisions, ← unzip_fst, ← unzip_snd, zip_unzip]
  refine ⟨hdecided.cpu, hdecided.gpu, hdecided.h2d, ?_⟩
  rw [plan_of_accepts haccepts]

theorem plan_of_two_projects :
    (plan ⟨8, 2, false, false, false, 0⟩ twoMeasured {} twoCandidates).1.projectedCriticalNs = 2 := by
  have hprojects := @plan_projects ⟨8, 2, false, false, false, 0⟩ twoMeasured twoCandidates {}
    ⟨by decide, by decide, by simp [twoCandidates, Usable], by decide⟩
  rw [hprojects.2.2.2]
  decide +kernel

end

end QuantumLlm.Runtime.HybridDispatch
