import Mathlib.Algebra.BigOperators.Ring.List
import QuantumLlm.Lib.Run
import QuantumLlm.Lib.Tally
import QuantumLlm.Runtime.RouteCensus.State

/-!
# Consistency of the census

The identities between the counters that a stored census is checked for hold of
a fresh census, and every observation keeps them as long as no counter reaches
its maximum.
-/

namespace QuantumLlm.Runtime.RouteCensus

open List

theorem kMaximumU64_toNat : kMaximumU64.toNat = 2 ^ 64 - 1 := rfl

theorem saturatedAdd_toNat (left right : UInt64) :
    (saturatedAdd left right).toNat = min (left.toNat + right.toNat) (2 ^ 64 - 1) := by
  have hleft := left.toNat_lt
  have hright := right.toNat_lt
  have hmax := kMaximumU64_toNat
  have hsub : (kMaximumU64 - left).toNat = 2 ^ 64 - 1 - left.toNat := by
    rw [UInt64.toNat_sub_of_le, hmax]
    rw [UInt64.le_iff_toNat_le, hmax]
    omega
  unfold saturatedAdd
  split
  next h =>
      rw [gt_iff_lt, UInt64.lt_iff_toNat_lt, hsub] at h
      rw [hmax]
      omega
  next h =>
      rw [gt_iff_lt, UInt64.lt_iff_toNat_lt, hsub] at h
      rw [UInt64.toNat_add]
      omega

/-- Adding up the values from zero. -/
def saturatedSum (values : List UInt64) : UInt64 := values.foldl saturatedAdd 0

theorem foldl_saturatedAdd_toNat (values : List UInt64) (start : UInt64) :
    (values.foldl saturatedAdd start).toNat =
      min (start.toNat + (values.map UInt64.toNat).sum) (2 ^ 64 - 1) := by
  induction values generalizing start with
  | nil =>
    have hstart := start.toNat_lt
    simp only [foldl_nil, map_nil, sum_nil]
    omega
  | cons value rest ih =>
    rw [foldl_cons, ih, saturatedAdd_toNat, map_cons, sum_cons]
    omega

theorem saturatedSum_toNat (values : List UInt64) :
    (saturatedSum values).toNat = min (values.map UInt64.toNat).sum (2 ^ 64 - 1) := by
  rw [saturatedSum, foldl_saturatedAdd_toNat]
  simp

variable {values : List UInt64} {total : UInt64} {cell : Cell} {config : RouteCensusConfig}
  {state : LayerState} {after : RouteCensus} {observation : Observation}

theorem saturatedSum_eq_iff (htotal : total.toNat < 2 ^ 64 - 1) :
    saturatedSum values = total ↔ (values.map UInt64.toNat).sum = total.toNat := by
  rw [← UInt64.toNat_inj, saturatedSum_toNat]
  omega

theorem saturatedSum_of_sum
    (h : (values.map UInt64.toNat).sum = total.toNat) : saturatedSum values = total := by
  have htotal := total.toNat_lt
  rw [← UInt64.toNat_inj, saturatedSum_toNat]
  omega

/-- The cell that `decode_file` rejects. -/
def Cell.invalid (observation : UInt64) (cell : Cell) : Bool :=
  cell.heatObservation > observation || cell.lastSeen > observation ||
    cell.cpu + cell.gpu < cell.cpu || cell.cpu + cell.gpu ≠ cell.total

/-- The layer state that `decode_file` rejects. -/
def LayerState.invalid (config : RouteCensusConfig) (layer : LayerState) : Bool :=
  layer.observations > kMaximumU64 / config.routeWidth.toUInt64 ||
    layer.consecutiveReuse > layer.observations * config.routeWidth.toUInt64

theorem Cell.invalid_iff {observation : UInt64} :
    cell.invalid observation = false ↔
      cell.heatObservation.toNat ≤ observation.toNat ∧ cell.lastSeen.toNat ≤ observation.toNat ∧
        cell.cpu.toNat + cell.gpu.toNat = cell.total.toNat := by
  have hcpu := cell.cpu.toNat_lt
  have hgpu := cell.gpu.toNat_lt
  have htotal := cell.total.toNat_lt
  simp only [Cell.invalid, Bool.or_eq_false_iff, decide_eq_false_iff_not, gt_iff_lt,
    UInt64.lt_iff_toNat_lt, ne_eq, not_not, ← UInt64.toNat_inj, UInt64.toNat_add]
  omega

theorem width_toUInt64 (config : RouteCensusConfig) :
    config.routeWidth.toUInt64.toNat = config.width :=
  UInt32.toNat_toUInt64 _

theorem LayerState.invalid_iff {layer : LayerState} (hwidth : 0 < config.width) :
    layer.invalid config = false ↔ layer.observations.toNat * config.width < 2 ^ 64 ∧
      layer.consecutiveReuse.toNat ≤ layer.observations.toNat * config.width := by
  have hbound : layer.observations.toNat ≤ (2 ^ 64 - 1) / config.width ↔
      layer.observations.toNat * config.width < 2 ^ 64 := by
    rw [Nat.le_div_iff_mul_le hwidth]
    omega
  simp only [LayerState.invalid, Bool.or_eq_false_iff, decide_eq_false_iff_not, gt_iff_lt,
    UInt64.lt_iff_toNat_lt, not_lt, UInt64.toNat_div, UInt64.toNat_mul, width_toUInt64,
    kMaximumU64_toNat, hbound]
  constructor
  · rintro ⟨hobserved, hreuse⟩
    rw [Nat.mod_eq_of_lt hobserved] at hreuse
    exact ⟨hobserved, hreuse⟩
  · rintro ⟨hobserved, hreuse⟩
    rw [Nat.mod_eq_of_lt hobserved]
    exact ⟨hobserved, hreuse⟩

/-- The identities that `decode_file` checks. -/
structure Consistent (census : RouteCensus) : Prop where
  cellCount : census.cells.length = census.config.cellCount
  layerCount : census.layers.length = census.config.layers
  transitionCount : census.transitions.length = census.config.transitionCount
  routes : ∀ layer ∈ census.layers, layer.previousRoute.length = census.config.width ∧
    ∀ expert ∈ layer.previousRoute, expert < census.config.expertsPerLayer
  cells : ∀ cell ∈ census.cells, cell.invalid census.observation = false
  layers : ∀ layer ∈ census.layers, layer.invalid census.config = false
  completed : census.observation = census.completedRoutes
  observed : saturatedSum (census.layers.map (·.observations)) = census.completedRoutes
  selected : saturatedSum (census.cells.map (·.total)) = census.totalSelections
  reuse : saturatedSum (census.layers.map (·.consecutiveReuse)) =
    census.consecutiveReuseSelections

/-- After so many more observations no counter has reached `2 ^ 64`. -/
def Headroom (census : RouteCensus) (observations : Nat) : Prop :=
  census.totalSelections.toNat + observations * census.config.width < 2 ^ 64 ∧
    (census.completedRoutes.toNat + observations) * census.config.width < 2 ^ 64

theorem width_pos (h : config.valid = true) : 0 < config.width := by
  simp only [RouteCensusConfig.valid, Bool.and_eq_true, decide_eq_true_eq] at h
  have hwidth : config.routeWidth ≠ 0 := by tauto
  rw [ne_eq, ← UInt32.toNat_inj] at hwidth
  exact Nat.pos_of_ne_zero hwidth

theorem experts_pos (h : config.valid = true) :
    0 < config.expertsPerLayer := by
  simp only [RouteCensusConfig.valid, Bool.and_eq_true, decide_eq_true_eq] at h
  have hexperts : config.expertsPerLayer ≠ 0 := by tauto
  exact UInt32.pos_iff_ne_zero.2 hexperts

theorem consistent_fresh (h : config.valid = true) :
    Consistent (fresh config h) where
  cellCount := length_replicate
  layerCount := length_replicate
  transitionCount := length_replicate
  routes := by
    intro layer hlayer
    rw [eq_of_mem_replicate hlayer]
    refine ⟨length_replicate, ?_⟩
    intro expert hexpert
    rw [eq_of_mem_replicate hexpert]
    exact experts_pos h
  cells := by
    intro cell hcell
    rw [eq_of_mem_replicate hcell]
    exact Cell.invalid_iff.2 ⟨Nat.zero_le _, Nat.zero_le _, rfl⟩
  layers := by
    intro layer hlayer
    rw [eq_of_mem_replicate hlayer]
    apply (LayerState.invalid_iff (width_pos h)).2
    constructor
    · show 0 * _ < _
      omega
    · exact Nat.zero_le _
  completed := rfl
  observed := saturatedSum_of_sum (by simp [fresh])
  selected := saturatedSum_of_sum (by simp [fresh])
  reuse := saturatedSum_of_sum (by simp [fresh])

/-! ## What an observation changes -/

variable {census : RouteCensus} {layer : UInt32} {routedExperts cpuExperts : List UInt32}

theorem saturatedAdd_zero (value : UInt64) : saturatedAdd value 0 = value := by
  have hvalue := value.toNat_lt
  rw [← UInt64.toNat_inj, saturatedAdd_toNat, UInt64.toNat_zero]
  omega

theorem saturatedAdd_succ {value : UInt64} {count : Nat} (hcount : count + 1 < 2 ^ 64) :
    saturatedAdd (saturatedAdd value 1) (UInt64.ofNat count) =
      saturatedAdd value (UInt64.ofNat (count + 1)) := by
  rw [← UInt64.toNat_inj]
  simp only [saturatedAdd_toNat, UInt64.toNat_ofNat', Nat.mod_eq_of_lt hcount,
    Nat.mod_eq_of_lt (show count < 2 ^ 64 by omega)]
  show min (min (value.toNat + 1) _ + count) _ = _
  omega

theorem foldl_linked (previous : UInt32) : ∃ transitions : List UInt32,
    transitions.length = census.transitions.length ∧
      routedExperts.foldl (linked layer previous) census = { census with transitions } := by
  induction routedExperts generalizing census with
  | nil => exact ⟨_, rfl, rfl⟩
  | cons expert rest ih =>
    obtain ⟨transitions, hlength, hfold⟩ := @ih (linked layer previous census expert)
    refine ⟨transitions, ?_, ?_⟩
    · rw [hlength]
      exact length_modify _ _ _
    · rw [foldl_cons, hfold]
      rfl

theorem foldl_foldl_linked (previousRoute : List UInt32) : ∃ transitions : List UInt32,
    transitions.length = census.transitions.length ∧
      previousRoute.foldl (fun census previous => routedExperts.foldl (linked layer previous) census)
        census = { census with transitions } := by
  induction previousRoute generalizing census with
  | nil => exact ⟨_, rfl, rfl⟩
  | cons previous rest ih =>
    obtain ⟨middle, hmiddle, hfirst⟩ := @foldl_linked census layer routedExperts previous
    obtain ⟨transitions, hlength, hfold⟩ := @ih { census with transitions := middle }
    refine ⟨transitions, hlength.trans hmiddle, ?_⟩
    rw [foldl_cons, hfirst, hfold]

/-- Reuse of so many experts. -/
def reuseCounted (census : RouteCensus) (layer : UInt32) (count : Nat) : RouteCensus :=
  { census with
    layers := census.layers.modify layer.toNat fun state =>
      { state with consecutiveReuse := saturatedAdd state.consecutiveReuse (UInt64.ofNat count) }
    consecutiveReuseSelections :=
      saturatedAdd census.consecutiveReuseSelections (UInt64.ofNat count) }

theorem reuseCounted_zero : census.reuseCounted layer 0 = census := by
  have hzero : UInt64.ofNat 0 = 0 := rfl
  simp only [reuseCounted, hzero, saturatedAdd_zero]
  rw [show (fun state : LayerState => state) = id from rfl, modify_id]

theorem foldl_reused (previousRoute : List UInt32) (hlong : routedExperts.length < 2 ^ 64) :
    ∃ count ≤ routedExperts.length,
      routedExperts.foldl (reused layer previousRoute) census = census.reuseCounted layer count := by
  induction routedExperts generalizing census with
  | nil => exact ⟨0, Nat.le_refl _, reuseCounted_zero.symm⟩
  | cons expert rest ih =>
    rw [length_cons] at hlong
    obtain ⟨count, hcount, hfold⟩ :=
      @ih (reused layer previousRoute census expert) (by omega)
    rw [foldl_cons, hfold]
    by_cases hmem : expert ∈ previousRoute
    · refine ⟨count + 1, Nat.succ_le_succ hcount, ?_⟩
      have hsum := fun value => @saturatedAdd_succ value count (by omega)
      rw [reused, if_pos hmem]
      simp only [reuseCounted, modify_modify_eq, Function.comp_def, hsum]
    · refine ⟨count, Nat.le_succ_of_le hcount, ?_⟩
      rw [reused, if_neg hmem]

/-- A layer that has observed one more route. -/
def LayerState.observed (routedExperts : List UInt32) (count : Nat) (state : LayerState) :
    LayerState where
  observations := saturatedAdd state.observations 1
  consecutiveReuse := saturatedAdd state.consecutiveReuse (UInt64.ofNat count)
  previousRoute := routedExperts

theorem remembered_followed (hlong : routedExperts.length < 2 ^ 64) :
    ∃ (transitions : List UInt32) (count : Nat),
      transitions.length = census.transitions.length ∧ count ≤ routedExperts.length ∧
      (census.followed layer routedExperts).remembered layer routedExperts =
        { census with
          transitions
          layers := census.layers.modify layer.toNat (LayerState.observed routedExperts count)
          consecutiveReuseSelections :=
            saturatedAdd census.consecutiveReuseSelections (UInt64.ofNat count) } := by
  have hshape : ∃ (transitions : List UInt32) (count : Nat),
      transitions.length = census.transitions.length ∧ count ≤ routedExperts.length ∧
      census.followed layer routedExperts =
        ({ census with transitions } : RouteCensus).reuseCounted layer count := by
    unfold followed
    simp only
    split
    next =>
      obtain ⟨transitions, hlength, hlinked⟩ := @foldl_foldl_linked census layer routedExperts
        (census.layerAt layer).previousRoute
      rw [hlinked]
      obtain ⟨count, hcount, hreused⟩ := @foldl_reused { census with transitions } layer
        routedExperts (census.layerAt layer).previousRoute hlong
      exact ⟨transitions, count, hlength, hcount, hreused⟩
    next => exact ⟨_, 0, rfl, Nat.zero_le _, reuseCounted_zero.symm⟩
  obtain ⟨transitions, count, hlength, hcount, hfollowed⟩ := hshape
  refine ⟨transitions, count, hlength, hcount, ?_⟩
  rw [hfollowed]
  simp only [remembered, reuseCounted, modify_modify_eq]
  rfl

/-- The cells of an observed route. -/
def cellsTouched (census : RouteCensus) (layer : UInt32) (cpuExperts : List UInt32)
    (routedExperts : List UInt32) (cells : List Cell) : List Cell :=
  routedExperts.foldl (fun cells expert => cells.modify (census.cellIndex layer expert)
    (census.touchedCell (expert ∈ cpuExperts))) cells

theorem foldl_touched (cells : List Cell) :
    routedExperts.foldl (touched layer cpuExperts) { census with cells } =
      { census with cells := census.cellsTouched layer cpuExperts routedExperts cells } := by
  induction routedExperts generalizing cells with
  | nil => rfl
  | cons expert rest ih => exact ih _

theorem foldl_touched_remembered (hlong : routedExperts.length < 2 ^ 64) :
    ∃ (transitions : List UInt32) (count : Nat),
      transitions.length = census.transitions.length ∧ count ≤ routedExperts.length ∧
      routedExperts.foldl (touched layer cpuExperts)
          ((census.followed layer routedExperts).remembered layer routedExperts) =
        { census with
          transitions
          layers := census.layers.modify layer.toNat (LayerState.observed routedExperts count)
          consecutiveReuseSelections :=
            saturatedAdd census.consecutiveReuseSelections (UInt64.ofNat count)
          cells := census.cellsTouched layer cpuExperts routedExperts census.cells } := by
  obtain ⟨transitions, count, hlength, hcount, hremembered⟩ :=
    @remembered_followed census layer routedExperts hlong
  refine ⟨transitions, count, hlength, hcount, ?_⟩
  rw [hremembered]
  exact @foldl_touched
    { census with
      transitions
      layers := census.layers.modify layer.toNat (LayerState.observed routedExperts count)
      consecutiveReuseSelections :=
        saturatedAdd census.consecutiveReuseSelections (UInt64.ofNat count) }
    layer routedExperts cpuExperts census.cells

/-! ## An observation keeps the identities -/

theorem saturatedAdd_one {value : UInt64} (hroom : value.toNat + 1 < 2 ^ 64) :
    (saturatedAdd value 1).toNat = value.toNat + 1 := by
  rw [saturatedAdd_toNat, UInt64.toNat_one]
  omega

theorem touchedCell_total (onCpu : Bool) (hroom : cell.total.toNat + 1 < 2 ^ 64) :
    (census.touchedCell onCpu cell).total.toNat = cell.total.toNat + 1 := by
  simp only [touchedCell]
  exact saturatedAdd_one hroom

theorem touchedCell_valid (onCpu : Bool) (hroom : cell.total.toNat + 1 < 2 ^ 64)
    (hcell : cell.invalid census.observation = false) :
    (census.touchedCell onCpu cell).invalid census.observation = false := by
  rw [Cell.invalid_iff] at hcell ⊢
  refine ⟨Nat.le_refl _, Nat.le_refl _, ?_⟩
  rw [touchedCell_total onCpu hroom]
  cases onCpu with
  | true =>
    have hcpu : (saturatedAdd cell.cpu 1).toNat = cell.cpu.toNat + 1 :=
      saturatedAdd_one (by omega)
    simp only [touchedCell, if_true, hcpu]
    omega
  | false =>
    have hgpu : (saturatedAdd cell.gpu 1).toNat = cell.gpu.toNat + 1 :=
      saturatedAdd_one (by omega)
    simp only [touchedCell, Bool.false_eq_true, if_false, hgpu]
    omega

theorem Cell.invalid_mono {earlier later : UInt64} (hle : earlier ≤ later)
    (hcell : cell.invalid earlier = false) : cell.invalid later = false := by
  rw [Cell.invalid_iff] at hcell ⊢
  rw [UInt64.le_iff_toNat_le] at hle
  omega

theorem cellsTouched_cons {expert : UInt32} {cells : List Cell} :
    census.cellsTouched layer cpuExperts (expert :: routedExperts) cells =
      census.cellsTouched layer cpuExperts routedExperts
        (cells.modify (census.cellIndex layer expert)
          (census.touchedCell (expert ∈ cpuExperts))) := rfl

/-- Sum of the selections of all cells. -/
def cellSum (cells : List Cell) : Nat := (cells.map fun cell => cell.total.toNat).sum

theorem cellsTouched_spec {cells : List Cell}
    (hindex : ∀ expert ∈ routedExperts, census.cellIndex layer expert < cells.length)
    (hroom : cellSum cells + routedExperts.length < 2 ^ 64)
    (hcells : ∀ cell ∈ cells, cell.invalid census.observation = false) :
    (census.cellsTouched layer cpuExperts routedExperts cells).length = cells.length ∧
      cellSum (census.cellsTouched layer cpuExperts routedExperts cells) =
        cellSum cells + routedExperts.length ∧
      ∀ cell ∈ census.cellsTouched layer cpuExperts routedExperts cells,
        cell.invalid census.observation = false := by
  induction routedExperts generalizing cells with
  | nil => exact ⟨rfl, rfl, hcells⟩
  | cons expert rest ih =>
    rw [length_cons] at hroom
    rw [forall_mem_cons] at hindex
    have hbelow : ∀ cell ∈ cells, cell.total.toNat + 1 < 2 ^ 64 := by
      intro cell hcell
      have hle : cell.total.toNat ≤ cellSum cells :=
        @le_sum_map _ cells (fun cell => cell.total.toNat) cell hcell
      omega
    have hsum : cellSum (cells.modify (census.cellIndex layer expert)
        (census.touchedCell (expert ∈ cpuExperts))) = cellSum cells + 1 :=
      sum_map_modify hindex.1 fun cell hcell => touchedCell_total _ (hbelow cell hcell)
    have hvalid := @forall_mem_modify _ cells (census.cellIndex layer expert)
      (census.touchedCell (expert ∈ cpuExperts)) _ hcells
      fun cell hcell => touchedCell_valid _ (hbelow cell hcell) (hcells cell hcell)
    have hlength := length_modify (census.touchedCell (expert ∈ cpuExperts)) cells
      (census.cellIndex layer expert)
    obtain ⟨hlength', hsum', hvalid'⟩ :=
      ih (by rw [hlength]; exact hindex.2) (by omega) hvalid
    rw [cellsTouched_cons]
    refine ⟨hlength'.trans hlength, ?_, hvalid'⟩
    rw [hsum', hsum, length_cons]
    omega

section

variable (observation completedRoutes totalSelections : UInt64)

@[simp] theorem setCounters_config :
    (census.setCounters observation completedRoutes totalSelections).config = census.config := rfl

@[simp] theorem setCounters_cells :
    (census.setCounters observation completedRoutes totalSelections).cells = census.cells := rfl

@[simp] theorem setCounters_layers :
    (census.setCounters observation completedRoutes totalSelections).layers = census.layers := rfl

@[simp] theorem setCounters_transitions :
    (census.setCounters observation completedRoutes totalSelections).transitions =
      census.transitions := rfl

@[simp] theorem setCounters_generation :
    (census.setCounters observation completedRoutes totalSelections).generation =
      census.generation := rfl

@[simp] theorem setCounters_observation :
    (census.setCounters observation completedRoutes totalSelections).observation =
      observation := rfl

@[simp] theorem setCounters_completedRoutes :
    (census.setCounters observation completedRoutes totalSelections).completedRoutes =
      completedRoutes := rfl

@[simp] theorem setCounters_totalSelections :
    (census.setCounters observation completedRoutes totalSelections).totalSelections =
      totalSelections := rfl

@[simp] theorem setCounters_reuse :
    (census.setCounters observation completedRoutes totalSelections).consecutiveReuseSelections =
      census.consecutiveReuseSelections := rfl

end

theorem counted_counters (hroom : Headroom census 1) (hcompleted :
    census.observation = census.completedRoutes)
    (hlength : routedExperts.length = census.config.width) :
    (census.counted (UInt64.ofNat routedExperts.length)).observation.toNat =
        census.observation.toNat + 1 ∧
      (census.counted (UInt64.ofNat routedExperts.length)).completedRoutes.toNat =
        census.completedRoutes.toNat + 1 ∧
      (census.counted (UInt64.ofNat routedExperts.length)).totalSelections.toNat =
        census.totalSelections.toNat + census.config.width := by
  obtain ⟨hselections, hroutes⟩ := hroom
  have hwidth := width_pos census.configValid
  have hsmall : census.config.width < 2 ^ 32 := census.config.routeWidth.toNat_lt
  have hcount : census.completedRoutes.toNat + 1 < 2 ^ 64 :=
    Nat.lt_of_le_of_lt (Nat.le_mul_of_pos_right _ hwidth) hroutes
  have hobserved : census.observation.toNat + 1 < 2 ^ 64 := by
    rw [hcompleted]
    exact hcount
  rw [counted, setCounters_observation, setCounters_completedRoutes, setCounters_totalSelections]
  refine ⟨saturatedAdd_one hobserved, saturatedAdd_one hcount, ?_⟩
  rw [saturatedAdd_toNat, UInt64.toNat_ofNat', hlength, Nat.mod_eq_of_lt (by omega)]
  omega

theorem mul_add_lt {rows columns row column : Nat} (hrow : row < rows) (hcolumn : column < columns) :
    row * columns + column < rows * columns := by
  have hrows : (row + 1) * columns ≤ rows * columns := Nat.mul_le_mul_right _ hrow
  rw [Nat.add_one_mul] at hrows
  omega

section

variable (h : Consistent census) (hroom : Headroom census 1)
include h hroom

theorem Consistent.cellSum_eq : cellSum census.cells = census.totalSelections.toNat := by
  have hwidth := width_pos census.configValid
  have hlt : census.totalSelections.toNat < 2 ^ 64 - 1 := by
    have := hroom.1
    omega
  have hsum := (saturatedSum_eq_iff hlt).1 h.selected
  rw [map_map] at hsum
  exact hsum

theorem Consistent.observationSum_eq :
    (census.layers.map fun state => state.observations.toNat).sum =
      census.completedRoutes.toNat := by
  have hlt : census.completedRoutes.toNat < 2 ^ 64 - 1 := by
    have hle := Nat.le_mul_of_pos_right (census.completedRoutes.toNat + 1)
      (width_pos census.configValid)
    have := hroom.2
    omega
  have hsum := (saturatedSum_eq_iff hlt).1 h.observed
  rw [map_map] at hsum
  exact hsum

theorem Consistent.reuseSum_le :
    (census.layers.map fun state => state.consecutiveReuse.toNat).sum ≤
      census.completedRoutes.toNat * census.config.width := by
  rw [← h.observationSum_eq hroom, ← sum_map_mul_right]
  apply sum_le_sum
  intro state hstate
  exact ((LayerState.invalid_iff (width_pos census.configValid)).1 (h.layers state hstate)).2

theorem Consistent.reuseSum_eq :
    (census.layers.map fun state => state.consecutiveReuse.toNat).sum =
      census.consecutiveReuseSelections.toNat := by
  have hle := h.reuseSum_le hroom
  have hwidth := width_pos census.configValid
  have hlt := hroom.2
  rw [Nat.add_one_mul] at hlt
  have hsum := congrArg UInt64.toNat h.reuse
  rw [saturatedSum_toNat, map_map] at hsum
  simp only [Function.comp_def] at hsum
  omega

end

/-- A census whose counters are one observation ahead of its tables. -/
structure Counted (census : RouteCensus) : Prop where
  cellCount : census.cells.length = census.config.cellCount
  layerCount : census.layers.length = census.config.layers
  transitionCount : census.transitions.length = census.config.transitionCount
  routes : ∀ layer ∈ census.layers, layer.previousRoute.length = census.config.width ∧
    ∀ expert ∈ layer.previousRoute, expert < census.config.expertsPerLayer
  cells : ∀ cell ∈ census.cells, cell.invalid census.observation = false
  layers : ∀ layer ∈ census.layers, layer.invalid census.config = false
  completed : census.observation = census.completedRoutes
  observed : (census.layers.map fun state => state.observations.toNat).sum + 1 =
    census.completedRoutes.toNat
  selected : cellSum census.cells + census.config.width = census.totalSelections.toNat
  reuse : (census.layers.map fun state => state.consecutiveReuse.toNat).sum =
    census.consecutiveReuseSelections.toNat
  reuseBound : census.consecutiveReuseSelections.toNat + census.config.width < 2 ^ 64
  routeBound : census.completedRoutes.toNat * census.config.width < 2 ^ 64

theorem observed_toNat {state : LayerState} {count : Nat}
    (hobserved : state.observations.toNat + 1 < 2 ^ 64)
    (hreuse : state.consecutiveReuse.toNat + count < 2 ^ 64) :
    (state.observed routedExperts count).observations.toNat = state.observations.toNat + 1 ∧
      (state.observed routedExperts count).consecutiveReuse.toNat =
        state.consecutiveReuse.toNat + count := by
  simp only [LayerState.observed]
  refine ⟨saturatedAdd_one hobserved, ?_⟩
  rw [saturatedAdd_toNat, UInt64.toNat_ofNat', Nat.mod_eq_of_lt (by omega)]
  omega

theorem Counted.layer_lt (h : Counted census) (hstate : state ∈ census.layers) :
    (state.observations.toNat + 1) * census.config.width < 2 ^ 64 ∧
      state.consecutiveReuse.toNat + census.config.width < 2 ^ 64 := by
  have hobserved : state.observations.toNat ≤ _ :=
    @le_sum_map _ census.layers (fun state => state.observations.toNat) state hstate
  have hreuse : state.consecutiveReuse.toNat ≤ _ :=
    @le_sum_map _ census.layers (fun state => state.consecutiveReuse.toNat) state hstate
  have hsum := h.observed
  have hbound := h.reuseBound
  rw [← h.reuse] at hbound
  constructor
  · apply Nat.lt_of_le_of_lt _ h.routeBound
    apply Nat.mul_le_mul_right
    omega
  · omega

theorem LayerState.observed_valid (h : Counted census)
    (hstate : state ∈ census.layers) {count : Nat} (hcount : count ≤ census.config.width) :
    (state.observed routedExperts count).invalid census.config = false := by
  have hwidth := width_pos census.configValid
  obtain ⟨hroutes, hreuse⟩ := h.layer_lt hstate
  have hlt : state.observations.toNat + 1 < 2 ^ 64 :=
    Nat.lt_of_le_of_lt (Nat.le_mul_of_pos_right _ hwidth) hroutes
  have hbefore := ((LayerState.invalid_iff hwidth).1 (h.layers state hstate)).2
  obtain ⟨hobservations, hconsecutive⟩ :=
    @observed_toNat routedExperts state count hlt (by omega)
  rw [LayerState.invalid_iff hwidth, hobservations, hconsecutive]
  refine ⟨hroutes, ?_⟩
  rw [Nat.add_one_mul]
  omega

theorem Counted.consistent (h : Counted census) (hlayer : layer < census.config.layerCount)
    (hlength : routedExperts.length = census.config.width)
    (hexperts : ∀ expert ∈ routedExperts, expert < census.config.expertsPerLayer) :
    Consistent (routedExperts.foldl (touched layer cpuExperts)
      ((census.followed layer routedExperts).remembered layer routedExperts)) := by
  have hsmall : census.config.width < 2 ^ 32 := census.config.routeWidth.toNat_lt
  obtain ⟨transitions, count, htransitions, hcount, heq⟩ :=
    @foldl_touched_remembered census layer routedExperts cpuExperts (by omega)
  rw [hlength] at hcount
  have hlayerIndex : layer.toNat < census.config.layers := UInt32.lt_iff_toNat_lt.1 hlayer
  have hindex : ∀ expert ∈ routedExperts, census.cellIndex layer expert < census.cells.length := by
    intro expert hexpert
    rw [h.cellCount]
    exact mul_add_lt hlayerIndex (UInt32.lt_iff_toNat_lt.1 (hexperts expert hexpert))
  have hselected := h.selected
  have htotal := census.totalSelections.toNat_lt
  obtain ⟨hcellCount, hcellSum, hcells⟩ :=
    @cellsTouched_spec census layer routedExperts cpuExperts census.cells hindex (by omega) h.cells
  have hwidth := width_pos census.configValid
  have hstep : ∀ state ∈ census.layers,
      (state.observed routedExperts count).observations.toNat = state.observations.toNat + 1 ∧
        (state.observed routedExperts count).consecutiveReuse.toNat =
          state.consecutiveReuse.toNat + count := by
    intro state hstate
    obtain ⟨hroutes, hreuse⟩ := h.layer_lt hstate
    apply observed_toNat
    · exact Nat.lt_of_le_of_lt (Nat.le_mul_of_pos_right _ hwidth) hroutes
    · omega
  have hposition : layer.toNat < census.layers.length := h.layerCount ▸ hlayerIndex
  have hobservations := @sum_map_modify _ census.layers layer.toNat
    (LayerState.observed routedExperts count) (fun state => state.observations.toNat) 1 hposition
    fun state hstate => (hstep state hstate).1
  have hreuse := @sum_map_modify _ census.layers layer.toNat
    (LayerState.observed routedExperts count) (fun state => state.consecutiveReuse.toNat) count
    hposition fun state hstate => (hstep state hstate).2
  have hcounter : (saturatedAdd census.consecutiveReuseSelections (UInt64.ofNat count)).toNat =
      census.consecutiveReuseSelections.toNat + count := by
    have hbound := h.reuseBound
    rw [saturatedAdd_toNat, UInt64.toNat_ofNat', Nat.mod_eq_of_lt (by omega)]
    omega
  rw [heq]
  constructor
  case cellCount => exact hcellCount.trans h.cellCount
  case layerCount => exact (length_modify _ _ _).trans h.layerCount
  case transitionCount => exact htransitions.trans h.transitionCount
  case routes => exact forall_mem_modify h.routes fun state _ => ⟨hlength, hexperts⟩
  case cells => exact hcells
  case layers =>
    exact forall_mem_modify h.layers fun state hstate => LayerState.observed_valid h hstate hcount
  case completed => exact h.completed
  case observed =>
    apply saturatedSum_of_sum
    rw [map_map]
    exact hobservations.trans h.observed
  case selected =>
    apply saturatedSum_of_sum
    rw [map_map]
    exact hcellSum.trans (hlength ▸ h.selected)
  case reuse =>
    apply saturatedSum_of_sum
    rw [map_map, hcounter, ← h.reuse]
    exact hreuse

theorem Consistent.counted (h : Consistent census) (hroom : Headroom census 1)
    (hlength : routedExperts.length = census.config.width) :
    Counted (census.counted (UInt64.ofNat routedExperts.length)) := by
  obtain ⟨hobservation, hcompleted, hselections⟩ := counted_counters hroom h.completed hlength
  have hle : census.observation ≤
      (census.counted (UInt64.ofNat routedExperts.length)).observation := by
    rw [UInt64.le_iff_toNat_le, hobservation]
    omega
  have hreuse := h.reuseSum_le hroom
  rw [h.reuseSum_eq hroom] at hreuse
  have hroutes := hroom.2
  rw [RouteCensus.counted] at hobservation hcompleted hselections hle ⊢
  constructor
  case cellCount =>
    rw [setCounters_cells, setCounters_config]
    exact h.cellCount
  case layerCount =>
    rw [setCounters_layers, setCounters_config]
    exact h.layerCount
  case transitionCount =>
    rw [setCounters_transitions, setCounters_config]
    exact h.transitionCount
  case routes =>
    rw [setCounters_layers, setCounters_config]
    exact h.routes
  case cells =>
    rw [setCounters_cells]
    exact fun cell hcell => Cell.invalid_mono hle (h.cells cell hcell)
  case layers =>
    rw [setCounters_layers, setCounters_config]
    exact h.layers
  case completed =>
    rw [← UInt64.toNat_inj, hobservation, hcompleted, h.completed]
  case observed =>
    rw [hcompleted, ← h.observationSum_eq hroom, setCounters_layers]
  case selected =>
    rw [hselections, ← h.cellSum_eq hroom, setCounters_cells, setCounters_config]
  case reuse =>
    rw [setCounters_layers, setCounters_reuse]
    exact h.reuseSum_eq hroom
  case reuseBound =>
    rw [setCounters_reuse, setCounters_config]
    rw [Nat.add_one_mul] at hroutes
    omega
  case routeBound =>
    rw [hcompleted, setCounters_config]
    exact hroutes

theorem Consistent.recorded (h : Consistent census) (hroom : Headroom census 1)
    (hlayer : layer < census.config.layerCount)
    (hlength : routedExperts.length = census.config.width)
    (hexperts : ∀ expert ∈ routedExperts, expert < census.config.expertsPerLayer) :
    Consistent (census.recorded layer routedExperts cpuExperts) := by
  have hcounted := h.counted hroom hlength
  unfold RouteCensus.recorded
  simp only
  rw [RouteCensus.counted] at hcounted ⊢
  apply hcounted.consistent
  · rwa [setCounters_config]
  · rwa [setCounters_config]
  · rwa [setCounters_config]

theorem recorded_counters (hroom : Headroom census 1)
    (hcompleted : census.observation = census.completedRoutes)
    (hlength : routedExperts.length = census.config.width) :
    (census.recorded layer routedExperts cpuExperts).config = census.config ∧
      (census.recorded layer routedExperts cpuExperts).generation = census.generation ∧
      (census.recorded layer routedExperts cpuExperts).completedRoutes.toNat =
        census.completedRoutes.toNat + 1 ∧
      (census.recorded layer routedExperts cpuExperts).totalSelections.toNat =
        census.totalSelections.toNat + census.config.width := by
  have hsmall : census.config.width < 2 ^ 32 := census.config.routeWidth.toNat_lt
  obtain ⟨-, hroutes, hselections⟩ := counted_counters hroom hcompleted hlength
  obtain ⟨transitions, count, -, -, heq⟩ := @foldl_touched_remembered
    (census.counted (UInt64.ofNat routedExperts.length)) layer routedExperts cpuExperts (by omega)
  unfold RouteCensus.recorded
  simp only [heq]
  rw [hroutes, hselections, RouteCensus.counted, setCounters_config, setCounters_generation]
  exact ⟨rfl, rfl, rfl, rfl⟩

structure Observation where
  layer : UInt32
  routedExperts : List UInt32
  cpuExperts : List UInt32 := []
  deriving DecidableEq

/-- One accepted observation. -/
def observeAccepted (census : RouteCensus) (observation : Observation) : Option RouteCensus :=
  let (status, census) :=
    census.observe observation.layer observation.routedExperts observation.cpuExperts
  if status.ok then some census else none

theorem observe_accepted (h : (census.observe layer routedExperts cpuExperts).1.ok = true) :
    layer < census.config.layerCount ∧ routedExperts.length = census.config.width ∧
      (∀ expert ∈ routedExperts, expert < census.config.expertsPerLayer) ∧
      (census.observe layer routedExperts cpuExperts).2 =
        census.recorded layer routedExperts cpuExperts := by
  by_cases hshape : layer ≥ census.config.layerCount ∨
      routedExperts.length ≠ census.config.width ∨ cpuExperts.length > routedExperts.length
  · rw [observe, if_pos hshape] at h
    cases h
  by_cases hunique : ¬ (routedExperts.Nodup ∧ ∀ expert ∈ routedExperts,
      expert < census.config.expertsPerLayer)
  · rw [observe, if_neg hshape, if_pos hunique] at h
    cases h
  by_cases hcpu : ¬ (cpuExperts.Nodup ∧ ∀ expert ∈ cpuExperts, expert ∈ routedExperts)
  · rw [observe, if_neg hshape, if_neg hunique, if_pos hcpu] at h
    cases h
  rw [observe, if_neg hshape, if_neg hunique, if_neg hcpu]
  simp only [ge_iff_le, gt_iff_lt, not_or, ne_eq, not_not] at hshape hunique
  exact ⟨UInt32.not_le.1 hshape.1, hshape.2.1, hunique.2, rfl⟩

theorem observeAccepted_spec (h : census.observeAccepted observation = some after) :
    observation.layer < census.config.layerCount ∧
      observation.routedExperts.length = census.config.width ∧
      (∀ expert ∈ observation.routedExperts, expert < census.config.expertsPerLayer) ∧
      after = census.recorded observation.layer observation.routedExperts
        observation.cpuExperts := by
  unfold observeAccepted at h
  simp only at h
  split at h
  next hok =>
    obtain ⟨hlayer, hlength, hexperts, hrecorded⟩ := observe_accepted hok
    cases h
    exact ⟨hlayer, hlength, hexperts, hrecorded⟩
  next => cases h

theorem Consistent.observeAccepted (h : Consistent census) (hroom : Headroom census 1)
    (hobserve : census.observeAccepted observation = some after) :
    Consistent after ∧ after.config = census.config ∧ after.generation = census.generation ∧
      after.completedRoutes.toNat = census.completedRoutes.toNat + 1 ∧
      after.totalSelections.toNat = census.totalSelections.toNat + census.config.width := by
  obtain ⟨hlayer, hlength, hexperts, rfl⟩ := observeAccepted_spec hobserve
  exact ⟨h.recorded hroom hlayer hlength hexperts, recorded_counters hroom h.completed hlength⟩

theorem Headroom.of_succ {observations : Nat} (h : Headroom census (observations + 1)) :
    Headroom census 1 := by
  have hwidth : 1 * census.config.width ≤ (observations + 1) * census.config.width :=
    Nat.mul_le_mul_right _ (by omega)
  have hroutes : (census.completedRoutes.toNat + 1) * census.config.width ≤
      (census.completedRoutes.toNat + (observations + 1)) * census.config.width :=
    Nat.mul_le_mul_right _ (by omega)
  exact ⟨by have := h.1; omega, Nat.lt_of_le_of_lt hroutes h.2⟩

theorem Consistent.observations {observations : List Observation}
    (h : Consistent census) (hroom : Headroom census observations.length)
    (hrun : runActions RouteCensus.observeAccepted census observations = some after) :
    Consistent after ∧ after.config = census.config ∧ after.generation = census.generation := by
  induction observations generalizing census with
  | nil =>
    cases hrun
    exact ⟨h, rfl, rfl⟩
  | cons observation rest ih =>
    simp only [runActions] at hrun
    split at hrun
    next => cases hrun
    next middle hobserve =>
      rw [length_cons] at hroom
      obtain ⟨hmiddle, hconfig, hgeneration, hroutes, hselections⟩ :=
        h.observeAccepted hroom.of_succ hobserve
      have hrest : Headroom middle rest.length := by
        constructor
        · have := hroom.1
          rw [Nat.add_one_mul] at this
          rw [hselections, hconfig]
          omega
        · have := hroom.2
          rw [hroutes, hconfig, Nat.add_assoc, Nat.add_comm 1]
          exact this
      obtain ⟨hafter, hconfig', hgeneration'⟩ := ih hmiddle hrest hrun
      exact ⟨hafter, hconfig'.trans hconfig, hgeneration'.trans hgeneration⟩

end QuantumLlm.Runtime.RouteCensus
