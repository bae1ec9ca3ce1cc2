import QuantumLlm.Lib.CappedSelection
import QuantumLlm.Runtime.RouteCensus.State

/-!
# The stable warm set

The hottest observed experts of a census, up to a number of them and up to a number
of each layer. Their order is total, so that the set is the same under every sort.
-/

namespace QuantumLlm.Runtime

open List

structure RouteCensusWarmEntry where
  key : ExpertKey
  totalSelections : UInt64 := 0
  effectiveHeatQ20 : UInt64 := 0
  lastSeenObservation : UInt64 := 0
  cpuSelections : UInt64 := 0
  gpuSelections : UInt64 := 0
  deriving DecidableEq

namespace RouteCensus

def cellAt (census : RouteCensus) (layer expert : UInt32) : Cell :=
  census.cells.getD (census.cellIndex layer expert) {}

def warmEntry (census : RouteCensus) (layer expert : UInt32) : RouteCensusWarmEntry :=
  let cell := census.cellAt layer expert
  { key := ⟨census.config.modelId, layer, expert, census.config.encodingAbi⟩
    totalSelections := cell.total
    effectiveHeatQ20 := census.effectiveHeat cell
    lastSeenObservation := cell.lastSeen
    cpuSelections := cell.cpu
    gpuSelections := cell.gpu }

/-- The observed experts of a layer, the first of them in the order of the table. -/
def layerCandidates (census : RouteCensus) (layer : UInt32) : List RouteCensusWarmEntry :=
  (List.range census.config.experts).filterMap fun expert =>
    if (census.cellAt layer (UInt32.ofNat expert)).total = 0 then none
    else some (census.warmEntry layer (UInt32.ofNat expert))

def candidates (census : RouteCensus) : List RouteCensusWarmEntry :=
  (List.range census.config.layers).flatMap fun layer =>
    census.layerCandidates (UInt32.ofNat layer)

/-- The comparison of the sort. -/
def precedes (left right : RouteCensusWarmEntry) : Prop :=
  if left.effectiveHeatQ20 ≠ right.effectiveHeatQ20 then
    left.effectiveHeatQ20 > right.effectiveHeatQ20
  else if left.totalSelections ≠ right.totalSelections then
    left.totalSelections > right.totalSelections
  else if left.lastSeenObservation ≠ right.lastSeenObservation then
    left.lastSeenObservation > right.lastSeenObservation
  else left.key < right.key

instance : DecidableRel precedes := fun left right => by
  unfold precedes
  infer_instance

/-- A sort by a comparison; what does not precede either way may come in any order. -/
structure WarmSorting where
  sort : List RouteCensusWarmEntry → List RouteCensusWarmEntry
  perm : ∀ entries, (sort entries).Perm entries
  sorted : ∀ entries, (sort entries).Pairwise fun left right => ¬ precedes right left

/-- The loop over the sorted candidates, with the entries of each layer so far. -/
def fillWarmSet (maximumEntries maximumPerLayer : Nat) : List RouteCensusWarmEntry →
    (UInt32 → Nat) → List RouteCensusWarmEntry → List RouteCensusWarmEntry
  | result, _, [] => result
  | result, perLayer, candidate :: rest =>
    let layer := candidate.key.layer
    if result.length = maximumEntries then result
    else if maximumPerLayer ≠ 0 ∧ perLayer layer ≥ maximumPerLayer then
      fillWarmSet maximumEntries maximumPerLayer result perLayer rest
    else
      fillWarmSet maximumEntries maximumPerLayer (result ++ [candidate])
        (fun other => if other = layer then perLayer layer + 1 else perLayer other) rest

def stableWarmSet (census : RouteCensus) (sorting : WarmSorting)
    (maximumEntries maximumPerLayer : Nat) : List RouteCensusWarmEntry :=
  fillWarmSet maximumEntries maximumPerLayer [] (fun _ => 0) (sorting.sort census.candidates)

/-- Hotter, more often, later, and the smaller key. -/
def rank (entry : RouteCensusWarmEntry) : ℕᵒᵈ ×ₗ ℕᵒᵈ ×ₗ ℕᵒᵈ ×ₗ ExpertKey :=
  toLex (.toDual entry.effectiveHeatQ20.toNat, toLex (.toDual entry.totalSelections.toNat,
    toLex (.toDual entry.lastSeenObservation.toNat, entry.key)))

variable {left right : RouteCensusWarmEntry} {count layer : UInt32}
  {maximumEntries maximumPerLayer : Nat} {sorting : WarmSorting}

theorem precedes_iff :
    precedes left right ↔ rank left < rank right := by
  simp only [precedes, rank, Prod.Lex.toLex_lt_toLex, OrderDual.toDual_lt_toDual,
    OrderDual.toDual_inj, UInt64.toNat_inj, ← UInt64.lt_iff_toNat_lt, gt_iff_lt]
  by_cases hheat : left.effectiveHeatQ20 = right.effectiveHeatQ20
  · by_cases htotal : left.totalSelections = right.totalSelections
    · by_cases hseen : left.lastSeenObservation = right.lastSeenObservation
      · simp [hheat, htotal, hseen]
      · simp [hheat, htotal, hseen]
    · simp [hheat, htotal]
  · simp [hheat]

theorem precedes_asymm (left right : RouteCensusWarmEntry) (h : precedes left right) :
    ¬ precedes right left := by
  rw [precedes_iff] at h ⊢
  exact h.asymm

theorem precedes_trichotomy (hkey : left.key ≠ right.key) :
    precedes left right ∨ precedes right left := by
  rw [precedes_iff, precedes_iff]
  apply lt_or_gt_of_ne
  intro heq
  exact hkey (congrArg (fun found => (ofLex (ofLex (ofLex found).2).2).2) heq)

variable {census : RouteCensus} {entry : RouteCensusWarmEntry}

/-- The entry of an expert that was routed to. -/
def Observed (census : RouteCensus) (entry : RouteCensusWarmEntry) : Prop :=
  ∃ layer expert, layer < census.config.layerCount ∧ expert < census.config.expertsPerLayer ∧
    (census.cellAt layer expert).total ≠ 0 ∧ entry = census.warmEntry layer expert

theorem ofNat_lt {index : Nat} (h : index < count.toNat) :
    (UInt32.ofNat index).toNat = index := by
  exact UInt32.toNat_ofNat_of_lt' (h.trans count.toNat_lt)

theorem mem_layerCandidates : entry ∈ census.layerCandidates layer ↔
    ∃ expert < census.config.expertsPerLayer, (census.cellAt layer expert).total ≠ 0 ∧
      entry = census.warmEntry layer expert := by
  simp only [layerCandidates, mem_filterMap, mem_range]
  constructor
  · rintro ⟨index, hindex, h⟩
    refine ⟨UInt32.ofNat index, ?_, ?_⟩
    · rw [UInt32.lt_iff_toNat_lt, ofNat_lt hindex]
      exact hindex
    · split at h
      next => cases h
      next htotal => exact ⟨htotal, by cases h; rfl⟩
  · rintro ⟨expert, hexpert, htotal, rfl⟩
    refine ⟨expert.toNat, UInt32.lt_iff_toNat_lt.1 hexpert, ?_⟩
    rw [UInt32.ofNat_toNat, if_neg htotal]

theorem mem_candidates : entry ∈ census.candidates ↔ Observed census entry := by
  simp only [candidates, mem_flatMap, mem_range, mem_layerCandidates]
  constructor
  · rintro ⟨index, hindex, expert, hexpert, h⟩
    refine ⟨UInt32.ofNat index, expert, ?_, hexpert, h⟩
    rw [UInt32.lt_iff_toNat_lt, ofNat_lt hindex]
    exact hindex
  · rintro ⟨layer, expert, hlayer, hexpert, h⟩
    refine ⟨layer.toNat, UInt32.lt_iff_toNat_lt.1 hlayer, expert, hexpert, ?_⟩
    rw [UInt32.ofNat_toNat]
    exact h

theorem ofNat_ne {left right : Nat} (hleft : left < count.toNat)
    (hright : right < count.toNat) (h : left < right) : UInt32.ofNat left ≠ UInt32.ofNat right := by
  intro heq
  have hnat := congrArg UInt32.toNat heq
  rw [ofNat_lt hleft, ofNat_lt hright] at hnat
  omega

theorem layerCandidates_keys (census : RouteCensus) (layer : UInt32) :
    (census.layerCandidates layer).Pairwise fun left right => left.key ≠ right.key := by
  rw [layerCandidates, pairwise_filterMap]
  refine pairwise_lt_range.imp_of_mem fun {left right} hleft hright hlt => ?_
  intro entry hentry other hother heq
  split at hentry
  next => cases hentry
  next =>
    split at hother
    next => cases hother
    next =>
      cases hentry
      cases hother
      exact ofNat_ne (mem_range.1 hleft) (mem_range.1 hright) hlt
        (congrArg ExpertKey.expert heq)

theorem layer_of_mem (h : entry ∈ census.layerCandidates layer) :
    entry.key.layer = layer := by
  obtain ⟨expert, -, -, rfl⟩ := mem_layerCandidates.1 h
  rfl

theorem candidates_keys (census : RouteCensus) :
    census.candidates.Pairwise fun left right => left.key ≠ right.key := by
  rw [candidates, pairwise_flatMap]
  refine ⟨fun layer _ => census.layerCandidates_keys _, ?_⟩
  refine pairwise_lt_range.imp_of_mem fun {left right} hleft hright hlt => ?_
  intro entry hentry other hother heq
  apply ofNat_ne (mem_range.1 hleft) (mem_range.1 hright) hlt
  rw [← layer_of_mem hentry, ← layer_of_mem hother, heq]

theorem WarmSorting.pairwise (sorting : WarmSorting) (census : RouteCensus) :
    (sorting.sort census.candidates).Pairwise precedes := by
  have hkeys : (sorting.sort census.candidates).Pairwise fun left right => left.key ≠ right.key :=
    (census.candidates_keys.perm (sorting.perm _).symm) fun hne => hne.symm
  refine ((sorting.sorted census.candidates).and hkeys).imp ?_
  rintro left right ⟨hbehind, hkey⟩
  exact (precedes_trichotomy hkey).resolve_right hbehind

theorem WarmSorting.sort_eq (sorting other : WarmSorting) (census : RouteCensus) :
    sorting.sort census.candidates = other.sort census.candidates := by
  have hperm := (sorting.perm census.candidates).trans (other.perm census.candidates).symm
  refine hperm.eq_of_pairwise ?_ (sorting.pairwise census) (other.pairwise census)
  intro left right _ _ hbefore hbehind
  exact absurd hbehind (precedes_asymm _ _ hbefore)

theorem fillWarmSet_eq {result sorted : List RouteCensusWarmEntry} {perLayer : UInt32 → Nat}
    (hcounts : ∀ layer, perLayer layer = inBucket (fun entry => entry.key.layer) result layer) :
    fillWarmSet maximumEntries maximumPerLayer result perLayer sorted =
      cappedSelect (fun entry => entry.key.layer) maximumEntries maximumPerLayer result sorted := by
  induction sorted generalizing result perLayer with
  | nil => rfl
  | cons candidate rest ih =>
    rw [fillWarmSet, cappedSelect, hcounts]
    split
    next => rfl
    next =>
      split
      next => exact ih hcounts
      next =>
        apply ih
        intro layer
        rw [inBucket_append_singleton]
        by_cases hlayer : layer = candidate.key.layer
        · subst hlayer
          simp
        · rw [if_neg hlayer, if_neg (Ne.symm hlayer), hcounts, Nat.add_zero]

/-- The set under a maximum of entries and, unless it is zero, a maximum of each layer. -/
structure GreedyWarmSet (census : RouteCensus) (maximumEntries maximumPerLayer : Nat)
    (result : List RouteCensusWarmEntry) : Prop where
  observed : ∀ entry ∈ result, Observed census entry
  ordered : result.Pairwise precedes
  distinct : (result.map (·.key)).Nodup
  entries : result.length ≤ maximumEntries
  perLayer : maximumPerLayer ≠ 0 → ∀ layer : UInt32,
    (result.countP fun entry => entry.key.layer = layer) ≤ maximumPerLayer
  /-- What is omitted comes behind all of a full set, or behind its own layer's maximum. -/
  omitted : ∀ omitted, Observed census omitted → omitted ∉ result →
    (result.length = maximumEntries ∧ ∀ returned ∈ result, precedes returned omitted) ∨
      maximumPerLayer ≠ 0 ∧ (result.countP fun returned =>
        returned.key.layer = omitted.key.layer ∧ precedes returned omitted) = maximumPerLayer
  /-- Only its layer's maximum keeps out what precedes a member. -/
  greedy : ∀ omitted, Observed census omitted → omitted ∉ result →
    ∀ returned ∈ result, precedes omitted returned →
      maximumPerLayer ≠ 0 ∧ (result.countP fun other =>
        other.key.layer = omitted.key.layer ∧ precedes other omitted) = maximumPerLayer

theorem stableWarmSet_eq :
    census.stableWarmSet sorting maximumEntries maximumPerLayer =
      cappedSelect (fun entry => entry.key.layer) maximumEntries maximumPerLayer []
        (sorting.sort census.candidates) :=
  fillWarmSet_eq fun _ => rfl

theorem stableWarmSet_omitted (hobserved : Observed census entry)
    (hout : entry ∉ census.stableWarmSet sorting maximumEntries maximumPerLayer) :
    ((census.stableWarmSet sorting maximumEntries maximumPerLayer).length = maximumEntries ∧
        ∀ returned ∈ census.stableWarmSet sorting maximumEntries maximumPerLayer,
          precedes returned entry) ∨
      maximumPerLayer ≠ 0 ∧
        ((census.stableWarmSet sorting maximumEntries maximumPerLayer).countP fun returned =>
          returned.key.layer = entry.key.layer ∧ precedes returned entry) = maximumPerLayer := by
  rw [stableWarmSet_eq] at hout ⊢
  have hmem : entry ∈ sorting.sort census.candidates :=
    (sorting.perm _).mem_iff.2 (mem_candidates.2 hobserved)
  exact cappedSelect_omitted (sorting.pairwise census) precedes_asymm hmem hout

/-- The warm set is the greedy one, and the sort has no say in it. -/
theorem stableWarmSet_greedy (census : RouteCensus) (maximumEntries maximumPerLayer : Nat)
    (sorting : WarmSorting) :
    GreedyWarmSet census maximumEntries maximumPerLayer
        (census.stableWarmSet sorting maximumEntries maximumPerLayer) ∧
      ∀ other : WarmSorting, census.stableWarmSet other maximumEntries maximumPerLayer =
        census.stableWarmSet sorting maximumEntries maximumPerLayer := by
  have hsublist : (census.stableWarmSet sorting maximumEntries maximumPerLayer).Sublist
      (sorting.sort census.candidates) := by
    rw [stableWarmSet_eq]
    exact cappedSelect_sublist
  have hordered := (sorting.pairwise census).sublist hsublist
  have hkeys : (sorting.sort census.candidates).Pairwise fun left right => left.key ≠ right.key :=
    (census.candidates_keys.perm (sorting.perm _).symm) fun hne => hne.symm
  constructor
  · exact
      { observed := fun found hfound =>
          mem_candidates.1 ((sorting.perm _).mem_iff.1 (hsublist.subset hfound))
        ordered := hordered
        distinct := pairwise_map.2 (hkeys.sublist hsublist)
        entries := by
          rw [stableWarmSet_eq]
          exact length_cappedSelect_le (Nat.zero_le _)
        perLayer := by
          intro hcap layer
          rw [stableWarmSet_eq]
          exact inBucket_cappedSelect_le hcap (fun _ => Nat.zero_le _) layer
        omitted := fun found hobserved hout => stableWarmSet_omitted hobserved hout
        greedy := by
          intro found hobserved hout returned hreturned hbefore
          rcases stableWarmSet_omitted hobserved hout with ⟨-, hbehind⟩ | hfull
          · exact absurd (hbehind returned hreturned) (precedes_asymm _ _ hbefore)
          · exact hfull }
  · intro other
    rw [stableWarmSet, stableWarmSet, WarmSorting.sort_eq other sorting]

end RouteCensus

end QuantumLlm.Runtime
