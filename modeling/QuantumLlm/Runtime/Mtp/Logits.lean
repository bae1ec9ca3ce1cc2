import Mathlib.Tactic.Positivity
import QuantumLlm.Runtime.SpeculativeSampling

/-!
# From logits to a distribution

The sampling parameters of a request and what `distribution_from_logits` makes of
a row of logits: presence penalty, greedy or top-k candidates, minimum relative
probability and nucleus. Logits are read exactly, so none is infinite or NaN.
-/

namespace QuantumLlm.Runtime.Mtp

open SpeculativeSampling List

/-- The request parameters that the provider reads. -/
structure RequestContext where
  reservedContextTokens : Nat
  retentionCheckpointPosition : Option Nat := none
  samplingTemperaturePpm : Nat := 0
  samplingTopPPpm : Nat := 1000000
  samplingTopK : Nat := 0
  samplingMinPPpm : Nat := 0
  samplingPresencePenaltyBiasedPpm : Nat := 2000000
  samplingFirstOutputPosition : Nat := 0
  samplingSeed : Nat := 0
  exactDecodeEnabled : Bool := false
  deriving DecidableEq

/-! ## Candidates -/

section

variable {α : Type} {row : List α} {sorted : List (α × UInt32)} {candidate : α × UInt32}
  {rank : Nat}

def candidates (row : List α) : List (α × UInt32) :=
  row.zipIdx.map fun item => (item.1, UInt32.ofNat item.2)

theorem tokens_candidates :
    (candidates row).map Prod.snd = (List.range row.length).map UInt32.ofNat := by
  rw [candidates, map_map, range_eq_range', ← zipIdx_map_snd 0 row, map_map]
  rfl

theorem toNat_lt_of_candidate (hrow : row.length ≤ UInt32.size) (h : candidate ∈ candidates row) :
    candidate.2.toNat < row.length := by
  have htoken : candidate.2 ∈ (candidates row).map Prod.snd := mem_map_of_mem h
  rw [tokens_candidates] at htoken
  obtain ⟨index, hindex, heq⟩ := mem_map.1 htoken
  have hlt := mem_range.1 hindex
  rw [← heq, UInt32.toNat_ofNat_of_lt' (lt_of_lt_of_le hlt hrow)]
  exact hlt

variable [LinearOrder α]

/-- A larger logit, or the same one for a smaller token. -/
def better (left right : α × UInt32) : Bool :=
  right.1 < left.1 ∨ left.1 = right.1 ∧ left.2 < right.2

def best : List (α × UInt32) → Option (α × UInt32)
  | [] => none
  | candidate :: rest =>
    match best rest with
    | none => some candidate
    | some other => if better other candidate then some other else some candidate

def argmax (row : List α) : UInt32 := ((best (candidates row)).map Prod.snd).getD 0xffffffff

/-- `topk_logits`: each rank passes over the tokens that are already selected. -/
def topkLogits : Nat → List (α × UInt32) → List (α × UInt32)
  | 0, _ => []
  | rank + 1, candidates =>
    match best candidates with
    | none => []
    | some selected =>
      selected :: topkLogits rank (candidates.filter fun other => other.2 ≠ selected.2)

def ordered : List (α × UInt32) → Bool
  | previous :: current :: rest => !better current previous && ordered (current :: rest)
  | _ => true

theorem better_trans {left middle right : α × UInt32} (h : better right middle = false)
    (h' : better middle left = false) : better right left = false := by
  simp only [better, decide_eq_false_iff_not, not_or, not_and, not_lt] at h h' ⊢
  refine ⟨h.1.trans h'.1, fun heq => ?_⟩
  have hmiddle : right.1 = middle.1 := le_antisymm h.1 (by rw [heq]; exact h'.1)
  exact le_trans (h'.2 (by rw [← hmiddle, heq])) (h.2 hmiddle)

theorem better_asymm {left right : α × UInt32} (h : better left right = true) :
    better right left = false := by
  simp only [better, decide_eq_true_eq, decide_eq_false_iff_not, not_or, not_and, not_lt] at h ⊢
  rcases h with hlt | ⟨heq, hlt⟩
  · exact ⟨hlt.le, fun hsame => absurd hsame hlt.ne⟩
  · exact ⟨heq.ge, fun _ => hlt.le⟩

theorem better_self : better candidate candidate = false := by
  simp [better]

theorem best_isSome (h : sorted ≠ []) : ∃ candidate, best sorted = some candidate := by
  cases sorted with
  | nil => exact absurd rfl h
  | cons first rest =>
    rw [best]
    cases best rest with
    | none => exact ⟨first, rfl⟩
    | some other =>
      cases hbetter : better other first with
      | true => exact ⟨other, by simp [hbetter]⟩
      | false => exact ⟨first, by simp [hbetter]⟩

theorem best_spec (h : best sorted = some candidate) :
    candidate ∈ sorted ∧ ∀ other ∈ sorted, better other candidate = false := by
  induction sorted generalizing candidate with
  | nil => cases h
  | cons first rest ih =>
    rw [best] at h
    cases hrest : best rest with
    | none =>
      have hnil : rest = [] := by
        by_contra hne
        obtain ⟨other, hother⟩ := best_isSome hne
        rw [hother] at hrest
        cases hrest
      rw [hrest] at h
      cases h
      subst hnil
      refine ⟨mem_cons_self, fun other hother => ?_⟩
      rw [mem_singleton.1 hother]
      exact better_self
    | some other =>
      obtain ⟨hmem, hmax⟩ := ih hrest
      rw [hrest] at h
      dsimp only at h
      split at h
      next hbetter =>
        cases h
        refine ⟨mem_cons_of_mem _ hmem, ?_⟩
        intro third hthird
        rcases mem_cons.1 hthird with rfl | hthird
        · exact better_asymm hbetter
        · exact hmax third hthird
      next hworse =>
        cases h
        refine ⟨mem_cons_self, ?_⟩
        intro third hthird
        rcases mem_cons.1 hthird with rfl | hthird
        · exact better_self
        · exact better_trans (hmax third hthird) (by simpa using hworse)

theorem topkLogits_succ (rank : Nat) (candidates : List (α × UInt32)) :
    topkLogits (rank + 1) candidates =
      match best candidates with
      | none => []
      | some selected =>
        selected :: topkLogits rank (candidates.filter fun other => other.2 ≠ selected.2) := rfl

theorem topkLogits_subset : topkLogits rank sorted ⊆ sorted := by
  induction rank generalizing sorted with
  | zero => exact nil_subset _
  | succ rank ih =>
    rw [topkLogits_succ]
    cases hbest : best sorted with
    | none => exact nil_subset _
    | some selected =>
      refine cons_subset.2 ⟨(best_spec hbest).1, ?_⟩
      exact fun _ hmem => mem_of_mem_filter (ih hmem)

theorem nodup_topkLogits : ((topkLogits rank sorted).map Prod.snd).Nodup := by
  induction rank generalizing sorted with
  | zero => exact nodup_nil
  | succ rank ih =>
    rw [topkLogits_succ]
    cases hbest : best sorted with
    | none => exact nodup_nil
    | some selected =>
      refine nodup_cons.2 ⟨?_, ih⟩
      intro hmem
      obtain ⟨other, hother, heq⟩ := mem_map.1 hmem
      have hfilter := topkLogits_subset hother
      simp [heq] at hfilter

theorem ordered_topkLogits : ordered (topkLogits rank sorted) = true := by
  induction rank generalizing sorted with
  | zero => rfl
  | succ rank ih =>
    rw [topkLogits_succ]
    cases hbest : best sorted with
    | none => rfl
    | some selected =>
      dsimp only
      cases hrest : topkLogits rank (sorted.filter fun other => other.2 ≠ selected.2) with
      | nil => rfl
      | cons next others =>
        have hmem : next ∈ topkLogits rank (sorted.filter fun other => other.2 ≠ selected.2) :=
          by rw [hrest]; exact mem_cons_self
        have hworse := (best_spec hbest).2 next
          (mem_of_mem_filter (topkLogits_subset hmem))
        have htail := @ih (sorted.filter fun other => other.2 ≠ selected.2)
        rw [hrest] at htail
        rw [ordered, hworse, htail]
        rfl

theorem topkLogits_ne_nil (hrank : 0 < rank) (h : sorted ≠ []) : topkLogits rank sorted ≠ [] := by
  obtain ⟨rank, rfl⟩ : ∃ before, rank = before + 1 := ⟨rank - 1, by omega⟩
  obtain ⟨selected, hselected⟩ := best_isSome h
  simp [topkLogits_succ, hselected]

theorem argmax_mem (h : row ≠ []) : argmax row ∈ (candidates row).map Prod.snd := by
  have hsome : candidates row ≠ [] := by simpa [candidates] using h
  obtain ⟨selected, hselected⟩ := best_isSome hsome
  rw [argmax, hselected]
  exact mem_map_of_mem (best_spec hselected).1

end

/-! ## Distributions -/

section

variable {α : Type} [Field α] [LinearOrder α]

/-- `std::exp`, as far as sampling relies on it. -/
structure Exponential (α : Type) [Field α] [LinearOrder α] where
  exp : α → α
  exp_zero : exp 0 = 1
  exp_pos : ∀ value, 0 < exp value

/-- `apply_presence_penalty`. -/
def applyPresencePenalty (penalty : α) (presence : Finset UInt32) (row : List α) : List α :=
  row.zipIdx.map fun item =>
    if UInt32.ofNat item.2 ∈ presence then item.1 - penalty else item.1

/-- The entries up to the one that reaches the nucleus. -/
def nucleus (topP total : α) : α → List (UInt32 × α) → List (UInt32 × α)
  | _, [] => []
  | cumulative, entry :: rest =>
    if topP ≤ cumulative + entry.2 / total then [entry]
    else entry :: nucleus topP total (cumulative + entry.2 / total) rest

def makeSamplingDistribution (exponential : Exponential α) (sorted : List (α × UInt32))
    (temperaturePpm topPPpm minPPpm : Nat) : Except SamplingError (SamplingDistribution α) :=
  match sorted with
  | [] => .error (.invalidArgument "invalid sorted sampling candidates")
  | first :: _ =>
    if temperaturePpm = 0 ∨ 2000000 < temperaturePpm ∨ topPPpm = 0 ∨ 1000000 < topPPpm ∨
        1000000 < minPPpm then
      .error (.invalidArgument "invalid sorted sampling candidates")
    else if ¬ ordered sorted then
      .error (.invalidArgument "sampling candidates are not ordered")
    else
      let inverseTemperature : α := 1000000 / temperaturePpm
      let minimumRelative : α := minPPpm / 1000000
      let kept := (sorted.map fun candidate =>
        (candidate.2, exponential.exp ((candidate.1 - first.1) * inverseTemperature))).filter
          fun entry => minimumRelative ≤ entry.2
      if kept = [] ∨ ¬ 0 < weights kept then
        .error (.invalidArgument "sampling distribution has no retained mass")
      else
        let retained := nucleus ((topPPpm : α) / 1000000) (weights kept) 0 kept
        .ok ⟨retained.map fun entry => ⟨entry.1, entry.2 / weights retained⟩⟩

/-- `sample_distribution`. -/
def sampleDistribution (distribution : SamplingDistribution α) (uniform : α) :
    Except SamplingError UInt32 := do
  validateDistribution distribution
  requireUniform uniform
  return (pick uniform 0 (distribution.entries.map fun entry => (entry.token, entry.probability))).getD
    ((distribution.entries.getLast?.map TokenProbability.token).getD 0)

def RequestContext.presencePenalty (request : RequestContext) : α :=
  ((request.samplingPresencePenaltyBiasedPpm : α) - 2000000) / 1000000

/-- The row as it is sampled. -/
def RequestContext.penalized (request : RequestContext) (presence : Finset UInt32) (row : List α) :
    List α :=
  if (request.presencePenalty : α) = 0 then row
  else applyPresencePenalty request.presencePenalty presence row

def distributionFromLogits (exponential : Exponential α) (vocabularySize : Nat) (row : List α)
    (request : RequestContext) (presence : Finset UInt32) :
    Except SamplingError (SamplingDistribution α) :=
  if row = [] ∨ vocabularySize < row.length then
    .error (.runtimeError "sampling logit row is invalid")
  else if 4000000 < request.samplingPresencePenaltyBiasedPpm then
    .error (.runtimeError "sampling presence penalty is invalid")
  else
    let row := request.penalized presence row
    if request.samplingTemperaturePpm = 0 then .ok ⟨[⟨argmax row, 1⟩]⟩
    else if request.samplingTopK = 0 ∨ 64 < request.samplingTopK ∨
        row.length < request.samplingTopK then
      .error (.runtimeError "sampled exact decode requires bounded nonzero top-k")
    else
      makeSamplingDistribution exponential (topkLogits request.samplingTopK (candidates row))
        request.samplingTemperaturePpm request.samplingTopPPpm request.samplingMinPPpm

/-- What the worker has checked of the sampling values, and that the exact path takes them. -/
structure RequestContext.Sampled (request : RequestContext) (vocabulary : Nat) : Prop where
  presence : request.samplingPresencePenaltyBiasedPpm ≤ 4000000
  temperature : request.samplingTemperaturePpm ≤ 2000000
  topP : 0 < request.samplingTopPPpm ∧ request.samplingTopPPpm ≤ 1000000
  minP : request.samplingMinPPpm ≤ 1000000
  topK : request.samplingTemperaturePpm = 0 ∨
    0 < request.samplingTopK ∧ request.samplingTopK ≤ 64 ∧ request.samplingTopK ≤ vocabulary

theorem RequestContext.Sampled.mono {request : RequestContext} {vocabulary larger : Nat}
    (h : request.Sampled vocabulary) (hle : vocabulary ≤ larger) : request.Sampled larger :=
  ⟨h.presence, h.temperature, h.topP, h.minP,
    h.topK.imp_right fun htopK => ⟨htopK.1, htopK.2.1, htopK.2.2.trans hle⟩⟩

variable {request : RequestContext} {row : List α} {presence : Finset UInt32}
  {sorted : List (α × UInt32)} {entries : List (UInt32 × α)} {topP total cumulative : α}
  {distribution : SamplingDistribution α} {exponential : Exponential α}

theorem length_penalized : (request.penalized presence row).length = row.length := by
  rw [RequestContext.penalized]
  split
  · rfl
  · rw [applyPresencePenalty, length_map, length_zipIdx]

theorem nucleus_prefix : nucleus topP total cumulative entries <+: entries := by
  induction entries generalizing cumulative with
  | nil => exact nil_prefix
  | cons entry rest ih =>
    rw [nucleus]
    split
    · exact prefix_cons_inj entry |>.2 nil_prefix
    · exact prefix_cons_inj entry |>.2 ih

theorem nucleus_ne_nil (h : entries ≠ []) : nucleus topP total cumulative entries ≠ [] := by
  cases entries with
  | nil => exact absurd rfl h
  | cons entry rest =>
    rw [nucleus]
    split <;> simp

variable [IsStrictOrderedRing α]

section

variable (h : ∀ entry ∈ entries, 0 < entry.2) (hsome : entries ≠ [])

include h hsome

theorem weights_pos :
    0 < weights entries := by
  cases entries with
  | nil => exact absurd rfl hsome
  | cons entry rest =>
    rw [weights_cons]
    have hrest : 0 ≤ weights rest :=
      weights_nonneg fun other hother => (h other (mem_cons_of_mem _ hother)).le
    have hentry := h entry mem_cons_self
    linarith

theorem normalized_weights (hdistinct : (entries.map Prod.fst).Nodup) :
    (⟨entries.map fun entry => ⟨entry.1, entry.2 / weights entries⟩⟩ :
      SamplingDistribution α).Normalized := by
  have htotal := weights_pos h hsome
  refine ⟨?_, ?_, ?_⟩
  · intro entry hentry
    obtain ⟨source, hsource, rfl⟩ := mem_map.1 hentry
    exact div_nonneg (h source hsource).le htotal.le
  · rw [SamplingDistribution.tokens, map_map]
    exact hdistinct
  · rw [map_map]
    have hsum : ∀ (part : List (UInt32 × α)) (total : α),
        (part.map fun entry => entry.2 / total).sum = weights part / total := by
      intro part total
      induction part with
      | nil => simp
      | cons entry rest ih => rw [map_cons, sum_cons, ih, weights_cons, add_div]
    exact (hsum entries (weights entries)).trans (div_self htotal.ne')

end

theorem normalized_single {token : UInt32} :
    (⟨[⟨token, 1⟩]⟩ : SamplingDistribution α).Normalized :=
  ⟨by simp, by simp [SamplingDistribution.tokens], by simp⟩

theorem makeSamplingDistribution_ok {temperaturePpm topPPpm minPPpm : Nat}
    (htemperature : 0 < temperaturePpm ∧ temperaturePpm ≤ 2000000)
    (htopP : 0 < topPPpm ∧ topPPpm ≤ 1000000) (hminP : minPPpm ≤ 1000000) (hsome : sorted ≠ [])
    (hordered : ordered sorted = true) (hdistinct : (sorted.map Prod.snd).Nodup) :
    ∃ distribution, makeSamplingDistribution exponential sorted temperaturePpm topPPpm minPPpm =
        .ok distribution ∧
      distribution.Normalized ∧ distribution.tokens ⊆ sorted.map Prod.snd := by
  cases sorted with
  | nil => exact absurd rfl hsome
  | cons first rest =>
    rw [makeSamplingDistribution, if_neg (by omega), if_neg (by simp [hordered])]
    dsimp only
    generalize hweigh : ((first :: rest).map fun candidate => (candidate.2,
      exponential.exp ((candidate.1 - first.1) * (1000000 / (temperaturePpm : α))))) = weighed
    have hpositive : ∀ entry ∈ weighed, 0 < entry.2 := by
      intro entry hentry
      rw [← hweigh] at hentry
      obtain ⟨candidate, -, rfl⟩ := mem_map.1 hentry
      exact exponential.exp_pos _
    have htokens : weighed.map Prod.fst = (first :: rest).map Prod.snd := by
      rw [← hweigh, map_map]
      rfl
    have hfirst : (first.2, (1 : α)) ∈ weighed := by
      rw [← hweigh]
      refine mem_map.2 ⟨first, mem_cons_self, ?_⟩
      rw [sub_self, zero_mul, exponential.exp_zero]
    generalize hkeep : (weighed.filter fun entry => (minPPpm : α) / 1000000 ≤ entry.2) = kept
    have hone : ((minPPpm : α) / 1000000) ≤ 1 := by
      rw [div_le_one (by norm_num)]
      exact_mod_cast hminP
    have hkept : kept ≠ [] := by
      rw [← hkeep]
      exact ne_nil_of_mem (mem_filter.2 ⟨hfirst, by simpa using hone⟩)
    have hkeptPos : ∀ entry ∈ kept, 0 < entry.2 := by
      intro entry hentry
      rw [← hkeep] at hentry
      exact hpositive entry (mem_of_mem_filter hentry)
    have hleading : nucleus ((topPPpm : α) / 1000000) (weights kept) 0 kept <+: kept :=
      nucleus_prefix
    have hsub : (kept.map Prod.fst).Sublist ((first :: rest).map Prod.snd) := by
      rw [← hkeep, ← htokens]
      exact filter_sublist.map _
    have hnucleus := (hleading.sublist.map Prod.fst).trans hsub
    rw [if_neg (by simp [hkept, weights_pos hkeptPos hkept])]
    refine ⟨_, rfl, normalized_weights (fun entry hentry =>
      hkeptPos entry (hleading.subset hentry)) (nucleus_ne_nil hkept)
      (hdistinct.sublist hnucleus), ?_⟩
    rw [SamplingDistribution.tokens, map_map]
    exact hnucleus.subset

theorem distributionFromLogits_ok {vocabularySize : Nat} (hrequest : request.Sampled row.length)
    (hrow : row ≠ []) (hvocabulary : row.length ≤ vocabularySize)
    (hsize : row.length ≤ UInt32.size) :
    ∃ distribution,
      distributionFromLogits exponential vocabularySize row request presence = .ok distribution ∧
        distribution.Normalized ∧ ∀ token ∈ distribution.tokens, token.toNat < row.length := by
  have hpresence := hrequest.presence
  rw [distributionFromLogits, if_neg (by simp [hrow, hvocabulary]), if_neg (by omega)]
  have hlength : (request.penalized presence row).length = row.length := length_penalized
  have hsome : request.penalized presence row ≠ [] := by
    rw [← length_pos_iff, hlength]
    exact length_pos_iff.2 hrow
  rw [← hlength] at hsize ⊢
  generalize request.penalized presence row = penalized at hlength hsome hsize ⊢
  have hbound : ∀ token ∈ (candidates penalized).map Prod.snd, token.toNat < penalized.length := by
    intro token htoken
    obtain ⟨candidate, hcandidate, rfl⟩ := mem_map.1 htoken
    exact toNat_lt_of_candidate hsize hcandidate
  by_cases hgreedy : request.samplingTemperaturePpm = 0
  · rw [if_pos hgreedy]
    refine ⟨_, rfl, normalized_single, ?_⟩
    intro token htoken
    rw [mem_singleton.1 htoken]
    exact hbound _ (argmax_mem hsome)
  · obtain ⟨hpos, hmax, hle⟩ := hrequest.topK.resolve_left hgreedy
    rw [if_neg hgreedy, if_neg (by omega)]
    have hcandidates : candidates penalized ≠ [] := by simpa [candidates] using hsome
    obtain ⟨distribution, hmade, hnormalized, htokens⟩ :=
      @makeSamplingDistribution_ok α _ _ (topkLogits request.samplingTopK (candidates penalized))
        exponential _ _ _ _ ⟨Nat.pos_of_ne_zero hgreedy, hrequest.temperature⟩ hrequest.topP
        hrequest.minP (topkLogits_ne_nil hpos hcandidates) ordered_topkLogits nodup_topkLogits
    refine ⟨distribution, hmade, hnormalized, fun token htoken => hbound token ?_⟩
    exact map_subset _ topkLogits_subset (htokens htoken)

theorem sampleDistribution_ok (h : distribution.Normalized) {uniform : α}
    (hlow : 0 ≤ uniform) (hhigh : uniform < 1) :
    ∃ token, sampleDistribution distribution uniform = .ok token ∧
      token ∈ distribution.tokens ∧ 0 < distribution.probability token := by
  have hweights : weights (distribution.entries.map fun entry => (entry.token, entry.probability)) =
      1 := by
    rw [weights, map_map]
    exact h.total
  obtain ⟨token, hpick⟩ := @pick_isSome _ _ _ _ uniform 0
    (distribution.entries.map fun entry => (entry.token, entry.probability)) hlow
    (by rwa [hweights, zero_add])
  obtain ⟨weight, hmem, hpos⟩ := exists_of_pick hlow hpick
  obtain ⟨entry, hentry, heq⟩ := mem_map.1 hmem
  cases heq
  refine ⟨entry.token, ?_, mem_map_of_mem hentry, ?_⟩
  · rw [sampleDistribution, h.validate, hpick]
    simp [requireUniform, not_lt.2 hlow, hhigh, Bind.bind, Except.bind, pure, Except.pure]
  · rw [SamplingDistribution.probability_of_mem h.listed hentry]
    exact hpos

end

end QuantumLlm.Runtime.Mtp
