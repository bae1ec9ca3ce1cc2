import QuantumLlm.Lib.OrderedMap
import QuantumLlm.Lib.Sampling
import Mathlib.Data.List.TakeWhile

/-!
# Speculative sampling

One decision of speculative decoding: a proposal drawn from the draft is kept or
replaced by a correction, with probabilities and uniforms read exactly. Nothing
is then infinite, so the checks for it have no counterpart here.
-/

namespace QuantumLlm.Runtime.SpeculativeSampling

inductive SamplingError where
  | invalidArgument (what : String)
  | runtimeError (what : String)
  deriving DecidableEq

/-- The order in which a map walks over tokens. -/
scoped instance tokenOrder : LinearOrder UInt32 where
  le_refl := UInt32.le_refl
  le_trans _ _ _ := UInt32.le_trans
  le_antisymm _ _ := UInt32.le_antisymm
  le_total := UInt32.le_total
  lt_iff_le_not_ge _ _ := by
    simp only [UInt32.le_iff_toNat_le, UInt32.lt_iff_toNat_lt]
    omega
  toDecidableLE := inferInstance
  toDecidableEq := inferInstance

structure TokenProbability (α : Type) where
  token : UInt32
  probability : α

structure SamplingDistribution (α : Type) where
  entries : List (TokenProbability α)

structure RejectionSamplingResult (α : Type) where
  accepted : Bool
  token : UInt32
  targetProbability : α
  draftProbability : α

def SamplingDistribution.tokens {α : Type} (distribution : SamplingDistribution α) : List UInt32 :=
  distribution.entries.map (·.token)

section

variable {α : Type} {target draft : SamplingDistribution α}

/-- The tokens that the target or the draft names. -/
def support (target draft : SamplingDistribution α) : Finset UInt32 :=
  (target.tokens ++ draft.tokens).toFinset

theorem tokens_subset_target : target.tokens.toFinset ⊆ support target draft := by
  intro token htoken
  simp only [support, List.mem_toFinset, List.mem_append] at htoken ⊢
  exact Or.inl htoken

theorem tokens_subset_draft : draft.tokens.toFinset ⊆ support target draft := by
  intro token htoken
  simp only [support, List.mem_toFinset, List.mem_append] at htoken ⊢
  exact Or.inr htoken

end

section

variable {α : Type} [Field α]

namespace SamplingDistribution

def probability (distribution : SamplingDistribution α) (token : UInt32) : α :=
  match distribution.entries.find? fun entry => entry.token = token with
  | none => 0
  | some entry => entry.probability

theorem probability_of_not_mem {distribution : SamplingDistribution α} {token : UInt32}
    (h : token ∉ distribution.tokens) : distribution.probability token = 0 := by
  unfold probability
  split
  next => rfl
  next entry hfind =>
    refine absurd ?_ h
    have htoken : entry.token = token := by simpa using List.find?_some hfind
    exact List.mem_map.2 ⟨entry, List.mem_of_find?_eq_some hfind, htoken⟩

end SamplingDistribution

variable [LinearOrder α]

def requireUniform (value : α) : Except SamplingError Unit :=
  if value < 0 ∨ ¬ value < 1 then
    .error (.invalidArgument "sampling uniform must be in [0, 1)")
  else .ok ()

/-- The loop over the entries: their probabilities added up. -/
def totalProbability : α → List (TokenProbability α) → Except SamplingError α
  | total, [] => .ok total
  | total, entry :: rest =>
    if entry.probability < 0 then
      .error (.invalidArgument "sampling probability is invalid")
    else totalProbability (total + entry.probability) rest

def validateDistribution (distribution : SamplingDistribution α) : Except SamplingError Unit :=
  if distribution.entries.isEmpty then
    .error (.invalidArgument "sampling distribution is empty")
  else do
    let total : α ← totalProbability 0 distribution.entries
    if ¬ distribution.tokens.Nodup ∨ |total - 1| > 1 / 10 ^ 10 then
      .error (.invalidArgument "sampling distribution is not normalized")
    else .ok ()

/-- What the target has in excess of the draft, for the tokens of either. -/
def residual (target draft : SamplingDistribution α) : OrderedMap UInt32 α :=
  draft.entries.foldl
    (fun residual entry => residual.assign entry.token
      (max 0 ((residual.find? entry.token).getD 0 - entry.probability)))
    (target.entries.foldl
      (fun residual entry => residual.assign entry.token entry.probability) OrderedMap.empty)

/-- The loop over the residual. -/
def correctionToken (threshold : α) :
    α → Option UInt32 → List (UInt32 × α) → Except SamplingError UInt32
  | cumulative, lastPositive, (token, probability) :: rest =>
    if threshold < cumulative + probability then .ok token
    else correctionToken threshold (cumulative + probability)
      (if 0 < probability then some token else lastPositive) rest
  | _, some lastPositive, [] => .ok lastPositive
  | _, none, [] => .error (.runtimeError "rejected proposal has no positive correction")

def rejectionSample (proposal : UInt32) (target draft : SamplingDistribution α)
    (acceptanceUniform correctionUniform : α) :
    Except SamplingError (RejectionSamplingResult α) := do
  validateDistribution target
  validateDistribution draft
  requireUniform acceptanceUniform
  requireUniform correctionUniform
  let targetProbability := target.probability proposal
  let draftProbability := draft.probability proposal
  if ¬ 0 < draftProbability then
    .error (.invalidArgument "proposal has zero draft probability")
  else if acceptanceUniform < min 1 (targetProbability / draftProbability) then
    .ok ⟨true, proposal, targetProbability, draftProbability⟩
  else
    let residual := residual target draft
    let total := weights residual.entries
    if ¬ 0 < total then
      .error (.runtimeError "rejected proposal has no correction mass")
    else do
      let token ← correctionToken (correctionUniform * total) 0 none residual.entries
      .ok ⟨false, token, targetProbability, draftProbability⟩

/-- The decision returns the token. -/
def Returns (target draft : SamplingDistribution α) (proposal : UInt32)
    (acceptanceUniform correctionUniform : α) (token : UInt32) : Prop :=
  ∃ result, rejectionSample proposal target draft acceptanceUniform correctionUniform = .ok result ∧
    result.token = token

end

section

variable {α : Type} [Field α] [LinearOrder α]

/-- Non-negative entries for distinct tokens. -/
structure SamplingDistribution.Listed (distribution : SamplingDistribution α) : Prop where
  nonneg : ∀ entry ∈ distribution.entries, 0 ≤ entry.probability
  distinct : distribution.tokens.Nodup

/-- Non-negative entries for distinct tokens that sum to one. -/
structure SamplingDistribution.Normalized (distribution : SamplingDistribution α) : Prop where
  nonneg : ∀ entry ∈ distribution.entries, 0 ≤ entry.probability
  distinct : distribution.tokens.Nodup
  total : (distribution.entries.map (·.probability)).sum = 1

namespace SamplingDistribution

variable {distribution : SamplingDistribution α} {token : UInt32} {entry : TokenProbability α}

theorem Normalized.listed (h : distribution.Normalized) : distribution.Listed :=
  ⟨h.nonneg, h.distinct⟩

theorem probability_nonneg (h : distribution.Listed) : 0 ≤ distribution.probability token := by
  unfold probability
  split
  next => exact le_refl 0
  next entry hfind => exact h.nonneg entry (List.mem_of_find?_eq_some hfind)

theorem probability_of_mem (h : distribution.Listed) (hentry : entry ∈ distribution.entries) :
    distribution.probability entry.token = entry.probability := by
  unfold probability
  cases hfind : distribution.entries.find? fun other => other.token = entry.token with
  | none => simpa using List.find?_eq_none.1 hfind entry hentry
  | some other =>
    have htoken : other.token = entry.token := by simpa using List.find?_some hfind
    rw [List.inj_on_of_nodup_map h.distinct (List.mem_of_find?_eq_some hfind) hentry htoken]

theorem totalProbability_eq {entries : List (TokenProbability α)} {total : α}
    (h : ∀ entry ∈ entries, 0 ≤ entry.probability) :
    totalProbability total entries = .ok (total + (entries.map (·.probability)).sum) := by
  induction entries generalizing total with
  | nil => simp [totalProbability]
  | cons entry rest ih =>
    have hhead := h entry List.mem_cons_self
    rw [totalProbability, if_neg (not_lt.2 hhead),
      ih fun other hother => h other (List.mem_cons_of_mem _ hother), List.map_cons,
      List.sum_cons, add_assoc]

variable {support : Finset UInt32}

section

variable (h : distribution.Normalized) (hsupport : distribution.tokens.toFinset ⊆ support)

include h hsupport

theorem sum_entries {f : UInt32 → α → α} (hf : ∀ token, f token 0 = 0) :
    (distribution.entries.map fun entry => f entry.token entry.probability).sum =
      ∑ token ∈ support, f token (distribution.probability token) := by
  rw [← Finset.sum_subset hsupport fun token _ hnew => ?_, List.sum_toFinset _ h.distinct, tokens,
    List.map_map]
  · refine congrArg List.sum (List.map_congr_left fun entry hentry => ?_)
    simp only [Function.comp_apply]
    rw [probability_of_mem h.listed hentry]
  · rw [probability_of_not_mem (by simpa using hnew), hf]

theorem sum_probability :
    ∑ token ∈ support, distribution.probability token = 1 := by
  rw [← sum_entries (f := fun _ weight => weight) h hsupport fun _ => rfl]
  exact h.total

end

variable [IsStrictOrderedRing α]

theorem Normalized.validate (h : distribution.Normalized) :
    validateDistribution distribution = .ok () := by
  have hsome : distribution.entries.isEmpty = false := by
    by_contra hempty
    have hnil : distribution.entries = [] := by simpa using hempty
    have htotal := h.total
    simp [hnil] at htotal
  unfold validateDistribution
  rw [hsome, totalProbability_eq h.nonneg, h.total, zero_add]
  simp [h.distinct, Bind.bind, Except.bind]

end SamplingDistribution

section

variable {target draft : SamplingDistribution α}

def excess (target draft : SamplingDistribution α) (token : UInt32) : α :=
  max 0 (target.probability token - draft.probability token)

variable {token : UInt32}

theorem excess_nonneg : 0 ≤ excess target draft token := le_max_left _ _

theorem excess_of_not_mem (h : token ∉ support target draft) :
    excess target draft token = 0 := by
  simp only [support, List.mem_toFinset, List.mem_append, not_or] at h
  rw [excess, SamplingDistribution.probability_of_not_mem h.1,
    SamplingDistribution.probability_of_not_mem h.2, sub_self, max_self]

theorem find?_residual (htarget : target.Listed) (hdraft : draft.Listed) {token : UInt32} :
    (residual target draft).find? token =
      if token ∈ support target draft then some (excess target draft token) else none := by
  have hfirst : (target.entries.foldl (fun residual entry =>
      residual.assign entry.token entry.probability) OrderedMap.empty).find? token =
      (target.entries.find? fun entry => entry.token = token).map (·.probability) := by
    rw [@OrderedMap.find?_foldl_assign _ _ _ _ _ _ (fun entry _ => entry.probability)
      htarget.distinct OrderedMap.empty token]
    cases target.entries.find? fun entry => entry.token = token <;> rfl
  have hnonneg : 0 ≤ target.probability token := SamplingDistribution.probability_nonneg htarget
  rw [residual, @OrderedMap.find?_foldl_assign _ _ _ _ _ _
    (fun entry old => max 0 (old.getD 0 - entry.probability)) hdraft.distinct _ token, hfirst]
  have hmem : ∀ distribution : SamplingDistribution α, token ∈ distribution.tokens ↔
      (distribution.entries.find? fun entry => entry.token = token) ≠ none := by
    simp [SamplingDistribution.tokens, List.find?_eq_none]
  simp only [support, List.mem_toFinset, List.mem_append, hmem, excess,
    SamplingDistribution.probability] at hnonneg ⊢
  cases htargetFind : target.entries.find? fun entry => entry.token = token with
  | none =>
    cases hdraftFind : draft.entries.find? fun entry => entry.token = token with
    | none => simp
    | some entry => simp
  | some entry =>
    rw [htargetFind] at hnonneg
    cases hdraftFind : draft.entries.find? fun entry => entry.token = token with
    | none => simpa using hnonneg
    | some other => simp

variable (htarget : target.Listed) (hdraft : draft.Listed)
include htarget hdraft

theorem residual_entry {entry : UInt32 × α} (hentry : entry ∈ (residual target draft).entries) :
    entry.1 ∈ support target draft ∧ entry.2 = excess target draft entry.1 := by
  have hfind : (residual target draft).find? entry.1 = some entry.2 :=
    OrderedMap.find?_eq_some_iff.2 hentry
  rw [find?_residual htarget hdraft] at hfind
  by_cases hmem : entry.1 ∈ support target draft
  · rw [if_pos hmem] at hfind
    exact ⟨hmem, (Option.some.inj hfind).symm⟩
  · rw [if_neg hmem] at hfind
    cases hfind

theorem mem_residual_keys :
    token ∈ (residual target draft).keys ↔ token ∈ support target draft := by
  rw [OrderedMap.mem_keys_iff, find?_residual htarget hdraft]
  split
  next hmem => simp [hmem]
  next hnot => simp [hnot]

theorem weights_residual :
    weights (residual target draft).entries =
      ∑ token ∈ support target draft, excess target draft token := by
  have hkeys : (residual target draft).keys.toFinset = support target draft := by
    ext token
    rw [List.mem_toFinset, mem_residual_keys htarget hdraft]
  rw [← hkeys, List.sum_toFinset _ (OrderedMap.nodup_keys _), OrderedMap.keys, List.map_map, weights]
  refine congrArg List.sum (List.map_congr_left fun entry hentry => ?_)
  exact (residual_entry htarget hdraft hentry).2

end

/-! ## One decision -/

section

variable {target draft : SamplingDistribution α} {proposal token : UInt32}
  {acceptanceUniform correctionUniform threshold cumulative : α} {last : Option UInt32}
  {entries : List (UInt32 × α)}

def acceptance (target draft : SamplingDistribution α) (proposal : UInt32) : α :=
  min 1 (target.probability proposal / draft.probability proposal)

def totalExcess (target draft : SamplingDistribution α) : α :=
  ∑ token ∈ support target draft, excess target draft token

def share (target draft : SamplingDistribution α) (token : UInt32) : α :=
  excess target draft token / totalExcess target draft

/-- The share of the tokens before this one. -/
def lowerEnd (target draft : SamplingDistribution α) (token : UInt32) : α :=
  weights ((residual target draft).entries.takeWhile (·.1 ≠ token)) / totalExcess target draft

theorem correctionToken_of_pick (h : pick threshold cumulative entries = some token) :
    correctionToken threshold cumulative last entries = .ok token := by
  induction entries generalizing cumulative last with
  | nil => cases h
  | cons entry rest ih =>
    simp only [pick] at h
    simp only [correctionToken]
    split
    next hstop =>
      rw [if_pos hstop] at h
      rw [Option.some.inj h]
    next hpass =>
      rw [if_neg hpass] at h
      exact ih h

theorem acceptance_le_one : acceptance target draft proposal ≤ 1 := min_le_left _ _

theorem mem_support_of_pos (h : 0 < draft.probability proposal) : proposal ∈ support target draft := by
  apply tokens_subset_draft
  by_contra hnot
  rw [SamplingDistribution.probability_of_not_mem (by simpa using hnot)] at h
  exact lt_irrefl _ h

variable (htarget : target.Normalized) (hdraft : draft.Normalized)
include htarget hdraft

theorem sum_target_eq_draft : ∑ token ∈ support target draft, target.probability token =
    ∑ token ∈ support target draft, draft.probability token := by
  rw [SamplingDistribution.sum_probability htarget tokens_subset_target,
    SamplingDistribution.sum_probability hdraft tokens_subset_draft]

theorem residual_split (htoken : token ∈ support target draft) :
    ∃ after, (residual target draft).entries =
        (residual target draft).entries.takeWhile (·.1 ≠ token) ++
          (token, excess target draft token) :: after ∧
      token ∉ ((residual target draft).entries.takeWhile (·.1 ≠ token)).map Prod.fst ∧
      token ∉ after.map Prod.fst := by
  have hfind := @find?_residual _ _ _ _ _ htarget.listed hdraft.listed token
  rw [if_pos htoken] at hfind
  obtain ⟨before, after, hentries, hbefore, hafter⟩ := OrderedMap.find?_split hfind
  have htake : (residual target draft).entries.takeWhile (·.1 ≠ token) = before := by
    rw [hentries, List.takeWhile_append_of_pos fun entry hentry => by simpa using hbefore entry hentry,
      List.takeWhile_cons_of_neg (by simp), List.append_nil]
  have hapart : ∀ part : List (UInt32 × α), (∀ entry ∈ part, entry.1 ≠ token) →
      token ∉ part.map Prod.fst := by
    intro part hpart hmem
    obtain ⟨entry, hentry, hkey⟩ := List.mem_map.1 hmem
    exact hpart entry hentry hkey
  rw [htake]
  exact ⟨after, hentries, hapart before hbefore, hapart after hafter⟩

theorem residual_nonneg : ∀ entry ∈ (residual target draft).entries, 0 ≤ entry.2 := by
  intro entry hentry
  rw [(residual_entry htarget.listed hdraft.listed hentry).2]
  exact excess_nonneg

variable [IsStrictOrderedRing α]

theorem acceptance_nonneg : 0 ≤ acceptance target draft proposal :=
  le_min zero_le_one (div_nonneg (SamplingDistribution.probability_nonneg htarget.listed)
    (SamplingDistribution.probability_nonneg hdraft.listed))

theorem totalExcess_pos (hproposal : 0 < draft.probability proposal)
    (hrejects : acceptance target draft proposal < 1) : 0 < totalExcess target draft := by
  have hless : target.probability proposal < draft.probability proposal := by
    rcases min_lt_iff.1 hrejects with hone | hratio
    · exact absurd hone (lt_irrefl _)
    · exact (div_lt_one hproposal).1 hratio
  unfold totalExcess excess
  rw [← sum_excess_eq (sum_target_eq_draft htarget hdraft)]
  refine Finset.sum_pos' (fun _ _ => le_max_left _ _) ⟨proposal, mem_support_of_pos hproposal, ?_⟩
  exact lt_max_of_lt_right (sub_pos.2 hless)

theorem lowerEnd_bounds (htotal : 0 < totalExcess target draft) :
    0 ≤ lowerEnd target draft token ∧
      lowerEnd target draft token + share target draft token ≤ 1 := by
  have hnonneg := residual_nonneg htarget hdraft
  have hbefore : 0 ≤ weights ((residual target draft).entries.takeWhile (·.1 ≠ token)) :=
    weights_nonneg fun entry hentry => hnonneg entry (List.takeWhile_subset _ hentry)
  refine ⟨div_nonneg hbefore htotal.le, ?_⟩
  rw [lowerEnd, share, ← add_div, div_le_one htotal, totalExcess, ← weights_residual htarget.listed hdraft.listed]
  by_cases htoken : token ∈ support target draft
  · obtain ⟨after, hentries, -, -⟩ := residual_split htarget hdraft htoken
    have hafter : 0 ≤ weights after := weights_nonneg fun entry hentry => by
      apply hnonneg entry
      rw [hentries]
      exact List.mem_append_right _ (List.mem_cons_of_mem _ hentry)
    conv_rhs => rw [hentries]
    rw [weights_append, weights_cons, ← add_assoc]
    exact le_add_of_nonneg_right hafter
  · rw [excess_of_not_mem htoken, add_zero, List.takeWhile_eq_self_iff.2]
    intro entry hentry
    have hmem := (residual_entry htarget.listed hdraft.listed hentry).1
    simp only [ne_eq, decide_eq_true_eq]
    exact fun heq => htoken (heq ▸ hmem)

theorem pick_residual_iff (htotal : 0 < totalExcess target draft) (hlow : 0 ≤ correctionUniform) :
    pick (correctionUniform * totalExcess target draft) 0 (residual target draft).entries =
        some token ↔
      lowerEnd target draft token ≤ correctionUniform ∧
        correctionUniform < lowerEnd target draft token + share target draft token := by
  rw [lowerEnd, share, ← add_div, div_le_iff₀ htotal, lt_div_iff₀ htotal]
  by_cases htoken : token ∈ support target draft
  · obtain ⟨after, hentries, hbefore, hafter⟩ := residual_split htarget hdraft htoken
    have hnonneg : ∀ entry ∈ (residual target draft).entries.takeWhile (·.1 ≠ token), 0 ≤ entry.2 :=
      fun entry hentry => residual_nonneg htarget hdraft entry (List.takeWhile_subset _ hentry)
    have hpick := @pick_eq_some_iff _ _ _ _ (correctionUniform * totalExcess target draft) 0
      (excess target draft token) token _ after _ hnonneg hbefore hafter
      (mul_nonneg hlow htotal.le)
    rwa [← hentries, zero_add] at hpick
  · rw [excess_of_not_mem htoken, add_zero]
    refine iff_of_false (fun hpick => htoken ?_) fun hbounds => ?_
    · exact (mem_residual_keys htarget.listed hdraft.listed).1 (mem_keys_of_pick hpick)
    · exact absurd hbounds.2 (not_lt.2 hbounds.1)

variable (hproposal : 0 < draft.probability proposal)
  (hacceptance : 0 ≤ acceptanceUniform ∧ acceptanceUniform < 1)
  (hcorrection : 0 ≤ correctionUniform ∧ correctionUniform < 1)
include hproposal hacceptance hcorrection

theorem rejectionSample_accepts (hbelow : acceptanceUniform < acceptance target draft proposal) :
    rejectionSample proposal target draft acceptanceUniform correctionUniform =
      .ok ⟨true, proposal, target.probability proposal, draft.probability proposal⟩ := by
  have hbelow' : acceptanceUniform <
      min 1 (target.probability proposal / draft.probability proposal) := hbelow
  simp only [rejectionSample, htarget.validate, hdraft.validate, requireUniform,
    not_lt.2 hacceptance.1, hacceptance.2, not_lt.2 hcorrection.1, hcorrection.2, hproposal, hbelow',
    not_true, or_self, if_false, if_true, Bind.bind, Except.bind]

theorem rejectionSample_corrects (habove : acceptance target draft proposal ≤ acceptanceUniform) :
    ∃ token,
      pick (correctionUniform * totalExcess target draft) 0 (residual target draft).entries =
        some token ∧
      rejectionSample proposal target draft acceptanceUniform correctionUniform =
        .ok ⟨false, token, target.probability proposal, draft.probability proposal⟩ := by
  have habove' : ¬ acceptanceUniform <
      min 1 (target.probability proposal / draft.probability proposal) := not_lt.2 habove
  have htotal := totalExcess_pos htarget hdraft hproposal (lt_of_le_of_lt habove hacceptance.2)
  have hweights : weights (residual target draft).entries = totalExcess target draft :=
    weights_residual htarget.listed hdraft.listed
  obtain ⟨token, htoken⟩ : ∃ token,
      pick (correctionUniform * totalExcess target draft) 0 (residual target draft).entries =
        some token := by
    apply pick_isSome (mul_nonneg hcorrection.1 htotal.le)
    rw [hweights, zero_add]
    exact mul_lt_of_lt_one_left htotal hcorrection.2
  refine ⟨token, htoken, ?_⟩
  simp only [rejectionSample, htarget.validate, hdraft.validate, requireUniform,
    not_lt.2 hacceptance.1, hacceptance.2, not_lt.2 hcorrection.1, hcorrection.2, hproposal, habove',
    hweights, htotal, correctionToken_of_pick htoken, not_true, or_self, if_false, Bind.bind,
    Except.bind]

theorem returns_iff : Returns target draft proposal acceptanceUniform correctionUniform token ↔
    (acceptanceUniform < acceptance target draft proposal ∧ proposal = token) ∨
      (acceptance target draft proposal ≤ acceptanceUniform ∧
        lowerEnd target draft token ≤ correctionUniform ∧
        correctionUniform < lowerEnd target draft token + share target draft token) := by
  unfold Returns
  rcases lt_or_ge acceptanceUniform (acceptance target draft proposal) with hbelow | habove
  · rw [rejectionSample_accepts htarget hdraft hproposal hacceptance hcorrection hbelow]
    simp [hbelow, not_le.2 hbelow]
  · obtain ⟨other, hpick, hresult⟩ :=
      rejectionSample_corrects htarget hdraft hproposal hacceptance hcorrection habove
    have htotal := totalExcess_pos htarget hdraft hproposal (lt_of_le_of_lt habove hacceptance.2)
    rw [hresult, ← pick_residual_iff htarget hdraft htotal hcorrection.1, hpick]
    simp [habove, not_lt.2 habove]

end

end

/-! ## The law of a decision -/

section

open MeasureTheory Set

scoped instance tokenSpace : MeasurableSpace UInt32 := ⊤

scoped instance tokenSpace_discrete : DiscreteMeasurableSpace UInt32 := ⟨fun _ => trivial⟩

scoped instance tokens_countable : Countable UInt32 := ⟨⟨UInt32.toNat, fun _ _ => UInt32.toNat_inj.1⟩⟩

variable {target draft : SamplingDistribution ℝ} {proposal token : UInt32}

/-- A proposal drawn from the draft, and two independent uniforms. -/
noncomputable def draws (draft : SamplingDistribution ℝ) : Measure (UInt32 × ℝ × ℝ) :=
  (law (draft.entries.map fun entry => (entry.token, entry.probability))).prod
    (uniform.prod uniform)

/-- The draws on which a decision returns the token. -/
def returning (target draft : SamplingDistribution ℝ) (token : UInt32) : Set (UInt32 × ℝ × ℝ) :=
  {draw | Returns target draft draw.1 draw.2.1 draw.2.2 token}

/-- The uniforms that keep the proposal or replace it by the token. -/
def keeps (target draft : SamplingDistribution ℝ) (proposal token : UInt32) : Set (ℝ × ℝ) :=
  if proposal = token then Ico 0 (acceptance target draft proposal) ×ˢ Ico 0 1 else ∅

def corrects (target draft : SamplingDistribution ℝ) (proposal token : UInt32) : Set (ℝ × ℝ) :=
  if 0 < totalExcess target draft then
    Ico (acceptance target draft proposal) 1 ×ˢ
      Ico (lowerEnd target draft token) (lowerEnd target draft token + share target draft token)
  else ∅

theorem Returns.uniform {acceptanceUniform correctionUniform : ℝ}
    (h : Returns target draft proposal acceptanceUniform correctionUniform token) :
    0 < draft.probability proposal ∧ (0 ≤ acceptanceUniform ∧ acceptanceUniform < 1) ∧
      0 ≤ correctionUniform ∧ correctionUniform < 1 := by
  obtain ⟨result, hresult, -⟩ := h
  have hchecked : ∀ value : ℝ, requireUniform value = .ok () → 0 ≤ value ∧ value < 1 := by
    intro value hvalue
    unfold requireUniform at hvalue
    split at hvalue
    next => cases hvalue
    next hgood => exact ⟨not_lt.1 (not_or.1 hgood).1, not_not.1 (not_or.1 hgood).2⟩
  simp only [rejectionSample, Bind.bind, Except.bind] at hresult
  cases htarget : validateDistribution target with
  | error error => simp [htarget] at hresult
  | ok =>
    cases hdraft : validateDistribution draft with
    | error error => simp [htarget, hdraft] at hresult
    | ok =>
      cases hfirst : requireUniform acceptanceUniform with
      | error error => simp [htarget, hdraft, hfirst] at hresult
      | ok =>
        cases hsecond : requireUniform correctionUniform with
        | error error => simp [htarget, hdraft, hfirst, hsecond] at hresult
        | ok =>
          refine ⟨?_, hchecked _ hfirst, hchecked _ hsecond⟩
          by_contra hzero
          simp [htarget, hdraft, hfirst, hsecond, hzero] at hresult

section

variable (htarget : target.Normalized) (hdraft : draft.Normalized)
include htarget hdraft

theorem returning_section (hproposal : 0 < draft.probability proposal) :
    Set.preimage (Prod.mk proposal) (returning target draft token) =
      keeps target draft proposal token ∪ corrects target draft proposal token := by
  ext ⟨acceptanceUniform, correctionUniform⟩
  have haccept := @acceptance_nonneg _ _ _ _ _ proposal htarget hdraft _
  constructor
  · intro hreturns
    obtain ⟨-, hfirst, hsecond⟩ := hreturns.uniform
    rcases (returns_iff htarget hdraft hproposal hfirst hsecond).1 hreturns with
      ⟨hbelow, htoken⟩ | ⟨habove, hinterval⟩
    · exact Or.inl (by simp [keeps, htoken] at hbelow ⊢; exact ⟨⟨hfirst.1, hbelow⟩, hsecond⟩)
    · have htotal := totalExcess_pos htarget hdraft hproposal (lt_of_le_of_lt habove hfirst.2)
      refine Or.inr ?_
      rw [corrects, if_pos htotal]
      exact ⟨⟨habove, hfirst.2⟩, hinterval⟩
  · rintro (hkeeps | hcorrects)
    · unfold keeps at hkeeps
      split at hkeeps
      next htoken =>
        obtain ⟨hfirst, hsecond⟩ := hkeeps
        have hone := lt_of_lt_of_le hfirst.2 acceptance_le_one
        exact (returns_iff htarget hdraft hproposal ⟨hfirst.1, hone⟩ hsecond).2
          (Or.inl ⟨hfirst.2, htoken⟩)
      next => cases hkeeps
    · unfold corrects at hcorrects
      split at hcorrects
      next htotal =>
        obtain ⟨hfirst, hsecond⟩ := hcorrects
        obtain ⟨hlow, hhigh⟩ := @lowerEnd_bounds _ _ _ _ _ token htarget hdraft _ htotal
        have hunit : 0 ≤ correctionUniform ∧ correctionUniform < 1 :=
          ⟨hlow.trans hsecond.1, lt_of_lt_of_le hsecond.2 hhigh⟩
        exact (returns_iff htarget hdraft hproposal ⟨haccept.trans hfirst.1, hfirst.2⟩ hunit).2
          (Or.inr ⟨hfirst.1, hsecond⟩)
      next => cases hcorrects

theorem measurableSet_returning : MeasurableSet (returning target draft token) := by
  have hsections : returning target draft token =
      ⋃ proposal : UInt32,
        {proposal} ×ˢ Set.preimage (Prod.mk proposal) (returning target draft token) := by
    ext ⟨proposal, uniforms⟩
    simp
  rw [hsections]
  refine MeasurableSet.iUnion fun proposal => (measurableSet_singleton proposal).prod ?_
  by_cases hproposal : 0 < draft.probability proposal
  · rw [returning_section htarget hdraft hproposal]
    unfold keeps corrects
    apply MeasurableSet.union
    · split
      · exact measurableSet_Ico.prod measurableSet_Ico
      · exact MeasurableSet.empty
    · split
      · exact measurableSet_Ico.prod measurableSet_Ico
      · exact MeasurableSet.empty
  · have hnone : Set.preimage (Prod.mk proposal) (returning target draft token) = ∅ := by
      apply eq_empty_of_forall_notMem
      intro uniforms hreturns
      exact hproposal (Returns.uniform hreturns).1
    rw [hnone]
    exact MeasurableSet.empty

theorem uniform_section (hproposal : 0 < draft.probability proposal) :
    (uniform.prod uniform) (Set.preimage (Prod.mk proposal) (returning target draft token)) =
      ENNReal.ofReal ((if proposal = token then acceptance target draft proposal else 0) +
        (1 - acceptance target draft proposal) * share target draft token) := by
  have haccept := @acceptance_nonneg _ _ _ _ _ proposal htarget hdraft _
  have hone : acceptance target draft proposal ≤ 1 := acceptance_le_one
  have hdisjoint : Disjoint (keeps target draft proposal token)
      (corrects target draft proposal token) := by
    rw [Set.disjoint_left]
    rintro ⟨first, second⟩ hkeeps hcorrects
    unfold keeps at hkeeps
    unfold corrects at hcorrects
    split at hkeeps <;> split at hcorrects
    · exact absurd hkeeps.1.2 (not_lt.2 hcorrects.1.1)
    all_goals first | exact absurd hkeeps (notMem_empty _) | exact absurd hcorrects (notMem_empty _)
  have hmeasurable : MeasurableSet (corrects target draft proposal token) := by
    unfold corrects
    split
    · exact measurableSet_Ico.prod measurableSet_Ico
    · exact MeasurableSet.empty
  have hkept : (uniform.prod uniform) (keeps target draft proposal token) =
      ENNReal.ofReal (if proposal = token then acceptance target draft proposal else 0) := by
    unfold keeps
    split
    · rw [uniform_prod_Ico le_rfl hone le_rfl le_rfl, sub_zero, sub_zero, ENNReal.ofReal_one, mul_one]
    · rw [measure_empty, ENNReal.ofReal_zero]
  have hshare : 0 ≤ (1 - acceptance target draft proposal) * share target draft token := by
    refine mul_nonneg (sub_nonneg.2 hone) (div_nonneg excess_nonneg ?_)
    exact Finset.sum_nonneg fun _ _ => excess_nonneg
  have hcorrected : (uniform.prod uniform) (corrects target draft proposal token) =
      ENNReal.ofReal ((1 - acceptance target draft proposal) * share target draft token) := by
    unfold corrects
    split
    next htotal =>
      obtain ⟨hlow, hhigh⟩ := @lowerEnd_bounds _ _ _ _ _ token htarget hdraft _ htotal
      rw [uniform_prod_Ico haccept le_rfl hlow hhigh, add_sub_cancel_left,
        ENNReal.ofReal_mul (sub_nonneg.2 hone)]
    next hzero =>
      have hkeepsAll : acceptance target draft proposal = 1 := by
        by_contra hne
        exact hzero (totalExcess_pos htarget hdraft hproposal (lt_of_le_of_ne hone hne))
      rw [hkeepsAll, sub_self, zero_mul, ENNReal.ofReal_zero, measure_empty]
  rw [returning_section htarget hdraft hproposal, measure_union hdisjoint hmeasurable, hkept,
    hcorrected, ENNReal.ofReal_add (by split <;> simp [haccept]) hshare]

theorem residual_identity : draft.probability token * acceptance target draft token +
      (∑ other ∈ support target draft,
          draft.probability other * (1 - acceptance target draft other)) *
        excess target draft token / totalExcess target draft =
      target.probability token := by
  by_cases htoken : token ∈ support target draft
  · exact rejection_identity (fun _ _ => SamplingDistribution.probability_nonneg htarget.listed)
      (fun _ _ => SamplingDistribution.probability_nonneg hdraft.listed)
      (sum_target_eq_draft htarget hdraft) htoken
  · have hexcess := excess_of_not_mem htoken
    simp only [support, List.mem_toFinset, List.mem_append, not_or] at htoken
    rw [SamplingDistribution.probability_of_not_mem htoken.1,
      SamplingDistribution.probability_of_not_mem htoken.2, hexcess, zero_mul, mul_zero, zero_div,
      add_zero]

theorem draws_returning :
    draws draft (returning target draft token) = ENNReal.ofReal (target.probability token) := by
  have hterm : ∀ entry ∈ draft.entries,
      ENNReal.ofReal entry.probability *
          (uniform.prod uniform)
            (Set.preimage (Prod.mk entry.token) (returning target draft token)) =
        ENNReal.ofReal (entry.probability *
          ((if entry.token = token then acceptance target draft entry.token else 0) +
            (1 - acceptance target draft entry.token) * share target draft token)) := by
    intro entry hentry
    have hnonneg := hdraft.nonneg entry hentry
    rw [ENNReal.ofReal_mul hnonneg]
    rcases hnonneg.eq_or_lt with hzero | hpos
    · rw [← hzero, ENNReal.ofReal_zero, zero_mul, zero_mul]
    · rw [← SamplingDistribution.probability_of_mem hdraft.listed hentry] at hpos
      rw [uniform_section htarget hdraft hpos]
  have hweight : ∀ proposal, 0 ≤ (if proposal = token then acceptance target draft proposal else 0) +
      (1 - acceptance target draft proposal) * share target draft token := by
    intro proposal
    have hkeep : (0 : ℝ) ≤ if proposal = token then acceptance target draft proposal else 0 := by
      split
      · exact acceptance_nonneg htarget hdraft
      · exact le_rfl
    exact add_nonneg hkeep (mul_nonneg (sub_nonneg.2 acceptance_le_one)
      (div_nonneg excess_nonneg (Finset.sum_nonneg fun _ _ => excess_nonneg)))
  rw [draws, Measure.prod_apply (measurableSet_returning htarget hdraft), lintegral_law, List.map_map,
    Function.comp_def, List.map_congr_left hterm,
    sum_ofReal fun entry hentry => mul_nonneg (hdraft.nonneg entry hentry) (hweight entry.token),
    SamplingDistribution.sum_entries (f := fun proposal weight => weight *
      ((if proposal = token then acceptance target draft proposal else 0) +
        (1 - acceptance target draft proposal) * share target draft token)) hdraft
      tokens_subset_draft fun _ => zero_mul _]
  congr 1
  calc
    ∑ other ∈ support target draft, draft.probability other *
        ((if other = token then acceptance target draft other else 0) +
          (1 - acceptance target draft other) * share target draft token)
      = (∑ other ∈ support target draft,
            if other = token then draft.probability other * acceptance target draft other else 0) +
          (∑ other ∈ support target draft,
            draft.probability other * (1 - acceptance target draft other)) *
              share target draft token := by
        rw [Finset.sum_mul, ← Finset.sum_add_distrib]
        refine Finset.sum_congr rfl fun other _ => ?_
        split <;> ring
    _ = draft.probability token * acceptance target draft token +
          (∑ other ∈ support target draft,
            draft.probability other * (1 - acceptance target draft other)) *
              excess target draft token / totalExcess target draft := by
        rw [Finset.sum_ite_eq', share, mul_div_assoc]
        split
        next => rfl
        next hnot =>
          have hzero : draft.probability token = 0 :=
            SamplingDistribution.probability_of_not_mem fun hmem =>
              hnot (tokens_subset_draft (List.mem_toFinset.2 hmem))
          rw [hzero, zero_mul]
    _ = target.probability token := residual_identity htarget hdraft

omit htarget in
theorem draws_univ : draws draft univ = 1 := by
  have hlaw : law (draft.entries.map fun entry => (entry.token, entry.probability)) univ = 1 := by
    rw [← lintegral_one, lintegral_law, List.map_map]
    simp only [Function.comp_def, mul_one]
    rw [sum_ofReal hdraft.nonneg, hdraft.total, ENNReal.ofReal_one]
  rw [draws, ← univ_prod_univ, Measure.prod_prod, hlaw, measure_univ, one_mul]

end

/-- A decision returns each token with the probability the target gives it; a
rejected proposal is replaced by a token for an interval of correction uniforms
that is exactly the token's share of the residual. -/
theorem rejection_sample_preserves_target (target draft : SamplingDistribution ℝ)
    (htarget : target.Normalized) (hdraft : draft.Normalized) (token : UInt32) :
    draws draft univ = 1 ∧
    draws draft {draw | Returns target draft draw.1 draw.2.1 draw.2.2 token} =
      ENNReal.ofReal (target.probability token) ∧
    draft.probability token * min 1 (target.probability token / draft.probability token) +
      (∑ other ∈ support target draft, draft.probability other *
          (1 - min 1 (target.probability other / draft.probability other))) *
        max 0 (target.probability token - draft.probability token) /
          ∑ other ∈ support target draft,
            max 0 (target.probability other - draft.probability other) =
      target.probability token ∧
    ∀ proposal acceptanceUniform, 0 < draft.probability proposal →
      min 1 (target.probability proposal / draft.probability proposal) ≤ acceptanceUniform →
      0 ≤ acceptanceUniform ∧ acceptanceUniform < 1 →
      ∃ low high : ℝ, 0 ≤ low ∧ high ≤ 1 ∧
        high - low = max 0 (target.probability token - draft.probability token) /
          ∑ other ∈ support target draft,
            max 0 (target.probability other - draft.probability other) ∧
        ∀ correctionUniform,
          Returns target draft proposal acceptanceUniform correctionUniform token ↔
            correctionUniform ∈ Ico low high := by
  refine ⟨draws_univ hdraft, draws_returning htarget hdraft, residual_identity htarget hdraft, ?_⟩
  intro proposal acceptanceUniform hproposal habove hunit
  have htotal := totalExcess_pos htarget hdraft hproposal (lt_of_le_of_lt habove hunit.2)
  obtain ⟨hlow, hhigh⟩ := @lowerEnd_bounds _ _ _ _ _ token htarget hdraft _ htotal
  refine ⟨lowerEnd target draft token, lowerEnd target draft token + share target draft token, hlow,
    hhigh, add_sub_cancel_left _ _, fun correctionUniform => ?_⟩
  have hrejected : ¬ acceptanceUniform < acceptance target draft proposal := not_lt.2 habove
  constructor
  · intro hreturns
    rcases (returns_iff htarget hdraft hproposal hunit hreturns.uniform.2.2).1 hreturns with
      hkept | hcorrected
    · exact absurd hkept.1 hrejected
    · exact hcorrected.2
  · intro hinterval
    have hcorrection : 0 ≤ correctionUniform ∧ correctionUniform < 1 :=
      ⟨hlow.trans hinterval.1, lt_of_lt_of_le hinterval.2 hhigh⟩
    exact (returns_iff htarget hdraft hproposal hunit hcorrection).2 (Or.inr ⟨habove, hinterval⟩)

/-- A draft that proposes one token for a target that wants two. -/
theorem fair_pair_preserved :
    draws ⟨[⟨1, 1⟩]⟩ {draw | Returns ⟨[⟨1, 1 / 2⟩, ⟨2, 1 / 2⟩]⟩ ⟨[⟨1, 1⟩]⟩ draw.1 draw.2.1 draw.2.2 2} =
      ENNReal.ofReal (1 / 2) := by
  have htarget : (⟨[⟨1, 1 / 2⟩, ⟨2, 1 / 2⟩]⟩ : SamplingDistribution ℝ).Normalized :=
    ⟨by simp, by decide, by norm_num⟩
  have hdraft : (⟨[⟨1, 1⟩]⟩ : SamplingDistribution ℝ).Normalized := ⟨by simp, by decide, by simp⟩
  exact (rejection_sample_preserves_target _ _ htarget hdraft 2).2.1

end

end QuantumLlm.Runtime.SpeculativeSampling
