import QuantumLlm.Runtime.Mtp.Logits

/-!
# Sampling from accepted distributions

A distribution is accepted when its sum is within a tolerance of one. A uniform above
a sum that is too small falls through to the last entry, and a draft that exceeds the
target everywhere leaves nothing to correct a rejected proposal with.
-/

namespace QuantumLlm.Runtime.SpeculativeSampling

open Mtp (sampleDistribution)

variable {α : Type} [Field α] [LinearOrder α]

section

variable {distribution target draft : SamplingDistribution α} {uniform : α}

def SamplingDistribution.total (distribution : SamplingDistribution α) : α :=
  weights (distribution.entries.map fun entry => (entry.token, entry.probability))

theorem totalProbability_ok {entries : List (TokenProbability α)} {start total : α}
    (h : totalProbability start entries = .ok total) : ∀ entry ∈ entries, 0 ≤ entry.probability := by
  induction entries generalizing start with
  | nil => exact fun entry hentry => absurd hentry List.not_mem_nil
  | cons entry rest ih =>
    rw [totalProbability] at h
    split at h
    next => cases h
    next hnonneg => exact List.forall_mem_cons.2 ⟨not_lt.1 hnonneg, ih h⟩

theorem listed_of_validate (h : validateDistribution distribution = .ok ()) :
    distribution.Listed := by
  rw [validateDistribution] at h
  split at h
  next => cases h
  next =>
    cases htotal : totalProbability 0 distribution.entries with
    | error error => simp [htotal, Bind.bind, Except.bind] at h
    | ok total =>
      refine ⟨totalProbability_ok htotal, ?_⟩
      by_contra hrepeated
      simp [htotal, hrepeated, Bind.bind, Except.bind] at h

/-- What a sample is to be: a token that the distribution gives a probability. -/
def SamplesPossible (distribution : SamplingDistribution α) (uniform : α) : Prop :=
  ∃ token, sampleDistribution distribution uniform = .ok token ∧
    0 < distribution.probability token

/-- Likewise of a decision, whose error is a missing correction. -/
def DecidesPossible (target draft : SamplingDistribution α) (proposal : UInt32)
    (acceptanceUniform correctionUniform : α) : Prop :=
  ∃ result, rejectionSample proposal target draft acceptanceUniform correctionUniform =
    .ok result ∧ 0 < target.probability result.token

/-- The last entry has a probability. -/
def LastPositive (distribution : SamplingDistribution α) : Prop :=
  ∃ last, distribution.entries.getLast? = some last ∧ 0 < last.probability

theorem sampleDistribution_eq (h : validateDistribution distribution = .ok ()) (hlow : 0 ≤ uniform)
    (hhigh : uniform < 1) : sampleDistribution distribution uniform =
      .ok ((pick uniform 0 (distribution.entries.map fun entry =>
        (entry.token, entry.probability))).getD
          ((distribution.entries.getLast?.map TokenProbability.token).getD 0)) := by
  rw [sampleDistribution, h]
  simp [requireUniform, not_lt.2 hlow, hhigh, Bind.bind, Except.bind, pure, Except.pure]

end

variable [IsStrictOrderedRing α]

section

variable {distribution : SamplingDistribution α} {uniform : α}

theorem pick_none_of_le {K : Type} {threshold cumulative : α} {entries : List (K × α)}
    (hnonneg : ∀ entry ∈ entries, 0 ≤ entry.2) (h : cumulative + weights entries ≤ threshold) :
    pick threshold cumulative entries = none := by
  induction entries generalizing cumulative with
  | nil => rfl
  | cons entry rest ih =>
    have hrest := weights_nonneg fun other hother => hnonneg other (List.mem_cons_of_mem _ hother)
    rw [weights_cons] at h
    rw [pick, if_neg (by linarith)]
    exact ih (fun other hother => hnonneg other (List.mem_cons_of_mem _ hother)) (by linarith)

theorem samplesPossible_iff (h : validateDistribution distribution = .ok ()) (hlow : 0 ≤ uniform)
    (hhigh : uniform < 1) : SamplesPossible distribution uniform ↔
      uniform < distribution.total ∨ LastPositive distribution := by
  have hlisted := listed_of_validate h
  rw [SamplesPossible, sampleDistribution_eq h hlow hhigh]
  simp only [Except.ok.injEq, exists_eq_left']
  by_cases hbelow : uniform < distribution.total
  · obtain ⟨token, hpick⟩ := pick_isSome hlow (by rwa [zero_add])
    obtain ⟨weight, hmem, hpos⟩ := exists_of_pick hlow hpick
    obtain ⟨entry, hentry, heq⟩ := List.mem_map.1 hmem
    cases heq
    rw [hpick, Option.getD_some, SamplingDistribution.probability_of_mem hlisted hentry]
    exact iff_of_true hpos (.inl hbelow)
  · have hnone : pick uniform 0 (distribution.entries.map fun entry =>
        (entry.token, entry.probability)) = none := by
      apply pick_none_of_le (by simpa using hlisted.nonneg)
      rw [zero_add]
      exact not_lt.1 hbelow
    rw [hnone, Option.getD_none]
    cases hlast : distribution.entries.getLast? with
    | none =>
      rw [List.getLast?_eq_none_iff] at hlast
      rw [validateDistribution, hlast] at h
      cases h
    | some last =>
      have hmem := List.mem_of_getLast? hlast
      simp only [Option.map_some, Option.getD_some, LastPositive, hlast, Option.some.injEq,
        exists_eq_left', hbelow, false_or]
      rw [SamplingDistribution.probability_of_mem hlisted hmem]

end

section

variable {target draft : SamplingDistribution α} {proposal : UInt32}
  {acceptanceUniform correctionUniform : α}

/-- The target exceeds the draft somewhere. -/
def Exceeds (target draft : SamplingDistribution α) : Prop :=
  ∃ token, draft.probability token < target.probability token

theorem totalExcess_pos_iff (hdraft : draft.Listed) :
    0 < totalExcess target draft ↔ Exceeds target draft := by
  rw [totalExcess, Finset.sum_pos_iff_of_nonneg fun _ _ => excess_nonneg]
  constructor
  · rintro ⟨token, -, hpos⟩
    rcases lt_max_iff.1 hpos with habsurd | hmore
    · exact absurd habsurd (lt_irrefl 0)
    · exact ⟨token, sub_pos.1 hmore⟩
  · rintro ⟨token, hless⟩
    refine ⟨token, ?_, lt_max_of_lt_right (sub_pos.2 hless)⟩
    apply tokens_subset_target
    by_contra hnot
    have hdraftNonneg := @SamplingDistribution.probability_nonneg _ _ _ draft token hdraft
    have hzero : target.probability token = 0 :=
      SamplingDistribution.probability_of_not_mem (by simpa using hnot)
    rw [hzero] at hless
    exact absurd hdraftNonneg (not_le.2 hless)

variable (htarget : validateDistribution target = .ok ())
  (hdraft : validateDistribution draft = .ok ()) (hproposal : 0 < draft.probability proposal)
  (hacceptance : 0 ≤ acceptanceUniform ∧ acceptanceUniform < 1)
  (hcorrection : 0 ≤ correctionUniform ∧ correctionUniform < 1)
include htarget hdraft hproposal hacceptance hcorrection

/-- A decision is possible when the proposal is kept, or something is there to replace it. -/
theorem decidesPossible_iff :
    DecidesPossible target draft proposal acceptanceUniform correctionUniform ↔
      acceptanceUniform < min 1 (target.probability proposal / draft.probability proposal) ∨
        Exceeds target draft := by
  have hlisted := listed_of_validate htarget
  have hlisted' := listed_of_validate hdraft
  have hweights : weights (residual target draft).entries = totalExcess target draft :=
    weights_residual hlisted hlisted'
  rw [DecidesPossible]
  by_cases hkeeps : acceptanceUniform <
      min 1 (target.probability proposal / draft.probability proposal)
  · have hpositive : 0 < target.probability proposal := by
      have hratio := hacceptance.1.trans_lt (lt_min_iff.1 hkeeps).2
      exact (div_pos_iff_of_pos_right hproposal).1 hratio
    simp only [rejectionSample, htarget, hdraft, requireUniform, not_lt.2 hacceptance.1,
      hacceptance.2, not_lt.2 hcorrection.1, hcorrection.2, hproposal, hkeeps, not_true, or_self,
      if_false, if_true, Bind.bind, Except.bind, Except.ok.injEq, exists_eq_left', true_or,
      hpositive]
  · rw [← totalExcess_pos_iff hlisted']
    simp only [rejectionSample, htarget, hdraft, requireUniform, not_lt.2 hacceptance.1,
      hacceptance.2, not_lt.2 hcorrection.1, hcorrection.2, hproposal, hkeeps, not_true, or_self,
      if_false, Bind.bind, Except.bind, false_or, hweights]
    by_cases htotal : 0 < totalExcess target draft
    · obtain ⟨token, hpick⟩ : ∃ token, pick (correctionUniform * totalExcess target draft) 0
          (residual target draft).entries = some token := by
        apply pick_isSome (mul_nonneg hcorrection.1 htotal.le)
        rw [hweights, zero_add]
        exact mul_lt_of_lt_one_left htotal hcorrection.2
      obtain ⟨weight, hmem, hpos⟩ := exists_of_pick (mul_nonneg hcorrection.1 htotal.le) hpick
      have hexcess := (residual_entry hlisted hlisted' hmem).2
      dsimp only at hexcess
      have hless : 0 < target.probability token := by
        rw [hexcess, excess] at hpos
        have hnonneg := @SamplingDistribution.probability_nonneg _ _ _ draft token hlisted'
        rcases lt_max_iff.1 hpos with habsurd | hmore
        · exact absurd habsurd (lt_irrefl 0)
        · exact hnonneg.trans_lt (sub_pos.1 hmore)
      simp [htotal, correctionToken_of_pick hpick, hless]
    · simp [htotal]

end

/-- A sum that is too small, with an impossible token at its end. -/
def shortDistribution : SamplingDistribution ℚ := ⟨[⟨1, 1 - 1 / 2 / 10 ^ 10⟩, ⟨2, 0⟩]⟩

/-- A draft above a target, each within the tolerance. -/
def evenTarget : SamplingDistribution ℚ := ⟨[⟨1, 1 / 2⟩, ⟨2, 1 / 2⟩]⟩

def highDraft : SamplingDistribution ℚ := ⟨[⟨1, 1 / 2 + 1 / 2 / 10 ^ 10⟩, ⟨2, 1 / 2⟩]⟩

/-- For every accepted distribution and uniform, exactly when a sample is possible; for every
accepted target and draft and every proposal, exactly when a decision is. -/
theorem sampling_possible_iff (target draft : SamplingDistribution ℚ)
    (htarget : validateDistribution target = .ok ()) (hdraft : validateDistribution draft = .ok ()) :
    (∀ uniform, 0 ≤ uniform → uniform < 1 → (SamplesPossible target uniform ↔
      uniform < target.total ∨ LastPositive target)) ∧
    ∀ proposal acceptanceUniform correctionUniform, 0 < draft.probability proposal →
      0 ≤ acceptanceUniform ∧ acceptanceUniform < 1 →
      0 ≤ correctionUniform ∧ correctionUniform < 1 →
      (DecidesPossible target draft proposal acceptanceUniform correctionUniform ↔
        acceptanceUniform < min 1 (target.probability proposal / draft.probability proposal) ∨
          Exceeds target draft) :=
  ⟨fun _ hlow hhigh => samplesPossible_iff htarget hlow hhigh,
    fun _ _ _ hproposal hacceptance hcorrection =>
      decidesPossible_iff htarget hdraft hproposal hacceptance hcorrection⟩

theorem sampling_possible_even : SamplesPossible evenTarget (1 / 2) ∧
    DecidesPossible evenTarget evenTarget 1 (1 / 2) (1 / 2) := by
  have haccepted : validateDistribution evenTarget = .ok () := by decide +kernel
  obtain ⟨hsamples, hdecides⟩ := sampling_possible_iff evenTarget evenTarget haccepted haccepted
  refine ⟨(hsamples _ (by norm_num) (by norm_num)).2 (.inl ?_),
    (hdecides 1 _ _ ?_ ⟨by norm_num, by norm_num⟩ ⟨by norm_num, by norm_num⟩).2 (.inl ?_)⟩
  · decide +kernel
  · decide +kernel
  · decide +kernel

/-- Neither is always possible. -/
theorem sampling_impossible :
    ¬ (∀ distribution : SamplingDistribution ℚ, validateDistribution distribution = .ok () →
      ∀ uniform, 0 ≤ uniform → uniform < 1 → SamplesPossible distribution uniform) ∧
    ¬ ∀ target draft : SamplingDistribution ℚ, validateDistribution target = .ok () →
      validateDistribution draft = .ok () → ∀ proposal acceptanceUniform correctionUniform,
      0 < draft.probability proposal → 0 ≤ acceptanceUniform ∧ acceptanceUniform < 1 →
      0 ≤ correctionUniform ∧ correctionUniform < 1 →
      DecidesPossible target draft proposal acceptanceUniform correctionUniform := by
  constructor
  · intro h
    have haccepted : validateDistribution shortDistribution = .ok () := by decide +kernel
    obtain ⟨token, hsample, hpositive⟩ := h shortDistribution haccepted (1 - 1 / 4 / 10 ^ 10)
      (by norm_num) (by norm_num)
    have hlast : sampleDistribution shortDistribution (1 - 1 / 4 / 10 ^ 10) = .ok 2 := by
      decide +kernel
    obtain rfl : 2 = token := Except.ok.inj (hlast.symm.trans hsample)
    exact absurd hpositive (by decide +kernel)
  · intro h
    have haccepted : validateDistribution evenTarget = .ok () := by decide +kernel
    have haccepted' : validateDistribution highDraft = .ok () := by decide +kernel
    obtain ⟨result, hresult, -⟩ := h evenTarget highDraft haccepted haccepted' 1
      (1 - 1 / 4 / 10 ^ 10) 0 (by decide +kernel) ⟨by norm_num, by norm_num⟩
      ⟨le_refl _, by norm_num⟩
    have hraised : (rejectionSample 1 evenTarget highDraft (1 - 1 / 4 / 10 ^ 10) 0).isOk =
        false := by
      decide +kernel
    rw [hresult] at hraised
    cases hraised

end QuantumLlm.Runtime.SpeculativeSampling
