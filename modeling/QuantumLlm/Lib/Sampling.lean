import Mathlib.Algebra.BigOperators.Group.Finset.Basic
import Mathlib.Algebra.Order.BigOperators.Group.Finset
import Mathlib.Algebra.Order.Field.Basic
import Mathlib.MeasureTheory.Measure.Lebesgue.Basic
import Mathlib.MeasureTheory.Measure.Prod
import Mathlib.Tactic.Linarith
import Mathlib.Tactic.FieldSimp

/-!
# Sampling with uniform draws

A walk over weighted items selects the first one whose running sum exceeds a
threshold; a uniform threshold selects each item with its share of the weight.
Two distributions are related by what rejection leaves of the first one.
-/

namespace QuantumLlm

open List

section

variable {K α : Type*} [Field α]

def weights (entries : List (K × α)) : α := (entries.map Prod.snd).sum

@[simp] theorem weights_nil : weights ([] : List (K × α)) = 0 := rfl

@[simp] theorem weights_cons {entry : K × α} {rest : List (K × α)} :
    weights (entry :: rest) = entry.2 + weights rest := by
  simp [weights]

theorem weights_append {left right : List (K × α)} :
    weights (left ++ right) = weights left + weights right := by
  simp [weights]

variable [LinearOrder α]

/-- The first item whose running sum exceeds the threshold. -/
def pick (threshold : α) : α → List (K × α) → Option K
  | _, [] => none
  | cumulative, (key, weight) :: rest =>
    if threshold < cumulative + weight then some key
    else pick threshold (cumulative + weight) rest

variable {threshold cumulative weight : α} {key : K} {entries before after : List (K × α)}

theorem pick_cons (threshold cumulative : α) (entry : K × α) (rest : List (K × α)) :
    pick threshold cumulative (entry :: rest) =
      if threshold < cumulative + entry.2 then some entry.1
      else pick threshold (cumulative + entry.2) rest := rfl

theorem mem_keys_of_pick (h : pick threshold cumulative entries = some key) :
    key ∈ entries.map Prod.fst := by
  induction entries generalizing cumulative with
  | nil => cases h
  | cons entry rest ih =>
    simp only [pick_cons] at h
    split at h
    next => simp [← Option.some.inj h]
    next => exact mem_cons_of_mem _ (ih h)

theorem pick_isSome (hlow : cumulative ≤ threshold)
    (hhigh : threshold < cumulative + weights entries) :
    ∃ key, pick threshold cumulative entries = some key := by
  induction entries generalizing cumulative with
  | nil =>
    rw [weights_nil, add_zero] at hhigh
    exact absurd hhigh (not_lt.2 hlow)
  | cons entry rest ih =>
    rw [weights_cons, ← add_assoc] at hhigh
    simp only [pick_cons]
    by_cases hstop : threshold < cumulative + entry.2
    · exact ⟨entry.1, if_pos hstop⟩
    · rw [if_neg hstop]
      exact ih (not_lt.1 hstop) hhigh

theorem exists_of_pick [IsStrictOrderedRing α] (hlow : cumulative ≤ threshold)
    (h : pick threshold cumulative entries = some key) :
    ∃ weight, (key, weight) ∈ entries ∧ 0 < weight := by
  induction entries generalizing cumulative with
  | nil => cases h
  | cons entry rest ih =>
    simp only [pick_cons] at h
    split at h
    next hstop =>
      refine ⟨entry.2, ?_, by linarith⟩
      rw [← Option.some.inj h]
      exact mem_cons_self
    next hpass =>
      obtain ⟨weight, hmem, hpos⟩ := ih (not_lt.1 hpass) h
      exact ⟨weight, mem_cons_of_mem _ hmem, hpos⟩

variable [IsStrictOrderedRing α]

theorem weights_nonneg (h : ∀ entry ∈ entries, 0 ≤ entry.2) : 0 ≤ weights entries := by
  apply sum_nonneg
  intro weight hweight
  obtain ⟨entry, hentry, rfl⟩ := mem_map.1 hweight
  exact h entry hentry

theorem pick_eq_some_iff (hnonneg : ∀ entry ∈ before, 0 ≤ entry.2)
    (hbefore : key ∉ before.map Prod.fst) (hafter : key ∉ after.map Prod.fst)
    (hlow : cumulative ≤ threshold) :
    pick threshold cumulative (before ++ (key, weight) :: after) = some key ↔
      cumulative + weights before ≤ threshold ∧
        threshold < cumulative + weights before + weight := by
  induction before generalizing cumulative with
  | nil =>
    simp only [nil_append, pick_cons, weights_nil, add_zero, hlow, true_and]
    split
    next hstop => simp [hstop]
    next hpass => refine iff_of_false (fun hpick => hafter (mem_keys_of_pick hpick)) hpass
  | cons entry rest ih =>
    obtain ⟨hne, hrest⟩ : key ≠ entry.1 ∧ key ∉ rest.map Prod.fst := by
      simpa [not_or] using hbefore
    have htail : ∀ other ∈ rest, 0 ≤ other.2 := fun other hother =>
      hnonneg other (mem_cons_of_mem _ hother)
    simp only [cons_append, pick_cons, weights_cons, ← add_assoc]
    split
    next hstop =>
      have hrestNonneg := weights_nonneg htail
      refine iff_of_false (fun hpick => hne (Option.some.inj hpick).symm) fun hbounds => ?_
      linarith [hbounds.1]
    next hpass => exact ih htail hrest (not_lt.1 hpass)

end

section

variable {ι α : Type*} [Field α] [LinearOrder α] [IsStrictOrderedRing α] {support : Finset ι}
  {target draft : ι → α}

theorem mul_min_div {left right : α} (hleft : 0 ≤ left) (hright : 0 ≤ right) :
    right * min 1 (left / right) = min right left := by
  rcases hright.eq_or_lt with hzero | hpos
  · rw [← hzero, zero_mul, min_eq_left hleft]
  · rw [mul_min_of_nonneg _ _ hright, mul_one, mul_div_cancel₀ _ hpos.ne']

theorem mul_one_sub_min_div {left right : α} (hleft : 0 ≤ left) (hright : 0 ≤ right) :
    right * (1 - min 1 (left / right)) = max 0 (right - left) := by
  rw [mul_sub, mul_one, mul_min_div hleft hright]
  rcases le_total right left with hle | hle
  · rw [min_eq_left hle, sub_self, max_eq_left (sub_nonpos.2 hle)]
  · rw [min_eq_right hle, max_eq_right (sub_nonneg.2 hle)]

theorem sum_excess_eq (hsum : ∑ x ∈ support, target x = ∑ x ∈ support, draft x) :
    ∑ x ∈ support, max 0 (draft x - target x) = ∑ x ∈ support, max 0 (target x - draft x) := by
  have hpoint : ∀ x ∈ support, max 0 (draft x - target x) =
      max 0 (target x - draft x) + (draft x - target x) := by
    intro x _
    rcases le_total (target x) (draft x) with hle | hle
    · rw [max_eq_right (sub_nonneg.2 hle), max_eq_left (sub_nonpos.2 hle), zero_add]
    · rw [max_eq_left (sub_nonpos.2 hle), max_eq_right (sub_nonneg.2 hle)]
      ring
  rw [Finset.sum_congr rfl hpoint, Finset.sum_add_distrib, Finset.sum_sub_distrib, hsum, sub_self,
    add_zero]

theorem rejection_identity (htarget : ∀ x ∈ support, 0 ≤ target x)
    (hdraft : ∀ x ∈ support, 0 ≤ draft x)
    (hsum : ∑ x ∈ support, target x = ∑ x ∈ support, draft x) {item : ι} (hitem : item ∈ support) :
    draft item * min 1 (target item / draft item) +
      (∑ x ∈ support, draft x * (1 - min 1 (target x / draft x))) *
        max 0 (target item - draft item) / ∑ x ∈ support, max 0 (target x - draft x) =
      target item := by
  have hrejected : ∑ x ∈ support, draft x * (1 - min 1 (target x / draft x)) =
      ∑ x ∈ support, max 0 (target x - draft x) := by
    rw [← sum_excess_eq hsum]
    exact Finset.sum_congr rfl fun x hx => mul_one_sub_min_div (htarget x hx) (hdraft x hx)
  rw [mul_min_div (htarget item hitem) (hdraft item hitem), hrejected]
  have hpositive : ∀ x ∈ support, 0 ≤ max 0 (target x - draft x) := fun _ _ => le_max_left _ _
  by_cases hzero : ∑ x ∈ support, max 0 (target x - draft x) = 0
  · -- Nothing of the target is in excess, so the draft's share is cut down to it.
    have hover := (Finset.sum_eq_zero_iff_of_nonneg hpositive).1 hzero item hitem
    have hle : target item ≤ draft item := sub_nonpos.1 (max_eq_left_iff.1 hover)
    rw [hzero, zero_mul, zero_div, add_zero, min_eq_right hle]
  · rw [mul_div_assoc, mul_div_cancel₀ _ hzero]
    rcases le_total (target item) (draft item) with hle | hle
    · rw [min_eq_right hle, max_eq_left (sub_nonpos.2 hle), add_zero]
    · rw [min_eq_left hle, max_eq_right (sub_nonneg.2 hle), add_sub_cancel]

end

section

open MeasureTheory Set

/-- A uniform draw from `[0, 1)`. -/
noncomputable def uniform : Measure ℝ := volume.restrict (Ico 0 1)

theorem uniform_Ico {low high : ℝ} (hlow : 0 ≤ low) (hhigh : high ≤ 1) :
    uniform (Ico low high) = ENNReal.ofReal (high - low) := by
  rw [uniform, Measure.restrict_apply measurableSet_Ico,
    inter_eq_left.2 (Ico_subset_Ico hlow hhigh), Real.volume_Ico]

instance : IsProbabilityMeasure uniform := by
  constructor
  rw [uniform, Measure.restrict_apply_univ, Real.volume_Ico, sub_zero, ENNReal.ofReal_one]

theorem uniform_prod_Ico {low high low' high' : ℝ} (hlow : 0 ≤ low) (hhigh : high ≤ 1)
    (hlow' : 0 ≤ low') (hhigh' : high' ≤ 1) :
    (uniform.prod uniform) (Ico low high ×ˢ Ico low' high') =
      ENNReal.ofReal (high - low) * ENNReal.ofReal (high' - low') := by
  rw [Measure.prod_prod, uniform_Ico hlow hhigh, uniform_Ico hlow' hhigh']

/-- An item drawn with the probability its weight gives. -/
noncomputable def law {K : Type*} [MeasurableSpace K] (entries : List (K × ℝ)) : Measure K :=
  (entries.map fun entry => ENNReal.ofReal entry.2 • Measure.dirac entry.1).sum

theorem lintegral_law {K : Type*} [MeasurableSpace K] [MeasurableSingletonClass K]
    (entries : List (K × ℝ)) (f : K → ENNReal) :
    ∫⁻ item, f item ∂law entries =
      (entries.map fun entry => ENNReal.ofReal entry.2 * f entry.1).sum := by
  unfold law
  induction entries with
  | nil => simp
  | cons entry rest ih =>
    simp only [map_cons, sum_cons]
    rw [lintegral_add_measure, ih, lintegral_smul_measure, lintegral_dirac, smul_eq_mul]

theorem sum_ofReal {E : Type*} {items : List E} {f : E → ℝ} (h : ∀ item ∈ items, 0 ≤ f item) :
    (items.map fun item => ENNReal.ofReal (f item)).sum = ENNReal.ofReal (items.map f).sum := by
  induction items with
  | nil => simp
  | cons item rest ih =>
    have htail : ∀ other ∈ rest, 0 ≤ f other := fun other hother =>
      h other (mem_cons_of_mem _ hother)
    have hrest : 0 ≤ (rest.map f).sum := by
      apply sum_nonneg
      intro value hvalue
      obtain ⟨other, hother, rfl⟩ := mem_map.1 hvalue
      exact htail other hother
    rw [map_cons, sum_cons, ih htail, map_cons, sum_cons,
      ENNReal.ofReal_add (h item mem_cons_self) hrest]

end

end QuantumLlm
