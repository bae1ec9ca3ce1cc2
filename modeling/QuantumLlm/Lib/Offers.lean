import Mathlib.Data.List.MinMax
import Mathlib.Data.List.Perm.Subperm

/-!
# Offers

The least key that passes is offered; a key that refuses is set aside and the next
least is offered. What passes and who accepts may change from one round to the
next, and the number of refusals so far tells the rounds apart.
-/

namespace QuantumLlm

open List

structure Offers (K R : Type*) where
  keys : List K
  rank : K → R
  passes : Nat → K → Bool
  accepts : Nat → K → Bool

namespace Offers

variable {K R : Type*} [LinearOrder R] (offers : Offers K R)

/-- The key is the least of those that pass and have not refused. -/
structure Least (refused : List K) (key : K) : Prop where
  mem : key ∈ offers.keys
  passes : offers.passes refused.length key
  fresh : key ∉ refused
  least : ∀ other ∈ offers.keys, offers.passes refused.length other → other ∉ refused →
    offers.rank key ≤ offers.rank other

/-- Each of these keys was offered in its turn, and refused. -/
inductive Refusals : List K → Prop where
  | none : Refusals []
  | refuse {earlier : List K} {key : K} : Refusals earlier → offers.Least earlier key →
      offers.accepts earlier.length key = false → Refusals (key :: earlier)

variable {offers} {refused : List K} {key : K}

section

variable (h : offers.Refusals refused)

include h

theorem Refusals.nodup : refused.Nodup := by
  induction h with
  | none => exact nodup_nil
  | refuse _ hleast _ ih => exact nodup_cons.2 ⟨hleast.fresh, ih⟩

theorem Refusals.subset : refused ⊆ offers.keys := by
  induction h with
  | none => exact nil_subset _
  | refuse _ hleast _ ih => exact cons_subset.2 ⟨hleast.mem, ih⟩

theorem Refusals.length_le :
    refused.length ≤ offers.keys.length :=
  (subperm_of_subset h.nodup h.subset).length_le

end

/-- How the offers end: nobody is left, or the least key that is left accepts. -/
structure Settled (offers : Offers K R) (found : Option K) (refused : List K) : Prop where
  refusals : offers.Refusals refused
  nobody : found = none → ∀ key ∈ offers.keys, key ∉ refused →
    offers.passes refused.length key = false
  accepted : ∀ key, found = some key →
    offers.Least refused key ∧ offers.accepts refused.length key

/-- What passes and who accepts stays the same. -/
structure Steady (offers : Offers K R) : Prop where
  passes : ∀ round key, offers.passes round key = offers.passes 0 key
  accepts : ∀ round key, offers.accepts round key = offers.accepts 0 key

theorem Refusals.refuses (hsteady : offers.Steady) (h : offers.Refusals refused)
    (hkey : key ∈ refused) : offers.accepts 0 key = false := by
  induction h with
  | none => cases hkey
  | refuse _ _ hrefuses ih =>
    rcases mem_cons.1 hkey with rfl | hearlier
    · rw [← hsteady.accepts, hrefuses]
    · exact ih hearlier

variable {found : Option K}

theorem Settled.isSome_iff (h : offers.Settled found refused) (hsteady : offers.Steady) :
    found.isSome ↔ ∃ key ∈ offers.keys, offers.passes 0 key ∧ offers.accepts 0 key := by
  constructor
  · intro hsome
    obtain ⟨key, rfl⟩ := Option.isSome_iff_exists.1 hsome
    obtain ⟨hleast, haccepts⟩ := h.accepted key rfl
    have hpasses := hleast.passes
    rw [hsteady.passes] at hpasses
    rw [hsteady.accepts] at haccepts
    exact ⟨key, hleast.mem, hpasses, haccepts⟩
  · rintro ⟨key, hkey, hpasses, haccepts⟩
    have hfresh : key ∉ refused := by
      intro hrefused
      rw [h.refusals.refuses hsteady hrefused] at haccepts
      cases haccepts
    cases found with
    | some _ => rfl
    | none =>
      have hskipped := h.nobody rfl key hkey hfresh
      rw [hsteady.passes, hpasses] at hskipped
      cases hskipped

section

variable [DecidableEq K]

/-- The key of the round after these refusals. -/
def candidate (offers : Offers K R) (refused : List K) : Option K :=
  (offers.keys.filter fun key =>
    offers.passes refused.length key && key ∉ refused).argmin offers.rank

def settle (offers : Offers K R) : Nat → List K → Option K × List K
  | 0, refused => (none, refused)
  | fuel + 1, refused =>
    match offers.candidate refused with
    | none => (none, refused)
    | some key =>
      if offers.accepts refused.length key then (some key, refused)
      else settle offers fuel (key :: refused)

theorem foldl_eq_candidate {passes : K → Bool} {before : K → K → Bool}
    (hpasses : ∀ key, passes key = (offers.passes refused.length key && decide (key ∉ refused)))
    (hbefore : ∀ key other, before key other ↔ offers.rank key < offers.rank other) :
    offers.keys.foldl (fun candidate key =>
      if passes key && candidate.all (before key ·) then some key else candidate) none =
      offers.candidate refused := by
  rw [candidate, List.argmin, foldl_filter]
  refine congrArg (fun round => List.foldl round none offers.keys) ?_
  funext candidate key
  rw [hpasses]
  cases offers.passes refused.length key && decide (key ∉ refused) with
  | false => rfl
  | true =>
    cases candidate with
    | none => rfl
    | some other => simp [hbefore, List.argAux]

theorem candidate_some (h : offers.candidate refused = some key) : offers.Least refused key := by
  have hmem := argmin_mem h
  simp only [mem_filter, Bool.and_eq_true, decide_eq_true_eq] at hmem
  refine ⟨hmem.1, hmem.2.1, hmem.2.2, fun other hother hpasses hfresh => ?_⟩
  refine le_of_mem_argmin ?_ h
  simp [hother, hpasses, hfresh]

theorem candidate_none (h : offers.candidate refused = none) (hkey : key ∈ offers.keys)
    (hfresh : key ∉ refused) : offers.passes refused.length key = false := by
  have hempty := filter_eq_nil_iff.1 (argmin_eq_none.1 h) key hkey
  simpa [hfresh] using hempty

theorem settle_settled {fuel : Nat} (h : offers.Refusals refused)
    (hfuel : offers.keys.length < fuel + refused.length) :
    offers.Settled (offers.settle fuel refused).1 (offers.settle fuel refused).2 := by
  induction fuel generalizing refused with
  | zero =>
    have := h.length_le
    omega
  | succ fuel ih =>
    rw [settle]
    split
    next hnone =>
      refine ⟨h, fun _ key hkey hfresh => candidate_none hnone hkey hfresh, fun key hfound => ?_⟩
      cases hfound
    next key hsome =>
      split
      next haccepts =>
        refine ⟨h, fun hfound => ?_, fun found hfound => ?_⟩
        · cases hfound
        · cases hfound
          exact ⟨candidate_some hsome, haccepts⟩
      next hrefuses =>
        refine ih (h.refuse (candidate_some hsome) (by simpa using hrefuses)) ?_
        rw [length_cons]
        omega

end

end Offers

end QuantumLlm
