import Mathlib.Algebra.Order.Field.Basic
import Mathlib.Algebra.Order.AbsoluteValue.Basic
import Mathlib.Data.List.Pairwise
import Mathlib.Tactic.Linarith

/-!
# The nearest level of a table

A value is rounded to the nearest of some increasing levels, and of two that are equally near
to the one with the even index. The neighbours are found by a scan or by a binary search.
-/

namespace QuantumLlm.Nearest

open List

variable {K : Type} [Field K] [LinearOrder K] {levels : List K} {value : K}

def level (levels : List K) (index : Nat) : K := levels.getD index 0

/-- The scan for the first level from an index on that is not below the value. -/
def upperFrom (levels : List K) (value : K) : Nat → Nat → Nat
  | 0, upper => upper
  | rounds + 1, upper =>
    if upper < levels.length ∧ level levels upper < value then
      upperFrom levels value rounds (upper + 1)
    else upper

/-- Of a level and the one before it the nearer; of equally near ones the even. -/
def choose (levels : List K) (value : K) (upper : Nat) : Nat :=
  let lower := upper - 1
  let lowDistance := value - level levels lower
  let highDistance := level levels upper - value
  if highDistance < lowDistance ∨ (highDistance = lowDistance ∧ upper % 2 = 0) then upper else lower

/-- The nearest level by a scan. -/
def scanned (levels : List K) (value : K) : Nat :=
  let upper := upperFrom levels value levels.length 1
  if upper = levels.length then levels.length - 1 else choose levels value upper

/-- Where a binary search puts the value: behind the levels below it. -/
def searchsorted (levels : List K) (value : K) : Nat := levels.countP (· < value)

/-- The nearest level by a binary search. -/
def searched (levels : List K) (value : K) : Nat :=
  choose levels value (max 1 (min (searchsorted levels value) (levels.length - 1)))

theorem level_lt (hlevels : levels.Pairwise (· < ·)) {lower upper : Nat} (h : lower < upper)
    (hupper : upper < levels.length) : level levels lower < level levels upper := by
  unfold level
  rw [getD_eq_getElem?_getD, getD_eq_getElem?_getD,
    getElem?_eq_getElem (Nat.lt_trans h hupper), getElem?_eq_getElem hupper]
  exact pairwise_iff_getElem.1 hlevels lower upper _ _ h

theorem level_le (hlevels : levels.Pairwise (· < ·)) {lower upper : Nat} (h : lower ≤ upper)
    (hupper : upper < levels.length) : level levels lower ≤ level levels upper := by
  rcases Nat.lt_or_eq_of_le h with hlt | rfl
  · exact le_of_lt (level_lt hlevels hlt hupper)
  · exact le_refl _

theorem upperFrom_spec {rounds upper : Nat} (hrounds : levels.length ≤ upper + rounds)
    (hupper : upper ≤ levels.length)
    (hbelow : ∀ index, 1 ≤ index → index < upper → level levels index < value) :
    upper ≤ upperFrom levels value rounds upper ∧
      upperFrom levels value rounds upper ≤ levels.length ∧
      (∀ index, 1 ≤ index → index < upperFrom levels value rounds upper →
        level levels index < value) ∧
      (upperFrom levels value rounds upper < levels.length →
        value ≤ level levels (upperFrom levels value rounds upper)) := by
  induction rounds generalizing upper with
  | zero =>
    unfold upperFrom
    exact ⟨Nat.le_refl _, hupper, hbelow, fun h => by omega⟩
  | succ rounds ih =>
    unfold upperFrom
    by_cases hmore : upper < levels.length ∧ level levels upper < value
    · rw [if_pos hmore]
      have hnext : ∀ index, 1 ≤ index → index < upper + 1 → level levels index < value := by
        intro index hone hindex
        rcases Nat.lt_or_eq_of_le (Nat.lt_succ_iff.1 hindex) with hlt | rfl
        · exact hbelow index hone hlt
        · exact hmore.2
      obtain ⟨hle, hrest⟩ := ih (by omega) hmore.1 hnext
      exact ⟨Nat.le_trans (Nat.le_succ upper) hle, hrest⟩
    · rw [if_neg hmore]
      refine ⟨Nat.le_refl _, hupper, hbelow, fun h => ?_⟩
      exact le_of_not_gt fun hlt => hmore ⟨h, hlt⟩

theorem countP_eq {α : Type} {holds : α → Bool} {items : List α} {count : Nat}
    (hcount : count ≤ items.length)
    (hbefore : ∀ item ∈ items.take count, holds item = true)
    (hbehind : ∀ item ∈ items.drop count, holds item = false) : items.countP holds = count := by
  have hsplit := take_append_drop count items
  have hall := countP_eq_length.2 hbefore
  have hnone : (items.drop count).countP holds = 0 := by
    rw [countP_eq_zero]
    intro item hitem
    rw [hbehind item hitem]
    exact Bool.false_ne_true
  calc items.countP holds = (items.take count ++ items.drop count).countP holds := by rw [hsplit]
    _ = count := by
        rw [countP_append, hall, hnone, Nat.add_zero, length_take, Nat.min_eq_left hcount]

theorem searchsorted_eq (hlevels : levels.Pairwise (· < ·)) {count : Nat}
    (hcount : count ≤ levels.length)
    (hbefore : ∀ index < count, level levels index < value)
    (hbehind : count < levels.length → value ≤ level levels count) :
    searchsorted levels value = count := by
  refine countP_eq hcount (fun item hitem => ?_) fun item hitem => ?_
  · obtain ⟨index, hindex, rfl⟩ := getElem_of_mem hitem
    rw [length_take] at hindex
    have hlt := hbefore index (by omega)
    unfold level at hlt
    rw [getD_eq_getElem?_getD, getElem?_eq_getElem (by omega)] at hlt
    rw [getElem_take, decide_eq_true_iff]
    exact hlt
  · obtain ⟨index, hindex, rfl⟩ := getElem_of_mem hitem
    rw [length_drop] at hindex
    have hle := le_trans (hbehind (by omega))
      (level_le hlevels (Nat.le_add_right count index) (by omega))
    unfold level at hle
    rw [getD_eq_getElem?_getD, getElem?_eq_getElem (by omega)] at hle
    rw [getElem_drop, decide_eq_false_iff_not]
    exact not_lt_of_ge hle

/-- The table is increasing, has two levels at least, and the value is not below the first. -/
structure InTable (levels : List K) (value : K) : Prop where
  increasing : levels.Pairwise (· < ·)
  two : 2 ≤ levels.length
  first : level levels 0 ≤ value

variable [IsStrictOrderedRing K]

theorem exists_neighbours (h : InTable levels value) :
    ∃ upper, 1 ≤ upper ∧ upper < levels.length ∧ level levels (upper - 1) ≤ value ∧
      (value ≤ level levels upper ∨ upper = levels.length - 1) ∧
      scanned levels value = choose levels value upper ∧
      searched levels value = choose levels value upper := by
  have htwo := h.two
  obtain ⟨hone, hlength, hbelow, habove⟩ := @upperFrom_spec K _ _ levels value levels.length 1
    (by omega) (by omega) fun index hindex hlt => by omega
  unfold scanned searched
  generalize upperFrom levels value levels.length 1 = upper at hone hlength hbelow habove
  have hlower : level levels (upper - 1) ≤ value := by
    rcases Nat.lt_or_eq_of_le hone with hlt | rfl
    · exact le_of_lt (hbelow (upper - 1) (by omega) (by omega))
    · exact h.first
  have hposition : max 1 (min (searchsorted levels value) (levels.length - 1)) =
      min upper (levels.length - 1) := by
    by_cases hfirst : level levels 0 < value
    · have hsearch := @searchsorted_eq K _ _ levels value h.increasing upper hlength
        (fun index hindex => by
          rcases Nat.eq_zero_or_pos index with rfl | hpositive
          · exact hfirst
          · exact hbelow index hpositive hindex) habove
      omega
    · have hvalue := le_antisymm h.first (not_lt.1 hfirst)
      have hsearch := @searchsorted_eq K _ _ levels value h.increasing 0 (Nat.zero_le _)
        (fun index hindex => by omega) fun _ => le_of_eq hvalue.symm
      have hupper : upper = 1 := by
        by_contra hne
        have hlt := lt_trans (level_lt h.increasing Nat.zero_lt_one (by omega))
          (hbelow 1 (Nat.le_refl 1) (by omega))
        exact absurd hvalue (ne_of_lt hlt)
      omega
  rw [hposition]
  by_cases hlast : upper = levels.length
  · refine ⟨levels.length - 1, by omega, by omega, ?_, .inr rfl, ?_, ?_⟩
    · exact le_trans (level_le h.increasing (by omega) (by omega)) (hlast ▸ hlower)
    · rw [if_pos hlast]
      have hhigh : level levels (levels.length - 1) < value := hbelow _ (by omega) (by omega)
      have hlow := level_lt h.increasing (show levels.length - 1 - 1 < levels.length - 1 by omega)
        (by omega)
      unfold choose
      rw [if_pos (.inl (by linarith))]
    · rw [Nat.min_eq_right (by omega)]
  · refine ⟨upper, hone, by omega, hlower, .inl (habove (by omega)), if_neg hlast, ?_⟩
    rw [Nat.min_eq_left (by omega)]

theorem searched_eq_scanned (h : InTable levels value) :
    searched levels value = scanned levels value := by
  obtain ⟨upper, -, -, -, -, hscanned, hsearched⟩ := exists_neighbours h
  rw [hscanned, hsearched]

/-- No level is nearer, and an equally near one only where the index is even. -/
def IsNearest (levels : List K) (value : K) (index : Nat) : Prop :=
  index < levels.length ∧ ∀ other < levels.length, other ≠ index →
    |level levels index - value| < |level levels other - value| ∨
      (|level levels index - value| = |level levels other - value| ∧ index % 2 = 0)

theorem choose_isNearest (hlevels : levels.Pairwise (· < ·)) {upper : Nat} (hone : 1 ≤ upper)
    (hupper : upper < levels.length) (hlower : level levels (upper - 1) ≤ value)
    (habove : value ≤ level levels upper ∨ upper = levels.length - 1) :
    IsNearest levels value (choose levels value upper) := by
  have hlowAbs : |level levels (upper - 1) - value| = value - level levels (upper - 1) := by
    rw [abs_of_nonpos (by linarith), neg_sub]
  have hbefore : ∀ other < upper - 1,
      |level levels (upper - 1) - value| < |level levels other - value| := by
    intro other hother
    have hlt := level_lt hlevels hother (by omega)
    rw [hlowAbs, abs_of_nonpos (show level levels other - value ≤ 0 by linarith)]
    linarith
  unfold choose
  by_cases hover : value ≤ level levels upper
  · have hhighAbs : |level levels upper - value| = level levels upper - value :=
      abs_of_nonneg (by linarith)
    have hbehind : ∀ other, upper < other → other < levels.length →
        |level levels upper - value| < |level levels other - value| := by
      intro other hother hlength
      have hlt := level_lt hlevels hother hlength
      rw [hhighAbs, abs_of_nonneg (show 0 ≤ level levels other - value by linarith)]
      linarith
    by_cases hnear : level levels upper - value < value - level levels (upper - 1) ∨
        (level levels upper - value = value - level levels (upper - 1) ∧ upper % 2 = 0)
    · rw [if_pos hnear]
      refine ⟨hupper, fun other hother hne => ?_⟩
      rcases Nat.lt_trichotomy other upper with hlt | rfl | hgt
      · have hle : |level levels (upper - 1) - value| ≤ |level levels other - value| := by
          rcases Nat.lt_or_eq_of_le (Nat.le_sub_one_of_lt hlt) with hfurther | rfl
          · exact le_of_lt (hbefore other hfurther)
          · exact le_refl _
        rcases hnear with hcloser | ⟨htie, heven⟩
        · exact .inl (by linarith)
        · rcases lt_or_eq_of_le hle with hstrict | heq
          · exact .inl (by linarith)
          · exact .inr ⟨by linarith, heven⟩
      · exact absurd rfl hne
      · exact .inl (hbehind other hgt hother)
    · rw [if_neg hnear]
      have hle : value - level levels (upper - 1) ≤ level levels upper - value :=
        not_lt.1 fun hlt => hnear (.inl hlt)
      refine ⟨by omega, fun other hother hne => ?_⟩
      rcases Nat.lt_trichotomy other upper with hlt | rfl | hgt
      · exact .inl (hbefore other (by omega))
      · rcases lt_or_eq_of_le hle with hstrict | heq
        · exact .inl (by linarith)
        · have hodd : ¬ other % 2 = 0 := fun heven => hnear (.inr ⟨heq.symm, heven⟩)
          exact .inr ⟨by linarith, by omega⟩
      · have hfar := hbehind other hgt hother
        exact .inl (by linarith)
  · have hlast : upper = levels.length - 1 := habove.resolve_left hover
    rw [if_pos (.inl (by linarith))]
    refine ⟨hupper, fun other hother hne => .inl ?_⟩
    have hlt := level_lt hlevels (show other < upper by omega) hupper
    rw [abs_of_nonpos (show level levels upper - value ≤ 0 by linarith),
      abs_of_nonpos (show level levels other - value ≤ 0 by linarith)]
    linarith

theorem scanned_isNearest (h : InTable levels value) :
    IsNearest levels value (scanned levels value) := by
  obtain ⟨upper, hone, hupper, hlower, habove, hscanned, -⟩ := exists_neighbours h
  rw [hscanned]
  exact choose_isNearest h.increasing hone hupper hlower habove

theorem scanned_level (hlevels : levels.Pairwise (· < ·)) (htwo : 2 ≤ levels.length) {index : Nat}
    (hindex : index < levels.length) : scanned levels (level levels index) = index := by
  have htable : InTable levels (level levels index) :=
    ⟨hlevels, htwo, level_le hlevels (Nat.zero_le index) hindex⟩
  by_contra hne
  have hnearest := (scanned_isNearest htable).2 index hindex fun hsame => hne hsame.symm
  have hzero : |level levels index - level levels index| = 0 := by
    rw [sub_self, abs_zero]
  rw [hzero] at hnearest
  rcases hnearest with hlt | ⟨heq, -⟩
  · exact absurd (abs_nonneg _) (not_le.2 hlt)
  · have hsame := sub_eq_zero.1 (abs_eq_zero.1 heq)
    have hscanned := (scanned_isNearest htable).1
    rcases Nat.lt_or_gt_of_ne hne with hlt | hgt
    · exact absurd hsame (ne_of_lt (level_lt hlevels hlt hindex))
    · exact absurd hsame.symm (ne_of_lt (level_lt hlevels hgt hscanned))

end QuantumLlm.Nearest
