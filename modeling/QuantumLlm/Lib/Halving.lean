import Mathlib.Data.List.Basic
import Mathlib.Data.List.Pairwise

/-!
# Searching by halving

The place a search by halving ends at, whatever the test says where it is not asked,
and the range that two such searches cut out of a list.
-/

namespace QuantumLlm.Halving

open List

/-- Goes on behind the middle of what is left where the test holds, and before it elsewhere. -/
def search (test : Nat → Bool) (first length : Nat) : Nat :=
  if length = 0 then first
  else if test (first + length / 2) then
    search test (first + length / 2 + 1) (length - length / 2 - 1)
  else search test first (length / 2)
termination_by length

section

variable {test : Nat → Bool} {first length : Nat}

theorem search_eq (test : Nat → Bool) (first length : Nat) : search test first length =
    if length = 0 then first
    else if test (first + length / 2) then
      search test (first + length / 2 + 1) (length - length / 2 - 1)
    else search test first (length / 2) := by
  rw [search]

/-- Where a search ends: within its bounds, behind a place where the test holds and at a place
where it does not. No order is needed for that. -/
theorem search_spec (test : Nat → Bool) (first length : Nat) :
    first ≤ search test first length ∧ search test first length ≤ first + length ∧
      (∀ place, search test first length = place + 1 → first ≤ place → test place = true) ∧
      (search test first length < first + length → test (search test first length) = false) := by
  induction length using Nat.strongRecOn generalizing first with
  | ind length ih =>
    rw [search_eq]
    by_cases hzero : length = 0
    · rw [if_pos hzero]
      exact ⟨Nat.le_refl _, by omega, fun place hplace hle => by omega, fun hlt => by omega⟩
    rw [if_neg hzero]
    by_cases htest : test (first + length / 2) = true
    · rw [if_pos htest]
      obtain ⟨hlow, hhigh, hbehind, hstop⟩ :=
        ih (length - length / 2 - 1) (by omega) (first + length / 2 + 1)
      refine ⟨by omega, by omega, ?_, fun hlt => hstop (by omega)⟩
      intro place hplace hle
      by_cases hmiddle : place = first + length / 2
      · rw [hmiddle]
        exact htest
      · exact hbehind place hplace (by omega)
    · rw [if_neg htest]
      obtain ⟨hlow, hhigh, hbehind, hstop⟩ := ih (length / 2) (by omega) first
      refine ⟨hlow, by omega, hbehind, fun hlt => ?_⟩
      by_cases hend : search test first (length / 2) = first + length / 2
      · rw [hend]
        simpa using htest
      · exact hstop (by omega)

end

variable {α : Type*} {before after : α → Bool} {items : List α}

/-- The first place of a list from `first` on where a test does not hold, if the list is in order. -/
def partitionPoint (test : α → Bool) (items : List α) (first : Nat) : Nat :=
  search (fun place => items[place]?.any test) first (items.length - first)

/-- What two searches leave: neither before nor after, if the list is in order. -/
def equalRange (before after : α → Bool) (items : List α) : List α :=
  let first := partitionPoint before items 0
  let last := partitionPoint (fun item => !after item) items first
  (items.drop first).take (last - first)

theorem slice_eq_filter_iff {keep : α → Bool} {start count : Nat} :
    (items.drop start).take count = items.filter keep ↔
      ∀ place (h : place < items.length),
        keep items[place] = true ↔ start ≤ place ∧ place < start + count := by
  have hsplit : items.filter keep = (items.take start).filter keep ++
      (((items.drop start).take count).filter keep ++
        (items.drop (start + count)).filter keep) := by
    rw [← drop_drop, ← filter_append, take_append_drop, ← filter_append, take_append_drop]
  constructor
  · intro heq place hplace
    have hkept : ((items.drop start).take count).filter keep = (items.drop start).take count := by
      apply filter_eq_self.2
      intro item hitem
      rw [heq] at hitem
      exact of_mem_filter hitem
    have hlength := congrArg List.length (heq.trans hsplit)
    rw [hkept, length_append, length_append] at hlength
    have hnoneBefore : (items.take start).filter keep = [] :=
      length_eq_zero_iff.1 (by omega)
    have hnoneBehind : (items.drop (start + count)).filter keep = [] :=
      length_eq_zero_iff.1 (by omega)
    constructor
    · intro hkeep
      constructor
      · by_contra hless
        refine absurd hkeep (filter_eq_nil_iff.1 hnoneBefore _ ?_)
        exact mem_take_iff_getElem.2 ⟨place, by omega, rfl⟩
      · by_contra hmore
        refine absurd hkeep (filter_eq_nil_iff.1 hnoneBehind _ ?_)
        exact mem_drop_iff_getElem.2 ⟨place - (start + count), by omega, by congr 1; omega⟩
    · intro hinside
      have hmem : items[place] ∈ (items.drop start).take count := by
        refine mem_take_iff_getElem.2 ⟨place - start, ?_, ?_⟩
        · rw [length_drop]
          omega
        · rw [getElem_drop]
          congr 1
          omega
      rw [heq] at hmem
      exact of_mem_filter hmem
  · intro hplaces
    have hnoneBefore : (items.take start).filter keep = [] := by
      apply filter_eq_nil_iff.2
      intro item hitem hkeep
      obtain ⟨place, hplace, rfl⟩ := mem_take_iff_getElem.1 hitem
      have hinside := (hplaces place (by omega)).1 hkeep
      omega
    have hnoneBehind : (items.drop (start + count)).filter keep = [] := by
      apply filter_eq_nil_iff.2
      intro item hitem hkeep
      obtain ⟨place, hplace, rfl⟩ := mem_drop_iff_getElem.1 hitem
      have hinside := (hplaces (place + (start + count)) hplace).1 (by
        rw [← hkeep]
        congr 2
        omega)
      omega
    have hkept : ((items.drop start).take count).filter keep = (items.drop start).take count := by
      apply filter_eq_self.2
      intro item hitem
      obtain ⟨place, hplace, rfl⟩ := mem_take_iff_getElem.1 hitem
      rw [length_drop] at hplace
      rw [getElem_drop]
      exact (hplaces (start + place) (by omega)).2 (by omega)
    rw [hsplit, hnoneBefore, hnoneBehind, hkept, nil_append, append_nil]

variable {test : α → Bool} {first : Nat}

theorem partitionPoint_spec (test : α → Bool) (hfirst : first ≤ items.length) :
    first ≤ partitionPoint test items first ∧ partitionPoint test items first ≤ items.length ∧
      (∀ place (h : place < items.length), partitionPoint test items first = place + 1 →
        first ≤ place → test items[place] = true) ∧
      ∀ h : partitionPoint test items first < items.length,
        test items[partitionPoint test items first] = false := by
  unfold partitionPoint
  obtain ⟨hlow, hhigh, hbehind, hstop⟩ := search_spec (fun place => items[place]?.any test) first
    (items.length - first)
  refine ⟨hlow, by omega, ?_, ?_⟩
  · intro place hplace hpoint hle
    have htest := hbehind place hpoint hle
    rwa [getElem?_eq_getElem hplace] at htest
  · intro hlt
    have htest := hstop (by omega)
    rwa [getElem?_eq_getElem hlt] at htest

theorem partitionPoint_ordered (hfirst : first ≤ items.length)
    (hordered : items.Pairwise fun earlier later => test later = true → test earlier = true)
    (place : Nat) (hplace : place < items.length) (hle : first ≤ place) :
    test items[place] = true ↔ place < partitionPoint test items first := by
  obtain ⟨hlow, hhigh, hbehind, hstop⟩ := partitionPoint_spec test hfirst
  have horder : ∀ earlier later (hlater : later < items.length) (hlt : earlier ≤ later),
      test items[later] = true → test items[earlier] = true := by
    intro earlier later hlater hlt htest
    by_cases hsame : earlier = later
    · subst hsame
      exact htest
    · exact pairwise_iff_getElem.1 hordered earlier later (by omega) hlater (by omega) htest
  constructor
  · intro htest
    by_contra hnot
    have hfound := horder _ place hplace (Nat.not_lt.1 hnot) htest
    rw [hstop (by omega)] at hfound
    cases hfound
  · intro hlt
    refine horder place (partitionPoint test items first - 1) (by omega) (by omega) ?_
    exact hbehind _ (by omega) (by omega) (by omega)

theorem equalRange_ordered
    (hbefore : items.Pairwise fun earlier later => before later = true → before earlier = true)
    (hafter : items.Pairwise fun earlier later => after earlier = true → after later = true) :
    equalRange before after items = items.filter fun item => !before item && !after item := by
  obtain ⟨-, hfirst, -, -⟩ := partitionPoint_spec before (Nat.zero_le items.length)
  obtain ⟨hle, -, -, -⟩ := partitionPoint_spec (fun item => !after item) hfirst
  apply slice_eq_filter_iff.2
  intro place hplace
  have hlow := partitionPoint_ordered (Nat.zero_le _) hbefore place hplace (Nat.zero_le _)
  rw [Bool.and_eq_true, Bool.not_eq_true', Bool.not_eq_true', ← Bool.not_eq_true, hlow, Nat.not_lt,
    Nat.add_sub_cancel' hle]
  refine and_congr_right fun hinside => ?_
  rw [← partitionPoint_ordered hfirst _ place hplace hinside, Bool.not_eq_true']
  refine hafter.imp fun himp hlater => ?_
  rw [Bool.not_eq_true'] at hlater ⊢
  by_contra hset
  rw [himp (by simpa using hset)] at hlater
  cases hlater

/-- What comes directly before an item of an exact range is before it or in the range itself. -/
theorem before_of_exact_range {place : Nat} (hplace : place + 1 < items.length)
    (hexact : equalRange before after items = items.filter fun item => !before item && !after item)
    (hitem : before items[place + 1] = false ∧ after items[place + 1] = false) :
    before items[place] = true ∨ after items[place] = false := by
  obtain ⟨-, hfirst, hbehind, -⟩ := partitionPoint_spec before (Nat.zero_le items.length)
  have hplaces := slice_eq_filter_iff.1 hexact
  have hinside := (hplaces (place + 1) hplace).1 (by rw [hitem.1, hitem.2]; rfl)
  by_cases hedge : partitionPoint before items 0 = place + 1
  · exact .inl (hbehind place (by omega) hedge (Nat.zero_le _))
  · have hkept := (hplaces place (by omega)).2 (by omega)
    rw [Bool.and_eq_true, Bool.not_eq_true', Bool.not_eq_true'] at hkept
    exact .inr hkept.2

end QuantumLlm.Halving
