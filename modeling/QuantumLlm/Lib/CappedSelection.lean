import Mathlib.Data.List.Nodup
import Mathlib.Data.List.Pairwise

/-!
# Selection under caps

Items are taken in order until there are enough of them, but from each bucket at most
as many as its cap. A cap of zero is none.
-/

namespace QuantumLlm

open List

section

variable {α β : Type*} [DecidableEq β] {bucket : α → β} {limit cap : Nat}
  {taken items before after : List α} {item : α}

/-- The items taken of a bucket. -/
def inBucket (bucket : α → β) (taken : List α) (home : β) : Nat :=
  taken.countP fun item => bucket item = home

def cappedSelect (bucket : α → β) (limit cap : Nat) : List α → List α → List α
  | taken, [] => taken
  | taken, item :: rest =>
    if taken.length = limit then taken
    else if cap ≠ 0 ∧ cap ≤ inBucket bucket taken (bucket item) then
      cappedSelect bucket limit cap taken rest
    else cappedSelect bucket limit cap (taken ++ [item]) rest

theorem cappedSelect_cons (taken : List α) (item : α) (rest : List α) :
    cappedSelect bucket limit cap taken (item :: rest) =
      if taken.length = limit then taken
      else if cap ≠ 0 ∧ cap ≤ inBucket bucket taken (bucket item) then
        cappedSelect bucket limit cap taken rest
      else cappedSelect bucket limit cap (taken ++ [item]) rest := rfl

theorem inBucket_append_singleton (home : β) : inBucket bucket (taken ++ [item]) home =
    inBucket bucket taken home + if bucket item = home then 1 else 0 := by
  simp [inBucket, countP_append, countP_singleton]

theorem cappedSelect_split :
    ∃ more, more.Sublist items ∧ cappedSelect bucket limit cap taken items = taken ++ more := by
  induction items generalizing taken with
  | nil => exact ⟨[], List.Sublist.refl _, (append_nil _).symm⟩
  | cons item rest ih =>
    rw [cappedSelect_cons]
    split
    next => exact ⟨[], nil_sublist _, (append_nil _).symm⟩
    next =>
      split
      next =>
        obtain ⟨more, hsub, heq⟩ := @ih taken
        exact ⟨more, hsub.cons item, heq⟩
      next =>
        obtain ⟨more, hsub, heq⟩ := @ih (taken ++ [item])
        refine ⟨item :: more, hsub.cons_cons item, ?_⟩
        rw [heq, append_assoc, singleton_append]

theorem cappedSelect_sublist : (cappedSelect bucket limit cap [] items).Sublist items := by
  obtain ⟨more, hsub, heq⟩ := @cappedSelect_split _ _ _ bucket limit cap [] items
  rw [heq, nil_append]
  exact hsub

theorem length_cappedSelect_le (h : taken.length ≤ limit) :
    (cappedSelect bucket limit cap taken items).length ≤ limit := by
  induction items generalizing taken with
  | nil => exact h
  | cons item rest ih =>
    rw [cappedSelect_cons]
    split
    next => exact h
    next hmore =>
      split
      next => exact ih h
      next =>
        apply ih
        rw [length_append, length_singleton]
        omega

theorem inBucket_cappedSelect_le (hcap : cap ≠ 0) (h : ∀ home, inBucket bucket taken home ≤ cap)
    (home : β) : inBucket bucket (cappedSelect bucket limit cap taken items) home ≤ cap := by
  induction items generalizing taken with
  | nil => exact h home
  | cons item rest ih =>
    rw [cappedSelect_cons]
    split
    next => exact h home
    next =>
      split
      next => exact ih h
      next hroom =>
        apply ih
        intro other
        rw [inBucket_append_singleton]
        by_cases hother : bucket item = other
        · subst hother
          rw [if_pos rfl]
          omega
        · rw [if_neg hother]
          exact h other

theorem cappedSelect_of_full (h : taken.length = limit) :
    cappedSelect bucket limit cap taken items = taken := by
  cases items with
  | nil => rfl
  | cons item rest => rw [cappedSelect_cons, if_pos h]

theorem cappedSelect_append : cappedSelect bucket limit cap taken (before ++ after) =
    cappedSelect bucket limit cap (cappedSelect bucket limit cap taken before) after := by
  induction before generalizing taken with
  | nil => rfl
  | cons item rest ih =>
    rw [cons_append, cappedSelect_cons, cappedSelect_cons]
    split
    next hfull => rw [cappedSelect_of_full hfull]
    next =>
      split
      next => exact ih
      next => exact ih

variable {precedes : α → α → Prop} [DecidableRel precedes]

/-- What is left out comes behind enough others, or behind a bucket of its own that is full. -/
theorem cappedSelect_omitted (hsorted : items.Pairwise precedes)
    (hasymm : ∀ left right, precedes left right → ¬ precedes right left) (hitem : item ∈ items)
    (hout : item ∉ cappedSelect bucket limit cap [] items) :
    ((cappedSelect bucket limit cap [] items).length = limit ∧
        ∀ other ∈ cappedSelect bucket limit cap [] items, precedes other item) ∨
      cap ≠ 0 ∧ (cappedSelect bucket limit cap [] items).countP
        (fun other => bucket other = bucket item ∧ precedes other item) = cap := by
  obtain ⟨before, after, rfl⟩ := append_of_mem hitem
  obtain ⟨-, htail, hbefore⟩ := pairwise_append.1 hsorted
  rw [cappedSelect_append] at hout ⊢
  generalize hmid : cappedSelect bucket limit cap [] before = mid at hout ⊢
  have hearlier : ∀ other ∈ mid, precedes other item := fun other hother =>
    hbefore other ((hmid ▸ cappedSelect_sublist).subset hother) item mem_cons_self
  rw [cappedSelect_cons] at hout ⊢
  by_cases hfull : mid.length = limit
  · rw [if_pos hfull]
    exact .inl ⟨hfull, hearlier⟩
  · rw [if_neg hfull] at hout ⊢
    by_cases hcap : cap ≠ 0 ∧ cap ≤ inBucket bucket mid (bucket item)
    · rw [if_pos hcap]
      right
      have hle : inBucket bucket mid (bucket item) ≤ cap := by
        rw [← hmid]
        exact inBucket_cappedSelect_le hcap.1 (fun home => Nat.zero_le _) _
      obtain ⟨more, hsub, heq⟩ := @cappedSelect_split _ _ _ bucket limit cap mid after
      have hmore : more.countP (fun other => bucket other = bucket item ∧ precedes other item) =
          0 := by
        apply countP_eq_zero.2
        intro other hother
        have hlater := (pairwise_cons.1 htail).1 other (hsub.subset hother)
        simp [hasymm _ _ hlater]
      have hcount : mid.countP (fun other => bucket other = bucket item ∧ precedes other item) =
          inBucket bucket mid (bucket item) := by
        apply countP_congr
        intro other hother
        simp [hearlier other hother]
      rw [heq, countP_append, hmore, hcount]
      exact ⟨hcap.1, by omega⟩
    · rw [if_neg hcap] at hout
      obtain ⟨more, -, heq⟩ := @cappedSelect_split _ _ _ bucket limit cap (mid ++ [item]) after
      exact absurd (by rw [heq]; simp) hout

end

end QuantumLlm
