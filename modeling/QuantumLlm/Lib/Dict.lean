import Mathlib.Data.List.Nodup

/-!
# Dictionaries in insertion order

A dictionary keeps its entries in the order in which their keys came first, and the value
that came last for each key. Pairs in a row become a dictionary; only when no key comes
twice are its entries the pairs.
-/

namespace QuantumLlm

open List

abbrev Dict (κ β : Type) := List (κ × β)

namespace Dict

variable {κ β : Type} {dict pairs : Dict κ β} {key : κ} {value : β}

def keys (dict : Dict κ β) : List κ := dict.map Prod.fst

variable {entry : κ × β} {other : Dict κ β}

theorem keys_cons : keys (entry :: dict) = entry.1 :: keys dict := rfl

variable [DecidableEq κ]

def get? (dict : Dict κ β) (key : κ) : Option β :=
  (dict.find? fun entry => entry.1 = key).map Prod.snd

/-- `dict[key] = value` -/
def put (key : κ) (value : β) : Dict κ β → Dict κ β
  | [] => [(key, value)]
  | entry :: rest => if entry.1 = key then (key, value) :: rest else entry :: put key value rest

/-- `dict.update(other)` -/
def update (dict other : Dict κ β) : Dict κ β :=
  other.foldl (fun whole entry => put entry.1 entry.2 whole) dict

/-- The pairs of a text, read one after the other. -/
def ofPairs (pairs : List (κ × β)) : Dict κ β := update [] pairs

theorem put_nil : put key value ([] : Dict κ β) = [(key, value)] := rfl

theorem put_cons {rest : Dict κ β} : put key value (entry :: rest) =
    if entry.1 = key then (key, value) :: rest else entry :: put key value rest := rfl

theorem put_of_not_mem (h : key ∉ keys dict) : put key value dict = dict ++ [(key, value)] := by
  induction dict with
  | nil => rfl
  | cons entry rest ih =>
    rw [keys_cons, mem_cons, not_or] at h
    rw [put_cons, if_neg (Ne.symm h.1), ih h.2, cons_append]

theorem keys_put : keys (put key value dict) =
    if key ∈ keys dict then keys dict else keys dict ++ [key] := by
  induction dict with
  | nil => rfl
  | cons entry rest ih =>
    rw [put_cons, keys_cons]
    by_cases hsame : entry.1 = key
    · rw [if_pos hsame, if_pos (by rw [hsame]; exact mem_cons_self), keys_cons, hsame]
    · rw [if_neg hsame, keys_cons, ih]
      by_cases hmem : key ∈ keys rest
      · rw [if_pos hmem, if_pos (mem_cons_of_mem _ hmem)]
      · have hnot : key ∉ entry.1 :: keys rest := by
          rw [mem_cons, not_or]
          exact ⟨Ne.symm hsame, hmem⟩
        rw [if_neg hmem, if_neg hnot, cons_append]

theorem nodup_put (h : (keys dict).Nodup) : (keys (put key value dict)).Nodup := by
  rw [keys_put]
  split
  · exact h
  · rename_i hnot
    exact nodup_append.2 ⟨h, nodup_singleton key, fun left hleft right hright => by
      rw [mem_singleton.1 hright]
      rintro rfl
      exact hnot hleft⟩

theorem nodup_update (h : (keys dict).Nodup) :
    (keys (update dict other)).Nodup := by
  induction other generalizing dict with
  | nil => exact h
  | cons entry rest ih => exact ih (nodup_put h)

theorem mem_keys_update :
    key ∈ keys (update dict other) ↔ key ∈ keys dict ∨ key ∈ keys other := by
  unfold update
  induction other generalizing dict with
  | nil => simp [keys]
  | cons entry rest ih =>
    rw [foldl_cons, ih, keys_put, keys_cons, mem_cons]
    by_cases hmem : entry.1 ∈ keys dict
    · rw [if_pos hmem]
      constructor
      · rintro (hold | hlater)
        · exact .inl hold
        · exact .inr (.inr hlater)
      · rintro (hold | rfl | hlater)
        · exact .inl hold
        · exact .inl hmem
        · exact .inr hlater
    · rw [if_neg hmem, mem_append, mem_singleton, or_assoc]

theorem mem_keys_ofPairs : key ∈ keys (ofPairs pairs) ↔ key ∈ keys pairs := by
  unfold ofPairs
  rw [mem_keys_update]
  exact or_iff_right not_mem_nil

theorem update_of_disjoint (hother : (keys other).Nodup)
    (h : ∀ key ∈ keys other, key ∉ keys dict) : update dict other = dict ++ other := by
  unfold update
  induction other generalizing dict with
  | nil => exact (append_nil dict).symm
  | cons entry rest ih =>
    rw [keys_cons, nodup_cons] at hother
    rw [foldl_cons, put_of_not_mem (h entry.1 mem_cons_self), ih hother.2, append_assoc]
    · rfl
    · intro key hkey hmem
      rw [keys, map_append, mem_append] at hmem
      rcases hmem with hold | hnew
      · exact h key (mem_cons_of_mem _ hkey) hold
      · rw [mem_singleton.1 hnew] at hkey
        exact hother.1 hkey

theorem ofPairs_of_nodup (h : (keys pairs).Nodup) : ofPairs pairs = pairs :=
  update_of_disjoint h fun _ _ => not_mem_nil

theorem get?_of_mem (hnodup : (keys dict).Nodup) (h : (key, value) ∈ dict) :
    get? dict key = some value := by
  induction dict with
  | nil => cases h
  | cons entry rest ih =>
    rw [keys_cons, nodup_cons] at hnodup
    unfold get?
    rcases mem_cons.1 h with rfl | hmem
    · simp
    · have hother : entry.1 ≠ key := by
        rintro rfl
        exact hnodup.1 (mem_map.2 ⟨_, hmem, rfl⟩)
      rw [find?_cons_of_neg (by simpa using hother)]
      exact ih hnodup.2 hmem

theorem mem_of_get? (h : get? dict key = some value) : (key, value) ∈ dict := by
  obtain ⟨entry, hentry, rfl⟩ := Option.map_eq_some_iff.1 h
  have hkey : entry.1 = key := by simpa using find?_some hentry
  rw [← hkey]
  exact mem_of_find?_eq_some hentry

theorem filter_put {keeps : κ → Bool} : (put key value dict).filter (fun entry => keeps entry.1) =
    if keeps key then put key value (dict.filter fun entry => keeps entry.1)
    else dict.filter fun entry => keeps entry.1 := by
  induction dict with
  | nil => cases hkey : keeps key with
    | true => simp [put_nil, hkey]
    | false => simp [put_nil, hkey]
  | cons entry rest ih =>
    rw [put_cons]
    by_cases hsame : entry.1 = key
    · rw [if_pos hsame, filter_cons, filter_cons, hsame]
      cases hkey : keeps key with
      | true => simp [put_cons, hsame]
      | false => simp
    · rw [if_neg hsame, filter_cons, filter_cons, ih]
      cases hentry : keeps entry.1 with
      | true =>
        cases hkey : keeps key with
        | true => simp [put_cons, hsame]
        | false => simp
      | false => simp

theorem filter_ofPairs {keeps : κ → Bool} :
    (ofPairs pairs).filter (fun entry => keeps entry.1) =
      ofPairs (pairs.filter fun entry => keeps entry.1) := by
  suffices h : ∀ dict : Dict κ β,
      (pairs.foldl (fun whole entry => put entry.1 entry.2 whole) dict).filter
        (fun entry => keeps entry.1) =
      (pairs.filter fun entry => keeps entry.1).foldl
        (fun whole entry => put entry.1 entry.2 whole)
        (dict.filter fun entry => keeps entry.1) from h []
  induction pairs with
  | nil => exact fun dict => rfl
  | cons entry rest ih =>
    intro dict
    rw [foldl_cons, ih, filter_put, filter_cons]
    cases hentry : keeps entry.1 with
    | true => rfl
    | false => rfl

end Dict

end QuantumLlm
