import Mathlib.Data.List.Nodup
import Mathlib.Order.Lattice

/-!
# Descending by changes

A state is changed item by item, and each change adds to a running residual. Changes are
accepted one by one while each lowers the error of the residual, or as the best prefix of an
order. In both the running residual is that of the state with the accepted changes, and there
are some only if the error is lower than that of the state without.
-/

namespace QuantumLlm.Descent

open List

variable {ι V K : Type}

structure State (ι V K : Type) where
  residual : V
  error : K
  selected : List ι

section

variable (add : V → V → V) (cost : V → K) (delta : ι → V) (valid : ι → Bool)

/-- The running sums of the changes. -/
def sumsFrom (sum : V) : List V → List V
  | [] => []
  | change :: rest => add sum change :: sumsFrom (add sum change) rest

def cumulativeSums : List V → List V
  | [] => []
  | change :: rest => change :: sumsFrom add change rest

/-- The errors after each prefix of the changes. -/
def prefixErrors (residual : V) (changes : List V) : List K :=
  (cumulativeSums add changes).map fun sum => cost (add sum residual)

variable [LinearOrder K]

/-- An item is accepted if its change lowers the error. -/
def accept (state : State ι V K) (item : ι) : State ι V K :=
  let next := add state.residual (delta item)
  if valid item ∧ cost next < state.error then ⟨next, cost next, state.selected ++ [item]⟩
  else state

def greedy (order : List ι) (state : State ι V K) : State ι V K :=
  order.foldl (accept add cost delta valid) state

/-- The first index of a least error. -/
def argmin (errors : List K) : Nat :=
  errors.findIdx fun error => errors.all fun other => error ≤ other

end

variable {add : V → V → V} {cost : V → K} {delta : ι → V} {valid : ι → Bool}

/-- How a state with changes has the residual of the state without them and the changes. -/
structure Accumulates (add : V → V → V) (delta : ι → V) (valid : ι → Bool) (order : List ι)
    (residualOf : List ι → V) : Prop where
  change : ∀ selected item, item ∈ order → valid item = true → item ∉ selected →
    residualOf (selected ++ [item]) = add (residualOf selected) (delta item)

section

variable [LinearOrder K]

/-- A state that stands for the changes it has selected, none, or ones that lower the error. -/
structure Tracks (cost : V → K) (valid : ι → Bool) (residualOf : List ι → V)
    (state : State ι V K) : Prop where
  residual : state.residual = residualOf state.selected
  error : state.error = cost (residualOf state.selected)
  valid : ∀ item ∈ state.selected, valid item = true
  lower : state.selected = [] ∨ state.error < cost (residualOf [])

variable {residualOf : List ι → V} {state : State ι V K}

theorem Tracks.start :
    Tracks cost valid residualOf ⟨residualOf [], cost (residualOf []), []⟩ :=
  ⟨rfl, rfl, fun _ hitem => absurd hitem not_mem_nil, .inl rfl⟩

theorem Tracks.error_le
    (h : Tracks cost valid residualOf state) : state.error ≤ cost (residualOf []) := by
  rcases h.lower with hnone | hlower
  · rw [h.error, hnone]
  · exact le_of_lt hlower

theorem accept_selected (state : State ι V K) (item other : ι)
    (h : other ∈ (accept add cost delta valid state item).selected) :
    other ∈ state.selected ∨ other = item := by
  unfold accept at h
  dsimp only at h
  split at h
  · rw [mem_append, mem_singleton] at h
    exact h
  · exact .inl h

theorem accept_tracks {order : List ι} (hresidual : Accumulates add delta valid order residualOf)
    (h : Tracks cost valid residualOf state) {item : ι} (hitem : item ∈ order)
    (hnew : item ∉ state.selected) :
    Tracks cost valid residualOf (accept add cost delta valid state item) := by
  unfold accept
  dsimp only
  by_cases haccept : valid item = true ∧ cost (add state.residual (delta item)) < state.error
  · rw [if_pos haccept]
    have hnext : add state.residual (delta item) = residualOf (state.selected ++ [item]) := by
      rw [hresidual.change _ _ hitem haccept.1 hnew, h.residual]
    refine ⟨hnext, by rw [hnext], fun other hother => ?_, .inr ?_⟩
    · rcases mem_append.1 hother with hbefore | hlast
      · exact h.valid other hbefore
      · rw [mem_singleton.1 hlast]
        exact haccept.1
    · exact lt_of_lt_of_le haccept.2 h.error_le
  · rw [if_neg haccept]
    exact h

theorem greedy_tracks {residualOf : List ι → V} {order : List ι}
    (hresidual : Accumulates add delta valid order residualOf) (horder : order.Nodup) :
    Tracks cost valid residualOf (greedy add cost delta valid order
      ⟨residualOf [], cost (residualOf []), []⟩) := by
  -- The items still to come are none of the selected ones.
  have hfrom : ∀ (rest : List ι) (state : State ι V K), (∀ item ∈ rest, item ∈ order) →
      rest.Nodup → (∀ item ∈ rest, item ∉ state.selected) → Tracks cost valid residualOf state →
        Tracks cost valid residualOf (greedy add cost delta valid rest state) := by
    intro rest
    induction rest with
    | nil => exact fun state _ _ _ h => h
    | cons item rest ih =>
      intro state hmem hnodup hnew h
      obtain ⟨hitem, hrest⟩ := nodup_cons.1 hnodup
      refine ih _ (fun other hother => hmem other (mem_cons_of_mem _ hother)) hrest ?_
        (accept_tracks hresidual h (hmem item mem_cons_self)
          (hnew item mem_cons_self))
      intro other hother hselected
      rcases accept_selected state item other hselected with hbefore | rfl
      · exact hnew other (mem_cons_of_mem _ hother) hbefore
      · exact hitem hother
  exact hfrom order _ (fun item hitem => hitem) horder (nofun)
    Tracks.start

end

theorem cumulativeSums_length (changes : List V) :
    (cumulativeSums add changes).length = changes.length := by
  have hfrom : ∀ (rest : List V) (sum : V), (sumsFrom add sum rest).length = rest.length := by
    intro rest
    induction rest with
    | nil => exact fun _ => rfl
    | cons change rest ih =>
      intro sum
      rw [sumsFrom, length_cons, length_cons, ih]
  cases changes with
  | nil => rfl
  | cons change rest => rw [cumulativeSums, length_cons, length_cons, hfrom]

section

variable [Std.Associative add] [Std.Commutative add]

variable {residualOf : List ι → V} {order : List ι} {rank : Nat}

section

variable (hresidual : Accumulates add delta valid order residualOf) (horder : order.Nodup)
  (hvalid : ∀ item ∈ order.take (rank + 1), valid item = true)

include hresidual horder hvalid

theorem cumulativeSums_residual
    {sum : V} (hsum : (cumulativeSums add (order.map delta))[rank]? = some sum) :
    add sum (residualOf []) = residualOf (order.take (rank + 1)) := by
  have hcomm : ∀ a b, add a b = add b a := Std.Commutative.comm
  have hassoc : ∀ a b c, add (add a b) c = add a (add b c) := Std.Associative.assoc
  -- The selected items grow from the front as the rank does.
  have hfrom : ∀ (rest selected : List ι) (start : V) (rank : Nat) (sum : V),
      (∀ item ∈ rest, item ∈ order) → (selected ++ rest).Nodup →
        (∀ item ∈ rest.take (rank + 1), valid item = true) →
        add start (residualOf []) = residualOf selected →
        (sumsFrom add start (rest.map delta))[rank]? = some sum →
          add sum (residualOf []) = residualOf (selected ++ rest.take (rank + 1)) := by
    intro rest
    induction rest with
    | nil =>
      intro selected start rank sum _ _ _ _ hsum
      cases hsum
    | cons item rest ih =>
      intro selected start rank sum hmem hnodup hvalid hstart hsum
      have hnew : item ∉ selected := fun hselected =>
        (nodup_append.1 hnodup).2.2 item hselected item mem_cons_self rfl
      have hnext : add (add start (delta item)) (residualOf []) =
          residualOf (selected ++ [item]) := by
        rw [hresidual.change _ _ (hmem item mem_cons_self)
          (hvalid item mem_cons_self) hnew, ← hstart, hassoc, hassoc,
          hcomm (delta item)]
      cases rank with
      | zero =>
        rw [map_cons, sumsFrom, getElem?_cons_zero] at hsum
        cases hsum
        rw [take_succ_cons, take_zero]
        exact hnext
      | succ rank =>
        rw [map_cons, sumsFrom, getElem?_cons_succ] at hsum
        have hlater := ih (selected ++ [item]) _ rank sum
          (fun other hother => hmem other (mem_cons_of_mem _ hother))
          (by rw [append_assoc]; exact hnodup)
          (fun other hother => hvalid other (by
            rw [take_succ_cons]
            exact mem_cons_of_mem _ hother)) hnext hsum
        rw [append_assoc] at hlater
        rw [take_succ_cons]
        exact hlater
  cases order with
  | nil => cases hsum
  | cons item rest =>
    have hfirst : add (delta item) (residualOf []) = residualOf [item] := by
      have hchange := hresidual.change [] item mem_cons_self
        (hvalid item mem_cons_self) not_mem_nil
      rw [nil_append] at hchange
      rw [hchange, hcomm]
    cases rank with
    | zero =>
      rw [map_cons, cumulativeSums, getElem?_cons_zero] at hsum
      cases hsum
      exact hfirst
    | succ rank =>
      rw [map_cons, cumulativeSums, getElem?_cons_succ] at hsum
      exact hfrom rest [item] _ rank sum
        (fun other hother => mem_cons_of_mem _ hother) horder
        (fun other hother => hvalid other (by
          rw [take_succ_cons]
          exact mem_cons_of_mem _ hother)) hfirst hsum

theorem prefixErrors_eq
    {error : K}
    (herror : (prefixErrors add cost (residualOf []) (order.map delta))[rank]? = some error) :
    error = cost (residualOf (order.take (rank + 1))) := by
  unfold prefixErrors at herror
  rw [getElem?_map, Option.map_eq_some_iff] at herror
  obtain ⟨sum, hsum, rfl⟩ := herror
  rw [cumulativeSums_residual hresidual horder hvalid hsum]

end

end

end QuantumLlm.Descent
