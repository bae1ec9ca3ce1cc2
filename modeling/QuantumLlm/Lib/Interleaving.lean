import Mathlib.Algebra.Order.BigOperators.Group.List
import Mathlib.Algebra.Order.Group.Nat
import Mathlib.Data.List.Basic
import Mathlib.Data.List.Nodup
import Mathlib.Data.List.Perm.Subperm
import Mathlib.Tactic.Ring

/-!
# Interleaved threads

Threads that take turns on a shared state. What one turn does to the shared state
and its thread decides what it does to amounts and names kept by all of them.
-/

namespace QuantumLlm

open List

structure Interleaved (σ τ : Type*) where
  shared : σ
  threads : List τ

namespace Interleaved

variable {σ τ χ : Type*}

/-- One turn of one thread. -/
def turn (step : σ → τ → χ → Option (σ × τ)) (system : Interleaved σ τ) (index : Nat)
    (choice : χ) : Option (Interleaved σ τ) :=
  match system.threads[index]? with
  | none => none
  | some thread =>
    match step system.shared thread choice with
    | none => none
    | some (shared, thread) => some { shared, threads := system.threads.set index thread }

theorem turn_spec {step : σ → τ → χ → Option (σ × τ)} {system system' : Interleaved σ τ}
    {index : Nat} {choice : χ} (h : system.turn step index choice = some system') :
    ∃ before thread after shared' thread', system.threads = before ++ thread :: after ∧
      system.threads[index]? = some thread ∧ system.threads.eraseIdx index = before ++ after ∧
      step system.shared thread choice = some (shared', thread') ∧
      system' = { shared := shared', threads := before ++ thread' :: after } := by
  rw [turn] at h
  split at h
  next => cases h
  next thread hthread =>
    split at h
    next => cases h
    next shared' thread' hstep =>
      cases h
      obtain ⟨hindex, hget⟩ := List.getElem?_eq_some_iff.1 hthread
      refine ⟨system.threads.take index, thread, system.threads.drop (index + 1), shared', thread',
        ?_, hthread, ?_, hstep, ?_⟩
      · rw [← hget, List.getElem_cons_drop hindex, List.take_append_drop]
      · exact List.eraseIdx_eq_take_drop_succ _ _
      · rw [List.set_eq_take_append_cons_drop, if_pos hindex]

/-- What all threads hold together. -/
def total (weight : τ → Nat) (threads : List τ) : Nat := (threads.map weight).sum

theorem total_split (weight : τ → Nat) (before : List τ) (thread : τ) (after : List τ) :
    total weight (before ++ thread :: after) =
      weight thread + (total weight before + total weight after) := by
  simp only [total, map_append, map_cons, sum_append, sum_cons]
  omega

theorem weight_le_total (weight : τ → Nat) {threads : List τ} {thread : τ}
    (h : thread ∈ threads) : weight thread ≤ total weight threads :=
  le_sum_of_mem (mem_map_of_mem h)

theorem total_le_total {weight bound : τ → Nat} {threads : List τ}
    (h : ∀ thread ∈ threads, weight thread ≤ bound thread) :
    total weight threads ≤ total bound threads :=
  sum_le_sum h

theorem total_congr {weight other : τ → Nat} {threads : List τ}
    (h : ∀ thread ∈ threads, weight thread = other thread) :
    total weight threads = total other threads := by
  rw [total, total, map_congr_left h]

theorem split_perm (names : τ → List Nat) (first : List Nat) (before : List τ) (thread : τ)
    (after : List τ) :
    (first ++ (before ++ thread :: after).flatMap names).Perm
      ((first ++ names thread) ++ (before.flatMap names ++ after.flatMap names)) := by
  rw [flatMap_append, flatMap_cons, append_assoc]
  apply List.Perm.append_left
  rw [← append_assoc, ← append_assoc]
  exact List.Perm.append_right _ perm_append_comm

theorem nodup_split {names : τ → List Nat} {shared shared' fresh : List Nat} {before after : List τ}
    {thread thread' : τ}
    (hnodup : (shared ++ (before ++ thread :: after).flatMap names).Nodup)
    (hfresh : ∀ name ∈ fresh, name ∉ shared ++ (before ++ thread :: after).flatMap names)
    (hdistinct : fresh.Nodup)
    (hmoved : (shared' ++ names thread').Subperm (fresh ++ (shared ++ names thread))) :
    (shared' ++ (before ++ thread' :: after).flatMap names).Nodup := by
  have hall : (fresh ++ (shared ++ (before ++ thread :: after).flatMap names)).Nodup := by
    rw [nodup_append']
    exact ⟨hdistinct, hnodup, fun name hname hold => hfresh name hname hold⟩
  have hbefore := (List.Perm.append_left fresh
    (split_perm names shared before thread after)).nodup_iff.1 hall
  rw [← append_assoc] at hbefore
  rw [(split_perm names shared' before thread' after).nodup_iff]
  obtain ⟨middle, hperm, hsublist⟩ := List.Subperm.append hmoved
    (List.Subperm.refl (before.flatMap names ++ after.flatMap names))
  exact hperm.nodup_iff.1 (hbefore.sublist hsublist)

theorem names_of_others {names : τ → List Nat} {before after : List τ} {thread other : τ}
    (hnodup : ((before ++ thread :: after).flatMap names).Nodup) (hother : other ∈ before ++ after)
    {name : Nat} (hname : name ∈ names thread) : name ∉ names other := by
  have hsplit := (split_perm names [] before thread after).nodup_iff.1 hnodup
  rw [nil_append, nodup_append'] at hsplit
  intro hsame
  apply hsplit.2.2 hname
  rw [← flatMap_append]
  exact mem_flatMap.2 ⟨other, hother, hsame⟩

end Interleaved

end QuantumLlm
