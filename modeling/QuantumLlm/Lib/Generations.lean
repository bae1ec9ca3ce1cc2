import Mathlib.Data.List.Basic

/-!
# Generations over shared blobs

A store keeps one manifest a generation, and the blobs that the manifests name.
A generation can be loaded when its manifest and all of its blobs are there. The
lemmas say which generations a single file operation leaves loadable.
-/

namespace QuantumLlm

structure Generations (γ β : Type*) where
  manifest : γ → Option (List β)
  blob : β → Bool

namespace Generations

variable {γ β : Type*}

def empty : Generations γ β where
  manifest := fun _ => none
  blob := fun _ => false

def loadable (store : Generations γ β) (generation : γ) : Bool :=
  (store.manifest generation).any fun live => live.all store.blob

variable [DecidableEq γ] [DecidableEq β]

def writeBlob (store : Generations γ β) (name : β) : Generations γ β :=
  { store with blob := fun other => if other = name then true else store.blob other }

def writeManifest (store : Generations γ β) (generation : γ) (live : List β) :
    Generations γ β :=
  { store with
    manifest := fun other => if other = generation then some live else store.manifest other }

def removeManifest (store : Generations γ β) (generation : γ) : Generations γ β :=
  { store with
    manifest := fun other => if other = generation then none else store.manifest other }

def removeBlob (store : Generations γ β) (name : β) : Generations γ β :=
  { store with blob := fun other => if other = name then false else store.blob other }

variable {store : Generations γ β} {generation other : γ} {live : List β} {name : β}

omit [DecidableEq γ] [DecidableEq β] in
theorem loadable_iff : store.loadable generation = true ↔
    ∃ live, store.manifest generation = some live ∧ ∀ name ∈ live, store.blob name = true := by
  rw [loadable, Option.any_eq_true]
  simp only [List.all_eq_true]

omit [DecidableEq γ] in
theorem blob_writeBlob (h : store.blob name = true) (written : β) :
    (store.writeBlob written).blob name = true := by
  simp [writeBlob, h]

omit [DecidableEq γ] in
@[simp] theorem blob_writeBlob_self : (store.writeBlob name).blob name = true := if_pos rfl

omit [DecidableEq γ] in
theorem loadable_writeBlob (h : store.loadable generation = true) (written : β) :
    (store.writeBlob written).loadable generation = true := by
  obtain ⟨live, hlive, hblobs⟩ := loadable_iff.1 h
  exact loadable_iff.2 ⟨live, hlive, fun name hname => blob_writeBlob (hblobs name hname) written⟩

omit [DecidableEq β] in
theorem loadable_writeManifest (hblobs : ∀ name ∈ live, store.blob name = true) :
    (store.writeManifest generation live).loadable generation = true :=
  loadable_iff.2 ⟨live, if_pos rfl, hblobs⟩

omit [DecidableEq β] in
theorem loadable_writeManifest_of_ne (h : store.loadable other = true) (hne : other ≠ generation) :
    (store.writeManifest generation live).loadable other = true := by
  obtain ⟨named, hnamed, hblobs⟩ := loadable_iff.1 h
  exact loadable_iff.2 ⟨named, (if_neg hne).trans hnamed, hblobs⟩

omit [DecidableEq β] in
theorem loadable_removeManifest (h : store.loadable other = true) (hne : other ≠ generation) :
    (store.removeManifest generation).loadable other = true := by
  obtain ⟨named, hnamed, hblobs⟩ := loadable_iff.1 h
  exact loadable_iff.2 ⟨named, (if_neg hne).trans hnamed, hblobs⟩

omit [DecidableEq γ] in
theorem loadable_removeBlob (h : store.loadable generation = true)
    (hlive : ∀ named, store.manifest generation = some named → name ∉ named) :
    (store.removeBlob name).loadable generation = true := by
  obtain ⟨named, hnamed, hblobs⟩ := loadable_iff.1 h
  refine loadable_iff.2 ⟨named, hnamed, ?_⟩
  intro other hother
  have hne : other ≠ name := by
    rintro rfl
    exact hlive named hnamed hother
  exact (if_neg hne).trans (hblobs other hother)

end Generations

end QuantumLlm
