import Mathlib.Data.List.Basic

/-!
# Directories

A finite map from paths to contents, as the list of its entries, and what
creating, renaming and removing a file does to every path.
-/

namespace QuantumLlm

abbrev Files (P C : Type) := List (P × C)

namespace Files

variable {P C : Type} [DecidableEq P] {files files' : Files P C} {path target other : P}
  {content : C}

def get (files : Files P C) (path : P) : Option C :=
  match files with
  | [] => none
  | entry :: rest => if entry.1 = path then some entry.2 else get rest path

def erase (files : Files P C) (path : P) : Files P C :=
  files.filter fun entry => entry.1 ≠ path

def put (files : Files P C) (path : P) (content : C) : Files P C :=
  (path, content) :: files.erase path

/-- Replaces the target; without a source nothing happens. -/
def rename (files : Files P C) (path target : P) : Files P C :=
  match files.get path with
  | none => files
  | some content => (files.erase path).put target content

@[simp] theorem get_nil : get ([] : Files P C) path = none := rfl

theorem get_cons (entry : P × C) (rest : Files P C) (path : P) :
    get (entry :: rest) path = if entry.1 = path then some entry.2 else get rest path := rfl

theorem get_erase (files : Files P C) (path other : P) :
    (files.erase path).get other = if other = path then none else files.get other := by
  induction files with
  | nil => simp [erase]
  | cons entry rest ih =>
    rw [erase, List.filter_cons]
    by_cases hentry : entry.1 = path
    · rw [if_neg (by simpa using hentry)]
      change get (erase rest path) other = _
      rw [ih, get_cons, hentry]
      by_cases hsame : other = path
      · rw [if_pos hsame, if_pos hsame]
      · rw [if_neg hsame, if_neg hsame, if_neg (Ne.symm hsame)]
    · rw [if_pos (by simpa using hentry), get_cons]
      change (if entry.1 = other then some entry.2 else get (erase rest path) other) = _
      rw [ih, get_cons]
      by_cases hsame : other = path
      · rw [if_pos hsame, if_pos hsame, if_neg (hsame ▸ hentry)]
      · rw [if_neg hsame, if_neg hsame]

theorem get_put (files : Files P C) (path : P) (content : C) (other : P) :
    (files.put path content).get other = if other = path then some content else files.get other := by
  rw [put, get_cons]
  by_cases hsame : other = path
  · rw [if_pos hsame.symm, if_pos hsame]
  · rw [if_neg (Ne.symm hsame), if_neg hsame, get_erase, if_neg hsame]

theorem get_rename (hcontent : files.get path = some content) (other : P) :
    (files.rename path target).get other =
      if other = target then some content else if other = path then none else files.get other := by
  rw [rename, hcontent]
  rw [get_put, get_erase]

theorem get_eq_some_of_mem {entry : P × C} (h : entry ∈ files) : (files.get entry.1).isSome := by
  induction files with
  | nil => cases h
  | cons first rest ih =>
    rw [get_cons]
    by_cases hsame : first.1 = entry.1
    · rw [if_pos hsame]
      rfl
    · rw [if_neg hsame]
      rcases List.mem_cons.1 h with rfl | hrest
      · exact absurd rfl hsame
      · exact ih hrest

theorem mem_of_get (h : files.get path = some content) : (path, content) ∈ files := by
  induction files with
  | nil => cases h
  | cons first rest ih =>
    rw [get_cons] at h
    split at h
    next hsame =>
      cases h
      rw [← hsame]
      exact List.mem_cons_self
    next => exact List.mem_cons_of_mem _ (ih h)

theorem mem_paths : path ∈ files.map Prod.fst ↔ (files.get path).isSome := by
  constructor
  · intro h
    obtain ⟨entry, hentry, rfl⟩ := List.mem_map.1 h
    exact get_eq_some_of_mem hentry
  · intro h
    obtain ⟨content, hcontent⟩ := Option.isSome_iff_exists.1 h
    exact List.mem_map_of_mem (mem_of_get hcontent)

end Files

end QuantumLlm
