import Mathlib.Order.Lattice
import Mathlib.Data.List.Nodup
import Mathlib.Data.List.Perm.Basic

/-!
# Ordered maps

A finite map kept as the list of its entries in strictly increasing key order,
the order in which an ordered container is walked. Each operation is described by
what it does to `find?` and by what it does to the entries up to order.
-/

namespace QuantumLlm

open List

structure OrderedMap (K V : Type*) [LinearOrder K] where
  entries : List (K × V)
  sorted : entries.Pairwise fun left right => left.1 < right.1

/-- Puts an entry before the first entry with a larger key. -/
def insertEntry {K V : Type*} [LinearOrder K] (key : K) (value : V) : List (K × V) → List (K × V)
  | [] => [(key, value)]
  | head :: rest =>
    if key < head.1 then (key, value) :: head :: rest
    else head :: insertEntry key value rest

section

variable {K V : Type*} [LinearOrder K] {key : K} {value : V} {entries : List (K × V)}

theorem insertEntry_cons (head : K × V) (rest : List (K × V)) :
    insertEntry key value (head :: rest) =
      if key < head.1 then (key, value) :: head :: rest
      else head :: insertEntry key value rest := rfl

theorem insertEntry_perm : (insertEntry key value entries).Perm ((key, value) :: entries) := by
  induction entries with
  | nil => exact List.Perm.refl _
  | cons head rest ih =>
    rw [insertEntry_cons]
    split
    next => exact List.Perm.refl _
    next => exact (ih.cons head).trans (List.Perm.swap _ _ _)

theorem insertEntry_sorted (hsorted : entries.Pairwise fun left right => left.1 < right.1)
    (hkey : ∀ entry ∈ entries, entry.1 ≠ key) :
    (insertEntry key value entries).Pairwise fun left right => left.1 < right.1 := by
  induction entries with
  | nil => exact pairwise_singleton _ _
  | cons head rest ih =>
    obtain ⟨hhead, hrest⟩ := pairwise_cons.1 hsorted
    rw [insertEntry_cons]
    split
    next hlt =>
      refine pairwise_cons.2 ⟨fun entry hentry => ?_, hsorted⟩
      rcases mem_cons.1 hentry with rfl | hmem
      · exact hlt
      · exact hlt.trans (hhead entry hmem)
    next hnot =>
      have hbefore : head.1 < key :=
        lt_of_le_of_ne (not_lt.1 hnot) (hkey head mem_cons_self)
      refine pairwise_cons.2 ⟨fun entry hentry => ?_,
        ih hrest fun entry hmem => hkey entry (mem_cons_of_mem _ hmem)⟩
      rcases mem_cons.1 (insertEntry_perm.mem_iff.1 hentry) with rfl | hmem
      · exact hbefore
      · exact hhead entry hmem

end

namespace OrderedMap

variable {K V : Type*} [LinearOrder K]

def empty : OrderedMap K V := ⟨[], List.Pairwise.nil⟩

def keys (map : OrderedMap K V) : List K := map.entries.map Prod.fst

def size (map : OrderedMap K V) : Nat := map.entries.length

def find? (map : OrderedMap K V) (key : K) : Option V :=
  (map.entries.find? (·.1 = key)).map Prod.snd

def contains (map : OrderedMap K V) (key : K) : Bool := (map.find? key).isSome

theorem nodup_keys (map : OrderedMap K V) : map.keys.Nodup :=
  pairwise_map.2 (map.sorted.imp fun hlt => hlt.ne)

theorem entry_unique (map : OrderedMap K V) {left right : K × V} (hleft : left ∈ map.entries)
    (hright : right ∈ map.entries) (hkey : left.1 = right.1) : left = right :=
  inj_on_of_nodup_map map.nodup_keys hleft hright hkey

theorem find?_eq_some_iff {map : OrderedMap K V} :
    map.find? key = some value ↔ (key, value) ∈ map.entries := by
  unfold find?
  constructor
  · intro h
    obtain ⟨entry, hentry, rfl⟩ := Option.map_eq_some_iff.1 h
    have hkey : entry.1 = key := by simpa using find?_some hentry
    rw [← hkey]
    exact mem_of_find?_eq_some hentry
  · intro h
    cases hfind : map.entries.find? (·.1 = key) with
    | none => simpa using find?_eq_none.1 hfind (key, value) h
    | some entry =>
      have hkey : entry.1 = key := by simpa using find?_some hfind
      rw [map.entry_unique (mem_of_find?_eq_some hfind) h hkey]
      rfl

theorem find?_eq_none_iff {map : OrderedMap K V} :
    map.find? key = none ↔ ∀ entry ∈ map.entries, entry.1 ≠ key := by
  simp [find?]

theorem mem_keys_iff {map : OrderedMap K V} :
    key ∈ map.keys ↔ ∃ value, map.find? key = some value := by
  simp [keys, find?_eq_some_iff]

theorem contains_iff {map : OrderedMap K V} : map.contains key ↔ key ∈ map.keys := by
  rw [mem_keys_iff, contains, Option.isSome_iff_exists]

theorem find?_congr {map map' : OrderedMap K V}
    (h : ∀ value, (key, value) ∈ map'.entries ↔ (key, value) ∈ map.entries) :
    map'.find? key = map.find? key := by
  apply Option.ext
  intro value
  rw [find?_eq_some_iff, find?_eq_some_iff, h]

theorem find?_split {map : OrderedMap K V} (hkey : map.find? key = some value) :
    ∃ before after, map.entries = before ++ (key, value) :: after ∧
      (∀ entry ∈ before, entry.1 ≠ key) ∧ ∀ entry ∈ after, entry.1 ≠ key := by
  obtain ⟨before, after, hsplit⟩ := append_of_mem (find?_eq_some_iff.1 hkey)
  have hapart := map.nodup_keys
  rw [keys, hsplit, map_append, map_cons] at hapart
  obtain ⟨-, hrest, hdisjoint⟩ := nodup_append.1 hapart
  refine ⟨before, after, hsplit, ?_, ?_⟩
  · rintro entry hentry rfl
    exact hdisjoint _ (mem_map_of_mem hentry) _ mem_cons_self rfl
  · rintro entry hentry rfl
    exact (nodup_cons.1 hrest).1 (mem_map.2 ⟨entry, hentry, rfl⟩)

/-- Adds an entry; a key already there keeps its value. -/
def emplace (map : OrderedMap K V) (key : K) (value : V) : OrderedMap K V :=
  if hkey : map.find? key = none then
    ⟨insertEntry key value map.entries, insertEntry_sorted map.sorted (find?_eq_none_iff.1 hkey)⟩
  else map

variable {map : OrderedMap K V} {key other : K} {value : V}

theorem emplace_perm (hkey : map.find? key = none) :
    (map.emplace key value).entries.Perm ((key, value) :: map.entries) := by
  rw [emplace, dif_pos hkey]
  exact insertEntry_perm

theorem find?_emplace_self (hkey : map.find? key = none) :
    (map.emplace key value).find? key = some value :=
  find?_eq_some_iff.2 ((emplace_perm hkey).mem_iff.2 mem_cons_self)

theorem find?_emplace_ne (hne : other ≠ key) :
    (map.emplace key value).find? other = map.find? other := by
  unfold emplace
  split
  next =>
    refine find?_congr fun found => ?_
    rw [insertEntry_perm.mem_iff]
    simp [hne]
  next => rfl

theorem insertEntry_last {entries : List (K × V)} (habove : ∀ entry ∈ entries, entry.1 < key) :
    insertEntry key value entries = entries ++ [(key, value)] := by
  induction entries with
  | nil => rfl
  | cons entry rest ih =>
    have hbelow : ¬ key < entry.1 := (habove entry mem_cons_self).not_gt
    have hrest := ih fun other hother => habove other (mem_cons_of_mem _ hother)
    simp [insertEntry_cons, hbelow, hrest]

theorem entries_emplace_last (habove : ∀ other ∈ map.keys, other < key) :
    (map.emplace key value).entries = map.entries ++ [(key, value)] := by
  have hnew : map.find? key = none := by
    rw [find?_eq_none_iff]
    intro entry hentry heq
    have hlt := habove entry.1 (mem_map.2 ⟨entry, hentry, rfl⟩)
    exact hlt.ne heq
  rw [emplace, dif_pos hnew]
  exact insertEntry_last fun entry hentry => habove entry.1 (mem_map.2 ⟨entry, hentry, rfl⟩)

theorem keys_emplace_perm (hkey : map.find? key = none) :
    (map.emplace key value).keys.Perm (key :: map.keys) :=
  (emplace_perm hkey).map Prod.fst

theorem size_eq_length_keys (map : OrderedMap K V) : map.size = map.keys.length := by
  rw [size, keys, length_map]

/-- Keeps the entries whose key meets a test. -/
def filterKeys (map : OrderedMap K V) (keep : K → Bool) : OrderedMap K V :=
  ⟨map.entries.filter fun entry => keep entry.1, map.sorted.filter _⟩

def erase (map : OrderedMap K V) (key : K) : OrderedMap K V := map.filterKeys (· ≠ key)

variable {keep : K → Bool} {changed : List K}

theorem find?_filterKeys :
    (map.filterKeys keep).find? key = if keep key then map.find? key else none := by
  by_cases hkeep : keep key
  · rw [if_pos hkeep]
    refine find?_congr fun value => ?_
    simp [filterKeys, hkeep]
  · rw [if_neg hkeep, find?_eq_none_iff]
    intro entry hentry heq
    rw [filterKeys, mem_filter, heq] at hentry
    exact hkeep hentry.2

theorem keys_filterKeys :
    (map.filterKeys keep).keys = map.keys.filter keep := by
  rw [keys, keys, filter_map]
  rfl

theorem find?_erase_self : (map.erase key).find? key = none := by
  rw [erase, find?_filterKeys]
  simp

theorem find?_erase_ne (hne : other ≠ key) : (map.erase key).find? other = map.find? other := by
  rw [erase, find?_filterKeys]
  simp [hne]

theorem foldl_erase {erased : List K} :
    erased.foldl erase map = map.filterKeys (· ∉ erased) := by
  induction erased generalizing map with
  | nil => simp [filterKeys]
  | cons key rest ih =>
    rw [foldl_cons, ih]
    simp only [erase, filterKeys, filter_filter, OrderedMap.mk.injEq]
    simp [Bool.and_comm]

/-- Rewrites the value of a key that is there. -/
def modify (map : OrderedMap K V) (key : K) (change : V → V) : OrderedMap K V where
  entries := map.entries.map fun entry =>
    if entry.1 = key then (entry.1, change entry.2) else entry
  sorted := by
    refine List.pairwise_map.2 (map.sorted.imp fun {left right} hlt => ?_)
    have hkey : ∀ entry : K × V,
        (if entry.1 = key then (entry.1, change entry.2) else entry).1 = entry.1 := by
      intro entry
      split <;> rfl
    rw [hkey, hkey]
    exact hlt

variable {change : V → V}

@[simp] theorem keys_modify : (map.modify key change).keys = map.keys := by
  simp only [keys, modify, map_map]
  refine map_congr_left fun entry _ => ?_
  simp only [Function.comp]
  split <;> rfl

theorem find?_modify_self : (map.modify key change).find? key = (map.find? key).map change := by
  apply Option.ext
  intro value
  simp only [modify, mem_map, Option.map_eq_some_iff, find?_eq_some_iff]
  constructor
  · rintro ⟨entry, hentry, heq⟩
    split at heq
    next hkey =>
      cases heq
      exact ⟨entry.2, hentry, rfl⟩
    next hkey => exact absurd (congrArg Prod.fst heq) hkey
  · rintro ⟨old, hold, rfl⟩
    exact ⟨(key, old), hold, by simp⟩

theorem find?_modify_ne (hne : other ≠ key) :
    (map.modify key change).find? other = map.find? other := by
  refine find?_congr fun value => ?_
  simp only [modify, mem_map]
  constructor
  · rintro ⟨entry, hentry, heq⟩
    split at heq
    next hkey => exact absurd ((congrArg Prod.fst heq).symm.trans hkey) hne
    next => exact heq ▸ hentry
  · intro hentry
    exact ⟨(other, value), hentry, if_neg hne⟩

theorem keys_foldl_modify :
    (changed.foldl (fun map key => map.modify key change) map).keys = map.keys := by
  induction changed generalizing map with
  | nil => rfl
  | cons key rest ih => rw [foldl_cons, ih, keys_modify]

theorem entries_foldl_modify (hnodup : changed.Nodup) :
    (changed.foldl (fun map key => map.modify key change) map).entries =
      map.entries.map fun entry =>
        if entry.1 ∈ changed then (entry.1, change entry.2) else entry := by
  induction changed generalizing map with
  | nil => simp
  | cons key rest ih =>
    obtain ⟨hnew, hrest⟩ := nodup_cons.1 hnodup
    rw [foldl_cons, ih hrest, modify, map_map]
    apply map_congr_left
    intro entry _
    by_cases heq : entry.1 = key
    · subst heq
      simp [hnew]
    · simp [heq]

theorem find?_foldl_modify (hnodup : changed.Nodup) :
    (changed.foldl (fun map key => map.modify key change) map).find? other =
      if other ∈ changed then (map.find? other).map change else map.find? other := by
  induction changed generalizing map with
  | nil => simp
  | cons key rest ih =>
    obtain ⟨hnew, hrest⟩ := nodup_cons.1 hnodup
    rw [foldl_cons, ih hrest]
    by_cases heq : other = key
    · subst heq
      rw [if_neg hnew, if_pos mem_cons_self, find?_modify_self]
    · rw [find?_modify_ne heq]
      simp [heq]

/-- Appends to the list of a key, which starts empty. -/
def push (map : OrderedMap K (List V)) (key : K) (value : V) : OrderedMap K (List V) :=
  if map.contains key then map.modify key (· ++ [value]) else map.emplace key [value]

theorem flatMap_modify_perm {map : OrderedMap K (List V)} {old : List V}
    (hkey : map.find? key = some old) :
    ((map.modify key (· ++ [value])).entries.flatMap Prod.snd).Perm
      (value :: map.entries.flatMap Prod.snd) := by
  obtain ⟨before, after, hsplit, hbefore, hafter⟩ := find?_split hkey
  have hkeep : ∀ part : List (K × List V), (∀ entry ∈ part, entry.1 ≠ key) →
      (part.map fun entry => if entry.1 = key then (entry.1, entry.2 ++ [value]) else entry) =
        part := by
    intro part hpart
    conv_rhs => rw [← map_id part]
    refine map_congr_left fun entry hentry => ?_
    rw [if_neg (hpart entry hentry), id_eq]
  simp only [modify, hsplit, map_append, map_cons, hkeep before hbefore,
    hkeep after hafter, if_true, flatMap_append, flatMap_cons, append_assoc,
    singleton_append]
  have hmove := @perm_middle V value (before.flatMap Prod.snd ++ old) (after.flatMap Prod.snd)
  simpa only [append_assoc] using hmove

theorem forall_push {map : OrderedMap K (List V)} {value : V} {p : K → List V → Prop}
    (hmap : ∀ entry ∈ map.entries, p entry.1 entry.2) (hnew : p key [value])
    (hadd : ∀ old, p key old → p key (old ++ [value])) :
    ∀ entry ∈ (map.push key value).entries, p entry.1 entry.2 := by
  intro entry hentry
  unfold push at hentry
  split at hentry
  next =>
    obtain ⟨old, hold, rfl⟩ := mem_map.1 hentry
    split
    next hkey => exact hkey ▸ hadd old.2 (hkey ▸ hmap old hold)
    next => exact hmap old hold
  next hkey =>
    have hnone : map.find? key = none := by simpa [contains] using hkey
    rcases mem_cons.1 ((emplace_perm hnone).mem_iff.1 hentry) with rfl | hold
    · exact hnew
    · exact hmap entry hold

theorem flatMap_push_perm {map : OrderedMap K (List V)} :
    ((map.push key value).entries.flatMap Prod.snd).Perm
      (value :: map.entries.flatMap Prod.snd) := by
  unfold push
  split
  next hkey =>
    obtain ⟨old, hold⟩ := Option.isSome_iff_exists.1 hkey
    exact flatMap_modify_perm hold
  next hkey =>
    have hnone : map.find? key = none := by simpa [contains] using hkey
    exact (emplace_perm hnone).flatMap_right _

/-- Adds an entry or replaces the value of its key. -/
def assign (map : OrderedMap K V) (key : K) (value : V) : OrderedMap K V :=
  (map.erase key).emplace key value

theorem find?_assign_self {map : OrderedMap K V} :
    (map.assign key value).find? key = some value :=
  find?_emplace_self find?_erase_self

theorem find?_assign_ne {map : OrderedMap K V} (hne : other ≠ key) :
    (map.assign key value).find? other = map.find? other := by
  rw [assign, find?_emplace_ne hne, find?_erase_ne hne]

theorem find?_foldl_assign {E : Type*} {items : List E} {keyOf : E → K} {change : E → Option V → V}
    (hnodup : (items.map keyOf).Nodup) {map : OrderedMap K V} {key : K} :
    (items.foldl (fun map item =>
        map.assign (keyOf item) (change item (map.find? (keyOf item)))) map).find? key =
      match items.find? fun item => keyOf item = key with
      | some item => some (change item (map.find? key))
      | none => map.find? key := by
  induction items generalizing map with
  | nil => rfl
  | cons item rest ih =>
    obtain ⟨hfresh, hrest⟩ := nodup_cons.1 hnodup
    rw [foldl_cons, ih hrest]
    by_cases hkey : keyOf item = key
    · subst hkey
      have hnone : rest.find? (fun other => keyOf other = keyOf item) = none := by
        apply find?_eq_none.2
        intro other hother
        simp only [decide_eq_true_eq]
        exact fun heq => hfresh (heq ▸ mem_map_of_mem hother)
      simp [hnone, find?_assign_self]
    · have hne : key ≠ keyOf item := Ne.symm hkey
      simp [hkey, find?_assign_ne hne]

/-- Adds an entry under a new key. -/
def insertNew? (map : OrderedMap K V) (key : K) (value : V) : Option (OrderedMap K V) :=
  if map.contains key then none else some (map.emplace key value)

end OrderedMap

end QuantumLlm
