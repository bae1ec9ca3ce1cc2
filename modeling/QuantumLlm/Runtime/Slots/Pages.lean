import QuantumLlm.Lib.Tally
import QuantumLlm.Runtime.Slots.Calls

/-!
# Where the pages are

Every allocated page is in the free list or in one table, once. The lemmas say
what each operation on tables does to this, and that it leaves the tables of the
other slots.
-/

namespace QuantumLlm.Runtime.Slots

open List

variable {config : Config} {provider provider' : Provider config} {slot index : Nat} {page : Page}

/-- All pages of all tables. -/
def Provider.tablePages (provider : Provider config) : List Page :=
  provider.slotPages.flatMap List.reduceOption

def Provider.table (provider : Provider config) (slot : Nat) : PageTable :=
  provider.slotPages[slot]?.getD []

/-- Where the pages and the slots are, and how large the tables are. -/
structure Provider.Paged (provider : Provider config) : Prop where
  pages : (provider.freeKvPages ++ provider.tablePages).Perm (List.range provider.allKvPages)
  tables : provider.slotPages.length = config.capacity
  slots : provider.slotInUse.length = config.capacity
  sizes : ∀ table ∈ provider.slotPages, table.length = config.maximumPagesPerSlot
  /-- The tables of free slots are empty. -/
  unused : ∀ slot, provider.slotInUse[slot]? = some false →
    ∀ entry ∈ provider.table slot, entry = none

theorem reduceOption_set {table : PageTable} {entry : Option Page} (h : table[index]? = some none) :
    (table.set index entry).reduceOption.Perm (entry.toList ++ table.reduceOption) := by
  obtain ⟨hindex, hget⟩ := List.getElem?_eq_some_iff.1 h
  have hsplit : table = table.take index ++ none :: table.drop (index + 1) := by
    rw [← hget, List.getElem_cons_drop hindex, List.take_append_drop]
  have hset : table.set index entry =
      table.take index ++ entry :: table.drop (index + 1) := by
    rw [List.set_eq_take_append_cons_drop, if_pos hindex]
  rw [hset]
  conv => rhs; rw [hsplit]
  rw [List.reduceOption_append, List.reduceOption_append, List.reduceOption_cons_of_none]
  cases entry with
  | none => rw [List.reduceOption_cons_of_none]; exact List.Perm.refl _
  | some page =>
    rw [List.reduceOption_cons_of_some]
    exact List.perm_middle

theorem reduceOption_set_none {table : PageTable} (h : table[index]? = some (some page)) :
    (page :: (table.set index none).reduceOption).Perm table.reduceOption := by
  obtain ⟨hindex, hget⟩ := List.getElem?_eq_some_iff.1 h
  have hnone : (table.set index none)[index]? = some none := by
    rw [List.getElem?_set_self hindex]
  have hset : ((table.set index none).set index (some page)).reduceOption.Perm
      ([page] ++ (table.set index none).reduceOption) := reduceOption_set hnone
  have hsame : table.set index (some page) = table := by
    rw [← hget]
    exact List.set_getElem_self hindex
  rw [List.set_set, hsame] at hset
  exact hset.symm

theorem tablePages_modify {change : PageTable → PageTable} {before after : List Page}
    (hslot : slot < provider.slotPages.length)
    (hchange : (before ++ (change (provider.table slot)).reduceOption).Perm
      (after ++ (provider.table slot).reduceOption)) :
    (before ++ (provider.slotPages.modify slot change).flatMap List.reduceOption).Perm
      (after ++ provider.tablePages) := by
  obtain ⟨first, table, rest, htables, hlength, hmodify⟩ := exists_of_modify change hslot
  have htable : provider.table slot = table := by
    rw [Provider.table, htables, getElem?_append_right (by omega), ← hlength, Nat.sub_self]
    rfl
  rw [htable] at hchange
  rw [hmodify, Provider.tablePages, htables]
  simp only [flatMap_append, flatMap_cons]
  have harrange : ∀ (front middle : List Page),
      (front ++ (first.flatMap List.reduceOption ++ (middle ++ rest.flatMap List.reduceOption))).Perm
        (first.flatMap List.reduceOption ++ ((front ++ middle) ++ rest.flatMap List.reduceOption)) := by
    intro front middle
    rw [append_assoc front middle, ← append_assoc front, ← append_assoc _ front]
    exact List.Perm.append_right _ perm_append_comm
  refine (harrange _ _).trans (List.Perm.trans ?_ (harrange _ _).symm)
  exact List.Perm.append_left _ (List.Perm.append_right _ hchange)

theorem table_modify (change : PageTable → PageTable) (other : Nat) :
    ((provider.slotPages.modify slot change)[other]?.getD []) =
      if other = slot ∧ slot < provider.slotPages.length then change (provider.table slot)
      else provider.table other := by
  rw [Provider.table, Provider.table, getElem?_modify]
  by_cases hsame : slot = other
  · by_cases hslot : slot < provider.slotPages.length
    · simp [← hsame, hslot]
    · simp [← hsame, hslot]
  · simp [hsame, Ne.symm hsame]

/-- The tables of the other slots stay, and which slots are in use. -/
structure Provider.Local (provider provider' : Provider config) (slot : Nat) : Prop where
  inUse : provider'.slotInUse = provider.slotInUse
  others : ∀ other, other ≠ slot → provider'.table other = provider.table other
  hostKvBytes : provider'.hostKvBytes = provider.hostKvBytes
  parkedRequestBytes : provider'.parkedRequestBytes = provider.parkedRequestBytes
  parkedSessionBytes : provider'.parkedSessionBytes = provider.parkedSessionBytes

theorem Provider.Local.refl (provider : Provider config) (slot : Nat) :
    provider.Local provider slot :=
  ⟨rfl, fun _ _ => rfl, rfl, rfl, rfl⟩

theorem Provider.Local.trans {provider'' : Provider config} (h : provider.Local provider' slot)
    (h' : provider'.Local provider'' slot) : provider.Local provider'' slot where
  inUse := h'.inUse.trans h.inUse
  others := fun other hother => (h'.others other hother).trans (h.others other hother)
  hostKvBytes := h'.hostKvBytes.trans h.hostKvBytes
  parkedRequestBytes := h'.parkedRequestBytes.trans h.parkedRequestBytes
  parkedSessionBytes := h'.parkedSessionBytes.trans h.parkedSessionBytes

theorem Provider.setPage_local (provider : Provider config) (slot index : Nat)
    (entry : Option Page) : provider.Local (provider.setPage slot index entry) slot where
  inUse := rfl
  others := by
    intro other hother
    have htable := @table_modify config provider slot (fun table => table.set index entry) other
    rw [if_neg fun h => hother h.1] at htable
    exact htable
  hostKvBytes := rfl
  parkedRequestBytes := rfl
  parkedSessionBytes := rfl

theorem Provider.Paged.slot_lt (h : provider.Paged) {used : Bool}
    (hslot : provider.slotInUse[slot]? = some used) : slot < provider.slotPages.length := by
  obtain ⟨hlt, -⟩ := List.getElem?_eq_some_iff.1 hslot
  rw [h.tables, ← h.slots]
  exact hlt

theorem Provider.Paged.table_length (h : provider.Paged) (hslot : slot < provider.slotPages.length) :
    (provider.table slot).length = config.maximumPagesPerSlot := by
  rw [Provider.table, getElem?_eq_getElem hslot]
  exact h.sizes _ (getElem_mem hslot)

theorem Provider.table_setPage (hslot : slot < provider.slotPages.length) (entry : Option Page) :
    (provider.setPage slot index entry).table slot = (provider.table slot).set index entry := by
  have htable := @table_modify config provider slot (fun table => table.set index entry) slot
  rw [if_pos ⟨rfl, hslot⟩] at htable
  exact htable

theorem Provider.Paged.setPage {free : List Page} {all : Nat} {entry : Option Page}
    (h : provider.Paged) (hused : provider.slotInUse[slot]? = some true)
    (hpages : (free ++ ((provider.table slot).set index entry).reduceOption).Perm
      (List.range' provider.allKvPages (all - provider.allKvPages) ++
        (provider.freeKvPages ++ (provider.table slot).reduceOption)))
    (hall : provider.allKvPages ≤ all) :
    (Provider.setPage ({ provider with freeKvPages := free, allKvPages := all } : Provider config)
      slot index entry).Paged where
  pages := by
    have hslot := h.slot_lt hused
    have hmodify := @tablePages_modify config provider slot
      (fun table => table.set index entry) free
      (List.range' provider.allKvPages (all - provider.allKvPages) ++ provider.freeKvPages) hslot
      (by rw [append_assoc]; exact hpages)
    refine hmodify.trans ?_
    rw [append_assoc]
    refine (List.Perm.append_left _ h.pages).trans (perm_append_comm.trans ?_)
    change (List.range provider.allKvPages ++ _).Perm (List.range all)
    rw [range_eq_range', range_eq_range']
    conv => rhs; rw [← Nat.add_sub_cancel' hall, ← range'_append_1]
    rw [Nat.zero_add]
  tables := by
    rw [← h.tables]
    exact length_modify ..
  slots := h.slots
  sizes := by
    apply forall_mem_modify h.sizes
    intro table htable
    rw [length_set]
    exact h.sizes table htable
  unused := by
    intro other hother
    have hne : other ≠ slot := by
      rintro rfl
      have hboth := hused.symm.trans hother
      cases hboth
    have htable := (provider.setPage_local slot index entry).others other hne
    change ∀ entry ∈ (provider.setPage slot index _).table other, entry = none
    rw [htable]
    exact h.unused other hother

/-- What taking a page for an empty entry does. -/
structure Provider.Took (provider provider' : Provider config) (slot index : Nat) : Prop where
  paged : provider'.Paged
  isLocal : provider.Local provider' slot
  table : ∃ page, provider'.table slot = (provider.table slot).set index (some page)
  budget : if provider.freeKvPages = [] then
      provider'.allKvPages = provider.allKvPages + 1 ∧ provider'.freeKvPages = []
    else provider'.allKvPages = provider.allKvPages ∧
      provider'.freeKvPages.length + 1 = provider.freeKvPages.length

theorem Provider.takePage_spec {allocated : Bool} (h : provider.Paged)
    (hused : provider.slotInUse[slot]? = some true)
    (hempty : (provider.table slot)[index]? = some none)
    (htake : provider.takePage slot index allocated = some provider') :
    provider.Took provider' slot index := by
  have hslot := h.slot_lt hused
  rw [Provider.takePage] at htake
  split at htake
  next page hlast =>
    cases htake
    have hsplit : provider.freeKvPages = provider.freeKvPages.dropLast ++ [page] :=
      (dropLast_append_getLast? page hlast).symm
    have hne : provider.freeKvPages ≠ [] := by
      rw [hsplit]
      simp
    refine ⟨?_, ?_, ⟨page, table_setPage hslot _⟩, ?_⟩
    · apply h.setPage hused ?_ le_rfl
      have hset := @reduceOption_set index _ (some page) hempty
      rw [Nat.sub_self, range'_zero, nil_append]
      conv => rhs; rw [hsplit, append_assoc]
      exact List.Perm.append_left _ hset
    · exact ⟨rfl, (provider.setPage_local slot index (some page)).others, rfl, rfl, rfl⟩
    · rw [if_neg hne]
      refine ⟨rfl, ?_⟩
      have hlength := congrArg List.length hsplit
      rw [length_append] at hlength
      exact hlength.symm
  next hlast =>
    have hnil : provider.freeKvPages = [] := getLast?_eq_none_iff.1 hlast
    split at htake
    next =>
      cases htake
      refine ⟨?_, ?_, ⟨provider.allKvPages, table_setPage hslot _⟩, ?_⟩
      · apply h.setPage hused ?_ (Nat.le_succ _)
        have hset := @reduceOption_set index _ (some provider.allKvPages) hempty
        rw [Nat.succ_eq_add_one, Nat.add_sub_cancel_left, hnil]
        exact hset
      · exact ⟨rfl, (provider.setPage_local slot index (some provider.allKvPages)).others, rfl, rfl,
          rfl⟩
      · rw [if_pos hnil]
        exact ⟨rfl, hnil⟩
    next => cases htake

theorem Provider.takePage_eq_none {allocated : Bool} :
    provider.takePage slot index allocated = none ↔
      provider.freeKvPages = [] ∧ allocated = false := by
  rw [Provider.takePage]
  split
  next page hlast =>
    simp only [reduceCtorEq, false_iff, not_and]
    rintro hnil
    rw [hnil] at hlast
    cases hlast
  next hlast =>
    rw [getLast?_eq_none_iff] at hlast
    simp [hlast]

theorem Provider.freePages_spec (h : provider.Paged)
    (hused : provider.slotInUse[slot]? = some true) :
    ({ provider.freePages slot with slotInUse := provider.slotInUse.set slot false } :
      Provider config).Paged := by
  have hslot := h.slot_lt hused
  have htables : ∀ other, (provider.freePages slot).table other =
      if other = slot then (provider.table slot).map fun _ => none
      else provider.table other := by
    intro other
    have htable := @table_modify config provider slot (fun table => table.map fun _ => none) other
    simp only [hslot, and_true] at htable
    exact htable
  refine ⟨?_, ?_, ?_, ?_, ?_⟩
  · have hempty : ((provider.table slot).map fun _ => (none : Option Page)).reduceOption = [] := by
      simp [List.reduceOption, filterMap_map]
    have hmodify := @tablePages_modify config provider slot
      (fun table => table.map fun _ => none)
      (provider.freeKvPages ++ (provider.table slot).reduceOption) provider.freeKvPages hslot
      (by rw [hempty, append_nil])
    exact hmodify.trans h.pages
  · rw [← h.tables]
    exact length_modify ..
  · rw [← h.slots]
    exact length_set ..
  · apply forall_mem_modify h.sizes
    intro table htable
    rw [length_map]
    exact h.sizes table htable
  · intro other hother entry hentry
    change entry ∈ (provider.freePages slot).table other at hentry
    rw [htables] at hentry
    split at hentry
    next =>
      obtain ⟨-, -, rfl⟩ := mem_map.1 hentry
      rfl
    next hne =>
      rw [getElem?_set_ne (Ne.symm hne)] at hother
      exact h.unused other hother entry hentry

theorem Provider.releaseSlot_spec (h : provider.Paged) (slot : Nat) :
    (provider.releaseSlot slot).Paged ∧
      (provider.releaseSlot slot).slotInUse = provider.slotInUse.set slot false ∧
      (provider.releaseSlot slot).allKvPages = provider.allKvPages ∧
      (provider.releaseSlot slot).hostKvBytes = provider.hostKvBytes ∧
      (provider.releaseSlot slot).parkedRequestBytes = provider.parkedRequestBytes ∧
      (provider.releaseSlot slot).parkedSessionBytes = provider.parkedSessionBytes := by
  rw [Provider.releaseSlot]
  split
  next hused => exact ⟨freePages_spec h hused, rfl, rfl, rfl, rfl, rfl⟩
  next hfree =>
    refine ⟨h, ?_, rfl, rfl, rfl, rfl⟩
    cases hslot : provider.slotInUse[slot]? with
    | none => rw [List.set_eq_of_length_le (List.getElem?_eq_none_iff.1 hslot)]
    | some used =>
      cases used with
      | true => exact absurd hslot hfree
      | false =>
        obtain ⟨hlt, hget⟩ := List.getElem?_eq_some_iff.1 hslot
        rw [← hget]
        exact (List.set_getElem_self hlt).symm

theorem Provider.ensurePage_spec (h : provider.Paged) (hused : provider.slotInUse[slot]? = some true)
    (hbounded : provider.allKvPages ≤ config.kvPageCapacity) (cachePosition : Nat)
    (allocated published : Bool) :
    (provider.ensurePage slot cachePosition allocated published).1.Paged ∧
      (provider.ensurePage slot cachePosition allocated published).1.allKvPages ≤
        config.kvPageCapacity ∧
      provider.Local (provider.ensurePage slot cachePosition allocated published).1 slot := by
  rw [Provider.ensurePage]
  split
  next => exact ⟨h, hbounded, Provider.Local.refl _ _⟩
  next =>
    simp only
    split
    next hempty =>
      split
      next => exact ⟨h, hbounded, Provider.Local.refl _ _⟩
      next hbudget =>
        split
        next => exact ⟨h, hbounded, Provider.Local.refl _ _⟩
        next taken htake =>
          have htook := takePage_spec h hused hempty htake
          refine ⟨htook.paged, ?_, htook.isLocal⟩
          change taken.allKvPages ≤ config.kvPageCapacity
          have hcount := htook.budget
          by_cases hnil : provider.freeKvPages = []
          · rw [if_pos hnil] at hcount
            have hless : ¬ config.kvPageCapacity ≤ provider.allKvPages :=
              fun hle => hbudget ⟨hnil, hle⟩
            omega
          · rw [if_neg hnil] at hcount
            omega
    next => exact ⟨h, hbounded, Provider.Local.refl _ _⟩

/-- What a restore has published: just these entries of an empty table. -/
structure Provider.Restoring (marked provider : Provider config) (slot : Nat)
    (published : List Nat) : Prop where
  paged : provider.Paged
  isLocal : marked.Local provider slot
  published : ∀ index page, (provider.table slot)[index]? = some (some page) → index ∈ published

theorem restorePages_spec {marked : Provider config} {pageCount : Nat} {rest : List Nat}
    (hpages : pageCount ≤ config.maximumPagesPerSlot) :
    ∀ {provider : Provider config} {allocations copies : Nat} {published : List Nat},
      marked.Restoring provider slot published → provider.slotInUse[slot]? = some true →
      rest.Pairwise (· < ·) → (∀ index ∈ rest, index ∉ published) →
      provider.allKvPages + (rest.length - provider.freeKvPages.length) ≤ config.kvPageCapacity →
      let restored := Provider.restorePages slot pageCount provider allocations copies published rest
      marked.Restoring restored.1 slot restored.2.1 ∧
        restored.1.allKvPages ≤ config.kvPageCapacity := by
  induction rest with
  | nil =>
    intro provider allocations copies published hrestoring hused _ _ hbudget
    rw [Provider.restorePages]
    exact ⟨hrestoring, by simpa using hbudget⟩
  | cons index rest ih =>
    intro provider allocations copies published hrestoring hused hordered hfresh hbudget
    have hbounded : provider.allKvPages ≤ config.kvPageCapacity := by omega
    rw [Provider.restorePages]
    split
    next => exact ⟨hrestoring, hbounded⟩
    next hindex =>
      split
      next => exact ⟨hrestoring, hbounded⟩
      next taken htake =>
        have hslot := hrestoring.paged.slot_lt hused
        have hlength := hrestoring.paged.table_length hslot
        have hempty : (provider.table slot)[index]? = some none := by
          cases hentry : (provider.table slot)[index]? with
          | none =>
            rw [getElem?_eq_none_iff] at hentry
            omega
          | some entry =>
            cases entry with
            | none => rfl
            | some page =>
              exact absurd (hrestoring.published index page hentry)
                (hfresh index mem_cons_self)
        have htook := Provider.takePage_spec hrestoring.paged hused hempty htake
        have hrestoring' : marked.Restoring taken slot (published ++ [index]) := by
          refine ⟨htook.paged, hrestoring.isLocal.trans htook.isLocal, ?_⟩
          obtain ⟨page, htable⟩ := htook.table
          intro other held hheld
          rw [htable] at hheld
          by_cases hsame : index = other
          · simp [hsame]
          · rw [getElem?_set_ne hsame] at hheld
            exact mem_append_left _ (hrestoring.published other held hheld)
        have hcount := htook.budget
        have hbudget' : taken.allKvPages + (rest.length - taken.freeKvPages.length) ≤
            config.kvPageCapacity := by
          rw [length_cons] at hbudget
          by_cases hnil : provider.freeKvPages = []
          · rw [if_pos hnil] at hcount
            rw [hnil] at hbudget
            simp only [hcount.1, hcount.2, length_nil] at hbudget ⊢
            omega
          · rw [if_neg hnil] at hcount
            omega
        split
        next => exact ⟨hrestoring', by simp only; omega⟩
        next copies =>
          apply ih hrestoring'
          · rw [htook.isLocal.inUse]
            exact hused
          · exact hordered.of_cons
          · intro other hother
            rw [mem_append, mem_singleton, not_or]
            refine ⟨hfresh other (mem_cons_of_mem _ hother), ?_⟩
            have hless := rel_of_pairwise_cons hordered hother
            omega
          · exact hbudget'

theorem unpublish_spec {marked : Provider config} {published : List Nat} :
    ∀ {provider : Provider config}, marked.Restoring provider slot published →
      provider.slotInUse[slot]? = some true →
      let rolledBack := Provider.unpublish slot provider published
      rolledBack.Paged ∧ marked.Local rolledBack slot ∧
        rolledBack.allKvPages = provider.allKvPages ∧
        ∀ entry ∈ rolledBack.table slot, entry = none := by
  induction published with
  | nil =>
    intro provider hrestoring hused
    refine ⟨hrestoring.paged, hrestoring.isLocal, rfl, ?_⟩
    intro entry hentry
    obtain ⟨index, hindex⟩ := mem_iff_getElem?.1 hentry
    cases entry with
    | none => rfl
    | some page => exact absurd (hrestoring.published index page hindex) not_mem_nil
  | cons index rest ih =>
    intro provider hrestoring hused
    rw [Provider.unpublish]
    have hslot := hrestoring.paged.slot_lt hused
    split
    next page hentry =>
      change (provider.table slot)[index]? = _ at hentry
      have hpaged : (Provider.setPage ({ provider with
          freeKvPages := provider.freeKvPages ++ [page] } : Provider config) slot index
            none).Paged := by
        apply hrestoring.paged.setPage hused ?_ le_rfl
        rw [Nat.sub_self, range'_zero, nil_append, append_assoc]
        exact List.Perm.append_left _ (reduceOption_set_none hentry)
      have hlocal := provider.setPage_local slot index none
      have htable := @Provider.table_setPage config provider slot index hslot none
      apply ih ⟨hpaged, ?_, ?_⟩ hused
      · exact hrestoring.isLocal.trans
          ⟨rfl, hlocal.others, rfl, rfl, rfl⟩
      · intro other held hheld
        change ((provider.setPage slot index none).table slot)[other]? = _ at hheld
        rw [htable] at hheld
        by_cases hsame : index = other
        · rw [hsame, getElem?_set_self', ← hsame, hentry] at hheld
          cases hheld
        · rw [getElem?_set_ne hsame] at hheld
          exact (mem_cons.1 (hrestoring.published other held hheld)).resolve_left
            (Ne.symm hsame)
    next hnone =>
      apply ih ⟨hrestoring.paged, hrestoring.isLocal, ?_⟩ hused
      intro other held hheld
      rcases mem_cons.1 (hrestoring.published other held hheld) with rfl | hrest
      · exact absurd hheld (hnone held)
      · exact hrest

end QuantumLlm.Runtime.Slots
