import QuantumLlm.Runtime.Scheduler.Runs

/-!
# What a batch hands out

The earliest deadlines of the ready work, grouped by layer and expert. What does not
fit stays where it was.
-/

namespace QuantumLlm.Runtime.Scheduler

open List

/-- The items that a batch hands out, out of what is ready, and what it says of the rest. -/
structure Core.EarliestDeadlines (core : Core) (residency : ResidencyQuery)
    (batch : SchedulerBatch) (after : Core) (handed : List (Nat × Item)) : Prop where
  ready : ∀ entry ∈ handed, entry ∈ core.ready residency
  distinct : (handed.map Prod.fst).Nodup
  count : handed.length = min core.config.maximumBatchItems (core.ready residency).length
  earliest : ∀ left ∈ core.ready residency, left ∉ handed → ∀ taken ∈ handed,
    ¬ left.2.sortKey < taken.2.sortKey
  items : (batch.groups.flatMap ExpertGroup.items).Perm (handed.map (·.2.value))
  grouped : ∀ group ∈ batch.groups, group.items ≠ [] ∧
    ∀ item ∈ group.items, item.layer = group.layer ∧ item.expert = group.expert
  keys : (batch.groups.map fun group => (group.layer, group.expert)).Nodup
  waiting : after.waiting = core.waiting.filter fun entry => entry.1 ∉ handed.map Prod.fst
  failed : batch.failedItems =
    after.waiting.countP fun entry => residencyOf residency entry = .failed
  blocked : batch.blockedItems = after.waiting.countP fun entry =>
    residencyOf residency entry = .ramReady || residencyOf residency entry = .absent

namespace Core

variable {core : Core} {residency : ResidencyQuery} {sorting : Sorting}

theorem grouped_spec {picked : List (Nat × Item)} : ∀ group ∈ (grouped picked).entries,
    group.2 ≠ [] ∧ ∀ item ∈ group.2, item.layer = group.1.layer ∧ item.expert = group.1.expert := by
  unfold grouped
  generalize hstart : (OrderedMap.empty : OrderedMap GroupKey (List ScheduledItem)) = start
  have hall : ∀ group ∈ start.entries, group.2 ≠ [] ∧
      ∀ item ∈ group.2, item.layer = group.1.layer ∧ item.expert = group.1.expert := by
    subst hstart
    exact fun group hgroup => absurd hgroup not_mem_nil
  clear hstart
  induction picked generalizing start with
  | nil => exact hall
  | cons entry rest ih =>
    apply ih
    have hpush := @OrderedMap.forall_push _ _ _ ⟨entry.2.value.layer, entry.2.value.expert⟩
      start entry.2.value (fun key items => items ≠ [] ∧
        ∀ item ∈ items, item.layer = key.layer ∧ item.expert = key.expert) hall
    apply hpush
    · simp
    · rintro old ⟨-, hold⟩
      refine ⟨by simp, fun item hitem => ?_⟩
      rcases mem_append.1 hitem with hitem | hitem
      · exact hold item hitem
      · rw [mem_singleton.1 hitem]
        exact ⟨rfl, rfl⟩

theorem group_keys_nodup {picked : List (Nat × Item)} :
    ((grouped picked).entries.map fun group => (group.1.layer, group.1.expert)).Nodup := by
  have hkeys := (grouped picked).nodup_keys
  have hmap : ((grouped picked).entries.map fun group => (group.1.layer, group.1.expert)) =
      (grouped picked).keys.map fun key => (key.layer, key.expert) := by
    rw [OrderedMap.keys, map_map]
    rfl
  rw [hmap]
  refine hkeys.map fun left right heq => ?_
  cases left
  cases right
  simpa using heq

theorem waiting_schedule : (core.schedule (some residency) sorting).2.waiting =
    core.waiting.filter fun entry => entry.1 ∉ (core.picked residency sorting).map Prod.fst := by
  have hitems : (core.schedule (some residency) sorting).2.items.entries =
      core.items.entries.map fun entry =>
        if entry.1 ∈ (core.picked residency sorting).map Prod.fst then
          (entry.1, entry.2.launched) else entry := by
    rw [← OrderedMap.entries_foldl_modify (@picked_spec core residency sorting).1, foldl_map]
    rfl
  rw [waiting, hitems, waiting, filter_filter, filter_map]
  have hsame : (fun entry : Nat × Item => !entry.2.complete && !entry.2.inFlight) ∘
      (fun entry => if entry.1 ∈ (core.picked residency sorting).map Prod.fst then
        (entry.1, entry.2.launched) else entry) =
      fun entry => decide (entry.1 ∉ (core.picked residency sorting).map Prod.fst) &&
        (!entry.2.complete && !entry.2.inFlight) := by
    funext entry
    by_cases hpicked : entry.1 ∈ (core.picked residency sorting).map Prod.fst
    · simp only [Function.comp_apply, if_pos hpicked]
      simp [Item.launched, hpicked]
    · simp only [Function.comp_apply, if_neg hpicked]
      simp [hpicked]
  rw [hsame]
  conv_rhs => rw [← map_id (List.filter _ _)]
  apply map_congr_left
  intro entry hentry
  have hleft := (mem_filter.1 hentry).2
  rw [Bool.and_eq_true, decide_eq_true_eq] at hleft
  rw [if_neg hleft.1, id_eq]

theorem countP_waiting (p : ExpertResidency → Bool) (hp : p .vramReady = false) :
    (core.schedule (some residency) sorting).2.waiting.countP
        (fun entry => p (residencyOf residency entry)) =
      core.waiting.countP fun entry => p (residencyOf residency entry) := by
  rw [waiting_schedule, countP_filter]
  apply countP_congr
  intro entry hentry
  constructor
  · intro h
    exact (Bool.and_eq_true_iff.1 h).1
  · intro h
    rw [Bool.and_eq_true, decide_eq_true_eq]
    refine ⟨h, fun hmem => ?_⟩
    obtain ⟨taken, htaken, hid⟩ := mem_map.1 hmem
    have hready := (sorting.perm _).mem_iff.1 (mem_of_mem_take htaken)
    have hvram := of_decide_eq_true (mem_filter.1 hready).2
    have hsame : taken = entry := core.items.entry_unique
      (mem_of_mem_filter (mem_of_mem_filter hready)) (mem_of_mem_filter hentry) hid
    rw [← hsame, hvram, hp] at h
    exact Bool.noConfusion h

theorem picked_earliest {left taken : Nat × Item} (hleft : left ∈ core.ready residency)
    (hout : left ∉ core.picked residency sorting) (htaken : taken ∈ core.picked residency sorting) :
    taken.2.sortKey ≤ left.2.sortKey := by
  have hsorted := sorting.sorted (core.ready residency)
  rw [← take_append_drop core.config.maximumBatchItems (sorting.sort (core.ready residency)),
    pairwise_append] at hsorted
  have hmem : left ∈ sorting.sort (core.ready residency) := (sorting.perm _).mem_iff.2 hleft
  rw [← take_append_drop core.config.maximumBatchItems (sorting.sort (core.ready residency)),
    mem_append] at hmem
  exact hsorted.2.2 taken htaken left (hmem.resolve_left hout)

/-- Every batch is made of the earliest deadlines among the ready items, whichever way equal
ones are sorted. -/
theorem schedule_earliest_deadlines (core : Core) (residency : ResidencyQuery)
    (sorting : Sorting) : ∃ handed, core.EarliestDeadlines residency
      (core.schedule (some residency) sorting).1 (core.schedule (some residency) sorting).2
      handed := by
  refine ⟨core.picked residency sorting, ?_⟩
  have hready : ∀ entry ∈ core.picked residency sorting, entry ∈ core.ready residency :=
    fun entry hentry => (sorting.perm _).mem_iff.1 (mem_of_mem_take hentry)
  have hlength : (core.picked residency sorting).length =
      min core.config.maximumBatchItems (core.ready residency).length := by
    rw [picked, length_take, (sorting.perm _).length_eq]
  have hgroups : (core.schedule (some residency) sorting).1.groups =
      (grouped (core.picked residency sorting)).entries.map fun group =>
        (⟨group.1.layer, group.1.expert, group.2⟩ : ExpertGroup) := rfl
  exact
    { ready := hready
      distinct := picked_spec.1
      count := hlength
      earliest := fun left hleft hout taken htaken => (picked_earliest hleft hout htaken).not_gt
      items := by
        rw [hgroups, flatMap_map]
        exact grouped_perm
      grouped := by
        intro group hgroup
        obtain ⟨entry, hentry, rfl⟩ := mem_map.1 hgroup
        exact grouped_spec entry hentry
      keys := by
        rw [hgroups, map_map]
        exact group_keys_nodup
      waiting := waiting_schedule
      failed := (countP_waiting (fun state => state = .failed) rfl).symm
      blocked := (countP_waiting
        (fun state => state = .ramReady || state = .absent) rfl).symm }

end Core

end QuantumLlm.Runtime.Scheduler
