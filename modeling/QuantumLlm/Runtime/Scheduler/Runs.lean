import QuantumLlm.Runtime.Scheduler.State

/-!
# Continuous batch scheduler: runs

What each operation does to the tables, the invariant that ties them to the
history of a run, and the isolation of requests from each other.
-/

namespace QuantumLlm.Runtime.Scheduler

open List

inductive Event where
  | handedOut (id : Nat)
  | completed (id : Nat)
  deriving DecidableEq

/-- A scheduler with what it has handed out and been told is complete. -/
structure Run where
  core : Core
  history : List Event := []

inductive Call where
  | admitRequest (request : RequestId)
  | enqueue (token : TokenWork)
  | schedule (residency : Option ResidencyQuery) (sorting : Sorting)
  | complete (work : List Nat)
  | retireToken (request : RequestId) (sequence : UInt64)
  | cancel (request : RequestId)
  | finish (request : RequestId)

def SchedulerBatch.workIds (batch : SchedulerBatch) : List Nat :=
  batch.groups.flatMap fun group => group.items.map (·.work)

namespace Run

def step (run : Run) : Call → Option Run
  | .admitRequest request => some { run with core := (run.core.admitRequest request).2 }
  | .enqueue token => some { run with core := (run.core.enqueue token).2 }
  | .schedule residency sorting =>
    let (batch, core) := run.core.schedule residency sorting
    some ⟨core, run.history ++ (SchedulerBatch.workIds batch).map .handedOut⟩
  | .complete work =>
    let (status, core) := run.core.complete work
    some ⟨core, run.history ++ if status.ok then work.map .completed else []⟩
  | .retireToken request sequence =>
    some { run with core := (run.core.retireToken request sequence).getD run.core }
  | .cancel request => some { run with core := run.core.cancel request }
  | .finish request => some { run with core := run.core.finish request }

def handedIds (run : Run) : List Nat :=
  run.history.filterMap fun event =>
    match event with
    | .handedOut id => some id
    | .completed _ => none

end Run

/-- Nothing is completed before it is handed out. -/
def InOrder (history : List Event) : Prop :=
  ∀ before id after, history = before ++ .completed id :: after → .handedOut id ∈ before

theorem InOrder.append {history new : List Event} (h : InOrder history)
    (hnew : ∀ id, .completed id ∈ new → .handedOut id ∈ history) : InOrder (history ++ new) := by
  intro before id after hsplit
  rcases append_eq_append_iff.1 hsplit with ⟨middle, rfl, hrest⟩ | ⟨middle, rfl, hrest⟩
  · exact mem_append_left _ (hnew id (hrest ▸ mem_append_right _ mem_cons_self))
  · cases middle with
    | nil =>
      rw [nil_append] at hrest
      simp only [append_nil] at hnew ⊢
      exact hnew id (hrest ▸ mem_cons_self)
    | cons event rest =>
      obtain ⟨rfl, -⟩ := List.cons.inj hrest
      exact h before id rest rfl

/-- The item of a work id of a token of `key`. -/
def Core.Owned (core : Core) (key : TokenKey) (id : Nat) : Prop :=
  ∃ item, core.items.find? id = some item ∧ item.value.work = id ∧
    item.value.request = key.request ∧ item.value.sequence = key.sequence

/-- Item flags tell what happened to the item. -/
structure Item.Tracked (history : List Event) (id : Nat) (item : Item) : Prop where
  handed : .handedOut id ∈ history ↔ item.inFlight ∨ item.complete
  completed : .completed id ∈ history ↔ item.complete
  apart : ¬ (item.inFlight ∧ item.complete)

structure Core.Counted (core : Core) : Prop where
  active : core.metrics.activeRequests = core.requests.length
  queued : core.metrics.queuedTokens = core.tokens.size
  pending : core.metrics.pendingItems = core.items.size

structure Run.Sound (run : Run) : Prop where
  requests : run.core.requests.Nodup
  /-- The item table is the disjoint union of the work lists. -/
  works : (run.core.tokens.entries.flatMap (·.2.work)).Perm run.core.items.keys
  admitted : ∀ key token, run.core.tokens.find? key = some token →
    token.key = key ∧ key.request ∈ run.core.requests
  owned : ∀ key token, run.core.tokens.find? key = some token →
    ∀ id ∈ token.work, run.core.Owned key id
  fresh : ∀ id ∈ run.core.items.keys, id < run.core.nextWork
  past : ∀ id, .handedOut id ∈ run.history → id < run.core.nextWork
  tracked : ∀ id item, run.core.items.find? id = some item → item.Tracked run.history id
  once : run.handedIds.Nodup
  order : InOrder run.history
  counted : run.core.Counted

variable {run : Run} {core : Core} {key : TokenKey} {token : Token} {id : Nat} {item : Item}

theorem Run.Sound.token_of_item (h : run.Sound) (hitem : run.core.items.find? id = some item) :
    ∃ key token, run.core.tokens.find? key = some token ∧ id ∈ token.work ∧
      item.value.work = id ∧ item.value.request = key.request ∧
      item.value.sequence = key.sequence := by
  have hmem : id ∈ run.core.tokens.entries.flatMap (·.2.work) :=
    h.works.mem_iff.2 (OrderedMap.mem_keys_iff.2 ⟨item, hitem⟩)
  obtain ⟨⟨key, token⟩, hentry, hid⟩ := mem_flatMap.1 hmem
  have htoken := OrderedMap.find?_eq_some_iff.2 hentry
  obtain ⟨other, hother, hwork, hrequest, hsequence⟩ := h.owned key token htoken id hid
  rw [hitem] at hother
  cases hother
  exact ⟨key, token, htoken, hid, hwork, hrequest, hsequence⟩

theorem Run.Sound.key_of_item (h : run.Sound) (htoken : run.core.tokens.find? key = some token)
    (hid : id ∈ token.work) (hitem : run.core.items.find? id = some item) :
    key = ⟨item.value.request, item.value.sequence⟩ := by
  obtain ⟨other, hother, -, hrequest, hsequence⟩ := h.owned key token htoken id hid
  rw [hitem] at hother
  cases hother
  rw [hrequest, hsequence]

/-- The items a token adds to a table. -/
structure Added (token : TokenWork) (next : Nat) (experts : List RoutedExpert)
    (items items' : OrderedMap Nat Item) : Prop where
  keys : items'.keys.Perm (List.range' next experts.length ++ items.keys)
  old : ∀ id, id < next → items'.find? id = items.find? id
  new : List.Forall₂ (fun id route => ∃ item, items'.find? id = some item ∧
    item.value = ⟨id, token.request, token.sequence, token.row, token.layer, route.expert,
      route.routingWeight⟩ ∧ item.inFlight = false ∧ item.complete = false)
    (List.range' next experts.length) experts

theorem foldl_addItem {token : TokenWork} {arrival : Nat} {experts : List RoutedExpert}
    {items : OrderedMap Nat Item} {next : Nat} {work : List Nat}
    (hfresh : ∀ id ∈ items.keys, id < next) :
    let added := experts.foldl (Core.addItem token arrival) (items, next, work)
    Added token next experts items added.1 ∧ added.2.1 = next + experts.length ∧
      added.2.2 = work ++ List.range' next experts.length := by
  induction experts generalizing items next work with
  | nil => exact ⟨⟨List.Perm.refl _, fun _ _ => rfl, List.Forall₂.nil⟩, rfl, by simp⟩
  | cons route rest ih =>
    have hnone : items.find? next = none := by
      by_contra hsome
      obtain ⟨item, hitem⟩ := Option.ne_none_iff_exists'.1 hsome
      have hlt := hfresh next (OrderedMap.mem_keys_iff.2 ⟨item, hitem⟩)
      omega
    simp only [foldl_cons, Core.addItem]
    generalize hitem : ({ value := ⟨next, token.request, token.sequence, token.row, token.layer,
      route.expert, route.routingWeight⟩, deadline := token.deadlineTick, arrival } : Item) = item
    have hperm := @OrderedMap.keys_emplace_perm _ _ _ items next item hnone
    have hfresh' : ∀ id ∈ (items.emplace next item).keys, id < next + 1 := by
      intro id hid
      rcases mem_cons.1 (hperm.mem_iff.1 hid) with rfl | hold
      · exact Nat.lt_succ_self _
      · exact Nat.lt_succ_of_lt (hfresh id hold)
    obtain ⟨⟨hkeys, hold, hnew⟩, hnext, hwork⟩ := @ih _ (next + 1) (work ++ [next]) hfresh'
    refine ⟨⟨?_, fun id hid => ?_, List.Forall₂.cons ⟨item, ?_, ?_⟩ hnew⟩, ?_, ?_⟩
    · rw [length_cons, range'_succ, cons_append]
      exact (hkeys.trans (hperm.append_left _)).trans perm_middle
    · rw [hold id (by omega), OrderedMap.find?_emplace_ne (by omega)]
    · rw [hold next (by omega), OrderedMap.find?_emplace_self hnone]
    · rw [← hitem]
      exact ⟨rfl, rfl, rfl⟩
    · rw [hnext, length_cons]
      omega
    · rw [hwork, length_cons, range'_succ, append_assoc, singleton_append]

theorem exists_of_forall₂ {α β : Type} {rel : α → β → Prop} {left : List α} {right : List β}
    (h : List.Forall₂ rel left right) {item : α} (hitem : item ∈ left) :
    ∃ other ∈ right, rel item other := by
  induction h with
  | nil => cases hitem
  | cons hhead _ ih =>
    rcases mem_cons.1 hitem with rfl | hrest
    · exact ⟨_, mem_cons_self, hhead⟩
    · obtain ⟨other, hother, hrel⟩ := ih hrest
      exact ⟨other, mem_cons_of_mem _ hother, hrel⟩

/-- What an accepted token changes. -/
structure Core.Enqueued (token : TokenWork) (core core' : Core) : Prop where
  admitted : token.request ∈ core.requests
  missing : core.tokens.find? ⟨token.request, token.sequence⟩ = none
  added : Added token core.nextWork token.experts core.items core'.items
  tokens : core'.tokens = core.tokens.emplace ⟨token.request, token.sequence⟩
    ⟨⟨token.request, token.sequence⟩, core.clock + 1,
      List.range' core.nextWork token.experts.length⟩
  requests : core'.requests = core.requests
  nextWork : core'.nextWork = core.nextWork + token.experts.length
  active : core'.metrics.activeRequests = core.metrics.activeRequests
  queued : core'.metrics.queuedTokens = core'.tokens.size
  pending : core'.metrics.pendingItems = core'.items.size

theorem Core.enqueue_cases {token : TokenWork} (hfresh : ∀ id ∈ core.items.keys, id < core.nextWork) :
    (core.enqueue token).1.ok = false ∧ (core.enqueue token).2 = core ∨
      (core.enqueue token).1.ok = true ∧ core.Enqueued token (core.enqueue token).2 := by
  unfold Core.enqueue
  split
  next => exact Or.inl ⟨rfl, rfl⟩
  next hknown =>
    split
    next => exact Or.inl ⟨rfl, rfl⟩
    next =>
      simp only
      split
      next => exact Or.inl ⟨rfl, rfl⟩
      next hnew =>
        have hmissing : core.tokens.find? ⟨token.request, token.sequence⟩ = none := by
          simpa [OrderedMap.contains] using hnew
        obtain ⟨hadded, hnext, hwork⟩ := @foldl_addItem token (core.clock + 1) token.experts
          core.items core.nextWork [] hfresh
        have hadmitted : token.request ∈ core.requests := by
          by_contra hunknown
          exact hknown (Or.inl hunknown)
        refine Or.inr ⟨rfl, hadmitted, hmissing, hadded, ?_, rfl, hnext, rfl, rfl, rfl⟩
        rw [hwork, nil_append]

variable {core' : Core} {ids work : List Nat} {gone : TokenKey → Bool} {request : RequestId}
  {sequence : UInt64}

theorem Run.Sound.enqueued {token : TokenWork} (h : run.Sound)
    (henqueued : run.core.Enqueued token core') : Run.Sound { run with core := core' } := by
  obtain ⟨hadmitted, hmissing, ⟨hkeys, hold, hnew⟩, htokens, hrequests, hnext, hactive, hqueued,
    hpending⟩ := henqueued
  have hperm := @OrderedMap.emplace_perm _ _ _ _ _ ⟨⟨token.request, token.sequence⟩,
    run.core.clock + 1, List.range' run.core.nextWork token.experts.length⟩ hmissing
  rw [← htokens] at hperm
  have hcases : ∀ {key found}, core'.tokens.find? key = some found →
      key = ⟨token.request, token.sequence⟩ ∧ found = ⟨⟨token.request, token.sequence⟩,
        run.core.clock + 1, List.range' run.core.nextWork token.experts.length⟩ ∨
      run.core.tokens.find? key = some found := by
    intro key found hfound
    rw [OrderedMap.find?_eq_some_iff] at hfound ⊢
    rcases mem_cons.1 (hperm.mem_iff.1 hfound) with heq | hmem
    · exact Or.inl ⟨congrArg Prod.fst heq, congrArg Prod.snd heq⟩
    · exact Or.inr hmem
  have hitems : ∀ {id item}, core'.items.find? id = some item →
      id < run.core.nextWork ∧ run.core.items.find? id = some item ∨
        run.core.nextWork ≤ id ∧ item.inFlight = false ∧ item.complete = false := by
    intro id item hitem
    by_cases hlt : id < run.core.nextWork
    · exact Or.inl ⟨hlt, hold id hlt ▸ hitem⟩
    · have hmem : id ∈ List.range' run.core.nextWork token.experts.length := by
        rcases mem_append.1 (hkeys.mem_iff.1 (OrderedMap.mem_keys_iff.2 ⟨item, hitem⟩)) with
          hrange | hkey
        · exact hrange
        · exact absurd (h.fresh id hkey) hlt
      obtain ⟨route, -, other, hother, -, hflags⟩ := exists_of_forall₂ hnew hmem
      rw [hitem] at hother
      cases hother
      exact Or.inr ⟨Nat.le_of_not_lt hlt, hflags⟩
  refine ⟨by rw [hrequests]; exact h.requests, ?_, fun key found hfound => ?_,
    fun key found hfound id hid => ?_, fun id hid => ?_, fun id hid => ?_,
    fun id item hitem => ?_, h.once, h.order, ⟨?_, hqueued, hpending⟩⟩
  · refine (hperm.flatMap_right _).trans ?_
    exact (h.works.append_left _).trans hkeys.symm
  · rcases hcases hfound with ⟨rfl, rfl⟩ | hprevious
    · exact ⟨rfl, by rw [hrequests]; exact hadmitted⟩
    · rw [hrequests]
      exact h.admitted key found hprevious
  · rcases hcases hfound with ⟨rfl, rfl⟩ | hprevious
    · obtain ⟨route, -, item, hitem, hvalue, -⟩ := exists_of_forall₂ hnew hid
      exact ⟨item, hitem, by rw [hvalue], by rw [hvalue], by rw [hvalue]⟩
    · obtain ⟨item, hitem, hvalues⟩ := h.owned key found hprevious id hid
      have hlt := h.fresh id (OrderedMap.mem_keys_iff.2 ⟨item, hitem⟩)
      exact ⟨item, (hold id hlt).trans hitem, hvalues⟩
  · rw [hnext]
    rcases mem_append.1 (hkeys.mem_iff.1 hid) with hrange | hkey
    · have hlast := mem_range'_1.1 hrange
      omega
    · have hlt := h.fresh id hkey
      omega
  · rw [hnext]
    have hlt := h.past id hid
    omega
  · rcases hitems hitem with ⟨-, hprevious⟩ | ⟨hge, hidle, hopen⟩
    · exact h.tracked id item hprevious
    · have hunseen : .handedOut id ∉ run.history := fun hseen => by
        have hlt := h.past id hseen
        omega
      have hundone : .completed id ∉ run.history := fun hdone => by
        obtain ⟨before, after, hsplit⟩ := append_of_mem hdone
        exact hunseen (hsplit ▸ mem_append_left _ (h.order before id after hsplit))
      constructor <;> simp [hunseen, hundone, hidle, hopen]
  · rw [hactive, hrequests]
    exact h.counted.active

/-- What handing out `ids` changes. -/
structure Core.Handed (ids : List Nat) (core core' : Core) : Prop where
  nodup : ids.Nodup
  waiting : ∀ id ∈ ids, ∃ item, core.items.find? id = some item ∧
    item.inFlight = false ∧ item.complete = false
  items : ∀ id, core'.items.find? id =
    if id ∈ ids then (core.items.find? id).map Item.launched else core.items.find? id
  keys : core'.items.keys = core.items.keys
  tokens : core'.tokens = core.tokens
  requests : core'.requests = core.requests
  nextWork : core'.nextWork = core.nextWork
  active : core'.metrics.activeRequests = core.metrics.activeRequests
  queued : core'.metrics.queuedTokens = core.metrics.queuedTokens
  pending : core'.metrics.pendingItems = core.metrics.pendingItems

theorem Core.grouped_perm {picked : List (Nat × Item)}
    {start : OrderedMap GroupKey (List ScheduledItem)} :
    ((picked.foldl (fun grouped entry =>
        grouped.push ⟨entry.2.value.layer, entry.2.value.expert⟩ entry.2.value)
        start).entries.flatMap Prod.snd).Perm
      (start.entries.flatMap Prod.snd ++ picked.map (·.2.value)) := by
  induction picked generalizing start with
  | nil => simp
  | cons entry rest ih =>
    refine ih.trans ((OrderedMap.flatMap_push_perm.append_right _).trans ?_)
    exact perm_middle.symm

theorem Core.picked_spec {residency : ResidencyQuery} {sorting : Sorting} :
    ((core.picked residency sorting).map Prod.fst).Nodup ∧
      ∀ entry ∈ core.picked residency sorting,
        core.items.find? entry.1 = some entry.2 ∧
          entry.2.inFlight = false ∧ entry.2.complete = false := by
  have hperm := sorting.perm (core.ready residency)
  have hready : (core.ready residency).Sublist core.items.entries :=
    (filter_sublist).trans filter_sublist
  constructor
  · have hnodup : ((sorting.sort (core.ready residency)).map Prod.fst).Nodup :=
      (hperm.map Prod.fst).nodup_iff.2 (core.items.nodup_keys.sublist (hready.map Prod.fst))
    exact hnodup.sublist ((take_sublist _ _).map Prod.fst)
  · intro entry hentry
    have hmem : entry ∈ core.ready residency := hperm.mem_iff.1 (mem_of_mem_take hentry)
    have hwaiting := (mem_filter.1 (mem_of_mem_filter hmem)).2
    simp only [Bool.and_eq_true, Bool.not_eq_true'] at hwaiting
    exact ⟨OrderedMap.find?_eq_some_iff.2 (hready.mem hmem), hwaiting.2, hwaiting.1⟩

theorem Core.schedule_handed {residency : ResidencyQuery} {sorting : Sorting} :
    core.Handed ((core.picked residency sorting).map Prod.fst)
      (core.schedule (some residency) sorting).2 := by
  obtain ⟨hnodup, hpicked⟩ := @Core.picked_spec core residency sorting
  have hfold : (core.schedule (some residency) sorting).2.items =
      ((core.picked residency sorting).map Prod.fst).foldl
        (fun items id => items.modify id Item.launched) core.items := by
    rw [foldl_map]
    rfl
  refine ⟨hnodup, fun id hid => ?_, fun id => ?_, ?_, rfl, rfl, rfl, rfl, rfl, rfl⟩
  · obtain ⟨entry, hentry, rfl⟩ := mem_map.1 hid
    exact ⟨entry.2, hpicked entry hentry⟩
  · rw [hfold]
    exact OrderedMap.find?_foldl_modify hnodup
  · rw [hfold]
    exact OrderedMap.keys_foldl_modify

theorem Core.workIds_perm {residency : ResidencyQuery} {sorting : Sorting}
    (hworks : ∀ id item, core.items.find? id = some item → item.value.work = id) :
    (SchedulerBatch.workIds (core.schedule (some residency) sorting).1).Perm
      ((core.picked residency sorting).map Prod.fst) := by
  have hgroups := (@Core.grouped_perm (core.picked residency sorting) OrderedMap.empty).map
    ScheduledItem.work
  have hids : (core.picked residency sorting).map (fun entry => entry.2.value.work) =
      (core.picked residency sorting).map Prod.fst :=
    map_congr_left fun entry hentry =>
      hworks entry.1 entry.2 (Core.picked_spec.2 entry hentry).1
  rw [map_append, map_map, map_flatMap] at hgroups
  simp only [SchedulerBatch.workIds, Core.schedule, flatMap_map]
  rw [← hids]
  exact hgroups

theorem Run.Sound.work_eq (h : run.Sound) (hitem : run.core.items.find? id = some item) :
    item.value.work = id := by
  obtain ⟨_, _, _, _, hwork, _⟩ := h.token_of_item hitem
  exact hwork

theorem Run.handedIds_append :
    Run.handedIds ⟨core', run.history ++ ids.map .handedOut⟩ = run.handedIds ++ ids := by
  simp only [Run.handedIds, filterMap_append, filterMap_map]
  congr 1
  exact filterMap_some

theorem Run.mem_handedIds : id ∈ run.handedIds ↔ .handedOut id ∈ run.history := by
  simp only [Run.handedIds, mem_filterMap]
  constructor
  · rintro ⟨event, hevent, hid⟩
    cases event with
    | handedOut other =>
      cases hid
      exact hevent
    | completed other => cases hid
  · exact fun hevent => ⟨_, hevent, rfl⟩

theorem Run.Sound.handed {log : List Nat} (h : run.Sound)
    (hhanded : run.core.Handed ids core') (hlog : log.Perm ids) :
    Run.Sound ⟨core', run.history ++ log.map .handedOut⟩ := by
  obtain ⟨hnodup, hwaiting, hitems, hkeys, htokens, hrequests, hnext, hactive, hqueued, hpending⟩ :=
    hhanded
  have hvalue : ∀ {id item}, core'.items.find? id = some item →
      ∃ old, run.core.items.find? id = some old ∧
        item = if id ∈ ids then old.launched else old := by
    intro id item hitem
    rw [hitems] at hitem
    split at hitem
    next hid =>
      obtain ⟨old, hold, rfl⟩ := Option.map_eq_some_iff.1 hitem
      exact ⟨old, hold, (if_pos hid).symm⟩
    next hid => exact ⟨item, hitem, (if_neg hid).symm⟩
  have hmem : ∀ id, .handedOut id ∈ run.history ++ log.map .handedOut ↔
      .handedOut id ∈ run.history ∨ id ∈ ids := by
    simp [hlog.mem_iff]
  have hcompleted : ∀ id, .completed id ∈ run.history ++ log.map .handedOut ↔
      .completed id ∈ run.history := by
    simp
  refine ⟨by rw [hrequests]; exact h.requests, by rw [htokens, hkeys]; exact h.works,
    fun key token htoken => ?_, fun key token htoken id hid => ?_, fun id hid => ?_,
    fun id hid => ?_, fun id item hitem => ?_, ?_, h.order.append fun id hid => ?_, ⟨?_, ?_, ?_⟩⟩
  · rw [htokens] at htoken
    rw [hrequests]
    exact h.admitted key token htoken
  · rw [htokens] at htoken
    obtain ⟨old, hold, hvalues⟩ := h.owned key token htoken id hid
    by_cases hin : id ∈ ids
    · exact ⟨old.launched, by rw [hitems, if_pos hin, hold]; rfl, hvalues⟩
    · exact ⟨old, by rw [hitems, if_neg hin, hold], hvalues⟩
  · rw [hkeys] at hid
    rw [hnext]
    exact h.fresh id hid
  · rw [hnext]
    rcases (hmem id).1 hid with hpast | hin
    · exact h.past id hpast
    · obtain ⟨item, hitem, -⟩ := hwaiting id hin
      exact h.fresh id (OrderedMap.mem_keys_iff.2 ⟨item, hitem⟩)
  · obtain ⟨old, hold, rfl⟩ := hvalue hitem
    obtain ⟨hwas, hdone, hapart⟩ := h.tracked id old hold
    by_cases hin : id ∈ ids
    · obtain ⟨item, hfound, hidle, hopen⟩ := hwaiting id hin
      rw [hold] at hfound
      cases hfound
      rw [if_pos hin]
      exact ⟨by simp [hmem, hin, Item.launched], by rw [hcompleted, hdone]; rfl,
        by simp [Item.launched, hopen]⟩
    · rw [if_neg hin]
      exact ⟨by rw [hmem, hwas]; simp [hin], by rw [hcompleted, hdone], hapart⟩
  · rw [Run.handedIds_append]
    refine nodup_append.2 ⟨h.once, hlog.nodup_iff.2 hnodup, ?_⟩
    rintro id hpast other hother rfl
    obtain ⟨item, hitem, hidle, hopen⟩ := hwaiting id (hlog.mem_iff.1 hother)
    have hflags := (h.tracked id item hitem).handed.1 (Run.mem_handedIds.1 hpast)
    simp [hidle, hopen] at hflags
  · simp at hid
  · rw [hactive, hrequests]
    exact h.counted.active
  · rw [hqueued, htokens]
    exact h.counted.queued
  · rw [hpending, OrderedMap.size_eq_length_keys, hkeys, ← OrderedMap.size_eq_length_keys]
    exact h.counted.pending

def Core.InFlight (core : Core) (id : Nat) : Prop :=
  ∃ item, core.items.find? id = some item ∧ item.inFlight = true ∧ item.complete = false

theorem Core.completionError_none_iff {unique work : List Nat} :
    core.completionError unique work = none ↔
      work.Nodup ∧ (∀ id ∈ work, id ∉ unique) ∧ ∀ id ∈ work, core.InFlight id := by
  induction work generalizing unique with
  | nil => simp [Core.completionError]
  | cons id rest ih =>
    simp only [Core.completionError]
    by_cases hseen : id ∈ unique
    · simp [hseen]
    · rw [if_neg hseen]
      cases hitem : core.items.find? id with
      | none => simp [Core.InFlight, hitem]
      | some item =>
        by_cases hflight : item.inFlight = true ∧ item.complete = false
        · have hready : core.InFlight id := ⟨item, hitem, hflight⟩
          simp only [hflight.1, hflight.2, Bool.not_true, Bool.or_false, Bool.false_eq_true,
            if_false, ih, nodup_cons, mem_cons, not_or, forall_eq_or_imp]
          constructor
          · rintro ⟨hnodup, hapart, hall⟩
            exact ⟨⟨fun hmem => (hapart id hmem).1 rfl, hnodup⟩,
              ⟨hseen, fun other hother => (hapart other hother).2⟩, hready, hall⟩
          · rintro ⟨⟨hnew, hnodup⟩, ⟨-, hapart⟩, -, hall⟩
            exact ⟨hnodup, fun other hother =>
              ⟨fun heq => hnew (heq ▸ hother), hapart other hother⟩, hall⟩
        · have hidle : (!item.inFlight || item.complete) = true := by
            cases hf : item.inFlight <;> cases hc : item.complete <;> simp_all
          have hnot : ¬ core.InFlight id := by
            rintro ⟨other, hother, hflags⟩
            rw [hitem] at hother
            cases hother
            exact hflight hflags
          simp [hidle, hnot]

theorem Core.completionError_code {unique : List Nat} {status : Status}
    (h : core.completionError unique work = some status) : status.ok = false := by
  induction work generalizing unique with
  | nil => cases h
  | cons id rest ih =>
    simp only [Core.completionError] at h
    split at h
    next =>
      cases h
      rfl
    next =>
      split at h
      next =>
        cases h
        rfl
      next =>
        split at h
        next =>
          cases h
          rfl
        next => exact ih h

theorem Core.complete_cases (work : List Nat) :
    (core.complete work).1.ok = false ∧ (core.complete work).2 = core ∧
        ¬ (work.Nodup ∧ ∀ id ∈ work, core.InFlight id) ∨
      (core.complete work).1.ok = true ∧ work.Nodup ∧ (∀ id ∈ work, core.InFlight id) ∧
        (core.complete work).2 = { core with
          items := work.foldl (fun items id => items.modify id Item.completed) core.items } := by
  have hiff := @Core.completionError_none_iff core [] work
  unfold Core.complete
  cases herror : core.completionError [] work with
  | none =>
    obtain ⟨hnodup, -, hall⟩ := hiff.1 herror
    exact Or.inr ⟨rfl, hnodup, hall, rfl⟩
  | some status =>
    refine Or.inl ⟨?_, rfl, fun hvalid => ?_⟩
    · exact Core.completionError_code herror
    · rw [hiff.2 ⟨hvalid.1, fun _ _ => not_mem_nil, hvalid.2⟩] at herror
      cases herror

theorem Run.Sound.completed (h : run.Sound) (hnodup : work.Nodup)
    (hflight : ∀ id ∈ work, run.core.InFlight id) :
    Run.Sound ⟨{ run.core with
        items := work.foldl (fun items id => items.modify id Item.completed) run.core.items },
      run.history ++ work.map .completed⟩ := by
  have hkeys : (work.foldl (fun items id => items.modify id Item.completed) run.core.items).keys =
      run.core.items.keys := OrderedMap.keys_foldl_modify
  have hitems : ∀ id, (work.foldl (fun items id => items.modify id Item.completed)
      run.core.items).find? id = if id ∈ work then (run.core.items.find? id).map Item.completed
        else run.core.items.find? id := fun id => OrderedMap.find?_foldl_modify hnodup
  generalize work.foldl (fun items id => items.modify id Item.completed) run.core.items = items
    at hkeys hitems ⊢
  have hhanded : ∀ id, .handedOut id ∈ run.history ++ work.map .completed ↔
      .handedOut id ∈ run.history := by
    simp
  have hmem : ∀ id, .completed id ∈ run.history ++ work.map .completed ↔
      .completed id ∈ run.history ∨ id ∈ work := by
    simp
  have hseen : ∀ id ∈ work, .handedOut id ∈ run.history := by
    intro id hid
    obtain ⟨item, hitem, hflight, -⟩ := hflight id hid
    exact (h.tracked id item hitem).handed.2 (Or.inl hflight)
  refine ⟨h.requests, by rw [hkeys]; exact h.works, h.admitted,
    fun key token htoken id hid => ?_, fun id hid => ?_, fun id hid => ?_,
    fun id item hitem => ?_, ?_, h.order.append fun id hid => ?_,
    ⟨h.counted.active, h.counted.queued, ?_⟩⟩
  · obtain ⟨old, hold, hvalues⟩ := h.owned key token htoken id hid
    by_cases hin : id ∈ work
    · exact ⟨old.completed, by rw [hitems, if_pos hin, hold]; rfl, hvalues⟩
    · exact ⟨old, by rw [hitems, if_neg hin, hold], hvalues⟩
  · rw [hkeys] at hid
    exact h.fresh id hid
  · exact h.past id ((hhanded id).1 hid)
  · rw [hitems] at hitem
    split at hitem
    next hin =>
      obtain ⟨old, hold, rfl⟩ := Option.map_eq_some_iff.1 hitem
      exact ⟨by simp [hhanded, hseen id hin, Item.completed], by simp [hmem, hin, Item.completed],
        by simp [Item.completed]⟩
    next hin =>
      obtain ⟨hwas, hdone, hapart⟩ := h.tracked id item hitem
      exact ⟨by rw [hhanded, hwas], by rw [hmem, hdone]; simp [hin], hapart⟩
  · have hsame : Run.handedIds ⟨{ run.core with items }, run.history ++ work.map .completed⟩ =
        run.handedIds := by
      simp [Run.handedIds, filterMap_append, filterMap_map]
    rw [hsame]
    exact h.once
  · rcases (hmem id).1 (mem_append_right _ hid) with hpast | hin
    · obtain ⟨before, after, hsplit⟩ := append_of_mem hpast
      exact hsplit ▸ mem_append_left _ (h.order before id after hsplit)
    · exact hseen id hin
  · show run.core.metrics.pendingItems = items.size
    rw [OrderedMap.size_eq_length_keys, hkeys, ← OrderedMap.size_eq_length_keys]
    exact h.counted.pending

/-- The work of the tokens that meet a test. -/
def Core.workWhere (core : Core) (gone : TokenKey → Bool) : List Nat :=
  (core.tokens.entries.filter fun entry => gone entry.1).flatMap (·.2.work)

/-- What removing the tokens that meet a test changes. -/
structure Core.Removed (gone : TokenKey → Bool) (core core' : Core) : Prop where
  tokens : core'.tokens = core.tokens.filterKeys fun key => !gone key
  items : core'.items = core.items.filterKeys (· ∉ core.workWhere gone)
  requests : core'.requests.Sublist core.requests
  admitted : ∀ key ∈ core'.tokens.keys, key.request ∈ core.requests →
    key.request ∈ core'.requests
  nextWork : core'.nextWork = core.nextWork
  active : core'.metrics.activeRequests = core'.requests.length
  queued : core'.metrics.queuedTokens = core'.tokens.size
  pending : core'.metrics.pendingItems = core'.items.size

theorem filter_perm_of_split {all gone rest : List Nat} (hnodup : all.Nodup)
    (hsplit : (gone ++ rest).Perm all) : (all.filter (· ∉ gone)).Perm rest := by
  have hparts := hsplit.nodup_iff.2 hnodup
  have hrest : (gone ++ rest).filter (· ∉ gone) = rest := by
    rw [filter_append, filter_eq_nil_iff.2 (by simp), nil_append, filter_eq_self]
    intro id hid
    have hapart := (nodup_append.1 hparts).2.2
    simpa using fun hgone => hapart id hgone id hid rfl
  rw [← hrest]
  exact (hsplit.filter _).symm

theorem Core.mem_workWhere : id ∈ core.workWhere gone ↔
    ∃ key token, core.tokens.find? key = some token ∧ gone key ∧ id ∈ token.work := by
  simp only [Core.workWhere, mem_flatMap, mem_filter]
  constructor
  · rintro ⟨⟨key, token⟩, ⟨hentry, hgone⟩, hid⟩
    exact ⟨key, token, OrderedMap.find?_eq_some_iff.2 hentry, hgone, hid⟩
  · rintro ⟨key, token, htoken, hgone, hid⟩
    exact ⟨(key, token), ⟨OrderedMap.find?_eq_some_iff.1 htoken, hgone⟩, hid⟩

theorem Run.Sound.not_mem_workWhere (h : run.Sound) (hitem : run.core.items.find? id = some item)
    (hstays : gone ⟨item.value.request, item.value.sequence⟩ = false) :
    id ∉ run.core.workWhere gone := by
  intro hid
  obtain ⟨key, token, htoken, hgone, hmem⟩ := Core.mem_workWhere.1 hid
  have hkey := h.key_of_item htoken hmem hitem
  rw [← hkey, hgone] at hstays
  cases hstays

theorem Run.Sound.removed (h : run.Sound)
    (hremoved : run.core.Removed gone core') : Run.Sound { run with core := core' } := by
  obtain ⟨htokens, hitems, hrequests, hadmitted, hnext, hactive, hqueued, hpending⟩ := hremoved
  have htoken' : ∀ {key token}, core'.tokens.find? key = some token →
      gone key = false ∧ run.core.tokens.find? key = some token := by
    intro key token htoken
    rw [htokens, OrderedMap.find?_filterKeys] at htoken
    split at htoken
    next hstays => exact ⟨by simpa using hstays, htoken⟩
    next => cases htoken
  have hitem' : ∀ {id item}, core'.items.find? id = some item →
      run.core.items.find? id = some item := by
    intro id item hitem
    rw [hitems, OrderedMap.find?_filterKeys] at hitem
    split at hitem
    next => exact hitem
    next => cases hitem
  refine ⟨h.requests.sublist hrequests, ?_, fun key token htoken => ?_,
    fun key token htoken id hid => ?_, fun id hid => ?_, fun id hid => ?_,
    fun id item hitem => h.tracked id item (hitem' hitem), h.once, h.order,
    ⟨hactive, hqueued, hpending⟩⟩
  · rw [hitems, OrderedMap.keys_filterKeys]
    refine (filter_perm_of_split run.core.items.nodup_keys ?_).symm
    refine List.Perm.trans ?_ h.works
    rw [Core.workWhere, htokens, ← flatMap_append]
    exact (filter_append_perm _ _).flatMap_right _
  · obtain ⟨-, hold⟩ := htoken' htoken
    obtain ⟨hkey, hrequest⟩ := h.admitted key token hold
    exact ⟨hkey, hadmitted key (OrderedMap.mem_keys_iff.2 ⟨token, htoken⟩) hrequest⟩
  · obtain ⟨hstays, hold⟩ := htoken' htoken
    obtain ⟨item, hitem, hvalues⟩ := h.owned key token hold id hid
    refine ⟨item, ?_, hvalues⟩
    have hkey := h.key_of_item hold hid hitem
    have hnot := h.not_mem_workWhere hitem (hkey ▸ hstays)
    rw [hitems, OrderedMap.find?_filterKeys, if_pos (by simpa using hnot), hitem]
  · obtain ⟨item, hitem⟩ := OrderedMap.mem_keys_iff.1 hid
    rw [hnext]
    exact h.fresh id (OrderedMap.mem_keys_iff.2 ⟨item, hitem' hitem⟩)
  · rw [hnext]
    exact h.past id hid

theorem Core.retireToken_removed
    (hcounted : core.Counted) (h : core.retireToken request sequence = some core') :
    core.tokenComplete request sequence = some true ∧
      core.Removed (· = ⟨request, sequence⟩) core' := by
  unfold Core.retireToken at h
  split at h
  next => cases h
  next token htoken =>
    split at h
    next hcomplete =>
      cases h
      refine ⟨hcomplete, ?_, ?_, List.Sublist.refl _, fun _ _ hrequest => hrequest, rfl,
        hcounted.active, rfl, rfl⟩
      · simp only [OrderedMap.erase, ne_eq, decide_not]
      · have hwork : core.workWhere (fun key => decide (key = ⟨request, sequence⟩)) =
            token.work := by
          obtain ⟨before, after, hsplit, hbefore, hafter⟩ := OrderedMap.find?_split htoken
          have hnone : ∀ part : List (TokenKey × Token),
              (∀ entry ∈ part, entry.1 ≠ ⟨request, sequence⟩) →
              part.filter (fun entry => decide (entry.1 = ⟨request, sequence⟩)) = [] := by
            intro part hpart
            rw [filter_eq_nil_iff]
            intro entry hentry
            simpa using hpart entry hentry
          simp only [Core.workWhere, hsplit, filter_append, hnone before hbefore,
            filter_cons_of_pos, hnone after hafter, decide_true]
          simp
        rw [OrderedMap.foldl_erase, hwork]
    next => cases h

theorem Core.cancel_removed (hrequest : request ∈ core.requests) :
    core.Removed (·.request = request) (core.cancel request) := by
  unfold Core.cancel
  rw [if_neg (by simpa using hrequest)]
  refine ⟨?_, ?_, filter_sublist, fun key hkey hadmitted => ?_, rfl, rfl, rfl, rfl⟩
  · simp only [ne_eq, decide_not]
  · rw [OrderedMap.foldl_erase]
    rfl
  · obtain ⟨token, htoken⟩ := OrderedMap.mem_keys_iff.1 hkey
    rw [OrderedMap.find?_filterKeys] at htoken
    split at htoken
    next hstays => exact mem_filter.2 ⟨hadmitted, by simpa using hstays⟩
    next => cases htoken

theorem Run.Sound.finished {request : RequestId} (h : run.Sound) :
    Run.Sound { run with core := run.core.finish request } := by
  refine ⟨?_, h.works, fun key token htoken => ?_, h.owned, h.fresh, h.past, h.tracked, h.once,
    h.order, ⟨rfl, h.counted.queued, h.counted.pending⟩⟩
  · show (if _ then _ else _ : List RequestId).Nodup
    split
    next => exact h.requests.filter _
    next => exact h.requests
  · obtain ⟨hkey, hrequest⟩ := h.admitted key token htoken
    refine ⟨hkey, ?_⟩
    show key.request ∈ (if _ then _ else _ : List RequestId)
    split
    next hnone =>
      refine mem_filter.2 ⟨hrequest, ?_⟩
      simp only [Bool.not_eq_true', any_eq_false, decide_eq_true_eq] at hnone
      simpa using hnone (key, token) (OrderedMap.find?_eq_some_iff.1 htoken)
    next => exact hrequest

theorem Run.Sound.admittedRequest (h : run.Sound) :
    Run.Sound { run with core := (run.core.admitRequest request).2 } := by
  unfold Core.admitRequest
  split
  next => exact h
  next =>
    split
    next => exact h
    next hnew =>
      split
      next => exact { h with counted := ⟨h.counted.active, h.counted.queued, h.counted.pending⟩ }
      next =>
        refine ⟨?_, h.works, fun key token htoken => ?_, h.owned, h.fresh, h.past, h.tracked,
          h.once, h.order, ⟨rfl, h.counted.queued, h.counted.pending⟩⟩
        · refine nodup_append.2 ⟨h.requests, nodup_singleton _, ?_⟩
          rintro other hother _ hsingle rfl
          exact hnew (mem_singleton.1 hsingle ▸ hother)
        · obtain ⟨hkey, hrequest⟩ := h.admitted key token htoken
          exact ⟨hkey, mem_append_left _ hrequest⟩

theorem Run.Sound.step {run' : Run} {call : Call} (h : run.Sound)
    (hstep : run.step call = some run') : run'.Sound := by
  cases call with
  | admitRequest request =>
    cases hstep
    exact h.admittedRequest
  | enqueue token =>
    cases hstep
    rcases @Core.enqueue_cases run.core token h.fresh with ⟨-, hsame⟩ | ⟨-, henqueued⟩
    · rw [hsame]
      exact h
    · exact h.enqueued henqueued
  | schedule residency sorting =>
    cases hstep
    cases residency with
    | none =>
      have hnone : Run.Sound ⟨run.core, run.history ++ []⟩ := by
        rw [append_nil]
        exact h
      exact hnone
    | some residency => exact h.handed Core.schedule_handed (Core.workIds_perm fun _ _ => h.work_eq)
  | complete work =>
    cases hstep
    show Run.Sound ⟨(run.core.complete work).2, run.history ++
      if (run.core.complete work).1.ok then work.map .completed else []⟩
    rcases run.core.complete_cases work with ⟨hfailed, hsame, -⟩ | ⟨hok, hnodup, hflight, hmarked⟩
    · have hnone : Run.Sound ⟨run.core, run.history ++ []⟩ := by
        rw [append_nil]
        exact h
      rw [hfailed, hsame]
      exact hnone
    · rw [hok, hmarked]
      exact h.completed hnodup hflight
  | retireToken request sequence =>
    cases hstep
    cases hretire : run.core.retireToken request sequence with
    | none => exact h
    | some core' => exact h.removed (Core.retireToken_removed h.counted hretire).2
  | cancel request =>
    cases hstep
    by_cases hrequest : request ∈ run.core.requests
    · exact h.removed (Core.cancel_removed hrequest)
    · have hsame : run.core.cancel request = run.core := if_pos hrequest
      rw [hsame]
      exact h
  | finish request =>
    cases hstep
    exact h.finished

theorem create_sound {config : SchedulerConfig} (hcreate : create config = some core) :
    Run.Sound ⟨core, []⟩ := by
  unfold create at hcreate
  split at hcreate
  next => cases hcreate
  next =>
    cases hcreate
    refine ⟨nodup_nil, List.Perm.refl _, ?_, ?_, ?_, ?_, ?_, nodup_nil, ?_, ⟨rfl, rfl, rfl⟩⟩
    · exact nofun
    · exact nofun
    · exact nofun
    · exact nofun
    · exact nofun
    · intro before id after hsplit
      cases before <;> cases hsplit

/-- The calls on one request. -/
def Call.On (request : RequestId) (core : Core) : Call → Prop
  | .admitRequest other | .cancel other | .finish other | .retireToken other _ => other = request
  | .enqueue token => token.request = request
  | .complete work => ∀ id ∈ work, ∀ item, core.items.find? id = some item →
      item.value.request = request
  | .schedule _ _ => False

/-- Every other request keeps its tokens and its items. -/
structure Core.Isolated (request : RequestId) (core core' : Core) : Prop where
  requests : ∀ other, other ≠ request → (other ∈ core'.requests ↔ other ∈ core.requests)
  tokens : ∀ key, key.request ≠ request → core'.tokens.find? key = core.tokens.find? key
  items : ∀ id item, item.value.request ≠ request →
    (core'.items.find? id = some item ↔ core.items.find? id = some item)

theorem Core.Isolated.refl {request : RequestId} : core.Isolated request core :=
  ⟨fun _ _ => Iff.rfl, fun _ _ => rfl, fun _ _ _ => Iff.rfl⟩

theorem Run.Sound.enqueued_isolated {token : TokenWork} (h : run.Sound)
    (henqueued : run.core.Enqueued token core') : run.core.Isolated token.request core' := by
  obtain ⟨-, -, ⟨hkeys, hold, hnew⟩, htokens, hrequests, -⟩ := henqueued
  refine ⟨fun other _ => by rw [hrequests], fun key hne => ?_, fun id item hne => ?_⟩
  · rw [htokens, OrderedMap.find?_emplace_ne fun heq => hne (by rw [heq])]
  · by_cases hlt : id < run.core.nextWork
    · rw [hold id hlt]
    · constructor
      · intro hitem
        have hmem : id ∈ List.range' run.core.nextWork token.experts.length := by
          rcases mem_append.1 (hkeys.mem_iff.1 (OrderedMap.mem_keys_iff.2 ⟨item, hitem⟩))
            with hrange | hkey
          · exact hrange
          · exact absurd (h.fresh id hkey) hlt
        obtain ⟨route, -, other, hother, hvalue, -⟩ := exists_of_forall₂ hnew hmem
        rw [hitem] at hother
        cases hother
        rw [hvalue] at hne
        exact absurd rfl hne
      · intro hitem
        exact absurd (h.fresh id (OrderedMap.mem_keys_iff.2 ⟨item, hitem⟩)) hlt

theorem Run.Sound.removed_isolated (h : run.Sound) (hremoved : run.core.Removed gone core')
    (hgone : ∀ key, gone key → key.request = request) (hrequests : ∀ other, other ≠ request →
      (other ∈ core'.requests ↔ other ∈ run.core.requests)) :
    run.core.Isolated request core' := by
  refine ⟨hrequests, fun key hne => ?_, fun id item hne => ?_⟩
  · have hstays : gone key = false := by
      by_contra hset
      exact hne (hgone key (by simpa using hset))
    rw [hremoved.tokens, OrderedMap.find?_filterKeys, hstays]
    rfl
  · rw [hremoved.items, OrderedMap.find?_filterKeys]
    constructor
    · intro hitem
      split at hitem
      next => exact hitem
      next => cases hitem
    · intro hitem
      have hstays : gone ⟨item.value.request, item.value.sequence⟩ = false := by
        by_contra hset
        exact hne (hgone _ (by simpa using hset))
      rw [if_pos (by simpa using h.not_mem_workWhere hitem hstays)]
      exact hitem

theorem Run.Sound.completed_isolated (hnodup : work.Nodup)
    (hon : ∀ id ∈ work, ∀ item, run.core.items.find? id = some item →
      item.value.request = request) :
    run.core.Isolated request { run.core with
      items := work.foldl (fun items id => items.modify id Item.completed) run.core.items } := by
  refine ⟨fun _ _ => Iff.rfl, fun _ _ => rfl, fun id item hne => ?_⟩
  simp only [OrderedMap.find?_foldl_modify hnodup]
  split
  next hid =>
    constructor
    · intro hitem
      obtain ⟨old, hold, rfl⟩ := Option.map_eq_some_iff.1 hitem
      exact absurd (hon id hid old hold) hne
    · intro hitem
      exact absurd (hon id hid item hitem) hne
  next => exact Iff.rfl

theorem mem_filter_ne {other : RequestId} {requests : List RequestId}
    (hne : other ≠ request) : other ∈ requests.filter (· ≠ request) ↔ other ∈ requests := by
  simp [hne]

theorem Run.Sound.isolated {run' : Run} {call : Call} {request : RequestId} (h : run.Sound)
    (hon : call.On request run.core) (hstep : run.step call = some run') :
    run.core.Isolated request run'.core := by
  cases call with
  | admitRequest other =>
    cases hstep
    have hother : other = request := hon
    subst hother
    simp only [Core.admitRequest]
    split
    next => exact .refl
    next =>
      split
      next => exact .refl
      next =>
        split
        next => exact ⟨fun _ _ => Iff.rfl, fun _ _ => rfl, fun _ _ _ => Iff.rfl⟩
        next =>
          refine ⟨fun another hne => ?_, fun _ _ => rfl, fun _ _ _ => Iff.rfl⟩
          simp [hne]
  | enqueue token =>
    cases hstep
    have htoken : token.request = request := hon
    subst htoken
    rcases @Core.enqueue_cases run.core token h.fresh with ⟨-, hsame⟩ | ⟨-, henqueued⟩
    · rw [hsame]
      exact .refl
    · exact h.enqueued_isolated henqueued
  | schedule residency sorting => exact hon.elim
  | complete work =>
    cases hstep
    show run.core.Isolated request (run.core.complete work).2
    rcases run.core.complete_cases work with ⟨-, hsame, -⟩ | ⟨-, hnodup, -, hmarked⟩
    · rw [hsame]
      exact .refl
    · rw [hmarked]
      exact Run.Sound.completed_isolated hnodup hon
  | retireToken other sequence =>
    cases hstep
    have hother : other = request := hon
    cases hretire : run.core.retireToken other sequence with
    | none => exact .refl
    | some core' =>
      have hremoved := (Core.retireToken_removed h.counted hretire).2
      have hsame : core'.requests = run.core.requests := by
        unfold Core.retireToken at hretire
        split at hretire
        next => cases hretire
        next =>
          split at hretire
          next =>
            cases hretire
            rfl
          next => cases hretire
      exact h.removed_isolated hremoved (fun key hkey => by simp_all) fun _ _ => by
        rw [Option.getD_some, hsame]
  | cancel other =>
    cases hstep
    have hother : other = request := hon
    subst hother
    by_cases hrequest : other ∈ run.core.requests
    · refine h.removed_isolated (Core.cancel_removed hrequest) (fun key hkey => by simpa using hkey)
        fun another hne => ?_
      unfold Core.cancel
      rw [if_neg (by simpa using hrequest)]
      exact mem_filter_ne hne
    · have hsame : run.core.cancel other = run.core := if_pos hrequest
      rw [hsame]
      exact .refl
  | finish other =>
    cases hstep
    have hother : other = request := hon
    subst hother
    refine ⟨fun another hne => ?_, fun _ _ => rfl, fun _ _ _ => Iff.rfl⟩
    show another ∈ (if _ then _ else _ : List RequestId) ↔ _
    split
    next => exact mem_filter_ne hne
    next => exact Iff.rfl

theorem Core.allComplete_spec (hfound : ∀ id ∈ work, ∃ item, core.items.find? id = some item) :
    ∃ done, Core.allComplete core.items work = some done ∧
      (done = true ↔ ∀ id ∈ work, ∃ item, core.items.find? id = some item ∧ item.complete) := by
  induction work with
  | nil => exact ⟨true, rfl, by simp⟩
  | cons id rest ih =>
    obtain ⟨item, hitem⟩ := hfound id mem_cons_self
    obtain ⟨done, hdone, hiff⟩ := ih fun other hother => hfound other (mem_cons_of_mem _ hother)
    simp only [Core.allComplete, hitem, mem_cons, forall_eq_or_imp]
    by_cases hcomplete : item.complete
    · exact ⟨done, by simp [hcomplete, hdone], by simp [hiff, hcomplete]⟩
    · exact ⟨false, by simp [hcomplete], by simp [hcomplete]⟩

theorem Run.Sound.tokenComplete (h : run.Sound) (request : RequestId) (sequence : UInt64) :
    ∃ done, run.core.tokenComplete request sequence = some done ∧
      (done = true ↔ ∃ token, run.core.tokens.find? ⟨request, sequence⟩ = some token ∧
        ∀ id ∈ token.work, .completed id ∈ run.history) := by
  unfold Core.tokenComplete
  cases htoken : run.core.tokens.find? ⟨request, sequence⟩ with
  | none => exact ⟨false, rfl, by simp⟩
  | some token =>
    have hfound : ∀ id ∈ token.work, ∃ item, run.core.items.find? id = some item := by
      intro id hid
      obtain ⟨item, hitem, -⟩ := h.owned _ token htoken id hid
      exact ⟨item, hitem⟩
    obtain ⟨done, hdone, hiff⟩ := Core.allComplete_spec hfound
    refine ⟨done, hdone, hiff.trans ?_⟩
    simp only [Option.some.injEq, exists_eq_left']
    refine forall₂_congr fun id hid => ?_
    obtain ⟨item, hitem⟩ := hfound id hid
    rw [(h.tracked id item hitem).completed]
    constructor
    · rintro ⟨other, hother, hcomplete⟩
      rw [hitem] at hother
      cases hother
      exact hcomplete
    · exact fun hcomplete => ⟨item, hitem, hcomplete⟩

theorem Run.Sound.inFlight_cancel (h : run.Sound)
    (hflight : ∃ item, run.core.items.find? id = some item ∧ item.inFlight = true ∧
      item.complete = false ∧ item.value.request ≠ request) :
    (run.core.cancel request).InFlight id := by
  obtain ⟨item, hitem, hset, hopen, hne⟩ := hflight
  have hisolated := @Run.Sound.isolated _ _ (.cancel request) request h rfl rfl
  exact ⟨item, (hisolated.items id item hne).2 hitem, hset, hopen⟩

/-- What holds of a scheduler after any sequence of calls. -/
structure Run.Guarantees (run : Run) : Prop where
  /-- The item table is the disjoint union of the work lists of the queued tokens. -/
  union : (run.core.tokens.entries.flatMap (·.2.work)).Perm run.core.items.keys ∧
    run.core.items.keys.Nodup
  admitted : ∀ key token, run.core.tokens.find? key = some token →
    token.key = key ∧ key.request ∈ run.core.requests
  /-- An accepted token gets one new work id for each routed expert. -/
  routed : ∀ token, (run.core.enqueue token).1.ok → ∃ work,
    (∃ arrival, (run.core.enqueue token).2.tokens.find? ⟨token.request, token.sequence⟩ =
      some ⟨⟨token.request, token.sequence⟩, arrival, work⟩) ∧
    (∀ id ∈ work, .handedOut id ∉ run.history) ∧
    List.Forall₂ (fun id route => ∃ item, (run.core.enqueue token).2.items.find? id = some item ∧
      item.value = ⟨id, token.request, token.sequence, token.row, token.layer, route.expert,
        route.routingWeight⟩) work token.experts
  /-- No work id is handed out twice. -/
  once : run.handedIds.Nodup
  /-- A token is complete exactly when its items were handed out and then completed. -/
  complete_iff : InOrder run.history ∧ ∀ request sequence, ∃ done,
    run.core.tokenComplete request sequence = some done ∧
      (done = true ↔ ∃ token, run.core.tokens.find? ⟨request, sequence⟩ = some token ∧
        ∀ id ∈ token.work, .completed id ∈ run.history)
  /-- A completion marks all its ids or changes nothing. -/
  atomic : ∀ work, (run.core.complete work).1.ok = false ∧ (run.core.complete work).2 = run.core ∨
    (run.core.complete work).1.ok = true ∧ ∀ id, (run.core.complete work).2.items.find? id =
      if id ∈ work then (run.core.items.find? id).map Item.completed
      else run.core.items.find? id
  counted : run.core.Counted
  isolated : ∀ request call run', call.On request run.core → run.step call = some run' →
    run.core.Isolated request run'.core
  /-- Everything a batch hands out is in flight. -/
  inFlight : ∀ residency sorting,
    ∀ id ∈ SchedulerBatch.workIds (run.core.schedule residency sorting).1,
      (run.core.schedule residency sorting).2.InFlight id
  /-- After a cancellation the items in flight of other requests complete as before. -/
  completes : ∀ request work, work.Nodup →
    (∀ id ∈ work, ∃ item, run.core.items.find? id = some item ∧ item.inFlight = true ∧
      item.complete = false ∧ item.value.request ≠ request) →
    ((run.core.cancel request).complete work).1.ok = true
  /-- And so do their tokens retire. -/
  retires : ∀ request work key token, key.request ≠ request →
    run.core.tokens.find? key = some token →
    ((run.core.cancel request).complete work).1.ok = true →
    (∀ id ∈ token.work, id ∈ work ∨ .completed id ∈ run.history) →
    (((run.core.cancel request).complete work).2.retireToken key.request key.sequence).isSome

theorem Core.retireToken_isSome (htoken : core.tokens.find? ⟨request, sequence⟩ = some token)
    (hcomplete : core.tokenComplete request sequence = some true) :
    (core.retireToken request sequence).isSome := by
  simp [Core.retireToken, htoken, hcomplete]

/-- A stable sort, as one of the orders a sort may leave equal items in. -/
def insertionSorting : Sorting where
  sort := List.insertionSort fun left right => left.2.sortKey ≤ right.2.sortKey
  perm := List.perm_insertionSort _
  sorted := fun items => List.pairwise_insertionSort _ items

/-- Two requests share a batch; the first is cancelled, the second completes. -/
def sharedBatch : List Call :=
  [.admitRequest 1, .admitRequest 2, .enqueue { request := 1, sequence := 7, experts := [⟨3, 0⟩] },
    .enqueue { request := 2, sequence := 8, experts := [⟨3, 0⟩] },
    .schedule (some fun _ _ _ => .vramReady) insertionSorting, .cancel 1, .complete [2]]

end QuantumLlm.Runtime.Scheduler
