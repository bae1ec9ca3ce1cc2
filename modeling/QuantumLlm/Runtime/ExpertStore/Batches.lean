import QuantumLlm.Lib.Run
import QuantumLlm.Runtime.ExpertStore.Placement

/-!
# Runs of a batch

A batch from its start on: futures complete in any order, the handle is polled
and cancelled in between. A store whose polls and cancels keep the discipline
below resolves all of a batch or nothing.
-/

namespace QuantumLlm.Runtime.ExpertStore

open LocalResolveState PlacementResolveState List

structure BatchState (σ : Type) where
  world : World
  handle : ResolveHandle σ
  /-- What the polls have returned. -/
  results : List ExpertResolveResult := []
  deriving DecidableEq

inductive BatchAction where
  | complete (member : Nat) (completion : Completion)
  | poll
  | cancel
  deriving DecidableEq

variable {σ : Type} [Resolving σ]

namespace BatchState

def step (batch : BatchState σ) : BatchAction → Option (BatchState σ)
  | .complete member completion =>
    if member < batch.world.members.length ∧ batch.world.completion (some member) = none then
      some { batch with world := batch.world.complete member completion }
    else none
  | .poll =>
    let polled := batch.handle.poll batch.world
    some
      { world := polled.1
        handle := polled.2.1
        results := batch.results ++ polled.2.2.toList }
  | .cancel =>
    let cancelled := batch.handle.cancel batch.world
    some { batch with world := cancelled.1, handle := cancelled.2 }

/-- A batch right after its store has resolved it. -/
def started (world : World) (state : σ) : BatchState σ := { world, handle := { state } }

/-- The steps on which a poll of an open handle meets a condition. -/
def clean (condition : World → σ → Bool) (batch : BatchState σ) (action : BatchAction) : Bool :=
  action ≠ .poll || batch.handle.terminal || condition batch.world batch.handle.state

end BatchState

/-! ## All or nothing -/

/-- At most one result, a success complete and in order, and nothing left open otherwise. -/
structure AllOrNothing (target : ExpertResolveRequest → ExpertResolveTarget)
    (requests : List ExpertResolveRequest) (batch : BatchState σ) : Prop where
  once : batch.results.length ≤ 1
  served : ∀ result ∈ batch.results, result.status.ok = true → List.Forall₂ (fun request expert =>
    Serves batch.world request.key (target request) expert) requests result.experts
  /-- After a failure or a cancellation. -/
  settled : (∃ result ∈ batch.results, result.status.ok = false) ∨
    batch.handle.terminal = true ∧ batch.results = [] → batch.world.Settled

/-- How the polls and cancels of a store behave. -/
structure Discipline (sound : World → σ → Prop) (served : World → List ResolvedExpert → Prop)
    (condition : World → σ → Bool) : Prop where
  poll : ∀ world state, sound world state → condition world state = true →
    Polled sound served world (Resolving.poll world state)
  cancel : ∀ world state, sound world state →
    world.Extends (Resolving.cancel world state).1 ∧ (Resolving.cancel world state).1.Settled
  sound_extends : ∀ world world' state, sound world state → world.Extends world' →
    sound world' state
  served_extends : ∀ world world' experts, served world experts → world.Extends world' →
    served world' experts

/-- What holds of a batch between two actions. -/
inductive BatchSound (sound : World → σ → Prop) (served : World → List ResolvedExpert → Prop)
    (batch : BatchState σ) : Prop
  | opened : batch.handle.terminal = false → batch.results = [] →
      sound batch.world batch.handle.state → BatchSound sound served batch
  | cancelled : batch.handle.terminal = true → batch.results = [] → batch.world.Settled →
      BatchSound sound served batch
  | failed (status : Status) : batch.handle.terminal = true → batch.results = [{ status }] →
      status.ok = false → batch.world.Settled → BatchSound sound served batch
  | succeeded (experts : List ResolvedExpert) : batch.handle.terminal = true →
      batch.results = [{ status := Status.success, experts }] → served batch.world experts →
      BatchSound sound served batch

variable {sound : World → σ → Prop} {served : World → List ResolvedExpert → Prop}
  {condition : World → σ → Bool} {batch batch' : BatchState σ} {action : BatchAction}

theorem BatchSound.completed (h : BatchSound sound served batch)
    (hdiscipline : Discipline sound served condition) (hextends : batch.world.Extends world) :
    BatchSound sound served { batch with world } := by
  cases h with
  | opened hopen hnone hsound =>
    exact .opened hopen hnone (hdiscipline.sound_extends _ _ _ hsound hextends)
  | cancelled hterminal hnone hsettled =>
    exact .cancelled hterminal hnone (hextends.settled hsettled)
  | failed status hterminal hresults hbad hsettled =>
    exact .failed status hterminal hresults hbad (hextends.settled hsettled)
  | succeeded experts hterminal hresults hserved =>
    exact .succeeded experts hterminal hresults
      (hdiscipline.served_extends _ _ _ hserved hextends)

theorem step_terminal (hterminal : batch.handle.terminal = true) :
    batch.step .poll = some batch ∧ batch.step .cancel = some batch := by
  constructor
  · simp [BatchState.step, ResolveHandle.poll, hterminal]
  · simp [BatchState.step, ResolveHandle.cancel, hterminal]

theorem BatchSound.polled (h : BatchSound sound served batch)
    (hdiscipline : Discipline sound served condition)
    (hclean : batch.clean condition .poll = true) (hstep : batch.step .poll = some batch') :
    BatchSound sound served batch' := by
  by_cases hterminal : batch.handle.terminal = true
  · rw [(step_terminal hterminal).1, Option.some.injEq] at hstep
    rwa [← hstep]
  cases h with
  | opened hopen hnone hsound =>
    have hcondition : condition batch.world batch.handle.state = true := by
      simpa [BatchState.clean, hopen] using hclean
    have hpolled := hdiscipline.poll _ _ hsound hcondition
    simp only [BatchState.step, ResolveHandle.poll, hopen, Bool.false_eq_true, if_false,
      Option.some.injEq] at hstep
    generalize Resolving.poll batch.world batch.handle.state = outcome at hpolled hstep
    subst hstep
    cases hpolled with
    | pending hextends hstate => exact .opened rfl (by simp [hnone]) hstate
    | failed hextends hbad hsettled => exact .failed _ rfl (by simp [hnone]) hbad hsettled
    | succeeded hextends hexperts => exact .succeeded _ rfl (by simp [hnone]) hexperts
  | cancelled hdone => exact absurd hdone hterminal
  | failed _ hdone => exact absurd hdone hterminal
  | succeeded _ hdone => exact absurd hdone hterminal

theorem BatchSound.step (h : BatchSound sound served batch)
    (hdiscipline : Discipline sound served condition)
    (hclean : batch.clean condition action = true) (hstep : batch.step action = some batch') :
    BatchSound sound served batch' := by
  cases action with
  | complete member completion =>
    rw [BatchState.step] at hstep
    split at hstep
    next hpending =>
      cases hstep
      refine h.completed hdiscipline (extends_complete ?_)
      intro found hfound
      rw [← completion_some hfound]
      exact hpending.2
    next => cases hstep
  | poll => exact h.polled hdiscipline hclean hstep
  | cancel =>
    by_cases hterminal : batch.handle.terminal = true
    · rw [(step_terminal hterminal).2, Option.some.injEq] at hstep
      rwa [← hstep]
    cases h with
    | opened hopen hnone hsound =>
      obtain ⟨-, hsettled⟩ := hdiscipline.cancel _ _ hsound
      simp only [BatchState.step, ResolveHandle.cancel, hopen, Bool.false_eq_true, if_false,
        Option.some.injEq] at hstep
      subst hstep
      exact .cancelled rfl hnone hsettled
    | cancelled hdone => exact absurd hdone hterminal
    | failed _ hdone => exact absurd hdone hterminal
    | succeeded _ hdone => exact absurd hdone hterminal

theorem reaches_allOrNothing {state : σ}
    {target : ExpertResolveRequest → ExpertResolveTarget} {requests : List ExpertResolveRequest}
    (hdiscipline : Discipline sound served condition)
    (hserved : ∀ world experts, served world experts → List.Forall₂ (fun request expert =>
      Serves world request.key (target request) expert) requests experts)
    (hstart : sound world state)
    (hreach : Reaches BatchState.step (fun batch action => batch.clean condition action = true)
      (BatchState.started world state) batch) : AllOrNothing target requests batch := by
  have hbatch : BatchSound sound served batch :=
    hreach.invariant (.opened rfl rfl hstart) fun _ hsound hclean hstep =>
      hsound.step hdiscipline hclean hstep
  cases hbatch with
  | opened hopen hnone hsound => exact ⟨by simp [hnone], by simp [hnone], by simp [hopen, hnone]⟩
  | cancelled hterminal hnone hsettled =>
    exact ⟨by simp [hnone], by simp [hnone], fun _ => hsettled⟩
  | failed status hterminal hresults hbad hsettled =>
    exact ⟨by simp [hresults], by simp [hresults, hbad], fun _ => hsettled⟩
  | succeeded experts hterminal hresults hexperts =>
    refine ⟨by simp [hresults], ?_, by simp [hresults]⟩
    intro result hresult _
    obtain rfl : result = { status := Status.success, experts } := by simpa [hresults] using hresult
    exact hserved _ _ hexperts

theorem local_discipline (requests : List ExpertResolveRequest) :
    Discipline (fun world => LocalSound world requests)
      (fun world experts => world.Completed ∧ Served world requests experts) pollsCleanly where
  poll _ _ hsound hclean := hsound.poll hclean
  cancel _ _ hsound := hsound.cancel
  sound_extends _ _ _ hsound hextends := hsound.extends hextends
  served_extends _ _ _ hserved hextends :=
    ⟨hextends.completed hserved.1, hserved.2.later hextends.toLater⟩

theorem placement_discipline (all localRequests remoteRequests : List ExpertResolveRequest) :
    Discipline (fun world => PlacementSound world all localRequests remoteRequests)
      (fun world => Served world all) placementPollsCleanly where
  poll _ _ hsound hclean := hsound.poll hclean
  cancel _ _ hsound := hsound.cancel
  sound_extends _ _ _ hsound hextends := hsound.extends hextends
  served_extends _ _ _ hserved hextends := hserved.later hextends.toLater

/-! ## The starts of both stores -/

variable {world : World} {requests : List (ExpertResolveRequest × StartAnswer)}

theorem startItems_some (hlocal : ∀ entry ∈ requests, entry.1.target ≠ .remote) :
    ∃ items, (LocalExpertStore.startItems world requests).2 = some items := by
  induction requests generalizing world with
  | nil => exact ⟨[], rfl⟩
  | cons entry rest ih =>
    obtain ⟨items, hitems⟩ := @ih (LocalExpertStore.startItem world entry.1 entry.2).1
      fun other hother => hlocal other (mem_cons_of_mem _ hother)
    refine ⟨(LocalExpertStore.startItem world entry.1 entry.2).2 :: items, ?_⟩
    rw [LocalExpertStore.startItems, if_neg (hlocal entry mem_cons_self)]
    simp only [hitems, Option.map_some]

theorem localResolve_some {state : LocalResolveState}
    (h : LocalExpertStore.resolve {} requests = (world, some state)) :
    LocalSound world (requests.map (·.1)) state := by
  rw [LocalExpertStore.resolve] at h
  split at h
  next => cases h
  next hvalid =>
    rw [not_or] at hvalid
    split at h
    next => cases h
    next found items hitems =>
      cases h
      obtain ⟨hsound, hcovered, hmatching⟩ := @LocalExpertStore.startItems_spec
        _ _ _ [] _ (by simp) (fun index member hmember => by simp at hmember) hitems
      refine ⟨rfl, ?_, hsound, hmatching, hcovered⟩
      intro hnil
      have hlength := hmatching.length_eq
      rw [show items = [] from hnil] at hlength
      exact hvalid.1 (by simpa using hlength)

theorem localResolve_none (h : LocalExpertStore.resolve {} requests = (world, none)) :
    world.Settled ↔ ¬ (requests.map (·.1.key)).Nodup ∨
      LocalExpertStore.leavesNothing requests = true := by
  rw [LocalExpertStore.resolve] at h
  split at h
  next hinvalid =>
    cases h
    refine ⟨fun _ => ?_, fun _ index member hmember => by simp at hmember⟩
    rcases hinvalid with rfl | hdup
    · exact .inr rfl
    · exact .inl hdup
  next hvalid =>
    rw [not_or, not_not] at hvalid
    split at h
    next found hitems =>
      cases h
      have hmembers := @LocalExpertStore.startItems_members {} requests
      rw [hitems, nil_append] at hmembers
      rw [LocalExpertStore.settled_abandon_iff hmembers]
      simp [hvalid.2]
    next => cases h

theorem forwarded_key (remote : RemoteExpertStore) (request : ExpertResolveRequest) :
    (PlacementExpertStore.forwarded remote request).key = request.key := by
  rw [PlacementExpertStore.forwarded]
  split
  next => rfl
  next => split <;> rfl

variable {remote : RemoteExpertStore} {request : ExpertResolveRequest}
  {wanted : List ExpertResolveRequest}

theorem forwarded_local (h : PlacementExpertStore.useRemote remote request = false) :
    (PlacementExpertStore.forwarded remote request).target ≠ .remote := by
  rw [PlacementExpertStore.forwarded, h]
  simp only [Bool.false_eq_true, if_false]
  split
  next => simp
  next =>
    intro hremote
    simp [PlacementExpertStore.useRemote, hremote] at h

theorem forwarded_remote (h : PlacementExpertStore.useRemote remote request = true) :
    (PlacementExpertStore.forwarded remote request).target = .remote := by
  rw [PlacementExpertStore.forwarded, if_pos h]

theorem lease_serves {expert : ResolvedExpert} (htarget : request.target = .remote)
    (h : remote.lease request = some expert) :
    Serves world request.key (localTarget request.target) expert := by
  rw [RemoteExpertStore.lease] at h
  split at h
  next =>
    obtain ⟨executor, -, rfl⟩ := Option.map_eq_some_iff.1 h
    rw [htarget]
    exact .remote rfl
  next => cases h

theorem leases_served
    {experts : List ResolvedExpert} (htarget : ∀ request ∈ wanted, request.target = .remote)
    (h : remote.leases wanted = some experts) : Served world wanted experts := by
  induction wanted generalizing experts with
  | nil =>
    cases h
    exact .nil
  | cons request rest ih =>
    rw [RemoteExpertStore.leases] at h
    split at h
    next => cases h
    next expert hlease =>
      obtain ⟨others, hothers, rfl⟩ := Option.map_eq_some_iff.1 h
      exact .cons (lease_serves (htarget request mem_cons_self) hlease)
        (ih (fun other hother => htarget other (mem_cons_of_mem _ hother)) hothers)

theorem remoteResolve_some
    {state : ImmediateRemoteResolveState} (htarget : ∀ request ∈ wanted, request.target = .remote)
    (h : remote.resolve wanted = some state) : state.terminal = false ∧
      state.result.status = Status.success ∧ Served world wanted state.result.experts := by
  rw [RemoteExpertStore.resolve] at h
  split at h
  next => cases h
  next =>
    obtain ⟨experts, hexperts, rfl⟩ := Option.map_eq_some_iff.1 h
    exact ⟨rfl, rfl, leases_served htarget hexperts⟩

/-- The requests of the union batch, as its halves get them. -/
def forwardedRequests (remote : RemoteExpertStore)
    (requests : List (ExpertResolveRequest × StartAnswer)) : List ExpertResolveRequest :=
  requests.map fun entry => PlacementExpertStore.forwarded remote entry.1

theorem at_filter (remote : RemoteExpertStore)
    (keep : (ExpertResolveRequest × StartAnswer) × Nat → Bool) :
    At (forwardedRequests remote requests) ((requests.zipIdx.filter keep).map (·.2))
      ((requests.zipIdx.filter keep).map fun entry =>
        PlacementExpertStore.forwarded remote entry.1.1) := by
  rw [At, forall₂_map_left_iff, forall₂_map_right_iff, forall₂_same]
  intro entry hentry
  have hget := mem_zipIdx_iff_getElem?.1 (mem_of_mem_filter hentry)
  rw [forwardedRequests, getElem?_map, hget]
  rfl

theorem nodup_forwarded (keep : (ExpertResolveRequest × StartAnswer) × Nat → Bool)
    (h : (requests.map (·.1.key)).Nodup) :
    (((requests.zipIdx.filter keep).map fun entry =>
      (PlacementExpertStore.forwarded remote entry.1.1, entry.1.2)).map (·.1.key)).Nodup := by
  have hkeys : ((requests.zipIdx.filter keep).map fun entry =>
      (PlacementExpertStore.forwarded remote entry.1.1, entry.1.2)).map (·.1.key) =
        (requests.zipIdx.filter keep).map (·.1.1.key) := by
    rw [map_map]
    apply map_congr_left
    intro entry _
    exact forwarded_key remote entry.1.1
  have hall : requests.zipIdx.map (·.1.1.key) = requests.map (·.1.key) := by
    conv => rhs; rw [← zipIdx_map_fst 0 requests, map_map]
    rfl
  rw [hkeys]
  rw [← hall] at h
  exact h.sublist (filter_sublist.map _)

theorem localResolve_local (hsome : requests ≠ []) (hnodup : (requests.map (·.1.key)).Nodup)
    (hlocal : ∀ entry ∈ requests, entry.1.target ≠ .remote) :
    ∃ world state, LocalExpertStore.resolve {} requests = (world, some state) := by
  obtain ⟨items, hitems⟩ := @startItems_some {} _ hlocal
  rw [LocalExpertStore.resolve, if_neg (by simp [hsome, hnodup])]
  generalize LocalExpertStore.startItems {} requests = outcome at hitems ⊢
  obtain ⟨world, found⟩ := outcome
  cases hitems
  exact ⟨world, { items }, rfl⟩

/-- The requests of the local half, with the answers for them. -/
def localHalfRequests (remote : RemoteExpertStore)
    (requests : List (ExpertResolveRequest × StartAnswer)) :
    List (ExpertResolveRequest × StartAnswer) :=
  (requests.zipIdx.filter fun entry => !PlacementExpertStore.useRemote remote entry.1.1).map
    fun entry => (PlacementExpertStore.forwarded remote entry.1.1, entry.1.2)

theorem localHalf_started (remote : RemoteExpertStore)
    (hnodup : (requests.map (·.1.key)).Nodup) :
    localHalfRequests remote requests = [] ∨ ∃ world state,
      LocalExpertStore.resolve {} (localHalfRequests remote requests) = (world, some state) ∧
        LocalSound world ((localHalfRequests remote requests).map (·.1)) state := by
  by_cases hnone : localHalfRequests remote requests = []
  · exact .inl hnone
  refine .inr ?_
  obtain ⟨world, state, hresolve⟩ := localResolve_local hnone (nodup_forwarded _ hnodup) (by
    intro entry hentry
    obtain ⟨source, hsource, rfl⟩ := mem_map.1 hentry
    have hlocal := (mem_filter.1 hsource).2
    exact forwarded_local (by simpa using hlocal))
  exact ⟨world, state, hresolve, localResolve_some hresolve⟩

theorem settled_empty : ({} : World).Settled := fun index member hmember => by simp at hmember

theorem settled_of_completed (h : world.Completed) : world.Settled := by
  intro index member hmember
  exact .inl (h index member hmember)

theorem completed_empty : ({} : World).Completed := fun index member hmember => by simp at hmember

theorem placed_none (all : List ExpertResolveRequest) (world : World) :
    Placed world all (List.replicate all.length none) where
  length_eq := length_replicate
  serves position expert hexpert := by
    rw [getElem?_replicate] at hexpert
    split at hexpert <;> cases hexpert

theorem placementSound_started {localState : Option LocalResolveState}
    {remoteState : Option ImmediateRemoteResolveState}
    {locals remotes : List ((ExpertResolveRequest × StartAnswer) × Nat)}
    (hlocals : locals = requests.zipIdx.filter fun entry =>
      !PlacementExpertStore.useRemote remote entry.1.1)
    (hremotes : remotes = requests.zipIdx.filter fun entry =>
      PlacementExpertStore.useRemote remote entry.1.1)
    (hlocalState : locals = [] ∧ world.Completed ∧ localState = none ∨ ∃ state, locals ≠ [] ∧
      localState = some state ∧ LocalSound world
        (locals.map fun entry => PlacementExpertStore.forwarded remote entry.1.1) state)
    (hremoteState : remotes = [] ∧ remoteState = none ∨ ∃ state, remotes ≠ [] ∧
      remoteState = some state ∧ state.terminal = false ∧ state.result.status = Status.success ∧
        Served world (remotes.map fun entry => PlacementExpertStore.forwarded remote entry.1.1)
          state.result.experts) :
    PlacementSound world (forwardedRequests remote requests)
      (locals.map fun entry => PlacementExpertStore.forwarded remote entry.1.1)
      (remotes.map fun entry => PlacementExpertStore.forwarded remote entry.1.1)
      { expected := requests.map (·.1.key)
        resolved := List.replicate requests.length none
        localBatch :=
          { indices := locals.map (·.2)
            handle := localState.map ({ state := · })
            complete := locals = [] }
        remoteBatch :=
          { indices := remotes.map (·.2)
            handle := remoteState.map ({ state := · })
            complete := remotes = [] } } := by
  constructor
  case opened => rfl
  case expected =>
    simp only [forwardedRequests, map_map]
    apply map_congr_left
    intro entry _
    exact (forwarded_key remote entry.1).symm
  case placed =>
    have hlength : requests.length = (forwardedRequests remote requests).length := by
      rw [forwardedRequests, length_map]
    simp only [hlength]
    exact placed_none _ world
  case localAt =>
    subst hlocals
    exact at_filter remote _
  case remoteAt =>
    subst hremotes
    exact at_filter remote _
  case localHalf =>
    rcases hlocalState with ⟨hnone, -, rfl⟩ | ⟨state, hsome, rfl, hsound⟩
    · exact .complete (by simp [hnone]) (by simp) (by simp [Filled, hnone])
    · exact .running { state } (by simp [hsome]) rfl rfl hsound
  case localCompleted =>
    rcases hlocalState with ⟨-, hcompleted, -⟩ | ⟨state, hsome, -⟩
    · exact fun _ => hcompleted
    · exact fun hcomplete => absurd hcomplete (by simp [hsome])
  case remoteHalf =>
    rcases hremoteState with ⟨hnone, rfl⟩ | ⟨state, hsome, rfl, hopen, hok, hserved⟩
    · exact .complete (by simp [hnone]) (by simp) (by simp [Filled, hnone])
    · exact .running { state } (by simp [hsome]) rfl rfl ⟨hopen, hok, hserved⟩
  case divided =>
    intro position hposition
    rw [forwardedRequests, length_map] at hposition
    have hmem : (requests[position], position) ∈ requests.zipIdx :=
      mem_zipIdx_iff_getElem?.2 (getElem?_eq_getElem hposition)
    subst hlocals hremotes
    cases huse : PlacementExpertStore.useRemote remote (requests[position]).1 with
    | true => exact .inr (mem_map.2 ⟨_, mem_filter.2 ⟨hmem, by simpa using huse⟩, rfl⟩)
    | false => exact .inl (mem_map.2 ⟨_, mem_filter.2 ⟨hmem, by simpa using huse⟩, rfl⟩)

/-- What is started for the local half of a union batch. -/
def startedHalf (remote : RemoteExpertStore)
    (requests : List (ExpertResolveRequest × StartAnswer)) : World × Option LocalResolveState :=
  if localHalfRequests remote requests = [] then ({}, none)
  else LocalExpertStore.resolve {} (localHalfRequests remote requests)

theorem startedHalf_spec (remote : RemoteExpertStore) (hnodup : (requests.map (·.1.key)).Nodup) :
    localHalfRequests remote requests = [] ∧ startedHalf remote requests = ({}, none) ∨
      ∃ world state, localHalfRequests remote requests ≠ [] ∧
        startedHalf remote requests = (world, some state) ∧
          LocalSound world ((localHalfRequests remote requests).map (·.1)) state := by
  by_cases hnone : localHalfRequests remote requests = []
  · refine .inl ⟨hnone, ?_⟩
    rw [startedHalf, if_pos hnone]
  · obtain hnil | ⟨world, state, hresolve, hsound⟩ := localHalf_started remote hnodup
    · exact absurd hnil hnone
    · refine .inr ⟨world, state, hnone, ?_, hsound⟩
      rw [startedHalf, if_neg hnone, hresolve]

theorem placementResolve_spec (remote : RemoteExpertStore)
    (requests : List (ExpertResolveRequest × StartAnswer)) :
    (∃ world, PlacementExpertStore.resolve {} remote requests = (world, none) ∧ world.Settled) ∨
      ∃ world state localRequests remoteRequests,
        PlacementExpertStore.resolve {} remote requests = (world, some state) ∧
          PlacementSound world (forwardedRequests remote requests) localRequests remoteRequests
            state := by
  rw [PlacementExpertStore.resolve]
  split
  next => exact .inl ⟨{}, rfl, settled_empty⟩
  next hvalid =>
    rw [not_or, not_not] at hvalid
    split
    next => exact .inl ⟨{}, rfl, settled_empty⟩
    next =>
      have hhalf := startedHalf_spec remote hvalid.2
      rw [startedHalf, localHalfRequests] at hhalf
      simp only [map_eq_nil_iff, map_map, ne_eq] at hhalf ⊢
      generalize hlocals : (requests.zipIdx.filter fun entry =>
        !PlacementExpertStore.useRemote remote entry.1.1) = locals at hhalf ⊢
      generalize hremotes : (requests.zipIdx.filter fun entry =>
        PlacementExpertStore.useRemote remote entry.1.1) = remotes
      generalize (if locals = [] then (({}, none) : World × Option LocalResolveState)
        else LocalExpertStore.resolve {} _) = started at hhalf ⊢
      obtain ⟨world, localState⟩ := started
      have hlocalState : locals = [] ∧ world.Completed ∧ localState = none ∨ ∃ state,
          locals ≠ [] ∧ localState = some state ∧ LocalSound world
            (locals.map fun entry => PlacementExpertStore.forwarded remote entry.1.1) state := by
        rcases hhalf with ⟨hnone, hstarted⟩ | ⟨_, state, hsome, hstarted, hsound⟩
        · cases hstarted
          exact .inl ⟨hnone, completed_empty, rfl⟩
        · cases hstarted
          exact .inr ⟨state, hsome, rfl, hsound⟩
      have hstarted : ¬ (¬ locals = [] ∧ localState = none) := by
        rcases hlocalState with ⟨hnone, -, -⟩ | ⟨state, -, rfl, -⟩
        · simp [hnone]
        · simp
      rw [if_neg hstarted]
      by_cases hrest : remotes = []
      · refine .inr ⟨world, _, _, _, ?_, placementSound_started hlocals.symm hremotes.symm
          hlocalState (.inl ⟨hrest, rfl⟩)⟩
        simp [hrest]
      · simp only [if_neg hrest]
        cases hremote : remote.resolve (remotes.map fun entry =>
            PlacementExpertStore.forwarded remote entry.1.1) with
        | none =>
          refine .inl ⟨_, if_pos ⟨hrest, rfl⟩, ?_⟩
          rcases hlocalState with ⟨-, hcompleted, rfl⟩ | ⟨state, -, rfl, hsound⟩
          · exact settled_of_completed hcompleted
          · exact hsound.cancel.2
        | some state =>
          refine .inr ⟨world, _, _, _, if_neg (by simp), placementSound_started hlocals.symm
            hremotes.symm hlocalState (.inr ⟨state, hrest, rfl, remoteResolve_some ?_ hremote⟩)⟩
          intro request hrequest
          obtain ⟨entry, hentry, rfl⟩ := mem_map.1 hrequest
          rw [← hremotes] at hentry
          exact forwarded_remote (mem_filter.1 hentry).2

/-- A batch of either store returns at most one result, a success of it serves every
request in order, and a failure, a cancellation or an invalid handle leaves no acquisition
open: in every run in which no device failure overtakes an open host acquisition, and unless
the local store meets a remote target behind a device acquisition that is still open. -/
theorem resolves_all_or_nothing (remote : RemoteExpertStore)
    (requests : List (ExpertResolveRequest × StartAnswer)) :
    (∀ world, LocalExpertStore.resolve {} requests = (world, none) →
      (world.Settled ↔ ¬ (requests.map (·.1.key)).Nodup ∨
        LocalExpertStore.leavesNothing requests = true)) ∧
    (∀ world state, LocalExpertStore.resolve {} requests = (world, some state) →
      ∀ batch, Reaches BatchState.step
        (fun batch action => batch.clean pollsCleanly action = true)
        (BatchState.started world state) batch →
        AllOrNothing (fun request => localTarget request.target) (requests.map (·.1)) batch) ∧
    (∀ world, PlacementExpertStore.resolve {} remote requests = (world, none) →
      world.Settled) ∧
    ∀ world state, PlacementExpertStore.resolve {} remote requests = (world, some state) →
      ∀ batch, Reaches BatchState.step
        (fun batch action => batch.clean placementPollsCleanly action = true)
        (BatchState.started world state) batch →
        AllOrNothing (fun request => localTarget request.target)
          (forwardedRequests remote requests) batch := by
  refine ⟨fun _ => localResolve_none, ?_, ?_, ?_⟩
  · intro world state hresolve batch hreach
    exact reaches_allOrNothing (local_discipline _) (fun _ _ h => h.2)
      (localResolve_some hresolve) hreach
  · intro world hresolve
    rcases placementResolve_spec remote requests with
      ⟨_, hnone, hsettled⟩ | ⟨_, state, _, _, hsome, -⟩
    · rw [hnone] at hresolve
      cases hresolve
      exact hsettled
    · rw [hsome] at hresolve
      cases hresolve
  · intro world state hresolve batch hreach
    rcases placementResolve_spec remote requests with
      ⟨_, hnone, -⟩ | ⟨_, started, localRequests, remoteRequests, hsome, hsound⟩
    · rw [hnone] at hresolve
      cases hresolve
    · rw [hsome] at hresolve
      cases hresolve
      exact reaches_allOrNothing (placement_discipline _ localRequests remoteRequests)
        (fun _ _ h => h) hsound hreach

/-- A host page and a device page. -/
def hostThenDevice : List (ExpertResolveRequest × StartAnswer) :=
  [({ key := { expert := 1 }, target := .host }, {}),
    ({ key := { expert := 2 }, target := .device }, {})]

/-- A device page and one that only another owner has. -/
def deviceThenRemote : List (ExpertResolveRequest × StartAnswer) :=
  [({ key := { expert := 1 }, target := .device }, {}),
    ({ key := { expert := 2 }, target := .remote }, {})]

/-- The device page fails: its failure is returned with the host page neither completed nor
cancelled. The remote target makes the handle invalid with the device page left open. -/
theorem failures_leave_acquisitions_open :
    (∃ world state batch status,
      LocalExpertStore.resolve {} hostThenDevice = (world, some state) ∧
        runActions BatchState.step (BatchState.started world state)
          [.complete 1 { status := ⟨.ioFailed, "read failed"⟩ }, .poll] = some batch ∧
        batch.results = [{ status := status }] ∧ status.ok = false ∧ ¬ batch.world.Settled) ∧
      ∃ world, LocalExpertStore.resolve {} deviceThenRemote = (world, none) ∧
        ¬ world.Settled := by
  refine ⟨⟨_, _, _, ⟨.ioFailed, "read failed"⟩, rfl, rfl, by decide, by decide, ?_⟩, _, rfl, ?_⟩
  · intro hsettled
    have hopen := hsettled 0 { kind := .host, key := { expert := 1 } } (by decide)
    exact absurd hopen (by decide)
  · intro hsettled
    have hopen := hsettled 0 { kind := .device, key := { expert := 1 } } (by decide)
    exact absurd hopen (by decide)

end QuantumLlm.Runtime.ExpertStore
