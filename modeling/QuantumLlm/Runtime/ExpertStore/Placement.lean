import QuantumLlm.Runtime.ExpertStore.Starting

/-!
# Batches over both stores

The union batch while its two halves are under way: what has been placed serves
the request at its place, and a half that is complete has filled its places.
-/

namespace QuantumLlm.Runtime.ExpertStore

open LocalResolveState PlacementResolveState

variable {world world' : World} {all : List ExpertResolveRequest}
  {resolved : List (Option ResolvedExpert)} {σ : Type} [Resolving σ]

/-- What has been placed serves the request at its place. -/
structure Placed (world : World) (all : List ExpertResolveRequest)
    (resolved : List (Option ResolvedExpert)) : Prop where
  length_eq : resolved.length = all.length
  serves : ∀ (position : Nat) (expert : ResolvedExpert),
    resolved[position]? = some (some expert) → ∃ request, all[position]? = some request ∧
      Serves world request.key (localTarget request.target) expert

/-- These places are filled. -/
def Filled (resolved : List (Option ResolvedExpert)) (indices : List Nat) : Prop :=
  ∀ position ∈ indices, ∃ expert, resolved[position]? = some (some expert)

/-- The requests of one half, at their places. -/
def At (all : List ExpertResolveRequest) (indices : List Nat)
    (requests : List ExpertResolveRequest) : Prop :=
  List.Forall₂ (fun index request => all[index]? = some request) indices requests

theorem Placed.later (h : Placed world all resolved) (hlater : world.Later world') :
    Placed world' all resolved where
  length_eq := h.length_eq
  serves position expert hexpert := by
    obtain ⟨request, hrequest, hserves⟩ := h.serves position expert hexpert
    exact ⟨request, hrequest, hserves.later hlater⟩

theorem Placed.set (h : Placed world all resolved) {index : Nat} {request : ExpertResolveRequest}
    {expert : ResolvedExpert} (hrequest : all[index]? = some request)
    (hserves : Serves world request.key (localTarget request.target) expert) :
    Placed world all (resolved.set index (some expert)) where
  length_eq := by rw [List.length_set, h.length_eq]
  serves position other hother := by
    by_cases hposition : index = position
    · subst hposition
      rw [List.getElem?_set_self'] at hother
      obtain ⟨_, -, heq⟩ := Option.map_eq_some_iff.1 hother
      cases heq
      exact ⟨request, hrequest, hserves⟩
    · rw [List.getElem?_set_ne hposition] at hother
      exact h.serves position other hother

variable {indices : List Nat} {requests localRequests remoteRequests : List ExpertResolveRequest}
  {batch : PlacementBatch σ} {state : PlacementResolveState}

theorem Filled.set (h : Filled resolved indices) (index : Nat)
    (expert : ResolvedExpert) : Filled (resolved.set index (some expert)) indices := by
  intro position hposition
  obtain ⟨other, hother⟩ := h position hposition
  by_cases hindex : index = position
  · subst hindex
    exact ⟨expert, by simp [(List.getElem?_eq_some_iff.1 hother).1]⟩
  · exact ⟨other, by rwa [List.getElem?_set_ne hindex]⟩

theorem place_spec
    {experts : List ResolvedExpert} (h : Placed world all resolved) (hat : At all indices requests)
    (hserved : Served world requests experts) : ∃ resolved',
      place (all.map (·.key)) resolved indices experts = (resolved', none) ∧
        Placed world all resolved' ∧ Filled resolved' indices ∧
        ∀ others, Filled resolved others → Filled resolved' others := by
  induction hat generalizing resolved experts with
  | nil => exact ⟨resolved, rfl, h, (by simp [Filled]), fun _ hfilled => hfilled⟩
  | @cons index request indices requests hrequest _ ih =>
    cases hserved with
    | @cons _ expert _ experts hserves hrest =>
      obtain ⟨hkey, hlive⟩ := hserves.key_eq
      have hindex : index < resolved.length := by
        rw [h.length_eq]
        exact (List.getElem?_eq_some_iff.1 hrequest).1
      obtain ⟨resolved', hplace, hplaced, hfilled, hkept⟩ :=
        ih (h.set hrequest hserves) hrest
      refine ⟨resolved', ?_, hplaced, ?_, fun others hothers => hkept others (hothers.set _ _)⟩
      · rw [place, if_pos ⟨hlive, by simp [hrequest, hkey]⟩, hplace]
      · intro position hposition
        rcases List.mem_cons.1 hposition with rfl | hposition
        · exact hkept [position] (fun _ hsame => by
            obtain rfl := List.mem_singleton.1 hsame
            exact ⟨expert, by simp [hindex]⟩) position List.mem_cons_self
        · exact hfilled position hposition

/-- A half that is under way or complete. -/
inductive HalfSound (sound : World → σ → Prop) (world : World)
    (resolved : List (Option ResolvedExpert)) (batch : PlacementBatch σ) : Prop
  | running (handle : ResolveHandle σ) : batch.complete = false → batch.handle = some handle →
      handle.terminal = false → sound world handle.state → HalfSound sound world resolved batch
  | complete : batch.complete = true → (∀ handle, batch.handle = some handle →
      handle.terminal = true) → Filled resolved batch.indices → HalfSound sound world resolved batch

theorem pollBatch_spec {sound : World → σ → Prop} {served : World → List ResolvedExpert → Prop}
    (hplaced : Placed world all resolved)
    (h : HalfSound sound world resolved batch) (hat : At all batch.indices requests)
    (hserved : ∀ world experts, served world experts → Served world requests experts)
    (hpoll : ∀ handle, batch.complete = false → batch.handle = some handle →
      Polled sound served world (Resolving.poll world handle.state)) :
    ∃ later batch' resolved' answer,
      pollBatch world (all.map (·.key)) resolved batch = (later, batch', resolved', answer) ∧
        world.Extends later ∧ batch'.indices = batch.indices ∧
        (answer = none ∧ Placed later all resolved' ∧ HalfSound sound later resolved' batch' ∧
            (∀ others, Filled resolved others → Filled resolved' others) ∧
            (batch'.complete = true → batch.complete = true ∨ ∃ experts, served later experts) ∨
          ∃ status, answer = some status ∧ status.ok = false ∧ later.Settled) := by
  cases h with
  | complete hcomplete hterminal hfilled =>
    refine ⟨world, batch, resolved, none, by rw [pollBatch, if_pos hcomplete], .refl world, rfl,
      .inl ⟨rfl, hplaced, .complete hcomplete hterminal hfilled, fun _ h => h, .inl⟩⟩
  | running handle hrunning hhandle hopen hsound =>
    have hpolled := hpoll handle hrunning hhandle
    rw [pollBatch, if_neg (by simp [hrunning]), hhandle]
    simp only [ResolveHandle.poll, hopen, Bool.false_eq_true, if_false]
    generalize Resolving.poll world handle.state = outcome at hpolled ⊢
    cases hpolled with
    | @pending later state hextends hstate =>
      refine ⟨later, _, resolved, none, rfl, hextends, rfl, .inl ⟨rfl,
        hplaced.later hextends.toLater, .running { state } hrunning rfl rfl hstate,
        fun _ h => h, fun hdone => ?_⟩⟩
      exact .inl hdone
    | @failed later state status hextends hbad hsettled =>
      refine ⟨later, { batch with handle := some { state, terminal := true }, complete := true },
        resolved, some status, ?_, hextends, rfl, .inr ⟨status, rfl, hbad, hsettled⟩⟩
      simp [hbad]
    | @succeeded later state experts hextends hexperts =>
      have hall := hserved later experts hexperts
      have hlength : experts.length = batch.indices.length := by
        rw [← hall.length_eq, hat.length_eq]
      obtain ⟨resolved', hplace, hplaced', hfilled, hkept⟩ :=
        place_spec (hplaced.later hextends.toLater) hat hall
      refine ⟨later, { batch with handle := some { state, terminal := true }, complete := true },
        resolved', none, ?_, hextends, rfl, .inl ⟨rfl, hplaced', ?_, hkept,
        fun _ => .inr ⟨experts, hexperts⟩⟩⟩
      · simp [hlength, hplace]
      · refine .complete rfl ?_ hfilled
        intro other hother
        cases hother
        rfl

/-- A union batch that is under way. -/
structure PlacementSound (world : World) (all localRequests remoteRequests : List ExpertResolveRequest)
    (state : PlacementResolveState) : Prop where
  opened : state.terminal = false
  expected : state.expected = all.map (·.key)
  placed : Placed world all state.resolved
  localAt : At all state.localBatch.indices localRequests
  remoteAt : At all state.remoteBatch.indices remoteRequests
  localHalf : HalfSound (fun world => LocalSound world localRequests) world state.resolved
    state.localBatch
  localCompleted : state.localBatch.complete = true → world.Completed
  remoteHalf : HalfSound (fun world state => state.terminal = false ∧
      state.result.status = Status.success ∧ Served world remoteRequests state.result.experts) world
    state.resolved state.remoteBatch
  /-- Every place belongs to a half. -/
  divided : ∀ position < all.length,
    position ∈ state.localBatch.indices ∨ position ∈ state.remoteBatch.indices

/-- The condition on a poll of the local half. -/
def placementPollsCleanly (world : World) (state : PlacementResolveState) : Bool :=
  state.localBatch.complete ||
    match state.localBatch.handle with
    | none => true
    | some handle => handle.terminal || pollsCleanly world handle.state

theorem remote_polled {state : ImmediateRemoteResolveState}
    (hopen : state.terminal = false) (hok : state.result.status = Status.success)
    (hserved : Served world requests state.result.experts) :
    Polled (fun world state => state.terminal = false ∧ state.result.status = Status.success ∧
        Served world requests state.result.experts) (fun world => Served world requests) world
      (Resolving.poll world state) := by
  have hresult : state.result = { status := Status.success, experts := state.result.experts } := by
    rw [← hok]
  simp only [Resolving.poll, ImmediateRemoteResolveState.poll, hopen, Bool.false_eq_true, if_false]
  rw [hresult]
  exact .succeeded (.refl world) hserved

omit [Resolving σ] in
theorem HalfSound.later {sound : World → σ → Prop} {batch : PlacementBatch σ}
    (h : HalfSound sound world resolved batch)
    (hlater : ∀ state, sound world state → sound world' state) {resolved' : List (Option ResolvedExpert)}
    (hkept : ∀ others, Filled resolved others → Filled resolved' others) :
    HalfSound sound world' resolved' batch := by
  cases h with
  | running handle hrunning hhandle hopen hsound =>
    exact .running handle hrunning hhandle hopen (hlater _ hsound)
  | complete hcomplete hterminal hfilled => exact .complete hcomplete hterminal (hkept _ hfilled)

theorem assembled_served (h : Placed world all resolved)
    (hfilled : ∀ position < all.length, ∃ expert, resolved[position]? = some (some expert)) :
    ∃ experts, assembled resolved = { status := Status.success, experts } ∧
      Served world all experts := by
  have hsome : resolved.all (·.isSome) = true := by
    rw [List.all_eq_true]
    intro entry hentry
    obtain ⟨position, hposition⟩ := List.getElem?_of_mem hentry
    have hlt : position < all.length := by
      rw [← h.length_eq]
      exact (List.getElem?_eq_some_iff.1 hposition).1
    obtain ⟨expert, hexpert⟩ := hfilled position hlt
    rw [hposition, Option.some.injEq] at hexpert
    rw [hexpert]
    rfl
  refine ⟨resolved.filterMap id, by rw [assembled, if_pos hsome], ?_⟩
  have hpairs : List.Forall₂ (fun request entry => ∃ expert, entry = some expert ∧
      Serves world request.key (localTarget request.target) expert) all resolved := by
    rw [List.forall₂_iff_get]
    refine ⟨h.length_eq.symm, ?_⟩
    intro position hall hresolved
    obtain ⟨expert, hexpert⟩ := hfilled position hall
    obtain ⟨request, hrequest, hserves⟩ := h.serves position expert hexpert
    obtain ⟨_, hget⟩ := List.getElem?_eq_some_iff.1 hexpert
    obtain ⟨_, hgetRequest⟩ := List.getElem?_eq_some_iff.1 hrequest
    exact ⟨expert, hget, by simpa [hgetRequest] using hserves⟩
  clear h hfilled hsome
  induction hpairs with
  | nil => exact .nil
  | cons hfirst _ ih =>
    obtain ⟨expert, rfl, hserves⟩ := hfirst
    exact .cons hserves ih

theorem PlacementSound.localPolled (h : PlacementSound world all localRequests remoteRequests state)
    (hclean : placementPollsCleanly world state = true) (handle : ResolveHandle LocalResolveState)
    (hrunning : state.localBatch.complete = false) (hhandle : state.localBatch.handle = some handle) :
    Polled (fun world => LocalSound world localRequests)
      (fun world experts => world.Completed ∧ Served world localRequests experts) world
      (Resolving.poll world handle.state) := by
  cases h.localHalf with
  | running other _ hother hopen hsound =>
    rw [hhandle, Option.some.injEq] at hother
    subst hother
    rw [placementPollsCleanly, hrunning, hhandle] at hclean
    exact hsound.poll (by simpa [hopen] using hclean)
  | complete hcomplete => simp [hrunning] at hcomplete

theorem remoteHalf_polled {batch : PlacementBatch ImmediateRemoteResolveState}
    (h : HalfSound (fun world state => state.terminal = false ∧
      state.result.status = Status.success ∧ Served world requests state.result.experts) world
      resolved batch) (handle : ResolveHandle ImmediateRemoteResolveState)
    (hrunning : batch.complete = false) (hhandle : batch.handle = some handle) :
    Polled (fun world state => state.terminal = false ∧ state.result.status = Status.success ∧
        Served world requests state.result.experts) (fun world => Served world requests)
      world (Resolving.poll world handle.state) := by
  cases h with
  | running other _ hother hopen hsound =>
    rw [hhandle, Option.some.injEq] at hother
    subst hother
    exact remote_polled hsound.1 hsound.2.1 hsound.2.2
  | complete hcomplete => simp [hrunning] at hcomplete

theorem cancelBatch_extends
    (hcancel : ∀ (world : World) (state : σ), world.Extends (Resolving.cancel world state).1) :
    world.Extends (cancelBatch world batch).1 := by
  rw [cancelBatch]
  split
  next => exact .refl world
  next handle _ =>
    rw [ResolveHandle.cancel]
    split
    next => exact .refl world
    next => exact hcancel world handle.state

theorem remoteCancel_extends (world : World) (state : ImmediateRemoteResolveState) :
    world.Extends (Resolving.cancel world state).1 := .refl world

theorem localCancel_extends (world : World) (state : LocalResolveState) :
    world.Extends (Resolving.cancel world state).1 := by
  simp only [Resolving.cancel, LocalResolveState.cancel]
  split
  next => exact .refl world
  next => exact extends_cancelAll _

section

variable (h : PlacementSound world all localRequests remoteRequests state)

include h

theorem PlacementSound.poll (hclean : placementPollsCleanly world state = true) :
    Polled (fun world => PlacementSound world all localRequests remoteRequests)
      (fun world => Served world all) world (state.poll world) := by
  obtain ⟨later, localBatch, resolved, answer, hlocal, hextends, hindices, houtcome⟩ :=
    pollBatch_spec h.placed h.localHalf h.localAt (fun _ _ hboth => hboth.2)
      (h.localPolled hclean)
  rw [PlacementResolveState.poll, if_neg (by simp [h.opened]), h.expected, hlocal]
  rcases houtcome with ⟨rfl, hplaced, hhalf, hkept, hdone⟩ | ⟨status, rfl, hbad, hsettled⟩
  · have hremote := @HalfSound.later _ later _ _ _ _ h.remoteHalf
      (fun state hstate => ⟨hstate.1, hstate.2.1, hstate.2.2.later hextends.toLater⟩) _ hkept
    obtain ⟨final, remoteBatch, resolved', answer, hpoll, hextends', hindices', houtcome⟩ :=
      pollBatch_spec hplaced hremote h.remoteAt (fun _ _ hserved => hserved)
        (remoteHalf_polled hremote)
    simp only [hpoll]
    have hall := hextends.trans hextends'
    rcases houtcome with ⟨rfl, hplaced', hhalf', hkept', -⟩ | ⟨status, rfl, hbad, hsettled⟩
    · have hcompleted : localBatch.complete = true → final.Completed := by
        intro hcomplete
        rcases hdone hcomplete with hbefore | ⟨experts, hcompleted, -⟩
        · exact hall.completed (h.localCompleted hbefore)
        · exact hextends'.completed hcompleted
      have hlater := @HalfSound.later _ final _ _ _ _ hhalf
        (fun state hstate => hstate.extends hextends') _ hkept'
      by_cases hboth : localBatch.complete = true ∧ remoteBatch.complete = true
      · obtain ⟨experts, hassembled, hserved⟩ := assembled_served hplaced' (by
          intro position hposition
          rcases h.divided position hposition with hmem | hmem
          · cases hlater with
            | running _ hrunning => simp [hboth.1] at hrunning
            | complete _ _ hfilled => exact hfilled position (by rwa [hindices])
          · cases hhalf' with
            | running _ hrunning => simp [hboth.2] at hrunning
            | complete _ _ hfilled => exact hfilled position (by rwa [hindices']))
        simp only [hboth, and_self, if_true, hassembled]
        exact .succeeded hall hserved
      · simp only [if_neg hboth]
        refine .pending hall ⟨h.opened, rfl, hplaced', ?_, ?_, hlater, hcompleted, hhalf', ?_⟩
        · rw [hindices]
          exact h.localAt
        · rw [hindices']
          exact h.remoteAt
        · rw [hindices, hindices']
          exact h.divided
    · exact .failed (hall.trans (cancelBatch_extends localCancel_extends)) hbad
        ((cancelBatch_extends localCancel_extends).settled hsettled)
  · exact .failed (hextends.trans (cancelBatch_extends remoteCancel_extends)) hbad
      ((cancelBatch_extends remoteCancel_extends).settled hsettled)

theorem PlacementSound.cancel :
    world.Extends (state.cancel world).1 ∧ (state.cancel world).1.Settled := by
  rw [PlacementResolveState.cancel, if_neg (by simp [h.opened])]
  have hfirst : (cancelBatch world state.localBatch).1.Settled := by
    cases h.localHalf with
    | running handle hrunning hhandle hopen hsound =>
      rw [cancelBatch, hhandle]
      simp only [ResolveHandle.cancel, hopen, Bool.false_eq_true, if_false]
      exact hsound.cancel.2
    | complete hcomplete hterminal hfilled =>
      have hcompleted := h.localCompleted hcomplete
      exact (cancelBatch_extends localCancel_extends).settled
        fun index member hmember => .inl (hcompleted index member hmember)
  exact ⟨(cancelBatch_extends localCancel_extends).trans (cancelBatch_extends remoteCancel_extends),
    (cancelBatch_extends remoteCancel_extends).settled hfirst⟩

theorem PlacementSound.extends (hextends : world.Extends world') :
    PlacementSound world' all localRequests remoteRequests state where
  opened := h.opened
  expected := h.expected
  placed := h.placed.later hextends.toLater
  localAt := h.localAt
  remoteAt := h.remoteAt
  localHalf := h.localHalf.later (fun _ hstate => hstate.extends hextends) fun _ h => h
  localCompleted hcomplete := hextends.completed (h.localCompleted hcomplete)
  remoteHalf := h.remoteHalf.later
    (fun _ hstate => ⟨hstate.1, hstate.2.1, hstate.2.2.later hextends.toLater⟩) fun _ h => h
  divided := h.divided

end

end QuantumLlm.Runtime.ExpertStore
