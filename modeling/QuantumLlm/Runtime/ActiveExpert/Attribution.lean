import QuantumLlm.Runtime.ActiveExpert.Exchange
import QuantumLlm.Runtime.ActiveExpert.Frames

/-!
# Remote expert execution: attribution

A result that a requester accepts was produced by an endpoint for the very frame
its request was encoded to.
-/

namespace QuantumLlm.Runtime.ActiveExpert

open List

variable {sha256 : Bytes → Sha256Digest}

/-- The bytes end with their own digest, which is the given one. -/
def Stamped (sha256 : Bytes → Sha256Digest) (frame : Bytes) (digest : Sha256Digest) : Prop :=
  frame = sealed sha256 (payloadOf frame) ∧ digest = sha256 (payloadOf frame)

/-- A response carries the digest of the request frame it was encoded for. -/
structure Production.Sound (sha256 : Bytes → Sha256Digest) (production : Production) : Prop where
  frame : production.frame = encodeResponseOnce sha256 production.result
  short : production.result.fields.Short
  request : Stamped sha256 production.requestFrame production.result.requestSha256

section

variable {requestFrame : Bytes} {request : ActiveExpertExecutionRequest} {digest : Sha256Digest}
  {result completed : ActiveExpertExecutionResult} {production : Production} {elapsed : UInt64}

theorem respond_sound (hcapability : result.identity.capability.length ≤ 4096)
    (hrequest : Stamped sha256 requestFrame result.requestSha256)
    (hmem : production ∈ (respond sha256 requestFrame result).2) :
    production.Sound sha256 ∧ production.requestFrame = requestFrame := by
  simp only [respond] at hmem
  split at hmem
  next hok =>
    obtain ⟨hframe, hshort, hdigest⟩ := encodeResponse_ok hcapability hok
    rw [mem_singleton.1 hmem]
    exact ⟨⟨hframe, hshort, by rw [hdigest]; exact hrequest⟩, rfl⟩
  next => cases hmem

theorem ownerResult_correlated :
    (ownerResult request digest requestFrame elapsed completed).identity = request.identity ∧
      (ownerResult request digest requestFrame elapsed completed).requestSha256 = digest := by
  unfold ownerResult
  by_cases hcorrelated : completed.identity = request.identity ∧
      completed.requestId = request.invocation.requestId ∧
      completed.invocationId = request.invocation.invocationId ∧
      completed.selectionIndex = request.invocation.selectionIndex
  · simp only [hcorrelated, and_self, if_true]
    split
    · split
      · exact ⟨rfl, rfl⟩
      · exact ⟨rfl, rfl⟩
    · exact ⟨rfl, rfl⟩
  · simp only [hcorrelated, if_false]
    split
    · split <;> exact ⟨rfl, rfl⟩
    · exact ⟨rfl, rfl⟩

theorem decode_stamped {decodedAt validatedAt : Int}
    (h : decodeActiveExpertRequest sha256 decodedAt validatedAt requestFrame =
      .ok (request, digest)) :
    Stamped sha256 requestFrame digest ∧ request.identity.capability.length ≤ 4096 := by
  obtain ⟨fields, input, ⟨hshort, -, -, -⟩, ⟨hframe, -⟩, -, -, hrequest, hdigest⟩ :=
    decode_ok_iff.1 h
  have hpayload : payloadOf requestFrame = writeRequestFields fields ++ input := by
    rw [hframe, payloadOf_sealed]
  refine ⟨⟨by rw [hpayload]; exact hframe, by rw [hpayload]; exact hdigest⟩, ?_⟩
  rw [hrequest]
  exact hshort.1

theorem encode_stamped {validatedAt budgetedAt : Int} {frame : Bytes}
    (h : encodeActiveExpertRequest sha256 validatedAt budgetedAt request = .ok (frame, digest)) :
    Stamped sha256 frame digest := by
  unfold encodeActiveExpertRequest at h
  simp only at h
  split at h
  next => cases h
  next =>
    split at h
    next => cases h
    next =>
      split at h
      next => cases h
      next =>
        split at h
        next => cases h
        next =>
          split at h
          next => cases h
          next =>
            split at h
            next => cases h
            next =>
              cases h
              exact ⟨by rw [payloadOf_sealed], by rw [payloadOf_sealed]⟩

theorem encode_error {validatedAt budgetedAt : Int} {status : Status}
    (h : encodeActiveExpertRequest sha256 validatedAt budgetedAt request = .error status) :
    status.ok = false := by
  unfold encodeActiveExpertRequest at h
  simp only at h
  split at h
  next hidentity =>
    cases h
    simpa using hidentity
  next =>
    split at h
    next hinvocation =>
      cases h
      simpa using hinvocation
    next =>
      repeat' split at h
      all_goals first | (cases h; rfl) | cases h

theorem Production.Sound.decoded (h : production.Sound sha256)
    (hdecode : decodeResponse sha256 production.frame = .ok result) :
    result.requestSha256 = production.result.requestSha256 ∧
      result.status = production.result.status ∧
      (result.status.ok → result.output.content = production.result.output.content) := by
  obtain ⟨fields, rest, hshort, hframe, hsize, rfl⟩ := decodeResponse_ok hdecode
  have hpayload := congrArg payloadOf (h.frame.symm.trans hframe)
  rw [encodeResponseOnce, payloadOf_sealed, payloadOf_sealed] at hpayload
  obtain ⟨hfields, hrest⟩ := reads_responseFields.injective h.short hshort hpayload
  have hcode : fields.code = production.result.status.code := by rw [← hfields]; rfl
  refine ⟨by rw [← hfields]; rfl, by rw [← hfields]; rfl, fun hok => ?_⟩
  have hok' : production.result.status.ok = true := by
    rw [← hfields] at hok
    exact hok
  have hcodeOk : fields.code = .ok := by
    rw [hcode]
    simpa [Status.ok] using hok'
  rw [if_pos hok'] at hrest
  have hlong : rest.length < 2 ^ 64 := by
    rw [hframe, sealed_length, length_append] at hsize
    have hmaximum : kMaximumFrameBytes < 2 ^ 64 := by decide
    omega
  rw [if_pos hcodeOk, hostWire_eq hlong, hrest]
  rfl

end

/-- What an accepted result owes to the endpoint that produced its frame. -/
structure Attributed (request : ActiveExpertExecutionRequest) (requestSha256 : Sha256Digest)
    (result : ActiveExpertExecutionResult) (production : Production) : Prop where
  digest : production.result.requestSha256 = requestSha256
  ok : production.result.status.ok
  content : result.output.content = production.result.output.content
  identity : result.identity = request.identity
  requestId : result.requestId = request.invocation.requestId
  invocationId : result.invocationId = request.invocation.invocationId
  selectionIndex : result.selectionIndex = request.invocation.selectionIndex
  abi : result.output.abi = request.invocation.outputAbi
  bytes : result.output.bytes = request.invocation.outputBytes
  weight : result.evidence.weightTransportBytes = 0

/-- The handle's request was encoded to its frame. -/
def RemoteHandle.Encoded (sha256 : Bytes → Sha256Digest) (handle : RemoteHandle) : Prop :=
  ∃ validatedAt budgetedAt, encodeActiveExpertRequest sha256 validatedAt budgetedAt handle.request =
    .ok (handle.frame, handle.requestSha256)

structure RemoteHandle.Sound (sha256 : Bytes → Sha256Digest) (produced : List Production)
    (handle : RemoteHandle) : Prop where
  waiting : handle.phase = .waiting → handle.Encoded sha256 ∧ handle.yielded = []
  completed : ∀ result, handle.phase = .completed result →
    result.status.ok = false ∧ handle.yielded = []
  once : handle.yielded.length ≤ 1
  attributed : ∀ result polled, (result, polled) ∈ handle.yielded → result.status.ok →
    handle.Encoded sha256 ∧ ∃ production ∈ produced, polled = some production.frame ∧
      Attributed handle.request handle.requestSha256 result production

section

variable {handle : RemoteHandle} {produced produced' : List Production}
  {result : ActiveExpertExecutionResult} {polled : Option Bytes} {wire : WireResult}
  {waited : UInt64}

theorem RemoteHandle.Sound.mono (h : handle.Sound sha256 produced)
    (hsub : ∀ production ∈ produced, production ∈ produced') : handle.Sound sha256 produced' := by
  refine ⟨h.waiting, h.completed, h.once, fun result polled hmem hok => ?_⟩
  obtain ⟨hencoded, production, hproduction, hpolled, hattributed⟩ := h.attributed result polled hmem hok
  exact ⟨hencoded, production, hsub production hproduction, hpolled, hattributed⟩

theorem RemoteHandle.execute_sound {validatedAt budgetedAt : Int} {accepted : Bool}
    {request : ActiveExpertExecutionRequest} :
    (RemoteHandle.execute sha256 validatedAt budgetedAt accepted request).Sound sha256 produced := by
  unfold RemoteHandle.execute
  split
  next status hencode =>
    have hfailed := encode_error hencode
    refine ⟨fun hphase => RemotePhase.noConfusion hphase, ?_, Nat.zero_le _, by simp⟩
    rintro result ⟨⟩
    exact ⟨hfailed, rfl⟩
  next frame digest hencode =>
    split
    next =>
      refine ⟨fun hphase => RemotePhase.noConfusion hphase, ?_, Nat.zero_le _, by simp⟩
      rintro result ⟨⟩
      exact ⟨rfl, rfl⟩
    next =>
      exact ⟨fun _ => ⟨⟨validatedAt, budgetedAt, hencode⟩, rfl⟩, fun _ hphase =>
        RemotePhase.noConfusion hphase, Nat.zero_le _, by simp⟩

theorem RemoteHandle.Sound.yields (hempty : handle.yielded = [])
    (hresult : result.status.ok → handle.Encoded sha256 ∧ ∃ production ∈ produced,
      polled = some production.frame ∧ Attributed handle.request handle.requestSha256 result production) :
    (handle.yields result polled).Sound sha256 produced := by
  refine ⟨fun hphase => RemotePhase.noConfusion hphase,
    fun _ hphase => RemotePhase.noConfusion hphase, ?_, fun other frame hmem hok => ?_⟩
  · simp [RemoteHandle.yields, hempty]
  · simp only [RemoteHandle.yields, hempty, nil_append, mem_singleton, Prod.mk.injEq] at hmem
    obtain ⟨rfl, rfl⟩ := hmem
    exact hresult hok

theorem remoteResult_ok (hok : (remoteResult sha256 handle waited wire).status.ok) :
    ∃ decoded, decodeResponse sha256 wire.frame = .ok decoded ∧ decoded.status.ok ∧
      decoded.requestSha256 = handle.requestSha256 ∧
      (∀ production : Production, production.result.requestSha256 = handle.requestSha256 →
        production.result.status.ok →
        decoded.output.content = production.result.output.content →
        Attributed handle.request handle.requestSha256
          (remoteResult sha256 handle waited wire) production) := by
  unfold remoteResult at hok ⊢
  split at hok
  next hfailed =>
    have hfalse : wire.status.ok = false := by simpa using hfailed
    simp [failedResult, hfalse] at hok
  next hwire =>
    rw [if_neg hwire]
    split at hok
    next status hdecode =>
      have hfalse := decodeResponse_error hdecode
      simp [failedResult, hfalse] at hok
    next decoded hdecode =>
      split at hok
      next => cases hok
      next hchecks =>
        have hdecoded : decoded.status.ok = true := hok
        simp only [not_or, not_and, not_not, ne_eq] at hchecks
        obtain ⟨hidentity, hrequest, hinvocation, hselection, hdigest, hweight, houtput⟩ := hchecks
        obtain ⟨habi, hbytes⟩ := houtput hdecoded
        refine ⟨decoded, hdecode, hdecoded, by simpa [constantTimeEqual] using hdigest, ?_⟩
        intro production hproduction hproducedOk hcontent
        rw [if_neg]
        · exact ⟨hproduction, hproducedOk, hcontent, hidentity, hrequest, hinvocation, hselection, habi,
            hbytes, hweight⟩
        · simp only [not_or, not_and, not_not, ne_eq]
          exact ⟨hidentity, hrequest, hinvocation, hselection, hdigest, hweight, fun _ => ⟨habi, hbytes⟩⟩

theorem RemoteHandle.Sound.poll {now : Int} {delivered : Option WireResult}
    (h : handle.Sound sha256 produced)
    (hproduced : ∀ production ∈ produced, production.Sound sha256)
    (hunforged : ∀ wire, delivered = some wire → Authentic sha256 wire.frame →
      ∃ production ∈ produced, production.frame = wire.frame) :
    (handle.poll sha256 now waited delivered).Sound sha256 produced := by
  unfold RemoteHandle.poll
  split
  next => exact h
  next result hphase =>
    obtain ⟨hfailed, hempty⟩ := h.completed result hphase
    exact Sound.yields hempty fun hok => by rw [hfailed] at hok; cases hok
  next hphase =>
    obtain ⟨hencoded, hempty⟩ := h.waiting hphase
    split
    next => exact Sound.yields hempty nofun
    next =>
      split
      next => exact h
      next wire =>
        refine Sound.yields hempty fun hok => ⟨hencoded, ?_⟩
        obtain ⟨decoded, hdecode, hdecodedOk, hdigest, hattributed⟩ := remoteResult_ok hok
        have hauthentic : Authentic sha256 wire.frame := by
          obtain ⟨fields, rest, -, hframe, -, -⟩ := decodeResponse_ok hdecode
          rw [hframe]
          exact authentic_sealed
        obtain ⟨production, hmem, hframe⟩ := hunforged wire rfl hauthentic
        rw [← hframe] at hdecode
        obtain ⟨hsame, hstatus, hcontent⟩ := (hproduced production hmem).decoded hdecode
        refine ⟨production, hmem, by rw [hframe], hattributed production ?_ ?_ (hcontent hdecodedOk)⟩
        · rw [← hsame, hdigest]
        · rw [← hstatus]
          exact hdecodedOk

end

/-- What an endpoint executes was decoded from the frame it was handed. -/
def Owner.Sound (sha256 : Bytes → Sha256Digest) (owner : Owner) : Prop :=
  ∀ request requestSha256, owner.phase = .executing request requestSha256 →
    Stamped sha256 owner.requestFrame requestSha256 ∧ request.identity.capability.length ≤ 4096

/-- Every production is sound and was made for the frame. -/
def MadeFor (sha256 : Bytes → Sha256Digest) (requestFrame : Bytes) (produced : List Production) :
    Prop :=
  ∀ production ∈ produced, production.Sound sha256 ∧ production.requestFrame = requestFrame

section

variable {owner : Owner} {requestFrame : Bytes}

theorem MadeFor.nil : MadeFor sha256 requestFrame [] := by
  intro production hmem
  cases hmem

theorem Owner.submit_sound {decodedAt validatedAt : Int} {selected : Status} :
    (Owner.submit sha256 decodedAt validatedAt selected requestFrame).1.requestFrame = requestFrame ∧
      (Owner.submit sha256 decodedAt validatedAt selected requestFrame).1.Sound sha256 ∧
      MadeFor sha256 requestFrame
        (Owner.submit sha256 decodedAt validatedAt selected requestFrame).2 := by
  unfold Owner.submit
  split
  next => exact ⟨rfl, fun _ _ hphase => OwnerPhase.noConfusion hphase, MadeFor.nil⟩
  next request digest hdecode =>
    obtain ⟨hstamped, hcapability⟩ := decode_stamped hdecode
    split
    next =>
      exact ⟨rfl, fun _ _ hphase => OwnerPhase.noConfusion hphase, fun production hmem =>
        respond_sound hcapability hstamped hmem⟩
    next =>
      refine ⟨rfl, ?_, MadeFor.nil⟩
      rintro executed executedSha256 ⟨⟩
      exact ⟨hstamped, hcapability⟩

theorem Owner.poll_sound {now : Int} {valid : Bool}
    {completed : Option ActiveExpertExecutionResult} {elapsed : UInt64} (h : owner.Sound sha256) :
    (owner.poll sha256 now valid completed elapsed).1.requestFrame = owner.requestFrame ∧
      (owner.poll sha256 now valid completed elapsed).1.Sound sha256 ∧
      MadeFor sha256 owner.requestFrame (owner.poll sha256 now valid completed elapsed).2.2 := by
  have hterminal : ({ owner with phase := .terminal } : Owner).Sound sha256 :=
    fun _ _ hphase => OwnerPhase.noConfusion hphase
  unfold Owner.poll
  split
  next => exact ⟨rfl, h, MadeFor.nil⟩
  next => exact ⟨rfl, hterminal, MadeFor.nil⟩
  next request digest hphase =>
    obtain ⟨hstamped, hcapability⟩ := h request digest hphase
    split
    next => exact ⟨rfl, hterminal, fun production hmem => respond_sound hcapability hstamped hmem⟩
    next =>
      split
      next => exact ⟨rfl, hterminal, fun production hmem => respond_sound hcapability hstamped hmem⟩
      next =>
        split
        next => exact ⟨rfl, h, MadeFor.nil⟩
        next completed =>
          obtain ⟨hidentity, hdigest⟩ :=
            @ownerResult_correlated owner.requestFrame request digest completed elapsed
          have hmade : MadeFor sha256 owner.requestFrame (respond sha256 owner.requestFrame
              (ownerResult request digest owner.requestFrame elapsed completed)).2 := by
            intro production hmem
            refine respond_sound ?_ ?_ hmem
            · rw [hidentity]
              exact hcapability
            · rw [hdigest]
              exact hstamped
          simp only
          split
          · exact ⟨rfl, hterminal, hmade⟩
          · exact ⟨rfl, hterminal, hmade⟩

end

namespace Exchange

structure Sound (sha256 : Bytes → Sha256Digest) (exchange : Exchange) : Prop where
  owners : ∀ owner ∈ exchange.owners, owner.Sound sha256
  produced : ∀ production ∈ exchange.produced, production.Sound sha256 ∧
    production.requestFrame ∈ exchange.owners.map (·.requestFrame)
  handles : ∀ handle ∈ exchange.handles, handle.Sound sha256 exchange.produced

variable {exchange exchange' : Exchange} {action : Action}

theorem map_requestFrame_set {owners : List Owner} {index : Nat} {owner changed : Owner}
    (howner : owners[index]? = some owner) (hsame : changed.requestFrame = owner.requestFrame) :
    (owners.set index changed).map (·.requestFrame) = owners.map (·.requestFrame) := by
  have hindex := (List.getElem?_eq_some_iff.1 howner)
  obtain ⟨hlt, hget⟩ := hindex
  rw [List.map_set, hsame, ← hget]
  apply List.ext_getElem?
  intro position
  by_cases hposition : index = position
  · subst hposition
    simp [hlt]
  · simp [List.getElem?_set_ne hposition]

theorem Sound.step (h : exchange.Sound sha256) (hunforged : exchange.Unforged sha256 action)
    (hstep : exchange.step sha256 action = some exchange') : exchange'.Sound sha256 := by
  cases action with
  | execute validatedAt budgetedAt accepted request =>
    cases hstep
    refine ⟨h.owners, h.produced, fun handle hmem => ?_⟩
    rcases mem_append.1 hmem with hold | hnew
    · exact h.handles handle hold
    · rw [mem_singleton.1 hnew]
      exact RemoteHandle.execute_sound
  | submit decodedAt validatedAt selected requestFrame =>
    cases hstep
    obtain ⟨hframe, howner, hmade⟩ :=
      @Owner.submit_sound sha256 requestFrame decodedAt validatedAt selected
    refine ⟨fun owner hmem => ?_, fun production hmem => ?_, fun handle hmem =>
      (h.handles handle hmem).mono fun production => mem_append_left _⟩
    · rcases mem_append.1 hmem with hold | hnew
      · exact h.owners owner hold
      · rw [mem_singleton.1 hnew]
        exact howner
    · rw [map_append]
      rcases mem_append.1 hmem with hold | hnew
      · obtain ⟨hsound, hknown⟩ := h.produced production hold
        exact ⟨hsound, mem_append_left _ hknown⟩
      · obtain ⟨hsound, hrequest⟩ := hmade production hnew
        exact ⟨hsound, mem_append_right _ (by simp [hrequest, hframe])⟩
  | pollOwner index now valid completed elapsed =>
    simp only [Exchange.step] at hstep
    split at hstep
    next => cases hstep
    next owner howner =>
      cases hstep
      have hmember := mem_of_getElem? howner
      obtain ⟨hframe, hsound, hmade⟩ := @Owner.poll_sound sha256 owner now valid completed elapsed
        (h.owners owner hmember)
      have hframes := map_requestFrame_set howner hframe
      refine ⟨fun other hmem => ?_, fun production hmem => ?_, fun handle hmem =>
        (h.handles handle hmem).mono fun production => mem_append_left _⟩
      · rcases mem_or_eq_of_mem_set hmem with hold | rfl
        · exact h.owners other hold
        · exact hsound
      · show _ ∧ _ ∈ List.map _ _
        rw [hframes]
        rcases mem_append.1 hmem with hold | hnew
        · exact h.produced production hold
        · obtain ⟨hproduction, hrequest⟩ := hmade production hnew
          exact ⟨hproduction, by rw [hrequest]; exact mem_map_of_mem hmember⟩
  | cancelOwner index =>
    simp only [Exchange.step] at hstep
    split at hstep
    next => cases hstep
    next owner howner =>
      cases hstep
      have hframes := @map_requestFrame_set exchange.owners index owner
        { owner with phase := .terminal } howner rfl
      refine ⟨fun other hmem => ?_, fun production hmem => ?_, h.handles⟩
      · rcases mem_or_eq_of_mem_set hmem with hold | rfl
        · exact h.owners other hold
        · exact fun _ _ hphase => OwnerPhase.noConfusion hphase
      · show _ ∧ _ ∈ List.map _ _
        rw [hframes]
        exact h.produced production hmem
  | poll index now waited wire =>
    simp only [Exchange.step] at hstep
    split at hstep
    next => cases hstep
    next handle hhandle =>
      cases hstep
      refine ⟨h.owners, h.produced, fun other hmem => ?_⟩
      rcases mem_or_eq_of_mem_set hmem with hold | rfl
      · exact h.handles other hold
      · refine (h.handles handle (mem_of_getElem? hhandle)).poll
          (fun production hproduction => (h.produced production hproduction).1) ?_
        rintro delivered rfl hauthentic
        exact hunforged hauthentic
  | cancel index =>
    simp only [Exchange.step] at hstep
    split at hstep
    next => cases hstep
    next handle hhandle =>
      cases hstep
      refine ⟨h.owners, h.produced, fun other hmem => ?_⟩
      rcases mem_or_eq_of_mem_set hmem with hold | rfl
      · exact h.handles other hold
      · have hsound := h.handles handle (mem_of_getElem? hhandle)
        exact ⟨fun hphase => RemotePhase.noConfusion hphase,
          fun _ hphase => RemotePhase.noConfusion hphase, hsound.once, hsound.attributed⟩

theorem Sound.of_reaches
    (h : Reaches (Exchange.step sha256) (Exchange.Unforged sha256) {} exchange) :
    exchange.Sound sha256 :=
  h.invariant ⟨by simp, by simp, by simp⟩ fun _ hsound hunforged hstep =>
    hsound.step hunforged hstep

end Exchange

/-- A digest without collisions among the payloads below. -/
def polynomialDigest (payload : Bytes) : Sha256Digest :=
  digestOfBytes (leBytes 32 (payload.foldl (fun (digest : Nat) byte => digest * 257 + byte.toNat) 1))

def gateRequest : ActiveExpertExecutionRequest := sampleRequest (ascii "gate") 4

def gateResult (content : Bytes) : ActiveExpertExecutionResult where
  status := {}
  identity := gateRequest.identity
  requestId := 1
  invocationId := 1
  selectionIndex := 0
  requestSha256 := polynomialDigest (requestPayload unlimitedBudget gateRequest)
  output := { hostWire (ascii "f16") content with memoryDomain := "host" }

/-- The outputs of the results that requesters accepted. -/
def Exchange.accepted (exchange : Exchange) : List Bytes :=
  exchange.handles.flatMap fun handle =>
    (handle.yielded.filter (·.1.status.ok)).map (·.1.output.content)

def forgedRun : List Action :=
  [.execute 0 0 true gateRequest,
    .poll 0 0 0 (some ⟨{}, (encodeResponse polynomialDigest (gateResult [6, 6, 6, 6])).2.2⟩)]

def gateOwner : Owner :=
  ⟨wireFrame polynomialDigest gateRequest, .executing gateRequest.onWire
    (polynomialDigest (requestPayload unlimitedBudget gateRequest))⟩

def gateResponse : WireResult :=
  ((gateOwner.poll polynomialDigest 0 true (some (gateResult [1, 2, 3, 4])) 5).2.1).getD ⟨{}, []⟩

/-- The frame travels to an endpoint, is executed, and its response travels back twice. -/
def honestRun : List Action :=
  [.execute 0 0 true gateRequest, .submit 0 0 {} (wireFrame polynomialDigest gateRequest),
    .pollOwner 0 0 true (some (gateResult [1, 2, 3, 4])) 5, .poll 0 0 9 (some gateResponse),
    .poll 0 0 9 (some gateResponse)]

end QuantumLlm.Runtime.ActiveExpert
