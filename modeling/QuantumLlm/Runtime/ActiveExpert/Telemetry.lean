import Mathlib.Algebra.Group.Pi.Basic
import QuantumLlm.Lib.Ledger
import QuantumLlm.Runtime.ActiveExpert.Exchange

/-!
# Telemetry of endpoints and requesters

Every exit of a submission, a poll or a cancellation adds to counters. What is added is
kept for each handle, and all of it together is the telemetry.
-/

namespace QuantumLlm.Runtime.ActiveExpert

/-- `AtomicTelemetry`. -/
inductive Counter where
  | requests
  | completed
  | failed
  | cancelled
  | deadlineExceeded
  | checksumFailures
  | activationInputBytes
  | activationOutputBytes
  | wireRequestBytes
  | wireResponseBytes
  | weightTransportBytes
  | ownerWeightReadBytes
  | ownerStorageReadBytes
  | ownerRamReadBytes
  | ownerVramReadBytes
  | ownerExecutionNs
  | transportWaitNs
  deriving DecidableEq

abbrev Telemetry := Counter → Nat

def fetchAdd (counter : Counter) (amount : Nat) : Telemetry := Pi.single counter amount

def addCompletion (value : ActiveExpertExecutionEvidence) : Telemetry :=
  fetchAdd .activationOutputBytes value.activationOutputBytes.toNat +
    fetchAdd .wireResponseBytes value.wireResponseBytes.toNat +
    fetchAdd .weightTransportBytes value.weightTransportBytes.toNat +
    fetchAdd .ownerWeightReadBytes value.ownerWeightReadBytes.toNat +
    fetchAdd .ownerStorageReadBytes value.ownerStorageReadBytes.toNat +
    fetchAdd .ownerRamReadBytes value.ownerRamReadBytes.toNat +
    fetchAdd .ownerVramReadBytes value.ownerVramReadBytes.toNat +
    fetchAdd .ownerExecutionNs value.ownerExecutionNs.toNat +
    fetchAdd .transportWaitNs value.transportWaitNs.toNat

/-- The digest of a frame was wrong. -/
def checksumFailure (status : Status) : Telemetry :=
  if status.code = .checksumMismatch then fetchAdd .checksumFailures 1 else 0

/-- The outcome of a result that is delivered. -/
def delivered (result : ActiveExpertExecutionResult) : Telemetry :=
  addCompletion result.evidence + if result.status.ok then fetchAdd .completed 1 else fetchAdd .failed 1

variable (sha256 : Bytes → Sha256Digest)

def submitAdds (decodedAt validatedAt : Int) (selected : Status) (requestFrame : Bytes) :
    Telemetry :=
  match decodeActiveExpertRequest sha256 decodedAt validatedAt requestFrame with
  | .error status => checksumFailure status
  | .ok (request, requestSha256) =>
    if !selected.ok then
      let answer := respond sha256 requestFrame
        (withWireBytes (failedResult request requestSha256 selected) requestFrame)
      fetchAdd .requests 1 + fetchAdd .failed 1 +
        fetchAdd .wireRequestBytes requestFrame.length +
        fetchAdd .wireResponseBytes answer.1.frame.length
    else
      fetchAdd .requests 1 + fetchAdd .activationInputBytes request.invocation.input.bytes.toNat +
        fetchAdd .wireRequestBytes requestFrame.length

def Owner.pollAdds (now : Int) (valid : Bool) (completed : Option ActiveExpertExecutionResult)
    (elapsed : UInt64) (owner : Owner) : Telemetry :=
  match owner.phase with
  | .terminal => 0
  | .answered _ => 0
  | .executing request requestSha256 =>
    if request.invocation.deadline ≠ deadlineMax ∧ request.invocation.deadline ≤ now then
      let encoded := encodeResponse sha256 (withWireBytes
        (failedResult request requestSha256
          ⟨.deadlineExceeded, ascii "active-expert owner execution deadline expired"⟩)
        owner.requestFrame)
      fetchAdd .failed 1 + fetchAdd .deadlineExceeded 1 +
        if encoded.1.ok then fetchAdd .wireResponseBytes encoded.2.2.length else 0
    else if !valid then fetchAdd .failed 1
    else
      match completed with
      | none => 0
      | some completed =>
        let encoded := encodeResponse sha256
          (ownerResult request requestSha256 owner.requestFrame elapsed completed)
        if !encoded.1.ok then fetchAdd .failed 1 else delivered encoded.2.1

def Owner.cancel (owner : Owner) : Owner := { owner with phase := .terminal }

def Owner.cancelAdds (owner : Owner) : Telemetry :=
  match owner.phase with
  | .terminal | .answered _ => 0
  | .executing _ _ => fetchAdd .cancelled 1

def executeAdds (validatedAt budgetedAt : Int) (accepted : Bool)
    (request : ActiveExpertExecutionRequest) : Telemetry :=
  match encodeActiveExpertRequest sha256 validatedAt budgetedAt request with
  | .error status =>
    fetchAdd .requests 1 + fetchAdd .failed 1 +
      if status.code = .deadlineExceeded then fetchAdd .deadlineExceeded 1 else 0
  | .ok (frame, _) =>
    if !accepted then fetchAdd .requests 1 + fetchAdd .failed 1
    else
      fetchAdd .requests 1 + fetchAdd .activationInputBytes request.invocation.input.bytes.toNat +
        fetchAdd .wireRequestBytes frame.length

/-- What a requester adds for a frame. -/
def remoteAdds (handle : RemoteHandle) (waited : UInt64) (wire : WireResult) : Telemetry :=
  if !wire.status.ok then checksumFailure wire.status + fetchAdd .failed 1
  else match decodeResponse sha256 wire.frame with
    | .error status => checksumFailure status + fetchAdd .failed 1
    | .ok result =>
      if result.identity ≠ handle.request.identity ∨
          result.requestId ≠ handle.request.invocation.requestId ∨
          result.invocationId ≠ handle.request.invocation.invocationId ∨
          result.selectionIndex ≠ handle.request.invocation.selectionIndex ∨
          constantTimeEqual result.requestSha256 handle.requestSha256 = false ∨
          result.evidence.weightTransportBytes ≠ 0 ∨
          (result.status.ok ∧ (result.output.abi ≠ handle.request.invocation.outputAbi ∨
            result.output.bytes ≠ handle.request.invocation.outputBytes)) then
        fetchAdd .failed 1
      else delivered (remoteResult sha256 handle waited wire)

def RemoteHandle.pollAdds (now : Int) (waited : UInt64) (wire : Option WireResult)
    (handle : RemoteHandle) : Telemetry :=
  match handle.phase with
  | .terminal => 0
  | .completed _ => 0
  | .waiting =>
    if handle.request.invocation.deadline ≠ deadlineMax ∧
        handle.request.invocation.deadline ≤ now then
      fetchAdd .failed 1 + fetchAdd .deadlineExceeded 1
    else
      match wire with
      | none => 0
      | some wire => remoteAdds sha256 handle waited wire

def RemoteHandle.cancel (handle : RemoteHandle) : RemoteHandle := { handle with phase := .terminal }

def RemoteHandle.cancelAdds (handle : RemoteHandle) : Telemetry :=
  match handle.phase with
  | .terminal | .completed _ => 0
  | .waiting => fetchAdd .cancelled 1

/-- A call of an endpoint or of one of its handles. A handle that is dropped is cancelled. -/
inductive EndpointCall where
  | submit (decodedAt validatedAt : Int) (selected : Status) (requestFrame : Bytes)
  | poll (handle : Nat) (now : Int) (valid : Bool) (completed : Option ActiveExpertExecutionResult)
      (elapsed : UInt64)
  | cancel (handle : Nat)

def endpointStep (endpoint : Ledger Owner Telemetry) : EndpointCall → Ledger Owner Telemetry
  | .submit decodedAt validatedAt selected requestFrame =>
    endpoint.opened ((Owner.submit sha256 decodedAt validatedAt selected requestFrame).1,
      submitAdds sha256 decodedAt validatedAt selected requestFrame)
  | .poll handle now valid completed elapsed =>
    endpoint.changed handle fun owner =>
      ((owner.poll sha256 now valid completed elapsed).1,
        owner.pollAdds sha256 now valid completed elapsed)
  | .cancel handle => endpoint.changed handle fun owner => (owner.cancel, owner.cancelAdds)

def endpointRun (calls : List EndpointCall) : Ledger Owner Telemetry :=
  calls.foldl (endpointStep sha256) { total := 0 }

/-- A call of a requester with an owner and a transport, or of one of its handles. -/
inductive RequesterCall where
  | execute (validatedAt budgetedAt : Int) (accepted : Bool) (request : ActiveExpertExecutionRequest)
  | poll (handle : Nat) (now : Int) (waited : UInt64) (wire : Option WireResult)
  | cancel (handle : Nat)

def requesterStep (requester : Ledger RemoteHandle Telemetry) :
    RequesterCall → Ledger RemoteHandle Telemetry
  | .execute validatedAt budgetedAt accepted request =>
    requester.opened (RemoteHandle.execute sha256 validatedAt budgetedAt accepted request,
      executeAdds sha256 validatedAt budgetedAt accepted request)
  | .poll handle now waited wire =>
    requester.changed handle fun remote =>
      (remote.poll sha256 now waited wire, remote.pollAdds sha256 now waited wire)
  | .cancel handle => requester.changed handle fun remote => (remote.cancel, remote.cancelAdds)

def requesterRun (calls : List RequesterCall) : Ledger RemoteHandle Telemetry :=
  calls.foldl (requesterStep sha256) { total := 0 }

variable {sha256} {share booked : Telemetry}

/-- What the telemetry says of one handle, by whether its invocation is still executing. -/
structure Settled (share : Telemetry) (executing : Bool) : Prop where
  once : share .requests =
    share .completed + share .failed + share .cancelled + executing.toNat
  counted : share .requests ≤ 1
  deadline : share .deadlineExceeded ≤ share .failed

/-- The end of an invocation. -/
structure Closes (booked : Telemetry) : Prop where
  requests : booked .requests = 0
  outcome : booked .completed + booked .failed + booked .cancelled = 1
  deadline : booked .deadlineExceeded ≤ booked .failed

theorem Settled.close (h : Settled share true) (hcloses : Closes booked) :
    Settled (share + booked) false := by
  obtain ⟨honce, hcounted, hdeadline⟩ := h
  obtain ⟨hrequests, houtcome, hless⟩ := hcloses
  simp only [Bool.toNat_true] at honce
  constructor
  · simp only [Pi.add_apply, Bool.toNat_false]
    omega
  · simp only [Pi.add_apply]
    omega
  · simp only [Pi.add_apply]
    omega

@[simp] theorem fetchAdd_apply {counter other : Counter} {amount : Nat} :
    fetchAdd counter amount other = if other = counter then amount else 0 := by
  simp [fetchAdd, Pi.single_apply]

theorem closes_failed : Closes (fetchAdd .failed 1) := by
  constructor <;> simp

theorem closes_cancelled : Closes (fetchAdd .cancelled 1) := by
  constructor <;> simp

theorem closes_expired {extra : Telemetry} (hrequests : extra .requests = 0)
    (houtcome : extra .completed + extra .failed + extra .cancelled = 0)
    (hdeadline : extra .deadlineExceeded = 0) :
    Closes (fetchAdd .failed 1 + fetchAdd .deadlineExceeded 1 + extra) := by
  constructor
  · simp [hrequests]
  · simp only [Pi.add_apply, fetchAdd_apply]
    simp
    omega
  · simp [hdeadline]

theorem closes_delivered {result : ActiveExpertExecutionResult} : Closes (delivered result) := by
  unfold delivered
  split
  · constructor <;> simp [addCompletion]
  · constructor <;> simp [addCompletion]

theorem closes_refused {status : Status} :
    Closes (checksumFailure status + fetchAdd .failed 1) := by
  unfold checksumFailure
  split
  · constructor <;> simp
  · constructor <;> simp

def Owner.isExecuting (owner : Owner) : Bool :=
  match owner.phase with
  | .executing _ _ => true
  | .answered _ | .terminal => false

theorem submit_settled {decodedAt validatedAt : Int} {selected : Status} {requestFrame : Bytes} :
    Settled (submitAdds sha256 decodedAt validatedAt selected requestFrame)
      (Owner.submit sha256 decodedAt validatedAt selected requestFrame).1.isExecuting := by
  unfold submitAdds Owner.submit
  cases decodeActiveExpertRequest sha256 decodedAt validatedAt requestFrame with
  | error status =>
    simp only [Owner.isExecuting, checksumFailure]
    split <;> constructor <;> simp
  | ok decoded =>
    simp only [Owner.isExecuting]
    by_cases hselected : selected.ok
    · simp only [hselected]
      constructor <;> simp
    · simp only [hselected]
      constructor <;> simp

theorem poll_settled {now : Int} {valid : Bool} {completed : Option ActiveExpertExecutionResult}
    {elapsed : UInt64} (owner : Owner) (share : Telemetry)
    (h : Settled share owner.isExecuting) :
    Settled (share + owner.pollAdds sha256 now valid completed elapsed)
      (owner.poll sha256 now valid completed elapsed).1.isExecuting := by
  unfold Owner.pollAdds Owner.poll
  cases hphase : owner.phase with
  | terminal => simpa [Owner.isExecuting, hphase] using h
  | answered wire => simpa [Owner.isExecuting, hphase] using h
  | executing request requestSha256 =>
    rw [Owner.isExecuting, hphase] at h
    simp only
    split
    · refine h.close (closes_expired ?_ ?_ ?_) <;> split <;> simp
    · split
      · exact h.close closes_failed
      · cases completed with
        | none => simpa [Owner.isExecuting, hphase] using h
        | some completed =>
          simp only [respond]
          by_cases hok : (encodeResponse sha256 (ownerResult request requestSha256
            owner.requestFrame elapsed completed)).1.ok = true
          · simp only [hok, Bool.not_true, Bool.false_eq_true, if_false]
            exact h.close closes_delivered
          · rw [Bool.not_eq_true] at hok
            simp only [hok, Bool.not_false, if_true]
            exact h.close closes_failed

theorem cancel_settled (owner : Owner) (share : Telemetry) (h : Settled share owner.isExecuting) :
    Settled (share + owner.cancelAdds) owner.cancel.isExecuting := by
  unfold Owner.cancelAdds
  cases hphase : owner.phase with
  | terminal => simpa [Owner.isExecuting, hphase, Owner.cancel] using h
  | answered wire => simpa [Owner.isExecuting, hphase, Owner.cancel] using h
  | executing request requestSha256 =>
    rw [Owner.isExecuting, hphase] at h
    exact h.close closes_cancelled

def RemoteHandle.isWaiting (handle : RemoteHandle) : Bool :=
  match handle.phase with
  | .waiting => true
  | .completed _ | .terminal => false

/-- A handle of a requester is always counted. -/
structure SettledCall (share : Telemetry) (waiting : Bool) : Prop
    extends Settled share waiting where
  request : share .requests = 1

theorem SettledCall.close (h : SettledCall share true) (hcloses : Closes booked) :
    SettledCall (share + booked) false where
  toSettled := h.toSettled.close hcloses
  request := by
    rw [Pi.add_apply, h.request, hcloses.requests]

theorem execute_settled {validatedAt budgetedAt : Int} {accepted : Bool}
    {request : ActiveExpertExecutionRequest} :
    SettledCall (executeAdds sha256 validatedAt budgetedAt accepted request)
      (RemoteHandle.execute sha256 validatedAt budgetedAt accepted request).isWaiting := by
  unfold executeAdds RemoteHandle.execute
  cases encodeActiveExpertRequest sha256 validatedAt budgetedAt request with
  | error status =>
    simp only [RemoteHandle.isWaiting]
    split
    · exact ⟨⟨by simp, by simp, by simp⟩, by simp⟩
    · exact ⟨⟨by simp, by simp, by simp⟩, by simp⟩
  | ok encoded =>
    cases accepted with
    | false => exact ⟨⟨by simp [RemoteHandle.isWaiting], by simp, by simp⟩, by simp⟩
    | true => exact ⟨⟨by simp [RemoteHandle.isWaiting], by simp, by simp⟩, by simp⟩

theorem remoteAdds_closes {handle : RemoteHandle} {waited : UInt64} {wire : WireResult} :
    Closes (remoteAdds sha256 handle waited wire) := by
  unfold remoteAdds
  split
  · exact closes_refused
  · split
    · exact closes_refused
    · split
      · exact closes_failed
      · exact closes_delivered

theorem remotePoll_settled {now : Int} {waited : UInt64} {wire : Option WireResult}
    (handle : RemoteHandle) (share : Telemetry) (h : SettledCall share handle.isWaiting) :
    SettledCall (share + handle.pollAdds sha256 now waited wire)
      (handle.poll sha256 now waited wire).isWaiting := by
  unfold RemoteHandle.pollAdds RemoteHandle.poll
  cases hphase : handle.phase with
  | terminal => simpa [RemoteHandle.isWaiting, hphase] using h
  | completed result => simpa [RemoteHandle.isWaiting, RemoteHandle.yields, hphase] using h
  | waiting =>
    rw [RemoteHandle.isWaiting, hphase] at h
    simp only
    split
    · have hcloses := @closes_expired 0 rfl rfl rfl
      exact h.close hcloses
    · cases wire with
      | none => simpa [RemoteHandle.isWaiting, hphase] using h
      | some wire => exact h.close remoteAdds_closes

theorem remoteCancel_settled (handle : RemoteHandle) (share : Telemetry)
    (h : SettledCall share handle.isWaiting) :
    SettledCall (share + handle.cancelAdds) handle.cancel.isWaiting := by
  unfold RemoteHandle.cancelAdds
  cases hphase : handle.phase with
  | terminal => simpa [RemoteHandle.isWaiting, hphase, RemoteHandle.cancel] using h
  | completed result => simpa [RemoteHandle.isWaiting, hphase, RemoteHandle.cancel] using h
  | waiting =>
    rw [RemoteHandle.isWaiting, hphase] at h
    exact h.close closes_cancelled

theorem endpointStep_sound {endpoint : Ledger Owner Telemetry}
    (h : endpoint.Sound fun owner share => Settled share owner.isExecuting)
    (call : EndpointCall) :
    (endpointStep sha256 endpoint call).Sound fun owner share =>
      Settled share owner.isExecuting := by
  cases call with
  | submit decodedAt validatedAt selected requestFrame => exact h.opened submit_settled
  | poll handle now valid completed elapsed =>
    simp only [endpointStep]
    exact h.changed poll_settled
  | cancel handle =>
    simp only [endpointStep]
    exact h.changed cancel_settled

theorem endpointRun_sound (calls : List EndpointCall) :
    (endpointRun sha256 calls).Sound fun owner share => Settled share owner.isExecuting := by
  induction calls using List.reverseRecOn with
  | nil => exact Ledger.sound_empty
  | append_singleton calls call ih =>
    rw [endpointRun, List.foldl_append]
    exact endpointStep_sound ih call

theorem requesterStep_sound {requester : Ledger RemoteHandle Telemetry}
    (h : requester.Sound fun handle share => SettledCall share handle.isWaiting)
    (call : RequesterCall) :
    (requesterStep sha256 requester call).Sound fun handle share =>
      SettledCall share handle.isWaiting := by
  cases call with
  | execute validatedAt budgetedAt accepted request => exact h.opened execute_settled
  | poll handle now waited wire =>
    simp only [requesterStep]
    exact h.changed remotePoll_settled
  | cancel handle =>
    simp only [requesterStep]
    exact h.changed remoteCancel_settled

theorem requesterRun_sound (calls : List RequesterCall) :
    (requesterRun sha256 calls).Sound fun handle share => SettledCall share handle.isWaiting := by
  induction calls using List.reverseRecOn with
  | nil => exact Ledger.sound_empty
  | append_singleton calls call ih =>
    rw [requesterRun, List.foldl_append]
    exact requesterStep_sound ih call

/-- Every handle settles once, and so does the telemetry with all of them. -/
structure Conserves {H : Type} (ledger : Ledger H Telemetry) (executing : H → Bool) : Prop where
  handles : ∀ account ∈ ledger.accounts, Settled account.2 (executing account.1)
  total : ledger.total = (ledger.accounts.map Prod.snd).sum
  requests : ledger.total .requests = ledger.total .completed + ledger.total .failed +
    ledger.total .cancelled + ledger.accounts.countP fun account => executing account.1
  deadline : ledger.total .deadlineExceeded ≤ ledger.total .failed

theorem conserves_of_settled {H : Type} {ledger : Ledger H Telemetry} {executing : H → Bool}
    (h : ledger.Sound fun handle share => Settled share (executing handle)) :
    Conserves ledger executing := by
  have hsum : ∀ accounts : List (H × Telemetry),
      (∀ account ∈ accounts, Settled account.2 (executing account.1)) →
      let total := (accounts.map Prod.snd).sum
      total .requests = total .completed + total .failed + total .cancelled +
          (accounts.countP fun account => executing account.1) ∧
        total .deadlineExceeded ≤ total .failed := by
    intro accounts hall
    induction accounts with
    | nil => exact ⟨rfl, Nat.le_refl 0⟩
    | cons account rest ih =>
      obtain ⟨honce, -, hdeadline⟩ := hall account List.mem_cons_self
      obtain ⟨hrequests, hrest⟩ := ih fun other hother => hall other (List.mem_cons_of_mem _ hother)
      simp only [List.map_cons, List.sum_cons, Pi.add_apply, List.countP_cons]
      cases hexecuting : executing account.1 with
      | false =>
        rw [hexecuting, Bool.toNat_false] at honce
        constructor
        · simp only [Bool.false_eq_true, if_false]
          omega
        · omega
      | true =>
        rw [hexecuting, Bool.toNat_true] at honce
        constructor
        · simp only [if_true]
          omega
        · omega
  have htotal := hsum ledger.accounts h.accounts
  rw [← h.total] at htotal
  exact ⟨h.accounts, h.total, htotal.1, htotal.2⟩

/-- An endpoint counts the frames that decode, and a requester every call. What they have counted
is settled, once for each handle, or still executing. -/
theorem telemetry_conserves (sha256 : Bytes → Sha256Digest) :
    (∀ calls, Conserves (endpointRun sha256 calls) Owner.isExecuting) ∧
    (∀ decodedAt validatedAt selected requestFrame,
      submitAdds sha256 decodedAt validatedAt selected requestFrame .requests =
        if (decodeActiveExpertRequest sha256 decodedAt validatedAt requestFrame).isOk then 1
        else 0) ∧
    ∀ calls, Conserves (requesterRun sha256 calls) RemoteHandle.isWaiting ∧
      ∀ account ∈ (requesterRun sha256 calls).accounts, account.2 .requests = 1 := by
  refine ⟨fun calls => conserves_of_settled (endpointRun_sound calls), ?_, fun calls => ?_⟩
  · intro decodedAt validatedAt selected requestFrame
    unfold submitAdds
    cases decodeActiveExpertRequest sha256 decodedAt validatedAt requestFrame with
    | error status =>
      simp only [checksumFailure, Except.isOk, Except.toBool]
      split <;> simp
    | ok decoded =>
      simp only [Except.isOk, Except.toBool]
      split <;> simp
  · have hsound := @requesterRun_sound sha256 calls
    refine ⟨conserves_of_settled ⟨fun account hmem => (hsound.accounts account hmem).toSettled,
      hsound.total⟩, fun account hmem => (hsound.accounts account hmem).request⟩

/-- A frame that does not decode leaves a handle, but no request; and a request that does not
encode has failed while its handle is still to be polled. -/
theorem handles_not_conserved :
    ¬ ((∀ sha256 calls, (endpointRun sha256 calls).total .requests =
        (endpointRun sha256 calls).total .completed + (endpointRun sha256 calls).total .failed +
          (endpointRun sha256 calls).total .cancelled +
          (endpointRun sha256 calls).accounts.countP fun account =>
            match account.1.phase with
            | .terminal => false
            | .answered _ | .executing _ _ => true) ∧
      ∀ sha256 calls, (requesterRun sha256 calls).total .requests =
        (requesterRun sha256 calls).total .completed + (requesterRun sha256 calls).total .failed +
          (requesterRun sha256 calls).total .cancelled +
          (requesterRun sha256 calls).accounts.countP fun account =>
            match account.1.phase with
            | .terminal => false
            | .completed _ | .waiting => true) := by
  rintro ⟨h, -⟩
  exact absurd (h (fun _ => zeroDigest) [.submit 0 0 {} []]) (by decide)

end QuantumLlm.Runtime.ActiveExpert
