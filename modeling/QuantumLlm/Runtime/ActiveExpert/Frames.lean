import QuantumLlm.Runtime.ActiveExpert.Wire

/-!
# Active-expert wire frames: what is accepted

Each reader belongs to its writer, so a frame that is accepted is one that was
written; what is left open is which checks only one of the two sides makes.
-/

namespace QuantumLlm.Runtime.ActiveExpert

open List

theorem findFirstOf_control (value : Text) : findFirstOf value controlLiteral = none := by
  have hempty : cString controlLiteral = [] := rfl
  simp [findFirstOf, hempty]

theorem reads_text : Reads readText writeText fun value => value.length ≤ 4096 := by
  have hmaximum : kMaximumStringBytes.toNat = 4096 := rfl
  intro bytes value rest
  simp only [readText, run_bind_iff, run_require_iff, run_pure_iff]
  constructor
  · rintro ⟨size, _, hsize, _, _, ⟨hle, rfl⟩, taken, _, htaken, _, _, ⟨-, rfl⟩, rfl, rfl⟩
    obtain ⟨-, rfl⟩ := reads_u32.run_iff.1 hsize
    obtain ⟨hlength, rfl⟩ := (reads_takeBytes _).run_iff.1 htaken
    have hshort : size.toNat ≤ 4096 := by
      exact UInt32.le_iff_toNat_le.1 (UInt32.not_lt.1 hle)
    refine ⟨hlength ▸ hshort, ?_⟩
    rw [writeText, hlength, UInt32.ofNat_toNat, append_assoc]
    rfl
  · rintro ⟨hshort, rfl⟩
    have hsize : (UInt32.ofNat value.length).toNat = value.length := by
      rw [UInt32.toNat_ofNat', Nat.mod_eq_of_lt (by omega)]
    have hle : ¬ UInt32.ofNat value.length > kMaximumStringBytes := by
      rw [gt_iff_lt, UInt32.lt_iff_toNat_lt, hsize, hmaximum]
      omega
    refine ⟨_, _, takeU32_put _ _, (), _, ⟨hle, rfl⟩, value, rest, ?_, (), rest,
      ⟨findFirstOf_control value, rfl⟩, rfl, rfl⟩
    exact (reads_takeBytes _).run_append hsize.symm

theorem reads_header (kind : UInt16) :
    Reads (readHeader kind) (fun _ => writeHeader kind) fun _ => True := by
  intro bytes value rest
  simp only [readHeader, run_bind_iff, run_require_iff]
  constructor
  · rintro ⟨magic, _, hmagic, _, _, ⟨rfl, rfl⟩, version, _, hversion, _, _, ⟨rfl, rfl⟩, found, _,
      hfound, rfl, rfl⟩
    obtain ⟨-, rfl⟩ := (reads_takeBytes _).run_iff.1 hmagic
    obtain ⟨-, rfl⟩ := reads_u16.run_iff.1 hversion
    obtain ⟨-, rfl⟩ := reads_u16.run_iff.1 hfound
    exact ⟨trivial, by simp [writeHeader]⟩
  · rintro ⟨-, rfl⟩
    rw [writeHeader, append_assoc, append_assoc]
    exact ⟨_, _, (reads_takeBytes _).run_append rfl, (), _, ⟨rfl, rfl⟩, _, _, takeU16_put _ _, (), _,
      ⟨rfl, rfl⟩, _, _, takeU16_put _ _, rfl, rfl⟩

theorem reads_identity :
    Reads readIdentity writeIdentity fun identity => identity.capability.length ≤ 4096 := by
  intro bytes value rest
  simp only [readIdentity, run_bind_iff, run_pure_iff, reads_digest.run_iff, reads_u64.run_iff,
    reads_u32.run_iff, reads_text.run_iff, true_and]
  constructor
  · rintro ⟨hash, _, rfl, modelId, _, rfl, layer, _, rfl, expert, _, rfl, encoding, _, rfl,
      execution, _, rfl, source, _, rfl, capability, _, ⟨hshort, rfl⟩, rfl, rfl⟩
    exact ⟨hshort, by simp [writeIdentity]⟩
  · rintro ⟨hshort, rfl⟩
    simp only [writeIdentity, append_assoc]
    exact ⟨_, _, rfl, _, _, rfl, _, _, rfl, _, _, rfl, _, _, rfl, _, _, rfl, _, _, rfl, _, _,
      ⟨hshort, rfl⟩, rfl, rfl⟩

section

variable {abi : Text} {content : Bytes} {buffer : ActiveExpertBuffer}

theorem hostWire_eq (hlong : content.length < 2 ^ 64) :
    hostWire abi content =
      { abi, memoryDomain := "host.wire", owner := true, data := some content
        bytes := UInt64.ofNat content.length
        spans := by
          rintro memory ⟨⟩
          rw [UInt64.toNat_ofNat', Nat.mod_eq_of_lt hlong] } := by
  rw [hostWire, dif_pos hlong]

theorem content_length (h : buffer.valid) : buffer.content.length = buffer.bytes.toNat := by
  simp only [ActiveExpertBuffer.valid, Bool.and_eq_true] at h
  obtain ⟨memory, hmemory⟩ := Option.isSome_iff_exists.1 h.1.2
  rw [ActiveExpertBuffer.content, hmemory]
  exact buffer.spans memory hmemory

theorem hostWire_content (h : buffer.valid) :
    hostWire buffer.abi buffer.content = { buffer with memoryDomain := "host.wire" } := by
  have hlength := content_length h
  have hlong : buffer.content.length < 2 ^ 64 := by
    rw [hlength]
    exact buffer.bytes.toNat_lt
  simp only [ActiveExpertBuffer.valid, Bool.and_eq_true] at h
  obtain ⟨memory, hmemory⟩ := Option.isSome_iff_exists.1 h.1.2
  have hcontent : buffer.content = memory := by rw [ActiveExpertBuffer.content, hmemory]; rfl
  rw [hostWire_eq hlong]
  simp only [ActiveExpertBuffer.mk.injEq, true_and]
  refine ⟨h.1.1.2.symm, ?_, ?_⟩
  · rw [hcontent]
    exact hmemory.symm
  · rw [hlength]
    exact UInt64.ofNat_toNat

end

theorem reads_code : Reads readCode (fun code => putU8 (ErrorCode.value code)) fun _ => True := by
  intro bytes value rest
  simp only [readCode, run_bind_iff]
  constructor
  · rintro ⟨code, middle, hcode, hrun⟩
    obtain ⟨-, rfl⟩ := reads_u8.run_iff.1 hcode
    split at hrun
    next known hknown =>
      obtain ⟨rfl, rfl⟩ := run_pure_iff.1 hrun
      have hvalue : ErrorCode.value known = code := by simpa using find?_some hknown
      exact ⟨trivial, by rw [hvalue]⟩
    next => cases hrun
  · rintro ⟨-, rfl⟩
    refine ⟨_, _, takeU8_put _ _, ?_⟩
    cases value <;> rfl

theorem reads_evidence : Reads readEvidence writeEvidence fun _ => True := by
  intro bytes value rest
  simp only [readEvidence, run_bind_iff, run_pure_iff, reads_u64.run_iff, true_and]
  constructor
  · rintro ⟨_, _, rfl, _, _, rfl, _, _, rfl, _, _, rfl, _, _, rfl, _, _, rfl, _, _, rfl, _, _, rfl,
      _, _, rfl, _, _, rfl, _, _, rfl, rfl, rfl⟩
    simp [writeEvidence]
  · rintro rfl
    simp only [writeEvidence, append_assoc]
    exact ⟨_, _, rfl, _, _, rfl, _, _, rfl, _, _, rfl, _, _, rfl, _, _, rfl, _, _, rfl, _, _, rfl,
      _, _, rfl, _, _, rfl, _, _, rfl, rfl, rfl⟩

/-- The texts of a response fit the reader's limit. -/
def ResponseFields.Short (fields : ResponseFields) : Prop :=
  fields.identity.capability.length ≤ 4096 ∧ fields.message.length ≤ 4096 ∧
    fields.outputAbi.length ≤ 4096

theorem reads_responseFields :
    Reads readResponseFields writeResponseFields ResponseFields.Short := by
  intro bytes value rest
  simp only [readResponseFields, run_bind_iff, run_pure_iff, (reads_header _).run_iff,
    reads_u64.run_iff, reads_u32.run_iff, reads_identity.run_iff, reads_digest.run_iff,
    reads_code.run_iff, reads_text.run_iff, reads_evidence.run_iff, true_and]
  constructor
  · rintro ⟨_, _, rfl, _, _, rfl, _, _, rfl, _, _, rfl, _, _, ⟨hcapability, rfl⟩, _, _, rfl, _, _,
      rfl, _, _, ⟨hmessage, rfl⟩, _, _, ⟨habi, rfl⟩, _, _, rfl, _, _, rfl, rfl, rfl⟩
    exact ⟨⟨hcapability, hmessage, habi⟩, by simp [writeResponseFields]⟩
  · rintro ⟨⟨hcapability, hmessage, habi⟩, rfl⟩
    simp only [writeResponseFields, append_assoc]
    exact ⟨(), _, rfl, _, _, rfl, _, _, rfl, _, _, rfl, _, _, ⟨hcapability, rfl⟩, _, _, rfl, _, _,
      rfl, _, _, ⟨hmessage, rfl⟩, _, _, ⟨habi, rfl⟩, _, _, rfl, _, _, rfl, rfl, rfl⟩

variable {sha256 : Bytes → Sha256Digest} {frame : Bytes} {result : ActiveExpertExecutionResult}

theorem decodeResponse_ok (h : decodeResponse sha256 frame = .ok result) :
    ∃ (fields : ResponseFields) (rest : Bytes), fields.Short ∧
      frame = sealed sha256 (writeResponseFields fields ++ rest) ∧
      frame.length ≤ kMaximumFrameBytes ∧
      result = fields.result (if fields.code = .ok then hostWire fields.outputAbi rest else {}) := by
  unfold decodeResponse at h
  split at h
  next => cases h
  next hsize =>
    split at h
    next => cases h
    next hauthentic =>
      split at h
      next => cases h
      next fields rest hrun =>
        obtain ⟨hshort, hpayload⟩ := reads_responseFields.run_iff.1 hrun
        simp only at h
        split at h
        next => cases h
        next =>
          split at h
          next => cases h
          next =>
            split at h
            next => cases h
            next =>
              split at h
              next => cases h
              next hrest =>
                cases h
                have hlong : 32 ≤ frame.length := by
                  omega
                have hframe := eq_sealed hlong (not_not.1 hauthentic)
                rw [hpayload] at hframe
                refine ⟨fields, rest, hshort, hframe, by omega, ?_⟩
                unfold ResponseFields.takeOutput at hrest ⊢
                by_cases hok : fields.code = .ok
                · simp only [hok, if_true, not_or, not_not, ne_eq] at hrest ⊢
                  rw [take_of_length_le (drop_eq_nil_iff.1 hrest.1)]
                · simp only [hok, if_false]

theorem decodeResponse_error {status : Status}
    (h : decodeResponse sha256 frame = .error status) : status.ok = false := by
  unfold decodeResponse at h
  repeat' split at h
  all_goals first | (cases h; rfl) | cases h

theorem encodeResponse_ok (hcapability : result.identity.capability.length ≤ 4096)
    (h : (encodeResponse sha256 result).1.ok) :
    (encodeResponse sha256 result).2.2 =
        encodeResponseOnce sha256 (encodeResponse sha256 result).2.1 ∧
      (encodeResponse sha256 result).2.1.fields.Short ∧
      (encodeResponse sha256 result).2.1.requestSha256 = result.requestSha256 := by
  have hmaximum : kMaximumStringBytes.toNat = 4096 := rfl
  unfold encodeResponse at h ⊢
  split at h
  next => cases h
  next hidentity =>
    rw [if_neg hidentity]
    split at h
    next => cases h
    next houtput =>
      rw [if_neg houtput]
      split at h
      next => cases h
      next hlong =>
        rw [if_neg hlong]
        simp only at h ⊢
        split at h
        next => cases h
        next hsize =>
          rw [if_neg hsize]
          simp only [not_or, not_and, gt_iff_lt, Nat.not_lt, hmaximum] at hlong
          refine ⟨rfl, ⟨hcapability, hlong.1, ?_⟩, rfl⟩
          simp only [ActiveExpertExecutionResult.fields]
          split
          next hok => exact hlong.2 hok
          next => exact Nat.zero_le _

def writeRequestFields (fields : RequestFields) : Bytes :=
  writeHeader kRequestFrame ++ putU64 fields.requestId ++ putU64 fields.invocationId ++
    putU32 fields.selectionIndex ++ putU32 fields.routeWidth ++ putU64 fields.budget ++
    writeIdentity fields.identity ++ writeText fields.inputAbi ++ writeText fields.outputAbi ++
    putU64 fields.outputBytes ++ putU64 fields.inputBytes

/-- The texts of a request fit the reader's limit. -/
def RequestFields.Short (fields : RequestFields) : Prop :=
  fields.identity.capability.length ≤ 4096 ∧ fields.inputAbi.length ≤ 4096 ∧
    fields.outputAbi.length ≤ 4096

theorem run_requestFields_iff {bytes rest : Bytes} {fields : RequestFields} :
    readRequestFields.run bytes = some (fields, rest) ↔
      fields.Short ∧ fields.inputBytes ≠ 0 ∧ fields.inputBytes.toNat ≤ rest.length ∧
        bytes = writeRequestFields fields ++ rest := by
  simp only [readRequestFields, run_bind_iff, run_require_iff, run_remaining_iff, run_pure_iff,
    (reads_header _).run_iff, reads_u64.run_iff, reads_u32.run_iff, reads_identity.run_iff,
    reads_text.run_iff, true_and]
  constructor
  · rintro ⟨_, _, rfl, requestId, _, rfl, invocationId, _, rfl, selection, _, rfl, width, _, rfl,
      _, _, ⟨-, rfl⟩, _, _, ⟨-, rfl⟩, budget, _, rfl, identity, _, ⟨hcapability, rfl⟩, inputAbi, _,
      ⟨hinputShort, rfl⟩, outputAbi, _, ⟨houtputShort, rfl⟩, outputBytes, _, rfl, inputBytes, _,
      rfl, _, _, ⟨hnonzero, rfl⟩, _, _, ⟨rfl, rfl⟩, _, _, ⟨hle, rfl⟩, rfl, rfl⟩
    exact ⟨⟨hcapability, hinputShort, houtputShort⟩, hnonzero, Nat.le_of_not_lt hle, by
      simp [writeRequestFields]⟩
  · rintro ⟨⟨hcapability, hinputShort, houtputShort⟩, hnonzero, hle, rfl⟩
    simp only [writeRequestFields, append_assoc]
    refine ⟨(), _, rfl, _, _, rfl, _, _, rfl, _, _, rfl, _, _, rfl, _, _, ⟨rfl, rfl⟩, (), _,
      ⟨?_, rfl⟩, _, _, rfl, _, _, ⟨hcapability, rfl⟩, _, _, ⟨hinputShort, rfl⟩, _, _,
      ⟨houtputShort, rfl⟩, _, _, rfl, _, _, rfl, (), _, ⟨hnonzero, rfl⟩, _, _, ⟨rfl, rfl⟩, (), _,
      ⟨Nat.not_lt.2 hle, rfl⟩, rfl, rfl⟩
    rw [length_append, putU64_length]
    omega

/-- The fields the writer puts in front of the input. -/
def ActiveExpertExecutionRequest.fields (request : ActiveExpertExecutionRequest) (budget : UInt64) :
    RequestFields where
  requestId := request.invocation.requestId
  invocationId := request.invocation.invocationId
  selectionIndex := request.invocation.selectionIndex
  routeWidth := request.invocation.routeWidth
  budget
  identity := request.identity
  inputAbi := request.invocation.input.abi
  outputAbi := request.invocation.outputAbi
  outputBytes := request.invocation.outputBytes
  inputBytes := request.invocation.input.bytes

theorem requestPayload_eq {budget : UInt64} {request : ActiveExpertExecutionRequest} :
    requestPayload budget request =
      writeRequestFields (request.fields budget) ++ request.invocation.input.content := by
  simp [requestPayload, writeRequestFields, ActiveExpertExecutionRequest.fields]

def ActiveExpertExecutionRequest.texts (request : ActiveExpertExecutionRequest) : List Text :=
  [request.identity.capability, request.invocation.input.abi, request.invocation.outputAbi]

/-- The request as it arrives: its input is memory of the receiver. -/
def ActiveExpertExecutionRequest.onWire (request : ActiveExpertExecutionRequest) :
    ActiveExpertExecutionRequest :=
  { request with invocation :=
    { request.invocation with input :=
      { request.invocation.input with memoryDomain := "host.wire" } } }

section

variable (sha256 : Bytes → Sha256Digest)

def wireFrame (request : ActiveExpertExecutionRequest) : Bytes :=
  sealed sha256 (requestPayload unlimitedBudget request)

/-- The checks both sides make of a request without a deadline. -/
structure WellFormed (request : ActiveExpertExecutionRequest) : Prop where
  unlimited : request.invocation.deadline = deadlineMax
  identity : (validateIdentity request.identity).ok
  invocation : (validateInvocation 0 request.invocation).ok
  short : ∀ text ∈ request.texts, text.length ≤ 4096
  size : (wireFrame sha256 request).length ≤ kMaximumFrameBytes

/-- What only the sender checks. -/
structure Sendable (request : ActiveExpertExecutionRequest) : Prop
    extends WellFormed sha256 request where
  domain : request.invocation.input.memoryDomain ∈ ["host", "host.pinned", "host.wire"]
  output : request.invocation.outputBytes.toNat ≤ kMaximumFrameBytes

variable {sha256} {request : ActiveExpertExecutionRequest} {frame : Bytes} {digest : Sha256Digest}
  {validatedAt budgetedAt decodedAt : Int}

theorem validateInvocation_clock {invocation : ActiveExpertInvocation}
    (hdeadline : invocation.deadline = deadlineMax) :
    validateInvocation validatedAt invocation = validateInvocation 0 invocation := by
  simp [validateInvocation, hdeadline]

theorem invocation_valid (h : (validateInvocation validatedAt request.invocation).ok) :
    request.invocation.input.valid = true := by
  by_contra hinvalid
  have hfalse : request.invocation.input.valid = false := by simpa using hinvalid
  simp [validateInvocation, hfalse, Status.ok] at h

theorem content_le_size : request.invocation.input.content.length ≤
    (wireFrame sha256 request).length := by
  rw [wireFrame, sealed_length, requestPayload_eq, length_append]
  omega

theorem encode_ok_iff (hunlimited : request.invocation.deadline = deadlineMax) :
    encodeActiveExpertRequest sha256 validatedAt budgetedAt request = .ok (frame, digest) ↔
      Sendable sha256 request ∧ frame = wireFrame sha256 request ∧
        digest = sha256 (requestPayload unlimitedBudget request) := by
  have hbudget : deadlineBudget budgetedAt request.invocation.deadline = unlimitedBudget :=
    if_pos hunlimited
  have hnonzero : ¬ unlimitedBudget = 0 := by decide
  have hmaximum : kMaximumStringBytes.toNat = 4096 := rfl
  unfold encodeActiveExpertRequest
  simp only [hbudget, hnonzero, if_false, validateInvocation_clock hunlimited, hmaximum]
  constructor
  · intro h
    split at h
    next => cases h
    next hidentity =>
      split at h
      next => cases h
      next hinvocation =>
        split at h
        next => cases h
        next hdomain =>
          split at h
          next => cases h
          next hshort =>
            split at h
            next => cases h
            next hsize =>
              cases h
              simp only [not_or, gt_iff_lt, Nat.not_lt] at hshort
              refine ⟨⟨⟨hunlimited, by simpa using hidentity, by simpa using hinvocation, ?_,
                Nat.le_of_not_lt hsize⟩, ?_, hshort.2.2.2.2⟩, rfl, rfl⟩
              · simpa [ActiveExpertExecutionRequest.texts] using
                  ⟨hshort.1, hshort.2.1, hshort.2.2.1⟩
              · by_contra hnot
                simp only [mem_cons, not_mem_nil, or_false, not_or] at hnot
                exact hdomain hnot
  · rintro ⟨h, rfl, rfl⟩
    have hcontent := content_length (invocation_valid h.invocation)
    have hbytes := @content_le_size sha256 request
    have hsize := h.size
    have hdomain : ¬ (request.invocation.input.memoryDomain ≠ "host" ∧
        request.invocation.input.memoryDomain ≠ "host.pinned" ∧
        request.invocation.input.memoryDomain ≠ "host.wire") := by
      rintro ⟨hhost, hpinned, hwire⟩
      have hmem := h.domain
      simp [hhost, hpinned, hwire] at hmem
    have hshort : ∀ text ∈ request.texts, ¬ text.length > 4096 := fun text htext =>
      Nat.not_lt.2 (h.short text htext)
    simp only [ActiveExpertExecutionRequest.texts, mem_cons, not_mem_nil, or_false,
      forall_eq_or_imp, forall_eq] at hshort
    have hlarge : ¬ (request.identity.capability.length > 4096 ∨
        request.invocation.input.abi.length > 4096 ∨ request.invocation.outputAbi.length > 4096 ∨
        request.invocation.input.bytes.toNat > kMaximumFrameBytes ∨
        request.invocation.outputBytes.toNat > kMaximumFrameBytes) := by
      rintro (hbad | hbad | hbad | hbad | hbad)
      · exact hshort.1 hbad
      · exact hshort.2.1 hbad
      · exact hshort.2.2 hbad
      · omega
      · exact absurd h.output (Nat.not_le.2 hbad)
    have hfits : ¬ (sealed sha256 (requestPayload unlimitedBudget request)).length >
        kMaximumFrameBytes := Nat.not_lt.2 hsize
    rw [if_neg (by simp [h.identity]), if_neg (by simp [h.invocation]), if_neg hdomain,
      if_neg hlarge, if_neg hfits]
    rfl

theorem decode_ok_iff :
    decodeActiveExpertRequest sha256 decodedAt validatedAt frame = .ok (request, digest) ↔
      ∃ (fields : RequestFields) (input : Bytes),
        (fields.Short ∧ fields.inputBytes ≠ 0 ∧ input.length = fields.inputBytes.toNat ∧
          fields.budget ≠ 0) ∧
        (frame = sealed sha256 (writeRequestFields fields ++ input) ∧
          frame.length ≤ kMaximumFrameBytes) ∧
        (validateIdentity request.identity).ok ∧
        (validateInvocation validatedAt request.invocation).ok ∧
        request = fields.request (decodeDeadline decodedAt fields.budget) input ∧
        digest = sha256 (writeRequestFields fields ++ input) := by
  have hmagic : kWireMagic.length + 4 + 32 = 44 := rfl
  unfold decodeActiveExpertRequest
  rw [hmagic]
  constructor
  · intro h
    split at h
    next => cases h
    next hsize =>
      split at h
      next => cases h
      next hauthentic =>
        split at h
        next => cases h
        next fields rest hrun =>
          obtain ⟨hshort, hnonzero, hle, hpayload⟩ := run_requestFields_iff.1 hrun
          simp only at h
          split at h
          next => cases h
          next htrailing =>
            split at h
            next => cases h
            next hidentity =>
              split at h
              next => cases h
              next hinvocation =>
                cases h
                simp only [not_or, not_not, ne_eq, gt_iff_lt, Nat.not_lt, Nat.not_le] at htrailing hsize
                have hinput : rest.take fields.inputBytes.toNat = rest := by
                  rw [take_of_length_le (drop_eq_nil_iff.1 htrailing.1)]
                have hframe := eq_sealed (by omega) (not_not.1 hauthentic)
                rw [hpayload] at hframe
                refine ⟨fields, rest, ⟨hshort, hnonzero, Nat.le_antisymm
                  (drop_eq_nil_iff.1 htrailing.1) hle, htrailing.2⟩, ⟨hframe, hsize.2⟩,
                  by simpa using hidentity, by simpa using hinvocation, by rw [hinput], ?_⟩
                rw [hframe, claimedOf_sealed]
  · rintro ⟨fields, input, ⟨hshort, hnonzero, hlength, hbudget⟩, ⟨rfl, hsize⟩, hidentity,
      hinvocation, rfl, rfl⟩
    have hlong : ¬ ((sealed sha256 (writeRequestFields fields ++ input)).length ≤ 44 ∨
        (sealed sha256 (writeRequestFields fields ++ input)).length > kMaximumFrameBytes) := by
      have hfields : 12 < (writeRequestFields fields).length := by
        simp only [writeRequestFields, length_append, putU64_length]
        omega
      rw [sealed_length, length_append] at hsize ⊢
      omega
    have hrun : readRequestFields.run (payloadOf (sealed sha256 (writeRequestFields fields ++ input)))
        = some (fields, input) := by
      rw [payloadOf_sealed]
      exact run_requestFields_iff.2 ⟨hshort, hnonzero, Nat.le_of_eq hlength.symm, rfl⟩
    have hdrop : input.drop fields.inputBytes.toNat = [] :=
      drop_eq_nil_of_le (Nat.le_of_eq hlength)
    have htake : input.take fields.inputBytes.toNat = input :=
      take_of_length_le (Nat.le_of_eq hlength)
    rw [if_neg hlong, if_neg (not_not.2 authentic_sealed), hrun]
    simp [hdrop, htake, hbudget, hidentity, hinvocation]

/-- The budget field of the frame asks for no deadline. -/
def UnlimitedBudget (frame : Bytes) : Prop := (frame.drop 36).take 8 = putU64 unlimitedBudget

theorem unlimitedBudget_iff {fields : RequestFields} {rest : Bytes} :
    UnlimitedBudget (writeRequestFields fields ++ rest) ↔ fields.budget = unlimitedBudget := by
  have hsplit : writeRequestFields fields ++ rest =
      (writeHeader kRequestFrame ++ putU64 fields.requestId ++ putU64 fields.invocationId ++
        putU32 fields.selectionIndex ++ putU32 fields.routeWidth) ++ (putU64 fields.budget ++
        (writeIdentity fields.identity ++ (writeText fields.inputAbi ++ (writeText fields.outputAbi ++
          (putU64 fields.outputBytes ++ (putU64 fields.inputBytes ++ rest)))))) := by
    simp [writeRequestFields]
  have hheader : (writeHeader kRequestFrame).length = 12 := rfl
  have hbefore : (writeHeader kRequestFrame ++ putU64 fields.requestId ++
      putU64 fields.invocationId ++ putU32 fields.selectionIndex ++
      putU32 fields.routeWidth).length = 36 := by
    simp [hheader]
  rw [UnlimitedBudget, hsplit, drop_left' hbefore, take_left' (putU64_length _)]
  constructor
  · intro hsame
    have hread := takeU64_put fields.budget []
    rw [hsame, takeU64_put] at hread
    exact (Prod.mk.inj (Option.some.inj hread)).1.symm
  · intro hsame
    rw [hsame]

theorem decode_wireFrame (h : WellFormed sha256 request) :
    decodeActiveExpertRequest sha256 decodedAt validatedAt (wireFrame sha256 request) =
      .ok (request.onWire, sha256 (requestPayload unlimitedBudget request)) := by
  have hvalid := invocation_valid h.invocation
  have hcontent := content_length hvalid
  have hbudget : unlimitedBudget ≠ 0 := by decide
  have hshort := h.short
  simp only [ActiveExpertExecutionRequest.texts, mem_cons, not_mem_nil, or_false,
    forall_eq_or_imp, forall_eq] at hshort
  have hnonzero : request.invocation.input.bytes ≠ 0 := by
    simp only [ActiveExpertBuffer.valid, Bool.and_eq_true] at hvalid
    simpa using hvalid.2
  have hrequest : request.onWire = (request.fields unlimitedBudget).request
      (decodeDeadline decodedAt unlimitedBudget) request.invocation.input.content := by
    have hdeadline : decodeDeadline decodedAt unlimitedBudget = request.invocation.deadline :=
      (if_pos rfl).trans h.unlimited.symm
    rw [RequestFields.request, hdeadline]
    show _ = (⟨_, { request.invocation with
      input := hostWire request.invocation.input.abi request.invocation.input.content }⟩ :
        ActiveExpertExecutionRequest)
    rw [hostWire_content hvalid]
    rfl
  have hinvocation : (validateInvocation validatedAt request.onWire.invocation).ok := by
    have hwire : request.onWire.invocation.input.valid = true := by
      simp only [ActiveExpertBuffer.valid, Bool.and_eq_true] at hvalid ⊢
      exact ⟨⟨⟨⟨hvalid.1.1.1.1, rfl⟩, hvalid.1.1.2⟩, hvalid.1.2⟩, hvalid.2⟩
    have hsame : validateInvocation 0 request.onWire.invocation =
        validateInvocation 0 request.invocation := by
      unfold validateInvocation
      rw [hwire, hvalid]
      rfl
    have hdeadline : request.onWire.invocation.deadline = deadlineMax := h.unlimited
    rw [validateInvocation_clock hdeadline, hsame]
    exact h.invocation
  rw [decode_ok_iff]
  refine ⟨request.fields unlimitedBudget, request.invocation.input.content,
    ⟨hshort, hnonzero, hcontent, hbudget⟩, ⟨?_, h.size⟩, h.identity, hinvocation, hrequest, ?_⟩
  · rw [wireFrame, requestPayload_eq]
  · rw [requestPayload_eq]

theorem decode_unlimited (hbudget : UnlimitedBudget frame)
    (h : decodeActiveExpertRequest sha256 decodedAt validatedAt frame = .ok (request, digest)) :
    WellFormed sha256 request ∧ request.invocation.input.memoryDomain = "host.wire" ∧
      frame = wireFrame sha256 request ∧
      digest = sha256 (requestPayload unlimitedBudget request) := by
  obtain ⟨fields, input, ⟨hshort, hnonzero, hlength, -⟩, ⟨hframe, hsize⟩, hidentity, hinvocation,
    hrequest, hdigest⟩ := decode_ok_iff.1 h
  have hunlimited : fields.budget = unlimitedBudget := by
    rw [hframe, sealed, append_assoc] at hbudget
    exact unlimitedBudget_iff.1 hbudget
  have hlong : input.length < 2 ^ 64 := by
    rw [hlength]
    exact fields.inputBytes.toNat_lt
  have hdeadline : request.invocation.deadline = deadlineMax := by
    rw [hrequest]
    exact if_pos hunlimited
  have hfields : request.fields unlimitedBudget = fields := by
    obtain ⟨requestId, invocationId, selection, width, budget, identity, inputAbi, outputAbi,
      outputBytes, inputBytes⟩ := fields
    rw [hrequest, ActiveExpertExecutionRequest.fields, RequestFields.request]
    simp only [hostWire_eq hlong, RequestFields.mk.injEq, true_and]
    exact ⟨hunlimited.symm, by rw [hlength]; exact UInt64.ofNat_toNat⟩
  have hinput : request.invocation.input.content = input := by
    rw [hrequest, RequestFields.request, hostWire_eq hlong]
    rfl
  have hpayload : requestPayload unlimitedBudget request = writeRequestFields fields ++ input := by
    rw [requestPayload_eq, hfields, hinput]
  have hwire : frame = wireFrame sha256 request := by rw [wireFrame, hpayload, hframe]
  refine ⟨⟨hdeadline, hidentity, ?_, ?_, hwire ▸ hsize⟩, ?_, hwire, by rw [hpayload, hdigest]⟩
  · rwa [validateInvocation_clock hdeadline] at hinvocation
  · have htexts : request.texts = [fields.identity.capability, fields.inputAbi, fields.outputAbi] := by
      rw [← hfields]
      rfl
    simp only [htexts, mem_cons, not_mem_nil, or_false, forall_eq_or_imp, forall_eq]
    exact hshort
  · rw [hrequest, RequestFields.request, hostWire_eq hlong]

end

/-- No NUL, CR or LF byte. -/
def Clean (text : Text) : Prop := ∀ byte ∈ text, byte ≠ 0 ∧ byte ≠ 13 ∧ byte ≠ 10

instance (text : Text) : Decidable (Clean text) := inferInstanceAs (Decidable (∀ _ ∈ _, _))

section

variable (sha256 : Bytes → Sha256Digest)

/-- What is encoded comes back, and its texts are what the reader means to let through. -/
def RoundTrips (request : ActiveExpertExecutionRequest) : Prop :=
  ∀ validatedAt budgetedAt frame digest,
    encodeActiveExpertRequest sha256 validatedAt budgetedAt request = .ok (frame, digest) →
    (∀ decodedAt validatedAt',
      decodeActiveExpertRequest sha256 decodedAt validatedAt' frame = .ok (request.onWire, digest)) ∧
    ∀ text ∈ request.texts, text.length ≤ 4096 ∧ Clean text

/-- What is decoded is what encoding makes of it. -/
def Canonical (frame : Bytes) : Prop :=
  ∀ decodedAt validatedAt request digest, UnlimitedBudget frame →
    decodeActiveExpertRequest sha256 decodedAt validatedAt frame = .ok (request, digest) →
    (∀ validatedAt' budgetedAt,
      encodeActiveExpertRequest sha256 validatedAt' budgetedAt request = .ok (frame, digest)) ∧
    ∀ text ∈ request.texts, text.length ≤ 4096 ∧ Clean text

/-- Requests always come back; control characters pass both sides, and an output
beyond the frame limit is decoded but never encoded. -/
theorem wire_format_exact :
    (∀ request frame digest validatedAt budgetedAt decodedAt validatedAt',
      request.invocation.deadline = deadlineMax →
      encodeActiveExpertRequest sha256 validatedAt budgetedAt request = .ok (frame, digest) →
      decodeActiveExpertRequest sha256 decodedAt validatedAt' frame = .ok (request.onWire, digest)) ∧
    (∀ request, request.invocation.deadline = deadlineMax →
      (RoundTrips sha256 request ↔
        (Sendable sha256 request → ∀ text ∈ request.texts, Clean text))) ∧
    ∀ frame, Canonical sha256 frame ↔
      ∀ request, WellFormed sha256 request →
        request.invocation.input.memoryDomain = "host.wire" → frame = wireFrame sha256 request →
        request.invocation.outputBytes.toNat ≤ kMaximumFrameBytes ∧
          ∀ text ∈ request.texts, Clean text := by
  refine ⟨?_, fun request hunlimited => ⟨?_, ?_⟩, fun frame => ⟨?_, ?_⟩⟩
  · intro request frame digest validatedAt budgetedAt decodedAt validatedAt' hunlimited hencode
    obtain ⟨hsendable, rfl, rfl⟩ := (encode_ok_iff hunlimited).1 hencode
    exact decode_wireFrame hsendable.toWellFormed
  · intro hround hsendable text htext
    have hencode := (@encode_ok_iff sha256 request _ _ 0 0 hunlimited).2 ⟨hsendable, rfl, rfl⟩
    exact ((hround _ _ _ _ hencode).2 text htext).2
  · intro hclean validatedAt budgetedAt frame digest hencode
    obtain ⟨hsendable, rfl, rfl⟩ := (encode_ok_iff hunlimited).1 hencode
    exact ⟨fun _ _ => decode_wireFrame hsendable.toWellFormed, fun text htext =>
      ⟨hsendable.short text htext, hclean hsendable text htext⟩⟩
  · rintro hcanonical request hwell hdomain rfl
    have hbudget : UnlimitedBudget (wireFrame sha256 request) := by
      rw [wireFrame, sealed, requestPayload_eq, append_assoc]
      exact unlimitedBudget_iff.2 rfl
    have hwire : request.onWire = request := by
      rw [ActiveExpertExecutionRequest.onWire, ← hdomain]
    have hdecode := @decode_wireFrame sha256 request 0 0 hwell
    rw [hwire] at hdecode
    obtain ⟨hencode, htexts⟩ := hcanonical _ _ _ _ hbudget hdecode
    have hsendable := ((encode_ok_iff hwell.unlimited).1 (hencode 0 0)).1
    exact ⟨hsendable.output, fun text htext => (htexts text htext).2⟩
  · intro hexact decodedAt validatedAt request digest hbudget hdecode
    obtain ⟨hwell, hdomain, hframe, hdigest⟩ := decode_unlimited hbudget hdecode
    obtain ⟨houtput, hclean⟩ := hexact request hwell hdomain hframe
    have hsendable : Sendable sha256 request := ⟨hwell, by simp [hdomain], houtput⟩
    exact ⟨fun _ _ => (encode_ok_iff hwell.unlimited).2 ⟨hsendable, hframe, hdigest⟩,
      fun text htext => ⟨hwell.short text htext, hclean text htext⟩⟩

end

def oneDigest : Sha256Digest := ⟨List.replicate 32 1, oneBytes_length⟩

def sampleRequest (capability : Text) (outputBytes : UInt64) : ActiveExpertExecutionRequest where
  identity := ⟨oneDigest, ⟨1, 0, 0, 1⟩, capability, 1, 1⟩
  invocation :=
    { requestId := 1, invocationId := 1, selectionIndex := 0, routeWidth := 1
      input :=
        { abi := ascii "f16", memoryDomain := "host.wire", owner := true, data := some [7], bytes := 1
          spans := by rintro memory ⟨⟩; rfl }
      outputAbi := ascii "f16"
      outputBytes }

theorem plain_request_round_trips : RoundTrips (fun _ => oneDigest) (sampleRequest (ascii "gate") 4) :=
  ((wire_format_exact _).2.1 _ rfl).2 fun _ => by decide +kernel

/-- A line feed passes both sides, and an output of one byte too many is decoded. -/
theorem control_text_and_large_output :
    ¬ RoundTrips (fun _ => oneDigest) (sampleRequest (ascii "gate\n") 4) ∧
      ¬ Canonical (fun _ => oneDigest)
        (wireFrame (fun _ => oneDigest) (sampleRequest (ascii "gate") (64 * 2 ^ 20 + 1))) := by
  constructor
  · intro hround
    have hsendable : Sendable (fun _ => oneDigest) (sampleRequest (ascii "gate\n") 4) :=
      ⟨⟨rfl, by decide +kernel, by decide +kernel, by decide +kernel, by decide +kernel⟩,
        by decide +kernel, by decide +kernel⟩
    have hclean := (hround 0 0 _ _ ((encode_ok_iff rfl).2 ⟨hsendable, rfl, rfl⟩)).2
    exact absurd hclean (by decide +kernel)
  · intro hcanonical
    have hwell : WellFormed (fun _ => oneDigest)
        (sampleRequest (ascii "gate") (64 * 2 ^ 20 + 1)) :=
      ⟨rfl, by decide +kernel, by decide +kernel, by decide +kernel, by decide +kernel⟩
    have hencode := (hcanonical 0 0 _ _ (by unfold UnlimitedBudget; decide +kernel)
      (decode_wireFrame hwell)).1 0 0
    have houtput := ((encode_ok_iff rfl).1 hencode).1.output
    exact absurd houtput (by decide +kernel)

end QuantumLlm.Runtime.ActiveExpert
