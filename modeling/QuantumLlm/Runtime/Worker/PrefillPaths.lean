import QuantumLlm.Runtime.Worker.Prefill

/-!
# The paths of a prefill

Whatever the path and the chunks, a prompt is executed once and in order, every position is
synchronised with its successor, and the retained position is checkpointed once. A round of
either path moves an offset into the prompt; what is settled below it is the invariant.
-/

namespace QuantumLlm.Runtime.Worker

open Fallible List

/-- What the worker has checked and set when it feeds a prompt. -/
structure Begun (service : Service) (session : ProgramExecutionSession) (tokens : List Nat)
    (firstPosition : Nat) (request : ActiveRequest) : Prop where
  some : tokens ≠ []
  tokens_lt : ∀ token ∈ tokens, token < session.vocabSize
  within : firstPosition + tokens.length < 2 ^ 32
  retention : request.retentionPosition ≤ firstPosition + tokens.length
  supported : request.retentionPosition ≠ 0 → service.sessionRetention = true
  parameter : session.retentionCheckpointPosition = request.retentionPosition

section

variable {service : Service} {session : ProgramExecutionSession} {tokens : List Nat}
  {firstPosition offset count : Nat} {request : ActiveRequest} {calls : List SessionCall}
  {feeding : Feeding}

theorem call_ok (haccepts : ∀ earlier next, session.refusal earlier next = none)
    (next : SessionCall) : session.call calls next = .ok (calls ++ [next]) := by
  unfold ProgramExecutionSession.call
  rw [haccepts]

theorem positionsFrom_eq (h : firstPosition + count ≤ 2 ^ 32) :
    positionsFrom firstPosition count = List.range' firstPosition count := by
  rw [range'_eq_map_range]
  refine map_congr_left fun index hindex => ?_
  rw [mem_range] at hindex
  exact u32_eq (by omega)

theorem submitted_execute (h : firstPosition + tokens.length ≤ 2 ^ 32) :
    tokens.zip (positionsFrom firstPosition tokens.length) = tokens.zipIdx firstPosition := by
  rw [positionsFrom_eq h, zipIdx_eq_zip_range']

theorem checkTokens_ok {what : String} (hsome : tokens ≠ [])
    (h : firstPosition + tokens.length < 2 ^ 32) :
    checkTokens tokens firstPosition what = .ok () := by
  unfold checkTokens
  rw [ensure_ok, u32_eq (by omega)]
  unfold maxU32
  exact ⟨hsome, by omega, by omega⟩

theorem prefillBatch_ok (haccepts : ∀ earlier next, session.refusal earlier next = none)
    (hsome : tokens ≠ []) (h : firstPosition + tokens.length < 2 ^ 32) :
    prefillBatch session calls tokens firstPosition =
      .ok (calls ++ [.execute tokens (positionsFrom firstPosition tokens.length) []],
        session.batchPredictions (session.text calls) tokens) := by
  unfold prefillBatch
  rw [checkTokens_ok hsome h, call_ok haccepts]
  rfl

theorem batchPredictions_length (text batch : List Nat) :
    (session.batchPredictions text batch).length = 1 ∨
      (session.batchPredictions text batch).length = batch.length := by
  unfold ProgramExecutionSession.batchPredictions
  split
  · exact .inr (by rw [length_map, length_range])
  · exact .inl rfl

theorem batchPredictions_last (text : List Nat) {batch : List Nat} (hsome : batch ≠ []) :
    (session.batchPredictions text batch).getLastD 0 = session.next (text ++ batch) := by
  have hpositive := length_pos_iff.2 hsome
  unfold ProgramExecutionSession.batchPredictions
  split
  · obtain ⟨before, hbefore⟩ := Nat.exists_eq_succ_of_ne_zero (Nat.ne_of_gt hpositive)
    rw [hbefore, Nat.succ_eq_add_one, range_succ, map_append, map_singleton,
      getLastD_concat, ← Nat.succ_eq_add_one, ← hbefore, take_length]
  · rfl

/-- The successors of the prompt; the last row's is the prediction. -/
def successorsOf (session : ProgramExecutionSession) (tokens : List Nat) : List Nat :=
  tokens.tail ++ [session.next (session.history ++ tokens)]

theorem successorsOf_length (hsome : tokens ≠ []) :
    (successorsOf session tokens).length = tokens.length := by
  have hpositive := length_pos_iff.2 hsome
  unfold successorsOf
  rw [length_append, length_tail, length_singleton]
  omega

theorem successors_eq {predicted : Nat} (hcount : offset + count ≤ tokens.length)
    (hlast : offset + count = tokens.length →
      predicted = session.next (session.history ++ tokens)) :
    successors tokens predicted offset count =
      ((successorsOf session tokens).drop offset).take count := by
  by_cases hsome : tokens = []
  · subst hsome
    obtain rfl : count = 0 := by simp only [length_nil] at hcount; omega
    rfl
  have hlength := @successorsOf_length session tokens hsome
  refine ext_getElem ?_ fun row hrow hother => ?_
  · unfold successors
    rw [length_map, length_range, length_take, length_drop, hlength]
    omega
  · unfold successors at hrow ⊢
    rw [length_map, length_range] at hrow
    rw [getElem_map, getElem_range, getElem_take, getElem_drop]
    unfold successorsOf
    by_cases hfinal : offset + row + 1 = tokens.length
    · rw [if_pos hfinal, getElem_append_right (by rw [length_tail]; omega)]
      simp only [getElem_singleton]
      exact hlast (by omega)
    · rw [if_neg hfinal, getElem_append_left (by rw [length_tail]; omega),
        getElem_tail, getD_eq_getElem?_getD, getElem?_eq_getElem (by omega)]
      rfl

theorem successorsOf_lt (htokens : ∀ token ∈ tokens, token < session.vocabSize) :
    ∀ token ∈ successorsOf session tokens, token < session.vocabSize := by
  intro token htoken
  rcases mem_append.1 htoken with htail | hlast
  · exact htokens token (mem_of_mem_tail htail)
  · rw [mem_singleton.1 hlast]
    exact session.next_lt _

theorem synchronize_ok (haccepts : ∀ earlier next, session.refusal earlier next = none)
    (hexact : session.exactDecodeAvailable = true) {nextTokens : List Nat} {final : Bool}
    (hsome : nextTokens ≠ []) (hwithin : offset + nextTokens.length ≤ 2 ^ 32 - 1)
    (hlt : ∀ token ∈ nextTokens, token < session.vocabSize) :
    ∃ draft, session.synchronizeExactDecodeBatch calls nextTokens offset final =
      .ok (calls ++ [.synchronizeExactDecodeBatch nextTokens offset draft]) := by
  have hcheck : session.exactDecodeAvailable = true ∧ nextTokens ≠ [] ∧
      nextTokens.length ≤ maxU32 ∧ offset ≤ maxU32 - u32 (nextTokens.length - 1) ∧
      ∀ token ∈ nextTokens, token < session.vocabSize := by
    rw [u32_eq (by omega)]
    unfold maxU32
    exact ⟨hexact, hsome, by omega, by omega, hlt⟩
  refine ⟨final && decide (offset + nextTokens.length + 1 < session.reservedContextTokens), ?_⟩
  exact bind_ok.2 ⟨(), ensure_ok.2 hcheck, call_ok haccepts _⟩

/-- The invariant of the rounds: the rows below the offset are done, and the retained position is
when it lies below another bound. -/
structure Fed (service : Service) (session : ProgramExecutionSession) (tokens : List Nat)
    (firstPosition : Nat) (request : ActiveRequest) (offset settled : Nat) (feeding : Feeding) :
    Prop where
  submitted : feeding.calls.flatMap SessionCall.submitted =
    (tokens.take offset).zipIdx firstPosition
  executed : feeding.calls.flatMap SessionCall.tokens = tokens.take offset
  synchronized : feeding.calls.flatMap SessionCall.synchronized =
    if service.exactEligible request.sampling && session.exactDecodeAvailable then
      ((successorsOf session tokens).take offset).zipIdx firstPosition
    else []
  checkpointed : feeding.calls.flatMap SessionCall.checkpointed =
    if feeding.retentionCheckpointed then [request.retentionPosition] else []
  reached : feeding.retentionCheckpointed = true ↔ service.sessionRetention = true ∧
    firstPosition < request.retentionPosition ∧ request.retentionPosition < settled
  predicted : 0 < offset →
    feeding.request.predicted = session.next (session.history ++ tokens.take offset)
  retained : firstPosition < request.retentionPosition → request.retentionPosition < settled →
    feeding.request.retentionPredicted = session.next
        (session.history ++ tokens.take (request.retentionPosition - firstPosition)) ∧
      feeding.request.retentionPredictionValid = true
  before : ¬ (firstPosition < request.retentionPosition ∧ request.retentionPosition < settled) →
    feeding.request.retentionPredicted = request.retentionPredicted ∧
      feeding.request.retentionPredictionValid = request.retentionPredictionValid
  position : feeding.request.retentionPosition = request.retentionPosition
  sampling : feeding.request.sampling = request.sampling

theorem Fed.text {settled : Nat}
    (h : Fed service session tokens firstPosition request offset settled feeding) :
    session.text feeding.calls = session.history ++ tokens.take offset := by
  unfold ProgramExecutionSession.text
  rw [h.executed]

theorem fed_zero {settled : Nat} (h : settled ≤ firstPosition + 1) :
    Fed service session tokens firstPosition request 0 settled ⟨[], request, false⟩ where
  submitted := rfl
  executed := rfl
  synchronized := by
    split
    · rfl
    · rfl
  checkpointed := rfl
  reached := by
    constructor
    · exact nofun
    · rintro ⟨-, hfirst, hsettled⟩
      omega
  predicted := fun hpositive => absurd hpositive (Nat.lt_irrefl 0)
  retained := fun hfirst hsettled => by omega
  before := fun _ => ⟨rfl, rfl⟩
  position := rfl
  sampling := rfl

theorem chunkCount_spec {retentionPosition : Nat} (hoffset : offset < tokens.length)
    (hwithin : firstPosition + tokens.length < 2 ^ 32) :
    0 < chunkCount service tokens firstPosition retentionPosition offset ∧
      offset + chunkCount service tokens firstPosition retentionPosition offset ≤ tokens.length ∧
      ¬ (firstPosition + offset < retentionPosition ∧ retentionPosition <
        firstPosition + (offset + chunkCount service tokens firstPosition retentionPosition offset))
      := by
  have hpositive : 0 < service.chunkTokens := by
    unfold Service.chunkTokens
    omega
  unfold chunkCount
  dsimp only
  generalize hsize : min service.chunkTokens (tokens.length - offset) = size
  simp (disch := omega) only [u32_eq]
  by_cases hinside : firstPosition + offset < retentionPosition ∧
      retentionPosition < firstPosition + offset + size
  · rw [if_pos hinside]
    omega
  · rw [if_neg hinside]
    omega

theorem retainRow_ok {predictions : List Nat}
    (hlength : predictions.length = 1 ∨ predictions.length = count) (hcount : 0 < count)
    (hwithin : firstPosition + (offset + count) < 2 ^ 32)
    (hnot : ¬ (firstPosition + offset < request.retentionPosition ∧
      request.retentionPosition < firstPosition + (offset + count))) :
    retainRow firstPosition predictions offset count request =
      .ok (if request.retentionPosition = firstPosition + (offset + count) then
        { request with
          retentionPredicted := predictions.getLastD 0, retentionPredictionValid := true }
        else request) := by
  unfold retainRow
  simp (disch := omega) only [u32_eq]
  by_cases hend : request.retentionPosition = firstPosition + (offset + count)
  · rw [if_pos hend, if_pos (by omega)]
    have hrow : request.retentionPosition - firstPosition - offset - 1 = count - 1 := by omega
    rw [hrow]
    by_cases hone : predictions.length = 1
    · obtain ⟨prediction, rfl⟩ := length_eq_one_iff.1 hone
      exact bind_ok.2 ⟨(), ensure_ok.2 (by omega), rfl⟩
    · have hall : predictions.length = count := hlength.resolve_left hone
      rw [if_neg hone]
      refine bind_ok.2 ⟨(), ensure_ok.2 (by omega), ?_⟩
      have hlast : predictions.getD (count - 1) 0 = predictions.getLastD 0 := by
        rw [← hall, getLastD_eq_getLast?, getLast?_eq_getElem?, getD_eq_getElem?_getD]
      rw [hlast]
      rfl
  · rw [if_neg hend, if_neg (by omega)]
    rfl

theorem synchronizeRows_ok (hbegun : Begun service session tokens firstPosition request)
    (haccepts : ∀ earlier next, session.refusal earlier next = none) {eligible final : Bool}
    {predicted : Nat} (hcount : 0 < count) (hwithin : offset + count ≤ tokens.length)
    (hlast : offset + count = tokens.length →
      predicted = session.next (session.history ++ tokens)) :
    ∃ later, (if eligible && session.exactDecodeAvailable then
          session.synchronizeExactDecodeBatch calls (successors tokens predicted offset count)
            (firstPosition + offset) final
        else pure calls) = .ok later ∧
      later.flatMap SessionCall.submitted = calls.flatMap SessionCall.submitted ∧
      later.flatMap SessionCall.tokens = calls.flatMap SessionCall.tokens ∧
      later.flatMap SessionCall.checkpointed = calls.flatMap SessionCall.checkpointed ∧
      later.flatMap SessionCall.synchronized = calls.flatMap SessionCall.synchronized ++
        if eligible && session.exactDecodeAvailable then
          (((successorsOf session tokens).drop offset).take count).zipIdx (firstPosition + offset)
        else [] := by
  have hbound := hbegun.within
  by_cases hexact : (eligible && session.exactDecodeAvailable) = true
  · have havailable := (Bool.and_eq_true_iff.1 hexact).2
    rw [if_pos hexact, if_pos hexact, successors_eq hwithin hlast]
    have hlength : (((successorsOf session tokens).drop offset).take count).length = count := by
      rw [length_take, length_drop, successorsOf_length hbegun.some]
      omega
    have hlt : ∀ token ∈ ((successorsOf session tokens).drop offset).take count,
        token < session.vocabSize := fun token htoken =>
      successorsOf_lt hbegun.tokens_lt token (mem_of_mem_drop (mem_of_mem_take htoken))
    obtain ⟨draft, hdraft⟩ := @synchronize_ok session (firstPosition + offset) calls haccepts
      havailable _ final (length_pos_iff.1 (by omega)) (by omega) hlt
    refine ⟨_, hdraft, ?_, ?_, ?_, ?_⟩
    · rw [flatMap_append, flatMap_singleton]
      exact append_nil _
    · rw [flatMap_append, flatMap_singleton]
      exact append_nil _
    · rw [flatMap_append, flatMap_singleton]
      exact append_nil _
    · rw [flatMap_append, flatMap_singleton]
      rfl
  · rw [if_neg hexact, if_neg hexact]
    exact ⟨calls, rfl, rfl, rfl, rfl, (append_nil _).symm⟩

theorem take_zipIdx_add {α : Type} (rows : List α) (first : Nat) (h : offset ≤ rows.length) :
    (rows.take (offset + count)).zipIdx first =
      (rows.take offset).zipIdx first ++ ((rows.drop offset).take count).zipIdx (first + offset) := by
  rw [take_add, zipIdx_append, length_take, Nat.min_eq_left h]

section

variable (hbegun : Begun service session tokens firstPosition request)
  (haccepts : ∀ earlier next, session.refusal earlier next = none)

include hbegun haccepts

theorem feedChunk_fed (hoffset : offset < tokens.length)
    (hfed : Fed service session tokens firstPosition request offset (firstPosition + offset + 1)
      feeding) :
    ∃ behind later, offset < behind ∧ behind ≤ tokens.length ∧
      feedChunk service session tokens firstPosition offset feeding = .ok (behind, later) ∧
      Fed service session tokens firstPosition request behind (firstPosition + behind + 1)
        later := by
  have hwithin := hbegun.within
  obtain ⟨hcount, hbehind, hnot⟩ := @chunkCount_spec service tokens firstPosition offset
    feeding.request.retentionPosition hoffset hwithin
  unfold feedChunk
  dsimp only
  generalize chunkCount service tokens firstPosition feeding.request.retentionPosition offset =
    count at hcount hbehind hnot
  have hbatchLength : ((tokens.drop offset).take count).length = count := by
    rw [length_take, length_drop]
    omega
  have hbatch : (tokens.drop offset).take count ≠ [] := length_pos_iff.1 (by omega)
  have hprefill := @prefillBatch_ok session ((tokens.drop offset).take count)
    (firstPosition + offset) feeding.calls haccepts hbatch (by omega)
  have htext : session.text feeding.calls ++ (tokens.drop offset).take count =
      session.history ++ tokens.take (offset + count) := by
    rw [hfed.text, append_assoc, ← take_add]
  have hwidth := @batchPredictions_length session (session.text feeding.calls)
    ((tokens.drop offset).take count)
  rw [hbatchLength] at hwidth
  have hpredicted := @batchPredictions_last session (session.text feeding.calls) _ hbatch
  rw [htext] at hpredicted
  generalize session.batchPredictions (session.text feeding.calls) ((tokens.drop offset).take count)
    = predictions at hprefill hwidth hpredicted
  have hretain := @retainRow_ok firstPosition offset count
    { feeding.request with predicted := predictions.getLastD 0 } predictions hwidth hcount (by omega)
    hnot
  generalize hrequest : (if feeding.request.retentionPosition = firstPosition + (offset + count) then
      { { feeding.request with predicted := predictions.getLastD 0 } with
        retentionPredicted := predictions.getLastD 0, retentionPredictionValid := true }
      else { feeding.request with predicted := predictions.getLastD 0 }) = retained at hretain
  have hposition : retained.retentionPosition = request.retentionPosition := by
    rw [← hrequest, ← hfed.position]
    split
    · rfl
    · rfl
  have hsampling : retained.sampling = request.sampling := by
    rw [← hrequest, ← hfed.sampling]
    split
    · rfl
    · rfl
  have hretainedPredicted : retained.predicted =
      session.next (session.history ++ tokens.take (offset + count)) := by
    rw [← hpredicted, ← hrequest]
    split
    · rfl
    · rfl
  have hlast : offset + count = tokens.length →
      retained.predicted = session.next (session.history ++ tokens) := by
    intro hall
    rw [hretainedPredicted, hall, take_length]
  obtain ⟨synced, hsynced, hsubmitted, hexecuted, hcheckpointed, hsynchronized⟩ :=
    @synchronizeRows_ok service session tokens firstPosition offset count request
      (feeding.calls ++ [.execute ((tokens.drop offset).take count)
        (positionsFrom (firstPosition + offset) ((tokens.drop offset).take count).length) []])
      hbegun haccepts (service.exactEligible retained.sampling)
      (decide (offset + count = tokens.length)) retained.predicted hcount hbehind hlast
  rw [flatMap_append, flatMap_singleton] at hsubmitted hexecuted hcheckpointed
  rw [flatMap_append, flatMap_singleton] at hsynchronized
  have hfeeding : ∀ (extra : List SessionCall) (flag : Bool),
      extra.flatMap SessionCall.submitted = [] → extra.flatMap SessionCall.tokens = [] →
      extra.flatMap SessionCall.synchronized = [] →
      synced.flatMap SessionCall.checkpointed ++ extra.flatMap SessionCall.checkpointed =
        (if flag then [request.retentionPosition] else []) →
      (flag = true ↔ service.sessionRetention = true ∧
        firstPosition < request.retentionPosition ∧
          request.retentionPosition < firstPosition + (offset + count) + 1) →
      Fed service session tokens firstPosition request (offset + count)
        (firstPosition + (offset + count) + 1) ⟨synced ++ extra, retained, flag⟩ := by
    intro extra flag hnone hnoTokens hnoSuccessors hflag hreached
    refine ⟨?_, ?_, ?_, ?_, hreached, fun _ => hretainedPredicted, ?_, ?_, hposition, hsampling⟩
    · rw [flatMap_append, hnone, append_nil, hsubmitted, hfed.submitted,
        take_zipIdx_add tokens firstPosition (by omega)]
      dsimp only [SessionCall.submitted]
      rw [submitted_execute (by omega)]
    · rw [flatMap_append, hnoTokens, append_nil, hexecuted, hfed.executed]
      exact take_add.symm
    · rw [flatMap_append, hnoSuccessors, append_nil, hsynchronized, hfed.synchronized, hsampling]
      split
      · rw [take_zipIdx_add _ _ (by rw [successorsOf_length hbegun.some]; omega)]
        exact congrArg (· ++ _) (append_nil _)
      · rfl
    · rw [flatMap_append, hflag]
    · intro hfirst hsettled
      rw [hfed.position] at hnot hrequest
      by_cases hend : request.retentionPosition = firstPosition + (offset + count)
      · rw [if_pos hend] at hrequest
        rw [← hrequest]
        refine ⟨?_, rfl⟩
        rw [hpredicted, hend, Nat.add_sub_cancel_left]
      · rw [if_neg hend] at hrequest
        rw [← hrequest]
        exact hfed.retained hfirst (by omega)
    · intro houtside
      rw [hfed.position] at hnot hrequest
      rw [if_neg (by omega)] at hrequest
      rw [← hrequest]
      exact hfed.before (by omega)
  have hunchecked : synced.flatMap SessionCall.checkpointed =
      if feeding.retentionCheckpointed then [request.retentionPosition] else [] := by
    rw [hcheckpointed, hfed.checkpointed]
    exact append_nil _
  rw [hfed.position] at hnot
  have hreached := hfed.reached
  simp (disch := omega) only [u32_eq]
  by_cases hcheck : service.sessionRetention = true ∧ retained.retentionPosition ≠ 0 ∧
      firstPosition + (offset + count) = retained.retentionPosition
  · have hend : request.retentionPosition = firstPosition + (offset + count) := by
      rw [← hposition]
      exact hcheck.2.2.symm
    have hfresh : feeding.retentionCheckpointed = false := by
      rw [Bool.eq_false_iff]
      intro hflag
      have := hreached.1 hflag
      omega
    refine ⟨offset + count,
      ⟨synced ++ [.checkpointRetention (firstPosition + (offset + count))], retained, true⟩,
      by omega, hbehind, ?_, hfeeding _ _ rfl rfl rfl ?_ ?_⟩
    · refine bind_ok.2 ⟨_, hprefill, bind_ok.2 ⟨(), ensure_ok.2 hwidth,
        bind_ok.2 ⟨retained, hretain, bind_ok.2 ⟨synced, hsynced, ?_⟩⟩⟩⟩
      rw [if_pos hcheck]
      exact bind_ok.2 ⟨_, call_ok haccepts _, rfl⟩
    · rw [hunchecked, hfresh, hend]
      rfl
    · constructor
      · intro _
        exact ⟨hcheck.1, by omega, by omega⟩
      · intro _
        rfl
  · refine ⟨offset + count, ⟨synced, retained, feeding.retentionCheckpointed⟩, by omega, hbehind,
      ?_, ?_⟩
    · refine bind_ok.2 ⟨_, hprefill, bind_ok.2 ⟨(), ensure_ok.2 hwidth,
        bind_ok.2 ⟨retained, hretain, bind_ok.2 ⟨synced, hsynced, ?_⟩⟩⟩⟩
      rw [if_neg hcheck]
      rfl
    · have hsettles := hfeeding [] feeding.retentionCheckpointed rfl rfl rfl (by
          rw [hunchecked]
          exact append_nil _) (by
        rw [hreached]
        constructor
        · rintro ⟨hsupported, hfirst, hbefore⟩
          exact ⟨hsupported, hfirst, by omega⟩
        · rintro ⟨hsupported, hfirst, hbefore⟩
          refine ⟨hsupported, hfirst, ?_⟩
          by_contra hlate
          exact hcheck ⟨hsupported, by omega, by omega⟩)
      rw [append_nil] at hsettles
      exact hsettles

theorem feedChunks_fed {rounds : Nat}
    (hrounds : tokens.length < rounds + offset) (hoffset : offset ≤ tokens.length)
    (hfed : Fed service session tokens firstPosition request offset (firstPosition + offset + 1)
      feeding) :
    ∃ later, feedChunks service session tokens firstPosition rounds offset feeding = .ok later ∧
      Fed service session tokens firstPosition request tokens.length
        (firstPosition + tokens.length + 1) later := by
  induction rounds generalizing offset feeding with
  | zero => omega
  | succ rounds ih =>
    unfold feedChunks
    by_cases hmore : offset < tokens.length
    · obtain ⟨behind, middle, hprogress, hbehind, hround, hmiddle⟩ :=
        feedChunk_fed hbegun haccepts hmore hfed
      obtain ⟨later, hlater, hsettled⟩ := ih (by omega) hbehind hmiddle
      rw [if_pos hmore]
      exact ⟨later, bind_ok.2 ⟨_, hround, hlater⟩, hsettled⟩
    · obtain rfl : offset = tokens.length := by omega
      rw [if_neg hmore]
      exact ⟨feeding, rfl, hfed⟩

theorem synchronizeSequence_ok (hexact : session.exactDecodeAvailable = true) {predicted rounds : Nat}
    (hpredicted : predicted = session.next (session.history ++ tokens))
    (hrounds : tokens.length < rounds + offset) (hoffset : offset ≤ tokens.length) :
    ∃ later, synchronizeSequence service session tokens firstPosition predicted rounds offset
        calls = .ok later ∧
      later.flatMap SessionCall.submitted = calls.flatMap SessionCall.submitted ∧
      later.flatMap SessionCall.tokens = calls.flatMap SessionCall.tokens ∧
      later.flatMap SessionCall.checkpointed = calls.flatMap SessionCall.checkpointed ∧
      later.flatMap SessionCall.synchronized = calls.flatMap SessionCall.synchronized ++
        ((successorsOf session tokens).drop offset).zipIdx (firstPosition + offset) := by
  have hwithin := hbegun.within
  have hlength := @successorsOf_length session _ hbegun.some
  induction rounds generalizing offset calls with
  | zero => omega
  | succ rounds ih =>
    unfold synchronizeSequence
    by_cases hmore : offset < tokens.length
    · have hpositive : 0 < service.chunkTokens := by
        unfold Service.chunkTokens
        omega
      rw [if_pos hmore]
      generalize hsize : min service.chunkTokens (tokens.length - offset) = size
      simp (disch := omega) only [u32_eq]
      obtain ⟨middle, hmiddle, hsubmitted, hexecuted, hcheckpointed, hsynchronized⟩ :=
        @synchronizeRows_ok service session tokens firstPosition offset size request calls hbegun
          haccepts true (decide (offset + size = tokens.length)) predicted (by omega) (by omega)
          (fun _ => hpredicted)
      rw [hexact, Bool.and_self, if_pos rfl] at hmiddle hsynchronized
      obtain ⟨later, hlater, hsubmitted', hexecuted', hcheckpointed', hsynchronized'⟩ :=
        @ih (offset + size) middle (by omega) (by omega)
      refine ⟨later, bind_ok.2 ⟨middle, hmiddle, hlater⟩, hsubmitted'.trans hsubmitted,
        hexecuted'.trans hexecuted, hcheckpointed'.trans hcheckpointed, ?_⟩
      have hsplit := take_append_drop size ((successorsOf session tokens).drop offset)
      rw [hsynchronized', hsynchronized, append_assoc, ← hsplit, zipIdx_append,
        drop_drop, length_take, length_drop, hlength,
        Nat.min_eq_left (show size ≤ tokens.length - offset by omega), Nat.add_assoc,
        take_append_of_le_length, take_take, Nat.min_self]
      rw [length_take, length_drop, hlength]
      omega
    · obtain rfl : offset = tokens.length := by omega
      rw [if_neg hmore]
      refine ⟨calls, rfl, rfl, rfl, rfl, ?_⟩
      rw [drop_eq_nil_of_le (by omega)]
      exact (append_nil _).symm

theorem prefillSequence_ok {multimodal : List UInt8} :
    prefillSequence session [] tokens firstPosition multimodal =
      .ok ([.executeProgramSequence tokens (positionsFrom firstPosition tokens.length) multimodal],
        if firstPosition < request.retentionPosition ∧
            request.retentionPosition < firstPosition + tokens.length then
          [session.next
              (session.history ++ tokens.take (request.retentionPosition - firstPosition)),
            session.next (session.history ++ tokens)]
        else [session.next (session.history ++ tokens)]) := by
  have hwithin := hbegun.within
  have hretention := hbegun.retention
  have hback : u32 (firstPosition + u32 (tokens.length - 1)) =
      firstPosition + (tokens.length - 1) := by
    simp (disch := omega) only [u32_eq]
  have hpublished : session.sequencePredictions (session.text []) tokens firstPosition =
      if firstPosition < request.retentionPosition ∧
          request.retentionPosition < firstPosition + tokens.length then
        [session.next (session.history ++ tokens.take (request.retentionPosition - firstPosition)),
          session.next (session.history ++ tokens)]
      else [session.next (session.history ++ tokens)] := by
    unfold ProgramExecutionSession.sequencePredictions ProgramExecutionSession.text
    rw [hbegun.parameter, hback, flatMap_nil, append_nil]
    by_cases hinterior : firstPosition < request.retentionPosition ∧
        request.retentionPosition < firstPosition + tokens.length
    · rw [if_pos hinterior, if_pos (by omega)]
    · rw [if_neg hinterior, if_neg (by omega)]
  refine bind_ok.2 ⟨(), checkTokens_ok hbegun.some hwithin, bind_ok.2 ⟨(), ensure_ok.2 ?_, ?_⟩⟩
  · rw [hbegun.parameter, hback]
    omega
  · dsimp only
    rw [hpublished]
    exact bind_ok.2 ⟨_, call_ok haccepts _, rfl⟩

theorem feedSequence_fed :
    ∃ later, feedSequence service session tokens firstPosition request = .ok later ∧
      Fed service session tokens firstPosition request tokens.length
        (firstPosition + tokens.length) later := by
  have hwithin := hbegun.within
  have hfinal : u32 (firstPosition + u32 tokens.length) = firstPosition + tokens.length := by
    simp (disch := omega) only [u32_eq]
  have hprefill := @prefillSequence_ok service session tokens firstPosition request hbegun haccepts
    request.multimodal
  have hexecuted : tokens.zip (positionsFrom firstPosition tokens.length) =
      tokens.zipIdx firstPosition := submitted_execute (by omega)
  generalize hfirst : SessionCall.executeProgramSequence tokens
    (positionsFrom firstPosition tokens.length) request.multimodal = sequence at hprefill
  have hsynced : ∃ later,
      (if service.exactEligible request.sampling && session.exactDecodeAvailable then
        synchronizeSequence service session tokens firstPosition
          (session.next (session.history ++ tokens)) (tokens.length + 1) 0 [sequence]
        else pure [sequence]) = .ok later ∧
      later.flatMap SessionCall.submitted = tokens.zipIdx firstPosition ∧
      later.flatMap SessionCall.tokens = tokens ∧ later.flatMap SessionCall.checkpointed = [] ∧
      later.flatMap SessionCall.synchronized =
        if service.exactEligible request.sampling && session.exactDecodeAvailable then
          (successorsOf session tokens).zipIdx firstPosition else [] := by
    by_cases hexact : (service.exactEligible request.sampling && session.exactDecodeAvailable) =
        true
    · rw [if_pos hexact, if_pos hexact]
      obtain ⟨later, hlater, hsubmitted, htokens, hcheckpointed, hsynchronized⟩ :=
        @synchronizeSequence_ok service session tokens firstPosition 0 request [sequence] hbegun
          haccepts (Bool.and_eq_true_iff.1 hexact).2 _ (tokens.length + 1) rfl (by omega) (by omega)
      rw [flatMap_singleton, ← hfirst] at hsubmitted htokens hcheckpointed hsynchronized
      exact ⟨later, hfirst ▸ hlater, hsubmitted.trans hexecuted, htokens, hcheckpointed,
        hsynchronized⟩
    · rw [if_neg hexact, if_neg hexact, ← hfirst]
      refine ⟨_, rfl, ?_, ?_, rfl, rfl⟩
      · rw [flatMap_singleton]
        exact hexecuted
      · exact flatMap_singleton _ _
  obtain ⟨synced, hsynced, hsubmitted, htokens, hcheckpointed, hsynchronized⟩ := hsynced
  have hsupported := hbegun.supported
  have hrows : tokens.take tokens.length = tokens := take_length
  unfold feedSequence
  rw [hfinal]
  by_cases hinterior : firstPosition < request.retentionPosition ∧
      request.retentionPosition < firstPosition + tokens.length
  · rw [if_pos hinterior] at hprefill
    simp only [hinterior, and_self, decide_true, if_true]
    refine ⟨_, bind_ok.2 ⟨_, hprefill, bind_ok.2 ⟨(), ensure_ok.2 rfl,
      bind_ok.2 ⟨synced, hsynced, bind_ok.2 ⟨_, call_ok haccepts _, rfl⟩⟩⟩⟩, ?_⟩
    refine ⟨?_, ?_, ?_, ?_, ?_, ?_, ?_, ?_, rfl, rfl⟩
    · rw [flatMap_append, hsubmitted, hrows]
      exact append_nil _
    · rw [flatMap_append, htokens, hrows]
      exact append_nil _
    · rw [flatMap_append, hsynchronized,
        take_of_length_le (Nat.le_of_eq (successorsOf_length hbegun.some))]
      exact append_nil _
    · rw [flatMap_append, hcheckpointed]
      rfl
    · exact ⟨fun _ => ⟨hsupported (by omega), hinterior⟩, fun _ => rfl⟩
    · intro _
      rw [hrows]
      rfl
    · intro _ _
      exact ⟨rfl, rfl⟩
    · intro hnot
      exact absurd hinterior hnot
  · rw [if_neg hinterior] at hprefill
    simp only [hinterior, decide_false, Bool.false_eq_true, if_false]
    refine ⟨_, bind_ok.2 ⟨_, hprefill, bind_ok.2 ⟨(), ensure_ok.2 rfl,
      bind_ok.2 ⟨synced, hsynced, bind_ok.2 ⟨_, rfl, rfl⟩⟩⟩⟩, ?_⟩
    refine ⟨?_, ?_, ?_, ?_, ?_, ?_, ?_, ?_, rfl, rfl⟩
    · rw [hsubmitted, hrows]
    · rw [htokens, hrows]
    · rw [hsynchronized, take_of_length_le (Nat.le_of_eq (successorsOf_length hbegun.some))]
    · rw [hcheckpointed]
      rfl
    · constructor
      · exact nofun
      · rintro ⟨-, hinside⟩
        exact absurd hinside hinterior
    · intro _
      rw [hrows]
      rfl
    · intro hfirst hsettled
      exact absurd ⟨hfirst, hsettled⟩ hinterior
    · intro _
      exact ⟨rfl, rfl⟩

/-- The position that is retained: the one that was asked for, else the end of the prompt. -/
def retainedPosition (tokens : List Nat) (firstPosition : Nat) (request : ActiveRequest) : Nat :=
  if request.retentionPosition = 0 then firstPosition + tokens.length
  else request.retentionPosition

/-- What feeding a prompt comes to. -/
structure Prefilled (service : Service) (session : ProgramExecutionSession) (tokens : List Nat)
    (firstPosition : Nat) (request : ActiveRequest) (calls : List SessionCall)
    (result : ActiveRequest) : Prop where
  /-- Every token is submitted once, in order. -/
  submitted : calls.flatMap SessionCall.submitted = tokens.zipIdx firstPosition
  /-- Every position is synchronised once, in order. -/
  synchronized : calls.flatMap SessionCall.synchronized =
    if service.exactEligible request.sampling && session.exactDecodeAvailable then
      (tokens.tail ++ [session.next (session.history ++ tokens)]).zipIdx firstPosition
    else []
  checkpointed : calls.flatMap SessionCall.checkpointed =
    if service.sessionRetention then [retainedPosition tokens firstPosition request] else []
  nextPosition : result.nextPosition = firstPosition + tokens.length
  predicted : result.predicted = session.next (session.history ++ tokens)
  retained : service.sessionRetention = true →
    firstPosition < retainedPosition tokens firstPosition request →
      result.retentionPosition = retainedPosition tokens firstPosition request ∧
      result.retentionPredicted = session.next (session.history ++
        tokens.take (retainedPosition tokens firstPosition request - firstPosition)) ∧
      result.retentionPredictionValid = true
  /-- Otherwise the retained prediction is that of before. -/
  kept : ¬ (service.sessionRetention = true ∧
      firstPosition < retainedPosition tokens firstPosition request) →
    result.retentionPredicted = request.retentionPredicted ∧
      result.retentionPredictionValid = request.retentionPredictionValid

omit hbegun in
theorem checkpoint_once {flag : Bool} {position : Nat}
    (h : calls.flatMap SessionCall.checkpointed = if flag then [position] else []) :
    ∃ later, (if flag then pure calls else session.call calls (.checkpointRetention position)) =
        .ok later ∧
      later.flatMap SessionCall.submitted = calls.flatMap SessionCall.submitted ∧
      later.flatMap SessionCall.synchronized = calls.flatMap SessionCall.synchronized ∧
      later.flatMap SessionCall.checkpointed = [position] := by
  cases flag with
  | true => exact ⟨calls, rfl, rfl, rfl, h⟩
  | false =>
    rw [if_neg Bool.false_ne_true]
    refine ⟨calls ++ [.checkpointRetention position], call_ok haccepts _, ?_, ?_, ?_⟩
    · rw [flatMap_append]
      exact append_nil _
    · rw [flatMap_append]
      exact append_nil _
    · rw [flatMap_append, h]
      rfl

theorem finishFeeding_prefilled {settled : Nat}
    (hsettled : firstPosition + tokens.length ≤ settled)
    (hfed : Fed service session tokens firstPosition request tokens.length settled feeding) :
    ∃ calls result,
      finishFeeding service session tokens firstPosition feeding = .ok (calls, result) ∧
      Prefilled service session tokens firstPosition request calls result := by
  have hwithin := hbegun.within
  have hretention := hbegun.retention
  have hpositive := length_pos_iff.2 hbegun.some
  have hend : u32 (firstPosition + u32 tokens.length) = firstPosition + tokens.length := by
    simp (disch := omega) only [u32_eq]
  obtain ⟨hsubmitted, -, hsynchronized, hcheckpointed, hreached, hlastPredicted, hretained,
    hbefore, hposition, -⟩ := hfed
  have hpredicted := hlastPredicted hpositive
  rw [take_length] at hsubmitted hpredicted
  rw [take_of_length_le (Nat.le_of_eq (successorsOf_length hbegun.some))] at hsynchronized
  obtain ⟨fedCalls, ⟨predicted, retentionPredicted, nextPosition, position, valid, sampling,
    multimodal⟩, flag⟩ := feeding
  subst hposition
  unfold finishFeeding ActiveRequest.retainPredicted
  dsimp only
  rw [hend]
  by_cases hnone : request.retentionPosition = 0
  · have hlast : ¬ (firstPosition + tokens.length = request.retentionPosition) := by omega
    have hposition : retainedPosition tokens firstPosition request =
        firstPosition + tokens.length := if_pos hnone
    have hflag : flag = false := by
      rw [Bool.eq_false_iff]
      intro hflag
      have := (hreached.1 hflag).2
      omega
    rw [hflag, if_neg Bool.false_ne_true] at hcheckpointed
    rw [if_neg hlast]
    by_cases hsupported : service.sessionRetention = true
    · obtain ⟨later, hlater, hsub, hsyn, hchk⟩ :=
        @checkpoint_once session fedCalls haccepts false (firstPosition + tokens.length)
          hcheckpointed
      rw [if_pos hsupported, if_pos hnone, if_pos rfl, hflag]
      refine ⟨later, _, bind_ok.2 ⟨later, hlater, rfl⟩, ?_⟩
      refine ⟨hsub.trans hsubmitted, hsyn.trans hsynchronized, ?_, rfl, hpredicted, ?_, ?_⟩
      · rw [hchk, if_pos hsupported, hposition]
      · intro _ _
        rw [hposition, Nat.add_sub_cancel_left, take_length]
        exact ⟨rfl, hpredicted, rfl⟩
      · intro hnot
        exact absurd ⟨hsupported, by omega⟩ hnot
    · rw [if_neg hsupported]
      refine ⟨_, _, rfl, hsubmitted, hsynchronized, ?_, rfl, hpredicted, ?_, ?_⟩
      · rw [hcheckpointed, if_neg hsupported]
      · intro hyes
        exact absurd hyes hsupported
      · intro _
        exact hbefore (by omega)
  · have hsupported := hbegun.supported hnone
    have hposition : retainedPosition tokens firstPosition request = request.retentionPosition :=
      if_neg hnone
    obtain ⟨later, hlater, hsub, hsyn, hchk⟩ :=
      @checkpoint_once session fedCalls haccepts flag request.retentionPosition hcheckpointed
    rw [if_pos hsupported]
    by_cases hlast : firstPosition + tokens.length = request.retentionPosition
    · rw [if_pos hlast]
      rw [if_neg hnone, if_pos hlast.symm]
      refine ⟨later, _, bind_ok.2 ⟨later, hlater, rfl⟩, ?_⟩
      refine ⟨hsub.trans hsubmitted, hsyn.trans hsynchronized, ?_, rfl, hpredicted, ?_, ?_⟩
      · rw [hchk, if_pos hsupported, hposition]
      · intro _ _
        rw [hposition, ← hlast, Nat.add_sub_cancel_left, take_length]
        exact ⟨rfl, hpredicted, rfl⟩
      · intro hnot
        exact absurd ⟨hsupported, by omega⟩ hnot
    · rw [if_neg hlast]
      have hother : ¬ request.retentionPosition = firstPosition + tokens.length :=
        fun hsame => hlast hsame.symm
      rw [if_neg hnone, if_neg hother]
      refine ⟨later, _, bind_ok.2 ⟨later, hlater, rfl⟩, ?_⟩
      refine ⟨hsub.trans hsubmitted, hsyn.trans hsynchronized, ?_, rfl, hpredicted, ?_, ?_⟩
      · rw [hchk, if_pos hsupported, hposition]
      · intro _ hfirst
        rw [hposition] at hfirst ⊢
        exact ⟨rfl, hretained hfirst (by omega)⟩
      · intro hnot
        refine hbefore fun hinside => hnot ⟨hsupported, ?_⟩
        rw [hposition]
        exact hinside.1

end

/-- Feeding a prompt comes to the same on both paths and with any chunks. -/
theorem feed_prefills (hbegun : Begun service session tokens firstPosition request)
    (haccepts : ∀ earlier next, session.refusal earlier next = none) :
    ∃ calls result, feed service session tokens firstPosition request = .ok (calls, result) ∧
      Prefilled service session tokens firstPosition request calls result := by
  unfold feed
  by_cases hsequence : 1 < tokens.length ∧ session.programSequenceAvailable = true
  · obtain ⟨feeding, hfeeding, hfed⟩ := feedSequence_fed hbegun haccepts
    obtain ⟨calls, result, hfinish, hprefilled⟩ :=
      finishFeeding_prefilled hbegun haccepts (Nat.le_refl _) hfed
    rw [if_pos hsequence]
    exact ⟨calls, result, bind_ok.2 ⟨feeding, hfeeding, hfinish⟩, hprefilled⟩
  · obtain ⟨feeding, hfeeding, hfed⟩ := feedChunks_fed hbegun haccepts
      (show tokens.length < tokens.length + 1 + 0 by omega) (Nat.zero_le _) (fed_zero (by omega))
    obtain ⟨calls, result, hfinish, hprefilled⟩ :=
      finishFeeding_prefilled hbegun haccepts (Nat.le_succ _) hfed
    rw [if_neg hsequence]
    exact ⟨calls, result, bind_ok.2 ⟨feeding, hfeeding, hfinish⟩, hprefilled⟩

end

/-- A session whose model counts the tokens. -/
def countingSession (retention : Nat) : ProgramExecutionSession where
  vocabSize := 8
  retentionCheckpointPosition := retention
  reservedContextTokens := 16
  programSequenceAvailable := true
  exactDecodeAvailable := true
  history := []
  next := fun text => text.length % 8
  next_lt := fun _ => Nat.mod_lt _ (by decide)
  everyRow := fun _ _ => false
  refusal := fun _ _ => none

theorem feed_prefills_counting : ∃ calls result,
    feed ⟨2, true, some 1⟩ (countingSession 2) [3, 1, 4] 0 { retentionPosition := 2 } =
        .ok (calls, result) ∧
      Prefilled ⟨2, true, some 1⟩ (countingSession 2) [3, 1, 4] 0 { retentionPosition := 2 } calls
        result := by
  refine feed_prefills ⟨by decide, by decide, by decide, by decide, fun _ => rfl, rfl⟩ ?_
  intro _ _
  rfl

/-- Without retention and exact decoding nothing is checkpointed or synchronised. -/
theorem feed_without_support : ∃ calls result,
    feed ⟨2, false, none⟩ (countingSession 0) [3, 1] 0 {} = .ok (calls, result) ∧
      calls.flatMap SessionCall.checkpointed ≠ [2] ∧
      calls.flatMap SessionCall.synchronized ≠ [(1, 0), (2, 1)] :=
  ⟨_, _, rfl, by decide, by decide⟩

end QuantumLlm.Runtime.Worker
