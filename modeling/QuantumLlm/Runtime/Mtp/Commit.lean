import QuantumLlm.Runtime.Mtp.Stream

/-!
# What an exact decode commits

However the verification comes out, the state behind an exact decode is on the
stream that the emitted tokens extend, and it has drafts exactly when another exact
decode fits the context.
-/

namespace QuantumLlm.Runtime.Mtp

open SpeculativeSampling List

namespace Program

variable {α R K H : Type} [Field α] [LinearOrder α]
  {program : Program α R K H} {uniforms : Uniforms α} {state : RequestState α R K H}
  {request : RequestContext} {committed proposals : List UInt32} {predicted : UInt32}
  {contextLimit : Nat} {verification : Verification}

/-- What a decode returns and leaves when these drafts are accepted. -/
structure Commits (program : Program α R K H) (request : RequestContext) (contextLimit : Nat)
    (committed : List UInt32) (predicted : UInt32) (accepted : List UInt32)
    (state : RequestState α R K H) (result : ExactDecodeExecutionResult) : Prop where
  emitted : result.emittedTokens = predicted :: accepted
  positionsAdvanced : result.positionsAdvanced = result.emittedTokens.length
  stream : Stream program request contextLimit (committed ++ result.emittedTokens) result.nextToken
    state
  draftValid : state.draftValid = true ↔
    (committed ++ result.emittedTokens).length + 1 < contextLimit

theorem restore_ok (hdepth : proposals.length ≤ 4)
    (hrecurrent : state.recurrent = (program.after (committed ++ predicted :: proposals)).1)
    (hspeculative : ∀ row < (predicted :: proposals).length, state.speculativeCheckpoint row =
      (program.after (committed ++ (predicted :: proposals).take (row + 1))).1)
    (haccepted : verification.accepted ≤ proposals.length)
    (hrejected : verification.rejected = true ↔ verification.accepted < proposals.length) :
    state.restoreVerified verification =
      .ok { state with
        recurrent := (program.after
          (committed ++ predicted :: proposals.take verification.accepted)).1 } := by
  rw [RequestState.restoreVerified]
  by_cases hfull : verification.accepted < proposals.length
  · rw [if_pos (hrejected.2 hfull), RequestState.restoreSpeculativeRecurrentCheckpoint,
      if_neg (by omega), hspeculative _ (by simp; omega), take_succ_cons]
  · have hall : verification.accepted = proposals.length := by omega
    rw [if_neg fun h => hfull (hrejected.1 h), hall, take_length, ← hrecurrent]

theorem argmax_head_lt {hidden : H} :
    (argmax (program.head hidden)).toNat < program.vocabularySize := by
  have hlength := program.head_length hidden
  have hvocabulary := program.draftVocabulary
  have hsome : program.head hidden ≠ [] := by
    rw [← length_pos_iff, hlength]
    omega
  obtain ⟨candidate, hcandidate, heq⟩ := mem_map.1 (argmax_mem hsome)
  have hlt := toNat_lt_of_candidate (by rw [hlength]; exact program.vocabulary) hcandidate
  rwa [heq, hlength] at hlt

variable [IsStrictOrderedRing α]

/-- A verification with any outcome: from no proposal to all of them, and any next token. -/
theorem commitMultiDraft_ok
    (habi : 2 ≤ program.exactDecodeAbi) (hlimit : contextLimit ≤ program.maxContext)
    (hsamples : program.Samples request)
    (hproposals : state.draftPredictions.map (·.token) = proposals)
    (hdepth : proposals.length ≤ 4) (hfits : committed.length + proposals.length < contextLimit)
    (htokens : ∀ token ∈ predicted :: proposals, token.toNat < program.vocabularySize)
    (hran : Ran program committed (predicted :: proposals) state)
    (hspeculative : ∀ row < (predicted :: proposals).length, state.speculativeCheckpoint row =
      (program.after (committed ++ (predicted :: proposals).take (row + 1))).1)
    (haccepted : verification.accepted ≤ proposals.length)
    (hrejected : verification.rejected = true ↔ verification.accepted < proposals.length)
    (hnext : verification.nextToken.toNat < program.vocabularySize) :
    ∃ state' result,
      program.commitMultiDraft uniforms state ⟨request, predicted, committed.length, contextLimit⟩
          (program.hiddenRows committed (predicted :: proposals)) verification =
        .ok (state', result) ∧
      Commits program request contextLimit committed predicted (proposals.take verification.accepted)
        state' result ∧
      result.nextToken = verification.nextToken ∧
      state'.samplingPresence = state.samplingPresence ∪
        (proposals.take verification.accepted).toFinset ∪ {verification.nextToken} := by
  have hcache := @keyValues_extends _ _ _ _ _ _ program
    (committed ++ predicted :: proposals.take verification.accepted)
    (proposals.drop verification.accepted) state.keyValues
    (by rw [append_assoc, cons_append, take_append_drop]; exact hran.keyValues)
  have hlength : (committed ++ predicted :: proposals.take verification.accepted).length =
      committed.length + (verification.accepted + 1) := by
    rw [length_append, length_cons, length_take, min_eq_left haccepted]
  have hmtpTokens : (proposals.take verification.accepted ++ [verification.nextToken]).length =
      verification.accepted + 1 := by
    rw [length_append, length_take, min_eq_left haccepted, length_singleton]
  have hvocabulary : ∀ token ∈ proposals.take verification.accepted ++ [verification.nextToken],
      token.toNat < program.vocabularySize := by
    intro token htoken
    rcases mem_append.1 htoken with hproposal | hlast
    · exact htokens token (mem_cons_of_mem _ (mem_of_mem_take hproposal))
    · rw [mem_singleton.1 hlast]
      exact hnext
  simp only [commitMultiDraft, hproposals,
    restore_ok hdepth hran.recurrent hspeculative haccepted hrejected, Bind.bind, Except.bind]
  generalize hpresence : state.samplingPresence ∪
    (proposals.take verification.accepted).toFinset ∪ {verification.nextToken} = presence
  have hroom : (decide (committed.length + (verification.accepted + 1) + 1 < contextLimit) = true) ↔
      committed.length + (verification.accepted + 1) + 1 < contextLimit := decide_eq_true_iff
  generalize decide (committed.length + (verification.accepted + 1) + 1 < contextLimit) =
    futureExact at hroom ⊢
  obtain ⟨mtpKeyValues, hidden, prediction, hrun, hmade⟩ :=
    @runMtp_ok _ _ _ _ _ _ _ program uniforms
      { state with
        recurrent := (program.after
          (committed ++ predicted :: proposals.take verification.accepted)).1
        lastHidden := (program.hiddenRows committed (predicted :: proposals)).getD
          verification.accepted state.lastHidden
        samplingPresence := presence
        mtpLength := committed.length, draftValid := false, draftPredictions := [] }
      (proposals.take verification.accepted ++ [verification.nextToken])
      ((program.hiddenRows committed (predicted :: proposals)).take (verification.accepted + 1))
      ⟨committed.length + (verification.accepted + 1), 1, 0⟩
      (if futureExact = true then some (request, presence) else none) futureExact
      (by simp) (by have := program.rows; omega) (by dsimp only; omega) hvocabulary
      (by
        intro request' presence' hsome
        split at hsome
        · cases hsome
          exact hsamples
        · cases hsome)
  rw [hmtpTokens] at hrun
  rw [hrun]
  cases hfuture : futureExact with
  | false =>
    have hdone : ¬ committed.length + (verification.accepted + 1) + 1 < contextLimit := by
      rw [← hroom, hfuture]
      simp
    refine ⟨_, _, rfl, ⟨rfl, ?_, ⟨rfl, hcache, fun _ => ?_, rfl, hnext, nofun⟩, ?_⟩, rfl, rfl⟩
    · simp [haccepted]
    · exact hlength.symm
    · dsimp only
      rw [hlength]
      exact ⟨nofun, fun h => absurd h hdone⟩
  | true =>
    obtain ⟨first, rfl, hfirst⟩ := hmade hfuture
    have hnextRoom := hroom.1 hfuture
    obtain ⟨mtpKeyValues', hidden', predictions, hextend, hsome, hcount, hfit, hproper⟩ :=
      @extendMtpRollout_ok _ _ _ _ _ _ _ program uniforms
        { state with
          recurrent := (program.after
            (committed ++ predicted :: proposals.take verification.accepted)).1
          lastHidden := (program.hiddenRows committed (predicted :: proposals)).getD
            verification.accepted state.lastHidden
          samplingPresence := presence
          mtpKeyValues := mtpKeyValues, mtpLastHidden := hidden
          mtpLength := committed.length + (verification.accepted + 1), draftValid := false
          draftPredictions := [] }
        request presence contextLimit first habi hlimit hnextRoom hsamples hfirst
    simp only [continueMultiDraft, if_true, hextend]
    refine ⟨_, _, rfl, ⟨rfl, ?_, ⟨rfl, hcache, fun _ => hlength.symm, rfl, hnext, fun _ => ?_⟩, ?_⟩,
      rfl, rfl⟩
    · simp [haccepted]
    · refine ⟨fun _ => hsamples, ?_, ?_, ?_, ?_, hproper⟩ <;> simp only [drafts, if_pos habi]
      · simpa using hsome
      · rwa [length_map]
      · rw [length_map, hlength]
        exact hfit
      · intro token htoken
        obtain ⟨proposal, hproposal, rfl⟩ := mem_map.1 htoken
        exact (hproper proposal hproposal).token
    · dsimp only
      rw [hlength]
      exact ⟨fun _ => hnextRoom, fun _ => rfl⟩

theorem executeMultiDraft_ok (habi : 2 ≤ program.exactDecodeAbi)
    (hlimit : contextLimit ≤ program.maxContext)
    (h : Stream program request contextLimit committed predicted state)
    (hdrafts : ProperDrafts program request contextLimit committed.length state) :
    ∃ accepted state' result, accepted ≤ (program.drafts state).length ∧
      program.executeMultiDraft uniforms state
          ⟨request, predicted, committed.length, contextLimit⟩ = .ok (state', result) ∧
      Commits program request contextLimit committed predicted ((program.drafts state).take accepted)
        state' result ∧
      state'.samplingPresence = state.samplingPresence ∪
        ((program.drafts state).take accepted).toFinset ∪ {result.nextToken} := by
  obtain ⟨hmade, hsome, hdepth, hfits, htokens, hproper⟩ := hdrafts
  have hsamples := hmade habi
  have hdraftDepth : program.draftDepth ≤ 4 := by
    rcases program.abi with ⟨-, hone⟩ | ⟨-, -, hfour⟩ <;> omega
  rw [drafts, if_pos habi] at hsome hdepth hfits htokens ⊢
  have hlength : (state.draftPredictions.map (·.token)).length = state.draftPredictions.length :=
    length_map _
  have hbatchTokens : ∀ token ∈ predicted :: state.draftPredictions.map (·.token),
      token.toNat < program.vocabularySize := by
    intro token htoken
    rcases mem_cons.1 htoken with rfl | htoken
    · exact h.token
    · exact htokens token htoken
  obtain ⟨recurrent, keyValues, checkpoint, speculative, hrun, hran, -, hbehind⟩ :=
    @runTarget_ok _ _ _ _ _ _ program (predicted :: state.draftPredictions.map (·.token)) state
      committed .everyRow h.recurrent h.keyValues (by simp)
      (by have := program.rows; simp; omega) hbatchTokens
  rw [length_cons, hlength] at hrun
  obtain ⟨distributions, hdistributions, hcount, hvocabular⟩ :=
    @targetDistributions_ok _ _ _ _ _ _ program _ request state.samplingPresence
      (program.hiddenRows committed (predicted :: state.draftPredictions.map (·.token)))
      (state.draftPredictions.map (·.token)) hsamples hiddenRows_length
  rw [hiddenRows_length, length_cons, hlength] at hcount
  have hlast : Vocabular program (distributions.getLastD ⟨[]⟩) := by
    cases hdistributions : distributions with
    | nil => rw [hdistributions] at hcount; simp at hcount
    | cons first rest =>
      rw [getLastD_cons]
      apply hvocabular
      rw [hdistributions]
      exact getLastD_mem_cons
  obtain ⟨verification, hverify, haccepted, hrejected, hnext⟩ :=
    @verifyProposals_ok _ _ _ _ _ _ program _ uniforms request.samplingSeed committed.length 0
      (distributions.getLastD ⟨[]⟩) (state.draftPredictions.zip distributions) hlast (by
        intro proposal hproposal
        exact ⟨hproper _ (of_mem_zip hproposal).1, hvocabular _ (of_mem_zip hproposal).2⟩)
  have hzip : (state.draftPredictions.zip distributions).length = state.draftPredictions.length := by
    rw [length_zip, hcount]
    omega
  rw [hzip, Nat.zero_add] at haccepted hrejected
  obtain ⟨state', result, hcommit, hcommits, hnextToken, hpresence⟩ :=
    @commitMultiDraft_ok _ _ _ _ _ _ program uniforms
      { state with
        recurrent, keyValues, recurrentCheckpoint := checkpoint
        speculativeCheckpoint := speculative }
      request committed (state.draftPredictions.map (·.token)) predicted contextLimit verification _
      habi hlimit hsamples rfl (by omega) (by omega) hbatchTokens ⟨hran.recurrent, hran.keyValues⟩
      (hbehind rfl) (by omega) (by rw [hlength]; exact hrejected) hnext
  refine ⟨verification.accepted, state', result, by omega, ?_, hcommits, ?_⟩
  · rw [executeMultiDraft, if_neg (by simpa using ⟨fun hnil => hsome (by rw [hnil]; rfl), by omega⟩),
      if_neg (by simpa using fun proposal hproposal => (hproper proposal hproposal).positive)]
    rw [hrun]
    dsimp only [Bind.bind, Except.bind]
    rw [hdistributions]
    dsimp only
    rw [hverify]
    exact hcommit
  · rw [hpresence, hnextToken]

theorem continueLegacy_ok {tokens : List UInt32} {hidden : List H} {produceDraft : Bool}
    (hinvalid : state.draftValid = false) (hsome : tokens ≠ []) (hrows : tokens.length ≤ 5)
    (hfits : state.mtpLength + tokens.length ≤ program.maxContext)
    (htokens : ∀ token ∈ tokens, token.toNat < program.vocabularySize) :
    ∃ keyValues lastHidden draft,
      program.continueLegacy uniforms state tokens hidden state.mtpLength produceDraft =
        .ok { state with
          mtpKeyValues := keyValues, mtpLastHidden := lastHidden
          mtpLength := state.mtpLength + tokens.length, draftToken := draft
          draftValid := produceDraft } ∧
      (produceDraft = true → draft.toNat < program.vocabularySize) := by
  obtain ⟨keyValues, lastHidden, prediction, hrun, hmade⟩ :=
    @runMtp_ok _ _ _ _ _ _ _ program uniforms state tokens (hidden.take tokens.length) ⟨0, 0, 0⟩
      none produceDraft hsome (hrows.trans program.rows) hfits htokens (by rintro _ _ ⟨⟩)
  simp only [continueLegacy, hrun, Bind.bind, Except.bind]
  cases produceDraft with
  | false =>
    refine ⟨keyValues, lastHidden, state.draftToken, ?_, nofun⟩
    rw [if_neg (by simp)]
    simp only [pure, Except.pure, hinvalid]
  | true =>
    obtain ⟨draft, rfl, hdraft⟩ := hmade rfl
    exact ⟨keyValues, lastHidden, draft.token, rfl, fun _ => hdraft.token⟩

theorem draftLegacy_ok {accepted : Bool} {draft nextToken : UInt32} {hidden : List H}
    (hinvalid : state.draftValid = false) (hlimit : contextLimit ≤ program.maxContext)
    (hfits : state.mtpLength + 1 < contextLimit) (hdraft : draft.toNat < program.vocabularySize)
    (hnext : nextToken.toNat < program.vocabularySize) :
    ∃ keyValues lastHidden length next valid,
      program.draftLegacy uniforms state accepted draft nextToken hidden state.mtpLength
          (state.mtpLength + (if accepted then 2 else 1) + 1 < contextLimit) =
        .ok { state with
          mtpKeyValues := keyValues, mtpLastHidden := lastHidden, mtpLength := length
          draftToken := next, draftValid := valid } ∧
      (state.mtpLength + (if accepted then 2 else 1) < program.maxContext →
        length = state.mtpLength + if accepted then 2 else 1) ∧
      (valid = true ↔ state.mtpLength + (if accepted then 2 else 1) + 1 < contextLimit) ∧
      (valid = true → next.toNat < program.vocabularySize) := by
  cases accepted with
  | false =>
    obtain ⟨keyValues, lastHidden, next, hcontinue, hvalid⟩ :=
      @continueLegacy_ok _ _ _ _ _ _ program uniforms state _ [nextToken] hidden
        (decide (state.mtpLength + 1 + 1 < contextLimit)) hinvalid (by simp) (by simp)
        (by simp; omega) (by simpa using hnext)
    exact ⟨keyValues, lastHidden, _, next, _, by simpa [draftLegacy] using hcontinue,
      fun _ => rfl, decide_eq_true_iff, hvalid⟩
  | true =>
    by_cases hroom : state.mtpLength + 2 < program.maxContext
    · obtain ⟨keyValues, lastHidden, next, hcontinue, hvalid⟩ :=
        @continueLegacy_ok _ _ _ _ _ _ program uniforms state _ [draft, nextToken] hidden
          (decide (state.mtpLength + 2 + 1 < contextLimit)) hinvalid (by simp) (by simp)
          (by simp; omega) (by simpa using ⟨hdraft, hnext⟩)
      exact ⟨keyValues, lastHidden, _, next, _, by simpa [draftLegacy, hroom] using hcontinue,
        fun _ => rfl, decide_eq_true_iff, hvalid⟩
    · -- The stream ends at the model's maximum context: nothing is left to draft.
      obtain ⟨keyValues, lastHidden, next, hcontinue, hvalid⟩ :=
        @continueLegacy_ok _ _ _ _ _ _ program uniforms state _ [draft] hidden false hinvalid
          (by simp) (by simp) (by simp; omega) (by simpa using hdraft)
      refine ⟨keyValues, lastHidden, _, next, _, by simpa [draftLegacy, hroom] using hcontinue,
        fun h => absurd h hroom, ⟨fun h => (by cases h), fun h => ?_⟩, hvalid⟩
      simp only [if_true] at h
      omega

theorem commitLegacy_ok {draft nextToken : UInt32} {hidden : List H} {accepted : Bool}
    (habi : ¬ 2 ≤ program.exactDecodeAbi) (hlimit : contextLimit ≤ program.maxContext)
    (hfits : committed.length + 1 < contextLimit) (hposition : state.mtpLength = committed.length)
    (hdraft : draft.toNat < program.vocabularySize)
    (hnext : nextToken.toNat < program.vocabularySize)
    (hran : Ran program committed [predicted, draft] state)
    (hcheckpoint : state.recurrentCheckpoint = (program.after (committed ++ [predicted])).1) :
    ∃ state' result,
      program.commitLegacy uniforms state ⟨request, predicted, committed.length, contextLimit⟩
          hidden draft accepted nextToken = .ok (state', result) ∧
      Commits program request contextLimit committed predicted (if accepted then [draft] else []) state'
        result := by
  have hrestored : (if accepted = true then state else state.restoreRecurrentCheckpoint) =
      { state with
        recurrent := (program.after
          (committed ++ predicted :: if accepted = true then [draft] else [])).1 } := by
    cases accepted with
    | true => rw [if_pos rfl, if_pos rfl, ← hran.recurrent]
    | false => rw [if_neg (by simp), if_neg (by simp), ← hcheckpoint]; rfl
  have hcache : (List.range (committed ++ predicted :: if accepted = true then [draft]
      else []).length).map state.keyValues =
        (program.after (committed ++ predicted :: if accepted = true then [draft] else [])).2 := by
    cases accepted with
    | true => exact hran.keyValues
    | false =>
      exact @keyValues_extends _ _ _ _ _ _ program (committed ++ [predicted]) [draft]
        state.keyValues (by rw [append_assoc]; exact hran.keyValues)
  have hlength : (committed ++ predicted :: if accepted = true then [draft] else []).length =
      committed.length + if accepted = true then 2 else 1 := by
    cases accepted <;> simp
  obtain ⟨keyValues, lastHidden, length, next, valid, hdraftLegacy, hstream, hvalid, hnextDraft⟩ :=
    @draftLegacy_ok _ _ _ _ _ _ program uniforms
      { state with
        recurrent := (program.after
          (committed ++ predicted :: if accepted = true then [draft] else [])).1
        lastHidden := hidden.getD (if accepted = true then 1 else 0) state.lastHidden
        draftValid := false, draftPredictions := [] }
      contextLimit _ accepted draft nextToken hidden rfl hlimit
      (by rw [hposition]; exact hfits) hdraft hnext
  simp only [hposition] at hdraftLegacy hstream hvalid
  simp only [commitLegacy, hrestored, hposition, hdraftLegacy, Bind.bind, Except.bind]
  have hemitted : (if accepted = true then [predicted, draft] else [predicted]) =
      predicted :: if accepted = true then [draft] else [] := by
    cases accepted <;> rfl
  refine ⟨_, _, rfl, hemitted, ?_, ?_, ?_⟩
  · dsimp only
    cases accepted <;> rfl
  · dsimp only
    rw [hemitted]
    refine ⟨rfl, hcache, fun hroom => ?_, rfl, hnext, fun hready => ?_⟩
    · rw [hlength] at hroom ⊢
      exact hstream hroom
    · have hroom := hvalid.1 hready
      refine ⟨fun h => absurd h habi, ?_, ?_, ?_, ?_, nofun⟩ <;>
        simp only [drafts, if_neg habi]
      · simp
      · have hdepth := program.abi
        simp only [length_singleton]
        omega
      · rw [hlength]
        exact hroom
      · intro token htoken
        rw [mem_singleton.1 htoken]
        exact hnextDraft hready
  · dsimp only
    rw [hemitted, hlength]
    exact hvalid

theorem executeLegacy_ok (habi : ¬ 2 ≤ program.exactDecodeAbi)
    (hlimit : contextLimit ≤ program.maxContext)
    (h : Stream program request contextLimit committed predicted state)
    (hdrafts : ProperDrafts program request contextLimit committed.length state) :
    ∃ accepted state' result, accepted ≤ (program.drafts state).length ∧
      program.executeLegacy uniforms state
          ⟨request, predicted, committed.length, contextLimit⟩ = .ok (state', result) ∧
      Commits program request contextLimit committed predicted ((program.drafts state).take accepted)
        state' result := by
  obtain ⟨-, -, -, hfits, htokens, -⟩ := hdrafts
  rw [drafts, if_neg habi] at hfits htokens ⊢
  have hdraft := htokens state.draftToken (mem_singleton.2 rfl)
  have hposition := h.mtpLength (by omega)
  obtain ⟨recurrent, keyValues, checkpoint, speculative, hrun, hran, hcheckpoint, -⟩ :=
    @runTarget_ok _ _ _ _ _ _ program [predicted, state.draftToken] state committed .afterFirst
      h.recurrent h.keyValues (by simp) (by have := program.rows; simp; omega)
      (by simpa using ⟨h.token, hdraft⟩)
  have hrange : List.range' committed.length [predicted, state.draftToken].length =
      [committed.length, committed.length + 1] := rfl
  rw [hrange] at hrun
  have hrows : program.hiddenRows committed [predicted, state.draftToken] =
      [program.hiddenAfter committed predicted,
        program.hiddenAfter (committed ++ [predicted]) state.draftToken] := rfl
  rw [hrows] at hrun
  generalize program.hiddenAfter committed predicted = row at hrun
  generalize program.hiddenAfter (committed ++ [predicted]) state.draftToken = row' at hrun
  have hfirst := @argmax_head_lt _ _ _ _ _ _ program row
  have hsecond := @argmax_head_lt _ _ _ _ _ _ program row'
  simp only [executeLegacy, hrun, Bind.bind, Except.bind, map_cons, map_nil]
  have hnext : (if argmax (program.head row) = state.draftToken then argmax (program.head row')
      else argmax (program.head row)).toNat < program.vocabularySize := by
    split
    · exact hsecond
    · exact hfirst
  obtain ⟨state', result, hcommit, hcommits⟩ :=
    @commitLegacy_ok _ _ _ _ _ _ program uniforms
      { state with
        recurrent, keyValues, recurrentCheckpoint := checkpoint
        speculativeCheckpoint := speculative }
      request committed predicted contextLimit _ state.draftToken _ [row, row']
      (decide (argmax (program.head row) = state.draftToken)) habi hlimit hfits hposition hdraft hnext
      ⟨hran.recurrent, hran.keyValues⟩ (hcheckpoint rfl)
  refine ⟨if argmax (program.head row) = state.draftToken then 1 else 0, state', result, ?_, hcommit,
    ?_⟩
  · split <;> simp
  · by_cases haccepted : argmax (program.head row) = state.draftToken
    · simpa [haccepted] using hcommits
    · simpa [haccepted] using hcommits

end Program

/-- A weight of one for the best logit and of a half for each other one. -/
def halfExponential : Exponential ℚ where
  exp value := if value = 0 then 1 else 1 / 2
  exp_zero := if_pos rfl
  exp_pos value := by split <;> norm_num

/-- Two tokens that take turns, for the target and for the draft. -/
def smallProgram : Program ℚ Nat Nat Nat where
  exactDecodeAbi := 2
  draftDepth := 3
  vocabularySize := 2
  draftVocabularySize := 2
  maxContext := 16
  workspaceRows := 8
  exponential := halfExponential
  initial := 0
  targetRow count _ _ := (count + 1, count, count)
  head hidden := if hidden % 2 = 0 then [0, 1] else [1, 0]
  mtpRow _ _ hidden _ := (hidden, hidden + 1)
  mtpHead hidden := if hidden % 2 = 0 then [0, 1] else [1, 0]
  abi := .inr ⟨rfl, by omega⟩
  draftVocabulary := by omega
  vocabulary := by decide
  rows := by omega
  head_length hidden := by split <;> rfl
  mtpHead_length hidden := by split <;> rfl

def zeroUniforms : Uniforms ℚ := ⟨fun _ _ => 0, fun _ _ => le_rfl, fun _ _ => zero_lt_one⟩

/-- Behind one token, with two drafts. -/
def smallState : RequestState ℚ Nat Nat Nat where
  recurrent := 1
  recurrentCheckpoint := 0
  speculativeCheckpoint _ := 0
  keyValues position := position
  mtpKeyValues _ := 0
  lastHidden := 0
  mtpLastHidden := 0
  retained := (0, 0)
  mtpLength := 1
  synchronizedToken := 1
  draftToken := 0
  draftPredictions := [⟨0, ⟨[⟨0, 1⟩]⟩⟩, ⟨0, ⟨[⟨0, 1⟩]⟩⟩]
  draftValid := true

theorem smallState_stream :
    Stream smallProgram { reservedContextTokens := 8 } 8 [0] 1 smallState := by
  have hsamples : smallProgram.Samples { reservedContextTokens := 8 } :=
    ⟨by norm_num, by norm_num, by norm_num, by norm_num, .inl rfl⟩
  have hdrafts : smallProgram.drafts smallState = [0, 0] := rfl
  have htokens : ∀ token ∈ smallProgram.drafts smallState,
      token.toNat < smallProgram.vocabularySize := by
    rw [hdrafts]
    simp [smallProgram]
  refine ⟨rfl, rfl, fun _ => rfl, rfl, by decide, fun _ => ⟨fun _ => hsamples, by decide,
    by decide, by decide, htokens, ?_⟩⟩
  have hgreedy : (⟨0, ⟨[⟨0, 1⟩]⟩⟩ : MtpPrediction ℚ).Proper smallProgram :=
    ⟨normalized_single, by simp [SamplingDistribution.probability], by decide⟩
  intro proposal hproposal
  simp only [smallState, mem_cons, not_mem_nil, or_false, or_self] at hproposal
  rw [hproposal]
  exact hgreedy

end QuantumLlm.Runtime.Mtp
