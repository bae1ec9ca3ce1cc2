import QuantumLlm.Runtime.Mtp.Drafts
import QuantumLlm.Runtime.Mtp.ExactDecode

/-!
# The committed stream

What a request state has to do with the tokens that are committed: the target is
behind them, the draft has as many of them as fit, and the drafts come next. An
exact decode keeps that for the stream that it has extended.
-/

namespace QuantumLlm.Runtime.Mtp

open SpeculativeSampling List

variable {α R K H : Type} [Field α] [LinearOrder α]

namespace Program

variable (program : Program α R K H)

/-- Recurrent state, keys and values behind these tokens. -/
def after (tokens : List UInt32) : R × List K :=
  tokens.foldl (fun state token =>
    ((program.targetRow state.1 state.2 token).1,
      state.2 ++ [(program.targetRow state.1 state.2 token).2.1])) (program.initial, [])

/-- The hidden row of a token behind these tokens. -/
def hiddenAfter (tokens : List UInt32) (token : UInt32) : H :=
  (program.targetRow (program.after tokens).1 (program.after tokens).2 token).2.2

/-- The hidden rows of a batch behind these tokens. -/
def hiddenRows : List UInt32 → List UInt32 → List H
  | _, [] => []
  | tokens, token :: rest => program.hiddenAfter tokens token :: hiddenRows (tokens ++ [token]) rest

/-- The drafts of a state, in either version of the ABI. -/
def drafts (state : RequestState α R K H) : List UInt32 :=
  if 2 ≤ program.exactDecodeAbi then state.draftPredictions.map (·.token) else [state.draftToken]

end Program

/-- The drafts behind a position fit the context; in the second version of the ABI they were
sampled for the request. -/
structure ProperDrafts (program : Program α R K H) (request : RequestContext)
    (contextLimit position : Nat) (state : RequestState α R K H) : Prop where
  samples : 2 ≤ program.exactDecodeAbi → program.Samples request
  some : program.drafts state ≠ []
  depth : (program.drafts state).length ≤ program.draftDepth
  fits : position + (program.drafts state).length < contextLimit
  tokens : ∀ token ∈ program.drafts state, token.toNat < program.vocabularySize
  proposals : ∀ proposal ∈ state.draftPredictions, proposal.Proper program

/-- The state is on the stream of these tokens, and the worker has predicted the next one. -/
structure Stream (program : Program α R K H) (request : RequestContext) (contextLimit : Nat)
    (committed : List UInt32) (predicted : UInt32) (state : RequestState α R K H) : Prop where
  recurrent : state.recurrent = (program.after committed).1
  keyValues : (List.range committed.length).map state.keyValues = (program.after committed).2
  mtpLength : committed.length < program.maxContext → state.mtpLength = committed.length
  synchronizedToken : state.synchronizedToken = predicted
  token : predicted.toNat < program.vocabularySize
  drafts : state.draftValid = true →
    ProperDrafts program request contextLimit committed.length state

namespace Program

variable {program : Program α R K H} {tokens batch : List UInt32} {token : UInt32}
  {recurrent : R} {keyValues : Nat → K} {count index : Nat}

theorem after_concat : program.after (tokens ++ [token]) =
    ((program.targetRow (program.after tokens).1 (program.after tokens).2 token).1,
      (program.after tokens).2 ++
        [(program.targetRow (program.after tokens).1 (program.after tokens).2 token).2.1]) := by
  rw [after, foldl_append]
  rfl

theorem length_after : (program.after tokens).2.length = tokens.length := by
  induction tokens using List.reverseRecOn with
  | nil => rfl
  | append_singleton tokens token ih => rw [after_concat, length_append, ih]; simp

theorem after_append_extends : (program.after tokens).2 <+: (program.after (tokens ++ batch)).2 := by
  induction batch using List.reverseRecOn with
  | nil => rw [append_nil]
  | append_singleton batch token ih =>
    rw [← append_assoc, after_concat]
    exact ih.trans (prefix_append _ _)

theorem keyValues_extends
    (h : (List.range (tokens ++ batch).length).map keyValues = (program.after (tokens ++ batch)).2) :
    (List.range tokens.length).map keyValues = (program.after tokens).2 := by
  have hlength : tokens.length ≤ (tokens ++ batch).length := by simp
  have htake := congrArg (List.take tokens.length) h
  rw [← map_take, take_range, min_eq_left hlength] at htake
  rw [htake, prefix_iff_eq_take.1 (@after_append_extends _ _ _ _ _ _ program tokens batch),
    length_after]

theorem hiddenRows_length : (program.hiddenRows tokens batch).length = batch.length := by
  induction batch generalizing tokens with
  | nil => rfl
  | cons token rest ih => rw [hiddenRows, length_cons, length_cons, ih]

theorem targetRows_spec (hrecurrent : recurrent = (program.after tokens).1)
    (hkeyValues : (List.range tokens.length).map keyValues = (program.after tokens).2) :
    let out := program.targetRows recurrent keyValues
      (batch.zip (List.range' tokens.length batch.length))
    out.1 = (program.after (tokens ++ batch)).1 ∧
      (List.range (tokens ++ batch).length).map out.2.1 = (program.after (tokens ++ batch)).2 ∧
      out.2.2.1 = program.hiddenRows tokens batch ∧
      out.2.2.2.length = batch.length ∧
      ∀ row < batch.length,
        out.2.2.2[row]? = some (program.after (tokens ++ batch.take (row + 1))).1 := by
  induction batch generalizing tokens recurrent keyValues with
  | nil =>
    refine ⟨?_, ?_, rfl, rfl, fun row hrow => absurd hrow (Nat.not_lt_zero row)⟩
    · rw [append_nil]
      exact hrecurrent
    · rw [append_nil]
      exact hkeyValues
  | cons token rest ih =>
    rw [length_cons, range'_succ, zip_cons_cons]
    simp only [targetRows]
    rw [hrecurrent, hkeyValues]
    have hstep : (List.range (tokens ++ [token]).length).map
        (Function.update keyValues tokens.length
          (program.targetRow (program.after tokens).1 (program.after tokens).2 token).2.1) =
        (program.after (tokens ++ [token])).2 := by
      rw [after_concat, length_append, length_singleton, range_succ,
        map_append, map_singleton, Function.update_self, ← hkeyValues]
      congr 1
      apply map_congr_left
      intro position hposition
      rw [Function.update_of_ne (mem_range.1 hposition).ne]
    have hnext : (program.targetRow (program.after tokens).1 (program.after tokens).2 token).1 =
        (program.after (tokens ++ [token])).1 := by rw [after_concat]
    obtain ⟨hfirst, hsecond, hhidden, hlength, hrows⟩ := ih hnext hstep
    rw [length_append, length_singleton] at hfirst hsecond hhidden hlength hrows
    rw [append_assoc, singleton_append] at hfirst hsecond
    refine ⟨hfirst, hsecond, ?_, ?_, ?_⟩
    · rw [hhidden]
      rfl
    · rw [length_cons, hlength]
    · intro row hrow
      cases row with
      | zero => exact congrArg some hnext
      | succ row =>
        rw [getElem?_cons_succ, hrows row (by omega), take_succ_cons,
          append_assoc, singleton_append]

variable {state : RequestState α R K H} {committed : List UInt32} {predicted : UInt32}
  {contextLimit : Nat}

/-- A state whose target has run over a batch behind the committed tokens. -/
structure Ran (program : Program α R K H) (committed batch : List UInt32)
    (state : RequestState α R K H) : Prop where
  recurrent : state.recurrent = (program.after (committed ++ batch)).1
  keyValues : (List.range (committed ++ batch).length).map state.keyValues =
    (program.after (committed ++ batch)).2

theorem runTarget_ok {mode : RecurrentCheckpointMode}
    (hrecurrent : state.recurrent = (program.after committed).1)
    (hkeyValues : (List.range committed.length).map state.keyValues = (program.after committed).2)
    (hsome : batch ≠ []) (hrows : batch.length ≤ program.workspaceRows)
    (htokens : ∀ token ∈ batch, token.toNat < program.vocabularySize) :
    ∃ recurrent keyValues checkpoint speculative,
      program.runTarget state batch (List.range' committed.length batch.length) mode =
        .ok ({ state with
          recurrent, keyValues, recurrentCheckpoint := checkpoint
          speculativeCheckpoint := speculative }, program.hiddenRows committed batch) ∧
      Ran program committed batch { state with recurrent, keyValues } ∧
      (mode = .afterFirst → checkpoint = (program.after (committed ++ batch.take 1)).1) ∧
      (mode = .everyRow → ∀ row < batch.length,
        speculative row = (program.after (committed ++ batch.take (row + 1))).1) := by
  obtain ⟨hlast, hcache, hhidden, hlength, hbehind⟩ :=
    @targetRows_spec _ _ _ _ _ _ program committed batch _ _ hrecurrent hkeyValues
  rw [runTarget, if_neg (by simp [hsome, hrows]), if_neg (by simpa using htokens)]
  dsimp only
  cases mode with
  | afterFirst =>
    refine ⟨_, _, _, state.speculativeCheckpoint, by rw [hhidden], ⟨hlast, hcache⟩, fun _ => ?_,
      nofun⟩
    have hfirst := hbehind 0 (length_pos_iff.2 hsome)
    rw [← head?_eq_getElem?] at hfirst
    rw [headD_eq_head?_getD, hfirst]
    rfl
  | everyRow =>
    refine ⟨_, _, state.recurrentCheckpoint, _, by rw [hhidden], ⟨hlast, hcache⟩,
      nofun, fun _ row hrow => ?_⟩
    rw [hbehind row hrow]
    rfl

theorem mem_tokens_of_pos {distribution : SamplingDistribution α}
    (h : 0 < distribution.probability token) : token ∈ distribution.tokens := by
  by_contra hnew
  rw [SamplingDistribution.probability_of_not_mem hnew] at h
  exact absurd h (lt_irrefl 0)

variable [IsStrictOrderedRing α] {uniforms : Uniforms α} {request : RequestContext}

/-- A distribution over the vocabulary. -/
structure Vocabular (program : Program α R K H) (distribution : SamplingDistribution α) : Prop where
  normalized : distribution.Normalized
  tokens : ∀ token ∈ distribution.tokens, token.toNat < program.vocabularySize

theorem rejectionSample_ok {proposal : MtpPrediction α} {target : SamplingDistribution α}
    (hproposal : proposal.Proper program) (htarget : Vocabular program target) {first second : α}
    (hfirst : 0 ≤ first ∧ first < 1) (hsecond : 0 ≤ second ∧ second < 1) :
    ∃ decision, rejectionSample proposal.token target proposal.distribution first second =
        .ok decision ∧ (decision.accepted = false → decision.token.toNat < program.vocabularySize) := by
  rcases lt_or_ge first (acceptance target proposal.distribution proposal.token) with
    hbelow | habove
  · exact ⟨_, rejectionSample_accepts htarget.normalized hproposal.normalized hproposal.positive
      hfirst hsecond hbelow, nofun⟩
  · obtain ⟨token, hpick, hcorrects⟩ := rejectionSample_corrects htarget.normalized
      hproposal.normalized hproposal.positive hfirst hsecond habove
    refine ⟨_, hcorrects, fun _ => htarget.tokens token (mem_tokens_of_pos ?_)⟩
    have hexcess : 0 ≤ totalExcess target proposal.distribution :=
      Finset.sum_nonneg fun _ _ => excess_nonneg
    obtain ⟨weight, hmem, hpos⟩ := exists_of_pick (mul_nonneg hsecond.1 hexcess) hpick
    have hweight := (residual_entry htarget.normalized.listed hproposal.normalized.listed hmem).2
    dsimp only at hweight
    rw [hweight, excess] at hpos
    have hdraft := @SamplingDistribution.probability_nonneg _ _ _ proposal.distribution token
      hproposal.normalized.listed
    rcases lt_max_iff.1 hpos with habsurd | hmore
    · exact absurd habsurd (lt_irrefl 0)
    · exact lt_of_le_of_lt hdraft (sub_pos.1 hmore)

theorem verifyProposals_ok {seed position start : Nat} {bonus : SamplingDistribution α}
    {proposals : List (MtpPrediction α × SamplingDistribution α)}
    (hbonus : Vocabular program bonus)
    (hproposals : ∀ proposal ∈ proposals,
      proposal.1.Proper program ∧ Vocabular program proposal.2) :
    ∃ verification, verifyProposals uniforms seed position bonus start proposals =
        .ok verification ∧
      verification.accepted ≤ start + proposals.length ∧
      (verification.rejected = true ↔ verification.accepted < start + proposals.length) ∧
      verification.nextToken.toNat < program.vocabularySize := by
  induction proposals generalizing start with
  | nil =>
    obtain ⟨token, hsample, hmem, -⟩ := sampleDistribution_ok hbonus.normalized
      (uniforms.nonneg seed ⟨position + start, 300, 0⟩)
      (uniforms.lt_one seed ⟨position + start, 300, 0⟩)
    refine ⟨⟨start, token, false⟩, ?_, by simp, by simp, hbonus.tokens token hmem⟩
    simp only [verifyProposals, hsample, Bind.bind, Except.bind]
    rfl
  | cons proposal rest ih =>
    obtain ⟨hproper, htarget⟩ := hproposals proposal mem_cons_self
    obtain ⟨decision, hdecision, htoken⟩ := rejectionSample_ok hproper htarget
      ⟨uniforms.nonneg seed ⟨position + start, 100, start⟩,
        uniforms.lt_one seed ⟨position + start, 100, start⟩⟩
      ⟨uniforms.nonneg seed ⟨position + start, 200, start⟩,
        uniforms.lt_one seed ⟨position + start, 200, start⟩⟩
    simp only [verifyProposals, hdecision, Bind.bind, Except.bind, length_cons]
    cases haccepted : decision.accepted with
    | false =>
      refine ⟨⟨start, decision.token, true⟩, by simp [pure, Except.pure], ?_, ?_,
        htoken haccepted⟩
      · dsimp only
        omega
      · dsimp only
        simp
    | true =>
      obtain ⟨verification, hverify, hhigh, hrejected, hnext⟩ :=
        @ih (start + 1) fun other hother => hproposals other (mem_cons_of_mem _ hother)
      refine ⟨verification, by simpa using hverify, by omega, ?_, hnext⟩
      rw [hrejected]
      omega

theorem targetDistributions_ok {presence : Finset UInt32} {hidden : List H}
    {proposals : List UInt32} (hsamples : program.Samples request)
    (hrows : hidden.length = proposals.length + 1) :
    ∃ distributions,
      program.targetDistributions request presence hidden proposals = .ok distributions ∧
      distributions.length = hidden.length ∧
      ∀ distribution ∈ distributions, Vocabular program distribution := by
  have hrow : ∀ (presence : Finset UInt32) (row : H), ∃ distribution,
      distributionFromLogits program.exponential program.vocabularySize (program.head row) request
        presence = .ok distribution ∧ Vocabular program distribution := by
    intro presence row
    have hlength := program.head_length row
    have hvocabulary := program.draftVocabulary
    obtain ⟨distribution, hmade, hnormalized, htokens⟩ :=
      @distributionFromLogits_ok α _ _ request (program.head row) presence program.exponential _
        program.vocabularySize
        (by rw [hlength]; exact RequestContext.Sampled.mono hsamples hvocabulary.2)
        (by rw [← length_pos_iff, hlength]; omega) hlength.le
        (by rw [hlength]; exact program.vocabulary)
    rw [hlength] at htokens
    exact ⟨distribution, hmade, hnormalized, htokens⟩
  induction proposals generalizing presence hidden with
  | nil =>
    obtain ⟨row, rfl⟩ := length_eq_one_iff.1 hrows
    obtain ⟨distribution, hmade, hvocabular⟩ := hrow presence row
    refine ⟨[distribution], ?_, rfl, by simpa using hvocabular⟩
    simp only [targetDistributions, hmade, Bind.bind, Except.bind]
    rfl
  | cons proposal proposals ih =>
    obtain ⟨row, hidden, rfl⟩ : ∃ row rest, hidden = row :: rest := by
      cases hidden with
      | nil => simp at hrows
      | cons row rest => exact ⟨row, rest, rfl⟩
    obtain ⟨distribution, hmade, hvocabular⟩ := hrow presence row
    obtain ⟨distributions, hrest, hlength, hall⟩ :=
      @ih (insert proposal presence) hidden (by simpa using hrows)
    refine ⟨distribution :: distributions, ?_, by simp [hlength], ?_⟩
    · simp only [targetDistributions, hmade, hrest, Bind.bind, Except.bind]
      rfl
    · intro other hother
      rcases mem_cons.1 hother with rfl | hother
      · exact hvocabular
      · exact hall other hother

end Program

end QuantumLlm.Runtime.Mtp
