import QuantumLlm.Runtime.Mtp.State

/-!
# Drafts

What the draft model leaves of a request state: its cache, its length and its
proposals change, and nothing else. The proposals that it makes are ones that a
verification takes, and together they fit the context.
-/

namespace QuantumLlm.Runtime.Mtp

open SpeculativeSampling List

variable {α R K H : Type} [Field α] [LinearOrder α]

/-- A proposal that a verification takes. -/
structure MtpPrediction.Proper (program : Program α R K H) (prediction : MtpPrediction α) :
    Prop where
  normalized : prediction.distribution.Normalized
  positive : 0 < prediction.distribution.probability prediction.token
  token : prediction.token.toNat < program.vocabularySize

namespace Program

variable [IsStrictOrderedRing α] {program : Program α R K H} {uniforms : Uniforms α}
  {state : RequestState α R K H} {request : RequestContext} {presence : Finset UInt32}
  {tokens : List UInt32} {previousHidden : List H} {counter : Counter} {contextLimit : Nat}
  {first : MtpPrediction α} {sampling : Option (RequestContext × Finset UInt32)}

/-- The draft's values can be sampled for. -/
def Samples (program : Program α R K H) (request : RequestContext) : Prop :=
  request.Sampled program.draftVocabularySize

theorem mtpPrediction_ok {hidden : H}
    (h : ∀ request presence, sampling = some (request, presence) → program.Samples request) :
    ∃ prediction, program.mtpPrediction uniforms hidden sampling counter = .ok prediction ∧
      prediction.Proper program := by
  obtain ⟨hpos, hle⟩ := program.draftVocabulary
  have hlength := program.mtpHead_length hidden
  have hsize : (program.mtpHead hidden).length ≤ UInt32.size := by
    rw [hlength]
    exact hle.trans program.vocabulary
  have hsome : program.mtpHead hidden ≠ [] := by
    rw [← length_pos_iff, hlength]
    exact hpos
  cases sampling with
  | none =>
    refine ⟨_, rfl, normalized_single, ?_, ?_⟩
    · simp [SamplingDistribution.probability]
    · obtain ⟨candidate, hcandidate, heq⟩ := mem_map.1 (argmax_mem hsome)
      have hlt := toNat_lt_of_candidate hsize hcandidate
      rw [heq, hlength] at hlt
      exact lt_of_lt_of_le hlt hle
  | some sampled =>
    obtain ⟨request, presence⟩ := sampled
    obtain ⟨distribution, hmade, hnormalized, htokens⟩ :=
      @distributionFromLogits_ok α _ _ request (program.mtpHead hidden) presence
        program.exponential _ program.vocabularySize
        (by rw [hlength]; exact h request presence rfl) hsome (by rw [hlength]; exact hle) hsize
    obtain ⟨token, hsampled, hmem, hpositive⟩ := sampleDistribution_ok hnormalized
      (uniforms.nonneg request.samplingSeed counter) (uniforms.lt_one request.samplingSeed counter)
    refine ⟨⟨token, distribution⟩, ?_, hnormalized, hpositive, ?_⟩
    · simp only [mtpPrediction, hmade, hsampled, Bind.bind, Except.bind]
      rfl
    · have hlt := htokens token hmem
      rw [hlength] at hlt
      exact lt_of_lt_of_le hlt hle

theorem runMtp_ok {produceLogits : Bool} (hsome : tokens ≠ [])
    (hrows : tokens.length ≤ program.workspaceRows)
    (hfits : state.mtpLength + tokens.length ≤ program.maxContext)
    (htokens : ∀ token ∈ tokens, token.toNat < program.vocabularySize)
    (hsamples : ∀ request presence, sampling = some (request, presence) → program.Samples request) :
    ∃ keyValues hidden prediction,
      program.runMtp uniforms state tokens previousHidden
          (List.range' (state.mtpLength + 1) tokens.length) produceLogits sampling counter =
        .ok ({ state with
          mtpKeyValues := keyValues, mtpLastHidden := hidden,
          mtpLength := state.mtpLength + tokens.length }, prediction) ∧
      (produceLogits = true → ∃ made, prediction = some made ∧ made.Proper program) := by
  rw [runMtp, if_neg (by simp [hsome]; omega), if_neg (by simpa using htokens)]
  dsimp only
  cases produceLogits with
  | false => exact ⟨_, _, _, rfl, nofun⟩
  | true =>
    generalize (program.mtpRows state.mtpKeyValues state.mtpLength (tokens.zip
      (previousHidden.zip (List.range' (state.mtpLength + 1) tokens.length)))) = batch
    obtain ⟨prediction, hprediction, hproper⟩ :=
      @mtpPrediction_ok _ _ _ _ _ _ _ program uniforms counter sampling
        (batch.2.getLastD state.mtpLastHidden) hsamples
    rw [hprediction]
    exact ⟨_, _, _, rfl, fun _ => ⟨prediction, rfl, hproper⟩⟩

/-- What a rollout has proposed so far: each proposal proper, and all of them in the context. -/
structure Proposed (program : Program α R K H) (contextLimit committedLength : Nat)
    (state : RequestState α R K H) : Prop where
  some : state.draftPredictions ≠ []
  length : state.mtpLength + 1 = committedLength + state.draftPredictions.length
  fits : committedLength + state.draftPredictions.length < contextLimit
  proper : ∀ proposal ∈ state.draftPredictions, proposal.Proper program

theorem rollout_ok {committedLength remaining : Nat} (hlimit : contextLimit ≤ program.maxContext)
    (hsamples : program.Samples request) (h : Proposed program contextLimit committedLength state) :
    ∃ keyValues hidden length predictions,
      program.rollout uniforms request contextLimit remaining state presence =
        .ok { state with
          mtpKeyValues := keyValues, mtpLastHidden := hidden, mtpLength := length,
          draftPredictions := predictions } ∧
      Proposed program contextLimit committedLength
        { state with mtpLength := length, draftPredictions := predictions } ∧
      predictions.length ≤ state.draftPredictions.length + remaining := by
  induction remaining generalizing state presence with
  | zero => exact ⟨_, _, _, _, rfl, h, le_rfl⟩
  | succ remaining ih =>
    rw [rollout]
    by_cases hnext : state.mtpLength + 2 < contextLimit
    · rw [if_pos hnext]
      have hlast : ((state.draftPredictions.getLast?.map MtpPrediction.token).getD 0).toNat <
          program.vocabularySize := by
        rw [getLast?_eq_some_getLast h.some]
        have hproper := h.proper _ (getLast_mem h.some)
        exact hproper.token
      obtain ⟨keyValues, hidden, prediction, hrun, hmade⟩ :=
        @runMtp_ok _ _ _ _ _ _ _ program uniforms state
          [(state.draftPredictions.getLast?.map MtpPrediction.token).getD 0] [state.mtpLastHidden]
          ⟨state.mtpLength, 1 + state.draftPredictions.length, 0⟩ (some (request, presence)) true
          (by simp) (by have := program.rows; simp; omega) (by simp; omega)
          (by simpa using hlast) (by rintro _ _ ⟨⟩; exact hsamples)
      obtain ⟨made, rfl, hproper⟩ := hmade rfl
      dsimp only at hrun ⊢
      rw [length_singleton, range'_one] at hrun
      rw [hrun]
      have hproposed : Proposed program contextLimit committedLength
          { state with
            mtpKeyValues := keyValues, mtpLastHidden := hidden,
            mtpLength := state.mtpLength + 1,
            draftPredictions := state.draftPredictions ++ [made] } := by
        have hlength := h.length
        refine ⟨by simp, ?_, ?_, ?_⟩
        · simp only [length_append, length_singleton]
          omega
        · simp only [length_append, length_singleton]
          omega
        · intro proposal hproposal
          rcases mem_append.1 hproposal with hold | hnew
          · exact h.proper proposal hold
          · rw [mem_singleton.1 hnew]
            exact hproper
      obtain ⟨keyValues', hidden', length, predictions, hrest, hdone, hcount⟩ :=
        @ih _ (insert made.token presence) hproposed
      refine ⟨keyValues', hidden', length, predictions, hrest, ⟨hdone.some, hdone.length,
        hdone.fits, hdone.proper⟩, ?_⟩
      simp only [length_append, length_singleton] at hcount
      omega
    · rw [if_neg hnext]
      exact ⟨_, _, _, _, rfl, h, Nat.le_add_right _ _⟩

theorem extendMtpRollout_ok (habi : 2 ≤ program.exactDecodeAbi)
    (hlimit : contextLimit ≤ program.maxContext) (hroom : state.mtpLength + 1 < contextLimit)
    (hsamples : program.Samples request) (hfirst : first.Proper program) :
    ∃ keyValues hidden predictions,
      program.extendMtpRollout uniforms state request first presence contextLimit =
        .ok { state with
          mtpKeyValues := keyValues, mtpLastHidden := hidden, draftPredictions := predictions,
          draftToken := first.token, draftValid := true } ∧
      predictions ≠ [] ∧ predictions.length ≤ program.draftDepth ∧
      state.mtpLength + predictions.length < contextLimit ∧
      ∀ proposal ∈ predictions, proposal.Proper program := by
  have hdepth : 3 ≤ program.draftDepth := by
    rcases program.abi with ⟨hone, -⟩ | ⟨-, hthree, -⟩
    · omega
    · exact hthree
  rw [extendMtpRollout, if_neg (by simp [hfirst.positive]; omega), if_neg (by omega)]
  obtain ⟨keyValues, hidden, length, predictions, hrollout, hproposed, hcount⟩ :=
    @rollout_ok _ _ _ _ _ _ _ program uniforms
      { state with draftPredictions := [first] } request (insert first.token presence) contextLimit
      state.mtpLength (program.draftDepth - 1) hlimit hsamples
      ⟨by simp, rfl, hroom, by simpa using hfirst⟩
  have hsome := hproposed.some
  rw [hrollout]
  refine ⟨keyValues, hidden, predictions, ?_, hsome, ?_, hproposed.fits, hproposed.proper⟩
  · simp [Bind.bind, Except.bind, pure, Except.pure, hsome]
  · simp only [length_singleton] at hcount
    omega

end Program

end QuantumLlm.Runtime.Mtp
