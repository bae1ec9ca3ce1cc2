import QuantumLlm.Runtime.Record.Validation

/-!
# Exactly the accepted records

All that a successful validation has checked, and that nothing else is checked.
-/

namespace QuantumLlm.Runtime

variable {sha256 : List UInt8 → Sha256Digest} {span : ByteSpan} {key : ExpertKey}
  {expected : PayloadRecord} {sections : ExpertSections}

/-- The checks of `validate_expert_record`. -/
structure Accepted (sha256 : List UInt8 → Sha256Digest) (span : ByteSpan) (key : ExpertKey)
    (expected : PayloadRecord) (weights : UInt64) : Prop where
  geometry : ManifestGeometry span expected
  magic : span.subspan 0 8 = kMagic
  header : (readHeader span).Matches key expected
  blocks : blockAlignmentError (readHeader span) = none
  padding : ∀ value ∈ span.subspan 148 108, value = 0
  product : multiply (readHeader span).hidden.toUInt64 (readHeader span).intermediate.toUInt64 =
    some weights
  dimensions : SectionDimensions (readHeader span) (readSections span) weights
  spans : validSections (readHeader span).recordBytes kExpertHeaderBytes.toUInt64
    (readSections span).spans = true
  scales : scaleError span (readHeader span) (readSections span) weights = none
  decoded : expected.decodedBytes = 0 ∨
    expected.decodedBytes = expectedDecoded (readHeader span) weights
  digest : readDigest span = expected.payloadSha256
  payload : sha256 (span.bytes.drop 256) = readDigest span

theorem ok_of_check {α : Type} {failed : Prop} [Decidable failed] {code : ErrorCode}
    {message : String} {next : Except Status α} {value : α}
    (h : (if failed then failure code message else next) = .ok value) :
    ¬ failed ∧ next = .ok value := by
  by_cases hf : failed
  · simp [hf, failure] at h
  · exact ⟨hf, by simpa [hf] using h⟩

theorem any_ne_zero {bytes : List UInt8} : bytes.any (· ≠ 0) = false ↔ ∀ value ∈ bytes, value = 0 := by
  simp

theorem validateExpertRecord_ok_iff : validateExpertRecord sha256 span key expected = .ok sections ↔
    sections = readSections span ∧ ∃ weights, Accepted sha256 span key expected weights := by
  constructor
  · intro h
    obtain ⟨hgeometry, h⟩ := ok_of_check h
    obtain ⟨hmagic, h⟩ := ok_of_check h
    obtain ⟨hheader, h⟩ := ok_of_check h
    cases hblocks : blockAlignmentError (readHeader span) with
    | some message => simp [hblocks, failure] at h
    | none =>
      simp only [hblocks] at h
      obtain ⟨hpadding, h⟩ := ok_of_check h
      cases hweights : multiply (readHeader span).hidden.toUInt64
          (readHeader span).intermediate.toUInt64 with
      | none => simp [hweights, failure] at h
      | some weights =>
        simp only [hweights] at h
        obtain ⟨hdimensions, h⟩ := ok_of_check h
        obtain ⟨hspans, h⟩ := ok_of_check h
        cases hscale : scaleError span (readHeader span) (readSections span) weights with
        | some message => simp [hscale, failure] at h
        | none =>
          simp only [hscale] at h
          obtain ⟨hdecoded, h⟩ := ok_of_check h
          obtain ⟨hdigest, h⟩ := ok_of_check h
          obtain ⟨hpayload, h⟩ := ok_of_check h
          refine ⟨by simpa using h.symm, weights, not_not.1 hgeometry, not_not.1 hmagic,
            not_not.1 hheader, hblocks, ?_, hweights, not_not.1 hdimensions, by simpa using hspans,
            hscale, ?_, ?_, ?_⟩
          · exact any_ne_zero.1 (Bool.not_eq_true _ ▸ hpadding)
          · rw [not_and_or, not_not, not_not] at hdecoded
            exact hdecoded
          · simpa [constantTimeEqual] using hdigest
          · rw [Bool.not_eq_true', Bool.not_eq_false] at hpayload
            exact of_decide_eq_true hpayload
  · rintro ⟨rfl, weights, h⟩
    have hpadding := any_ne_zero.2 h.padding
    have hdecoded : ¬ (expected.decodedBytes ≠ 0 ∧
        expected.decodedBytes ≠ expectedDecoded (readHeader span) weights) := by
      rintro ⟨hzero, hother⟩
      exact h.decoded.elim hzero hother
    unfold validateExpertRecord
    rw [if_neg (not_not.2 h.geometry), if_neg (not_not.2 h.magic)]
    simp only [h.blocks, h.product, h.scales]
    rw [if_neg (not_not.2 h.header)]
    change (if (span.subspan 148 108).any (· ≠ 0) then _ else _) = _
    rw [if_neg (by rw [hpadding]; simp), if_neg (not_not.2 h.dimensions),
      if_neg (by rw [h.spans]; simp), if_neg hdecoded,
      if_neg (by simp [constantTimeEqual, h.digest]),
      if_neg (by
        have hpayload := h.payload
        simp [constantTimeEqual, ← hpayload, kExpertHeaderBytes])]

end QuantumLlm.Runtime
