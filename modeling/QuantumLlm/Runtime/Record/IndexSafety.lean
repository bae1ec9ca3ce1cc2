import QuantumLlm.Lib.Wire
import QuantumLlm.Runtime.Record.Acceptance
import Mathlib

/-!
# What an admitted record promises to its readers

Byte regions in exact natural-number arithmetic, the section sizes each record
ABI implies, and the layout facts a kernel relies on when it indexes an admitted
record without further checks.
-/

namespace QuantumLlm.Runtime

/-! ## Byte regions -/

/-- A region of a record, `offset` and `bytes` as exact naturals. -/
structure Region where
  offset : Nat
  bytes : Nat
  deriving DecidableEq

namespace Region

def indices (region : Region) : Set ℕ := Set.Ico region.offset (region.offset + region.bytes)

variable {region left right inner outer : Region}

@[simp] theorem mem_indices {index : ℕ} :
    index ∈ region.indices ↔ region.offset ≤ index ∧ index < region.offset + region.bytes :=
  Iff.rfl

theorem disjoint_of_le (h : left.offset + left.bytes ≤ right.offset) :
    Disjoint left.indices right.indices := by
  rw [Set.disjoint_left]
  intro index hl hr
  simp only [mem_indices] at hl hr
  omega

theorem indices_subset (low : outer.offset ≤ inner.offset)
    (high : inner.offset + inner.bytes ≤ outer.offset + outer.bytes) :
    inner.indices ⊆ outer.indices := by
  intro index h
  simp only [mem_indices] at h ⊢
  omega

theorem not_indices_subset (positive : 0 < inner.bytes)
    (outside : outer.offset + outer.bytes ≤ inner.offset) :
    ¬ inner.indices ⊆ outer.indices := by
  intro h
  have hmem : inner.offset ∈ outer.indices := h (by simp only [mem_indices]; omega)
  simp only [mem_indices] at hmem
  omega

theorem union_of_adjacent {whole : Region} (start : left.offset = whole.offset)
    (next : right.offset = left.offset + left.bytes)
    (total : left.bytes + right.bytes = whole.bytes) :
    left.indices ∪ right.indices = whole.indices := by
  ext index
  simp only [Set.mem_union, mem_indices]
  omega

theorem indices_eq_empty (h : region.bytes = 0) : region.indices = ∅ := by
  ext index
  simp only [mem_indices, Set.mem_empty_iff_false, iff_false]
  omega

end Region

def ExpertSections.regions (sections : ExpertSections) : List Region :=
  sections.spans.map fun span => ⟨span.1.toNat, span.2.toNat⟩

def ExpertSections.gateUpQ (sections : ExpertSections) : Region :=
  ⟨sections.gateUpQOffset.toNat, sections.gateUpQBytes.toNat⟩

def ExpertSections.gateUpScale (sections : ExpertSections) : Region :=
  ⟨sections.gateUpScaleOffset.toNat, sections.gateUpScaleBytes.toNat⟩

def ExpertSections.downQ (sections : ExpertSections) : Region :=
  ⟨sections.downQOffset.toNat, sections.downQBytes.toNat⟩

def ExpertSections.downScale (sections : ExpertSections) : Region :=
  ⟨sections.downScaleOffset.toNat, sections.downScaleBytes.toNat⟩

namespace SplitExpertSections

def w1Weight (split : SplitExpertSections) : Region :=
  ⟨split.w1WeightOffset.toNat, split.w1WeightBytes.toNat⟩

def w1Scale (split : SplitExpertSections) : Region :=
  ⟨split.w1ScaleOffset.toNat, split.w1ScaleBytes.toNat⟩

def w3Weight (split : SplitExpertSections) : Region :=
  ⟨split.w3WeightOffset.toNat, split.w3WeightBytes.toNat⟩

def w3Scale (split : SplitExpertSections) : Region :=
  ⟨split.w3ScaleOffset.toNat, split.w3ScaleBytes.toNat⟩

def w2Weight (split : SplitExpertSections) : Region :=
  ⟨split.w2WeightOffset.toNat, split.w2WeightBytes.toNat⟩

def w2Scale (split : SplitExpertSections) : Region :=
  ⟨split.w2ScaleOffset.toNat, split.w2ScaleBytes.toNat⟩

/-- Each slice with the section it belongs to. -/
def slices (split : SplitExpertSections) (sections : ExpertSections) : List (Region × Region) :=
  [(split.w1Weight, sections.gateUpQ), (split.w1Scale, sections.gateUpScale),
    (split.w3Weight, sections.gateUpQ), (split.w3Scale, sections.gateUpScale),
    (split.w2Weight, sections.downQ), (split.w2Scale, sections.downScale)]

end SplitExpertSections

/-- Section sizes in bytes of a `hidden` × `intermediate` expert, in record
order: fused gate/up weights, their scales, down weights, their scales. FP4 and
NVFP4 pack two weights in a byte with one scale byte per block; NVFP4 adds two
binary32 divisors per matrix; ReLU2 has no gate matrix. -/
def sectionByteCounts (recordAbi : UInt32) (hidden intermediate : Nat) : List Nat :=
  let weights := hidden * intermediate
  if recordAbi = kExpertRecordAbiInt8PerRow then
    [2 * weights, 4 * (2 * intermediate), weights, 4 * hidden]
  else if recordAbi = kExpertRecordAbiFp4Block32 then
    [2 * weights / 2, 2 * weights / 32, weights / 2, weights / 32]
  else if recordAbi = kExpertRecordAbiFp4Relu2Block32 then
    [weights / 2, weights / 32, weights / 2, weights / 32]
  else if recordAbi = kExpertRecordAbiNvfp4Block16W4A4 then
    [2 * weights / 2, 2 * (weights / 16 + 8), weights / 2, weights / 16 + 8]
  else []

def ExpertKey.Split (key : ExpertKey) : Prop :=
  key.encodingAbi = kExpertEncodingAbiFp4Block32 ∨
    key.encodingAbi = kExpertEncodingAbiNvfp4Block16W4A4

/-- The layout a reader of an admitted record may rely on. -/
structure IndexSafe (span : ByteSpan) (key : ExpertKey) (admitted : ExpertAdmission) : Prop where
  after_header : ∀ region ∈ admitted.target.regions, 256 ≤ region.offset
  aligned : ∀ region ∈ admitted.target.regions, 256 ∣ region.offset
  inside : ∀ region ∈ admitted.target.regions,
    region.offset + region.bytes ≤ span.bytes.length
  disjoint : admitted.target.regions.Pairwise fun left right =>
    Disjoint left.indices right.indices
  byte_counts : admitted.target.regions.map Region.bytes =
    sectionByteCounts (readHeader span).recordAbi admitted.target.hidden.toNat
      admitted.target.intermediate.toNat
  slices_inside : key.Split → ∀ slice ∈ admitted.compact.slices admitted.target,
    slice.1.bytes ≠ 0 → slice.1.indices ⊆ slice.2.indices
  weights_disjoint : key.Split →
    Disjoint admitted.compact.w1Weight.indices admitted.compact.w3Weight.indices
  weights_cover : key.Split →
    admitted.compact.w1Weight.indices ∪ admitted.compact.w3Weight.indices =
      admitted.target.gateUpQ.indices
  scales_disjoint : key.Split →
    Disjoint admitted.compact.w1Scale.indices admitted.compact.w3Scale.indices
  scales_cover : key.Split →
    admitted.compact.w1Scale.indices ∪ admitted.compact.w3Scale.indices =
      admitted.target.gateUpScale.indices

theorem multiply_eq_some {left right result : UInt64} (h : multiply left right = some result) :
    result.toNat = left.toNat * right.toNat := by
  unfold multiply at h
  split at h
  next => simp at h
  next hfit =>
    simp only [Option.some.injEq] at h
    subst h
    rw [UInt64.toNat_mul]
    by_cases hzero : left = 0
    · subst hzero
      simp
    · have hle : right.toNat ≤ (2 ^ 64 - 1) / left.toNat := by
        simp only [ne_eq, hzero, not_false_eq_true, true_and, gt_iff_lt, UInt64.lt_iff_toNat_lt,
          UInt64.toNat_div, not_lt] at hfit
        simpa using hfit
      have hpos : 0 < left.toNat := by
        rcases Nat.eq_zero_or_pos left.toNat with h0 | h0
        · exact (hzero (UInt64.toNat_inj.1 (by simpa using h0))).elim
        · exact h0
      have := (Nat.le_div_iff_mul_le hpos).1 hle
      rw [Nat.mul_comm] at this
      omega

/-- Everything a successful validation has checked about the layout. -/
structure Validated (span : ByteSpan) (key : ExpertKey) (expected : PayloadRecord)
    (sections : ExpertSections) : Prop where
  sections_eq : sections = readSections span
  geometry : ManifestGeometry span expected
  header : (readHeader span).Matches key expected
  blocks : blockAlignmentError (readHeader span) = none
  dimensions : ∃ weights : UInt64,
    weights.toNat = (readHeader span).hidden.toNat * (readHeader span).intermediate.toNat ∧
      SectionDimensions (readHeader span) (readSections span) weights
  spans : validSections (readHeader span).recordBytes kExpertHeaderBytes.toUInt64
    (readSections span).spans = true

variable {sha256 : List UInt8 → Sha256Digest} {span : ByteSpan} {key : ExpertKey}
  {expected : PayloadRecord} {sections : ExpertSections} {previousEnd recordBytes weights : UInt64}
  {header : ExpertHeader} {admitted : ExpertAdmission}

theorem validateExpertRecord_ok
    (h : validateExpertRecord sha256 span key expected = .ok sections) :
    Validated span key expected sections := by
  obtain ⟨hsections, weights, h⟩ := validateExpertRecord_ok_iff.1 h
  exact ⟨hsections, h.geometry, h.header, h.blocks,
    ⟨weights, by simpa using multiply_eq_some h.product, h.dimensions⟩, h.spans⟩

theorem validSection_spec {offset bytes : UInt64}
    (h : validSection offset bytes previousEnd recordBytes = true) :
    previousEnd.toNat ≤ offset.toNat ∧ 256 ∣ offset.toNat ∧
      offset.toNat + bytes.toNat ≤ recordBytes.toNat := by
  simp only [validSection, kSectionAlignment, ge_iff_le, Bool.and_eq_true, decide_eq_true_eq,
    UInt64.le_iff_toNat_le] at h
  obtain ⟨⟨⟨hprevious, haligned⟩, hfits⟩, hend⟩ := h
  have hmod : offset.toNat % 256 = 0 := by
    simpa [UInt64.toNat_mod] using congrArg UInt64.toNat (of_decide_eq_true haligned)
  rw [UInt64.toNat_sub_of_le _ _ (UInt64.le_iff_toNat_le.2 hfits)] at hend
  exact ⟨hprevious, Nat.dvd_of_mod_eq_zero hmod, by omega⟩

theorem validSections_spec {spans : List (UInt64 × UInt64)}
    (h : validSections recordBytes previousEnd spans = true) :
    (∀ span ∈ spans, previousEnd.toNat ≤ span.1.toNat ∧ 256 ∣ span.1.toNat ∧
      span.1.toNat + span.2.toNat ≤ recordBytes.toNat) ∧
    spans.Pairwise fun left right => left.1.toNat + left.2.toNat ≤ right.1.toNat := by
  induction spans generalizing previousEnd with
  | nil => simp
  | cons span rest ih =>
    obtain ⟨offset, length⟩ := span
    simp only [validSections, Bool.and_eq_true] at h
    obtain ⟨hstart, haligned, hend⟩ := validSection_spec h.1
    obtain ⟨hrest, hordered⟩ := ih h.2
    have hsum : (offset + length).toNat = offset.toNat + length.toNat := by
      have := recordBytes.toNat_lt
      rw [UInt64.toNat_add]
      omega
    simp only [hsum] at hrest
    refine ⟨?_, List.pairwise_cons.2 ⟨fun span hspan => (hrest span hspan).1, hordered⟩⟩
    intro span hspan
    rcases List.mem_cons.1 hspan with rfl | hmem
    · exact ⟨hstart, haligned, hend⟩
    · obtain ⟨hnext, hdvd, hfits⟩ := hrest span hmem
      exact ⟨by omega, hdvd, hfits⟩

/-! ## Byte counts of each format -/

theorem ExpertHeader.format_cases (h : header.Matches key expected) :
    (header.recordAbi = kExpertRecordAbiInt8PerRow ∧ header.nativeNvfp4 = false ∧
      header.fp4 = false ∧ key.encodingAbi = kExpertEncodingAbiInt8PerRow) ∨
    (header.recordAbi = kExpertRecordAbiFp4Block32 ∧ header.nativeNvfp4 = false ∧
      header.fp4 = true ∧ header.relu2 = false ∧
      key.encodingAbi = kExpertEncodingAbiFp4Block32) ∨
    (header.recordAbi = kExpertRecordAbiFp4Relu2Block32 ∧ header.nativeNvfp4 = false ∧
      header.fp4 = true ∧ header.relu2 = true ∧
      key.encodingAbi = kExpertEncodingAbiFp4Block32) ∨
    (header.recordAbi = kExpertRecordAbiNvfp4Block16W4A4 ∧ header.nativeNvfp4 = true ∧
      key.encodingAbi = kExpertEncodingAbiNvfp4Block16W4A4) := by
  obtain ⟨-, -, -, habi, -, hencoding, -⟩ := h
  rcases habi with habi | habi | habi | habi <;>
    simp [← hencoding, encodingAbi, nativeNvfp4, fp4, relu2, habi, kExpertRecordAbiInt8PerRow,
      kExpertRecordAbiFp4Block32, kExpertRecordAbiFp4Relu2Block32,
      kExpertRecordAbiNvfp4Block16W4A4]

section

variable (hnative : header.nativeNvfp4 = false)

include hnative

theorem sectionDimensions_int8 (hfp4 : header.fp4 = false)
    (h : SectionDimensions header sections weights) :
    sections.gateUpQBytes.toNat = 2 * weights.toNat % 2 ^ 64 ∧
      sections.gateUpScaleBytes.toNat = 4 * (2 * header.intermediate.toNat) ∧
      sections.downQBytes.toNat = weights.toNat ∧
      sections.downScaleBytes.toNat = 4 * header.hidden.toNat := by
  have hhidden := header.hidden.toNat_lt
  have hintermediate := header.intermediate.toNat_lt
  simp only [SectionDimensions, hnative, hfp4, Bool.false_eq_true, if_false, ← UInt64.toNat_inj,
    UInt64.toNat_mul] at h
  simp only [UInt64.reduceToNat, UInt32.toNat_toUInt64] at h
  omega

theorem sectionDimensions_gated (hfp4 : header.fp4 = true)
    (hrelu2 : header.relu2 = false) (h : SectionDimensions header sections weights) :
    sections.gateUpQBytes.toNat = weights.toNat ∧
      sections.gateUpScaleBytes.toNat = 2 * weights.toNat % 2 ^ 64 / 32 ∧
      sections.downQBytes.toNat = weights.toNat / 2 ∧
      sections.downScaleBytes.toNat = weights.toNat / 32 := by
  simp only [SectionDimensions, hnative, hfp4, hrelu2, Bool.false_eq_true, if_false, if_true,
    ← UInt64.toNat_inj, UInt64.toNat_mul, UInt64.toNat_div] at h
  simpa [kExpertFp4BlockSize] using h

theorem sectionDimensions_relu2 (hfp4 : header.fp4 = true)
    (hrelu2 : header.relu2 = true) (h : SectionDimensions header sections weights) :
    sections.gateUpQBytes.toNat = weights.toNat / 2 ∧
      sections.gateUpScaleBytes.toNat = weights.toNat / 32 ∧
      sections.downQBytes.toNat = weights.toNat / 2 ∧
      sections.downScaleBytes.toNat = weights.toNat / 32 := by
  simp only [SectionDimensions, hnative, hfp4, hrelu2, Bool.false_eq_true, if_false, if_true,
    ← UInt64.toNat_inj, UInt64.toNat_div] at h
  simpa [kExpertFp4BlockSize] using h

end

theorem sectionDimensions_nvfp4 (hnative : header.nativeNvfp4 = true)
    (h : SectionDimensions header sections weights) :
    sections.gateUpQBytes.toNat = weights.toNat ∧
      sections.gateUpScaleBytes.toNat = 2 * (weights.toNat / 16 + 8) ∧
      sections.downQBytes.toNat = weights.toNat / 2 ∧
      sections.downScaleBytes.toNat = weights.toNat / 16 + 8 := by
  have hlt := weights.toNat_lt
  simp only [SectionDimensions, hnative, if_true, ← UInt64.toNat_inj, UInt64.toNat_mul,
    UInt64.toNat_add, UInt64.toNat_div] at h
  have hblock : kExpertNvfp4BlockSize.toUInt64.toNat = 16 := rfl
  have hdivisors : (2 : UInt64).toNat * (4 : UInt64).toNat = 8 := rfl
  have htwo : (2 : UInt64).toNat = 2 := rfl
  rw [hblock, hdivisors, htwo] at h
  omega

section

variable {span : ByteSpan} {key : ExpertKey} {expected : PayloadRecord}
  {sections : ExpertSections}

theorem Validated.recordBytes_eq (h : Validated span key expected sections) :
    (readHeader span).recordBytes.toNat = span.bytes.length := by
  obtain ⟨-, -, -, -, -, -, -, -, -, -, -, hrecord, -⟩ := h.header
  obtain ⟨-, -, -, -, -, hsize⟩ := h.geometry
  rw [hrecord, hsize, span.size_toNat]

theorem Validated.region_spec (h : Validated span key expected sections) :
    (∀ region ∈ sections.regions, 256 ≤ region.offset ∧ 256 ∣ region.offset ∧
      region.offset + region.bytes ≤ span.bytes.length) ∧
    sections.regions.Pairwise fun left right => left.offset + left.bytes ≤ right.offset := by
  obtain ⟨hall, hordered⟩ := validSections_spec h.spans
  rw [h.recordBytes_eq] at hall
  rw [h.sections_eq]
  constructor
  · intro region hregion
    obtain ⟨span, hspan, rfl⟩ := List.mem_map.1 hregion
    exact hall span hspan
  · exact List.pairwise_map.2 hordered

/-- The weight count, a product of two 32-bit fields, never wraps. -/
def weightCount (span : ByteSpan) : Nat :=
  (readHeader span).hidden.toNat * (readHeader span).intermediate.toNat

theorem weightCount_lt (span : ByteSpan) : weightCount span < 2 ^ 64 := by
  have hh := (readHeader span).hidden.toNat_lt
  have hi := (readHeader span).intermediate.toNat_lt
  have := Nat.mul_lt_mul_of_lt_of_lt hh hi
  simpa [weightCount, ← Nat.pow_add] using this

theorem Validated.block_dvd (h : Validated span key expected sections) :
    ((readHeader span).nativeNvfp4 = true → 16 ∣ weightCount span) ∧
      ((readHeader span).nativeNvfp4 = false → (readHeader span).fp4 = true →
        32 ∣ weightCount span) := by
  have hblocks := h.blocks
  simp only [blockAlignmentError] at hblocks
  constructor
  · intro hnative
    simp only [hnative, true_and] at hblocks
    split at hblocks <;> try contradiction
    next hmod =>
      have hmod := congrArg UInt32.toNat (not_not.1 (not_or.1 hmod).1)
      have hdvd : 16 ∣ (readHeader span).hidden.toNat :=
        Nat.dvd_of_mod_eq_zero (by simpa [kExpertNvfp4BlockSize] using hmod)
      exact Dvd.dvd.mul_right hdvd _
  · intro hnative hfp4
    simp only [hnative, hfp4, true_and, Bool.false_eq_true, false_and, if_false] at hblocks
    split at hblocks <;> try contradiction
    next hmod =>
      have hmod := congrArg UInt32.toNat (not_not.1 (not_or.1 hmod).1)
      have hdvd : 32 ∣ (readHeader span).hidden.toNat :=
        Nat.dvd_of_mod_eq_zero (by simpa [kExpertFp4BlockSize] using hmod)
      exact Dvd.dvd.mul_right hdvd _

theorem ExpertSections.regions_eq (sections : ExpertSections) :
    sections.regions =
      [sections.gateUpQ, sections.gateUpScale, sections.downQ, sections.downScale] := rfl

/-- Accepted byte counts are the exact ones: the doubled products cannot have
wrapped, since one section alone would already exceed the record. -/
theorem Validated.byte_counts (h : Validated span key expected sections) :
    sections.regions.map Region.bytes =
      sectionByteCounts (readHeader span).recordAbi (readHeader span).hidden.toNat
        (readHeader span).intermediate.toNat := by
  obtain ⟨weights, hweights, hdimensions⟩ := h.dimensions
  have hlength := span.length_lt
  have hgateUp := (h.region_spec.1 sections.gateUpQ (by simp [sections.regions_eq])).2.2
  have hdown := (h.region_spec.1 sections.downQ (by simp [sections.regions_eq])).2.2
  rw [h.sections_eq] at hgateUp hdown ⊢
  simp only [ExpertSections.gateUpQ, ExpertSections.downQ] at hgateUp hdown
  simp only [ExpertSections.regions, ExpertSections.spans, List.map_cons, List.map_nil,
    sectionByteCounts, ← hweights]
  rcases ExpertHeader.format_cases h.header with ⟨habi, hnative, hfp4, -⟩ |
    ⟨habi, hnative, hfp4, hrelu2, -⟩ | ⟨habi, hnative, hfp4, hrelu2, -⟩ | ⟨habi, hnative, -⟩
  · obtain ⟨hq, hs, hdq, hds⟩ := sectionDimensions_int8 hnative hfp4 hdimensions
    simp only [habi, if_true, hq, hs, hdq, hds, List.cons.injEq, and_true]
    omega
  · obtain ⟨hq, hs, hdq, hds⟩ := sectionDimensions_gated hnative hfp4 hrelu2 hdimensions
    simp only [habi, kExpertRecordAbiInt8PerRow, kExpertRecordAbiFp4Block32, hq, hs, hdq, hds]
    simp
    omega
  · obtain ⟨hq, hs, hdq, hds⟩ := sectionDimensions_relu2 hnative hfp4 hrelu2 hdimensions
    simp [habi, kExpertRecordAbiInt8PerRow, kExpertRecordAbiFp4Block32,
      kExpertRecordAbiFp4Relu2Block32, hq, hs, hdq, hds]
  · obtain ⟨hq, hs, hdq, hds⟩ := sectionDimensions_nvfp4 hnative hdimensions
    simp [habi, kExpertRecordAbiInt8PerRow, kExpertRecordAbiFp4Block32,
      kExpertRecordAbiFp4Relu2Block32, kExpertRecordAbiNvfp4Block16W4A4, hq, hs, hdq, hds]

end

/-- The slice conditions of `IndexSafe`, for one split of one set of sections. -/
structure SlicesSafe (sections : ExpertSections) (split : SplitExpertSections) : Prop where
  inside : ∀ slice ∈ split.slices sections,
    slice.1.bytes ≠ 0 → slice.1.indices ⊆ slice.2.indices
  weights_disjoint : Disjoint split.w1Weight.indices split.w3Weight.indices
  weights_cover : split.w1Weight.indices ∪ split.w3Weight.indices = sections.gateUpQ.indices
  scales_disjoint : Disjoint split.w1Scale.indices split.w3Scale.indices
  scales_cover : split.w1Scale.indices ∪ split.w3Scale.indices = sections.gateUpScale.indices

section

variable {sections : ExpertSections} {matrixBytes scaleBytes : UInt64}

theorem gatedSplit_safe (gateUpQ : sections.gateUpQBytes.toNat = 2 * matrixBytes.toNat)
    (gateUpScale : sections.gateUpScaleBytes.toNat = 2 * scaleBytes.toNat)
    (downQ : sections.downQBytes = matrixBytes) (downScale : sections.downScaleBytes = scaleBytes)
    (weightsFit : sections.gateUpQOffset.toNat + sections.gateUpQBytes.toNat < 2 ^ 64)
    (scalesFit : sections.gateUpScaleOffset.toNat + sections.gateUpScaleBytes.toNat < 2 ^ 64) :
    SlicesSafe sections (gatedSplit sections matrixBytes scaleBytes) := by
  have hweights : (sections.gateUpQOffset + matrixBytes).toNat =
      sections.gateUpQOffset.toNat + matrixBytes.toNat := by
    rw [UInt64.toNat_add]
    omega
  have hscales : (sections.gateUpScaleOffset + scaleBytes).toNat =
      sections.gateUpScaleOffset.toNat + scaleBytes.toNat := by
    rw [UInt64.toNat_add]
    omega
  constructor
  · intro slice hslice _
    simp only [SplitExpertSections.slices, List.mem_cons, List.not_mem_nil, or_false] at hslice
    rcases hslice with rfl | rfl | rfl | rfl | rfl | rfl <;>
      apply Region.indices_subset <;>
      simp [SplitExpertSections.w1Weight, SplitExpertSections.w1Scale,
        SplitExpertSections.w3Weight, SplitExpertSections.w3Scale,
        SplitExpertSections.w2Weight, SplitExpertSections.w2Scale, gatedSplit,
        ExpertSections.gateUpQ, ExpertSections.gateUpScale, ExpertSections.downQ,
        ExpertSections.downScale, hweights, hscales, downQ, downScale] <;> omega
  · exact Region.disjoint_of_le (by
      simp [SplitExpertSections.w1Weight, SplitExpertSections.w3Weight, gatedSplit, hweights])
  · apply Region.union_of_adjacent <;>
      simp [SplitExpertSections.w1Weight, SplitExpertSections.w3Weight, gatedSplit,
        ExpertSections.gateUpQ, hweights]
    omega
  · exact Region.disjoint_of_le (by
      simp [SplitExpertSections.w1Scale, SplitExpertSections.w3Scale, gatedSplit, hscales])
  · apply Region.union_of_adjacent <;>
      simp [SplitExpertSections.w1Scale, SplitExpertSections.w3Scale, gatedSplit,
        ExpertSections.gateUpScale, hscales]
    omega

theorem ungatedSplit_safe (gateUpQ : sections.gateUpQBytes = matrixBytes)
    (gateUpScale : sections.gateUpScaleBytes = scaleBytes)
    (downQ : sections.downQBytes = matrixBytes) (downScale : sections.downScaleBytes = scaleBytes) :
    SlicesSafe sections (ungatedSplit sections matrixBytes scaleBytes) := by
  have hweight : (ungatedSplit sections matrixBytes scaleBytes).w3Weight.indices = ∅ :=
    Region.indices_eq_empty rfl
  have hscale : (ungatedSplit sections matrixBytes scaleBytes).w3Scale.indices = ∅ :=
    Region.indices_eq_empty rfl
  constructor
  · intro slice hslice hbytes
    simp only [SplitExpertSections.slices, List.mem_cons, List.not_mem_nil, or_false] at hslice
    rcases hslice with rfl | rfl | rfl | rfl | rfl | rfl
    case inr.inr.inl => exact (hbytes rfl).elim
    case inr.inr.inr.inl => exact (hbytes rfl).elim
    all_goals
      simp [SplitExpertSections.w1Weight, SplitExpertSections.w1Scale,
        SplitExpertSections.w2Weight, SplitExpertSections.w2Scale, ungatedSplit,
        ExpertSections.gateUpQ, ExpertSections.gateUpScale, ExpertSections.downQ,
        ExpertSections.downScale, gateUpQ, gateUpScale, downQ, downScale]
  · rw [hweight]
    exact Set.disjoint_empty _
  · rw [hweight, Set.union_empty, ← gateUpQ]
    rfl
  · rw [hscale]
    exact Set.disjoint_empty _
  · rw [hscale, Set.union_empty, ← gateUpScale]
    rfl

theorem gatedSplit_unsafe (scaleBytes : UInt64) (gateUpQ : sections.gateUpQBytes = matrixBytes)
    (positive : 0 < matrixBytes.toNat)
    (weightsFit : sections.gateUpQOffset.toNat + sections.gateUpQBytes.toNat < 2 ^ 64) :
    ∃ slice ∈ (gatedSplit sections matrixBytes scaleBytes).slices sections,
      slice.1.bytes ≠ 0 ∧ ¬ slice.1.indices ⊆ slice.2.indices := by
  refine ⟨((gatedSplit sections matrixBytes scaleBytes).w3Weight, sections.gateUpQ),
    by simp [SplitExpertSections.slices], by
      simpa [SplitExpertSections.w3Weight, gatedSplit, ← UInt64.toNat_inj] using positive.ne', ?_⟩
  apply Region.not_indices_subset
  · simpa [SplitExpertSections.w3Weight, gatedSplit] using positive
  · simp only [SplitExpertSections.w3Weight, gatedSplit, ExpertSections.gateUpQ,
      UInt64.toNat_add, gateUpQ] at weightsFit ⊢
    omega

end

/-! ## Admission -/

section

variable (h : validateExpertAdmission sha256 span key expected = .ok admitted)

include h

theorem validateExpertAdmission_ok :
    Validated span key expected admitted.target ∧
      admitted.compact = splitSections key expected admitted.target := by
  unfold validateExpertAdmission at h
  split at h
  · cases hrecord : validateExpertRecord sha256 span key expected with
    | error status => simp [hrecord] at h
    | ok sections =>
      simp only [hrecord, Except.ok.injEq] at h
      subst h
      exact ⟨validateExpertRecord_ok hrecord, rfl⟩
  · simp [failure] at h

theorem storedBytes_ne_zero_of_admission :
    expected.storedBytes ≠ 0 := by
  obtain ⟨-, -, -, hlarge, -⟩ := (validateExpertAdmission_ok h).1.geometry
  rintro hzero
  rw [hzero] at hlarge
  exact absurd hlarge (by decide)

end

section

variable {span : ByteSpan} {key : ExpertKey} {expected : PayloadRecord}
  {sections : ExpertSections}

section

variable (h : Validated span key expected sections)

include h

theorem Validated.matrixBytes :
    (sections.hidden.toUInt64 * sections.intermediate.toUInt64).toNat = weightCount span := by
  rw [h.sections_eq, UInt64.toNat_mul]
  exact Nat.mod_eq_of_lt (by simpa [readSections, weightCount] using weightCount_lt span)

theorem Validated.weightCount_pos :
    0 < weightCount span := by
  obtain ⟨-, -, -, -, -, -, -, -, -, -, -, -, hhidden, hintermediate, -⟩ := h.header
  have pos : ∀ value : UInt32, value ≠ 0 → 0 < value.toNat := by
    intro value hvalue
    have := mt (UInt32.toNat_inj (b := 0)).1 hvalue
    simpa [Nat.pos_iff_ne_zero] using this
  exact Nat.mul_pos (pos _ hhidden) (pos _ hintermediate)

theorem Validated.weights_fit :
    sections.gateUpQOffset.toNat + sections.gateUpQBytes.toNat < 2 ^ 63 := by
  have := (h.region_spec.1 sections.gateUpQ (by simp [sections.regions_eq])).2.2
  have := span.length_lt
  simp only [ExpertSections.gateUpQ] at *
  omega

theorem Validated.scales_fit :
    sections.gateUpScaleOffset.toNat + sections.gateUpScaleBytes.toNat < 2 ^ 63 := by
  have := (h.region_spec.1 sections.gateUpScale (by simp [sections.regions_eq])).2.2
  have := span.length_lt
  simp only [ExpertSections.gateUpScale] at *
  omega

end

theorem splitSections_fp4 (h : key.encodingAbi = kExpertEncodingAbiFp4Block32) :
    splitSections key expected sections =
      if expected.recordAbi = kExpertRecordAbiFp4Relu2Block32 then
        ungatedSplit sections (sections.hidden.toUInt64 * sections.intermediate.toUInt64 / 2)
          (sections.hidden.toUInt64 * sections.intermediate.toUInt64 / 32)
      else
        gatedSplit sections (sections.hidden.toUInt64 * sections.intermediate.toUInt64 / 2)
          (sections.hidden.toUInt64 * sections.intermediate.toUInt64 / 32) := by
  have hnative : ¬ kExpertEncodingAbiFp4Block32 = kExpertEncodingAbiNvfp4Block16W4A4 := by decide
  simp [splitSections, h, hnative, kExpertFp4BlockSize]

theorem splitSections_nvfp4 (h : key.encodingAbi = kExpertEncodingAbiNvfp4Block16W4A4) :
    splitSections key expected sections =
      if expected.recordAbi = kExpertRecordAbiFp4Relu2Block32 then
        ungatedSplit sections (sections.hidden.toUInt64 * sections.intermediate.toUInt64 / 2)
          (sections.hidden.toUInt64 * sections.intermediate.toUInt64 / 16 + 8)
      else
        gatedSplit sections (sections.hidden.toUInt64 * sections.intermediate.toUInt64 / 2)
          (sections.hidden.toUInt64 * sections.intermediate.toUInt64 / 16 + 8) := by
  simp [splitSections, h, kExpertNvfp4BlockSize]

/-- The slices are safe except for a ReLU2 record admitted under manifest ABI 0:
the validator reads the header's ABI, the slice table the manifest's. -/
theorem Validated.slices_safe_iff (h : Validated span key expected sections)
    (hsplit : key.Split) :
    SlicesSafe sections (splitSections key expected sections) ↔
      expected.recordAbi ≠ 0 ∨ (readHeader span).recordAbi ≠ kExpertRecordAbiFp4Relu2Block32 := by
  obtain ⟨weights, hweights, hdimensions⟩ := h.dimensions
  have hcount : weights.toNat = weightCount span := hweights
  have hwfit := h.weights_fit
  have hsfit := h.scales_fit
  have hproduct := h.matrixBytes
  have hpositive := h.weightCount_pos
  obtain ⟨hdvd16, hdvd32⟩ := h.block_dvd
  obtain ⟨-, -, -, -, hexpected, -⟩ := h.header
  rw [← h.sections_eq] at hdimensions
  generalize hvalue : sections.hidden.toUInt64 * sections.intermediate.toUInt64 = product
    at hproduct
  have hhalf : (product / 2).toNat = weightCount span / 2 := by
    rw [UInt64.toNat_div, hproduct]
    rfl
  have hblock : (product / 32).toNat = weightCount span / 32 := by
    rw [UInt64.toNat_div, hproduct]
    rfl
  rcases ExpertHeader.format_cases h.header with ⟨-, -, -, hencoding⟩ |
    ⟨habi, hnative, hfp4, hrelu2, hencoding⟩ | ⟨habi, hnative, hfp4, hrelu2, hencoding⟩ |
    ⟨habi, hnative, hencoding⟩
  · rcases hsplit with hsplit | hsplit <;> rw [hencoding] at hsplit <;> exact absurd hsplit (by decide)
  · obtain ⟨hq, hs, hdq, hds⟩ := sectionDimensions_gated hnative hfp4 hrelu2 hdimensions
    have hdvd := hdvd32 hnative hfp4
    have hmanifest : expected.recordAbi ≠ kExpertRecordAbiFp4Relu2Block32 := by
      rcases hexpected with hzero | heq
      · rw [hzero]
        decide
      · rw [← heq, habi]
        decide
    rw [splitSections_fp4 hencoding, hvalue, if_neg hmanifest]
    refine iff_of_true (gatedSplit_safe ?_ ?_ ?_ ?_ (by omega) (by omega)) (Or.inr ?_)
    · omega
    · omega
    · exact UInt64.toNat_inj.1 (by omega)
    · exact UInt64.toNat_inj.1 (by omega)
    · rw [habi]
      decide
  · obtain ⟨hq, hs, hdq, hds⟩ := sectionDimensions_relu2 hnative hfp4 hrelu2 hdimensions
    have hdvd := hdvd32 hnative hfp4
    rw [splitSections_fp4 hencoding, hvalue]
    rcases hexpected with hzero | heq
    · have hmanifest : expected.recordAbi ≠ kExpertRecordAbiFp4Relu2Block32 := by
        rw [hzero]
        decide
      rw [if_neg hmanifest]
      refine iff_of_false ?_ (by simp [hzero, habi])
      intro hsafe
      have hgate : sections.gateUpQBytes = product / 2 := UInt64.toNat_inj.1 (by omega)
      obtain ⟨slice, hslice, hbytes, houtside⟩ := gatedSplit_unsafe (product / 32) hgate
        (by omega) (by omega)
      exact houtside (hsafe.inside slice hslice hbytes)
    · have hmanifest : expected.recordAbi = kExpertRecordAbiFp4Relu2Block32 := by
        rw [← heq, habi]
      rw [if_pos hmanifest]
      refine iff_of_true (ungatedSplit_safe ?_ ?_ ?_ ?_) (Or.inl ?_)
      · exact UInt64.toNat_inj.1 (by omega)
      · exact UInt64.toNat_inj.1 (by omega)
      · exact UInt64.toNat_inj.1 (by omega)
      · exact UInt64.toNat_inj.1 (by omega)
      · rw [hmanifest]
        decide
  · obtain ⟨hq, hs, hdq, hds⟩ := sectionDimensions_nvfp4 hnative hdimensions
    have hdvd := hdvd16 hnative
    have hscale : (product / 16 + 8).toNat = weightCount span / 16 + 8 := by
      have hconst : (16 : UInt64).toNat = 16 ∧ (8 : UInt64).toNat = 8 := ⟨rfl, rfl⟩
      rw [UInt64.toNat_add, UInt64.toNat_div, hproduct, hconst.1, hconst.2]
      omega
    have hmanifest : expected.recordAbi ≠ kExpertRecordAbiFp4Relu2Block32 := by
      rcases hexpected with hzero | heq
      · rw [hzero]
        decide
      · rw [← heq, habi]
        decide
    rw [splitSections_nvfp4 hencoding, hvalue, if_neg hmanifest]
    refine iff_of_true (gatedSplit_safe ?_ ?_ ?_ ?_ (by omega) (by omega)) (Or.inr ?_)
    · omega
    · omega
    · exact UInt64.toNat_inj.1 (by omega)
    · exact UInt64.toNat_inj.1 (by omega)
    · rw [habi]
      decide

/-- An admitted record is safe to index exactly when it is not a ReLU2 record
admitted under a manifest that leaves the record ABI open. -/
theorem validateExpertAdmission_indexSafe_iff (sha256 : List UInt8 → Sha256Digest)
    (admitted : ExpertAdmission)
    (h : validateExpertAdmission sha256 span key expected = .ok admitted) :
    IndexSafe span key admitted ↔
      expected.recordAbi ≠ 0 ∨ (readHeader span).recordAbi ≠ kExpertRecordAbiFp4Relu2Block32 := by
  obtain ⟨hvalidated, hcompact⟩ := validateExpertAdmission_ok h
  obtain ⟨hregion, hordered⟩ := hvalidated.region_spec
  have hslices := hvalidated.slices_safe_iff
  rw [← hcompact] at hslices
  constructor
  · intro hsafe
    by_cases hsplit : key.Split
    · exact (hslices hsplit).1 ⟨hsafe.slices_inside hsplit, hsafe.weights_disjoint hsplit,
        hsafe.weights_cover hsplit, hsafe.scales_disjoint hsplit, hsafe.scales_cover hsplit⟩
    · right
      rcases ExpertHeader.format_cases hvalidated.header with ⟨habi, -⟩ |
        ⟨-, -, -, -, hencoding⟩ | ⟨-, -, -, -, hencoding⟩ | ⟨-, -, hencoding⟩
      · rw [habi]
        decide
      · exact (hsplit (Or.inl hencoding)).elim
      · exact (hsplit (Or.inl hencoding)).elim
      · exact (hsplit (Or.inr hencoding)).elim
  · intro hcondition
    have hsafe := fun hsplit => (hslices hsplit).2 hcondition
    exact
      { after_header := fun region hmem => (hregion region hmem).1
        aligned := fun region hmem => (hregion region hmem).2.1
        inside := fun region hmem => (hregion region hmem).2.2
        disjoint := hordered.imp Region.disjoint_of_le
        byte_counts := by
          rw [hvalidated.byte_counts, hvalidated.sections_eq]
          rfl
        slices_inside := fun hsplit => (hsafe hsplit).inside
        weights_disjoint := fun hsplit => (hsafe hsplit).weights_disjoint
        weights_cover := fun hsplit => (hsafe hsplit).weights_cover
        scales_disjoint := fun hsplit => (hsafe hsplit).scales_disjoint
        scales_cover := fun hsplit => (hsafe hsplit).scales_cover }

end

/-- A record from its `(width, value)` header fields and `(count, byte)` runs. -/
def assembleRecord (fields runs : List (Nat × Nat)) : List UInt8 :=
  kMagic ++ ((fields.flatMap fun field => leBytes field.1 field.2) ++
    runs.flatMap fun run => List.replicate run.1 (UInt8.ofNat run.2))

def zeroDigest : Sha256Digest := ⟨List.replicate 32 0, zeroBytes_length⟩

/-- A 32 × 32 ReLU2 record of one 4096-byte block with unit scale codes. -/
def relu2Record : ByteSpan where
  bytes := assembleRecord
    [(2, 1), (2, 256), (4, 0x0d), (4, 4), (4, 0), (4, 0), (4, 32), (4, 32), (4, 32), (4, 0),
      (8, 4096), (8, 256), (8, 512), (8, 768), (8, 32), (8, 1024), (8, 512), (8, 1536), (8, 32)]
    [(652, 0), (32, 1), (736, 0), (32, 1), (2528, 0)]
  length_lt := by decide +kernel

def relu2Key : ExpertKey := { encodingAbi := kExpertEncodingAbiFp4Block32 }

def relu2Sections : ExpertSections := ⟨32, 32, 256, 512, 768, 32, 1024, 512, 1536, 32⟩

/-- The manifest entry that names the record's ABI. -/
def relu2Manifest : PayloadRecord :=
  { storedBytes := 4096, recordAbi := kExpertRecordAbiFp4Relu2Block32 }

theorem relu2Record_admitted :
    validateExpertAdmission (fun _ => zeroDigest) relu2Record relu2Key relu2Manifest =
      .ok ⟨relu2Sections, ungatedSplit relu2Sections 512 32⟩ := by
  decide +kernel

/-- With the ABI named in the manifest the slices fit. -/
theorem relu2Record_indexSafe :
    IndexSafe relu2Record relu2Key ⟨relu2Sections, ungatedSplit relu2Sections 512 32⟩ :=
  (validateExpertAdmission_indexSafe_iff (fun _ => zeroDigest) _ relu2Record_admitted).2
    (Or.inl (by decide))

/-- With the ABI left open the same bytes are admitted, and `w3` is the 512 bytes
behind the gate/up section. -/
theorem relu2Record_open_not_indexSafe :
    validateExpertAdmission (fun _ => zeroDigest) relu2Record relu2Key { storedBytes := 4096 } =
        .ok ⟨relu2Sections, gatedSplit relu2Sections 512 32⟩ ∧
      ¬ IndexSafe relu2Record relu2Key ⟨relu2Sections, gatedSplit relu2Sections 512 32⟩ := by
  refine ⟨by decide +kernel, fun hsafe => ?_⟩
  have hgate : relu2Sections.gateUpQBytes = 512 := rfl
  obtain ⟨slice, hslice, hbytes, houtside⟩ := gatedSplit_unsafe 32 hgate (by decide) (by decide)
  exact houtside (hsafe.slices_inside (Or.inl rfl) slice hslice hbytes)

end QuantumLlm.Runtime
