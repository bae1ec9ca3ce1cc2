import QuantumLlm.ExpertPack.Validate
import QuantumLlm.Runtime.Record.IndexSafety
import QuantumLlm.Runtime.Sha256

/-!
# The two validators of an expert record

A record that the compiler's validation accepts, read by the runtime: the same
header, the same sections, and which of the runtime's checks it can still fail.
-/

namespace QuantumLlm.ExpertPack

open List

open QuantumLlm.Runtime (Sha256Digest ByteSpan ExpertKey PayloadRecord Accepted finitePositive)

variable {sha256 : Bytes → Sha256Digest} {pack : Bytes} {entry : ExpertEntry ExpertFields}
  {span : ByteSpan} {key : ExpertKey} {expected : PayloadRecord}

/-! ## Reading the same bytes -/

variable {offset value matrixLocal : Nat} {parts : List (String × Section)}

theorem slice_slice {bytes : Bytes} {start size count : Nat} (h : offset + count ≤ size) :
    slice (slice bytes start size) offset count = slice bytes (start + offset) count := by
  rw [slice, slice, slice, drop_take, take_take, drop_drop, Nat.min_eq_left (by omega)]

theorem readLe_eq (span : ByteSpan) (offset count : Nat) :
    span.readLe offset count = leValue (slice span.bytes offset count) := by
  induction count generalizing offset with
  | zero => simp [slice, ByteSpan.readLe, leValue]
  | succ count ih =>
    rw [ByteSpan.readLe, ih, ByteSpan.byteAt, slice, slice]
    by_cases h : offset < span.bytes.length
    · rw [drop_eq_getElem_cons h, take_succ_cons, leValue, getD_eq_getElem _ _ h]
    · rw [drop_eq_nil_of_le (by omega), drop_eq_nil_of_le (by omega),
        getD_eq_default _ _ (by omega)]
      simp [leValue]

theorem leValue_slice_lt (bytes : Bytes) (offset count : Nat) :
    leValue (slice bytes offset count) < 256 ^ count :=
  (leValue_lt _).trans_le (Nat.pow_le_pow_right (by omega) (length_take_le _ _))

/-- What the loader of the index makes of an entry. -/
structure Loaded (pack : Bytes) (entry : ExpertEntry ExpertFields) (span : ByteSpan)
    (key : ExpertKey) (expected : PayloadRecord) : Prop where
  bytes : span.bytes = slice pack entry.offset entry.storedBytes
  layer : key.layer.toNat = entry.layer
  expert : key.expert.toNat = entry.expert
  recordOffset : expected.recordOffset.toNat = entry.offset
  storedBytes : expected.storedBytes.toNat = entry.storedBytes
  decodedBytes : expected.decodedBytes.toNat = entry.fields.decodedBytes
  recordAbi : expected.recordAbi.toNat = entry.fields.quantAbi
  supported : entry.fields.quantAbi ∈ [quantAbiId, fp4QuantAbiId, fp4Relu2ExpertAbiId,
    nvfp4QuantAbiId]
  sourceAbi : expected.sourceAbi = Runtime.kExpertSourceAbiExpertPackV1
  headerBytes : expected.headerBytes = Runtime.kExpertHeaderBytes
  alignment : expected.alignment = Runtime.kExpertPackAlignment
  payloadSha256 : expected.payloadSha256 = entry.fields.payloadSha256
  encoding : key.encodingAbi =
    if entry.fields.quantAbi = nvfp4QuantAbiId then Runtime.kExpertEncodingAbiNvfp4Block16W4A4
    else if entry.fields.quantAbi = quantAbiId then Runtime.kExpertEncodingAbiInt8PerRow
    else Runtime.kExpertEncodingAbiFp4Block32

def recordHeader (pack : Bytes) (entry : ExpertEntry ExpertFields) : ExpertHeader :=
  unpackExpertHeader (slice pack entry.offset headerBytes)

/-- A section as the runtime has read it. -/
def SameSection (part : Section) (offset bytes : UInt64) : Prop :=
  offset.toNat = part.offset ∧ bytes.toNat = part.bytes

/-- The header as both have read it. -/
structure SameHeader (header : ExpertHeader) (span : ByteSpan) : Prop where
  magic : span.subspan 0 8 = header.magic
  version : (Runtime.readHeader span).version.toNat = header.version
  headerBytes : (Runtime.readHeader span).headerBytes.toNat = header.headerBytes
  flags : (Runtime.readHeader span).flags.toNat = header.flags
  recordAbi : (Runtime.readHeader span).recordAbi.toNat = header.quantAbi
  layer : ∃ value, header.layer = signed32 value ∧ value < 2 ^ 32 ∧
    (Runtime.readHeader span).layer = (UInt32.ofNat value).toInt32
  expert : ∃ value, header.expert = signed32 value ∧ value < 2 ^ 32 ∧
    (Runtime.readHeader span).expert = (UInt32.ofNat value).toInt32
  hidden : (Runtime.readHeader span).hidden.toNat = header.hidden
  intermediate : (Runtime.readHeader span).intermediate.toNat = header.intermediate
  fusedRows : (Runtime.readHeader span).fusedRows.toNat = header.fusedRows
  reserved : (Runtime.readHeader span).reserved.toNat = header.reserved
  recordBytes : (Runtime.readHeader span).recordBytes.toNat = header.recordBytes
  gateUpQ : SameSection header.sections.gateUpQ (Runtime.readSections span).gateUpQOffset
    (Runtime.readSections span).gateUpQBytes
  gateUpScales : SameSection header.sections.gateUpScales
    (Runtime.readSections span).gateUpScaleOffset (Runtime.readSections span).gateUpScaleBytes
  downQ : SameSection header.sections.downQ (Runtime.readSections span).downQOffset
    (Runtime.readSections span).downQBytes
  downScales : SameSection header.sections.downScales
    (Runtime.readSections span).downScaleOffset (Runtime.readSections span).downScaleBytes
  digest : (Runtime.readDigest span).bytes = header.payloadHash

theorem readLe64_toNat (span : ByteSpan) (offset : Nat) :
    (span.readLe64 offset).toNat = leValue (slice span.bytes offset 8) := by
  rw [ByteSpan.readLe64, readLe_eq, UInt64.toNat_ofNat']
  exact Nat.mod_eq_of_lt (leValue_slice_lt span.bytes offset 8)

theorem readLe32_toNat (span : ByteSpan) (offset : Nat) :
    (span.readLe32 offset).toNat = leValue (slice span.bytes offset 4) := by
  rw [ByteSpan.readLe32, readLe_eq, UInt32.toNat_ofNat']
  exact Nat.mod_eq_of_lt (leValue_slice_lt span.bytes offset 4)

theorem readLe16_toNat (span : ByteSpan) (offset : Nat) :
    (span.readLe16 offset).toNat = leValue (slice span.bytes offset 2) := by
  rw [ByteSpan.readLe16, readLe_eq, UInt16.toNat_ofNat']
  exact Nat.mod_eq_of_lt (leValue_slice_lt span.bytes offset 2)

theorem readDigest_bytes (span : ByteSpan) (h : 148 ≤ span.bytes.length) :
    (Runtime.readDigest span).bytes = slice span.bytes 116 32 := by
  apply ext_getElem
  · simp [Runtime.readDigest, slice]
    omega
  · intro index hindex _
    simp [Runtime.readDigest, slice] at hindex ⊢
    rw [ByteSpan.byteAt, getD_eq_getElem _ _ (by omega)]

theorem sameHeader {raw : Bytes} (hraw : raw.length = headerBytes)
    (hbytes : raw = slice span.bytes 0 headerBytes) : SameHeader (unpackExpertHeader raw) span := by
  have hread : ∀ offset count, offset + count ≤ 256 →
      slice raw offset count = slice span.bytes offset count := by
    intro offset count h
    rw [hbytes, headerBytes, slice_slice h, Nat.zero_add]
  have hlength : 148 ≤ span.bytes.length := by
    rw [hbytes, slice, length_take, length_drop, headerBytes] at hraw
    omega
  have hsection : ∀ offset, offset + 16 ≤ 256 →
      SameSection (unpackSection raw offset) (span.readLe64 offset) (span.readLe64 (offset + 8)) := by
    intro offset h
    rw [SameSection, readLe64_toNat, readLe64_toNat, unpackSection, hread _ _ (by omega),
      hread _ _ (by omega)]
    exact ⟨rfl, rfl⟩
  have hnumber : ∀ offset, offset + 4 ≤ 256 →
      (span.readLe32 offset).toNat = leValue (slice raw offset 4) := by
    intro offset h
    rw [readLe32_toNat, hread _ _ h]
  have hshort : ∀ offset, offset + 2 ≤ 256 →
      (span.readLe16 offset).toNat = leValue (slice raw offset 2) := by
    intro offset h
    rw [readLe16_toNat, hread _ _ h]
  have hsigned : ∀ offset, offset + 4 ≤ 256 → ∃ value,
      signed32 (leValue (slice raw offset 4)) = signed32 value ∧ value < 2 ^ 32 ∧
        (span.readLe32 offset).toInt32 = (UInt32.ofNat value).toInt32 := by
    intro offset h
    refine ⟨_, rfl, leValue_slice_lt raw offset 4, ?_⟩
    rw [ByteSpan.readLe32, readLe_eq, hread _ _ h]
  exact {
    magic := (hread 0 8 (by omega)).symm
    version := hshort 8 (by omega)
    headerBytes := hshort 10 (by omega)
    flags := hnumber 12 (by omega)
    recordAbi := hnumber 16 (by omega)
    layer := hsigned 20 (by omega)
    expert := hsigned 24 (by omega)
    hidden := hnumber 28 (by omega)
    intermediate := hnumber 32 (by omega)
    fusedRows := hnumber 36 (by omega)
    reserved := hnumber 40 (by omega)
    recordBytes := by
      change (span.readLe64 44).toNat = leValue (slice raw 44 8)
      rw [readLe64_toNat, hread _ _ (by omega)]
    gateUpQ := hsection 52 (by omega)
    gateUpScales := hsection 68 (by omega)
    downQ := hsection 84 (by omega)
    downScales := hsection 100 (by omega)
    digest := by
      rw [readDigest_bytes span hlength]
      exact (hread 116 32 (by omega)).symm }

/-- The checks of the compiler's validation. -/
structure Checked (sha256 : Bytes → Sha256Digest) (pack : Bytes) (entry : ExpertEntry ExpertFields)
    (header : ExpertHeader) : Prop where
  stored : 256 ≤ entry.storedBytes ∧ entry.offset % 4096 = 0 ∧ entry.storedBytes % 4096 = 0
  raw : (slice pack entry.offset 256).length = 256
  padding : ∀ value ∈ (slice pack entry.offset 256).drop 148, value = 0
  identity : checkIdentity header entry = .ok ()
  byteCounts : checkByteCounts header = .ok ()
  sections : checkSections header.recordBytes 256 (namedSections header.sections) = .ok ()
  scales : checkScales pack entry.offset header = .ok ()
  decoded : entry.fields.decodedBytes =
    (if header.relu2 then 2 else 3) * header.hidden * header.intermediate * 4
  payload : ∃ digest, payloadHash sha256 pack (entry.offset + 256) (header.recordBytes - 256) =
    .ok digest ∧ digest.bytes = header.payloadHash ∧ digest = entry.fields.payloadSha256

theorem checkPayload_ok (h : checkPayload sha256 pack header entry = .ok ()) :
    ∃ digest, payloadHash sha256 pack (entry.offset + 256) (header.recordBytes - 256) =
      .ok digest ∧ digest.bytes = header.payloadHash ∧ digest = entry.fields.payloadSha256 := by
  rw [checkPayload] at h
  cases hdigest : payloadHash sha256 pack (entry.offset + headerBytes)
      (header.recordBytes - headerBytes) with
  | error message =>
    rw [hdigest] at h
    cases h
  | ok digest =>
    rw [hdigest] at h
    change (demand _ _ >>= fun _ => demand _ _) = .ok () at h
    rw [check_bind_eq_ok, demand_eq_ok, demand_eq_ok] at h
    exact ⟨digest, hdigest, h⟩

theorem validateExpertRecord_checked
    (h : validateExpertRecord sha256 pack entry packAlignment = .ok ()) :
    Checked sha256 pack entry (recordHeader pack entry) := by
  rw [validateExpertRecord] at h
  simp only [check_bind_eq_ok, demand_eq_ok] at h
  obtain ⟨hsize, ⟨hoffset, hstored⟩, hraw, hpadding, hidentity, hcounts, -, hsections, hscales,
    hdecoded, hpayload⟩ := h
  exact ⟨⟨hsize, hoffset, hstored⟩, hraw, hpadding, hidentity, hcounts, hsections, hscales,
    hdecoded, checkPayload_ok hpayload⟩

variable {header : ExpertHeader}

theorem signed32_eq {entry : Nat} (hvalue : value < 2 ^ 32) (h : signed32 value = entry) :
    value = entry ∧ value < 2 ^ 31 := by
  rw [signed32] at h
  split at h
  next hsmall => exact ⟨by exact_mod_cast h, hsmall⟩
  next => omega

theorem toInt32_nonneg (h : value < 2 ^ 31) : 0 ≤ (UInt32.ofNat value).toInt32 := by
  rw [Int32.le_iff_toInt_le]
  change (0 : Int) ≤ (BitVec.ofNat 32 value).toInt
  rw [BitVec.toInt_eq_toNat_cond, BitVec.toNat_ofNat]
  omega

theorem SameHeader.predicates (h : SameHeader header span) :
    (Runtime.readHeader span).relu2 = header.relu2 ∧
    (Runtime.readHeader span).nativeNvfp4 = header.nativeNvfp4 ∧
    (Runtime.readHeader span).fp4 = (header.fp4 && !header.nativeNvfp4) := by
  have habi : ∀ value : UInt32, (Runtime.readHeader span).recordAbi = value ↔
      header.quantAbi = value.toNat := by
    intro value
    rw [← UInt32.toNat_inj, h.recordAbi]
  have hrelu2 : (Runtime.readHeader span).relu2 = header.relu2 := by
    rw [Runtime.ExpertHeader.relu2, ExpertHeader.relu2, decide_eq_decide, habi]
    rfl
  refine ⟨hrelu2, ?_, ?_⟩
  · rw [Runtime.ExpertHeader.nativeNvfp4, ExpertHeader.nativeNvfp4, decide_eq_decide, habi]
    rfl
  · rw [Runtime.ExpertHeader.fp4, hrelu2, ExpertHeader.relu2, ExpertHeader.fp4,
      ExpertHeader.nativeNvfp4, Bool.eq_iff_iff]
    simp only [Bool.or_eq_true, Bool.and_eq_true, Bool.not_eq_true', decide_eq_true_eq,
      decide_eq_false_iff_not, habi, mem_cons, not_mem_nil, or_false]
    have hne : fp4QuantAbiId ≠ nvfp4QuantAbiId := by decide
    have hne' : fp4Relu2ExpertAbiId ≠ nvfp4QuantAbiId := by decide
    constructor
    · rintro (hfp4 | hfour)
      · exact ⟨.inl hfp4, hfp4 ▸ hne⟩
      · exact ⟨.inr (.inl hfour), hfour ▸ hne'⟩
    · rintro ⟨hfp4 | hfour | hfive, hnot⟩
      · exact .inl hfp4
      · exact .inr hfour
      · exact absurd hfive hnot

theorem checkIdentity_matches (h : SameHeader header span) (hloaded : Loaded pack entry span key expected)
    (hidentity : checkIdentity header entry = .ok ()) (hhidden : 1 ≤ header.hidden)
    (hintermediate : 1 ≤ header.intermediate) (habi : header.quantAbi = entry.fields.quantAbi) :
    (Runtime.readHeader span).Matches key expected := by
  simp only [checkIdentity, check_bind_eq_ok, demand_eq_ok] at hidentity
  obtain ⟨⟨-, hversion⟩, ⟨hheader, hreserved⟩, hflags, hknown, ⟨hlayer, hexpert⟩, hrecord,
    hfused⟩ := hidentity
  obtain ⟨layer, hlayerEq, hlayerLt, hlayerRead⟩ := h.layer
  obtain ⟨expert, hexpertEq, hexpertLt, hexpertRead⟩ := h.expert
  obtain ⟨rfl, hlayerSmall⟩ := signed32_eq hlayerLt (hlayerEq.symm.trans hlayer)
  obtain ⟨rfl, hexpertSmall⟩ := signed32_eq hexpertLt (hexpertEq.symm.trans hexpert)
  obtain ⟨hrelu2, hnative, hfp4⟩ := h.predicates
  have habiEq : ∀ value : UInt32, (Runtime.readHeader span).recordAbi = value ↔
      header.quantAbi = value.toNat := by
    intro value
    rw [← UInt32.toNat_inj, h.recordAbi]
  have hexclusive : ¬ (header.nativeNvfp4 = true ∧ header.relu2 = true) := by
    simp only [ExpertHeader.nativeNvfp4, ExpertHeader.relu2, decide_eq_true_eq]
    rintro ⟨hfive, hfour⟩
    rw [hfive] at hfour
    cases hfour
  refine ⟨UInt16.toNat_inj.1 (h.version.trans hversion), ?_, ?_, ?_, .inr ?_, ?_, ?_, ?_, ?_, ?_,
    ?_, ?_, ?_, ?_, ?_⟩
  · rw [← UInt32.toNat_inj, UInt16.toNat_toUInt32, h.headerBytes, hheader]
    rfl
  · rw [← UInt32.toNat_inj, h.flags, hflags, hnative, hrelu2, ExpertHeader.requiredFlags]
    cases hn : header.nativeNvfp4 <;> cases hr : header.relu2
    case true.true => exact absurd ⟨hn, hr⟩ hexclusive
    all_goals rfl
  · simp only [habiEq]
    simp only [mem_cons, not_mem_nil, or_false] at hknown
    exact hknown
  · rw [← UInt32.toNat_inj, h.recordAbi, hloaded.recordAbi, habi]
  · rw [hloaded.encoding, Runtime.ExpertHeader.encodingAbi, hnative, ← habi]
    cases hn : header.nativeNvfp4 with
    | true =>
      rw [ExpertHeader.nativeNvfp4, decide_eq_true_eq] at hn
      rw [if_pos rfl, if_pos hn]
    | false =>
      rw [hfp4, hn, Bool.not_false, Bool.and_true]
      rw [ExpertHeader.nativeNvfp4, decide_eq_false_iff_not] at hn
      simp only [mem_cons, not_mem_nil, or_false] at hknown
      rw [if_neg (by simp), if_neg hn]
      rcases hknown with hone | hthree | hfour | hfive
      · rw [if_pos hone, ExpertHeader.fp4, hone, if_neg (by decide)]
      · rw [ExpertHeader.fp4, hthree, if_pos (by decide), if_neg (by decide)]
      · rw [ExpertHeader.fp4, hfour, if_pos (by decide), if_neg (by decide)]
      · exact absurd hfive hn
  · exact UInt32.toNat_inj.1 (h.reserved.trans hreserved)
  · rw [hlayerRead]
    exact toInt32_nonneg hlayerSmall
  · rw [hexpertRead]
    exact toInt32_nonneg hexpertSmall
  · rw [hlayerRead, UInt32.toUInt32_toInt32, ← UInt32.toNat_inj, UInt32.toNat_ofNat',
      Nat.mod_eq_of_lt hlayerLt, hloaded.layer]
  · rw [hexpertRead, UInt32.toUInt32_toInt32, ← UInt32.toNat_inj, UInt32.toNat_ofNat',
      Nat.mod_eq_of_lt hexpertLt, hloaded.expert]
  · rw [← UInt64.toNat_inj, h.recordBytes, hrecord, hloaded.storedBytes]
  · rintro hzero
    have hhiddenEq := h.hidden
    rw [hzero] at hhiddenEq
    exact absurd hhiddenEq.symm (by simp; omega)
  · rintro hzero
    have hintermediateEq := h.intermediate
    rw [hzero] at hintermediateEq
    exact absurd hintermediateEq.symm (by simp; omega)
  · rw [hrelu2, ← UInt32.toNat_inj, h.fusedRows, hfused, ExpertHeader.firstRows]
    have hlt := (Runtime.readHeader span).fusedRows.toNat_lt
    rw [h.fusedRows, hfused, ExpertHeader.firstRows] at hlt
    cases hr : header.relu2
    · rw [hr] at hlt
      simp only [Bool.false_eq_true, if_false] at hlt ⊢
      rw [UInt32.toNat_mul, h.intermediate]
      exact (Nat.mod_eq_of_lt hlt).symm
    · simp only [if_true, Nat.one_mul]
      exact h.intermediate.symm

theorem multiply_of_lt {left right : UInt64} (h : left.toNat * right.toNat < 2 ^ 64) :
    Runtime.multiply left right = some (left * right) ∧
      (left * right).toNat = left.toNat * right.toNat := by
  refine ⟨?_, by rw [UInt64.toNat_mul, Nat.mod_eq_of_lt h]⟩
  rw [Runtime.multiply, if_neg]
  rintro ⟨hne, hgt⟩
  have hpos : 0 < left.toNat := by
    rw [Nat.pos_iff_ne_zero]
    exact fun hzero => hne (UInt64.toNat_inj.1 hzero)
  rw [gt_iff_lt, UInt64.lt_iff_toNat_lt, UInt64.toNat_div, Nat.div_lt_iff_lt_mul hpos] at hgt
  have hmax : (0xffffffffffffffff : UInt64).toNat = 2 ^ 64 - 1 := rfl
  rw [hmax, Nat.mul_comm] at hgt
  omega

theorem validSection_of {offset bytes previousEnd recordBytes : UInt64}
    (hstart : previousEnd.toNat ≤ offset.toNat) (haligned : offset.toNat % 256 = 0)
    (hend : offset.toNat + bytes.toNat ≤ recordBytes.toNat) :
    Runtime.validSection offset bytes previousEnd recordBytes = true := by
  have hbytes : bytes ≤ recordBytes := UInt64.le_iff_toNat_le.2 (by omega)
  simp only [Runtime.validSection, Bool.and_eq_true, decide_eq_true_eq, ge_iff_le,
    UInt64.le_iff_toNat_le]
  refine ⟨⟨⟨hstart, ?_⟩, UInt64.le_iff_toNat_le.1 hbytes⟩, ?_⟩
  · rw [← UInt64.toNat_inj, UInt64.toNat_mod]
    exact haligned
  · rw [UInt64.toNat_sub_of_le _ _ hbytes]
    omega

theorem validSections_of {recordBytes : UInt64} :
    ∀ {spans : List (UInt64 × UInt64)} {previousEnd : UInt64},
      List.Forall₂ (fun part span => SameSection part.2 span.1 span.2) parts spans →
      checkSections recordBytes.toNat previousEnd.toNat parts = .ok () →
      Runtime.validSections recordBytes previousEnd spans = true := by
  induction parts with
  | nil =>
    rintro - previousEnd ⟨⟩ -
    rfl
  | cons part rest ih =>
    rintro - previousEnd (⟨⟩ | @⟨_, span, _, spans, ⟨hoffset, hbytes⟩, hspans⟩) h
    simp only [checkSections, check_bind_eq_ok, demand_eq_ok] at h
    obtain ⟨haligned, hstart, hend, hrest⟩ := h
    rw [← hoffset] at haligned hstart hend hrest
    rw [← hbytes] at hend hrest
    have hlt := recordBytes.toNat_lt
    have hsum : (span.1 + span.2).toNat = span.1.toNat + span.2.toNat := by
      rw [UInt64.toNat_add, Nat.mod_eq_of_lt (by omega)]
    rw [← hsum] at hrest
    rw [Runtime.validSections, validSection_of hstart haligned hend, Bool.true_and]
    exact ih hspans hrest

theorem SameHeader.spans (h : SameHeader header span) :
    List.Forall₂ (fun part span => SameSection part.2 span.1 span.2)
      (namedSections header.sections) (Runtime.readSections span).spans :=
  .cons h.gateUpQ (.cons h.gateUpScales (.cons h.downQ (.cons h.downScales .nil)))

theorem checkSections_le {recordBytes previousEnd : Nat}
    (h : checkSections recordBytes previousEnd parts = .ok ()) :
    ∀ part ∈ parts, part.2.offset + part.2.bytes ≤ recordBytes := by
  induction parts generalizing previousEnd with
  | nil => simp
  | cons part rest ih =>
    simp only [checkSections, check_bind_eq_ok, demand_eq_ok] at h
    intro other hother
    rcases mem_cons.1 hother with rfl | hrest
    · exact h.2.2.1
    · exact ih h.2.2.2 other hrest

theorem SameHeader.weights (h : SameHeader header span) : ∃ weights : UInt64,
    Runtime.multiply (Runtime.readHeader span).hidden.toUInt64
      (Runtime.readHeader span).intermediate.toUInt64 = some weights ∧
    weights.toNat = header.hidden * header.intermediate := by
  have hhidden := (Runtime.readHeader span).hidden.toNat_lt
  have hintermediate := (Runtime.readHeader span).intermediate.toNat_lt
  have hlt : (Runtime.readHeader span).hidden.toUInt64.toNat *
      (Runtime.readHeader span).intermediate.toUInt64.toNat < 2 ^ 64 := by
    exact (Nat.mul_lt_mul_of_lt_of_lt hhidden hintermediate).trans_eq (by norm_num)
  obtain ⟨hmultiply, hvalue⟩ := multiply_of_lt hlt
  refine ⟨_, hmultiply, ?_⟩
  rw [hvalue, UInt32.toNat_toUInt64, UInt32.toNat_toUInt64, h.hidden, h.intermediate]

theorem checkByteCounts_dimensions (h : SameHeader header span) {weights : UInt64}
    (hweights : weights.toNat = header.hidden * header.intermediate)
    (hcounts : checkByteCounts header = .ok ())
    (hsmall : header.sections.gateUpQ.bytes < 2 ^ 63) :
    Runtime.SectionDimensions (Runtime.readHeader span) (Runtime.readSections span) weights ∧
      Runtime.blockAlignmentError (Runtime.readHeader span) = none := by
  obtain ⟨hrelu2, hnative, hfp4⟩ := h.predicates
  have hmod : ∀ value block : UInt32, value % block = 0 ↔ value.toNat % block.toNat = 0 := by
    intro value block
    rw [← UInt32.toNat_inj, UInt32.toNat_mod]
    rfl
  have hhidden := (Runtime.readHeader span).hidden.toNat_lt
  have hintermediate := (Runtime.readHeader span).intermediate.toNat_lt
  rw [h.hidden] at hhidden
  rw [h.intermediate] at hintermediate
  simp only [Runtime.SectionDimensions, Runtime.blockAlignmentError, hrelu2, hnative,
    ← UInt64.toNat_inj, h.gateUpQ.2, h.gateUpScales.2, h.downQ.2, h.downScales.2, hmod, h.hidden,
    h.intermediate, ne_eq]
  simp only [checkByteCounts] at hcounts
  have hblock16 : Runtime.kExpertNvfp4BlockSize.toUInt64.toNat = 16 := rfl
  have hblock32 : Runtime.kExpertFp4BlockSize.toUInt64.toNat = 32 := rfl
  have htwo : (2 : UInt64).toNat = 2 := rfl
  have hfour : (4 : UInt64).toNat = 4 := rfl
  cases hn : header.nativeNvfp4 with
  | true =>
    simp only [hn, if_true, check_bind_eq_ok, demand_eq_ok] at hcounts
    obtain ⟨hdivides, hq, hs, hdq, hds⟩ := hcounts
    rw [nvfp4QuantGroupSize] at hs hds
    constructor
    · rw [if_pos rfl]
      simp only [UInt64.toNat_mul, UInt64.toNat_add, UInt64.toNat_div, hblock16, htwo, hfour]
      omega
    · rw [if_neg, if_neg (by rw [hfp4, hn]; simp)]
      · rintro ⟨-, hnot⟩
        exact hnot.elim (fun hnot => hnot hdivides.1) fun hnot => hnot hdivides.2
  | false =>
    rw [hfp4, hn, Bool.not_false, Bool.and_true]
    cases hf : header.fp4 with
    | true =>
      simp only [hn, hf, if_true, Bool.false_eq_true, if_false, check_bind_eq_ok,
        demand_eq_ok] at hcounts
      obtain ⟨hdivides, hq, hs, hdq, hds⟩ := hcounts
      rw [ExpertHeader.firstRows, Nat.mul_assoc, Nat.mul_comm header.intermediate,
        ← hweights] at hq hs
      rw [← hweights] at hdq hds
      constructor
      · rw [if_neg (by simp), if_pos rfl]
        cases hr : header.relu2 with
        | true =>
          rw [hr, if_pos rfl, Nat.one_mul] at hq hs
          exact ⟨hq, hs, hdq, hds⟩
        | false =>
          simp only [hr, Bool.false_eq_true, if_false] at hq hs ⊢
          rw [Nat.mul_div_cancel_left _ (by omega)] at hq
          simp only [UInt64.toNat_div, UInt64.toNat_mul, hblock32, htwo]
          rw [Nat.mod_eq_of_lt (by omega)]
          exact ⟨hq, hs, hdq, hds⟩
      · rw [if_neg (by simp), if_neg]
        rintro ⟨-, hnot⟩
        exact hnot.elim (fun hnot => hnot hdivides.1) fun hnot => hnot hdivides.2
    | false =>
      simp only [hn, hf, Bool.false_eq_true, if_false, check_bind_eq_ok, demand_eq_ok]
        at hcounts
      obtain ⟨hq, hs, hdq, hds⟩ := hcounts
      rw [Nat.mul_assoc, Nat.mul_comm header.intermediate, ← hweights] at hq
      constructor
      · rw [if_neg (by simp), if_neg (by simp)]
        simp only [UInt64.toNat_mul, UInt32.toNat_toUInt64, h.hidden, h.intermediate, htwo, hfour]
        omega
      · simp

/-- No scale code of an NVFP4 record has the sign bit. -/
def NonnegativeScales (pack : Bytes) (offset : Nat) (header : ExpertHeader) : Prop :=
  ∀ block ∈ nvfp4Blocks header.sections (header.hidden * header.intermediate / nvfp4QuantGroupSize),
    ∀ code ∈ slice pack (offset + block.1)
      (header.hidden * header.intermediate / nvfp4QuantGroupSize), code &&& 0x80 = 0

theorem nvfp4ScaleError_eq_none {blockCount : Nat} {offsets : List Nat} :
    Runtime.nvfp4ScaleError span blockCount offsets = none ↔ ∀ offset ∈ offsets,
      (∀ code ∈ span.subspan offset blockCount, code &&& 0x80 = 0 ∧ code &&& 0x7f ≠ 0x7f) ∧
      finitePositive (span.readLe32 (offset + blockCount)) = true ∧
      finitePositive (span.readLe32 (offset + blockCount + 4)) = true := by
  induction offsets with
  | nil => simp [Runtime.nvfp4ScaleError]
  | cons offset rest ih =>
    rw [Runtime.nvfp4ScaleError, forall_mem_cons]
    by_cases hcodes : (span.subspan offset blockCount).any fun code =>
        decide (code &&& 0x80 ≠ 0) || decide (code &&& 0x7f = 0x7f)
    · rw [if_pos hcodes]
      obtain ⟨code, hcode, hbad⟩ := any_eq_true.1 hcodes
      simp only [Bool.or_eq_true, decide_eq_true_eq] at hbad
      refine iff_of_false (by simp) ?_
      rintro ⟨⟨hall, -⟩, -⟩
      exact hbad.elim (fun hsign => hsign (hall code hcode).1) (hall code hcode).2
    · rw [if_neg hcodes]
      have hall : ∀ code ∈ span.subspan offset blockCount,
          code &&& 0x80 = 0 ∧ code &&& 0x7f ≠ 0x7f := by
        intro code hcode
        by_contra hbad
        exact hcodes (any_eq_true.2 ⟨code, hcode, by
          simp only [Bool.or_eq_true, decide_eq_true_eq]
          tauto⟩)
      by_cases hdivisors : (!finitePositive (span.readLe32 (offset + blockCount)) ||
          !finitePositive (span.readLe32 (offset + blockCount + 4))) = true
      · rw [if_pos hdivisors]
        refine iff_of_false (by simp) ?_
        rintro ⟨⟨-, hweight, hinput⟩, -⟩
        rw [hweight, hinput] at hdivisors
        cases hdivisors
      · rw [if_neg hdivisors, ih]
        simp only [Bool.or_eq_true, Bool.not_eq_true', not_or, Bool.not_eq_false] at hdivisors
        exact ⟨fun hrest => ⟨⟨hall, hdivisors⟩, hrest⟩, fun hboth => hboth.2⟩

theorem fp4ScaleError_eq_none {spans : List (Nat × Nat)} :
    Runtime.fp4ScaleError span spans = none ↔
      ∀ part ∈ spans, ∀ code ∈ span.subspan part.1 part.2, code ≠ 0x00 ∧ code ≠ 0xff := by
  induction spans with
  | nil => simp [Runtime.fp4ScaleError]
  | cons part rest ih =>
    rw [Runtime.fp4ScaleError, forall_mem_cons]
    by_cases hcodes : (span.subspan part.1 part.2).any fun code =>
        decide (code = 0x00) || decide (code = 0xff)
    · rw [if_pos hcodes]
      obtain ⟨code, hcode, hbad⟩ := any_eq_true.1 hcodes
      simp only [Bool.or_eq_true, decide_eq_true_eq] at hbad
      refine iff_of_false (by simp) ?_
      rintro ⟨hall, -⟩
      exact hbad.elim (hall code hcode).1 (hall code hcode).2
    · rw [if_neg hcodes, ih]
      refine ⟨fun hrest => ⟨?_, hrest⟩, fun hboth => hboth.2⟩
      intro code hcode
      by_contra hbad
      exact hcodes (any_eq_true.2 ⟨code, hcode, by
        simp only [Bool.or_eq_true, decide_eq_true_eq]
        tauto⟩)

theorem checkNvfp4Blocks_ok {blocks : List (Nat × String)} :
    checkNvfp4Blocks pack offset matrixLocal blocks = .ok () ↔
      ∀ block ∈ blocks, checkNvfp4Block pack offset matrixLocal block = .ok () := by
  induction blocks with
  | nil => simp [checkNvfp4Blocks]
  | cons block rest ih => simp [checkNvfp4Blocks, ih]

theorem ue8m0_code {code : UInt8} (h : 1 ≤ code.toNat ∧ code.toNat ≤ 254) :
    code ≠ 0x00 ∧ code ≠ 0xff := by
  constructor
  · rintro rfl
    exact absurd h.1 (by decide)
  · rintro rfl
    exact absurd h.2 (by decide)

theorem nvfp4Block_iff {label : String} (hread : ∀ start count, start + count ≤ entry.storedBytes →
      slice span.bytes start count = slice pack (entry.offset + start) count)
    (hend : offset + matrixLocal + 8 ≤ entry.storedBytes)
    (h : checkNvfp4Block pack entry.offset matrixLocal (offset, label) = .ok ()) :
    ((∀ code ∈ span.subspan offset matrixLocal, code &&& 0x80 = 0 ∧ code &&& 0x7f ≠ 0x7f) ∧
        finitePositive (span.readLe32 (offset + matrixLocal)) = true ∧
        finitePositive (span.readLe32 (offset + matrixLocal + 4)) = true) ↔
      ∀ code ∈ slice pack (entry.offset + offset) matrixLocal, code &&& 0x80 = 0 := by
  simp only [checkNvfp4Block, validateE4m3fnScaleBytes, validatePositiveScalar, check_bind_eq_ok,
    demand_eq_ok] at h
  obtain ⟨⟨-, hfinite⟩, ⟨-, hweight⟩, -, hinput⟩ := h
  have hcodes : span.subspan offset matrixLocal = slice pack (entry.offset + offset) matrixLocal :=
    hread offset matrixLocal (by omega)
  rw [hcodes, ByteSpan.readLe32, ByteSpan.readLe32, readLe_eq, readLe_eq, hread _ _ (by omega),
    hread _ _ (by omega), ← Nat.add_assoc, ← Nat.add_assoc, ← Nat.add_assoc]
  constructor
  · rintro ⟨hall, -⟩ code hcode
    exact (hall code hcode).1
  · intro hall
    exact ⟨fun code hcode => ⟨hall code hcode, hfinite code hcode⟩, hweight, hinput⟩

theorem scaleError_iff (h : SameHeader header span) {weights : UInt64}
    (hbytes : span.bytes = slice pack entry.offset entry.storedBytes)
    (hrecord : header.recordBytes = entry.storedBytes)
    (hweights : weights.toNat = header.hidden * header.intermediate)
    (hcounts : checkByteCounts header = .ok ())
    (hsections : checkSections header.recordBytes 256 (namedSections header.sections) = .ok ())
    (hscales : checkScales pack entry.offset header = .ok ()) :
    Runtime.scaleError span (Runtime.readHeader span) (Runtime.readSections span) weights = none ↔
      (header.nativeNvfp4 = true → NonnegativeScales pack entry.offset header) := by
  obtain ⟨-, hnative, hfp4⟩ := h.predicates
  have hread : ∀ offset count, offset + count ≤ entry.storedBytes →
      slice span.bytes offset count = slice pack (entry.offset + offset) count := by
    intro offset count hle
    rw [hbytes, slice_slice hle]
  have hends := checkSections_le hsections
  simp only [namedSections, forall_mem_cons, hrecord] at hends
  obtain ⟨-, hgateUp, -, hdown, -⟩ := hends
  rw [Runtime.scaleError, hnative, hfp4]
  rw [checkScales] at hscales
  cases hn : header.nativeNvfp4 with
  | true =>
    simp only [hn, if_true, checkNvfp4Blocks_ok] at hscales
    simp only [checkByteCounts, hn, if_true, check_bind_eq_ok, demand_eq_ok] at hcounts
    simp only [NonnegativeScales, forall_const]
    have hcount : (weights / Runtime.kExpertNvfp4BlockSize.toUInt64).toNat =
        header.hidden * header.intermediate / nvfp4QuantGroupSize := by
      rw [UInt64.toNat_div, hweights]
      rfl
    generalize header.hidden * header.intermediate / nvfp4QuantGroupSize = matrixLocal at *
    have hup : ((Runtime.readSections span).gateUpScaleOffset +
        weights / Runtime.kExpertNvfp4BlockSize.toUInt64 + 2 * 4).toNat =
        header.sections.gateUpScales.offset + matrixLocal + 8 := by
      have hlt := (Runtime.readHeader span).recordBytes.toNat_lt
      rw [h.recordBytes, hrecord] at hlt
      have hdivisors : ((2 : UInt64) * 4).toNat = 8 := rfl
      rw [UInt64.toNat_add, UInt64.toNat_add, h.gateUpScales.1, hcount, hdivisors,
        Nat.mod_eq_of_lt (a := header.sections.gateUpScales.offset + matrixLocal) (by omega),
        Nat.mod_eq_of_lt (by omega)]
    simp only [if_true, nvfp4ScaleError_eq_none, nvfp4Blocks, forall_mem_cons,
      not_mem_nil, false_imp_iff, implies_true, and_true, hcount, hup, h.gateUpScales.1,
      h.downScales.1] at hscales ⊢
    rw [nvfp4Block_iff hread (by omega) hscales.1, nvfp4Block_iff hread (by omega) hscales.2.1,
      nvfp4Block_iff hread (by omega) hscales.2.2]
  | false =>
    simp only [hn, Bool.false_eq_true, if_false, Bool.not_false, Bool.and_true] at hscales ⊢
    cases hf : header.fp4 with
    | true =>
      simp only [hf, if_true, check_bind_eq_ok, validateUe8m0Scales, demand_eq_ok] at hscales
      obtain ⟨⟨-, hup⟩, -, hdownCodes⟩ := hscales
      refine iff_of_true ?_ (by simp)
      rw [if_pos rfl, fp4ScaleError_eq_none]
      simp only [forall_mem_cons, not_mem_nil, false_imp_iff, implies_true, and_true,
        h.gateUpScales.1, h.gateUpScales.2, h.downScales.1, h.downScales.2]
      refine ⟨fun code hcode => ue8m0_code (hup code ?_),
        fun code hcode => ue8m0_code (hdownCodes code ?_)⟩
      · rw [← hread _ _ hgateUp]
        exact hcode
      · rw [← hread _ _ hdown]
        exact hcode
    | false =>
      refine iff_of_true ?_ (by simp)
      rw [if_neg (by simp)]

theorem Checked.recordBytes (h : Checked sha256 pack entry header) :
    header.recordBytes = entry.storedBytes := by
  have hidentity := h.identity
  simp only [checkIdentity, check_bind_eq_ok, demand_eq_ok] at hidentity
  exact hidentity.2.2.2.2.2.1

theorem Checked.payload_eq (h : Checked sha256 pack entry header)
    (hloaded : Loaded pack entry span key expected) :
    (sha256 (span.bytes.drop 256)).bytes = header.payloadHash ∧
      sha256 (span.bytes.drop 256) = entry.fields.payloadSha256 ∧
      span.bytes.length = entry.storedBytes := by
  obtain ⟨digest, hdigest, hheader, hentry⟩ := h.payload
  have hrecord := h.recordBytes
  have hdrop : span.bytes.drop 256 = slice pack (entry.offset + 256) (header.recordBytes - 256) := by
    rw [hloaded.bytes, hrecord, slice, slice, drop_take, drop_drop]
  rw [payloadHash, ← hdrop] at hdigest
  by_cases hlength : (span.bytes.drop 256).length = header.recordBytes - 256
  · rw [if_pos hlength, Except.ok.injEq] at hdigest
    refine ⟨hdigest ▸ hheader, hdigest ▸ hentry, ?_⟩
    have hfirst := h.raw
    have hbytes := congrArg List.length hloaded.bytes
    simp only [slice, length_take, length_drop] at hfirst hbytes hlength
    omega
  · rw [if_neg hlength] at hdigest
    cases hdigest

theorem Checked.sameHeader (h : Checked sha256 pack entry (recordHeader pack entry))
    (hloaded : Loaded pack entry span key expected) :
    SameHeader (recordHeader pack entry) span := by
  apply ExpertPack.sameHeader h.raw
  rw [hloaded.bytes, headerBytes, slice_slice (by have := h.stored.1; omega), Nat.add_zero]

section

variable (h : Checked sha256 pack entry header) (hloaded : Loaded pack entry span key expected)

include h hloaded

theorem Checked.geometry
    : Runtime.ManifestGeometry span expected := by
  have halignment : Runtime.kExpertPackAlignment.toUInt64.toNat = 4096 := rfl
  have hheader : Runtime.kExpertHeaderBytes.toUInt64.toNat = 256 := rfl
  have hzero : (0 : UInt64).toNat = 0 := rfl
  obtain ⟨hsize, hoffset, hstored⟩ := h.stored
  refine ⟨hloaded.headerBytes, hloaded.alignment, ?_, ?_, ?_, ?_⟩
  · rw [← UInt64.toNat_inj, UInt64.toNat_mod, halignment, hloaded.recordOffset, hoffset, hzero]
  · rw [ge_iff_le, UInt64.le_iff_toNat_le, hheader, hloaded.storedBytes]
    exact hsize
  · rw [← UInt64.toNat_inj, UInt64.toNat_mod, halignment, hloaded.storedBytes, hstored, hzero]
  · rw [← UInt64.toNat_inj, hloaded.storedBytes, ByteSpan.size_toNat, (h.payload_eq hloaded).2.2]

theorem Checked.padding_eq
    : ∀ value ∈ span.subspan 148 108, value = 0 := by
  have hsubspan : span.subspan 148 108 = (slice pack entry.offset 256).drop 148 := by
    have hstored := h.stored.1
    rw [ByteSpan.subspan, hloaded.bytes]
    change slice (slice pack entry.offset entry.storedBytes) 148 108 = _
    rw [slice_slice (by omega), slice, slice, drop_take, drop_drop]
  rw [hsubspan]
  exact h.padding

end

theorem Checked.decoded_eq (h : Checked sha256 pack entry header) (hheader : SameHeader header span)
    (hloaded : Loaded pack entry span key expected) {weights : UInt64}
    (hweights : weights.toNat = header.hidden * header.intermediate) :
    expected.decodedBytes = Runtime.expectedDecoded (Runtime.readHeader span) weights := by
  have hdecoded := h.decoded
  have hlt := expected.decodedBytes.toNat_lt
  rw [hloaded.decodedBytes, hdecoded, Nat.mul_assoc _ header.hidden, ← hweights] at hlt
  rw [← UInt64.toNat_inj, hloaded.decodedBytes, hdecoded, Nat.mul_assoc _ header.hidden,
    ← hweights, Runtime.expectedDecoded, hheader.predicates.1]
  have hconst : (2 : UInt64).toNat = 2 ∧ (3 : UInt64).toNat = 3 ∧ (4 : UInt64).toNat = 4 :=
    ⟨rfl, rfl, rfl⟩
  cases hr : header.relu2 <;> rw [hr] at hlt <;>
    simp only [Bool.false_eq_true, if_false, if_true, UInt64.toNat_mul, hconst] at hlt ⊢ <;> omega

theorem runtime_accepts_iff (hcheck : validateExpertRecord sha256 pack entry packAlignment = .ok ())
    (hhidden : 1 ≤ (recordHeader pack entry).hidden)
    (hintermediate : 1 ≤ (recordHeader pack entry).intermediate)
    (hloaded : Loaded pack entry span key expected) :
    Runtime.validateExpertRecord sha256 span key expected = .ok (Runtime.readSections span) ↔
      (recordHeader pack entry).quantAbi = entry.fields.quantAbi ∧
      ((recordHeader pack entry).nativeNvfp4 = true →
        NonnegativeScales pack entry.offset (recordHeader pack entry)) := by
  have h := validateExpertRecord_checked hcheck
  have hheader := h.sameHeader hloaded
  obtain ⟨weights, hproduct, hweights⟩ := hheader.weights
  obtain ⟨hhash, hindex, hlength⟩ := h.payload_eq hloaded
  have hrecord := h.recordBytes
  have hscales := scaleError_iff hheader hloaded.bytes hrecord hweights h.byteCounts h.sections
    h.scales
  have hdigest : sha256 (span.bytes.drop 256) = Runtime.readDigest span :=
    Runtime.Sha256Digest.ext_bytes (hhash.trans hheader.digest.symm)
  constructor
  · intro haccepted
    obtain ⟨-, weights', haccepted⟩ := Runtime.validateExpertRecord_ok_iff.1 haccepted
    obtain rfl : weights = weights' := Option.some.inj (hproduct.symm.trans haccepted.product)
    refine ⟨?_, hscales.1 haccepted.scales⟩
    obtain ⟨-, -, -, -, habi, -⟩ := haccepted.header
    rw [← hheader.recordAbi, ← hloaded.recordAbi]
    rcases habi with hopen | habi
    · have hsupported := hloaded.supported
      rw [← hloaded.recordAbi, hopen] at hsupported
      exact absurd hsupported (by decide)
    · rw [habi]
  · rintro ⟨habi, hcodes⟩
    refine Runtime.validateExpertRecord_ok_iff.2 ⟨rfl, weights, ?_⟩
    have hends := checkSections_le h.sections
    have hspan := span.length_lt
    have hsmall : (recordHeader pack entry).sections.gateUpQ.bytes < 2 ^ 63 := by
      have hfirst := hends _ (mem_cons_self ..)
      simp only at hfirst
      omega
    obtain ⟨hdimensions, hblocks⟩ := checkByteCounts_dimensions hheader hweights h.byteCounts hsmall
    have hmagic := h.identity
    simp only [checkIdentity, check_bind_eq_ok, demand_eq_ok] at hmagic
    exact {
      geometry := h.geometry hloaded
      magic := hheader.magic.trans hmagic.1.1
      header := checkIdentity_matches hheader hloaded h.identity hhidden hintermediate habi
      blocks := hblocks
      padding := h.padding_eq hloaded
      product := hproduct
      dimensions := hdimensions
      spans := by
        apply validSections_of hheader.spans
        rw [hheader.recordBytes]
        exact h.sections
      scales := hscales.2 hcodes
      decoded := .inr (h.decoded_eq hheader hloaded hweights)
      digest := by rw [← hdigest, hindex, hloaded.payloadSha256]
      payload := hdigest }

/-- Of what the compiler's validation accepts, the runtime quarantines exactly the
records whose header names another ABI than the index and the NVFP4 records with a
negative scale code. -/
theorem validators_agree_iff (hcheck : validateExpertRecord sha256 pack entry packAlignment = .ok ())
    (hhidden : 1 ≤ (recordHeader pack entry).hidden)
    (hintermediate : 1 ≤ (recordHeader pack entry).intermediate)
    (hloaded : Loaded pack entry span key expected) :
    (∃ sections, Runtime.validateExpertRecord sha256 span key expected = .ok sections) ↔
      (recordHeader pack entry).quantAbi = entry.fields.quantAbi ∧
      ((recordHeader pack entry).nativeNvfp4 = true →
        NonnegativeScales pack entry.offset (recordHeader pack entry)) := by
  rw [← runtime_accepts_iff hcheck hhidden hintermediate hloaded]
  constructor
  · rintro ⟨sections, hsections⟩
    obtain rfl := (Runtime.validateExpertRecord_ok_iff.1 hsections).1
    exact hsections
  · exact fun haccepted => ⟨_, haccepted⟩

/-! ## Two NVFP4 records -/

/-- A 16 × 16 NVFP4 record of one 4096-byte block, by the first scale code of its gate. -/
def nvfp4Pack (code : Nat) : Bytes :=
  Runtime.assembleRecord
    [(2, 1), (2, 256), (4, 0x07), (4, 5), (4, 0), (4, 0), (4, 16), (4, 16), (4, 32), (4, 0),
      (8, 4096), (8, 256), (8, 256), (8, 512), (8, 48), (8, 768), (8, 128), (8, 1024), (8, 24)]
    [(396, 0), (1, code), (47, 1), (464, 0), (24, 1), (3048, 0)]

theorem assembleRecord_length (fields runs : List (Nat × Nat)) :
    (Runtime.assembleRecord fields runs).length =
      8 + ((fields.map (·.1)).sum + (runs.map (·.1)).sum) := by
  rw [Runtime.assembleRecord, length_append, length_append, length_flatMap, length_flatMap]
  simp only [leBytes_length, length_replicate]
  rfl

theorem nvfp4Pack_length (code : Nat) : (nvfp4Pack code).length = 4096 := by
  rw [nvfp4Pack, assembleRecord_length]
  simp

def nvfp4Entry : ExpertEntry ExpertFields where
  layer := 0
  expert := 0
  pack := 0
  offset := 0
  storedBytes := 4096
  fields :=
    { decodedBytes := 3072
      quantAbi := nvfp4QuantAbiId
      payloadSha256 := Runtime.zeroDigest
      sections := ⟨⟨256, 256⟩, ⟨512, 48⟩, ⟨768, 128⟩, ⟨1024, 24⟩⟩ }

def nvfp4Span (code : Nat) : ByteSpan where
  bytes := nvfp4Pack code
  length_lt := by rw [nvfp4Pack_length]; norm_num

def nvfp4Key : ExpertKey := { encodingAbi := Runtime.kExpertEncodingAbiNvfp4Block16W4A4 }

def nvfp4Manifest : PayloadRecord :=
  { storedBytes := 4096
    decodedBytes := 3072
    recordAbi := Runtime.kExpertRecordAbiNvfp4Block16W4A4 }

theorem nvfp4Pack_loaded (code : Nat) :
    Loaded (nvfp4Pack code) nvfp4Entry (nvfp4Span code) nvfp4Key nvfp4Manifest where
  bytes := (take_of_length_le (nvfp4Pack_length code).le).symm
  layer := rfl
  expert := rfl
  recordOffset := rfl
  storedBytes := rfl
  decodedBytes := rfl
  recordAbi := rfl
  supported := by decide
  sourceAbi := rfl
  headerBytes := rfl
  alignment := rfl
  payloadSha256 := by decide
  encoding := rfl

theorem nvfp4Pack_accepted : ∃ sections, Runtime.validateExpertRecord (fun _ => Runtime.zeroDigest)
    (nvfp4Span 0x01) nvfp4Key nvfp4Manifest = .ok sections :=
  (@validators_agree_iff (fun _ => Runtime.zeroDigest) _ _ _ _ _ (by decide +kernel)
    (by decide +kernel) (by decide +kernel) (nvfp4Pack_loaded 0x01)).2
    ⟨by decide +kernel, fun _ => by unfold NonnegativeScales; decide +kernel⟩

/-- With a negative code in its place the compiler still accepts the record. -/
theorem negative_scale_quarantined :
    validateExpertRecord (fun _ => Runtime.zeroDigest) (nvfp4Pack 0x81) nvfp4Entry packAlignment =
      .ok () ∧
    (recordHeader (nvfp4Pack 0x81) nvfp4Entry).hidden = 16 ∧
    (recordHeader (nvfp4Pack 0x81) nvfp4Entry).intermediate = 16 ∧
    Loaded (nvfp4Pack 0x81) nvfp4Entry (nvfp4Span 0x81) nvfp4Key nvfp4Manifest ∧
    Runtime.validateExpertRecord (fun _ => Runtime.zeroDigest) (nvfp4Span 0x81) nvfp4Key
      nvfp4Manifest = .error ⟨.checksumMismatch, "NVFP4 expert contains an invalid E4M3FN scale"⟩ :=
  ⟨by decide +kernel, by decide +kernel, by decide +kernel, nvfp4Pack_loaded 0x81,
    by decide +kernel⟩

end QuantumLlm.ExpertPack
