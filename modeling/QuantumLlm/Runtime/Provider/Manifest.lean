import QuantumLlm.Lib.Decoder
import QuantumLlm.Runtime.Sha256

/-!
# Snapshot manifests

The bytes a parked request state is described by and the decoder that
authenticates and checks them. Floats are their bit patterns, as they are copied.
-/

namespace QuantumLlm.Runtime.Provider

open List

def kDenseSnapshotMagic : UInt64 := 0x3150414e534d5651

def kDenseSnapshotVersion : UInt32 := 2

def kSnapshotChunkBytes : Nat := 4 * 2 ^ 20

def kMaximumSnapshotVectorItems : Nat := 4 * 2 ^ 20

structure SnapshotChunk where
  digest : Sha256Digest
  bytes : UInt32
  deriving DecidableEq

structure DenseSnapshotManifest where
  generation : UInt64
  modelHash : Sha256Digest
  maxContext : UInt32
  pageTokens : UInt32
  pageBytes : UInt64
  hostPageBytes : UInt64
  currentPosition : UInt32
  currentBatchFirst : UInt32
  currentBatchRows : UInt32
  synchronizationFirst : UInt32
  synchronizationRows : UInt32
  synchronizationConsumed : UInt32
  mtpLength : UInt32
  synchronizedToken : UInt32
  draftToken : UInt32
  draftTokens : List UInt32
  draftDistributionOffsets : List UInt32
  draftDistributionTokens : List UInt32
  draftDistributionProbabilities : List UInt64
  retentionPosition : UInt32
  /-- The bits of the signed value. -/
  ropeDelta : UInt32
  draftValid : Bool
  retentionValid : Bool
  exactDecodeEnabled : Bool
  hostKvPopulatedTokens : UInt32
  logicalPages : UInt32
  pagePayloadBytes : UInt64
  windowPayloadBytes : UInt64
  parkedBytes : UInt64
  reportedBytes : UInt64
  pageIndices : List UInt32
  promptMropePositions : List UInt32
  sequenceTargetHidden : List UInt32
  pleHistory : List UInt32
  pleRetentionHistory : List UInt32
  hostPageCount : UInt32
  logicalDataBytes : UInt64
  chunks : List SnapshotChunk
  deriving DecidableEq

def putFlag (flag : Bool) : Bytes := putU8 (if flag then 1 else 0)

def putVector {α : Type} (put : α → Bytes) (values : List α) : Bytes :=
  putU32 (UInt32.ofNat values.length) ++ values.flatMap put

def putChunk (chunk : SnapshotChunk) : Bytes := chunk.digest.bytes ++ putU32 chunk.bytes

def putFields (value : DenseSnapshotManifest) : Bytes :=
  putU64 value.generation ++ (value.modelHash.bytes ++ (putU32 value.maxContext ++ (putU32 value.pageTokens ++
  (putU64 value.pageBytes ++ (putU64 value.hostPageBytes ++ (putU32 value.currentPosition ++
  (putU32 value.currentBatchFirst ++ (putU32 value.currentBatchRows ++
  (putU32 value.synchronizationFirst ++ (putU32 value.synchronizationRows ++
  (putU32 value.synchronizationConsumed ++ (putU32 value.mtpLength ++
  (putU32 value.synchronizedToken ++ (putU32 value.draftToken ++
  (putVector putU32 value.draftTokens ++ (putVector putU32 value.draftDistributionOffsets ++
  (putVector putU32 value.draftDistributionTokens ++
  (putVector putU64 value.draftDistributionProbabilities ++ (putU32 value.retentionPosition ++
  (putU32 value.ropeDelta ++ (putFlag value.draftValid ++ (putFlag value.retentionValid ++
  (putFlag value.exactDecodeEnabled ++ (putU32 value.hostKvPopulatedTokens ++
  (putU32 value.logicalPages ++ (putU64 value.pagePayloadBytes ++
  (putU64 value.windowPayloadBytes ++ (putU64 value.parkedBytes ++ (putU64 value.reportedBytes ++
  (putVector putU32 value.pageIndices ++ (putVector putU32 value.promptMropePositions ++
  (putVector putU32 value.sequenceTargetHidden ++ (putVector putU32 value.pleHistory ++
  (putVector putU32 value.pleRetentionHistory ++ (putU32 value.hostPageCount ++
  (putU64 value.logicalDataBytes ++ (putVector putChunk value.chunks ++
  [])))))))))))))))))))))))))))))))))))))

def putManifest (value : DenseSnapshotManifest) : Bytes :=
  putU64 kDenseSnapshotMagic ++ (putU32 kDenseSnapshotVersion ++ putFields value)

/-- A vector the encoder can count. -/
def countable {α : Type} (values : List α) : Bool := values.length < 2 ^ 32

variable (sha256 : Bytes → Sha256Digest)

def encodeSnapshotManifest (value : DenseSnapshotManifest) : Except String Bytes :=
  if ¬ (countable value.draftTokens ∧ countable value.draftDistributionOffsets ∧
      countable value.draftDistributionTokens ∧ countable value.draftDistributionProbabilities ∧
      countable value.pageIndices ∧ countable value.promptMropePositions ∧
      countable value.sequenceTargetHidden ∧ countable value.pleHistory ∧
      countable value.pleRetentionHistory) then .error "snapshot vector is too large"
  else if ¬ countable value.chunks then .error "snapshot has too many chunks"
  else .ok (sealed sha256 (putManifest value))

/-! ## Reading -/

def layoutInvalid : String := "snapshot manifest layout is invalid"

def chunkInvalid : String := "snapshot chunk record is invalid"

def take32 : Decoder String UInt32 := takeU32.orFail layoutInvalid

def take64 : Decoder String UInt64 := takeU64.orFail layoutInvalid

def takeHash : Decoder String Sha256Digest := takeDigest.orFail layoutInvalid

def takeFlag : Decoder String Bool := do
  let value ← takeU8.orFail layoutInvalid
  Decoder.ensure (value ≤ 1) layoutInvalid
  pure (value ≠ 0)

def takeVector {α : Type} (size : Nat) (item : Decoder String α) : Decoder String (List α) := do
  let count ← take32
  let left ← unread
  Decoder.ensure (count.toNat ≤ kMaximumSnapshotVectorItems ∧ count.toNat * size ≤ left)
    layoutInvalid
  takeMany item count.toNat

def takeChunk : Decoder String SnapshotChunk := do
  let digest ← takeDigest.orFail chunkInvalid
  let bytes ← takeU32.orFail chunkInvalid
  Decoder.ensure (bytes ≠ 0 ∧ bytes.toNat ≤ kSnapshotChunkBytes) chunkInvalid
  pure { digest, bytes }

/-- The chunks: their count belongs to the layout, and they are read without its bound. -/
def takeChunks : Decoder String (List SnapshotChunk) := do
  let count ← take32
  Decoder.ensure (count.toNat ≤ kMaximumSnapshotVectorItems) layoutInvalid
  takeMany takeChunk count.toNat

/-- What follows magic and version. -/
def takeFields : Decoder String DenseSnapshotManifest := do
  let generation ← take64
  let modelHash ← takeHash
  let maxContext ← take32
  let pageTokens ← take32
  let pageBytes ← take64
  let hostPageBytes ← take64
  let currentPosition ← take32
  let currentBatchFirst ← take32
  let currentBatchRows ← take32
  let synchronizationFirst ← take32
  let synchronizationRows ← take32
  let synchronizationConsumed ← take32
  let mtpLength ← take32
  let synchronizedToken ← take32
  let draftToken ← take32
  let draftTokens ← takeVector 4 take32
  let draftDistributionOffsets ← takeVector 4 take32
  let draftDistributionTokens ← takeVector 4 take32
  let draftDistributionProbabilities ← takeVector 8 take64
  let retentionPosition ← take32
  let ropeDelta ← take32
  let draftValid ← takeFlag
  let retentionValid ← takeFlag
  let exactDecodeEnabled ← takeFlag
  let hostKvPopulatedTokens ← take32
  let logicalPages ← take32
  let pagePayloadBytes ← take64
  let windowPayloadBytes ← take64
  let parkedBytes ← take64
  let reportedBytes ← take64
  let pageIndices ← takeVector 4 take32
  let promptMropePositions ← takeVector 4 take32
  let sequenceTargetHidden ← takeVector 4 take32
  let pleHistory ← takeVector 4 take32
  let pleRetentionHistory ← takeVector 4 take32
  let hostPageCount ← take32
  let logicalDataBytes ← take64
  let chunks ← takeChunks
  pure { generation, modelHash, maxContext, pageTokens, pageBytes, hostPageBytes, currentPosition,
         currentBatchFirst, currentBatchRows, synchronizationFirst, synchronizationRows,
         synchronizationConsumed, mtpLength, synchronizedToken, draftToken, draftTokens,
         draftDistributionOffsets, draftDistributionTokens, draftDistributionProbabilities,
         retentionPosition, ropeDelta, draftValid, retentionValid, exactDecodeEnabled,
         hostKvPopulatedTokens, logicalPages, pagePayloadBytes, windowPayloadBytes, parkedBytes,
         reportedBytes, pageIndices, promptMropePositions, sequenceTargetHidden, pleHistory,
         pleRetentionHistory, hostPageCount, logicalDataBytes, chunks }

def takeManifest : Decoder String DenseSnapshotManifest := do
  let magic ← take64
  let version ← take32
  Decoder.ensure (magic = kDenseSnapshotMagic ∧ version = kDenseSnapshotVersion) layoutInvalid
  takeFields

def decodeSnapshotManifest (encoded : Bytes) : Except String DenseSnapshotManifest :=
  if encoded.length < 32 then .error "snapshot manifest is truncated"
  else if ¬ Authentic sha256 encoded then .error "snapshot manifest checksum mismatch"
  else
    match takeManifest.run (payloadOf encoded) with
    | .error reason => .error reason
    | .ok (value, rest) =>
      if rest = [] then .ok value else .error "snapshot manifest has trailing data"

/-! ## Both directions -/

/-- What the decoder admits. -/
structure Storable (value : DenseSnapshotManifest) : Prop where
  draftTokens : value.draftTokens.length ≤ kMaximumSnapshotVectorItems
  draftDistributionOffsets :
    value.draftDistributionOffsets.length ≤ kMaximumSnapshotVectorItems
  draftDistributionTokens : value.draftDistributionTokens.length ≤ kMaximumSnapshotVectorItems
  draftDistributionProbabilities :
    value.draftDistributionProbabilities.length ≤ kMaximumSnapshotVectorItems
  pageIndices : value.pageIndices.length ≤ kMaximumSnapshotVectorItems
  promptMropePositions : value.promptMropePositions.length ≤ kMaximumSnapshotVectorItems
  sequenceTargetHidden : value.sequenceTargetHidden.length ≤ kMaximumSnapshotVectorItems
  pleHistory : value.pleHistory.length ≤ kMaximumSnapshotVectorItems
  pleRetentionHistory : value.pleRetentionHistory.length ≤ kMaximumSnapshotVectorItems
  chunks : value.chunks.length ≤ kMaximumSnapshotVectorItems
  chunkBytes : ∀ chunk ∈ value.chunks, chunk.bytes ≠ 0 ∧ chunk.bytes.toNat ≤ kSnapshotChunkBytes

theorem decodes_u32 : Decodes take32 putU32 fun _ => True := Decodes.orFail reads_u32 _

theorem decodes_u64 : Decodes take64 putU64 fun _ => True := Decodes.orFail reads_u64 _

theorem decodes_hash : Decodes takeHash (·.bytes) fun _ => True := Decodes.orFail reads_digest _

theorem decodes_flag : Decodes takeFlag putFlag fun _ => True := by
  intro bytes flag rest
  simp only [takeFlag, decode_bind_iff, decode_ensure_iff, decode_pure_iff, decode_orFail_iff]
  constructor
  · rintro ⟨value, middle, hvalue, passed, after, ⟨hle, rfl⟩, rfl, rfl⟩
    obtain ⟨-, rfl⟩ := reads_u8.run_iff.1 hvalue
    refine ⟨trivial, ?_⟩
    have hcases : value = 0 ∨ value = 1 := by
      rw [UInt8.le_iff_toNat_le] at hle
      have hone : (1 : UInt8).toNat = 1 := rfl
      rcases Nat.le_one_iff_eq_zero_or_eq_one.1 (by omega : value.toNat ≤ 1) with h | h
      · exact .inl (UInt8.toNat_inj.1 h)
      · exact .inr (UInt8.toNat_inj.1 h)
    rcases hcases with rfl | rfl <;> rfl
  · rintro ⟨-, rfl⟩
    cases flag with
    | false => exact ⟨0, rest, takeU8_put 0 rest, (), rest, ⟨by decide, rfl⟩, by simp, rfl⟩
    | true => exact ⟨1, rest, takeU8_put 1 rest, (), rest, ⟨by decide, rfl⟩, by simp, rfl⟩

theorem toNat_ofNat_count {count : Nat} (h : count ≤ kMaximumSnapshotVectorItems) :
    (UInt32.ofNat count).toNat = count := by
  rw [UInt32.toNat_ofNat']
  unfold kMaximumSnapshotVectorItems at h
  omega

theorem decodes_vector {α : Type} {item : Decoder String α} {put : α → Bytes} {size : Nat}
    (h : Decodes item put fun _ => True) (hsize : ∀ value, (put value).length = size) :
    Decodes (takeVector size item) (putVector put)
      fun values => values.length ≤ kMaximumSnapshotVectorItems := by
  intro bytes values rest
  have hmany : ∀ others : List α, (others.flatMap put).length = others.length * size := by
    intro others
    induction others with
    | nil => simp
    | cons value others ih =>
      rw [flatMap_cons, length_append, ih, hsize, length_cons, Nat.succ_mul]
      omega
  simp only [takeVector, decode_bind_iff, decode_ensure_iff, decode_unread_iff]
  constructor
  · rintro ⟨count, middle, hcount, left, after, ⟨rfl, rfl⟩, passed, last, ⟨hlimits, rfl⟩, hvalues⟩
    obtain ⟨-, rfl⟩ := (decodes_u32 _ _ _).1 hcount
    obtain ⟨⟨hlength, -⟩, rfl⟩ := (h.takeMany count.toNat _ _ _).1 hvalues
    refine ⟨hlength ▸ hlimits.1, ?_⟩
    rw [putVector, hlength, UInt32.ofNat_toNat, append_assoc]
  · rintro ⟨hlength, rfl⟩
    have hcount := toNat_ofNat_count hlength
    refine ⟨UInt32.ofNat values.length, values.flatMap put ++ rest, ?_, _, _, ⟨rfl, rfl⟩, (), _,
      ⟨⟨?_, ?_⟩, rfl⟩, ?_⟩
    · rw [putVector, append_assoc]
      exact decodes_u32.run_append _ trivial
    · rw [hcount]
      exact hlength
    · rw [hcount, length_append, hmany]
      omega
    · rw [hcount]
      exact (h.takeMany values.length).run_append rest ⟨rfl, fun _ _ => trivial⟩

theorem decodes_chunk : Decodes takeChunk putChunk
    fun chunk => chunk.bytes ≠ 0 ∧ chunk.bytes.toNat ≤ kSnapshotChunkBytes := by
  intro bytes chunk rest
  simp only [takeChunk, decode_bind_iff, decode_ensure_iff, decode_pure_iff, decode_orFail_iff]
  constructor
  · rintro ⟨digest, middle, hdigest, size, after, hbytes, passed, last, ⟨hsize, rfl⟩, rfl, rfl⟩
    obtain ⟨-, rfl⟩ := reads_digest.run_iff.1 hdigest
    obtain ⟨-, rfl⟩ := reads_u32.run_iff.1 hbytes
    refine ⟨hsize, ?_⟩
    rw [putChunk, append_assoc]
  · rintro ⟨hsize, rfl⟩
    rw [putChunk, append_assoc]
    exact ⟨_, _, takeDigest_put _ _, _, _, takeU32_put _ _, (), _, ⟨hsize, rfl⟩, rfl, rfl⟩

theorem decodes_chunks : Decodes takeChunks (putVector putChunk)
    fun chunks => chunks.length ≤ kMaximumSnapshotVectorItems ∧
      ∀ chunk ∈ chunks, chunk.bytes ≠ 0 ∧ chunk.bytes.toNat ≤ kSnapshotChunkBytes := by
  intro bytes chunks rest
  simp only [takeChunks, decode_bind_iff, decode_ensure_iff]
  constructor
  · rintro ⟨count, middle, hcount, passed, after, ⟨hlimit, rfl⟩, hchunks⟩
    obtain ⟨-, rfl⟩ := (decodes_u32 _ _ _).1 hcount
    obtain ⟨⟨hlength, hall⟩, rfl⟩ := (decodes_chunk.takeMany count.toNat _ _ _).1 hchunks
    refine ⟨⟨hlength ▸ hlimit, hall⟩, ?_⟩
    rw [putVector, hlength, UInt32.ofNat_toNat, append_assoc]
  · rintro ⟨⟨hlength, hall⟩, rfl⟩
    have hcount := toNat_ofNat_count hlength
    refine ⟨UInt32.ofNat chunks.length, chunks.flatMap putChunk ++ rest, ?_, (), _, ⟨?_, rfl⟩, ?_⟩
    · rw [putVector, append_assoc]
      exact decodes_u32.run_append _ trivial
    · rw [hcount]
      exact hlength
    · rw [hcount]
      exact (decodes_chunk.takeMany chunks.length).run_append rest ⟨rfl, hall⟩

theorem decodes_vector32 : Decodes (takeVector 4 take32) (putVector putU32)
    fun values => values.length ≤ kMaximumSnapshotVectorItems :=
  decodes_vector decodes_u32 putU32_length

theorem decodes_vector64 : Decodes (takeVector 8 take64) (putVector putU64)
    fun values => values.length ≤ kMaximumSnapshotVectorItems :=
  decodes_vector decodes_u64 putU64_length

theorem decodes_fields : Decodes takeFields putFields fun value => Storable value ∧ True := by
  refine decodes_u64.field _ (fun _ _ => trivial) fun generation _ => ?_
  refine decodes_hash.field _ (fun _ _ => trivial) fun modelHash _ => ?_
  refine decodes_u32.field _ (fun _ _ => trivial) fun maxContext _ => ?_
  refine decodes_u32.field _ (fun _ _ => trivial) fun pageTokens _ => ?_
  refine decodes_u64.field _ (fun _ _ => trivial) fun pageBytes _ => ?_
  refine decodes_u64.field _ (fun _ _ => trivial) fun hostPageBytes _ => ?_
  refine decodes_u32.field _ (fun _ _ => trivial) fun currentPosition _ => ?_
  refine decodes_u32.field _ (fun _ _ => trivial) fun currentBatchFirst _ => ?_
  refine decodes_u32.field _ (fun _ _ => trivial) fun currentBatchRows _ => ?_
  refine decodes_u32.field _ (fun _ _ => trivial) fun synchronizationFirst _ => ?_
  refine decodes_u32.field _ (fun _ _ => trivial) fun synchronizationRows _ => ?_
  refine decodes_u32.field _ (fun _ _ => trivial) fun synchronizationConsumed _ => ?_
  refine decodes_u32.field _ (fun _ _ => trivial) fun mtpLength _ => ?_
  refine decodes_u32.field _ (fun _ _ => trivial) fun synchronizedToken _ => ?_
  refine decodes_u32.field _ (fun _ _ => trivial) fun draftToken _ => ?_
  refine decodes_vector32.field _ (fun _ h => h.draftTokens)
    fun draftTokens hdraftTokens => ?_
  refine decodes_vector32.field _ (fun _ h => h.draftDistributionOffsets)
    fun draftDistributionOffsets hdraftDistributionOffsets => ?_
  refine decodes_vector32.field _ (fun _ h => h.draftDistributionTokens)
    fun draftDistributionTokens hdraftDistributionTokens => ?_
  refine decodes_vector64.field _ (fun _ h => h.draftDistributionProbabilities)
    fun draftDistributionProbabilities hdraftDistributionProbabilities => ?_
  refine decodes_u32.field _ (fun _ _ => trivial) fun retentionPosition _ => ?_
  refine decodes_u32.field _ (fun _ _ => trivial) fun ropeDelta _ => ?_
  refine decodes_flag.field _ (fun _ _ => trivial) fun draftValid _ => ?_
  refine decodes_flag.field _ (fun _ _ => trivial) fun retentionValid _ => ?_
  refine decodes_flag.field _ (fun _ _ => trivial) fun exactDecodeEnabled _ => ?_
  refine decodes_u32.field _ (fun _ _ => trivial) fun hostKvPopulatedTokens _ => ?_
  refine decodes_u32.field _ (fun _ _ => trivial) fun logicalPages _ => ?_
  refine decodes_u64.field _ (fun _ _ => trivial) fun pagePayloadBytes _ => ?_
  refine decodes_u64.field _ (fun _ _ => trivial) fun windowPayloadBytes _ => ?_
  refine decodes_u64.field _ (fun _ _ => trivial) fun parkedBytes _ => ?_
  refine decodes_u64.field _ (fun _ _ => trivial) fun reportedBytes _ => ?_
  refine decodes_vector32.field _ (fun _ h => h.pageIndices)
    fun pageIndices hpageIndices => ?_
  refine decodes_vector32.field _ (fun _ h => h.promptMropePositions)
    fun promptMropePositions hpromptMropePositions => ?_
  refine decodes_vector32.field _ (fun _ h => h.sequenceTargetHidden)
    fun sequenceTargetHidden hsequenceTargetHidden => ?_
  refine decodes_vector32.field _ (fun _ h => h.pleHistory) fun pleHistory hpleHistory => ?_
  refine decodes_vector32.field _ (fun _ h => h.pleRetentionHistory)
    fun pleRetentionHistory hpleRetentionHistory => ?_
  refine decodes_u32.field _ (fun _ _ => trivial) fun hostPageCount _ => ?_
  refine decodes_u64.field _ (fun _ _ => trivial) fun logicalDataBytes _ => ?_
  refine decodes_chunks.field _ (fun _ h => ⟨h.chunks, h.chunkBytes⟩)
    fun chunks hchunks => ?_
  refine Decodes.record fun other => ?_
  constructor
  · rintro ⟨-, hfixed⟩
    cases other
    simp_all
  · rintro rfl
    refine ⟨⟨hdraftTokens, hdraftDistributionOffsets, hdraftDistributionTokens,
      hdraftDistributionProbabilities, hpageIndices, hpromptMropePositions, hsequenceTargetHidden,
      hpleHistory, hpleRetentionHistory, hchunks.1, hchunks.2⟩, ?_⟩
    simp

theorem decodes_manifest : Decodes takeManifest putManifest Storable := by
  intro bytes value rest
  simp only [takeManifest, decode_bind_iff, decode_ensure_iff]
  constructor
  · rintro ⟨magic, _, hmagic, version, _, hversion, _, _, ⟨⟨rfl, rfl⟩, rfl⟩, hfields⟩
    obtain ⟨-, rfl⟩ := (decodes_u64 _ _ _).1 hmagic
    obtain ⟨-, rfl⟩ := (decodes_u32 _ _ _).1 hversion
    obtain ⟨⟨hstorable, -⟩, rfl⟩ := (decodes_fields _ _ _).1 hfields
    refine ⟨hstorable, ?_⟩
    simp only [putManifest, append_assoc]
  · rintro ⟨hstorable, rfl⟩
    exact ⟨_, _, decodes_u64.run_append _ trivial, _, _, decodes_u32.run_append _ trivial, (), _,
      ⟨⟨rfl, rfl⟩, rfl⟩, decodes_fields.run_append rest ⟨hstorable, trivial⟩⟩

variable {sha256 : Bytes → Sha256Digest} {value : DenseSnapshotManifest} {encoded : Bytes}

theorem decode_ok_iff : decodeSnapshotManifest sha256 encoded = .ok value ↔
    Storable value ∧ encoded = sealed sha256 (putManifest value) := by
  constructor
  · intro h
    rw [decodeSnapshotManifest] at h
    split at h
    next => cases h
    next hlong =>
      split at h
      next => cases h
      next hauthentic =>
        rw [not_not] at hauthentic
        split at h
        next => cases h
        next found rest hrun =>
          split at h
          next hrest =>
            cases h
            obtain ⟨hstorable, hpayload⟩ := (decodes_manifest _ _ _).1 hrun
            rw [hrest, append_nil] at hpayload
            refine ⟨hstorable, ?_⟩
            rw [← hpayload]
            exact eq_sealed (Nat.le_of_not_lt hlong) hauthentic
          next => cases h
  · rintro ⟨hstorable, rfl⟩
    have hlong : ¬ (sealed sha256 (putManifest value)).length < 32 := by
      rw [sealed_length]
      omega
    have hrun := decodes_manifest.run_append [] hstorable
    rw [append_nil] at hrun
    rw [decodeSnapshotManifest, if_neg hlong, if_neg (not_not.2 authentic_sealed),
      payloadOf_sealed, hrun]
    exact if_pos rfl

theorem countable_of_le {α : Type} {values : List α}
    (h : values.length ≤ kMaximumSnapshotVectorItems) : countable values = true := by
  rw [countable, decide_eq_true_eq]
  unfold kMaximumSnapshotVectorItems at h
  omega

theorem encode_of_storable (h : Storable value) :
    encodeSnapshotManifest sha256 value = .ok (sealed sha256 (putManifest value)) := by
  rw [encodeSnapshotManifest, if_neg, if_neg]
  · rw [not_not]
    exact countable_of_le h.chunks
  · rw [not_not]
    exact ⟨countable_of_le h.draftTokens, countable_of_le h.draftDistributionOffsets,
      countable_of_le h.draftDistributionTokens,
      countable_of_le h.draftDistributionProbabilities, countable_of_le h.pageIndices,
      countable_of_le h.promptMropePositions, countable_of_le h.sequenceTargetHidden,
      countable_of_le h.pleHistory, countable_of_le h.pleRetentionHistory⟩

theorem decode_encode_iff :
    (encodeSnapshotManifest sha256 value >>= decodeSnapshotManifest sha256) = .ok value ↔
      Storable value := by
  constructor
  · intro h
    cases hencode : encodeSnapshotManifest sha256 value with
    | error reason =>
      rw [hencode] at h
      cases h
    | ok encoded =>
      rw [hencode] at h
      exact (decode_ok_iff.1 h).1
  · intro h
    rw [encode_of_storable h]
    exact decode_ok_iff.2 ⟨h, rfl⟩

theorem encode_of_decode (h : decodeSnapshotManifest sha256 encoded = .ok value) :
    encodeSnapshotManifest sha256 value = .ok encoded := by
  obtain ⟨hstorable, rfl⟩ := decode_ok_iff.1 h
  exact encode_of_storable hstorable

end QuantumLlm.Runtime.Provider
