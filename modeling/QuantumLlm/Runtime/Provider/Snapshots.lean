import QuantumLlm.Runtime.Provider.Chunks
import QuantumLlm.Runtime.SpeculativeSampling

/-!
# Snapshots of request states

Saving a parked request state as a manifest and chunks, and what comes back.
-/

namespace QuantumLlm.Runtime.Provider

open List

open SpeculativeSampling (SamplingDistribution TokenProbability)

/-- A pinned allocation; one without bytes is refused. -/
structure PinnedHostBuffer where
  data : Bytes
  nonempty : data ≠ []

structure ParkedRequestState where
  payload : PinnedHostBuffer
  pageIndices : List UInt32
  logicalPages : UInt32
  pagePayloadBytes : UInt64
  windowPayloadBytes : UInt64
  bytes : UInt64
  reportedBytes : UInt64

/-- A page of host memory, when it is allocated. -/
structure HostKvPage (pageBytes : Nat) where
  allocation : Option { contents : Bytes // contents.length = pageBytes }

/-- The probabilities are the bits of their values. -/
structure MtpPrediction where
  token : UInt32
  distribution : SamplingDistribution UInt64

/-- The values of the provider that a snapshot belongs to. -/
structure SnapshotProvider where
  contentHash : Sha256Digest
  maxContext : UInt32
  kvPageTokens : UInt32
  kvPageBytes : UInt64
  hostFp16TargetPageBytes : UInt64

structure RequestState (provider : SnapshotProvider) where
  slot : Option UInt32
  currentPosition : UInt32
  currentBatchFirst : UInt32
  currentBatchRows : UInt32
  synchronizationFirst : UInt32
  synchronizationRows : UInt32
  synchronizationConsumed : UInt32
  mtpLength : UInt32
  synchronizedToken : UInt32
  draftToken : UInt32
  draftPredictions : List MtpPrediction
  retentionPosition : UInt32
  ropeDelta : UInt32
  promptMropePositions : List UInt32
  sequenceTargetHidden : List UInt32
  pleHistory : List UInt32
  pleRetentionHistory : List UInt32
  draftValid : Bool
  retentionValid : Bool
  exactDecodeEnabled : Bool
  hostKvPages : List (HostKvPage provider.hostFp16TargetPageBytes.toNat)
  hostKvPopulatedTokens : UInt32
  hostKvBytes : UInt64
  parkedState : Option ParkedRequestState
  /-- A request has a 32-bit number of pages at most. -/
  paged : hostKvPages.length < 2 ^ 32
  /-- What is parked is in memory. -/
  resident : (parkedState.elim 0 (·.payload.data.length)) +
    hostKvPages.length * provider.hostFp16TargetPageBytes.toNat < 2 ^ 64

variable {provider : SnapshotProvider}

/-- The draft distributions as one list, and where each one ends. -/
def draftOffsets (count : Nat) : List MtpPrediction → List UInt32
  | [] => []
  | prediction :: rest =>
    let count := count + prediction.distribution.entries.length
    UInt32.ofNat count :: draftOffsets count rest

def draftEntries (state : RequestState provider) : List (TokenProbability UInt64) :=
  state.draftPredictions.flatMap (·.distribution.entries)

def manifestOf (state : RequestState provider) (parked : ParkedRequestState) (generation : UInt64)
    (chunks : List SnapshotChunk) : DenseSnapshotManifest where
  generation
  modelHash := provider.contentHash
  maxContext := provider.maxContext
  pageTokens := provider.kvPageTokens
  pageBytes := provider.kvPageBytes
  hostPageBytes := provider.hostFp16TargetPageBytes
  currentPosition := state.currentPosition
  currentBatchFirst := state.currentBatchFirst
  currentBatchRows := state.currentBatchRows
  synchronizationFirst := state.synchronizationFirst
  synchronizationRows := state.synchronizationRows
  synchronizationConsumed := state.synchronizationConsumed
  mtpLength := state.mtpLength
  synchronizedToken := state.synchronizedToken
  draftToken := state.draftToken
  draftTokens := state.draftPredictions.map (·.token)
  draftDistributionOffsets := 0 :: draftOffsets 0 state.draftPredictions
  draftDistributionTokens := (draftEntries state).map (·.token)
  draftDistributionProbabilities := (draftEntries state).map (·.probability)
  retentionPosition := state.retentionPosition
  ropeDelta := state.ropeDelta
  draftValid := state.draftValid
  retentionValid := state.retentionValid
  exactDecodeEnabled := state.exactDecodeEnabled
  hostKvPopulatedTokens := state.hostKvPopulatedTokens
  logicalPages := parked.logicalPages
  pagePayloadBytes := parked.pagePayloadBytes
  windowPayloadBytes := parked.windowPayloadBytes
  parkedBytes := parked.bytes
  reportedBytes := parked.reportedBytes
  pageIndices := parked.pageIndices
  promptMropePositions := state.promptMropePositions
  sequenceTargetHidden := state.sequenceTargetHidden
  pleHistory := state.pleHistory
  pleRetentionHistory := state.pleRetentionHistory
  hostPageCount := UInt32.ofNat state.hostKvPages.length
  logicalDataBytes := parked.bytes + state.hostKvBytes
  chunks

/-- The accounting of a parked request agrees with what it holds. -/
def accounted (state : RequestState provider) (parked : ParkedRequestState) : Bool :=
  parked.payload.data.length = parked.bytes.toNat &&
    parked.pagePayloadBytes = UInt64.ofNat parked.pageIndices.length * provider.kvPageBytes &&
    state.hostKvBytes =
      UInt64.ofNat state.hostKvPages.length * provider.hostFp16TargetPageBytes &&
    parked.reportedBytes = parked.bytes + state.hostKvBytes

/-- The contents of the pages, when each one is allocated. -/
def pageContents {pageBytes : Nat} : List (HostKvPage pageBytes) → Option (List Bytes)
  | [] => some []
  | page :: rest =>
    match page.allocation with
    | none => none
    | some contents => (pageContents rest).map (contents.val :: ·)

variable (sha256 : Bytes → Sha256Digest)

/-- `save_request_state_snapshot`, up to the encoding of its manifest. -/
def buildSnapshot (blobs : Blobs) (state : RequestState provider) (root : String)
    (generation : UInt64) : Except String (DenseSnapshotManifest × Blobs) :=
  match state.parkedState with
  | none => .error "request state is not persistable"
  | some parked =>
    if state.slot.isSome ∨ generation = 0 ∨ root = "" then
      .error "request state is not persistable"
    else if ¬ accounted state parked then .error "parked request accounting is inconsistent"
    else
      match pageContents state.hostKvPages with
      | none => .error "authoritative host KV page is absent"
      | some pages =>
        match SnapshotWriter.appendAll sha256 { blobs, room := empty_room }
            (parked.payload.data :: pages) with
        | .error reason => .error reason
        | .ok appended =>
          match appended.finish sha256 with
          | .error reason => .error reason
          | .ok finished => .ok (manifestOf state parked generation finished.chunks, finished.blobs)

variable {sha256 : Bytes → Sha256Digest} {blobs : Blobs} {state : RequestState provider}
  {root : String} {generation : UInt64} {manifest : DenseSnapshotManifest} {stored : Blobs}

/-- What is saved: the payload followed by the pages. -/
def snapshotData (parked : ParkedRequestState) (pages : List Bytes) : Bytes :=
  parked.payload.data ++ pages.flatten

/-- The contents a save looks at: what is stored already and its own pieces. -/
def savedContents (blobs : Blobs) (data : Bytes) : Set Bytes :=
  { content | (∃ name, blobs name = some content) ∨ content ∈ cut kSnapshotChunkBytes data }

/-- Every blob is stored under its digest. -/
def DigestNamed (sha256 : Bytes → Sha256Digest) (blobs : Blobs) : Prop :=
  ∀ name content, blobs name = some content → name = blobName (sha256 content)

/-- What a save needs. -/
structure Persistable (state : RequestState provider) (root : String) (generation : UInt64)
    (parked : ParkedRequestState) (pages : List Bytes) : Prop where
  present : state.parkedState = some parked
  unslotted : state.slot = none
  numbered : generation ≠ 0
  rooted : root ≠ ""
  consistent : accounted state parked = true
  allocated : pageContents state.hostKvPages = some pages

variable {parked : ParkedRequestState} {pages : List Bytes}

theorem pageContents_length {pageBytes : Nat} {allocated : List (HostKvPage pageBytes)}
    (h : pageContents allocated = some pages) : pages.length = allocated.length ∧
      ∀ page ∈ pages, page.length = pageBytes := by
  induction allocated generalizing pages with
  | nil =>
    cases h
    simp
  | cons page rest ih =>
    rw [pageContents] at h
    split at h
    next => cases h
    next contents hcontents =>
      obtain ⟨others, hothers, rfl⟩ := Option.map_eq_some_iff.1 h
      obtain ⟨hlength, hall⟩ := ih hothers
      rw [length_cons, length_cons, hlength, forall_mem_cons]
      exact ⟨rfl, contents.property, hall⟩

theorem build_spec (hnamed : DigestNamed sha256 blobs)
    (h : Persistable state root generation parked pages)
    (hfree : CollisionFree sha256 (savedContents blobs (snapshotData parked pages))) :
    ∃ stored, buildSnapshot sha256 blobs state root generation =
        .ok (manifestOf state parked generation
          ((cut kSnapshotChunkBytes (snapshotData parked pages)).map (chunkOf sha256)), stored) ∧
      ∀ piece ∈ cut kSnapshotChunkBytes (snapshotData parked pages),
        stored (blobName (sha256 piece)) = some piece := by
  have haddressed : Addressed sha256 (savedContents blobs (snapshotData parked pages)) blobs :=
    ⟨hnamed, fun name content hcontent => .inl ⟨name, hcontent⟩⟩
  have hdata : (parked.payload.data :: pages).flatten = snapshotData parked pages := rfl
  obtain ⟨appended, finished, happend, hfinish, hwrote⟩ :=
    @finish_spec sha256 _ hfree blobs haddressed (parked.payload.data :: pages)
      fun piece hpiece => .inr hpiece
  refine ⟨finished.blobs, ?_, hwrote.stored⟩
  have hready : ¬ (state.slot.isSome = true ∨ generation = 0 ∨ root = "") := by
    simp [h.unslotted, h.numbered, h.rooted]
  rw [buildSnapshot, h.present]
  simp only [if_neg hready, if_neg (not_not.2 h.consistent), h.allocated, happend, hfinish,
    finish_chunks happend hfinish, ← hdata]

theorem build_ok (h : buildSnapshot sha256 blobs state root generation = .ok (manifest, stored)) :
    ∃ parked pages, Persistable state root generation parked pages ∧
      manifest = manifestOf state parked generation
        ((cut kSnapshotChunkBytes (snapshotData parked pages)).map (chunkOf sha256)) := by
  rw [buildSnapshot] at h
  split at h
  next => cases h
  next parked hparked =>
    split at h
    next => cases h
    next hready =>
      split at h
      next => cases h
      next haccounted =>
        split at h
        next => cases h
        next pages hpages =>
          split at h
          next => cases h
          next appended happend =>
            split at h
            next => cases h
            next finished hfinish =>
              rw [not_or, not_or, Option.not_isSome_iff_eq_none] at hready
              rw [finish_chunks happend hfinish] at h
              cases h
              exact ⟨parked, pages, ⟨hparked, hready.1, hready.2.1, hready.2.2,
                not_not.1 haccounted, hpages⟩, rfl⟩

/-- No vector of the request is longer than the decoder reads, and its data is at most as
much as that many chunks hold. -/
structure WithinLimits (state : RequestState provider) : Prop where
  drafts : state.draftPredictions.length < kMaximumSnapshotVectorItems
  entries : (draftEntries state).length ≤ kMaximumSnapshotVectorItems
  pageIndices : ∀ parked, state.parkedState = some parked →
    parked.pageIndices.length ≤ kMaximumSnapshotVectorItems
  promptMropePositions : state.promptMropePositions.length ≤ kMaximumSnapshotVectorItems
  sequenceTargetHidden : state.sequenceTargetHidden.length ≤ kMaximumSnapshotVectorItems
  pleHistory : state.pleHistory.length ≤ kMaximumSnapshotVectorItems
  pleRetentionHistory : state.pleRetentionHistory.length ≤ kMaximumSnapshotVectorItems
  data : ∀ parked, state.parkedState = some parked →
    parked.payload.data.length +
        state.hostKvPages.length * provider.hostFp16TargetPageBytes.toNat ≤
      kMaximumSnapshotVectorItems * kSnapshotChunkBytes

theorem draftOffsets_length (count : Nat) (predictions : List MtpPrediction) :
    (draftOffsets count predictions).length = predictions.length := by
  induction predictions generalizing count with
  | nil => rfl
  | cons prediction rest ih => rw [draftOffsets, length_cons, ih, length_cons]

section

variable (h : Persistable state root generation parked pages)

include h

theorem snapshotData_length :
    (snapshotData parked pages).length = parked.payload.data.length +
      state.hostKvPages.length * provider.hostFp16TargetPageBytes.toNat := by
  obtain ⟨hlength, hall⟩ := pageContents_length h.allocated
  rw [snapshotData, length_append, length_flatten_uniform hall, hlength]

theorem storable_iff :
    Storable (manifestOf state parked generation
      ((cut kSnapshotChunkBytes (snapshotData parked pages)).map (chunkOf sha256))) ↔
      WithinLimits state := by
  have hsize : 0 < kSnapshotChunkBytes := by decide
  obtain ⟨-, hpieces, hbound⟩ := cut_spec hsize (snapshotData parked pages)
  have hcount := hbound kMaximumSnapshotVectorItems
  rw [snapshotData_length h] at hcount
  constructor
  · intro hstorable
    have hoffsets : (draftOffsets 0 state.draftPredictions).length + 1 ≤
        kMaximumSnapshotVectorItems := hstorable.draftDistributionOffsets
    have hentries : ((draftEntries state).map (·.token)).length ≤ kMaximumSnapshotVectorItems :=
      hstorable.draftDistributionTokens
    have hchunks : ((cut kSnapshotChunkBytes (snapshotData parked pages)).map
        (chunkOf sha256)).length ≤ kMaximumSnapshotVectorItems := hstorable.chunks
    rw [draftOffsets_length] at hoffsets
    rw [length_map] at hentries hchunks
    constructor
    case drafts => exact hoffsets
    case entries => exact hentries
    case pageIndices =>
      intro other hother
      rw [h.present] at hother
      cases hother
      exact hstorable.pageIndices
    case promptMropePositions => exact hstorable.promptMropePositions
    case sequenceTargetHidden => exact hstorable.sequenceTargetHidden
    case pleHistory => exact hstorable.pleHistory
    case pleRetentionHistory => exact hstorable.pleRetentionHistory
    case data =>
      intro other hother
      rw [h.present] at hother
      cases hother
      exact hcount.1 hchunks
  · intro hlimits
    have hdrafts := hlimits.drafts
    constructor
    case draftTokens =>
      show (state.draftPredictions.map _).length ≤ _
      rw [length_map]
      omega
    case draftDistributionOffsets =>
      show (draftOffsets 0 state.draftPredictions).length + 1 ≤ _
      rw [draftOffsets_length]
      exact hdrafts
    case draftDistributionTokens =>
      show ((draftEntries state).map _).length ≤ _
      rw [length_map]
      exact hlimits.entries
    case draftDistributionProbabilities =>
      show ((draftEntries state).map _).length ≤ _
      rw [length_map]
      exact hlimits.entries
    case pageIndices => exact hlimits.pageIndices parked h.present
    case promptMropePositions => exact hlimits.promptMropePositions
    case sequenceTargetHidden => exact hlimits.sequenceTargetHidden
    case pleHistory => exact hlimits.pleHistory
    case pleRetentionHistory => exact hlimits.pleRetentionHistory
    case chunks =>
      show (List.map _ _).length ≤ _
      rw [length_map]
      exact hcount.2 (hlimits.data parked h.present)
    case chunkBytes =>
      intro chunk hchunk
      obtain ⟨piece, hpiece, rfl⟩ := mem_map.1 hchunk
      obtain ⟨hpos, hle⟩ := hpieces piece hpiece
      have hbytes : (chunkOf sha256 piece).bytes.toNat = piece.length := toNat_chunk_bytes hle
      refine ⟨?_, hbytes ▸ hle⟩
      intro hzero
      rw [hzero] at hbytes
      simp only [UInt32.toNat_zero] at hbytes
      omega

theorem accounted_bytes :
    parked.bytes.toNat = parked.payload.data.length ∧
      (parked.bytes + state.hostKvBytes).toNat = (snapshotData parked pages).length := by
  have haccounted := h.consistent
  simp only [accounted, Bool.and_eq_true, decide_eq_true_eq] at haccounted
  obtain ⟨⟨⟨hbytes, -⟩, hhost⟩, -⟩ := haccounted
  have hresident := state.resident
  rw [h.present] at hresident
  refine ⟨hbytes.symm, ?_⟩
  rw [snapshotData_length h, hhost, UInt64.toNat_add, UInt64.toNat_mul, UInt64.toNat_ofNat',
    ← hbytes, Nat.mod_mul_mod, Nat.add_mod_mod]
  exact Nat.mod_eq_of_lt hresident

theorem filled_eq {filled : HostMemory}
    (hfilled : Filled parked.payload.data.length state.hostKvPages.length
      provider.hostFp16TargetPageBytes.toNat (snapshotData parked pages) filled) :
    filled = { payload := parked.payload.data, pages
               cursor := (snapshotData parked pages).length } := by
  obtain ⟨hlength, hall⟩ := pageContents_length h.allocated
  have hdata := hfilled.data
  rw [take_of_length_le (by rw [hfilled.total, snapshotData_length h])] at hdata
  obtain ⟨hpayload, hflatten⟩ := append_inj hdata hfilled.payload
  have hpages := flatten_uniform_injective hfilled.pages hall (hfilled.count.trans hlength.symm)
  have hcursor := hfilled.cursor
  cases filled
  simp_all only

theorem load_spec {later : Blobs}
    (hlater : ∀ piece ∈ cut kSnapshotChunkBytes (snapshotData parked pages),
      later (blobName (sha256 piece)) = some piece) :
    loadSnapshotData sha256 later (manifestOf state parked generation
        ((cut kSnapshotChunkBytes (snapshotData parked pages)).map (chunkOf sha256))) =
      .ok { payload := parked.payload.data, pages
            cursor := (snapshotData parked pages).length } := by
  obtain ⟨hflatten, hpieces, -⟩ := cut_spec (by decide : 0 < kSnapshotChunkBytes)
    (snapshotData parked pages)
  obtain ⟨hbytes, htotal⟩ := accounted_bytes h
  have hcount : (UInt32.ofNat state.hostKvPages.length).toNat = state.hostKvPages.length := by
    rw [UInt32.toNat_ofNat', Nat.mod_eq_of_lt state.paged]
  have hsum := @chunkBytes_cut sha256 0 _ hpieces (by
    rw [hflatten, Nat.zero_add, ← htotal]
    exact UInt64.toNat_lt _)
  have hparked : parked.bytes ≠ 0 := by
    intro hzero
    rw [hzero] at hbytes
    exact parked.payload.nonempty (length_eq_zero_iff.1 hbytes.symm)
  have hstart : Filled parked.payload.data.length state.hostKvPages.length
      provider.hostFp16TargetPageBytes.toNat []
      { payload := List.replicate parked.payload.data.length 0
        pages := List.replicate state.hostKvPages.length
          (List.replicate provider.hostFp16TargetPageBytes.toNat 0) } := by
    refine ⟨length_replicate, length_replicate, ?_, rfl, take_zero⟩
    intro page hpage
    rw [eq_of_mem_replicate hpage, length_replicate]
  obtain ⟨filled, hfill, hfilled⟩ := fillChunks_spec hstart hlater hpieces (by
    rw [hflatten, length_nil, Nat.zero_add, snapshotData_length h])
  rw [nil_append, hflatten] at hfilled
  obtain rfl := filled_eq h hfilled
  rw [loadSnapshotData]
  simp only [manifestOf]
  rw [hsum, hflatten]
  simp only [htotal, Nat.zero_add, ne_eq, not_true_eq_false, if_false, if_neg hparked, hcount,
    hbytes, hfill]

end

def anyDigest : Sha256Digest := ⟨List.replicate 32 0, zeroBytes_length⟩

/-- A context of two million tokens. -/
def smallProvider : SnapshotProvider where
  contentHash := anyDigest
  maxContext := 2097152
  kvPageTokens := 16
  kvPageBytes := 1
  hostFp16TargetPageBytes := 2

def smallParked : ParkedRequestState where
  payload := { data := [1, 2, 3], nonempty := by simp }
  pageIndices := [0]
  logicalPages := 1
  pagePayloadBytes := 1
  windowPayloadBytes := 0
  bytes := 3
  reportedBytes := 5

/-- A parked request with one host page, after a prompt with these positions. -/
def smallState (positions : List UInt32) : RequestState smallProvider where
  slot := none
  currentPosition := 0
  currentBatchFirst := 0
  currentBatchRows := 0
  synchronizationFirst := 0
  synchronizationRows := 0
  synchronizationConsumed := 0
  mtpLength := 1
  synchronizedToken := 0
  draftToken := 0
  draftPredictions := []
  retentionPosition := 1
  ropeDelta := 0
  promptMropePositions := positions
  sequenceTargetHidden := []
  pleHistory := []
  pleRetentionHistory := []
  draftValid := false
  retentionValid := true
  exactDecodeEnabled := false
  hostKvPages := [{ allocation := some ⟨[4, 5], rfl⟩ }]
  hostKvPopulatedTokens := 1
  hostKvBytes := 2
  parkedState := some smallParked
  paged := by decide
  resident := by decide

theorem small_persistable (positions : List UInt32) :
    Persistable (smallState positions) "/snapshots" 1 smallParked [[4, 5]] where
  present := rfl
  unslotted := rfl
  numbered := by decide
  rooted := by decide
  consistent := by
    show (decide ([1, 2, 3].length = (3 : UInt64).toNat) && decide ((1 : UInt64) =
      UInt64.ofNat [0].length * 1) && decide ((2 : UInt64) = UInt64.ofNat 1 * 2) &&
        decide ((5 : UInt64) = 3 + 2)) = true
    decide
  allocated := rfl

theorem small_cut : cut kSnapshotChunkBytes (snapshotData smallParked [[4, 5]]) =
    [[1, 2, 3, 4, 5]] :=
  cut_short (by decide) (by decide)

theorem small_collisionFree : CollisionFree (fun _ => anyDigest)
    (savedContents (fun _ => none) (snapshotData smallParked [[4, 5]])) := by
  have hone : ∀ content ∈ savedContents (fun _ => none) (snapshotData smallParked [[4, 5]]),
      content = [1, 2, 3, 4, 5] := by
    intro content hcontent
    rcases hcontent with ⟨_, hblob⟩ | hpiece
    · cases hblob
    · rw [small_cut] at hpiece
      exact mem_singleton.1 hpiece
  intro left hleft right hright _
  rw [hone left hleft, hone right hright]

theorem small_named : DigestNamed (fun _ => anyDigest) fun _ => none := by
  intro name content hcontent
  cases hcontent

end QuantumLlm.Runtime.Provider
