import QuantumLlm.Lib.Fips180
import QuantumLlm.Runtime.Sha256

/-!
# Incremental SHA-256

The hasher behind every artifact and wire digest: a tail buffer that is filled up to a block,
whole blocks taken straight from the input, and the padding when it is finalized. Of the tail
buffer only the bytes in use are kept. The digest a platform may compute natively is not
modelled.
-/

namespace QuantumLlm.Runtime.Hashing

open Fips180 List

def kRoundConstants : List UInt32 := [
  0x428a2f98, 0x71374491, 0xb5c0fbcf, 0xe9b5dba5, 0x3956c25b, 0x59f111f1, 0x923f82a4, 0xab1c5ed5,
  0xd807aa98, 0x12835b01, 0x243185be, 0x550c7dc3, 0x72be5d74, 0x80deb1fe, 0x9bdc06a7, 0xc19bf174,
  0xe49b69c1, 0xefbe4786, 0x0fc19dc6, 0x240ca1cc, 0x2de92c6f, 0x4a7484aa, 0x5cb0a9dc, 0x76f988da,
  0x983e5152, 0xa831c66d, 0xb00327c8, 0xbf597fc7, 0xc6e00bf3, 0xd5a79147, 0x06ca6351, 0x14292967,
  0x27b70a85, 0x2e1b2138, 0x4d2c6dfc, 0x53380d13, 0x650a7354, 0x766a0abb, 0x81c2c92e, 0x92722c85,
  0xa2bfe8a1, 0xa81a664b, 0xc24b8b70, 0xc76c51a3, 0xd192e819, 0xd6990624, 0xf40e3585, 0x106aa070,
  0x19a4c116, 0x1e376c08, 0x2748774c, 0x34b0bcb5, 0x391c0cb3, 0x4ed8aa4a, 0x5b9cca4f, 0x682e6ff3,
  0x748f82ee, 0x78a5636f, 0x84c87814, 0x8cc70208, 0x90befffa, 0xa4506ceb, 0xbef9a3f7, 0xc67178f2]

def initialState : Words :=
  ⟨0x6a09e667, 0xbb67ae85, 0x3c6ef372, 0xa54ff53a, 0x510e527f, 0x9b05688c, 0x1f83d9ab, 0x5be0cd19⟩

/-! ## One block -/

/-- The second loop over the words: the next word from those before it. -/
def extendWords (words : List UInt32) (index : Nat) : List UInt32 :=
  let small0 := rotr (words.getD (index - 15) 0) 7 ^^^ rotr (words.getD (index - 15) 0) 18 ^^^
    (words.getD (index - 15) 0 >>> 3)
  let small1 := rotr (words.getD (index - 2) 0) 17 ^^^ rotr (words.getD (index - 2) 0) 19 ^^^
    (words.getD (index - 2) 0 >>> 10)
  words ++ [words.getD (index - 16) 0 + small0 + words.getD (index - 7) 0 + small1]

def loadWord (block : Bytes) (index : Nat) : UInt32 :=
  let offset := index * 4
  ((block.getD offset 0).toUInt32 <<< 24) ||| ((block.getD (offset + 1) 0).toUInt32 <<< 16) |||
    ((block.getD (offset + 2) 0).toUInt32 <<< 8) ||| (block.getD (offset + 3) 0).toUInt32

def wordsOf (block : Bytes) : List UInt32 :=
  (List.range' 16 48).foldl extendWords ((List.range 16).map (loadWord block))

/-- The loop over the rounds. -/
def roundStep (words : List UInt32) (v : Words) (index : Nat) : Words :=
  let big1 := rotr v.e 6 ^^^ rotr v.e 11 ^^^ rotr v.e 25
  let choose := (v.e &&& v.f) ^^^ (~~~v.e &&& v.g)
  let first := v.h + big1 + choose + kRoundConstants.getD index 0 + words.getD index 0
  let big0 := rotr v.a 2 ^^^ rotr v.a 13 ^^^ rotr v.a 22
  let majority := (v.a &&& v.b) ^^^ (v.a &&& v.c) ^^^ (v.b &&& v.c)
  let second := big0 + majority
  ⟨first + second, v.a, v.b, v.c, v.d + first, v.e, v.f, v.g⟩

def transform (state : Words) (block : Bytes) : Words :=
  state.add ((List.range 64).foldl (roundStep (wordsOf block)) state)

/-! ## The hasher -/

structure Sha256 where
  state : Words := initialState
  /-- The bytes in use of the tail buffer. -/
  tail : Bytes := []
  totalBytes : UInt64 := 0
  finalized : Bool := false
  digest : Sha256Digest := ⟨List.replicate 32 0, zeroBytes_length⟩

/-- The loop over the whole blocks of the input from a cursor on, and what it leaves. -/
def wholeBlocks (state : Words) (input : Bytes) : Words × Bytes :=
  if 64 ≤ input.length then wholeBlocks (transform state (input.take 64)) (input.drop 64)
  else (state, input)
termination_by input.length
decreasing_by
  rw [List.length_drop]
  omega

/-- The input fills up the tail buffer: the state, the buffer and the input left. -/
def Sha256.fillTail (hasher : Sha256) (input : Bytes) : Words × Bytes × Bytes :=
  if hasher.tail ≠ [] then
    let count := min (64 - hasher.tail.length) input.length
    let tail := hasher.tail ++ input.take count
    if tail.length = 64 then (transform hasher.state tail, [], input.drop count)
    else (hasher.state, tail, input.drop count)
  else (hasher.state, [], input)

def Sha256.update (hasher : Sha256) (input : Bytes) : Sha256 :=
  if hasher.finalized ∨ input = [] then hasher
  else
    let totalBytes := hasher.totalBytes + UInt64.ofNat input.length
    let filled := hasher.fillTail input
    let whole := wholeBlocks filled.1 filled.2.2
    { hasher with state := whole.1, totalBytes, tail := if whole.2 ≠ [] then whole.2 else filled.2.1 }

/-- The length in bits is written backwards from the end of the padding. -/
def writeLength (paddedBytes : Nat) (bitLength : UInt64) (tail : Bytes) : Bytes :=
  (List.range 8).foldl (fun tail index =>
    tail.set (paddedBytes - 1 - index) (bitLength >>> UInt64.ofNat (index * 8)).toUInt8) tail

def digestBytes (state : Words) : Bytes :=
  [state.a, state.b, state.c, state.d, state.e, state.f, state.g, state.h].flatMap
    fun word : UInt32 => [(word >>> 24).toUInt8, (word >>> 16).toUInt8, (word >>> 8).toUInt8,
      (word >>> 0).toUInt8]

def digestOf (state : Words) : Sha256Digest := ⟨digestBytes state, rfl⟩

def Sha256.finalize (hasher : Sha256) : Sha256Digest × Sha256 :=
  if hasher.finalized then (hasher.digest, hasher)
  else
    let tail := hasher.tail ++ 0x80 :: List.replicate (127 - hasher.tail.length) 0
    let paddedBytes := if hasher.tail.length < 56 then 64 else 128
    let tail := writeLength paddedBytes (hasher.totalBytes * 8) tail
    let state := transform hasher.state (tail.take 64)
    let state := if paddedBytes = 128 then transform state (tail.drop 64) else state
    (digestOf state, { hasher with state, finalized := true, digest := digestOf state })

/-- The digest of one input. -/
def sha256 (input : Bytes) : Sha256Digest := (Sha256.update {} input).finalize.1

/-- A call of the hasher. -/
inductive Call where
  | update (input : Bytes)
  | finalize

def Sha256.call (hasher : Sha256) : Call → Sha256
  | .update input => hasher.update input
  | .finalize => hasher.finalize.2

/-! ## The blocks -/

section

variable {block : Bytes} {index count : Nat}

theorem getD_schedule (h : index < count) :
    ((List.range count).map (schedule block)).getD index 0 = schedule block index := by
  rw [getD_eq_getElem?_getD, getElem?_map, getElem?_range h]
  rfl

theorem schedule_message (h : index < 16) : schedule block index = loadWord block index := by
  rw [schedule, if_pos h, loadWord, message, word, Nat.mul_comm 4 index]

theorem extendWords_schedule (h : 16 ≤ count) :
    extendWords ((List.range count).map (schedule block)) count =
      (List.range (count + 1)).map (schedule block) := by
  unfold extendWords
  simp only [getD_schedule (show count - 15 < count by omega),
    getD_schedule (show count - 2 < count by omega), getD_schedule (show count - 16 < count by omega),
    getD_schedule (show count - 7 < count by omega)]
  rw [range_succ, map_append, map_singleton, schedule.eq_def block count, if_neg (by omega)]
  unfold smallSigma0 smallSigma1
  ac_rfl

theorem wordsOf_eq (block : Bytes) : wordsOf block = (List.range 64).map (schedule block) := by
  have hloop : ∀ count, (List.range' 16 count).foldl extendWords
      ((List.range 16).map (loadWord block)) = (List.range (16 + count)).map (schedule block) := by
    intro count
    induction count with
    | zero =>
      refine map_congr_left fun index hindex => ?_
      exact (schedule_message (mem_range.1 hindex)).symm
    | succ count ih =>
      rw [range'_concat, foldl_append, ih, Nat.one_mul]
      exact extendWords_schedule (Nat.le_add_right 16 count)
  exact hloop 48

theorem transform_eq (state : Words) (block : Bytes) :
    transform state block = compress kRoundConstants state block := by
  refine congrArg state.add (foldl_ext _ _ _ fun v index hindex => ?_)
  have hword : (wordsOf block).getD index 0 = schedule block index := by
    rw [wordsOf_eq]
    exact getD_schedule (mem_range.1 hindex)
  unfold roundStep
  rw [hword]
  rfl

end

/-! ## The padding -/

theorem writeLength_eq {front back : Bytes} {bitLength : UInt64} {paddedBytes : Nat}
    (hfront : front.length = paddedBytes - 8) (hpadded : 8 ≤ paddedBytes) (old : Bytes)
    (hold : old.length = 8) : writeLength paddedBytes bitLength (front ++ old ++ back) =
      front ++ (List.range 8).map (fun index =>
        (bitLength >>> UInt64.ofNat (56 - 8 * index)).toUInt8) ++ back := by
  obtain ⟨b0, b1, b2, b3, b4, b5, b6, b7, rfl⟩ : ∃ b0 b1 b2 b3 b4 b5 b6 b7,
      old = [b0, b1, b2, b3, b4, b5, b6, b7] := by
    match old, hold with
    | [b0, b1, b2, b3, b4, b5, b6, b7], _ => exact ⟨b0, b1, b2, b3, b4, b5, b6, b7, rfl⟩
  obtain ⟨length, rfl⟩ : ∃ length, paddedBytes = length + 8 := ⟨paddedBytes - 8, by omega⟩
  obtain rfl : front.length = length := by omega
  simp only [writeLength, append_assoc]
  simp [range_succ]

theorem digestBytes_eq (state : Words) : digestBytes state = Fips180.digest state := by
  rfl

/-- The padded end of a message: what is left of it behind the whole blocks, and the padding. -/
def paddedEnd (tail : Bytes) (length : Nat) : Bytes :=
  tail ++ 0x80 :: List.replicate (zeros length) 0 ++ lengthBytes length

theorem writeLength_tail {tail : Bytes} {length : Nat} (hshort : tail.length < 64)
    (hlength : length % 64 = tail.length) :
    let paddedBytes := if tail.length < 56 then 64 else 128
    (paddedEnd tail length).length = paddedBytes ∧
      writeLength paddedBytes (UInt64.ofNat length * 8)
          (tail ++ 0x80 :: List.replicate (127 - tail.length) 0) =
        paddedEnd tail length ++ List.replicate (128 - paddedBytes) 0 := by
  intro paddedBytes
  have hpadded : tail.length + 1 + zeros length + 8 = paddedBytes ∧ paddedBytes ≤ 128 := by
    simp only [paddedBytes, zeros, hlength]
    split
    next => omega
    next => omega
  have hbits : UInt64.ofNat length * 8 = UInt64.ofNat (8 * length) := by
    rw [Nat.mul_comm, UInt64.ofNat_mul]
    rfl
  have hsplit : List.replicate (127 - tail.length) (0 : UInt8) =
      List.replicate (zeros length) 0 ++ (List.replicate 8 0 ++
        List.replicate (128 - paddedBytes) 0) := by
    rw [replicate_append_replicate, replicate_append_replicate]
    congr 1
    omega
  constructor
  · simp only [paddedEnd, lengthBytes, length_append, length_cons, length_replicate,
      length_map, length_range]
    omega
  · rw [hsplit, hbits]
    have hwritten := @writeLength_eq (tail ++ 0x80 :: List.replicate (zeros length) 0)
      (List.replicate (128 - paddedBytes) 0) (UInt64.ofNat (8 * length)) paddedBytes (by
        simp only [length_append, length_cons, length_replicate]
        omega) (by omega) (List.replicate 8 0) length_replicate
    simp only [append_assoc, cons_append] at hwritten
    rw [hwritten]
    simp only [paddedEnd, lengthBytes, append_assoc, cons_append]

/-! ## Runs of calls -/

/-- The hasher has taken in so many bytes: whole blocks, and less than a block in its tail. -/
structure Absorbed (hasher : Sha256) (data : Bytes) : Prop where
  unfinished : hasher.finalized = false
  total : hasher.totalBytes = UInt64.ofNat data.length
  short : hasher.tail.length < 64
  blocks : ∃ pieces : List Bytes, (∀ piece ∈ pieces, piece.length = 64) ∧
    data = pieces.flatten ++ hasher.tail ∧ hasher.state = pieces.foldl transform initialState

variable {hasher : Sha256} {data input : Bytes} {state : Words}

theorem absorbed_start : Absorbed {} [] :=
  ⟨rfl, rfl, by decide, [], by simp, rfl, rfl⟩

theorem wholeBlocks_spec : (wholeBlocks state input).2.length < 64 ∧ ∃ pieces : List Bytes,
    (∀ piece ∈ pieces, piece.length = 64) ∧ input = pieces.flatten ++ (wholeBlocks state input).2 ∧
      (wholeBlocks state input).1 = pieces.foldl transform state := by
  fun_induction wholeBlocks state input with
  | case1 state input hlong ih =>
    obtain ⟨hshort, pieces, hpieces, hinput, hstate⟩ := ih
    refine ⟨hshort, input.take 64 :: pieces, ?_, ?_, hstate⟩
    · rw [forall_mem_cons, length_take_of_le hlong]
      exact ⟨rfl, hpieces⟩
    · rw [flatten_cons, append_assoc, ← hinput, take_append_drop]
  | case2 state input hshort => exact ⟨Nat.not_le.1 hshort, [], by simp, rfl, rfl⟩

theorem fillTail_spec (hshort : hasher.tail.length < 64) : ∃ pieces : List Bytes,
    (∀ piece ∈ pieces, piece.length = 64) ∧
      hasher.tail ++ input = pieces.flatten ++
        ((hasher.fillTail input).2.1 ++ (hasher.fillTail input).2.2) ∧
      (hasher.fillTail input).1 = pieces.foldl transform hasher.state ∧
      ((hasher.fillTail input).2.1 = [] ∨
        (hasher.fillTail input).2.2 = [] ∧ (hasher.fillTail input).2.1.length < 64) := by
  unfold Sha256.fillTail
  by_cases htail : hasher.tail = []
  · rw [if_neg (not_not.2 htail), htail]
    exact ⟨[], by simp, rfl, rfl, .inl rfl⟩
  · rw [if_pos htail]
    have hsplit := take_append_drop (min (64 - hasher.tail.length) input.length) input
    by_cases hfull : (hasher.tail ++
        input.take (min (64 - hasher.tail.length) input.length)).length = 64
    · simp only [hfull, if_true]
      refine ⟨[hasher.tail ++ input.take (min (64 - hasher.tail.length) input.length)],
        by simpa using hfull, ?_, rfl, .inl trivial⟩
      rw [flatten_singleton, nil_append, append_assoc, hsplit]
    · simp only [hfull, if_false]
      rw [length_append, length_take] at hfull
      refine ⟨[], by simp, ?_, rfl, .inr ⟨drop_of_length_le (by omega), ?_⟩⟩
      · rw [flatten_nil, nil_append, append_assoc, hsplit]
      · rw [length_append, length_take]
        omega

theorem Absorbed.update (h : Absorbed hasher data) (input : Bytes) :
    Absorbed (hasher.update input) (data ++ input) := by
  unfold Sha256.update
  by_cases hnone : input = []
  · rw [if_pos (.inr hnone), hnone, append_nil]
    exact h
  rw [if_neg (by simp [h.unfinished, hnone])]
  obtain ⟨before, hbefore, hdata, hstate⟩ := h.blocks
  obtain ⟨filled, hfilled, hsplit, hmiddle, htail⟩ := @fillTail_spec hasher input h.short
  obtain ⟨hless, whole, hwhole, hrest, hlast⟩ :=
    @wholeBlocks_spec (hasher.fillTail input).2.2 (hasher.fillTail input).1
  have hkept : ∃ kept, (if (wholeBlocks (hasher.fillTail input).1
      (hasher.fillTail input).2.2).2 ≠ [] then (wholeBlocks (hasher.fillTail input).1
      (hasher.fillTail input).2.2).2 else (hasher.fillTail input).2.1) = kept ∧ kept.length < 64 ∧
      (hasher.fillTail input).2.1 ++ (hasher.fillTail input).2.2 = whole.flatten ++ kept := by
    rcases htail with hempty | ⟨hnothing, htaken⟩
    · refine ⟨_, rfl, ?_, ?_⟩
      · split
        next => exact hless
        next => simp [hempty]
      · rw [hempty, nil_append]
        split
        next => exact hrest
        next hleft => rwa [not_not.1 hleft] at hrest
    · rw [hnothing] at hrest ⊢
      obtain ⟨hflat, hleft⟩ := append_eq_nil_iff.1 hrest.symm
      exact ⟨_, if_neg (not_not.2 hleft), htaken, by rw [hflat, append_nil, nil_append]⟩
  obtain ⟨kept, hkept, hshort, htogether⟩ := hkept
  refine ⟨h.unfinished, ?_, ?_, before ++ filled ++ whole, ?_, ?_, ?_⟩
  · rw [length_append, UInt64.ofNat_add, ← h.total]
  · change (if _ then _ else _ : Bytes).length < 64
    rw [hkept]
    exact hshort
  · intro piece hpiece
    rcases mem_append.1 hpiece with hearly | hlate
    · exact (mem_append.1 hearly).elim (hbefore piece) (hfilled piece)
    · exact hwhole piece hlate
  · change data ++ input = _ ++ (if _ then _ else _)
    rw [hkept, hdata, append_assoc, hsplit, htogether, flatten_append, flatten_append]
    simp only [append_assoc]
  · change (wholeBlocks _ _).1 = _
    rw [hlast, hmiddle, hstate, foldl_append, foldl_append]

theorem Absorbed.finalize (h : Absorbed hasher data) :
    hasher.finalize.1.bytes = hashOf kRoundConstants initialState data ∧
      hasher.finalize.2.finalized = true ∧ hasher.finalize.2.digest = hasher.finalize.1 := by
  unfold Sha256.finalize
  rw [if_neg (by simp [h.unfinished])]
  refine ⟨?_, rfl, rfl⟩
  obtain ⟨pieces, hpieces, hdata, hstate⟩ := h.blocks
  have hmod : data.length % 64 = hasher.tail.length := by
    rw [hdata, length_append, length_flatten_uniform hpieces]
    have hshort := h.short
    omega
  obtain ⟨hlength, hwritten⟩ := writeLength_tail h.short hmod
  have hpadded : padded data = pieces.flatten ++ paddedEnd hasher.tail data.length := by
    simp only [padded, paddedEnd]
    rw [append_assoc hasher.tail, ← append_assoc pieces.flatten, ← hdata, append_assoc data]
  have hfold : hashOf kRoundConstants initialState data = Fips180.digest
      ((cut 64 (paddedEnd hasher.tail data.length)).foldl transform hasher.state) := by
    have hsame : compress kRoundConstants = transform := by
      funext state block
      exact (transform_eq state block).symm
    rw [hashOf, hpadded, cut_pieces (by decide) hpieces, foldl_append, hsame, hstate]
  rw [hfold, h.total]
  simp only [hwritten, digestOf, digestBytes_eq]
  by_cases hfits : hasher.tail.length < 56
  · rw [if_pos hfits] at hlength
    rw [if_pos hfits, if_neg (by decide), take_left' hlength,
      cut_short (length_pos_iff.1 (by omega)) (by omega)]
    rfl
  · rw [if_neg hfits] at hlength
    rw [if_neg hfits, if_pos rfl, replicate_zero, append_nil]
    rw [← take_append_drop 64 (paddedEnd _ _), cut_append (by decide)
      (length_take_of_le (by omega)), cut_short (length_pos_iff.1 (by
        rw [length_drop]
        omega)) (by
        rw [length_drop]
        omega), take_append_drop]
    rfl

theorem call_finalized (h : hasher.finalized = true) (call : Call) : hasher.call call = hasher := by
  cases call with
  | update input => exact if_pos (.inl h)
  | finalize => exact congrArg Prod.snd (if_pos h)

/-- For every cutting into chunks the digest is that of FIPS 180-4 for the whole message, and no
later call changes it. -/
theorem chunked_digest (chunks : List Bytes) (later : List Call) :
    let finished := (chunks.foldl Sha256.update {}).finalize
    finished.1.bytes = hashOf kRoundConstants initialState chunks.flatten ∧
      finished.1 = sha256 chunks.flatten ∧
        (later.foldl Sha256.call finished.2).finalize.1 = finished.1 := by
  intro finished
  have habsorbed : ∀ (chunks : List Bytes) (hasher : Sha256) (data : Bytes), Absorbed hasher data →
      Absorbed (chunks.foldl Sha256.update hasher) (data ++ chunks.flatten) := by
    intro chunks
    induction chunks with
    | nil =>
      intro hasher data h
      rw [flatten_nil, append_nil]
      exact h
    | cons chunk rest ih =>
      intro hasher data h
      rw [flatten_cons, ← append_assoc]
      exact ih _ _ (h.update chunk)
  obtain ⟨hbytes, hfinalized, hdigest⟩ := (habsorbed chunks {} [] absorbed_start).finalize
  have hsingle := (absorbed_start.update chunks.flatten).finalize.1
  refine ⟨hbytes, Sha256Digest.ext_bytes (hbytes.trans hsingle.symm), ?_⟩
  · have hlater : later.foldl Sha256.call finished.2 = finished.2 := by
      induction later with
      | nil => rfl
      | cons call rest ih => rw [foldl_cons, call_finalized hfinalized, ih]
    rw [hlater, Sha256.finalize, if_pos hfinalized]
    exact hdigest

theorem constants_are_roots : primes.length = 64 ∧
    (∀ entry ∈ primes.zip kRoundConstants, IsRootFraction 3 entry.1 entry.2) ∧
      ∀ entry ∈ primes.zip [initialState.a, initialState.b, initialState.c, initialState.d,
        initialState.e, initialState.f, initialState.g, initialState.h],
        IsRootFraction 2 entry.1 entry.2 := by
  decide +kernel

end QuantumLlm.Runtime.Hashing
