import QuantumLlm.Lib.Cutting
import QuantumLlm.Runtime.Provider.Manifest

/-!
# Content-addressed chunks

The writer that re-cuts a stream of appended bytes into chunks of at most four
mebibytes, stored under their digests, and the loader that fills a payload and
host pages from them.
-/

namespace QuantumLlm.Runtime.Provider

open List

/-- `digest_hex`. -/
def digestHex (digest : Sha256Digest) : List Char :=
  digest.bytes.flatMap fun byte =>
    [Nat.digitChar (byte.toNat / 16), Nat.digitChar (byte.toNat % 16)]

def blobName (digest : Sha256Digest) : String :=
  String.ofList (digestHex digest ++ ['.', 'b', 'l', 'o', 'b'])

/-- The files of the blob directory. -/
abbrev Blobs := String → Option Bytes

variable (sha256 : Bytes → Sha256Digest)

theorem empty_room : ([] : Bytes).length < kSnapshotChunkBytes := by decide

/-- `ContentAddressedSnapshotWriter`: its buffer never stays full. -/
structure SnapshotWriter where
  blobs : Blobs
  buffer : Bytes := []
  room : buffer.length < kSnapshotChunkBytes
  chunks : List SnapshotChunk := []
  writtenBytes : Nat := 0

namespace SnapshotWriter

/-- Stores the buffer under its digest, unless it is there already. -/
def flush (writer : SnapshotWriter) (buffer : Bytes) : Except String SnapshotWriter :=
  let digest := sha256 buffer
  let chunk : SnapshotChunk := { digest, bytes := UInt32.ofNat buffer.length }
  let flushed : SnapshotWriter :=
    { blobs := writer.blobs, room := empty_room, chunks := writer.chunks ++ [chunk]
      writtenBytes := writer.writtenBytes }
  match writer.blobs (blobName digest) with
  | some existing =>
    if existing.length ≠ buffer.length then .error "snapshot blob size conflicts with digest"
    else .ok flushed
  | none =>
    .ok { flushed with
      blobs := Function.update writer.blobs (blobName digest) (some buffer)
      writtenBytes := writer.writtenBytes + buffer.length }

def append (writer : SnapshotWriter) (bytes : Bytes) : Except String SnapshotWriter :=
  if bytes = [] then .ok writer
  else
    let count := min (kSnapshotChunkBytes - writer.buffer.length) bytes.length
    let buffer := writer.buffer ++ bytes.take count
    if h : buffer.length < kSnapshotChunkBytes then
      append { writer with buffer, room := h } (bytes.drop count)
    else
      match writer.flush sha256 buffer with
      | .error reason => .error reason
      | .ok flushed => append flushed (bytes.drop count)
termination_by bytes.length
decreasing_by
  all_goals
    have hroom := writer.room
    have hpos := List.length_pos_iff.2 (by assumption : ¬ bytes = [])
    rw [List.length_drop]
    omega

def appendAll (writer : SnapshotWriter) : List Bytes → Except String SnapshotWriter
  | [] => .ok writer
  | bytes :: rest =>
    match writer.append sha256 bytes with
    | .error reason => .error reason
    | .ok appended => appended.appendAll rest

def finish (writer : SnapshotWriter) : Except String SnapshotWriter :=
  if writer.buffer = [] then .ok writer else writer.flush sha256 writer.buffer

end SnapshotWriter

/-- `read_file`. -/
def readFile (blobs : Blobs) (name : String) (maximum : Nat) : Except String Bytes :=
  match blobs name with
  | none => .error "snapshot file size is invalid"
  | some bytes =>
    if bytes.length = 0 ∨ maximum < bytes.length then .error "snapshot file size is invalid"
    else .ok bytes

def readChunk (blobs : Blobs) (chunk : SnapshotChunk) : Except String Bytes :=
  match readFile blobs (blobName chunk.digest) kSnapshotChunkBytes with
  | .error reason => .error reason
  | .ok bytes =>
    if bytes.length ≠ chunk.bytes.toNat ∨ sha256 bytes ≠ chunk.digest then
      .error "snapshot data chunk is corrupt"
    else .ok bytes

/-- The memory that is filled, and how far it has been. -/
structure HostMemory where
  payload : Bytes
  pages : List Bytes
  cursor : Nat := 0
  deriving DecidableEq

namespace HostMemory

/-- Copies a chunk to the cursor, over the ends of the payload and of pages. -/
def fill (pageBytes : Nat) (memory : HostMemory) (bytes : Bytes) : Except String HostMemory :=
  if bytes = [] then .ok memory
  else if memory.cursor < memory.payload.length then
    let count := min (memory.payload.length - memory.cursor) bytes.length
    fill pageBytes
      { memory with
        payload := writeAt memory.payload memory.cursor (bytes.take count)
        cursor := memory.cursor + count } (bytes.drop count)
  -- the source divides by the page size here
  else if pageBytes = 0 then .error "division by zero"
  else
    let hostCursor := memory.cursor - memory.payload.length
    let pageOffset := hostCursor % pageBytes
    match memory.pages[hostCursor / pageBytes]? with
    | none => .error "snapshot data exceeds declared payload"
    | some page =>
      let count := min (pageBytes - pageOffset) bytes.length
      fill pageBytes
        { memory with
          pages := memory.pages.set (hostCursor / pageBytes)
            (writeAt page pageOffset (bytes.take count))
          cursor := memory.cursor + count } (bytes.drop count)
termination_by bytes.length
decreasing_by
  · have hpos := List.length_pos_iff.2 (by assumption : ¬ bytes = [])
    rw [List.length_drop]
    omega
  · have hpos := List.length_pos_iff.2 (by assumption : ¬ bytes = [])
    have hoffset := Nat.mod_lt (memory.cursor - memory.payload.length)
      (Nat.pos_of_ne_zero (by assumption : ¬ pageBytes = 0))
    rw [List.length_drop]
    omega

/-- The loop over the chunks. -/
def fillChunks (blobs : Blobs) (pageBytes : Nat) (memory : HostMemory) :
    List SnapshotChunk → Except String HostMemory
  | [] => .ok memory
  | chunk :: rest =>
    match readChunk sha256 blobs chunk with
    | .error reason => .error reason
    | .ok bytes =>
      match memory.fill pageBytes bytes with
      | .error reason => .error reason
      | .ok filled => filled.fillChunks blobs pageBytes rest

end HostMemory

/-- The sum of the chunk sizes, unless it overflows. -/
def chunkBytes : Nat → List SnapshotChunk → Except String Nat
  | total, [] => .ok total
  | total, chunk :: rest =>
    if total > 2 ^ 64 - 1 - chunk.bytes.toNat then .error "snapshot chunk bytes overflow"
    else chunkBytes (total + chunk.bytes.toNat) rest

/-- The data of a snapshot: fresh memory of the declared sizes, filled from the chunks. -/
def loadSnapshotData (blobs : Blobs) (manifest : DenseSnapshotManifest) :
    Except String HostMemory :=
  match chunkBytes 0 manifest.chunks with
  | .error reason => .error reason
  | .ok total =>
    if total ≠ manifest.logicalDataBytes.toNat then .error "snapshot chunk coverage is invalid"
    else if manifest.parkedBytes = 0 then .error "invalid pinned allocation"
    else
      let memory : HostMemory :=
        { payload := List.replicate manifest.parkedBytes.toNat 0
          pages := List.replicate manifest.hostPageCount.toNat
            (List.replicate manifest.hostPageBytes.toNat 0) }
      match memory.fillChunks sha256 blobs manifest.hostPageBytes.toNat manifest.chunks with
      | .error reason => .error reason
      | .ok filled =>
        if filled.cursor ≠ manifest.logicalDataBytes.toNat then
          .error "snapshot data is truncated"
        else .ok filled

variable {sha256 : Bytes → Sha256Digest}

theorem digitChar_injective : ∀ left < 16, ∀ right < 16,
    Nat.digitChar left = Nat.digitChar right → left = right := by decide

theorem flatMap_digits_injective {left right : Bytes}
    (h : (left.flatMap fun byte =>
        [Nat.digitChar (byte.toNat / 16), Nat.digitChar (byte.toNat % 16)]) =
      right.flatMap fun byte =>
        [Nat.digitChar (byte.toNat / 16), Nat.digitChar (byte.toNat % 16)]) : left = right := by
  induction left generalizing right with
  | nil =>
    cases right with
    | nil => rfl
    | cons byte rest => simp at h
  | cons byte rest ih =>
    cases right with
    | nil => simp at h
    | cons other others =>
      simp only [flatMap_cons, cons_append, nil_append, List.cons.injEq] at h
      obtain ⟨hhigh, hlow, hrest⟩ := h
      have hbyte : byte.toNat < 256 := byte.toNat_lt
      have hother : other.toNat < 256 := other.toNat_lt
      have hdiv := digitChar_injective _ (by omega) _ (by omega) hhigh
      have hmod := digitChar_injective _ (by omega) _ (by omega) hlow
      have hsame : byte.toNat = other.toNat := by omega
      rw [UInt8.toNat_inj.1 hsame, ih hrest]

theorem blobName_injective {left right : Sha256Digest} (h : blobName left = blobName right) :
    left = right := by
  have hchars := String.ofList_injective h
  exact Sha256Digest.ext_bytes (flatMap_digits_injective (append_cancel_right hchars))

/-- The chunk record of some contents. -/
def chunkOf (sha256 : Bytes → Sha256Digest) (piece : Bytes) : SnapshotChunk where
  digest := sha256 piece
  bytes := UInt32.ofNat piece.length

/-- No two of these contents share a digest. -/
def CollisionFree (sha256 : Bytes → Sha256Digest) (known : Set Bytes) : Prop :=
  ∀ left ∈ known, ∀ right ∈ known, sha256 left = sha256 right → left = right

/-- Every blob is known and stored under its digest. -/
structure Addressed (sha256 : Bytes → Sha256Digest) (known : Set Bytes) (blobs : Blobs) : Prop where
  name : ∀ name content, blobs name = some content → name = blobName (sha256 content)
  known : ∀ name content, blobs name = some content → content ∈ known

/-- The writer has stored these pieces. -/
structure Wrote (sha256 : Bytes → Sha256Digest) (known : Set Bytes) (before : Blobs)
    (pieces : List Bytes) (writer : SnapshotWriter) : Prop where
  stored : ∀ piece ∈ pieces, writer.blobs (blobName (sha256 piece)) = some piece
  addressed : Addressed sha256 known writer.blobs
  kept : ∀ name content, before name = some content → writer.blobs name = some content

variable {known : Set Bytes} {before : Blobs} {pieces : List Bytes} {writer : SnapshotWriter}

variable {blobs : Blobs} {buffer bytes data : Bytes} {parts : List Bytes}
  {appended : SnapshotWriter}

theorem Addressed.store (h : Addressed sha256 known blobs) {content : Bytes}
    (hknown : content ∈ known) :
    Addressed sha256 known (Function.update blobs (blobName (sha256 content)) (some content)) := by
  constructor
  · intro name other hother
    by_cases hname : name = blobName (sha256 content)
    · rw [hname, Function.update_self, Option.some.injEq] at hother
      rw [hname, hother]
    · rw [Function.update_of_ne hname] at hother
      exact h.name name other hother
  · intro name other hother
    by_cases hname : name = blobName (sha256 content)
    · rw [hname, Function.update_self, Option.some.injEq] at hother
      rwa [← hother]
    · rw [Function.update_of_ne hname] at hother
      exact h.known name other hother

section

variable (hfree : CollisionFree sha256 known) (h : Wrote sha256 known before pieces writer)

include hfree h

theorem flush_spec (hknown : buffer ∈ known) :
    ∃ flushed, writer.flush sha256 buffer = .ok flushed ∧ flushed.buffer = [] ∧
      Wrote sha256 known before (pieces ++ [buffer]) flushed := by
  cases hblob : writer.blobs (blobName (sha256 buffer)) with
  | some existing =>
    have hname := h.addressed.name _ _ hblob
    have hsame : existing = buffer :=
      hfree existing (h.addressed.known _ _ hblob) buffer hknown (blobName_injective hname).symm
    subst hsame
    refine ⟨{ blobs := writer.blobs, room := empty_room,
              chunks := writer.chunks ++ [chunkOf sha256 existing],
              writtenBytes := writer.writtenBytes }, ?_, rfl, ?_, h.addressed, h.kept⟩
    · rw [SnapshotWriter.flush, hblob]
      exact if_neg (not_not.2 rfl)
    · intro piece hpiece
      rcases mem_append.1 hpiece with hold | hnew
      · exact h.stored piece hold
      · rw [mem_singleton.1 hnew]
        exact hblob
  | none =>
    refine ⟨{ blobs := Function.update writer.blobs (blobName (sha256 buffer)) (some buffer),
              room := empty_room, chunks := writer.chunks ++ [chunkOf sha256 buffer],
              writtenBytes := writer.writtenBytes + buffer.length }, ?_, rfl, ?_,
            h.addressed.store hknown, ?_⟩
    · rw [SnapshotWriter.flush, hblob]
      rfl
    · intro piece hpiece
      by_cases hname : blobName (sha256 piece) = blobName (sha256 buffer)
      · rcases mem_append.1 hpiece with hold | hnew
        · have hstored := h.stored piece hold
          rw [hname, hblob] at hstored
          cases hstored
        · obtain rfl := mem_singleton.1 hnew
          exact Function.update_self _ _ _
      · rcases mem_append.1 hpiece with hold | hnew
        · exact (Function.update_of_ne hname _ _).trans (h.stored piece hold)
        · rw [mem_singleton.1 hnew] at hname
          exact absurd rfl hname
    · intro name content hcontent
      have hkept := h.kept name content hcontent
      by_cases hname : name = blobName (sha256 buffer)
      · rw [hname, hblob] at hkept
        cases hkept
      · exact (Function.update_of_ne hname _ _).trans hkept

/-- By induction on the bytes to come: the stored pieces are full, and with the buffer they
are all that has been appended. -/
theorem append_spec {future : Bytes} (hfull : ∀ piece ∈ pieces, piece.length = kSnapshotChunkBytes)
    (hknown : ∀ piece ∈ cut kSnapshotChunkBytes
      (pieces.flatten ++ (writer.buffer ++ (bytes ++ future))), piece ∈ known) :
    ∃ appended all, writer.append sha256 bytes = .ok appended ∧
      Wrote sha256 known before all appended ∧
      (∀ piece ∈ all, piece.length = kSnapshotChunkBytes) ∧
      all.flatten ++ appended.buffer = pieces.flatten ++ (writer.buffer ++ bytes) := by
  induction hlength : bytes.length using Nat.strong_induction_on generalizing writer pieces bytes with
  | h length ih =>
    subst hlength
    rw [SnapshotWriter.append]
    by_cases hnil : bytes = []
    · rw [if_pos hnil]
      refine ⟨writer, pieces, rfl, h, hfull, ?_⟩
      rw [hnil, append_nil]
    rw [if_neg hnil]
    have hpos := length_pos_iff.2 hnil
    have hroom := writer.room
    generalize hcount : min (kSnapshotChunkBytes - writer.buffer.length) bytes.length = count
    have hless : (bytes.drop count).length < bytes.length := by
      rw [length_drop]
      omega
    have hsplit : writer.buffer ++ bytes =
        (writer.buffer ++ bytes.take count) ++ bytes.drop count := by
      rw [append_assoc, take_append_drop]
    rw [← append_assoc writer.buffer, hsplit, append_assoc] at hknown
    simp only
    split
    next hshort =>
      rw [hsplit]
      exact @ih _ hless pieces
        { writer with buffer := writer.buffer ++ bytes.take count, room := hshort }
        (bytes.drop count) ⟨h.stored, h.addressed, h.kept⟩ hfull hknown rfl
    next hlong =>
      have hbuffer : (writer.buffer ++ bytes.take count).length = kSnapshotChunkBytes := by
        rw [length_append, length_take] at hlong ⊢
        omega
      have hcut := cut_pieces (by decide) hfull
        (writer.buffer ++ bytes.take count ++ (bytes.drop count ++ future))
      rw [cut_append (by decide) hbuffer] at hcut
      rw [hcut] at hknown
      obtain ⟨flushed, hflush, hempty, hwrote⟩ := flush_spec hfree h
        (hknown _ (mem_append_right _ mem_cons_self))
      have hall : ∀ piece ∈ pieces ++ [writer.buffer ++ bytes.take count],
          piece.length = kSnapshotChunkBytes := by
        intro piece hpiece
        rcases mem_append.1 hpiece with hold | hnew
        · exact hfull piece hold
        · rw [mem_singleton.1 hnew, hbuffer]
      have hrest := @ih _ hless _ flushed (bytes.drop count) hwrote hall (by
        rw [cut_pieces (by decide) hall, hempty, nil_append, append_assoc]
        exact hknown) rfl
      rw [hempty, nil_append, flatten_append, flatten_singleton, append_assoc, ← hsplit] at hrest
      simp only [hflush]
      exact hrest

theorem appendAll_spec (hfull : ∀ piece ∈ pieces, piece.length = kSnapshotChunkBytes)
    (hknown : ∀ piece ∈ cut kSnapshotChunkBytes
      (pieces.flatten ++ (writer.buffer ++ parts.flatten)), piece ∈ known) :
    ∃ appended all, writer.appendAll sha256 parts = .ok appended ∧
      Wrote sha256 known before all appended ∧
      (∀ piece ∈ all, piece.length = kSnapshotChunkBytes) ∧
      all.flatten ++ appended.buffer = pieces.flatten ++ (writer.buffer ++ parts.flatten) := by
  induction parts generalizing writer pieces with
  | nil => exact ⟨writer, pieces, rfl, h, hfull, by rw [flatten_nil, append_nil]⟩
  | cons bytes rest ih =>
    rw [flatten_cons] at hknown ⊢
    obtain ⟨middle, some, happend, hwrote, hsome, hmiddle⟩ := append_spec hfree h hfull hknown
    have hsame : some.flatten ++ (middle.buffer ++ rest.flatten) =
        pieces.flatten ++ (writer.buffer ++ (bytes ++ rest.flatten)) := by
      rw [← append_assoc, hmiddle]
      simp only [append_assoc]
    rw [← hsame] at hknown ⊢
    rw [SnapshotWriter.appendAll, happend]
    exact ih hwrote hsome hknown

end

theorem finish_spec (hfree : CollisionFree sha256 known) {blobs : Blobs}
    (haddressed : Addressed sha256 known blobs) {parts : List Bytes}
    (hknown : ∀ piece ∈ cut kSnapshotChunkBytes parts.flatten, piece ∈ known) :
    ∃ appended finished,
      SnapshotWriter.appendAll sha256 { blobs, room := empty_room } parts = .ok appended ∧
      appended.finish sha256 = .ok finished ∧
      Wrote sha256 known blobs (cut kSnapshotChunkBytes parts.flatten) finished := by
  have hstart : Wrote sha256 known blobs [] { blobs, room := empty_room } :=
    ⟨by simp, haddressed, fun _ _ h => h⟩
  obtain ⟨appended, all, happend, hwrote, hall, hdata⟩ :=
    appendAll_spec hfree hstart (by simp) hknown
  have hcut := cut_pieces (by decide) hall appended.buffer
  rw [hdata, flatten_nil, nil_append, nil_append] at hcut
  refine ⟨appended, ?_⟩
  rw [SnapshotWriter.finish]
  by_cases hnil : appended.buffer = []
  · refine ⟨appended, happend, if_pos hnil, ?_⟩
    rw [hcut, hnil, cut_nil, append_nil]
    exact hwrote
  · rw [cut_short hnil (Nat.le_of_lt appended.room)] at hcut
    obtain ⟨finished, hflush, -, hfinished⟩ := flush_spec hfree hwrote
      (hknown appended.buffer (by rw [hcut]; exact mem_append_right _ mem_cons_self))
    refine ⟨finished, happend, ?_, ?_⟩
    · rw [if_neg hnil, hflush]
    · rw [hcut]
      exact hfinished

/-- The writer has recorded these full pieces, and its buffer is what follows them. -/
structure Recorded (sha256 : Bytes → Sha256Digest) (pieces : List Bytes) (data : Bytes)
    (writer : SnapshotWriter) : Prop where
  chunks : writer.chunks = pieces.map (chunkOf sha256)
  full : ∀ piece ∈ pieces, piece.length = kSnapshotChunkBytes
  data : pieces.flatten ++ writer.buffer = data

theorem flush_recorded {flushed : SnapshotWriter} (h : writer.flush sha256 buffer = .ok flushed) :
    flushed.chunks = writer.chunks ++ [chunkOf sha256 buffer] ∧ flushed.buffer = [] := by
  rw [SnapshotWriter.flush] at h
  split at h
  next =>
    split at h
    next => cases h
    next =>
      cases h
      exact ⟨rfl, rfl⟩
  next =>
    cases h
    exact ⟨rfl, rfl⟩

theorem Recorded.append
    (h : Recorded sha256 pieces data writer) (happend : writer.append sha256 bytes = .ok appended) :
    ∃ all, Recorded sha256 all (data ++ bytes) appended := by
  induction hlength : bytes.length using Nat.strong_induction_on
    generalizing writer pieces bytes data with
  | h length ih =>
    subst hlength
    rw [SnapshotWriter.append] at happend
    by_cases hnil : bytes = []
    · rw [if_pos hnil, Except.ok.injEq] at happend
      subst happend
      rw [hnil, append_nil]
      exact ⟨pieces, h⟩
    rw [if_neg hnil] at happend
    have hpos := length_pos_iff.2 hnil
    have hroom := writer.room
    generalize hcount : min (kSnapshotChunkBytes - writer.buffer.length) bytes.length = count
      at happend
    have hless : (bytes.drop count).length < bytes.length := by
      rw [length_drop]
      omega
    have hdata : (data ++ bytes.take count) ++ bytes.drop count = data ++ bytes := by
      rw [append_assoc, take_append_drop]
    simp only at happend
    rw [← hdata]
    split at happend
    next hshort =>
      refine @ih _ hless pieces
        { writer with buffer := writer.buffer ++ bytes.take count, room := hshort } _ _
        ⟨h.chunks, h.full, ?_⟩ happend rfl
      rw [← append_assoc, h.data]
    next hlong =>
      split at happend
      next => cases happend
      next flushed hflush =>
        obtain ⟨hchunks, hempty⟩ := flush_recorded hflush
        refine @ih _ hless (pieces ++ [writer.buffer ++ bytes.take count]) flushed _ _
          ⟨?_, ?_, ?_⟩ happend rfl
        · rw [hchunks, h.chunks, map_append, map_singleton]
        · intro piece hpiece
          rcases mem_append.1 hpiece with hold | hnew
          · exact h.full piece hold
          · rw [mem_singleton.1 hnew]
            rw [length_append, length_take] at hlong ⊢
            omega
        · rw [hempty, append_nil, flatten_append, flatten_singleton, ← append_assoc, h.data]

theorem Recorded.appendAll (h : Recorded sha256 pieces data writer)
    (happend : writer.appendAll sha256 parts = .ok appended) :
    ∃ all, Recorded sha256 all (data ++ parts.flatten) appended := by
  induction parts generalizing writer pieces data with
  | nil =>
    cases happend
    rw [flatten_nil, append_nil]
    exact ⟨pieces, h⟩
  | cons bytes rest ih =>
    rw [SnapshotWriter.appendAll] at happend
    split at happend
    next => cases happend
    next middle hmiddle =>
      obtain ⟨some, hsome⟩ := h.append hmiddle
      rw [flatten_cons, ← append_assoc]
      exact ih hsome happend

/-- Whatever was stored before, the recorded chunks are those of the data cut into pieces. -/
theorem finish_chunks {finished : SnapshotWriter}
    (happend : SnapshotWriter.appendAll sha256 { blobs, room := empty_room } parts = .ok appended)
    (hfinish : appended.finish sha256 = .ok finished) :
    finished.chunks = (cut kSnapshotChunkBytes parts.flatten).map (chunkOf sha256) := by
  have hstart : Recorded sha256 [] [] { blobs, room := empty_room } := ⟨rfl, by simp, rfl⟩
  obtain ⟨all, hall⟩ := hstart.appendAll happend
  rw [nil_append] at hall
  rw [← hall.data, cut_pieces (by decide) hall.full, map_append, ← hall.chunks]
  rw [SnapshotWriter.finish] at hfinish
  by_cases hnil : appended.buffer = []
  · rw [if_pos hnil, Except.ok.injEq] at hfinish
    rw [hnil, cut_nil, ← hfinish, map_nil, append_nil]
  · rw [if_neg hnil] at hfinish
    rw [cut_short hnil (Nat.le_of_lt appended.room)]
    exact (flush_recorded hfinish).1

theorem toNat_chunk_bytes {length : Nat} (h : length ≤ kSnapshotChunkBytes) :
    (UInt32.ofNat length).toNat = length := toNat_ofNat_count h

theorem readChunk_stored {piece : Bytes} (h : blobs (blobName (sha256 piece)) = some piece)
    (hsize : 0 < piece.length ∧ piece.length ≤ kSnapshotChunkBytes) :
    readChunk sha256 blobs (chunkOf sha256 piece) = .ok piece := by
  have hfile : readFile blobs (blobName (sha256 piece)) kSnapshotChunkBytes = .ok piece := by
    rw [readFile, h]
    exact if_neg (by omega)
  rw [readChunk, chunkOf, hfile]
  exact if_neg (by rw [toNat_chunk_bytes hsize.2]; simp)

theorem chunkBytes_cut {total : Nat} {pieces : List Bytes}
    (hsize : ∀ piece ∈ pieces, 0 < piece.length ∧ piece.length ≤ kSnapshotChunkBytes)
    (h : total + pieces.flatten.length < 2 ^ 64) :
    chunkBytes total (pieces.map (chunkOf sha256)) = .ok (total + pieces.flatten.length) := by
  induction pieces generalizing total with
  | nil => rfl
  | cons piece rest ih =>
    rw [forall_mem_cons] at hsize
    rw [flatten_cons, length_append] at h ⊢
    have hbytes : (chunkOf sha256 piece).bytes.toNat = piece.length :=
      toNat_chunk_bytes hsize.1.2
    rw [map_cons, chunkBytes, hbytes, if_neg (by omega), ih hsize.2 (by omega)]
    congr 1
    omega

/-- Memory of the declared sizes that holds this much of the data. -/
structure Filled (payloadBytes pageCount pageBytes : Nat) (done : Bytes) (memory : HostMemory) :
    Prop where
  payload : memory.payload.length = payloadBytes
  count : memory.pages.length = pageCount
  pages : ∀ page ∈ memory.pages, page.length = pageBytes
  cursor : memory.cursor = done.length
  data : (memory.payload ++ memory.pages.flatten).take done.length = done

variable {payloadBytes pageCount pageBytes : Nat} {done : Bytes} {memory : HostMemory}

theorem Filled.total (h : Filled payloadBytes pageCount pageBytes done memory) :
    (memory.payload ++ memory.pages.flatten).length = payloadBytes + pageCount * pageBytes := by
  rw [length_append, length_flatten_uniform h.pages, h.payload, h.count]

theorem Filled.extend (h : Filled payloadBytes pageCount pageBytes done memory) {source : Bytes}
    {filled : HostMemory} (hfits : done.length + source.length ≤ payloadBytes + pageCount * pageBytes)
    (hpayload : filled.payload.length = payloadBytes) (hcount : filled.pages.length = pageCount)
    (hpages : ∀ page ∈ filled.pages, page.length = pageBytes)
    (hcursor : filled.cursor = memory.cursor + source.length)
    (hwrite : filled.payload ++ filled.pages.flatten =
      writeAt (memory.payload ++ memory.pages.flatten) memory.cursor source) :
    Filled payloadBytes pageCount pageBytes (done ++ source) filled := by
  refine ⟨hpayload, hcount, hpages, ?_, ?_⟩
  · rw [hcursor, h.cursor, length_append]
  · have hle : done.length ≤ (memory.payload ++ memory.pages.flatten).length := by
      rw [h.total]
      omega
    rw [hwrite, h.cursor, length_append, take_writeAt hle, h.data]

theorem fill_spec {bytes : Bytes} (h : Filled payloadBytes pageCount pageBytes done memory)
    (hfits : done.length + bytes.length ≤ payloadBytes + pageCount * pageBytes) :
    ∃ filled, memory.fill pageBytes bytes = .ok filled ∧
      Filled payloadBytes pageCount pageBytes (done ++ bytes) filled := by
  induction hlength : bytes.length using Nat.strong_induction_on
    generalizing memory done bytes with
  | h length ih =>
    subst hlength
    rw [HostMemory.fill]
    by_cases hnil : bytes = []
    · rw [if_pos hnil]
      refine ⟨memory, rfl, ?_⟩
      rwa [hnil, append_nil]
    rw [if_neg hnil]
    have hpos := length_pos_iff.2 hnil
    have hcursor := h.cursor
    have hsize := h.payload
    have hnext : ∀ (count : Nat) (filled : HostMemory), 0 < count → count ≤ bytes.length →
        Filled payloadBytes pageCount pageBytes (done ++ bytes.take count) filled →
        ∃ last, filled.fill pageBytes (bytes.drop count) = .ok last ∧
          Filled payloadBytes pageCount pageBytes (done ++ bytes) last := by
      intro count filled hcount hle hfilled
      have hless : (bytes.drop count).length < bytes.length := by
        rw [length_drop]
        omega
      obtain ⟨last, hlast, hdone⟩ := ih _ hless hfilled (by
        rw [length_append, length_take, length_drop]
        omega) rfl
      rw [append_assoc, take_append_drop] at hdone
      exact ⟨last, hlast, hdone⟩
    by_cases hpayload : memory.cursor < memory.payload.length
    · rw [if_pos hpayload]
      have hwidth : (bytes.take (min (memory.payload.length - memory.cursor) bytes.length)).length =
          min (memory.payload.length - memory.cursor) bytes.length := by
        rw [length_take]
        omega
      apply hnext _ _ (by omega) (by omega)
      apply h.extend
      · rw [hwidth]
        omega
      · rw [length_writeAt (by rw [hwidth]; omega), hsize]
      · exact h.count
      · exact h.pages
      · rw [hwidth]
      · exact writeAt_append_left (by rw [hwidth]; omega) _
    · rw [if_neg hpayload]
      have hpage : pageBytes ≠ 0 := by
        rintro rfl
        omega
      rw [if_neg hpage]
      have hinside : memory.cursor - memory.payload.length < pageCount * pageBytes := by omega
      have hindex : (memory.cursor - memory.payload.length) / pageBytes < memory.pages.length := by
        rw [h.count]
        exact Nat.div_lt_of_lt_mul (by rwa [Nat.mul_comm])
      have hget := getElem?_eq_getElem hindex
      have hoffset := Nat.mod_lt (memory.cursor - memory.payload.length) (Nat.pos_of_ne_zero hpage)
      generalize hcount : min (pageBytes - (memory.cursor - memory.payload.length) % pageBytes)
        bytes.length = count
      have hwidth : (bytes.take count).length = count := by
        rw [length_take]
        omega
      simp only [hget, hcount]
      apply hnext count _ (by omega) (by omega)
      apply h.extend
      · rw [hwidth]
        omega
      · exact hsize
      · rw [length_set, h.count]
      · intro page hmem
        rcases mem_or_eq_of_mem_set hmem with hold | rfl
        · exact h.pages page hold
        · have hold := h.pages _ (getElem_mem hindex)
          rw [length_writeAt (by rw [hwidth, hold]; omega), hold]
      · rw [hwidth]
      · rw [flatten_set_writeAt h.pages hget (by rw [hwidth]; omega), append_writeAt,
          Nat.div_add_mod', Nat.add_sub_cancel' (Nat.le_of_not_lt hpayload)]

theorem fillChunks_spec (h : Filled payloadBytes pageCount pageBytes done memory)
    (hstored : ∀ piece ∈ pieces, blobs (blobName (sha256 piece)) = some piece)
    (hsize : ∀ piece ∈ pieces, 0 < piece.length ∧ piece.length ≤ kSnapshotChunkBytes)
    (hfits : done.length + pieces.flatten.length ≤ payloadBytes + pageCount * pageBytes) :
    ∃ filled, memory.fillChunks sha256 blobs pageBytes (pieces.map (chunkOf sha256)) = .ok filled ∧
      Filled payloadBytes pageCount pageBytes (done ++ pieces.flatten) filled := by
  induction pieces generalizing memory done with
  | nil =>
    refine ⟨memory, rfl, ?_⟩
    rwa [flatten_nil, append_nil]
  | cons piece rest ih =>
    rw [forall_mem_cons] at hstored hsize
    rw [flatten_cons, length_append] at hfits
    obtain ⟨filled, hfill, hfilled⟩ := @fill_spec _ _ _ _ _ piece h (by omega)
    obtain ⟨last, hlast, hdone⟩ := ih hfilled hstored.2 hsize.2 (by
      rw [length_append]
      omega)
    refine ⟨last, ?_, ?_⟩
    · rw [map_cons, HostMemory.fillChunks, readChunk_stored hstored.1 hsize.1]
      simp only [hfill, hlast]
    · rwa [flatten_cons, ← append_assoc]

end QuantumLlm.Runtime.Provider
