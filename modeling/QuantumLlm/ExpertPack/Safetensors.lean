import QuantumLlm.Lib.Dict
import QuantumLlm.Lib.Fallible
import QuantumLlm.Lib.Pointwise
import QuantumLlm.Lib.Wire
import Mathlib.Data.List.Chain
import Mathlib.Data.List.Lex
import Mathlib.Data.List.Sort
import Mathlib.Data.Prod.Lex
import Mathlib.Algebra.BigOperators.Group.List.Basic
import Mathlib.Algebra.Order.Group.Unbundled.Int

/-!
# Reading a SafeTensors checkpoint

The header of a shard is a JSON object that gives each tensor its element type, its shape
and its place among the data. What `json.loads` reads off a text is a parameter: the
members of its objects stand in the order of the text, and a Python dictionary is made of
them.
-/

namespace QuantumLlm.ExpertPack

open Fallible List

/-- A Python string by its code points. -/
abbrev Str := List Nat

def str (text : String) : Str := text.toList.map Char.toNat

inductive Json
  | null
  | bool (value : Bool)
  | int (value : Int)
  | float (token : Str)
  | string (text : Str)
  | array (items : List Json)
  | object (members : List (Str × Json))

namespace Json

/-- `isinstance(value, int)`, which a bool is too. -/
def int? : Json → Option Int
  | .int value => some value
  | .bool value => some (if value then 1 else 0)
  | _ => none

/-- A list of integers. -/
def ints? : Option Json → Option (List Int)
  | some (.array items) => items.mapM int?
  | _ => none

end Json

def dtypeBytes : Dict Str Nat :=
  [(str "F16", 2), (str "BF16", 2), (str "F32", 4), (str "F64", 8), (str "I8", 1), (str "U8", 1),
    (str "I16", 2), (str "U16", 2), (str "I32", 4), (str "U32", 4), (str "I64", 8), (str "U64", 8),
    (str "BOOL", 1), (str "F8_E4M3", 1), (str "F8_E5M2", 1), (str "F8_E8M0", 1)]

/-- The text of an error, and the name it is about. -/
structure SourceFormatError where
  text : String
  subject : Str := []
  deriving DecidableEq

abbrev Reading := Except SourceFormatError

def maxHeaderBytes : Nat := 256 * 1024 * 1024

/-- `_element_count`; it throws where a dimension is negative. -/
def elementCount : List Int → Reading Int
  | [] => .ok 1
  | dimension :: rest => do
    ensure (0 ≤ dimension) ⟨"negative SafeTensors dimension", []⟩
    let others ← elementCount rest
    pure (dimension * others)

structure TensorInfo where
  name : Str
  shard : Str
  dtype : Str
  shape : List Int
  offset : Int
  nbytes : Int
  sourceName : Option Str := none
  sourceByteOffset : Int := 0
  deriving DecidableEq

/-- `self.source_name or self.name` -/
def TensorInfo.physicalName (info : TensorInfo) : Str :=
  match info.sourceName with
  | some source => if source = [] then info.name else source
  | none => info.name

/-! ## The header of a shard -/

/-- Its first eight bytes. -/
def headerBytesOf (file : Bytes) : Nat := leValue (file.take 8)

def headerRaw (file : Bytes) : Bytes := (file.drop 8).take (headerBytesOf file)

def dataBase (file : Bytes) : Nat := 8 + headerBytesOf file

def metadataName : Str := str "__metadata__"

abbrev Span := Int × Int × Str

section

variable (fileSize base : Nat) (shard : Str)

/-- One round of the loop over the header, behind the test for `__metadata__`. -/
def readTensor (name : Str) (metadata : Json) : Reading TensorInfo :=
  match metadata with
  | .object members => do
    let fields := Dict.ofPairs members
    match Dict.get? fields (str "dtype") with
    | some (.string dtype) =>
      match Dict.get? dtypeBytes dtype with
      | some width =>
        match Json.ints? (Dict.get? fields (str "shape")) with
        | some shape =>
          match Json.ints? (Dict.get? fields (str "data_offsets")) with
          | some [start, stop] => do
            let count ← elementCount shape
            let expected := count * width
            ensure (0 ≤ start ∧ start ≤ stop ∧ stop - start = expected)
              ⟨"byte size does not match dtype/shape for", name⟩
            ensure (base + stop ≤ fileSize) ⟨"tensor exceeds shard EOF:", name⟩
            pure { name, shard, dtype, shape, offset := base + start, nbytes := expected }
          | _ => .error ⟨"invalid data_offsets for", name⟩
        | none => .error ⟨"invalid shape for", name⟩
      | none => .error ⟨"unsupported SafeTensors dtype for", name⟩
    | _ => .error ⟨"unsupported SafeTensors dtype for", name⟩
  | _ => .error ⟨"malformed tensor metadata in", shard⟩

/-- The loop over `header.items()`. -/
def readTensors : Dict Str TensorInfo → List (Str × Json) → Reading (Dict Str TensorInfo)
  | result, [] => .ok result
  | result, (name, metadata) :: rest =>
    if name = metadataName then readTensors result rest
    else do
      let info ← readTensor fileSize base shard name metadata
      ensure (name ∉ Dict.keys result) ⟨"duplicate tensor in shard:", name⟩
      readTensors (Dict.put name info result) rest

end

def TensorInfo.span (info : TensorInfo) : Span :=
  (info.offset, info.offset + info.nbytes, info.name)

/-- The order in which `spans.sort()` puts tuples. -/
def spanLe (first second : Span) : Bool :=
  first.1 < second.1 ∨ first.1 = second.1 ∧ (first.2.1 < second.2.1 ∨
    first.2.1 = second.2.1 ∧ first.2.2 ≤ second.2.2)

/-- The sorted spans. -/
def spansOf (result : Dict Str TensorInfo) : List Span :=
  (result.map fun entry => entry.2.span).insertionSort fun left right => spanLe left right

/-- The loop over neighbouring spans. -/
def checkOverlaps (shard : Str) : List (Span × Span) → Reading Unit
  | [] => .ok ()
  | (previous, current) :: rest => do
    ensure (previous.2.1 ≤ current.1) ⟨"overlapping tensors in", shard⟩
    checkOverlaps shard rest

section

variable (loads : Bytes → Option Json)

/-- `_read_shard_header` -/
def readShardHeader (shard : Str) (file : Bytes) : Reading (Dict Str TensorInfo) := do
  ensure (8 ≤ file.length) ⟨"truncated SafeTensors prefix:", shard⟩
  ensure (1 < headerBytesOf file ∧ headerBytesOf file ≤ maxHeaderBytes)
    ⟨"unsafe SafeTensors header size", shard⟩
  ensure ((headerRaw file).length = headerBytesOf file) ⟨"truncated SafeTensors header:", shard⟩
  match loads (headerRaw file) with
  | some (.object members) => do
    let result ← readTensors file.length (dataBase file) shard [] (Dict.ofPairs members)
    checkOverlaps shard ((spansOf result).zip (spansOf result).tail)
    ensure (result ≠ []) ⟨"SafeTensors shard has no tensors:", shard⟩
    pure result
  | some _ => .error ⟨"SafeTensors header is not an object:", shard⟩
  | none => .error ⟨"invalid SafeTensors JSON header:", shard⟩

structure SafeTensorCheckpoint where
  /-- The plain files directly in its directory, by name. -/
  files : Str → Option Bytes
  tensors : Dict Str TensorInfo
  shards : List Str

/-- The `weight_map` of an index. -/
def weightMap : Json → Reading (Dict Str Str)
  | .object members =>
    match Dict.get? (Dict.ofPairs members) (str "weight_map") with
    | some (.object weights) => do
      ensure (weights ≠ []) ⟨"SafeTensors index has no non-empty weight_map", []⟩
      each (fun entry : Str × Json =>
        match entry.2 with
        | .string shard => .ok (entry.1, shard)
        | _ => .error ⟨"SafeTensors weight_map must map strings to strings", []⟩)
        (Dict.ofPairs weights)
    | _ => .error ⟨"SafeTensors index has no non-empty weight_map", []⟩
  | _ => .error ⟨"SafeTensors index has no non-empty weight_map", []⟩

variable (files : Str → Option Bytes)

/-- The loop over the shard names. -/
def readShards : Dict Str TensorInfo → List Str → Reading (Dict Str TensorInfo)
  | tensors, [] => .ok tensors
  | tensors, shard :: rest =>
    match files shard with
    | some file => do
      let found ← readShardHeader loads shard file
      ensure (∀ name ∈ Dict.keys found, name ∉ Dict.keys tensors)
        ⟨"duplicate tensors across shards", []⟩
      readShards (Dict.update tensors found) rest
    | none => .error ⟨"missing or unsafe shard path:", shard⟩

/-- `_read_index`, from what the index file holds if there is one. -/
def readIndex (index : Option Json) : Reading SafeTensorCheckpoint :=
  match index with
  | some index => do
    let weights ← weightMap index
    let shards := (weights.map Prod.snd).dedup.insertionSort fun left right => left ≤ right
    let tensors ← readShards loads files [] shards
    ensure ((∀ name ∈ Dict.keys weights, name ∈ Dict.keys tensors) ∧
        ∀ name ∈ Dict.keys tensors, name ∈ Dict.keys weights)
      ⟨"index/header tensor mismatch", []⟩
    ensure (∀ entry ∈ tensors, Dict.get? weights entry.1 = some entry.2.shard)
      ⟨"index maps tensors to wrong shard", []⟩
    pure { files, tensors, shards }
  | none => do
    let tensors ← readShards loads files [] [str "model.safetensors"]
    pure { files, tensors, shards := [str "model.safetensors"] }

end

/-- A bound of a slice: counted from the end where it is negative. -/
def sliceBound (length : Nat) (index : Int) : Nat :=
  if index < 0 then (length + index).toNat else min index.toNat length

namespace SafeTensorCheckpoint

variable (checkpoint : SafeTensorCheckpoint)

/-- `TensorView`: the bytes it exposes. -/
def view (info : TensorInfo) : Reading Bytes :=
  match checkpoint.files info.shard with
  | some file => do
    ensure (file ≠ []) ⟨"cannot mmap an empty file", info.shard⟩
    pure ((file.take (sliceBound file.length (info.offset + info.nbytes))).drop
      (sliceBound file.length info.offset))
  | none => .error ⟨"No such file or directory", info.shard⟩

/-- `open_tensor` of a name. -/
def openTensor (name : Str) : Reading Bytes :=
  match Dict.get? checkpoint.tensors name with
  | some info => checkpoint.view info
  | none => .error ⟨"unknown source tensor:", name⟩

/-- `open_tensor` of a region. -/
def openRegion (info : TensorInfo) : Reading Bytes :=
  match Dict.get? checkpoint.tensors info.physicalName with
  | some physical => do
    let count ← elementCount info.shape
    match Dict.get? dtypeBytes info.dtype with
    | some width => do
      ensure (info.shard = physical.shard ∧ info.dtype = physical.dtype ∧
          info.nbytes = count * width ∧ 0 ≤ info.sourceByteOffset ∧
          info.sourceByteOffset + info.nbytes ≤ physical.nbytes ∧
          info.offset = physical.offset + info.sourceByteOffset)
        ⟨"invalid source tensor region:", info.name⟩
      checkpoint.view info
    | none => .error ⟨"KeyError", info.dtype⟩
  | none => .error ⟨"unknown physical source tensor:", info.physicalName⟩

def tensorRegion (sourceName logicalName : Str) (shape : List Int) (byteOffset : Int) :
    Reading TensorInfo :=
  match Dict.get? checkpoint.tensors sourceName with
  | some physical => do
    ensure (¬ (logicalName ∈ Dict.keys checkpoint.tensors ∧ logicalName ≠ sourceName))
      ⟨"logical tensor region collides with physical tensor:", logicalName⟩
    let count ← elementCount shape
    match Dict.get? dtypeBytes physical.dtype with
    | some width => do
      let nbytes := count * width
      ensure (0 ≤ byteOffset ∧ byteOffset + nbytes ≤ physical.nbytes)
        ⟨"source tensor region exceeds", sourceName⟩
      pure {
        name := logicalName
        shard := physical.shard
        dtype := physical.dtype
        shape
        offset := physical.offset + byteOffset
        nbytes
        sourceName := if logicalName ≠ sourceName ∨ byteOffset ≠ 0 then some sourceName
          else none
        sourceByteOffset := byteOffset }
    | none => .error ⟨"KeyError", physical.dtype⟩
  | none => .error ⟨"unknown source tensor:", sourceName⟩

end SafeTensorCheckpoint

/-- The tensors of a header's text, a name as often as it is there. -/
def tensorMembers (members : List (Str × Json)) : List (Str × Json) :=
  members.filter fun member => member.1 ≠ metadataName

/-- The bytes that the metadata of a tensor in a header's text puts it at. -/
def placed (file : Bytes) : Json → Option Bytes
  | .object members =>
    match Json.ints? (Dict.get? (Dict.ofPairs members) (str "data_offsets")) with
    | some [start, stop] => some (((file.drop (dataBase file)).take stop.toNat).drop start.toNat)
    | _ => none
  | _ => none

/-- A read of so many bytes inside a tensor. -/
def Reads (checkpoint : SafeTensorCheckpoint) (name : Str) (offset count : Int) (raw : Bytes) :
    Prop :=
  ∃ whole, checkpoint.openTensor name = .ok whole ∧ 0 ≤ offset ∧ 0 ≤ count ∧
    offset + count ≤ whole.length ∧ raw = (whole.drop offset.toNat).take count.toNat

/-- The entries are those of the text, in bounds, of the size of their shapes and disjoint; and what
is read of a tensor is what the text says. -/
structure DescribesShard (loads : Bytes → Option Json) (shard : Str) (file : Bytes)
    (members : List (Str × Json)) (result : Dict Str TensorInfo) : Prop where
  inside : ∀ entry ∈ result, (dataBase file : Int) ≤ entry.2.offset ∧
    entry.2.offset + entry.2.nbytes ≤ file.length
  sized : ∀ entry ∈ result, ∃ width, Dict.get? dtypeBytes entry.2.dtype = some width ∧
    entry.2.nbytes = entry.2.shape.prod * width
  disjoint : result.Pairwise fun left right =>
    left.2.offset + left.2.nbytes ≤ right.2.offset ∨
      right.2.offset + right.2.nbytes ≤ left.2.offset
  represented : Dict.keys result = (tensorMembers members).map Prod.fst
  opened : ∀ files index checkpoint, readIndex loads files index = .ok checkpoint →
    shard ∈ checkpoint.shards → files shard = some file →
    ∀ member ∈ tensorMembers members, ∃ raw info, placed file member.2 = some raw ∧
      (member.1, info) ∈ result ∧ (raw.length : Int) = info.nbytes ∧
      checkpoint.openTensor member.1 = .ok raw
  regions : ∀ files index checkpoint, readIndex loads files index = .ok checkpoint →
    shard ∈ checkpoint.shards → files shard = some file →
    ∀ info raw, info.physicalName ∈ Dict.keys result → checkpoint.openRegion info = .ok raw →
      Reads checkpoint info.physicalName info.sourceByteOffset info.nbytes raw
  cut : ∀ files index checkpoint, readIndex loads files index = .ok checkpoint →
    shard ∈ checkpoint.shards → files shard = some file →
    ∀ source ∈ Dict.keys result, ∀ logical shape offset region raw,
      checkpoint.tensorRegion source logical shape offset = .ok region →
      checkpoint.openRegion region = .ok raw →
        Reads checkpoint source offset region.nbytes raw

variable {loads : Bytes → Option Json} {shard : Str} {file raw : Bytes}
  {members : List (Str × Json)} {result tensors : Dict Str TensorInfo} {fileSize base : Nat}

theorem elementCount_ok {shape : List Int} {count : Int} (h : elementCount shape = .ok count) :
    count = shape.prod ∧ 0 ≤ count := by
  induction shape generalizing count with
  | nil =>
    cases h
    exact ⟨rfl, by decide⟩
  | cons dimension rest ih =>
    obtain ⟨_, hdimension, h⟩ := bind_ok.1 h
    obtain ⟨others, hothers, h⟩ := bind_ok.1 h
    obtain ⟨hprod, hpos⟩ := ih hothers
    cases pure_ok.1 h
    rw [prod_cons, hprod]
    exact ⟨rfl, Int.mul_nonneg (ensure_ok.1 hdimension) (hprod ▸ hpos)⟩

/-- An entry is that of a member of the header. -/
structure Listed (fileSize base : Nat) (shard : Str) (member : Str × Json)
    (entry : Str × TensorInfo) : Prop where
  key : entry.1 = member.1
  place : entry.2.shard = shard
  sized : ∃ width, Dict.get? dtypeBytes entry.2.dtype = some width ∧
    entry.2.nbytes = entry.2.shape.prod * width
  offsets : ∃ fields start stop, member.2 = .object fields ∧
    Json.ints? (Dict.get? (Dict.ofPairs fields) (str "data_offsets")) = some [start, stop] ∧
    0 ≤ start ∧ start ≤ stop ∧ entry.2.offset = base + start ∧
    entry.2.nbytes = stop - start ∧ base + stop ≤ fileSize

variable {name : Str} {info : TensorInfo} {member : Str × Json} {final : Dict Str TensorInfo}
  {spans : List Span} {index : Option Json}

theorem readTensor_ok {metadata : Json}
    (h : readTensor fileSize base shard name metadata = .ok info) :
    Listed fileSize base shard (name, metadata) (name, info) := by
  unfold readTensor at h
  split at h
  next fields =>
    dsimp only at h
    split at h
    next dtype hdtype =>
      split at h
      next width hwidth =>
        split at h
        next shape hshape =>
          split at h
          next start stop hoffsets =>
            obtain ⟨count, hcount, h⟩ := bind_ok.1 h
            obtain ⟨_, hsize, h⟩ := bind_ok.1 h
            obtain ⟨_, hinside, h⟩ := bind_ok.1 h
            obtain ⟨hstart, hstop, hexpected⟩ := ensure_ok.1 hsize
            cases pure_ok.1 h
            obtain ⟨hprod, -⟩ := elementCount_ok hcount
            refine ⟨rfl, rfl, ⟨width, hwidth, by rw [hprod]⟩, ?_⟩
            exact ⟨fields, start, stop, rfl, hoffsets, hstart, hstop, rfl, hexpected.symm,
              ensure_ok.1 hinside⟩
          next => cases h
        next => cases h
      next => cases h
    next => cases h
  next => cases h

theorem tensorMembers_cons {rest : List (Str × Json)} :
    tensorMembers (member :: rest) =
      if member.1 = metadataName then tensorMembers rest else member :: tensorMembers rest := by
  unfold tensorMembers
  by_cases h : member.1 = metadataName
  · simp [h]
  · simp [h]

theorem readTensors_ok (h : readTensors fileSize base shard result members = .ok final) : ∃ added,
      final = result ++ added ∧
      List.Forall₂ (Listed fileSize base shard) (tensorMembers members) added ∧
      ((Dict.keys result).Nodup → (Dict.keys final).Nodup) := by
  induction members generalizing result with
  | nil =>
    cases h
    exact ⟨[], (append_nil _).symm, .nil, id⟩
  | cons member rest ih =>
    rw [tensorMembers_cons]
    unfold readTensors at h
    by_cases hname : member.1 = metadataName
    · rw [if_pos hname] at h ⊢
      exact ih h
    · rw [if_neg hname] at h ⊢
      obtain ⟨info, hinfo, h⟩ := bind_ok.1 h
      obtain ⟨_, hfresh, h⟩ := bind_ok.1 h
      obtain ⟨added, hfinal, hlisted, hnodup⟩ := ih h
      rw [Dict.put_of_not_mem (ensure_ok.1 hfresh)] at hfinal hnodup
      refine ⟨(member.1, info) :: added, ?_, .cons (readTensor_ok hinfo) hlisted, fun hkeys => ?_⟩
      · rw [hfinal, append_assoc]
        rfl
      · refine hnodup ?_
        rw [← Dict.put_of_not_mem (ensure_ok.1 hfresh)]
        exact Dict.nodup_put hkeys

theorem checkOverlaps_ok (h : checkOverlaps shard (spans.zip spans.tail) = .ok ()) :
    spans.IsChain fun previous current => previous.2.1 ≤ current.1 := by
  induction spans with
  | nil => exact .nil
  | cons first rest ih =>
    cases rest with
    | nil => exact .singleton first
    | cons second rest =>
      obtain ⟨_, hfirst, h⟩ := bind_ok.1 h
      exact .cons_cons (ensure_ok.1 hfirst) (ih h)

/-- Neighbouring spans that do not overlap, none of which ends before it starts, are disjoint. -/
theorem disjoint_of_neighbours (h : spans.IsChain fun previous current => previous.2.1 ≤ current.1)
    (hspans : ∀ span ∈ spans, span.1 ≤ span.2.1) :
    spans.Pairwise fun left right => left.2.1 ≤ right.1 := by
  induction spans with
  | nil => exact .nil
  | cons first rest ih =>
    have hrest := ih h.tail fun span hspan => hspans span (mem_cons_of_mem _ hspan)
    refine .cons (fun span hspan => ?_) hrest
    cases rest with
    | nil => cases hspan
    | cons second rest =>
      have hnext := (isChain_cons_cons.1 h).1
      rcases mem_cons.1 hspan with rfl | hlater
      · exact hnext
      · have hsecond := hspans second (mem_cons_of_mem _ mem_cons_self)
        have hbehind := (pairwise_cons.1 hrest).1 span hlater
        omega

theorem disjoint_of_checked
    (h : checkOverlaps shard ((spansOf result).zip (spansOf result).tail) = .ok ())
    (hspans : ∀ entry ∈ result, 0 ≤ entry.2.nbytes) :
    result.Pairwise fun left right =>
      left.2.offset + left.2.nbytes ≤ right.2.offset ∨
        right.2.offset + right.2.nbytes ≤ left.2.offset := by
  have hperm : (spansOf result).Perm (result.map fun entry => entry.2.span) :=
    perm_insertionSort _ _
  have hsorted := disjoint_of_neighbours (checkOverlaps_ok h) fun span hspan => by
    obtain ⟨entry, hentry, rfl⟩ := mem_map.1 (hperm.mem_iff.1 hspan)
    have hsize := hspans entry hentry
    unfold TensorInfo.span
    dsimp only
    omega
  have hboth := (hperm.pairwise_iff (R := fun left right : Span =>
    left.2.1 ≤ right.1 ∨ right.2.1 ≤ left.1) fun {left right} hapart => hapart.symm).1
    (hsorted.imp fun hapart => .inl hapart)
  exact pairwise_map.1 hboth

theorem readShardHeader_ok (h : readShardHeader loads shard file = .ok result) :
    ∃ members, loads (headerRaw file) = some (.object members) ∧ file ≠ [] ∧
      List.Forall₂ (Listed file.length (dataBase file) shard)
        (tensorMembers (Dict.ofPairs members)) result ∧
      (Dict.keys result).Nodup ∧
      result.Pairwise fun left right =>
        left.2.offset + left.2.nbytes ≤ right.2.offset ∨
          right.2.offset + right.2.nbytes ≤ left.2.offset := by
  obtain ⟨_, hprefix, h⟩ := bind_ok.1 h
  obtain ⟨_, -, h⟩ := bind_ok.1 h
  obtain ⟨_, -, h⟩ := bind_ok.1 h
  have hlength := ensure_ok.1 hprefix
  split at h
  next members hmembers =>
    obtain ⟨found, hfound, h⟩ := bind_ok.1 h
    obtain ⟨_, hoverlaps, h⟩ := bind_ok.1 h
    obtain ⟨_, -, h⟩ := bind_ok.1 h
    cases pure_ok.1 h
    obtain ⟨added, hadded, hlisted, hnodup⟩ := readTensors_ok hfound
    subst hadded
    refine ⟨members, hmembers, ?_, hlisted, hnodup nodup_nil,
      disjoint_of_checked hoverlaps fun entry hentry => ?_⟩
    · rintro rfl
      exact absurd hlength (by decide)
    · obtain ⟨member, -, hmember⟩ := forall₂_mem_right hlisted hentry
      obtain ⟨fields, start, stop, -, -, -, hle, -, hbytes, -⟩ := hmember.offsets
      omega
  next => cases h
  next => cases h

variable {files : Str → Option Bytes} {checkpoint : SafeTensorCheckpoint}

theorem readShards_ok {shards : List Str}
    (h : readShards loads files tensors shards = .ok final) (hkeys : (Dict.keys tensors).Nodup) :
    (Dict.keys final).Nodup ∧ (∀ entry ∈ tensors, entry ∈ final) ∧
      ∀ shard ∈ shards, ∃ file found, files shard = some file ∧
        readShardHeader loads shard file = .ok found ∧ ∀ entry ∈ found, entry ∈ final := by
  induction shards generalizing tensors with
  | nil =>
    cases h
    exact ⟨hkeys, fun entry hentry => hentry, nofun⟩
  | cons shard rest ih =>
    unfold readShards at h
    split at h
    next file hfile =>
      obtain ⟨found, hfound, h⟩ := bind_ok.1 h
      obtain ⟨_, hfresh, h⟩ := bind_ok.1 h
      obtain ⟨_, _, _, _, hnodup, _⟩ := readShardHeader_ok hfound
      rw [Dict.update_of_disjoint hnodup (ensure_ok.1 hfresh)] at h
      have hjoined : (Dict.keys (tensors ++ found)).Nodup := by
        rw [← Dict.update_of_disjoint hnodup (ensure_ok.1 hfresh)]
        exact Dict.nodup_update hkeys
      obtain ⟨hfinal, hkept, hrest⟩ := ih h hjoined
      refine ⟨hfinal, fun entry hentry => hkept entry (mem_append_left _ hentry),
        fun other hother => ?_⟩
      rcases mem_cons.1 hother with rfl | hlater
      · exact ⟨file, found, hfile, hfound, fun entry hentry =>
          hkept entry (mem_append_right _ hentry)⟩
      · exact hrest other hlater
    next => cases h

theorem readIndex_ok (h : readIndex loads files index = .ok checkpoint) :
    checkpoint.files = files ∧ (Dict.keys checkpoint.tensors).Nodup ∧
      ∀ shard ∈ checkpoint.shards, ∃ file found, files shard = some file ∧
        readShardHeader loads shard file = .ok found ∧
          ∀ entry ∈ found, entry ∈ checkpoint.tensors := by
  cases index with
  | some index =>
    obtain ⟨weights, hweights, h⟩ := bind_ok.1 h
    obtain ⟨tensors, htensors, h⟩ := bind_ok.1 h
    obtain ⟨_, -, h⟩ := bind_ok.1 h
    obtain ⟨_, -, h⟩ := bind_ok.1 h
    cases pure_ok.1 h
    obtain ⟨hnodup, -, hshards⟩ := readShards_ok htensors nodup_nil
    exact ⟨rfl, hnodup, hshards⟩
  | none =>
    obtain ⟨tensors, htensors, h⟩ := bind_ok.1 h
    cases pure_ok.1 h
    obtain ⟨hnodup, -, hshards⟩ := readShards_ok htensors nodup_nil
    exact ⟨rfl, hnodup, hshards⟩

theorem get?_of_shard (h : readIndex loads files index = .ok checkpoint)
    (hshard : shard ∈ checkpoint.shards) (hfile : files shard = some file)
    (hread : readShardHeader loads shard file = .ok result) (hentry : (name, info) ∈ result) :
    Dict.get? checkpoint.tensors name = some info ∧ checkpoint.files shard = some file := by
  obtain ⟨hfiles, hnodup, hshards⟩ := readIndex_ok h
  obtain ⟨file', found, hfile', hfound, hmem⟩ := hshards shard hshard
  rw [hfile] at hfile'
  cases hfile'
  rw [hread] at hfound
  cases hfound
  rw [hfiles]
  exact ⟨Dict.get?_of_mem hnodup (hmem _ hentry), hfile⟩

theorem view_ok (hfile : checkpoint.files info.shard = some file)
    (hsome : file ≠ []) (hoffset : 0 ≤ info.offset) (hbytes : 0 ≤ info.nbytes)
    (hinside : info.offset + info.nbytes ≤ file.length) :
    checkpoint.view info =
      .ok ((file.drop info.offset.toNat).take info.nbytes.toNat) := by
  have hstart : sliceBound file.length info.offset = info.offset.toNat := by
    unfold sliceBound
    rw [if_neg (by omega)]
    omega
  have hstop : sliceBound file.length (info.offset + info.nbytes) =
      info.offset.toNat + info.nbytes.toNat := by
    unfold sliceBound
    rw [if_neg (by omega)]
    omega
  unfold SafeTensorCheckpoint.view
  rw [hfile]
  dsimp only
  rw [hstart, hstop]
  refine bind_ok.2 ⟨(), ensure_ok.2 hsome, pure_ok.2 ?_⟩
  rw [drop_take, Nat.add_sub_cancel_left]

theorem Listed.inside {entry : Str × TensorInfo}
    (h : Listed fileSize base shard member entry) : 0 ≤ entry.2.nbytes ∧
      (base : Int) ≤ entry.2.offset ∧ entry.2.offset + entry.2.nbytes ≤ fileSize := by
  obtain ⟨fields, start, stop, -, -, hstart, hle, hoffset, hbytes, hend⟩ := h.offsets
  omega

section

variable {index : Option Json} (hread : readShardHeader loads shard file = .ok result)
  (hindex : readIndex loads files index = .ok checkpoint) (hshard : shard ∈ checkpoint.shards)
  (hfile : files shard = some file)

include hread hindex hshard hfile

variable {info : TensorInfo}

theorem openTensor_of_shard {name : Str} (hentry : (name, info) ∈ result) :
    checkpoint.openTensor name =
      .ok ((file.drop info.offset.toNat).take info.nbytes.toNat) := by
  obtain ⟨members, -, hsome, hlisted, -, -⟩ := readShardHeader_ok hread
  obtain ⟨hget, hplace⟩ := get?_of_shard hindex hshard hfile hread hentry
  obtain ⟨member, -, hmember⟩ := forall₂_mem_right hlisted hentry
  obtain ⟨hbytes, hbase, hinside⟩ := hmember.inside
  unfold SafeTensorCheckpoint.openTensor
  rw [hget]
  dsimp only at hbytes hbase hinside ⊢
  refine view_ok ?_ hsome (by omega) hbytes hinside
  rw [hmember.place]
  exact hplace

theorem openRegion_reads (hname : info.physicalName ∈ Dict.keys result)
    (hopen : checkpoint.openRegion info = .ok raw) :
    Reads checkpoint info.physicalName info.sourceByteOffset info.nbytes raw := by
  obtain ⟨⟨name, physical⟩, hentry, hkey⟩ := mem_map.1 hname
  obtain ⟨members, -, hsome, hlisted, -, -⟩ := readShardHeader_ok hread
  obtain ⟨member, -, hmember⟩ := forall₂_mem_right hlisted hentry
  obtain ⟨hbytes, hbase, hinside⟩ := hmember.inside
  dsimp only at hkey hbytes hbase hinside
  rw [hkey] at hentry
  obtain ⟨hget, hplace⟩ := get?_of_shard hindex hshard hfile hread hentry
  have hwhole := openTensor_of_shard hread hindex hshard hfile hentry
  unfold SafeTensorCheckpoint.openRegion at hopen
  rw [hget] at hopen
  obtain ⟨count, hcount, hopen⟩ := bind_ok.1 hopen
  split at hopen
  next width hwidth =>
    obtain ⟨_, hchecks, hview⟩ := bind_ok.1 hopen
    obtain ⟨hsame, -, hsize, hfrom, hto, hoffset⟩ := ensure_ok.1 hchecks
    have hsmall : 0 ≤ info.nbytes := by
      rw [hsize]
      exact Int.mul_nonneg (elementCount_ok hcount).2 (Int.natCast_nonneg _)
    have hhere : checkpoint.files info.shard = some file := by
      rw [hsame, hmember.place]
      exact hplace
    rw [view_ok hhere hsome (by omega) hsmall (by omega)] at hview
    cases hview
    refine ⟨_, hwhole, hfrom, hsmall, ?_, ?_⟩
    · rw [length_take, length_drop]
      omega
    · rw [drop_take, drop_drop, take_take]
      congr 1
      · omega
      · congr 1
        omega
  next => cases hopen

theorem cut_reads {source logical : Str} {shape : List Int} {offset : Int} {region : TensorInfo}
    (hname : source ∈ Dict.keys result)
    (hcut : checkpoint.tensorRegion source logical shape offset = .ok region)
    (hopen : checkpoint.openRegion region = .ok raw) :
    Reads checkpoint source offset region.nbytes raw := by
  unfold SafeTensorCheckpoint.tensorRegion at hcut
  split at hcut
  next physical hphysical =>
    obtain ⟨_, hcollides, hcut⟩ := bind_ok.1 hcut
    obtain ⟨count, -, hcut⟩ := bind_ok.1 hcut
    split at hcut
    next width hwidth =>
      obtain ⟨_, -, hcut⟩ := bind_ok.1 hcut
      have hregion := pure_ok.1 hcut
      have hsource : region.physicalName = source := by
        by_contra hother
        have hlogical : region.physicalName = logical ∧ logical ≠ source := by
          rw [← hregion] at hother ⊢
          unfold TensorInfo.physicalName at hother ⊢
          by_cases hsame : logical ≠ source ∨ offset ≠ 0
          · rw [if_pos hsame] at hother ⊢
            dsimp only at hother ⊢
            by_cases hempty : source = []
            · rw [if_pos hempty] at hother ⊢
              exact ⟨rfl, hother⟩
            · rw [if_neg hempty] at hother
              exact absurd rfl hother
          · rw [if_neg hsame] at hother ⊢
            exact ⟨rfl, hother⟩
        refine ensure_ok.1 hcollides ⟨?_, hlogical.2⟩
        unfold SafeTensorCheckpoint.openRegion at hopen
        split at hopen
        next other hget =>
          rw [hlogical.1] at hget
          exact mem_map.2 ⟨_, Dict.mem_of_get? hget, rfl⟩
        next => cases hopen
      have hreads := openRegion_reads hread hindex hshard hfile (hsource ▸ hname) hopen
      rw [hsource] at hreads
      rw [← hregion] at hreads ⊢
      exact hreads
    next => cases hcut
  next => cases hcut

end

/-- An accepted shard describes its tensors exactly when no tensor name comes twice in the text of
its header. -/
theorem describes_shard_iff (h : readShardHeader loads shard file = .ok result)
    (hmembers : loads (headerRaw file) = some (.object members)) :
    DescribesShard loads shard file members result ↔
      ((tensorMembers members).map Prod.fst).Nodup := by
  obtain ⟨members', hsame, hsome, hlisted, hnodup, hdisjoint⟩ := readShardHeader_ok h
  rw [hmembers] at hsame
  cases hsame
  constructor
  · intro hdescribes
    rw [← hdescribes.represented]
    exact hnodup
  · intro hnames
    have hkept : tensorMembers (Dict.ofPairs members) = tensorMembers members := by
      have hfilter := @Dict.filter_ofPairs _ _ members _ fun name => decide (name ≠ metadataName)
      exact hfilter.trans (Dict.ofPairs_of_nodup hnames)
    rw [hkept] at hlisted
    refine ⟨fun entry hentry => ?_, fun entry hentry => ?_, hdisjoint, ?_,
      fun files index checkpoint hindex hshard hfile member hmember => ?_,
      fun files index checkpoint hindex hshard hfile info raw hname hopen =>
        openRegion_reads h hindex hshard hfile hname hopen,
      fun files index checkpoint hindex hshard hfile source hsource logical shape offset region raw
        hcut hopen => cut_reads h hindex hshard hfile hsource hcut hopen⟩
    · obtain ⟨member, -, hmember⟩ := forall₂_mem_right hlisted hentry
      exact hmember.inside.2
    · obtain ⟨member, -, hmember⟩ := forall₂_mem_right hlisted hentry
      exact hmember.sized
    · have hself : List.Forall₂ Eq (tensorMembers members) (tensorMembers members) :=
        forall₂_same.2 fun _ _ => rfl
      refine forall₂_map_eq hlisted hself ?_
      rintro item entry other hentry rfl
      exact hentry.key
    · obtain ⟨⟨name, info⟩, hentry, hmember⟩ := forall₂_mem_left hlisted hmember
      have hkey : name = member.1 := hmember.key
      subst hkey
      obtain ⟨hbytes, hbase, hinside⟩ := hmember.inside
      obtain ⟨fields, start, stop, hfields, hints, hstart, hle, hoffset, hcount, hend⟩ :=
        hmember.offsets
      dsimp only at hbytes hbase hinside hoffset hcount
      refine ⟨_, info, ?_, hentry, ?_, openTensor_of_shard h hindex hshard hfile hentry⟩
      · unfold placed
        rw [hfields]
        dsimp only
        rw [hints]
        dsimp only
        rw [drop_take, drop_drop]
        congr 2
        · omega
        · congr 1
          omega
      · rw [length_take, length_drop]
        omega

/-! ## Two headers -/

/-- A shard of a header and two bytes of data. -/
def shardFile (header : String) : Bytes :=
  leBytes 8 header.length ++ header.toList.map Char.toUInt8 ++ [0x11, 0x22]

/-- A member for a tensor of one byte, and what `json.loads` reads off it. -/
def byteText (name start stop : String) : String :=
  "\"" ++ name ++ "\":\x7b\"dtype\":\"U8\",\"shape\":[1],\"data_offsets\":[" ++ start ++ "," ++
    stop ++ "]\x7d"

def byteMember (name : String) (start : Int) : Str × Json :=
  (str name, .object [(str "dtype", .string (str "U8")), (str "shape", .array [.int 1]),
    (str "data_offsets", .array [.int start, .int (start + 1)])])

def byteInfo (name : String) (offset : Int) : TensorInfo where
  name := str name
  shard := str "model.safetensors"
  dtype := str "U8"
  shape := [1]
  offset := offset
  nbytes := 1

def twoText (second : String) : String :=
  "\x7b" ++ byteText "a" "0" "1" ++ "," ++ byteText second "1" "2" ++ "\x7d"

def twoMembers (second : String) : List (Str × Json) := [byteMember "a" 0, byteMember second 1]

/-- `json.loads` of a header with two tensors. -/
def loadsTwo (raw : Bytes) : Option Json :=
  (["a", "b"].find? fun second => raw = (twoText second).toList.map Char.toUInt8).map
    fun second => .object (twoMembers second)

theorem loadsTwo_of {second : String}
    (h : (["a", "b"].find? fun second => raw = (twoText second).toList.map Char.toUInt8) =
      some second) : loadsTwo raw = some (.object (twoMembers second)) := by
  unfold loadsTwo
  rw [h]
  rfl

theorem describes_two : DescribesShard loadsTwo (str "model.safetensors") (shardFile (twoText "b"))
    (twoMembers "b") [(str "a", byteInfo "a" 113), (str "b", byteInfo "b" 114)] :=
  (describes_shard_iff (by decide +kernel) (loadsTwo_of (by decide +kernel))).2
    (by decide +kernel)

/-- Of two tensors of one name only the second is listed. -/
theorem second_replaces_first : ∃ result,
    readShardHeader loadsTwo (str "model.safetensors") (shardFile (twoText "a")) = .ok result ∧
      loadsTwo (headerRaw (shardFile (twoText "a"))) = some (.object (twoMembers "a")) ∧
      ¬ DescribesShard loadsTwo (str "model.safetensors") (shardFile (twoText "a"))
        (twoMembers "a") result := by
  refine ⟨[(str "a", byteInfo "a" 114)], by decide +kernel, loadsTwo_of (by decide +kernel),
    fun h => ?_⟩
  have hrepresented := h.represented
  revert hrepresented
  decide +kernel

end QuantumLlm.ExpertPack
