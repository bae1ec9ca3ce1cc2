import QuantumLlm.ExpertPack.Validate

/-!
# Quantising a matrix

The row encoders of the compiler: INT8 rows with one binary32 scale each, and
FP4 rows of 32-value blocks with one UE8M0 code each. The floating-point
operations are parameters; which codes come out of them is decided here.
-/

namespace QuantumLlm.ExpertPack

open List

inductive Dtype
  | f16 | bf16 | f32 | f64 | i8 | u8 | i16 | u16 | i32 | u32 | i64 | u64 | bool
  | f8E4m3 | f8E5m2 | f8E8m0
  deriving DecidableEq

/-- `DTYPE_BYTES`. -/
def Dtype.bytes : Dtype → Nat
  | .f16 | .bf16 | .i16 | .u16 => 2
  | .f32 | .i32 | .u32 => 4
  | .f64 | .i64 | .u64 => 8
  | .i8 | .u8 | .bool | .f8E4m3 | .f8E5m2 | .f8E8m0 => 1

/-- An open tensor. `open_tensor` refuses a region of any other size. -/
structure Tensor where
  dtype : Dtype
  shape : List Nat
  raw : Bytes
  raw_length : raw.length = shape.prod * dtype.bytes

def supportedFloatDtypes : List Dtype := [.bf16, .f16, .f32]

/-- The floating-point operations of the encoders. -/
structure Arithmetic (α : Type) where
  zero : α
  /-- One element of a source row. -/
  decode : Dtype → Bytes → α
  finite : α → Bool
  /-- `maximum / 127.0 if maximum else 1.0`, rounded to binary32. -/
  int8Scale : List α → UInt32
  /-- The clipped quotient of a value by its row's scale. -/
  int8Code : UInt32 → α → UInt8
  /-- `ceil(log2(maximum / 6.0))` of a block; none when the maximum is zero. -/
  exponent : List α → Option Int
  /-- Whether the first code has the smaller squared error. -/
  lowerError : List α → Nat → Nat → Bool
  /-- `_fp4_nearest_index` of a value's quotient by the scale of a code. -/
  nearestIndex : Nat → α → Fin 8
  negative : Nat → α → Bool

/-- What an encoder has written, and the scales that it returns. -/
structure Encoded where
  payload : Bytes
  scales : Bytes
  deriving DecidableEq

def encodeRows (row : Nat → Except String Encoded) : Nat → Except String Encoded
  | 0 => .ok ⟨[], []⟩
  | count + 1 => do
    let before ← encodeRows row count
    let last ← row count
    .ok ⟨before.payload ++ last.payload, before.scales ++ last.scales⟩

section

variable {α : Type} (arithmetic : Arithmetic α)

/-- `_decode_float_row`. -/
def decodeFloatRow (dtype : Dtype) (raw : Bytes) : List α :=
  (List.range (raw.length / dtype.bytes)).map fun index =>
    arithmetic.decode dtype (slice raw (index * dtype.bytes) dtype.bytes)

/-- `_row_geometry`: rows and columns. -/
def rowGeometry (tensor : Tensor) : Except String (Nat × Nat) :=
  match tensor.shape with
  | [columns] => do
    demand (tensor.dtype ∈ supportedFloatDtypes) "quant profile accepts BF16/F16/F32"
    .ok (1, columns)
  | [rows, columns] => do
    demand (tensor.dtype ∈ supportedFloatDtypes) "quant profile accepts BF16/F16/F32"
    .ok (rows, columns)
  | _ => .error "quant profile accepts rank 1/2 tensors"

/-- `quantize_int8_row`, with the scale's bits. -/
def quantizeInt8Row (values : List α) (columns : Nat) : Except String Encoded := do
  demand (values.all arithmetic.finite) "non-finite weight in INT8 row"
  demand (values.length = columns) "short decoded INT8 row"
  let scale := arithmetic.int8Scale values
  .ok ⟨values.map (arithmetic.int8Code scale), leBytes 4 scale.toNat⟩

def writeInt8Rows (tensor : Tensor) : Except String Encoded := do
  let geometry ← rowGeometry tensor
  let rowBytes := geometry.2 * tensor.dtype.bytes
  encodeRows (fun row =>
    quantizeInt8Row arithmetic
      (decodeFloatRow arithmetic tensor.dtype (slice tensor.raw (row * rowBytes) rowBytes))
      geometry.2) geometry.1

/-- `_fp4_block_code`. -/
def fp4BlockCode (chunk : List α) : Nat :=
  match arithmetic.exponent chunk with
  | none => 127
  | some exponent => (min (fp4Ue8m0MaxCode : Int) (max fp4Ue8m0MinCode (exponent + 127))).toNat

/-- `_fp4_min_error_block_code`. -/
def fp4MinErrorBlockCode (chunk : List α) : Nat :=
  let covering := fp4BlockCode arithmetic chunk
  let candidate := max fp4Ue8m0MinCode (covering - 1)
  if candidate = covering then covering
  else if arithmetic.lowerError chunk candidate covering then candidate else covering

/-- `_fp4_pack_nibbles`, by level index and sign. -/
def fp4PackNibbles : List (Fin 8 × Bool) → Bytes
  | low :: high :: rest =>
    UInt8.ofNat ((low.1.val ||| low.2.toNat <<< 3) |||
      (high.1.val ||| high.2.toNat <<< 3) <<< 4) :: fp4PackNibbles rest
  | _ => []

def fp4Block (optimizeMse : Bool) (chunk : List α) : Encoded :=
  let code := if optimizeMse then fp4MinErrorBlockCode arithmetic chunk
    else fp4BlockCode arithmetic chunk
  ⟨fp4PackNibbles (chunk.map fun value =>
    (arithmetic.nearestIndex code value, arithmetic.negative code value)), [UInt8.ofNat code]⟩

def fp4Row (optimizeMse : Bool) (columns blocks : Nat) (values : List α) :
    Except String Encoded := do
  demand (values.all arithmetic.finite) "non-finite weight"
  demand (values.length = columns) "short decoded row"
  let materialized := values ++ List.replicate (blocks * fp4QuantGroupSize - columns) arithmetic.zero
  encodeRows (fun block => .ok (fp4Block arithmetic optimizeMse
    ((materialized.drop (block * fp4QuantGroupSize)).take fp4QuantGroupSize))) blocks

/-- `write_fp4_block32_rows` without activation calibration. -/
def writeFp4Block32Rows (optimizeMse : Bool) (tensor : Tensor) : Except String Encoded := do
  demand (tensor.shape ≠ [] ∧ tensor.shape.length ≤ 5) "FP4 dense storage accepts rank 1-5 tensors"
  demand (tensor.dtype ∈ supportedFloatDtypes) "FP4 dense storage accepts BF16/F16/F32"
  let rows := tensor.shape.dropLast.prod
  let columns := tensor.shape.getLastD 0
  let blocks := (columns + fp4QuantGroupSize - 1) / fp4QuantGroupSize
  let rowBytes := columns * tensor.dtype.bytes
  encodeRows (fun row => fp4Row arithmetic optimizeMse columns blocks
    (decodeFloatRow arithmetic tensor.dtype (slice tensor.raw (row * rowBytes) rowBytes))) rows

theorem except_bind_eq_ok {ε β γ : Type} {result : Except ε β} {next : β → Except ε γ} {value : γ} :
    (result >>= next) = .ok value ↔ ∃ middle, result = .ok middle ∧ next middle = .ok value := by
  cases result with
  | error error => simp [bind, Except.bind]
  | ok middle => simp [bind, Except.bind]

structure Encoded.Sized (payloadBytes scaleBytes : Nat) (Legal : UInt8 → Prop) (encoded : Encoded) :
    Prop where
  payload : encoded.payload.length = payloadBytes
  scales : encoded.scales.length = scaleBytes
  legal : ∀ code ∈ encoded.scales, Legal code

variable {encoded : Encoded} {tensor : Tensor} {rows columns : Nat} {optimizeMse : Bool}

theorem encodeRows_sized {row : Nat → Except String Encoded} {payloadBytes scaleBytes : Nat}
    {Legal : UInt8 → Prop} {count : Nat} (hrow : ∀ index < count, ∀ part, row index = .ok part →
      part.Sized payloadBytes scaleBytes Legal)
    (h : encodeRows row count = .ok encoded) :
    encoded.Sized (count * payloadBytes) (count * scaleBytes) Legal := by
  induction count generalizing encoded with
  | zero =>
    cases h
    exact ⟨by simp, by simp, by simp⟩
  | succ count ih =>
    simp only [encodeRows, except_bind_eq_ok] at h
    obtain ⟨before, hbefore, last, hlast, hencoded⟩ := h
    cases hencoded
    have hfirst := ih (fun index hindex => hrow index (by omega)) hbefore
    have hpart := hrow count (by omega) last hlast
    refine ⟨?_, ?_, ?_⟩
    · rw [length_append, hfirst.payload, hpart.payload, Nat.succ_mul]
    · rw [length_append, hfirst.scales, hpart.scales, Nat.succ_mul]
    · intro code hcode
      rcases mem_append.1 hcode with hcode | hcode
      · exact hfirst.legal code hcode
      · exact hpart.legal code hcode

variable {arithmetic}

theorem writeInt8Rows_sized (hshape : tensor.shape = [rows, columns])
    (h : writeInt8Rows arithmetic tensor = .ok encoded) :
    encoded.Sized (rows * columns) (rows * 4) fun _ => True := by
  simp only [writeInt8Rows, rowGeometry, hshape, except_bind_eq_ok] at h
  obtain ⟨geometry, ⟨-, -, hgeometry⟩, hrows⟩ := h
  cases hgeometry
  refine encodeRows_sized (fun index _ part hpart => ?_) hrows
  simp only [quantizeInt8Row, except_bind_eq_ok] at hpart
  obtain ⟨⟨⟩, -, ⟨⟩, hlength, hencoded⟩ := hpart
  cases hencoded
  rw [demand_eq_ok] at hlength
  exact ⟨by rw [length_map, hlength], leBytes_length _ _, fun _ _ => trivial⟩

/-- The codes that the compiler emits are those that the validators accept. -/
def Ue8m0Code (code : UInt8) : Prop :=
  fp4Ue8m0MinCode ≤ code.toNat ∧ code.toNat ≤ fp4Ue8m0MaxCode

theorem fp4BlockCode_range (chunk : List α) :
    1 ≤ fp4BlockCode arithmetic chunk ∧ fp4BlockCode arithmetic chunk ≤ 254 := by
  rw [fp4BlockCode]
  split
  next => decide
  next exponent =>
    rw [fp4Ue8m0MinCode, fp4Ue8m0MaxCode]
    omega

theorem fp4MinErrorBlockCode_range (chunk : List α) :
    1 ≤ fp4MinErrorBlockCode arithmetic chunk ∧ fp4MinErrorBlockCode arithmetic chunk ≤ 254 := by
  have hcovering := @fp4BlockCode_range _ arithmetic chunk
  rw [fp4MinErrorBlockCode]
  split
  next => exact hcovering
  next =>
    split
    next =>
      rw [fp4Ue8m0MinCode]
      omega
    next => exact hcovering

theorem fp4PackNibbles_length (nibbles : List (Fin 8 × Bool)) :
    (fp4PackNibbles nibbles).length = nibbles.length / 2 := by
  induction nibbles using fp4PackNibbles.induct with
  | case1 low high rest ih =>
    rw [fp4PackNibbles, length_cons, ih, length_cons, length_cons]
    omega
  | case2 nibbles hshort =>
    cases nibbles with
    | nil => rfl
    | cons low rest =>
      cases rest with
      | nil => simp [fp4PackNibbles]
      | cons high rest => exact absurd rfl (hshort low high rest)

theorem fp4Block_sized {chunk : List α} (h : chunk.length = fp4QuantGroupSize) :
    (fp4Block arithmetic optimizeMse chunk).Sized 16 1 Ue8m0Code := by
  refine ⟨?_, rfl, ?_⟩
  · rw [fp4Block, fp4PackNibbles_length, length_map, h, fp4QuantGroupSize]
  · intro code hcode
    rw [fp4Block, mem_singleton] at hcode
    have hrange : 1 ≤ code.toNat ∧ code.toNat ≤ 254 := by
      rw [hcode, UInt8.toNat_ofNat']
      cases optimizeMse with
      | false =>
        have := @fp4BlockCode_range _ arithmetic chunk
        rw [if_neg (by simp)]
        omega
      | true =>
        have := @fp4MinErrorBlockCode_range _ arithmetic chunk
        rw [if_pos rfl]
        omega
    exact hrange

theorem fp4Row_sized {blocks : Nat} {values : List α}
    (hblocks : columns ≤ blocks * fp4QuantGroupSize)
    (h : fp4Row arithmetic optimizeMse columns blocks values = .ok encoded) :
    encoded.Sized (blocks * 16) (blocks * 1) Ue8m0Code := by
  simp only [fp4Row, except_bind_eq_ok] at h
  obtain ⟨⟨⟩, -, ⟨⟩, hlength, hencoded⟩ := h
  rw [demand_eq_ok] at hlength
  refine encodeRows_sized (fun index hindex part hpart => ?_) hencoded
  cases hpart
  apply fp4Block_sized
  have hend : (index + 1) * fp4QuantGroupSize ≤ blocks * fp4QuantGroupSize :=
    Nat.mul_le_mul_right _ hindex
  rw [Nat.succ_mul] at hend
  rw [length_take, length_drop, length_append, length_replicate, hlength]
  omega

theorem writeFp4Block32Rows_sized
    (hshape : tensor.shape = [rows, columns]) (hcolumns : columns % fp4QuantGroupSize = 0)
    (h : writeFp4Block32Rows arithmetic optimizeMse tensor = .ok encoded) :
    encoded.Sized (rows * columns / 2) (rows * columns / fp4QuantGroupSize) Ue8m0Code := by
  obtain ⟨blocks, rfl⟩ : ∃ blocks, columns = blocks * fp4QuantGroupSize :=
    ⟨columns / fp4QuantGroupSize, by rw [fp4QuantGroupSize] at *; omega⟩
  simp only [writeFp4Block32Rows, hshape, except_bind_eq_ok] at h
  obtain ⟨⟨⟩, -, ⟨⟩, -, hrows⟩ := h
  have hblocks : (blocks * fp4QuantGroupSize + fp4QuantGroupSize - 1) / fp4QuantGroupSize =
      blocks := by
    rw [fp4QuantGroupSize]
    omega
  simp only [List.dropLast, prod_cons, prod_nil, Nat.mul_one, getLastD_cons,
    getLastD_nil, hblocks] at hrows
  have hsized := encodeRows_sized (fun _ _ _ hpart => fp4Row_sized le_rfl hpart) hrows
  have hpayload : rows * (blocks * fp4QuantGroupSize) / 2 = rows * (blocks * 16) := by
    rw [fp4QuantGroupSize, ← Nat.mul_assoc, ← Nat.mul_assoc]
    omega
  have hscales : rows * (blocks * fp4QuantGroupSize) / fp4QuantGroupSize = rows * (blocks * 1) := by
    rw [fp4QuantGroupSize, ← Nat.mul_assoc, ← Nat.mul_assoc]
    omega
  rw [hpayload, hscales]
  exact hsized

end

end QuantumLlm.ExpertPack
