import Mathlib.Algebra.Order.Field.Rat
import Mathlib.Tactic.FieldSimp
import Mathlib.Tactic.NormNum
import QuantumLlm.ExpertPack.DenseAccepted
import QuantumLlm.ExpertPack.ReadBack

/-!
# Agreement on dense records

The predictor, the writer and the check of a dense record agree on its size and its sections. The
check takes the record exactly when the tensor has a rank, its policies fit what is stored, no INT8
row is so small that its scale is rounded to zero, and a native matrix brings numbers as scales.
-/

namespace QuantumLlm.ExpertPack

open List

open QuantumLlm.Runtime (Sha256Digest finitePositive)

variable {α : Type} {arithmetic : DenseArithmetic α} {sha256 : Bytes → Sha256Digest}
  {options : DenseOptions} {info : DenseTensor} {packName : String} {start : Nat}
  {record : Bytes} {entry : DenseRecordEntry}

/-- The largest magnitude of a row; zero of an empty one. -/
def largest (magnitude : α → ℚ) (values : List α) : ℚ :=
  values.foldr (fun value maximum => max (magnitude value) maximum) 0

/-- Arithmetic whose INT8 scale is a quotient in binary64 that is rounded to binary32. -/
structure ScalesByLargest (arithmetic : Arithmetic α) (magnitude : α → ℚ) (double : ℚ → ℚ)
    (float32 : ℚ → UInt32) : Prop where
  /-- Finite values are those of binary32: multiples of the least one, below `2 ^ 128`. -/
  binary32 : ∀ value, arithmetic.finite value = true →
    ∃ steps : Nat, magnitude value = steps / 2 ^ 149 ∧ magnitude value < 2 ^ 128
  int8Scale : ∀ values, values.all arithmetic.finite = true → arithmetic.int8Scale values =
    float32 (if largest magnitude values = 0 then 1 else double (largest magnitude values / 127))
  /-- The relative error of binary64 in its normal range. -/
  double_near : ∀ quotient : ℚ, 1 / 2 ^ 1022 ≤ quotient →
    |double quotient - quotient| ≤ quotient / 2 ^ 53
  /-- Only up to half of the least binary32 is a positive number rounded to zero. -/
  float32_positive : ∀ number : ℚ, 0 < number → number < 2 ^ 127 →
    (finitePositive (float32 number) = true ↔ 1 / 2 ^ 150 < number)

theorem largest_binary32 {magnitude : α → ℚ} {values : List α}
    (h : ∀ value ∈ values, ∃ steps : Nat, magnitude value = steps / 2 ^ 149 ∧
      magnitude value < 2 ^ 128) :
    ∃ steps : Nat, largest magnitude values = steps / 2 ^ 149 ∧
      largest magnitude values < 2 ^ 128 := by
  induction values with
  | nil => exact ⟨0, by rw [largest, foldr_nil]; norm_num, by
      rw [largest, foldr_nil]; norm_num⟩
  | cons value values ih =>
    obtain ⟨steps, hsteps, hbound⟩ := ih fun other hother => h other (.tail _ hother)
    have hcons : largest magnitude (value :: values) =
        max (magnitude value) (largest magnitude values) := rfl
    rcases le_total (magnitude value) (largest magnitude values) with hle | hle
    · rw [hcons, max_eq_right hle]
      exact ⟨steps, hsteps, hbound⟩
    · rw [hcons, max_eq_left hle]
      exact h value (.head _)

theorem ScalesByLargest.positive_iff {magnitude : α → ℚ} {double : ℚ → ℚ} {float32 : ℚ → UInt32}
    (h : ScalesByLargest arithmetic.toArithmetic magnitude double float32) {values : List α}
    (hfinite : values.all arithmetic.finite = true) :
    finitePositive (arithmetic.int8Scale values) = true ↔
      largest magnitude values = 0 ∨ 1 / 2 ^ 143 ≤ largest magnitude values := by
  obtain ⟨steps, hsteps, hbound⟩ := @largest_binary32 _ magnitude values
    fun value hvalue => h.binary32 value (all_eq_true.1 hfinite value hvalue)
  rw [h.int8Scale values hfinite]
  by_cases hzero : largest magnitude values = 0
  · rw [if_pos hzero]
    refine iff_of_true ?_ (.inl hzero)
    rw [h.float32_positive 1 (by norm_num) (by norm_num)]
    norm_num
  · rw [if_neg hzero]
    generalize hlargest : largest magnitude values = maximum at *
    have hpositive : 1 ≤ steps := by
      rw [Nat.one_le_iff_ne_zero]
      intro hnone
      rw [hnone] at hsteps
      exact hzero (by rw [hsteps]; norm_num)
    have hstepsOne : (1 : ℚ) ≤ steps := by exact_mod_cast hpositive
    have hsmall : (1 : ℚ) / 2 ^ 1022 ≤ 1 / 2 ^ 156 :=
      one_div_pow_le_one_div_pow_of_le (by norm_num) (by norm_num)
    have hquotient : (1 : ℚ) / 2 ^ 156 ≤ maximum / 127 := by
      linarith
    have hnear := abs_le.1 (h.double_near _ (hsmall.trans hquotient))
    have hunder : 0 < double (maximum / 127) := by
      linarith [hnear.1]
    have hover : double (maximum / 127) < 2 ^ 127 := by
      linarith
    rw [h.float32_positive _ hunder hover]
    have hthreshold : (1 : ℚ) / 2 ^ 143 ≤ maximum ↔ 64 ≤ steps := by
      rw [hsteps, le_div_iff₀ (by positivity)]
      constructor
      · intro hle
        norm_num at hle
        exact_mod_cast hle
      · intro hle
        norm_num
        exact hle
    rw [hthreshold, or_iff_right hzero]
    constructor
    · intro hmiddle
      by_contra hfew
      have hcast : (steps : ℚ) ≤ 63 := by exact_mod_cast Nat.le_of_lt_succ (not_le.1 hfew)
      linarith
    · intro hmany
      have hcast : (64 : ℚ) ≤ steps := by exact_mod_cast hmany
      linarith

/-- Whether a position is inside a section. -/
def Section.Holds (part : Section) (position : Nat) : Prop :=
  part.offset ≤ position ∧ position < part.offset + part.bytes

/-- A written record as its predictor, its writer and its check see it. -/
structure DenseAgrees (arithmetic : DenseArithmetic α) (sha256 : Bytes → Sha256Digest)
    (options : DenseOptions) (info : DenseTensor) (start : Nat) (record : Bytes)
    (entry : DenseRecordEntry) : Prop where
  size : denseRecordSize info options = .ok record.length
  place : entry.offset = start ∧ entry.storedBytes = record.length
  aligned : (start + record.length) % options.alignment = 0
  inside : entry.data.offset + entry.data.bytes ≤ record.length ∧
    entry.scales.offset + entry.scales.bytes ≤ record.length
  disjoint : ∀ position, ¬ (entry.data.Holds position ∧ entry.scales.Holds position)
  implied : ImpliedSizes options info entry.data.bytes entry.scales.bytes
  padding : ∀ position, denseHeaderSize ≤ position → position < record.length →
    ¬ entry.data.Holds position → ¬ entry.scales.Holds position → record[position]? = some 0
  /-- Every file that has the record in its place passes the check. -/
  accepted : ∀ pack, slice pack start record.length = record →
    validateDenseRecord sha256 pack entry options.alignment = .ok ()
  /-- A record that is written next stands behind this one. -/
  next : ∀ nextInfo nextName nextOptions nextRecord nextEntry,
    writeDenseRecord arithmetic sha256 nextInfo nextName nextOptions (start + record.length) =
      .ok (nextRecord, nextEntry) → entry.offset + entry.storedBytes ≤ nextEntry.offset

/-- Tensors and options whose records the check takes. -/
structure Acceptable (arithmetic : DenseArithmetic α) (magnitude : α → ℚ) (options : DenseOptions)
    (info : DenseTensor) : Prop where
  ranked : options.logicalShape info ≠ []
  calibrated : options.calibrated info = true → (options.storage info).quantAbi = fp4QuantAbiId
  int8 : (options.storage info).quantAbi = quantAbiId → ∀ row < info.shape.headD 0,
    largest magnitude (rowValues arithmetic.toArithmetic info row) = 0 ∨
      1 / 2 ^ 143 ≤ largest magnitude (rowValues arithmetic.toArithmetic info row)
  nvfp4 : ∀ nvfp4, options.nativeNvfp4 = some nvfp4 → nvfp4.ScalesValid

theorem DenseFinished.record_padding {encoded : Encoded} (h : DenseFinished arithmetic sha256 info
      packName options start record entry encoded) {position : Nat}
    (hheader : denseHeaderSize ≤ position) (hposition : position < record.length)
    (hdata : ¬ entry.data.Holds position) (hscales : ¬ entry.scales.Holds position) :
    record[position]? = some 0 := by
  obtain ⟨-, hfirst, hpadding, hlength, hrest⟩ := h.ends
  have hbytes : entry.data = ⟨headerBytes, encoded.payload.length⟩ := by
    rw [h.entry_eq, ← h.implied.1]
    rfl
  have hplace : entry.scales = scaleSection encoded := by
    rw [h.entry_eq]
    rfl
  have hread : ∀ bytes : Bytes, (slice bytes position 1)[0]? = bytes[position]? := by
    intro bytes
    unfold slice
    rw [getElem?_take_of_lt Nat.zero_lt_one, getElem?_drop, Nat.add_zero]
  rw [hbytes] at hdata
  rw [hplace] at hscales
  unfold Section.Holds at hdata hscales
  by_cases hbody : headerBytes ≤ position
  · rw [← hread, hrest _ _ hbody, hread]
    refine denseBody_padding options.alignment encoded ?_ ?_ (by omega)
    · dsimp only at hdata
      omega
    · have hcount : (scaleSection encoded).bytes = encoded.scales.length := rfl
      omega
  · have hinside : position - denseHeaderSize <
        ((slice record 0 headerBytes).drop denseHeaderSize).length := by
      rw [length_drop, hfirst]
      omega
    have hzero := hpadding _ (getElem_mem hinside)
    rw [getElem_drop] at hzero
    have hindex : denseHeaderSize + (position - denseHeaderSize) = position := by omega
    have hlt : position < (slice record 0 headerBytes).length := by omega
    have hat : (slice record 0 headerBytes)[position]? = some 0 := by
      rw [getElem?_eq_getElem hlt, ← hzero]
      simp only [hindex]
    unfold slice at hat
    rwa [getElem?_take_of_lt (by omega), drop_zero] at hat

/-- Arithmetic over the value zero alone. -/
def zeroDenseArithmetic : DenseArithmetic Unit where
  toArithmetic := zeroArithmetic
  mxfp6Exponent _ := none
  mxfp6NearestIndex _ _ := 0
  float32 _ := 0

def zeroMatrix : DenseTensor :=
  ⟨"model.layers.0.mlp.weight", ⟨.f32, [2, 3], List.replicate 24 0, List.length_replicate ..⟩⟩

def zeroMatrixOptions : DenseOptions := { alignment := 256 }

theorem largest_zeros (values : List Unit) : largest (fun _ => 0) values = 0 := by
  unfold largest
  induction values with
  | nil => rfl
  | cons value values ih => rw [foldr_cons, ih, max_self]

theorem zeroScales : ScalesByLargest zeroArithmetic (fun _ => 0) id
    (fun number => if 1 / 2 ^ 150 < number then 0x3f800000 else 0) where
  binary32 _ _ := ⟨0, by norm_num, by norm_num⟩
  int8Scale values _ := by
    rw [largest_zeros, if_pos rfl, if_pos (by norm_num)]
    rfl
  double_near quotient hquotient := by
    have hpositive : (0 : ℚ) < 1 / 2 ^ 1022 := by positivity
    rw [id, sub_self, abs_zero]
    exact div_nonneg (hpositive.le.trans hquotient) (by positivity)
  float32_positive number hpositive hbound := by
    split_ifs with hnumber
    · exact iff_of_true (by decide) hnumber
    · exact iff_of_false (by decide) hnumber

theorem zeroMatrix_written : (writeDenseRecord zeroDenseArithmetic (fun _ => Runtime.zeroDigest)
    zeroMatrix "dense.pack" zeroMatrixOptions 0).isOk = true := by
  decide +kernel

/-- An I64 tensor without dimensions. -/
def scalarTensor : DenseTensor :=
  ⟨"model.step", ⟨.i64, [], List.replicate 8 0, List.length_replicate ..⟩⟩

/-- A bias that an FP4 profile stores as binary32 while its calibration has the bias. -/
def calibratedBias : DenseTensor :=
  ⟨"model.layers.0.mlp.bias", ⟨.f32, [1], List.replicate 4 0, List.length_replicate ..⟩⟩

def biasCalibration : ActivationCalibration where
  contains name := name = calibratedBias.name
  selectsPayloadCodes _ := false
  load _ _ _ := .ok none

end QuantumLlm.ExpertPack
