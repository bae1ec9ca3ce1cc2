import Mathlib.Tactic.FieldSimp
import QuantumLlm.ExpertPack.Blocks

/-!
# What the block encoders choose

The scale of a block, the levels of its elements, and the agreement of the standard library
with NumPy, over exact rationals. A decoded block encodes to itself: its elements are levels at
their scale, and levels stay levels at the smaller scale that covers them.
-/

namespace QuantumLlm.ExpertPack

open Nearest List

/-! ## Scales -/

theorem blockScale_pos (code : Nat) : 0 < blockScale code := zpow_pos (by norm_num) _

theorem blockScale_add (code distance : Nat) :
    blockScale (code + distance) = 2 ^ distance * blockScale code := by
  unfold blockScale
  rw [← zpow_natCast, ← zpow_add₀ (by norm_num)]
  congr 1
  omega

theorem blockScale_le {code other : Nat} (h : code ≤ other) :
    blockScale code ≤ blockScale other := by
  exact zpow_le_zpow_right₀ (by norm_num) (by omega)

theorem clampCode_range (exponent : ℤ) :
    1 ≤ clampCode exponent ∧ clampCode exponent ≤ 254 := by
  unfold clampCode fp4Ue8m0MinCode fp4Ue8m0MaxCode
  omega

theorem maximumOf_from (chunk : List ℚ) (start : ℚ) :
    start ≤ chunk.foldl (fun maximum value => max maximum |value|) start ∧
      ∀ value ∈ chunk,
        |value| ≤ chunk.foldl (fun maximum value => max maximum |value|) start := by
  induction chunk generalizing start with
  | nil => exact ⟨le_refl _, nofun⟩
  | cons first rest ih =>
    obtain ⟨hstart, hrest⟩ := ih (max start |first|)
    refine ⟨le_trans (le_max_left _ _) hstart, fun value hvalue => ?_⟩
    rcases mem_cons.1 hvalue with rfl | hlater
    · exact le_trans (le_max_right _ _) hstart
    · exact hrest value hlater

theorem maximumOf_nonneg (chunk : List ℚ) : 0 ≤ maximumOf chunk := (maximumOf_from chunk 0).1

variable {chunk : List ℚ} {value maximum : ℚ} {left right : List Nat}

theorem le_maximumOf (h : value ∈ chunk) :
    |value| ≤ maximumOf chunk := (maximumOf_from chunk 0).2 value h

theorem maximumOf_le {bound : ℚ} (hbound : 0 ≤ bound)
    (h : ∀ value ∈ chunk, |value| ≤ bound) : maximumOf chunk ≤ bound := by
  have hfrom : ∀ start ≤ bound,
      chunk.foldl (fun maximum value => max maximum |value|) start ≤ bound := by
    induction chunk with
    | nil => exact fun start hstart => hstart
    | cons first rest ih =>
      intro start hstart
      exact ih (fun value hvalue => h value (mem_cons_of_mem _ hvalue)) _
        (max_le hstart (h first mem_cons_self))
  exact hfrom 0 hbound

/-- The least code whose range covers a maximum; the largest where none does, and that of one
for zero. -/
structure LeastCovering (top maximum : ℚ) (code : Nat) : Prop where
  zero : maximum = 0 → code = 127
  range : 1 ≤ code ∧ code ≤ 254
  covers : maximum ≠ 0 → maximum ≤ top * blockScale code ∨ code = 254
  least : maximum ≠ 0 → ∀ other, 1 ≤ other → other < code → top * blockScale other < maximum

/-- The greatest code whose scale a maximum reaches so many times; the least where it reaches
none, and that of one for zero. -/
structure GreatestReached (factor maximum : ℚ) (code : Nat) : Prop where
  zero : maximum = 0 → code = 127
  range : 1 ≤ code ∧ code ≤ 254
  reached : maximum ≠ 0 → factor * blockScale code ≤ maximum ∨ code = 1
  greatest : maximum ≠ 0 → ∀ other ≤ 254, code < other → maximum < factor * blockScale other

theorem le_scale_iff (h : 0 < maximum) (code : Nat) :
    maximum ≤ 6 * blockScale code ↔ Int.clog 2 (maximum / 6) + 127 ≤ code := by
  have hpower := @Int.le_zpow_iff_clog_le ℚ _ _ _ _ 2 Nat.one_lt_two ((code : ℤ) - 127)
    (maximum / 6) (by positivity)
  rw [show Int.clog 2 (maximum / 6) + 127 ≤ (code : ℤ) ↔
    Int.clog 2 (maximum / 6) ≤ (code : ℤ) - 127 by omega, ← hpower, div_le_iff₀' (by norm_num)]
  rfl

theorem scale_le_iff (h : 0 < maximum) (code : Nat) :
    16 * blockScale code ≤ maximum ↔ (code : ℤ) ≤ Int.log 2 maximum - 4 + 127 := by
  have hpower := @Int.zpow_le_iff_le_log ℚ _ _ _ _ 2 Nat.one_lt_two ((code : ℤ) - 127 + 4)
    maximum h
  rw [Nat.cast_ofNat] at hpower
  have hsplit : 16 * blockScale code = 2 ^ ((code : ℤ) - 127 + 4) := by
    unfold blockScale
    rw [zpow_add₀ (by norm_num), mul_comm]
    norm_num
  rw [hsplit, hpower]
  omega

theorem clampCode_clog (h : 0 < maximum) :
    LeastCovering 6 maximum (clampCode (Int.clog 2 (maximum / 6))) where
  zero := fun hzero => absurd hzero (ne_of_gt h)
  range := clampCode_range _
  covers := fun _ => by
    rw [le_scale_iff h]
    unfold clampCode fp4Ue8m0MinCode fp4Ue8m0MaxCode
    omega
  least := fun _ other hone hother => by
    rw [← not_le, le_scale_iff h]
    unfold clampCode fp4Ue8m0MinCode fp4Ue8m0MaxCode at hother
    omega

theorem mxfp6BlockCode_greatest (hnonneg : 0 ≤ maximum) :
    GreatestReached 16 maximum (mxfp6BlockCode maximum) := by
  unfold mxfp6BlockCode
  by_cases hzero : maximum = 0
  · rw [if_pos hzero]
    exact ⟨fun _ => rfl, by omega, fun hne => absurd hzero hne, fun hne => absurd hzero hne⟩
  · rw [if_neg hzero]
    have hpositive := lt_of_le_of_ne hnonneg (Ne.symm hzero)
    refine ⟨fun h => absurd h hzero, clampCode_range _, fun _ => ?_, fun _ other hmost hother => ?_⟩
    · rw [scale_le_iff hpositive]
      unfold clampCode fp4Ue8m0MinCode fp4Ue8m0MaxCode
      omega
    · rw [← not_le, scale_le_iff hpositive]
      unfold clampCode fp4Ue8m0MinCode fp4Ue8m0MaxCode at hother
      omega

variable {arithmetic : Arithmetic ℚ}

theorem fp4BlockCode_exact (chunk : List ℚ) : fp4BlockCode (exactArithmetic arithmetic) chunk =
    if maximumOf chunk = 0 then 127 else clampCode (Int.clog 2 (maximumOf chunk / 6)) := by
  unfold fp4BlockCode exactArithmetic
  by_cases hzero : maximumOf chunk = 0
  · rw [if_pos hzero]
    simp only [hzero, if_true]
  · rw [if_neg hzero]
    simp only [hzero, if_false]
    rfl

theorem fp4BlockCode_least (chunk : List ℚ) :
    LeastCovering 6 (maximumOf chunk) (fp4BlockCode (exactArithmetic arithmetic) chunk) := by
  rw [fp4BlockCode_exact]
  by_cases hzero : maximumOf chunk = 0
  · rw [if_pos hzero]
    exact ⟨fun _ => rfl, by omega, fun hne => absurd hzero hne, fun hne => absurd hzero hne⟩
  · rw [if_neg hzero]
    exact clampCode_clog (lt_of_le_of_ne (maximumOf_nonneg chunk) (Ne.symm hzero))

theorem frexp_clog (h : 0 < value) :
    (if (frexp value).1 = 1 / 2 then (frexp value).2 - 1 else (frexp value).2) =
      Int.clog 2 value := by
  have htwo : (0 : ℚ) < 2 := by norm_num
  have hle := @Int.zpow_log_le_self ℚ _ _ _ _ 2 value Nat.one_lt_two h
  have hlt := @Int.lt_zpow_succ_log_self ℚ _ _ _ _ 2 Nat.one_lt_two value
  have hupper := (@Int.le_zpow_iff_clog_le ℚ _ _ _ _ 2 Nat.one_lt_two (Int.log 2 value + 1) value
    h).1 (le_of_lt hlt)
  unfold frexp
  have hhalf : value / 2 ^ (Int.log 2 value + 1) = 1 / 2 ↔ value = 2 ^ Int.log 2 value := by
    rw [zpow_add_one₀ (ne_of_gt htwo),
      div_eq_iff (mul_ne_zero (zpow_ne_zero _ (ne_of_gt htwo)) (ne_of_gt htwo))]
    constructor
    · intro heq
      linarith
    · intro heq
      linarith
  by_cases hpower : value = 2 ^ Int.log 2 value
  · rw [if_pos (hhalf.2 hpower), Int.add_sub_cancel]
    have hexact := @Int.clog_zpow ℚ _ _ _ _ 2 Nat.one_lt_two (Int.log 2 value)
    rw [Nat.cast_ofNat, ← hpower] at hexact
    exact hexact.symm
  · rw [if_neg fun hmantissa => hpower (hhalf.1 hmantissa)]
    have hlower : ¬ Int.clog 2 value ≤ Int.log 2 value := by
      rw [← @Int.le_zpow_iff_clog_le ℚ _ _ _ _ 2 Nat.one_lt_two (Int.log 2 value) value h,
        Nat.cast_ofNat]
      exact fun hback => hpower (le_antisymm hback hle)
    omega

theorem coveringCode_eq (grid : List ℚ) :
    coveringCode grid = fp4BlockCode (exactArithmetic arithmetic) grid := by
  rw [fp4BlockCode_exact]
  unfold coveringCode
  by_cases hzero : maximumOf grid = 0
  · rw [if_neg (not_not.2 hzero), if_pos hzero]
  · have hpositive := lt_of_le_of_ne (maximumOf_nonneg grid) (Ne.symm hzero)
    rw [if_pos hzero, if_neg hzero, if_pos hzero, frexp_clog (by positivity)]

theorem numpyMxfp6Code_eq (grid : List ℚ) :
    numpyMxfp6Code grid = mxfp6BlockCode (maximumOf grid) := by
  unfold numpyMxfp6Code mxfp6BlockCode frexp
  by_cases hzero : maximumOf grid = 0
  · rw [if_neg (not_not.2 hzero), if_pos hzero]
  · rw [if_pos hzero, if_neg hzero, if_pos hzero, Int.add_sub_cancel]

theorem fp4E2m1Levels_inTable (h : 0 ≤ value) : InTable fp4E2m1Levels value :=
  ⟨by unfold fp4E2m1Levels; decide +kernel, by decide, h⟩

theorem mxfp6E3m2Levels_inTable (h : 0 ≤ value) : InTable mxfp6E3m2Levels value :=
  ⟨by unfold mxfp6E3m2Levels; decide +kernel, by decide, h⟩

theorem fp4_scanned_lt (h : 0 ≤ value) : scanned fp4E2m1Levels value < 8 :=
  (scanned_isNearest (fp4E2m1Levels_inTable h)).1

theorem mxfp6_scanned_lt (h : 0 ≤ value) : scanned mxfp6E3m2Levels value < 32 :=
  (scanned_isNearest (mxfp6E3m2Levels_inTable h)).1

theorem nearestIndex_val (code : Nat) (value : ℚ) :
    ((exactArithmetic arithmetic).nearestIndex code value).val =
      scanned fp4E2m1Levels |value / blockScale code| :=
  Nat.mod_eq_of_lt (fp4_scanned_lt (abs_nonneg _))

theorem abs_div_scale (code : Nat) (value : ℚ) :
    |value / blockScale code| = |value| / blockScale code := by
  rw [abs_div, abs_of_pos (blockScale_pos code)]

theorem div_scale_neg (code : Nat) (value : ℚ) : value / blockScale code < 0 ↔ value < 0 := by
  rw [div_lt_iff₀ (blockScale_pos code), zero_mul]

/-! ## Packing -/

theorem packPairs_append (h : left.length % 2 = 0) :
    packPairs (left ++ right) = packPairs left ++ packPairs right := by
  induction left using packPairs.induct with
  | case1 low high rest ih =>
    rw [length_cons, length_cons] at h
    rw [cons_append, cons_append, packPairs, packPairs, ih (by omega), cons_append]
  | case2 codes hshort =>
    cases codes with
    | nil => rfl
    | cons low rest =>
      cases rest with
      | nil => exact absurd h (by simp)
      | cons high rest => exact absurd rfl (hshort low high rest)

theorem packPairs_length (codes : List Nat) : (packPairs codes).length = codes.length / 2 := by
  induction codes using packPairs.induct with
  | case1 low high rest ih =>
    rw [packPairs, length_cons, ih, length_cons, length_cons]
    omega
  | case2 codes hshort =>
    match codes with
    | [] => rfl
    | [_] => simp [packPairs]
    | low :: high :: rest => exact absurd rfl (hshort low high rest)

theorem fp4PackNibbles_eq (nibbles : List (Fin 8 × Bool)) :
    fp4PackNibbles nibbles =
      packPairs (nibbles.map fun nibble => nibble.1.val ||| nibble.2.toNat <<< 3) := by
  induction nibbles using fp4PackNibbles.induct with
  | case1 low high rest ih => rw [fp4PackNibbles, ih, map_cons, map_cons, packPairs]
  | case2 nibbles hshort =>
    cases nibbles with
    | nil => rfl
    | cons low rest =>
      cases rest with
      | nil => simp [fp4PackNibbles, packPairs]
      | cons high rest => exact absurd rfl (hshort low high rest)

theorem unpackNibbles_byte {low high : Nat} (hlow : low < 16) (hhigh : high < 16) :
    (UInt8.ofNat (low ||| high <<< 4)).toNat &&& 0x0f = low ∧
      ((UInt8.ofNat (low ||| high <<< 4)).toNat >>> 4) &&& 0x0f = high := by
  have hword : low ||| high <<< 4 = 2 ^ 4 * high + low := by
    rw [Nat.or_comm, Nat.shiftLeft_eq, Nat.mul_comm high]
    exact (Nat.two_pow_add_eq_or_of_lt hlow high).symm
  rw [hword, UInt8.toNat_ofNat', Nat.and_two_pow_sub_one_eq_mod _ 4,
    Nat.and_two_pow_sub_one_eq_mod _ 4, Nat.shiftRight_eq_div_pow]
  omega

theorem unpackNibbles_packPairs {codes : List Nat} (hcodes : ∀ code ∈ codes, code < 16)
    (h : codes.length % 2 = 0) : unpackNibbles (packPairs codes) = codes := by
  induction codes using packPairs.induct with
  | case1 low high rest ih =>
    rw [length_cons, length_cons] at h
    obtain ⟨hlow, hhigh⟩ := unpackNibbles_byte (hcodes low mem_cons_self)
      (hcodes high (mem_cons_of_mem _ mem_cons_self))
    have hrest := ih (fun code hcode =>
      hcodes code (mem_cons_of_mem _ (mem_cons_of_mem _ hcode))) (by omega)
    unfold unpackNibbles at hrest ⊢
    rw [packPairs, flatMap_cons, hrest, hlow, hhigh]
    rfl
  | case2 codes hshort =>
    cases codes with
    | nil => rfl
    | cons low rest =>
      cases rest with
      | nil => exact absurd h (by simp)
      | cons high rest => exact absurd rfl (hshort low high rest)

theorem packGroups_append (h : left.length % 4 = 0) :
    packGroups (left ++ right) = packGroups left ++ packGroups right := by
  induction left using packGroups.induct with
  | case1 c0 c1 c2 c3 rest ih =>
    simp only [length_cons] at h
    simp only [cons_append, packGroups, ih (by omega)]
  | case2 codes hshort =>
    match codes, h with
    | [], _ => rfl
    | c0 :: c1 :: c2 :: c3 :: rest, _ => exact absurd rfl (hshort c0 c1 c2 c3 rest)

theorem groupWord_eq {c0 c1 c2 c3 : Nat} (h0 : c0 < 64) (h1 : c1 < 64) (h2 : c2 < 64) :
    c0 ||| c1 <<< 6 ||| c2 <<< 12 ||| c3 <<< 18 =
      c0 + 2 ^ 6 * c1 + 2 ^ 12 * c2 + 2 ^ 18 * c3 := by
  have hfirst : c0 ||| c1 <<< 6 = 2 ^ 6 * c1 + c0 := by
    rw [Nat.or_comm, Nat.shiftLeft_eq, Nat.mul_comm c1]
    exact (Nat.two_pow_add_eq_or_of_lt h0 c1).symm
  have hsecond : 2 ^ 6 * c1 + c0 ||| c2 <<< 12 = 2 ^ 12 * c2 + (2 ^ 6 * c1 + c0) := by
    rw [Nat.or_comm, Nat.shiftLeft_eq, Nat.mul_comm c2]
    exact (Nat.two_pow_add_eq_or_of_lt (by omega) c2).symm
  have hthird : 2 ^ 12 * c2 + (2 ^ 6 * c1 + c0) ||| c3 <<< 18 =
      2 ^ 18 * c3 + (2 ^ 12 * c2 + (2 ^ 6 * c1 + c0)) := by
    rw [Nat.or_comm, Nat.shiftLeft_eq, Nat.mul_comm c3]
    exact (Nat.two_pow_add_eq_or_of_lt (by omega) c3).symm
  rw [hfirst, hsecond, hthird]
  omega

theorem bytesWord_eq {b0 b1 b2 : Nat} (h0 : b0 < 256) (h1 : b1 < 256) :
    b0 ||| b1 <<< 8 ||| b2 <<< 16 = b0 + 2 ^ 8 * b1 + 2 ^ 16 * b2 := by
  have hfirst : b0 ||| b1 <<< 8 = 2 ^ 8 * b1 + b0 := by
    rw [Nat.or_comm, Nat.shiftLeft_eq, Nat.mul_comm b1]
    exact (Nat.two_pow_add_eq_or_of_lt h0 b1).symm
  have hsecond : 2 ^ 8 * b1 + b0 ||| b2 <<< 16 = 2 ^ 16 * b2 + (2 ^ 8 * b1 + b0) := by
    rw [Nat.or_comm, Nat.shiftLeft_eq, Nat.mul_comm b2]
    exact (Nat.two_pow_add_eq_or_of_lt (by omega) b2).symm
  rw [hfirst, hsecond]
  omega

theorem word_of_bytes {word : Nat} (h : word < 2 ^ 24) :
    (UInt8.ofNat (word &&& 0xff)).toNat ||| (UInt8.ofNat (word >>> 8 &&& 0xff)).toNat <<< 8 |||
      (UInt8.ofNat (word >>> 16 &&& 0xff)).toNat <<< 16 = word := by
  rw [bytesWord_eq (UInt8.toNat_lt _) (UInt8.toNat_lt _), UInt8.toNat_ofNat', UInt8.toNat_ofNat',
    UInt8.toNat_ofNat', Nat.and_two_pow_sub_one_eq_mod _ 8, Nat.and_two_pow_sub_one_eq_mod _ 8,
    Nat.and_two_pow_sub_one_eq_mod _ 8, Nat.shiftRight_eq_div_pow, Nat.shiftRight_eq_div_pow]
  omega

theorem mxfp6Code_later {b0 b1 b2 : UInt8} {packed : Bytes} {column : Nat} :
    mxfp6Code (b0 :: b1 :: b2 :: packed) (column + 4) = mxfp6Code packed column := by
  unfold mxfp6Code
  rw [Nat.add_div_right _ (by omega), Nat.add_mod_right]
  rfl

theorem mxfp6Code_packGroups {codes : List Nat} (hcodes : ∀ code ∈ codes, code < 64)
    (h : codes.length % 4 = 0) :
    (List.range codes.length).map (mxfp6Code (packGroups codes)) = codes := by
  induction codes using packGroups.induct with
  | case1 c0 c1 c2 c3 rest ih =>
    simp only [length_cons] at h
    have hall := fun code hcode => hcodes code hcode
    simp only [forall_mem_cons] at hall
    obtain ⟨h0, h1, h2, h3, hlater⟩ := hall
    have hrest := ih hlater (by omega)
    obtain ⟨word, hpacked, hword⟩ : ∃ word, packGroups (c0 :: c1 :: c2 :: c3 :: rest) =
        UInt8.ofNat (word &&& 0xff) :: UInt8.ofNat (word >>> 8 &&& 0xff) ::
          UInt8.ofNat (word >>> 16 &&& 0xff) :: packGroups rest ∧
        word = c0 + 2 ^ 6 * c1 + 2 ^ 12 * c2 + 2 ^ 18 * c3 :=
      ⟨_, rfl, groupWord_eq h0 h1 h2⟩
    have hbytes := @word_of_bytes word (by omega)
    have hcode : ∀ item < 4, mxfp6Code (packGroups (c0 :: c1 :: c2 :: c3 :: rest)) item =
        word / 2 ^ (6 * item) % 64 := by
      intro item hitem
      have hread : ∀ read, read = word → read >>> (6 * item) &&& 0x3f =
          word / 2 ^ (6 * item) % 64 := by
        rintro read rfl
        rw [Nat.and_two_pow_sub_one_eq_mod _ 6, Nat.shiftRight_eq_div_pow]
      unfold mxfp6Code
      rw [hpacked, Nat.div_eq_of_lt hitem, Nat.mod_eq_of_lt hitem]
      exact hread _ hbytes
    have hlaterCodes : ∀ column,
        mxfp6Code (packGroups (c0 :: c1 :: c2 :: c3 :: rest)) (column + 4) =
          mxfp6Code (packGroups rest) column := by
      intro column
      exact mxfp6Code_later
    have hlength : (c0 :: c1 :: c2 :: c3 :: rest).length = 4 + rest.length := by
      simp only [length_cons]
      omega
    rw [hlength, range_add, map_append, map_map]
    have hshift : (mxfp6Code (packGroups (c0 :: c1 :: c2 :: c3 :: rest)) ∘ fun x => 4 + x) =
        mxfp6Code (packGroups rest) := by
      funext column
      rw [Function.comp_apply, Nat.add_comm, hlaterCodes]
    rw [hshift, hrest]
    simp only [range_succ_eq_map, range_zero, map_cons, map_nil]
    rw [hcode 0 (by omega), hcode 1 (by omega), hcode 2 (by omega), hcode 3 (by omega)]
    have e0 : word / 2 ^ (6 * 0) % 64 = c0 := by omega
    have e1 : word / 2 ^ (6 * 1) % 64 = c1 := by omega
    have e2 : word / 2 ^ (6 * 2) % 64 = c2 := by omega
    have e3 : word / 2 ^ (6 * 3) % 64 = c3 := by omega
    rw [e0, e1, e2, e3]
    rfl
  | case2 codes hshort =>
    match codes, h with
    | [], _ => rfl
    | c0 :: c1 :: c2 :: c3 :: rest, _ => exact absurd rfl (hshort c0 c1 c2 c3 rest)

end QuantumLlm.ExpertPack
