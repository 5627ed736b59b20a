import ConfigWeave.Proofs.Number.Bits

namespace ConfigWeave.Number

open Float.Model Float.Model.UnpackedFloat

namespace Binary64

/-- The data of an unpacked float. -/
def ofUnpacked : UnpackedFloat → Binary64
  | .notANumber => .nan
  | .infinity sign => .infinite (sign == .negative)
  | .zero sign => .finite (sign == .negative) 0 (-1074)
  | .finite sign significand exponent _ => .finite (sign == .negative) significand exponent

/-- The fields of the bits of a double are those of the unpacked float. -/
theorem ofDouble_eq (x : Double) : ofDouble x = ofUnpacked x.toFloat.toModel.unpack := by
  have mantissa := toNat_unpackMantissa x.bits.toBitVec
  have exponent := toNat_unpackExponent x.bits.toBitVec
  have sign := ofBitVec_unpackSign x.bits.toBitVec
  have full : ∀ e : BitVec 11, e.toNat = 2047 ↔ e = -1#_ := fun e => BitVec.toNat_inj (y := -1#11)
  have none : ∀ e : BitVec 11, e.toNat = 0 ↔ e = 0#_ := fun e => BitVec.toNat_inj (y := 0#11)
  have clear : ∀ m : BitVec 52, m.toNat = 0 ↔ m = 0#_ := fun m => BitVec.toNat_inj (y := 0#52)
  simp only [ofDouble, ← UInt64.toNat_toBitVec, Nat.pow_eq]
  rw [Double.unpack_toFloat, ← mantissa, ← exponent, ← sign]
  unfold UnpackedFloat.unpack
  simp only [full, none, clear]
  split_ifs
  · rfl
  · rfl
  · simp [ofUnpacked, *]
  · simp only [ofUnpacked, *]
    rfl
  · simp only [ofUnpacked, toNat_implicit]
    rfl

end Binary64

/-- `x` is a normal number with the given sign and magnitude. -/
def IsNormal (x : Float) (sign : Sign) (magnitude : ℚ) : Prop :=
  ∃ (m : ℕ) (e : ℤ) (normal : Normal m e),
    x.toModel.unpack = .finite sign m e normal.pos ∧ magnitude = m * 2 ^ e

namespace IsNormal

variable {x y : Float} {s t : Sign} {p q : ℚ}

theorem pos (normal : IsNormal x s p) : 0 < p := by
  obtain ⟨m, e, normal, _, rfl⟩ := normal
  have : (0 : ℚ) < m := mod_cast normal.pos
  exact mul_pos this (zpow_pos two_pos e)

theorem neg (normal : IsNormal x s p) : IsNormal (-x) (-s) p := by
  obtain ⟨m, e, normal, unpacked, rfl⟩ := normal
  refine ⟨m, e, normal, ?_, rfl⟩
  show (Float.Model.pack x.toModel.unpack.neg).unpack = _
  rw [unpacked]
  exact unpack_pack (-s) normal

/-- A product is rounded. -/
theorem mul (left : IsNormal x s p) (right : IsNormal y t q) (moderate : Moderate (p * q)) :
    ∃ z, IsNormal (x * y) (s * t) z ∧ RoundsTo (p * q) z := by
  obtain ⟨m, e, left, unpacked, rfl⟩ := left
  obtain ⟨n, f, right, unpacked', rfl⟩ := right
  have located : Locates (.ofMantissaAndAccuracy (m * n) .exact) (m * 2 ^ e * (n * 2 ^ f) / 2 ^ (e + f)) := by
    refine .exact ?_
    rw [zpow_add₀ two_ne_zero]
    push_cast
    field_simp
  have wide : 2 ^ 52 ≤ m * n := left.wide.trans (Nat.le_mul_of_pos_right m right.pos)
  obtain ⟨k, g, normal, rounded, rounds⟩ := roundWithAccuracy_eq wide located (s * t) moderate
  refine ⟨_, ⟨k, g, normal, ?_, rfl⟩, rounds⟩
  show (Float.Model.pack (UnpackedFloat.mul .binary64 x.toModel.unpack y.toModel.unpack)).unpack = _
  rw [unpacked, unpacked']
  simp only [UnpackedFloat.mul, rounded]
  exact unpack_pack (s * t) normal

/-- A quotient is rounded. -/
theorem div (left : IsNormal x s p) (right : IsNormal y t q) (moderate : Moderate (p / q)) :
    ∃ z, IsNormal (x / y) (s / t) z ∧ RoundsTo (p / q) z := by
  obtain ⟨m, e, left, unpacked, rfl⟩ := left
  obtain ⟨n, f, right, unpacked', rfl⟩ := right
  have divisor : (0 : ℚ) < n := mod_cast right.pos
  have scale : (0 : ℚ) < 2 ^ f := zpow_pos two_pos f
  have bound : (m : ℚ) * 2 ^ e / (n * 2 ^ f) < 2 ^ (e - f + 1) := by
    rw [zpow_add_one₀ two_ne_zero, zpow_sub₀ two_ne_zero, mul_div_mul_comm, mul_comm]
    gcongr
    rw [div_lt_iff₀ divisor]
    have : m < 2 * n := by have := left.fits; have := right.wide; omega
    exact_mod_cast this
  have least := (zpow_lt_zpow_iff_right₀ one_lt_two).mp (moderate.1.trans_lt bound)
  have quotient : divCore .binary64 m e n f =
      (m <<< 53 / n, e - f - 53, accuracyOfFraction (m <<< 53 % n) n) := by
    have target : min (e - f) (Format.binary64.targetExponent (totalExponent m e - totalExponent n f)) =
        e - f - 53 := by
      simp only [Format.targetExponent, totalExponent, Format.mantissaBits, Format.minExponent, left.log2,
        right.log2]
      omega
    have shift : (e - f - (e - f - 53)).toNat = 53 := by omega
    simp only [divCore, target, shift]
  have located := Locates.fraction (m <<< 53) right.pos
  have exact : ((m <<< 53 : ℕ) : ℚ) / n = m * 2 ^ e / (n * 2 ^ f) / 2 ^ (e - f - 53) := by
    rw [Nat.shiftLeft_eq, zpow_sub₀ two_ne_zero, zpow_sub₀ two_ne_zero]
    push_cast
    field_simp
  rw [exact] at located
  have wide : 2 ^ 52 ≤ m <<< 53 / n := by
    rw [Nat.le_div_iff_mul_le right.pos, Nat.shiftLeft_eq]
    exact Nat.mul_le_mul left.wide right.fits.le
  obtain ⟨k, g, normal, rounded, rounds⟩ := roundWithAccuracy_eq wide located (s / t) moderate
  refine ⟨_, ⟨k, g, normal, ?_, rfl⟩, rounds⟩
  show (Float.Model.pack (UnpackedFloat.div .binary64 x.toModel.unpack y.toModel.unpack)).unpack = _
  rw [unpacked, unpacked']
  simp only [UnpackedFloat.div, quotient, rounded]
  exact unpack_pack (s / t) normal

end IsNormal

theorem moderate_natCast {n : ℕ} (positive : 0 < n) (bound : n < 2 ^ 64) : Moderate n := by
  constructor
  · calc (2 : ℚ) ^ (-1000 : ℤ) ≤ 2 ^ (0 : ℤ) := zpow_le_zpow_right₀ one_le_two (by decide)
      _ ≤ n := by rw [zpow_zero]; exact_mod_cast positive
  · calc (n : ℚ) < (2 ^ 64 : ℕ) := mod_cast bound
      _ = 2 ^ (64 : ℤ) := by norm_num
      _ ≤ 2 ^ (1000 : ℤ) := zpow_le_zpow_right₀ one_le_two (by decide)

theorem isNormal_one : IsNormal (Float.exactlyRepresentablePowersOfTen[0]) .positive 1 :=
  ⟨2 ^ 52, -52, ⟨by decide, by decide, by decide, by decide⟩, rfl, by norm_num⟩

/-- A natural that fits 53 bits is converted without loss: it is shifted left until it has that many. -/
theorem isNormal_toFloat {n : ℕ} (positive : 0 < n) (fits : n < 2 ^ 53) :
    IsNormal n.toUInt64.toFloat .positive n := by
  have short : n.log2 ≤ 52 := by
    have := (Nat.log2_lt positive.ne').mpr fits
    omega
  obtain ⟨k, width⟩ : ∃ k, n.log2 + k = 52 := ⟨52 - n.log2, by omega⟩
  have shifted : UnpackedFloat.round .binary64 .positive n 0 =
      roundWithAccuracy .binary64 .positive (n <<< k) (-k) .exact := by
    have target : Format.binary64.targetExponent (totalExponent n 0) = -k := by
      simp only [Format.targetExponent, totalExponent, Format.mantissaBits, Format.minExponent]
      omega
    simp only [UnpackedFloat.round, target, decreaseExponent, zero_sub, neg_neg, Int.toNat_natCast]
  have wide : 2 ^ 52 ≤ n <<< k := by
    rw [Nat.shiftLeft_eq, ← width, pow_add]
    exact Nat.mul_le_mul_right _ (Nat.log2_self_le positive.ne')
  have located : Locates (.ofMantissaAndAccuracy (n <<< k) .exact) (n / 2 ^ (-k : ℤ)) := by
    refine .exact ?_
    rw [Nat.shiftLeft_eq, zpow_neg, zpow_natCast]
    push_cast
    field_simp
  obtain ⟨m, e, normal, rounded, rounds⟩ :=
    roundWithAccuracy_eq wide located .positive (moderate_natCast positive (by omega))
  have exact : (m : ℚ) * 2 ^ e = n := by
    have : (n : ℚ) = n * 2 ^ (0 : ℤ) := by norm_num
    rw [this] at rounds ⊢
    exact rounds.eq_self fits
  refine ⟨m, e, normal, ?_, exact.symm⟩
  have positive' : compare (n : ℤ) 0 = .gt := by
    rw [Int.compare_eq_gt]; omega
  show (Float.Model.pack (UnpackedFloat.normalize .binary64 (n.toUInt64.toNat : ℤ) 0 .positive)).unpack = _
  rw [Nat.toUInt64_eq, UInt64.toNat_ofNat', Nat.mod_eq_of_lt (by omega)]
  simp only [UnpackedFloat.normalize, positive', Int.toNat_natCast, shifted, rounded]
  exact unpack_pack .positive normal

/-- A natural is converted to a double by rounding. -/
theorem isNormal_ofNat {n : ℕ} (positive : 0 < n) (bound : n < 2 ^ 64) :
    ∃ y, IsNormal (Float.ofNat n) .positive y ∧ RoundsTo n y := by
  obtain short | long := Nat.lt_or_ge n (2 ^ 53)
  · have converted : Float.ofNat n = n.toUInt64.toFloat * Float.exactlyRepresentablePowersOfTen[0] := by
      show Float.ofScientific n false 0 = _
      rw [Float.ofScientific, dif_pos ⟨short, by decide⟩]
      rfl
    have := (isNormal_toFloat positive short).mul isNormal_one
      (by rw [mul_one]; exact moderate_natCast positive bound)
    rw [mul_one] at this
    rwa [converted]
  · have located : Locates (.ofMantissaAndAccuracy (n <<< 53 * 10 ^ 0) .exact) (n / 2 ^ (-53 + 0 : ℤ)) := by
      refine .exact ?_
      rw [Nat.shiftLeft_eq]
      push_cast
      field_simp
      norm_num
    have wide : 2 ^ 52 ≤ n <<< 53 * 10 ^ 0 := by
      rw [Nat.shiftLeft_eq]
      omega
    obtain ⟨m, e, normal, rounded, rounds⟩ :=
      roundWithAccuracy_eq wide located (.positive * .positive) (moderate_natCast positive bound)
    refine ⟨_, ⟨m, e, normal, ?_, rfl⟩, rounds⟩
    have scaled : UnpackedFloat.ofScientific .binary64 n 0 =
        roundWithAccuracy .binary64 (.positive * .positive) (n <<< 53 * 10 ^ 0) (-53 + 0) .exact := by
      have exponents : (2 : ℤ) ^ Format.binary64.exponentBits = 2048 := rfl
      unfold UnpackedFloat.ofScientific
      rw [dif_neg positive.ne', if_neg (by decide), if_neg (by omega), if_pos le_rfl]
      rfl
    have converted : Float.ofNat n = .ofModel (.pack (UnpackedFloat.ofScientific .binary64 n 0)) := by
      show Float.ofScientific n false 0 = _
      rw [Float.ofScientific, dif_neg (by omega)]
      rfl
    rw [converted, scaled, rounded]
    exact unpack_pack _ normal

/-- The sign of an integer, which for zero is that of positive zero. -/
def signOf (i : ℤ) : Sign :=
  if i < 0 then .negative else .positive

/-- An integer that is not zero is converted to a double by rounding its magnitude. -/
theorem isNormal_ofInt {i : ℤ} (nonzero : i ≠ 0) (bound : i.natAbs < 2 ^ 64) :
    ∃ y, IsNormal (Float.ofInt i) (signOf i) y ∧ RoundsTo i.natAbs y := by
  have ⟨y, normal, rounds⟩ := isNormal_ofNat (Int.natAbs_pos.mpr nonzero) bound
  refine ⟨y, ?_, rounds⟩
  cases i with
  | ofNat n => exact normal
  | negSucc n =>
    rw [signOf, if_pos (Int.negSucc_lt_zero n)]
    exact normal.neg

/-- A double that is not NaN equals zero if it unpacks to one of the two zeros. -/
theorem beq_zero (x : Float) : (x == 0.0) = (x.toModel.unpack.compare (.zero .positive) == some .eq) :=
  rfl

theorem IsNormal.beq_zero {x : Float} {sign : Sign} {p : ℚ} (normal : IsNormal x sign p) : (x == 0.0) = false := by
  obtain ⟨m, e, normal, unpacked, _⟩ := normal
  rw [Number.beq_zero, unpacked]
  cases sign <;> rfl

/-- The conversion to a double keeps the integers apart from zero. -/
theorem ofInt_beq_zero {i : ℤ} (bound : i.natAbs < 2 ^ 64) : (Float.ofInt i == 0.0) = decide (i = 0) := by
  obtain rfl | nonzero := eq_or_ne i 0
  · rfl
  · have ⟨_, normal, _⟩ := isNormal_ofInt nonzero bound
    rw [normal.beq_zero, decide_eq_false nonzero]

end ConfigWeave.Number
