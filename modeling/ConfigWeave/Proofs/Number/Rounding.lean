import Mathlib

namespace ConfigWeave.Number

open Float.Model Float.Model.UnpackedFloat

/-- A mantissa with its two residual bits says where the number lies that it was cut down from. -/
inductive Locates : ExtendedMantissa → ℚ → Prop where
  | whole {m : ℕ} {x : ℚ} (equal : x = m) : Locates ⟨m, false, false⟩ x
  | low {m : ℕ} {x : ℚ} (above : m < x) (below : x < m + 1 / 2) : Locates ⟨m, false, true⟩ x
  | half {m : ℕ} {x : ℚ} (equal : x = m + 1 / 2) : Locates ⟨m, true, false⟩ x
  | high {m : ℕ} {x : ℚ} (above : m + 1 / 2 < x) (below : x < m + 1) : Locates ⟨m, true, true⟩ x

namespace Locates

variable {em : ExtendedMantissa} {x : ℚ}

theorem exact {m : ℕ} (equal : x = m) : Locates (.ofMantissaAndAccuracy m .exact) x :=
  .whole equal

/-- A quotient cut down to its whole part is located by comparing the remainder with half the divisor. -/
theorem fraction (p : ℕ) {q : ℕ} (positive : 0 < q) :
    Locates (.ofMantissaAndAccuracy (p / q) (accuracyOfFraction (p % q) q)) (p / q) := by
  have wide : (0 : ℚ) < q := mod_cast positive
  have divided : (p : ℚ) / q = (p / q : ℕ) + (p % q : ℕ) / q := by
    have parts : (p : ℚ) = q * (p / q : ℕ) + (p % q : ℕ) := mod_cast (Nat.div_add_mod p q).symm
    field_simp
    linarith
  have rest : p % q < q := Nat.mod_lt p positive
  rw [divided]
  unfold accuracyOfFraction
  split
  next none => exact .whole (by simp [none])
  next some =>
    have above : (0 : ℚ) < (p % q : ℕ) / q := div_pos (mod_cast Nat.pos_of_ne_zero some) wide
    have below : ((p % q : ℕ) : ℚ) / q < 1 := (div_lt_one wide).mpr (mod_cast rest)
    cases order : compare (2 * (p % q)) q with
    | lt =>
      have half : ((p % q : ℕ) : ℚ) / q < 1 / 2 := by
        rw [div_lt_div_iff₀ wide two_pos]
        exact mod_cast (by have := Nat.compare_eq_lt.mp order; omega)
      exact .low (by linarith) (by linarith)
    | eq =>
      have half : ((p % q : ℕ) : ℚ) / q = 1 / 2 := by
        rw [div_eq_div_iff wide.ne' two_ne_zero]
        exact mod_cast (by have := Nat.compare_eq_eq.mp order; omega)
      exact .half (by rw [half])
    | gt =>
      have half : 1 / 2 < ((p % q : ℕ) : ℚ) / q := by
        rw [div_lt_div_iff₀ two_pos wide]
        exact mod_cast (by have := Nat.compare_eq_gt.mp order; omega)
      exact .high (by linarith) (by linarith)

theorem mantissa_le (located : Locates em x) : em.mantissa ≤ x := by
  cases located <;> dsimp only <;> linarith

theorem lt_mantissa (located : Locates em x) : x < em.mantissa + 1 := by
  cases located <;> dsimp only <;> linarith

/-- The rounded mantissa is one of the two next to the number and no further from it than a half. -/
theorem near (located : Locates em x) :
    em.mantissa ≤ em.roundedMantissa ∧ em.roundedMantissa ≤ em.mantissa + 1 ∧ |em.roundedMantissa - x| ≤ 1 / 2 := by
  cases located
  all_goals
    simp only [ExtendedMantissa.roundedMantissa, ExtendedMantissa.accuracy, Accuracy.roundToNearestEven]
  case whole equal => simp [equal]
  case low above below => exact ⟨by omega, by omega, abs_le.mpr ⟨by linarith, by linarith⟩⟩
  case half m equal =>
    obtain even | odd := Nat.mod_two_eq_zero_or_one m
    · exact ⟨by omega, by omega, abs_le.mpr ⟨by rw [even]; push_cast; linarith, by rw [even]; push_cast; linarith⟩⟩
    · exact ⟨by omega, by omega, abs_le.mpr ⟨by rw [odd]; push_cast; linarith, by rw [odd]; push_cast; linarith⟩⟩
  case high above below =>
    exact ⟨by omega, by omega, abs_le.mpr ⟨by push_cast; linarith, by push_cast; linarith⟩⟩

/-- The bit that is shifted out of an even mantissa leaves the number in the lower half. -/
theorem shiftRightOne_even {m : ℕ} {round sticky : Bool} (even : m % 2 = 0)
    (located : Locates ⟨m, round, sticky⟩ x) :
    Locates ⟨m / 2, false, round || sticky⟩ (x / 2) := by
  have halved : (m : ℚ) = 2 * (m / 2 : ℕ) := mod_cast (by omega : m = 2 * (m / 2))
  cases located with
  | whole equal => exact .whole (by linarith)
  | low above below => exact .low (by linarith) (by linarith)
  | half equal => exact .low (by linarith) (by linarith)
  | high above below => exact .low (by linarith) (by linarith)

theorem shiftRightOne_odd {m : ℕ} {round sticky : Bool} (odd : m % 2 = 1) (located : Locates ⟨m, round, sticky⟩ x) :
    Locates ⟨m / 2, true, round || sticky⟩ (x / 2) := by
  have halved : (m : ℚ) = 2 * (m / 2 : ℕ) + 1 := mod_cast (by omega : m = 2 * (m / 2) + 1)
  cases located with
  | whole equal => exact .half (by linarith)
  | low above below => exact .high (by linarith) (by linarith)
  | half equal => exact .high (by linarith) (by linarith)
  | high above below => exact .high (by linarith) (by linarith)

theorem shiftRightOne (located : Locates em x) : Locates em.shiftRightOne (x / 2) := by
  unfold ExtendedMantissa.shiftRightOne
  obtain even | odd := Nat.mod_two_eq_zero_or_one em.mantissa
  · rw [even]
    exact shiftRightOne_even even located
  · rw [odd]
    exact shiftRightOne_odd odd located

theorem shiftRight (located : Locates em x) (k : ℕ) : Locates (em >>> k) (x / 2 ^ k) := by
  induction k with
  | zero => simpa [HShiftRight.hShiftRight, Nat.repeat] using located
  | succ k ih =>
    rw [pow_succ, ← div_div]
    exact ih.shiftRightOne

end Locates

/-- `y` is what a positive `x` is rounded to: it has a significand of 53 bits at the scale of `x` and is
off by half a unit of that scale at most. -/
def RoundsTo (x y : ℚ) : Prop :=
  ∃ (r : ℕ) (e : ℤ), (2 : ℚ) ^ 52 * 2 ^ e ≤ x ∧ x < 2 ^ 53 * 2 ^ e ∧ y = r * 2 ^ e ∧ |y - x| ≤ 2 ^ e / 2

namespace RoundsTo

variable {x y : ℚ}

section Multiple

variable {r k : ℤ} {unit : ℚ} (positive : 0 < unit) (near : |r * unit - x| ≤ unit / 2)

include positive near

/-- Rounding to a multiple of the unit does not pass another one. -/
theorem le_of_multiple_le (below : k * unit ≤ x) : k ≤ r := by
  have ⟨close, _⟩ := abs_le.mp near
  have scaled : (k : ℚ) * unit < (r + 1 : ℤ) * unit := by push_cast; linarith
  exact Int.lt_add_one_iff.mp (Int.cast_lt.mp (lt_of_mul_lt_mul_right scaled positive.le))

theorem le_of_le_multiple (above : x ≤ k * unit) : r ≤ k := by
  have ⟨_, close⟩ := abs_le.mp near
  have scaled : (r : ℚ) * unit < (k + 1 : ℤ) * unit := by push_cast; linarith
  exact Int.lt_add_one_iff.mp (Int.cast_lt.mp (lt_of_mul_lt_mul_right scaled positive.le))

theorem eq_of_multiple (multiple : x = k * unit) : r = k :=
  le_antisymm (le_of_le_multiple positive near multiple.le) (le_of_multiple_le positive near multiple.ge)

end Multiple

/-- A number that fits 53 bits is not changed. -/
theorem eq_self {c : ℕ} {f : ℤ} (rounds : RoundsTo (c * 2 ^ f) y) (fits : c < 2 ^ 53) : y = c * 2 ^ f := by
  obtain ⟨r, e, low, _, rfl, near⟩ := rounds
  have coarse : e ≤ f := by
    have bound : (2 : ℚ) ^ 52 * 2 ^ e < 2 ^ 52 * 2 ^ (f + 1) := by
      calc (2 : ℚ) ^ 52 * 2 ^ e ≤ c * 2 ^ f := low
        _ < 2 ^ 53 * 2 ^ f := by
          have : (c : ℚ) < 2 ^ 53 := mod_cast fits
          have := zpow_pos (two_pos : (0 : ℚ) < 2) f
          gcongr
        _ = 2 ^ 52 * 2 ^ (f + 1) := by rw [zpow_add_one₀ two_ne_zero]; ring
    have := (zpow_lt_zpow_iff_right₀ (one_lt_two : (1 : ℚ) < 2)).mp (lt_of_mul_lt_mul_left bound (by positivity))
    omega
  obtain ⟨d, rfl⟩ : ∃ d : ℕ, f = e + d := ⟨(f - e).toNat, by omega⟩
  have rescaled : (c : ℚ) * 2 ^ (e + d : ℤ) = ((c * 2 ^ d : ℕ) : ℤ) * 2 ^ e := by
    rw [zpow_add₀ two_ne_zero, zpow_natCast]; push_cast; ring
  have rounded : (r : ℤ) = (c * 2 ^ d : ℕ) := eq_of_multiple (zpow_pos two_pos e) (mod_cast near) rescaled
  rw [rescaled, ← rounded, Int.cast_natCast]

section Quotient

variable {a b : ℕ}

/-- What a quotient is rounded to is an integer only if the quotient is: the quotient keeps a distance of
`1 / b` from all other integers, which is no less than half a unit, and is equal to it only where the quotient
is a power of two. -/
theorem eq_of_eq_int (fits : a ≤ 2 ^ 53) (positive : 0 < b) (rounds : RoundsTo (a / b) y) {n : ℤ} (whole : y = n) :
    (a / b : ℚ) = n := by
  have divisor : (0 : ℚ) < b := mod_cast positive
  have bound : (a : ℚ) ≤ 2 ^ 53 := mod_cast fits
  obtain ⟨r, e, low, _, scaled, near⟩ := rounds
  have unit : (0 : ℚ) < 2 ^ e := zpow_pos two_pos e
  rw [le_div_iff₀ divisor] at low
  by_contra different
  have apart : (1 : ℚ) ≤ |(n : ℚ) * b - a| := by
    have nonzero : n * b - a ≠ 0 := by
      intro equal
      apply different
      rw [div_eq_iff divisor.ne']
      exact_mod_cast (sub_eq_zero.mp equal).symm
    exact_mod_cast Int.one_le_abs nonzero
  have distance : |(n : ℚ) * b - a| ≤ 2 ^ e / 2 * b := by
    rw [whole] at near
    calc |(n : ℚ) * b - a| = |(n : ℚ) - a / b| * b := by
          rw [← abs_of_pos divisor, ← abs_mul, sub_mul, abs_of_pos divisor, div_mul_cancel₀ _ divisor.ne']
      _ ≤ 2 ^ e / 2 * b := mul_le_mul_of_nonneg_right near divisor.le
  have power : (a / b : ℚ) = (2 ^ 52 : ℤ) * 2 ^ e := by
    rw [div_eq_iff divisor.ne']
    push_cast
    linarith
  rw [scaled] at near
  have rounded : (r : ℤ) = 2 ^ 52 := eq_of_multiple unit (mod_cast near) power
  exact different (by rw [power, ← rounded, Int.cast_natCast, ← scaled, whole])

/-- A quotient of naturals up to `2 ^ 53` is rounded to a number that stands to every integer as the
quotient itself does. -/
theorem compare_int (fits : a ≤ 2 ^ 53) (positive : 0 < b) (rounds : RoundsTo (a / b) y) (n : ℤ) :
    (n ≤ y ↔ n ≤ (a / b : ℚ)) ∧ (y ≤ n ↔ (a / b : ℚ) ≤ n) := by
  have tie : y = n → (a / b : ℚ) = n := eq_of_eq_int fits positive rounds
  have divisor : (1 : ℚ) ≤ b := mod_cast positive
  have bound : (a : ℚ) ≤ 2 ^ 53 := mod_cast fits
  have ⟨r, e, low, _, scaled, near⟩ := rounds
  have unit : (0 : ℚ) < 2 ^ e := zpow_pos two_pos e
  obtain fine | coarse := le_or_gt e 0
  · -- Every integer is a multiple of the unit, and to round never goes past such a multiple.
    obtain ⟨d, rfl⟩ : ∃ d : ℕ, e = -d := ⟨(-e).toNat, by omega⟩
    have multiple : (n : ℚ) = (n * 2 ^ d : ℤ) * 2 ^ (-d : ℤ) := by
      rw [zpow_neg, zpow_natCast]
      push_cast
      field_simp
    rw [scaled] at near
    have up : n ≤ (a / b : ℚ) → n ≤ y := by
      intro below
      rw [multiple] at below
      have := le_of_multiple_le unit (r := r) (mod_cast near) below
      rw [multiple, scaled]
      exact mul_le_mul_of_nonneg_right (mod_cast this) unit.le
    have down : (a / b : ℚ) ≤ n → y ≤ n := by
      intro above
      rw [multiple] at above
      have := le_of_le_multiple unit (r := r) (mod_cast near) above
      rw [multiple, scaled]
      exact mul_le_mul_of_nonneg_right (mod_cast this) unit.le
    refine ⟨⟨fun above => ?_, up⟩, ⟨fun below => ?_, down⟩⟩
    · obtain ordered | reversed := le_or_gt (n : ℚ) (a / b)
      · exact ordered
      · exact (tie (le_antisymm (down reversed.le) above)).ge
    · obtain ordered | reversed := le_or_gt (a / b : ℚ) n
      · exact ordered
      · exact (tie (le_antisymm below (up reversed.le))).le
  · -- The quotient is as large as it can be, which is `2 ^ 53` by 1.
    have large : (2 : ℚ) ≤ 2 ^ e := by
      calc (2 : ℚ) = 2 ^ (1 : ℤ) := (zpow_one 2).symm
        _ ≤ 2 ^ e := zpow_le_zpow_right₀ one_le_two coarse
    have quotient : (a / b : ℚ) ≤ a := div_le_self (by positivity) divisor
    have power : (a / b : ℚ) = (1 : ℕ) * 2 ^ (53 : ℤ) := by norm_num; linarith
    rw [power] at rounds ⊢
    rw [rounds.eq_self (by norm_num)]
    exact ⟨Iff.rfl, Iff.rfl⟩

theorem floor_eq (fits : a ≤ 2 ^ 53) (positive : 0 < b) (rounds : RoundsTo (a / b) y) : ⌊y⌋ = ⌊(a / b : ℚ)⌋ :=
  eq_of_forall_le_iff fun n => by rw [Int.le_floor, Int.le_floor, (compare_int fits positive rounds n).1]

theorem ceil_eq (fits : a ≤ 2 ^ 53) (positive : 0 < b) (rounds : RoundsTo (a / b) y) : ⌈y⌉ = ⌈(a / b : ℚ)⌉ :=
  eq_of_forall_ge_iff fun n => by rw [Int.ceil_le, Int.ceil_le, (compare_int fits positive rounds n).2]

end Quotient

end RoundsTo

/-- The significand and the exponent of a normal double. -/
structure Normal (significand : ℕ) (exponent : ℤ) : Prop where
  wide : 2 ^ 52 ≤ significand
  fits : significand < 2 ^ 53
  least : -1074 ≤ exponent
  greatest : exponent ≤ 971

theorem Normal.pos {m : ℕ} {e : ℤ} (normal : Normal m e) : 0 < m :=
  (Nat.two_pow_pos 52).trans_le normal.wide

theorem Normal.log2 {m : ℕ} {e : ℤ} (normal : Normal m e) : m.log2 = 52 :=
  (Nat.log2_eq_iff normal.pos.ne').mpr ⟨normal.wide, normal.fits⟩

/-- The positive numbers that are far from the least normal double and from the greatest one. -/
def Moderate (x : ℚ) : Prop :=
  (2 : ℚ) ^ (-1000 : ℤ) ≤ x ∧ x < 2 ^ (1000 : ℤ)

theorem mantissa_ofMantissaAndAccuracy (m : ℕ) (accuracy : Accuracy) :
    (ExtendedMantissa.ofMantissaAndAccuracy m accuracy).mantissa = m := by
  obtain _ | order := accuracy
  · rfl
  · cases order <;> rfl

/-- A mantissa with more than 53 bits is cut down to 53 as long as the exponent does not get too small. -/
theorem shiftToTargetExponent_eq {m k : ℕ} {e : ℤ} (accuracy : Accuracy) (long : m.log2 = 52 + k)
    (least : -1074 ≤ e + k) :
    shiftToTargetExponent .binary64 m e accuracy =
      (ExtendedMantissa.ofMantissaAndAccuracy m accuracy >>> k, e + k) := by
  have shift : (Format.binary64.targetExponent (totalExponent m e) - e).toNat = k := by
    simp only [Format.targetExponent, totalExponent, Format.mantissaBits, Format.minExponent]
    omega
  simp only [shiftToTargetExponent, shiftToExponent, shift]

theorem shiftToTargetExponent_normal {m : ℕ} {e : ℤ} (normal : Normal m e) :
    shiftToTargetExponent .binary64 m e .exact = (⟨m, false, false⟩, e) := by
  rw [shiftToTargetExponent_eq .exact (k := 0) normal.log2 (by simpa using normal.least), Int.natCast_zero,
    add_zero]
  rfl

theorem shiftToTargetExponent_carry {e : ℤ} (least : -1074 ≤ e) :
    shiftToTargetExponent .binary64 (2 ^ 53) e .exact = (⟨2 ^ 52, false, false⟩, e + 1) := by
  rw [shiftToTargetExponent_eq .exact (k := 1) Nat.log2_two_pow (by omega)]
  rfl

section Located

variable {M : ℕ} {E : ℤ} {accuracy : Accuracy} {x : ℚ} (wide : 2 ^ 52 ≤ M)
  (located : Locates (.ofMantissaAndAccuracy M accuracy) (x / 2 ^ E))

include wide located

theorem log2_bounds : (2 : ℚ) ^ (M.log2 + E) ≤ x ∧ x < 2 ^ (M.log2 + E + 1) := by
  have scale : (0 : ℚ) < 2 ^ E := zpow_pos two_pos E
  have below := located.mantissa_le
  have above := located.lt_mantissa
  rw [mantissa_ofMantissaAndAccuracy] at below above
  rw [le_div_iff₀ scale] at below
  rw [div_lt_iff₀ scale] at above
  constructor
  · calc (2 : ℚ) ^ (M.log2 + E) = (2 ^ M.log2 : ℕ) * 2 ^ E := by
          rw [zpow_add₀ two_ne_zero, zpow_natCast]; push_cast; rfl
      _ ≤ M * 2 ^ E := by
          gcongr
          exact Nat.log2_self_le (by omega)
      _ ≤ x := below
  · calc x < (M + 1 : ℕ) * 2 ^ E := by exact_mod_cast above
      _ ≤ (2 ^ (M.log2 + 1) : ℕ) * 2 ^ E := by
          gcongr
          exact Nat.lt_log2_self
      _ = 2 ^ (M.log2 + E + 1) := by
          rw [add_right_comm, zpow_add₀ two_ne_zero, ← Nat.cast_add_one, zpow_natCast]; push_cast; rfl

/-- A number of moderate size that is located by at least 53 bits of its mantissa is rounded to a normal
double. -/
theorem roundWithAccuracy_eq (sign : Sign) (moderate : Moderate x) :
    ∃ (m : ℕ) (e : ℤ) (normal : Normal m e),
      roundWithAccuracy .binary64 sign M E accuracy = .finite sign m e normal.pos ∧ RoundsTo x (m * 2 ^ e) := by
  have ⟨low, high⟩ := log2_bounds wide located
  obtain ⟨k, long⟩ : ∃ k, M.log2 = 52 + k :=
    ⟨M.log2 - 52, by have := (Nat.le_log2 (k := 52) (by omega : M ≠ 0)).mpr wide; omega⟩
  have least : -1074 ≤ E + k := by
    have := (zpow_lt_zpow_iff_right₀ one_lt_two).mp (moderate.1.trans_lt high)
    omega
  have greatest : E + k ≤ 970 := by
    have := (zpow_lt_zpow_iff_right₀ one_lt_two).mp (low.trans_lt moderate.2)
    omega
  rw [show (M.log2 : ℤ) + E + 1 = 53 + (E + k) by omega, zpow_add₀ two_ne_zero] at high
  rw [show (M.log2 : ℤ) + E = 52 + (E + k) by omega, zpow_add₀ two_ne_zero] at low
  have scale : (0 : ℚ) < 2 ^ (E + k) := zpow_pos two_pos _
  have cut := located.shiftRight k
  rw [div_div, ← zpow_natCast, ← zpow_add₀ two_ne_zero] at cut
  have first := shiftToTargetExponent_eq accuracy long least
  generalize ExtendedMantissa.ofMantissaAndAccuracy M accuracy >>> k = em at cut first
  have ⟨down, up, near⟩ := cut.near
  have full : 2 ^ 52 ≤ em.mantissa := by
    have : ((2 ^ 52 : ℕ) : ℚ) < (em.mantissa + 1 : ℕ) := by
      push_cast
      exact ((le_div_iff₀ scale).mpr low).trans_lt cut.lt_mantissa
    exact Nat.lt_add_one_iff.mp (mod_cast this)
  have short : em.mantissa < 2 ^ 53 := by
    have : (em.mantissa : ℚ) < (2 ^ 53 : ℕ) := by
      push_cast
      exact cut.mantissa_le.trans_lt ((div_lt_iff₀ scale).mpr high)
    exact mod_cast this
  have rounds : RoundsTo x (em.roundedMantissa * 2 ^ (E + k)) := by
    refine ⟨em.roundedMantissa, E + k, low, high, rfl, ?_⟩
    calc |(em.roundedMantissa : ℚ) * 2 ^ (E + k) - x| = |em.roundedMantissa - x / 2 ^ (E + k)| * 2 ^ (E + k) := by
          rw [← abs_of_pos scale, ← abs_mul, sub_mul, abs_of_pos scale, div_mul_cancel₀ _ scale.ne']
      _ ≤ 1 / 2 * 2 ^ (E + k) := mul_le_mul_of_nonneg_right near scale.le
      _ = 2 ^ (E + k) / 2 := by ring
  obtain fits | carry := Nat.lt_or_ge em.roundedMantissa (2 ^ 53)
  · have normal : Normal em.roundedMantissa (E + k) := ⟨full.trans down, fits, least, by omega⟩
    refine ⟨_, _, normal, ?_, rounds⟩
    simp only [roundWithAccuracy, first, shiftToTargetExponent_normal normal, normal.pos.ne', ↓reduceDIte]
  · -- Rounding up gave a power of two with one bit too many, which is halved without loss.
    have power : em.roundedMantissa = 2 ^ 53 := by omega
    refine ⟨2 ^ 52, E + k + 1, ⟨by decide, by decide, by omega, by omega⟩, ?_, ?_⟩
    · simp only [roundWithAccuracy, first, power, shiftToTargetExponent_carry least]
      rfl
    · rw [power] at rounds
      convert rounds using 1
      rw [zpow_add_one₀ two_ne_zero]
      push_cast
      ring

end Located

end ConfigWeave.Number
