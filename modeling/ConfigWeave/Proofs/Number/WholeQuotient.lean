import ConfigWeave.Proofs.Number.Double

namespace ConfigWeave.Number

open Float.Model Float.Model.UnpackedFloat

/-- The rational number that a double stands for, unless it is NaN or infinite. -/
def Binary64.value? : Binary64 → Option ℚ
  | .finite negative significand exponent => some ((if negative then -1 else 1) * (significand * 2 ^ exponent))
  | _ => none

/-- The rational number that a double has for its value, if any. -/
def value? (x : Double) : Option ℚ :=
  (Binary64.ofDouble x).value?

theorem value?_congr {x y : Double} (same : x.toFloat = y.toFloat) : value? x = value? y := by
  rw [value?, value?, Binary64.ofDouble_eq, Binary64.ofDouble_eq, same]

def signum : Sign → ℚ
  | .negative => -1
  | .positive => 1

theorem abs_signum (sign : Sign) : |signum sign| = 1 := by
  cases sign <;> simp [signum]

section Value

variable {x : Double} {sign sign' : Sign} {p q : ℚ} {i : ℤ}

theorem value?_of_zero (zero : x.toFloat.toModel.unpack = .zero sign) : value? x = some 0 := by
  rw [value?, Binary64.ofDouble_eq, zero]
  simp [Binary64.ofUnpacked, Binary64.value?]

theorem value?_of_finite {m : ℕ} {e : ℤ} {positive : 0 < m}
    (finite : x.toFloat.toModel.unpack = .finite sign m e positive) :
    value? x = some (signum sign * (m * 2 ^ e)) := by
  rw [value?, Binary64.ofDouble_eq, finite]
  cases sign <;> rfl

theorem IsNormal.value?_eq (normal : IsNormal x.toFloat sign p) : value? x = some (signum sign * p) := by
  obtain ⟨m, e, normal, unpacked, rfl⟩ := normal
  exact value?_of_finite unpacked

/-- A finite double is a normal one or has the least exponent. -/
theorem Binary64.ofDouble_finite {negative : Bool} {m : ℕ} {e : ℤ} (finite : ofDouble x = .finite negative m e) :
    Normal m e ∨ m < 2 ^ 52 ∧ e = -1074 := by
  simp only [ofDouble, Nat.pow_eq, Int.ofNat_eq_natCast] at finite
  split_ifs at finite with full none
  · cases finite
    exact .inr ⟨Nat.mod_lt _ (by decide), rfl⟩
  · cases finite
    have := Nat.mod_lt (x.bits.toNat / 2 ^ 52) (show 2 ^ 11 > 0 by decide)
    have := Nat.mod_lt x.bits.toNat (show 2 ^ 52 > 0 by decide)
    exact .inl ⟨by omega, by omega, by omega, by omega⟩

theorem unpack_of_value? (value : value? x = some q) :
    (∃ sign, x.toFloat.toModel.unpack = .zero sign ∧ q = 0) ∨
    ∃ sign m e positive, x.toFloat.toModel.unpack = .finite sign m e positive ∧ q = signum sign * (m * 2 ^ e) ∧
      (Normal m e ∨ m < 2 ^ 52 ∧ e = -1074) := by
  cases unpacked : x.toFloat.toModel.unpack with
  | notANumber =>
    rw [value?, Binary64.ofDouble_eq, unpacked] at value
    cases value
  | infinity sign =>
    rw [value?, Binary64.ofDouble_eq, unpacked] at value
    cases value
  | zero sign =>
    rw [value?_of_zero unpacked, Option.some.injEq] at value
    exact .inl ⟨sign, rfl, value.symm⟩
  | finite sign m e positive =>
    rw [value?_of_finite unpacked, Option.some.injEq] at value
    have shape : Binary64.ofDouble x = .finite (sign == .negative) m e := by
      rw [Binary64.ofDouble_eq, unpacked]
      rfl
    exact .inr ⟨sign, m, e, positive, rfl, value.symm, Binary64.ofDouble_finite shape⟩

/-- A double with an integer other than zero for its value is normal. -/
theorem isNormal_of_value? (value : value? x = some (i : ℚ)) (nonzero : i ≠ 0) :
    IsNormal x.toFloat (signOf i) i.natAbs := by
  obtain ⟨_, _, zero⟩ | ⟨sign, m, e, positive, unpacked, exact, shape⟩ := unpack_of_value? value
  · exact absurd (mod_cast zero) nonzero
  have scale : (0 : ℚ) < m * 2 ^ e := mul_pos (mod_cast positive) (zpow_pos two_pos e)
  have ⟨same, magnitude⟩ : signOf i = sign ∧ (i.natAbs : ℚ) = m * 2 ^ e := by
    rw [Nat.cast_natAbs, Int.cast_abs, exact, abs_mul, abs_of_pos scale]
    cases sign with
    | negative =>
      have : (i : ℚ) < 0 := by rw [exact]; simpa [signum] using scale
      exact ⟨if_pos (mod_cast this), by simp [signum]⟩
    | positive =>
      have : (0 : ℚ) < i := by rw [exact]; simpa [signum] using scale
      exact ⟨if_neg (not_lt.mpr (mod_cast this.le)), by simp [signum]⟩
  obtain normal | ⟨fraction, rfl⟩ := shape
  · rw [same]
    exact ⟨m, e, normal, unpacked, magnitude⟩
  · -- A number below the least normal double lies between zero and one.
    have least : (1 : ℚ) ≤ i.natAbs := mod_cast Int.natAbs_pos.mpr nonzero
    have below : (m : ℚ) * 2 ^ (-1074 : ℤ) < 1 := by
      calc (m : ℚ) * 2 ^ (-1074 : ℤ) < (2 ^ 52 : ℕ) * 2 ^ (-52 : ℤ) := by
            have smaller := zpow_le_zpow_right₀ (one_le_two : (1 : ℚ) ≤ 2) (by decide : (-1074 : ℤ) ≤ -52)
            exact mul_lt_mul (mod_cast fraction) smaller (zpow_pos two_pos _) (Nat.cast_nonneg _)
        _ = 1 := by norm_num
    rw [magnitude] at least
    exact absurd below (not_lt.mpr least)

theorem unpack_zero_of_value? (value : value? x = some 0) : ∃ sign, x.toFloat.toModel.unpack = .zero sign := by
  obtain ⟨sign, zero, _⟩ | ⟨sign, m, e, positive, _, exact, _⟩ := unpack_of_value? value
  · exact ⟨sign, zero⟩
  · have scale : (0 : ℚ) < m * 2 ^ e := mul_pos (mod_cast positive) (zpow_pos two_pos e)
    cases sign <;> simp only [signum] at exact <;> linarith

theorem IsNormal.zero_div {y : Double} (zero : x.toFloat.toModel.unpack = .zero sign)
    (normal : IsNormal y.toFloat sign' p) : (x / y).toFloat.toModel.unpack = .zero (sign / sign') := by
  obtain ⟨m, e, _, unpacked, _⟩ := normal
  rw [Double.toFloat_div]
  show (Float.Model.pack (UnpackedFloat.div .binary64 x.toFloat.toModel.unpack y.toFloat.toModel.unpack)).unpack = _
  rw [zero, unpacked]
  exact unpack_pack_zero (sign / sign')

end Value

theorem RoundsTo.natCast {n : ℕ} {y : ℚ} (rounds : RoundsTo n y) (fits : n ≤ 2 ^ 53) : y = n := by
  have quotient : RoundsTo ((n : ℚ) / (1 : ℕ)) y := by simpa using rounds
  have ⟨above, below⟩ := quotient.compare_int fits one_pos n
  simp only [Nat.cast_one, div_one, Int.cast_natCast, le_refl, iff_true] at above below
  exact le_antisymm below above

theorem toFloat_signed (negative : Bool) (x : Double) :
    (signed negative x).toFloat = if negative then -x.toFloat else x.toFloat := by
  cases negative
  · rfl
  · exact x.toFloat_neg

/-- The naturals up to `2 ^ 53` are doubles, and so are their opposites. -/
theorem value?_signed {n : ℕ} (negative : Bool) (fits : n ≤ 2 ^ 53) :
    value? (signed negative (Double.ofNat n)) = some ((if negative then -1 else 1) * n : ℚ) := by
  have converted := toFloat_signed negative (Double.ofNat n)
  rw [Double.toFloat_ofNat] at converted
  obtain rfl | positive := Nat.eq_zero_or_pos n
  · obtain ⟨sign, zero⟩ : ∃ sign, (signed negative (Double.ofNat 0)).toFloat.toModel.unpack = .zero sign := by
      rw [converted]
      cases negative
      · exact ⟨.positive, rfl⟩
      · exact ⟨.negative, rfl⟩
    rw [value?_of_zero zero, Nat.cast_zero, mul_zero]
  · have ⟨y, normal, rounds⟩ := isNormal_ofNat positive (fits.trans_lt (by decide))
    rw [rounds.natCast fits] at normal
    cases negative
    · rw [← converted.trans (if_neg Bool.false_ne_true)] at normal
      exact normal.value?_eq
    · have opposite := normal.neg
      rw [← converted.trans (if_pos rfl)] at opposite
      exact opposite.value?_eq

theorem value?_ofInt {i : ℤ} (fits : i.natAbs ≤ 2 ^ 53) : value? (Double.ofInt i) = some (i : ℚ) := by
  cases i with
  | ofNat n => exact (value?_signed false fits).trans (by simp)
  | negSucc n =>
    have opposite : (Double.ofInt (Int.negSucc n)).toFloat = (signed true (Double.ofNat (n + 1))).toFloat := by
      rw [toFloat_signed, Double.toFloat_ofInt, Double.toFloat_ofNat]
      rfl
    refine (value?_congr opposite).trans ((value?_signed (n := n + 1) true fits).trans ?_)
    simp [Int.cast_negSucc]

theorem ceil_natCast_div (m : ℕ) {d : ℕ} (positive : 0 < d) :
    ⌈(m / d : ℚ)⌉ = (if m % d == 0 then m / d else m / d + 1 : ℕ) := by
  have parts := Nat.div_add_mod m d
  have rest := Nat.mod_lt m positive
  have wide : (0 : ℚ) < d := mod_cast positive
  rw [Int.ceil_eq_iff, Int.cast_natCast, lt_div_iff₀ wide, div_le_iff₀ wide]
  obtain none | some := Nat.eq_zero_or_pos (m % d)
  · have exact : (m : ℚ) = (m / d : ℕ) * d := by exact_mod_cast (by rw [mul_comm]; omega : m = m / d * d)
    simp only [none, beq_self_eq_true, if_true]
    exact ⟨by linarith, exact.le⟩
  · simp only [beq_eq_false_iff_ne.mpr some.ne', Bool.false_eq_true, if_false, Nat.cast_add, Nat.cast_one]
    have above : ((m / d : ℕ) : ℚ) * d < m := by exact_mod_cast (by rw [mul_comm]; omega : m / d * d < m)
    have below : (m : ℚ) ≤ ((m / d : ℕ) + 1) * d := by
      exact_mod_cast (by rw [Nat.add_one_mul, mul_comm]; omega : m ≤ (m / d + 1) * d)
    exact ⟨by linarith, below⟩

/-- The whole part of a magnitude is its floor, and its ceiling if it is raised where something is left. -/
theorem wholePart_eq (m : ℕ) (e : ℤ) :
    ((wholePart m e).1 : ℤ) = ⌊(m * 2 ^ e : ℚ)⌋ ∧
    ((if (wholePart m e).2 then (wholePart m e).1 else (wholePart m e).1 + 1 : ℕ) : ℤ) = ⌈(m * 2 ^ e : ℚ)⌉ := by
  obtain ⟨k, rfl⟩ | ⟨k, positive, rfl⟩ : (∃ k : ℕ, e = k) ∨ ∃ k : ℕ, 0 < k ∧ e = -k := by
    obtain whole | fraction := le_or_gt 0 e
    · exact .inl ⟨e.toNat, by omega⟩
    · exact .inr ⟨(-e).toNat, by omega, by omega⟩
  · have whole : (m * 2 ^ (k : ℤ) : ℚ) = (m * 2 ^ k : ℕ) := by push_cast; rfl
    rw [whole, Int.floor_natCast, Int.ceil_natCast]
    simp [wholePart]
  · have quotient : (m * 2 ^ (-k : ℤ) : ℚ) = m / (2 ^ k : ℕ) := by
      rw [zpow_neg, zpow_natCast]
      push_cast
      rfl
    have split : wholePart m (-k : ℤ) = (m / 2 ^ k, m % 2 ^ k == 0) := by
      simp only [wholePart, neg_neg, Int.toNat_natCast, Nat.pow_eq]
      exact if_neg (by omega)
    rw [quotient, split, Rat.floor_natCast_div_natCast, ceil_natCast_div m (Nat.two_pow_pos k)]
    exact ⟨by push_cast; rfl, rfl⟩

theorem floor_of_finite {x : Double} {negative : Bool} {m : ℕ} {e : ℤ}
    (finite : Binary64.ofDouble x = .finite negative m e) :
    ∃ n : ℕ, floor x = signed negative (Double.ofNat n) ∧
      (n : ℤ) = if negative then ⌈(m * 2 ^ e : ℚ)⌉ else ⌊(m * 2 ^ e : ℚ)⌋ := by
  have ⟨down, up⟩ := wholePart_eq m e
  simp only [floor, finite]
  generalize wholePart m e = parts at *
  obtain ⟨whole, exact⟩ := parts
  refine ⟨_, rfl, ?_⟩
  cases negative
  · exact down
  · rw [if_pos rfl, ← up]
    cases exact <;> rfl

/-- The floor of a double is the greatest integer up to its value. -/
theorem value?_floor {x : Double} {q : ℚ} (value : value? x = some q) (bound : |q| ≤ 2 ^ 53) :
    value? (floor x) = some ((⌊q⌋ : ℤ) : ℚ) := by
  have ⟨low, high⟩ : -((2 ^ 53 : ℤ) : ℚ) ≤ q ∧ q ≤ (2 ^ 53 : ℤ) := by
    push_cast
    exact abs_le.mp bound
  unfold value? at value
  cases finite : Binary64.ofDouble x with
  | nan => simp only [finite, Binary64.value?, reduceCtorEq] at value
  | infinite => simp only [finite, Binary64.value?, reduceCtorEq] at value
  | finite negative m e =>
    simp only [finite, Binary64.value?, Option.some.injEq] at value
    obtain ⟨n, floored, exact⟩ := floor_of_finite finite
    rw [floored]
    generalize (m * 2 ^ e : ℚ) = magnitude at *
    cases negative
    · simp only [Bool.false_eq_true, if_false, one_mul] at value exact
      subst value
      have fits : n ≤ 2 ^ 53 := by
        have := (Int.floor_le magnitude).trans high
        rw [← exact] at this
        exact_mod_cast this
      rw [value?_signed false fits, ← exact]
      simp
    · simp only [if_true, neg_one_mul] at value exact
      subst value
      have fits : n ≤ 2 ^ 53 := by
        have := Int.ceil_le.mpr (neg_le_neg_iff.mp low)
        rw [← exact] at this
        exact_mod_cast this
      rw [value?_signed true fits, Int.floor_neg, ← exact]
      simp

theorem moderate_div {m n : ℕ} (dividend : 0 < m) (divisor : 0 < n) (fits : m ≤ 2 ^ 53) (fits' : n ≤ 2 ^ 53) :
    Moderate (m / n) := by
  have wide : (0 : ℚ) < n := mod_cast divisor
  constructor
  · calc (2 : ℚ) ^ (-1000 : ℤ) ≤ 2 ^ (-53 : ℤ) := zpow_le_zpow_right₀ one_le_two (by decide)
      _ = 1 / (2 ^ 53 : ℕ) := by norm_num
      _ ≤ m / n := div_le_div₀ (Nat.cast_nonneg m) (mod_cast dividend) wide (mod_cast fits')
  · calc (m : ℚ) / n ≤ m := div_le_self (Nat.cast_nonneg m) (mod_cast divisor)
      _ ≤ (2 ^ 53 : ℕ) := mod_cast fits
      _ = 2 ^ (53 : ℤ) := by norm_num
      _ < 2 ^ (1000 : ℤ) := zpow_lt_zpow_right₀ one_lt_two (by decide)

theorem intCast_eq_signum (i : ℤ) : (i : ℚ) = signum (signOf i) * i.natAbs := by
  obtain negative | positive := lt_or_ge i 0
  · rw [signOf, if_pos negative, Nat.cast_natAbs, abs_of_neg negative]
    simp [signum]
  · rw [signOf, if_neg (not_lt.mpr positive), Nat.cast_natAbs, abs_of_nonneg positive]
    simp [signum]

theorem signum_div (s t : Sign) (p q : ℚ) : signum s * p / (signum t * q) = signum (s / t) * (p / q) := by
  have quotient : signum s / signum t = signum (s / t) := by
    cases s <;> cases t
    · exact div_self (by norm_num [signum])
    · exact div_one _
    · exact (by norm_num [signum] : (1 : ℚ) / -1 = -1)
    · exact div_one _
  rw [mul_div_mul_comm, quotient]

theorem floor_signum_mul (s : Sign) (p : ℚ) :
    ⌊signum s * p⌋ = match s with | .negative => -⌈p⌉ | .positive => ⌊p⌋ := by
  cases s with
  | negative => simp [signum, Int.floor_neg]
  | positive => simp [signum]

/-- The floor of the rounded quotient of two integers is the floor of their quotient. -/
theorem value?_floor_div {x y : Double} {a b : ℤ} (left : value? x = some (a : ℚ)) (right : value? y = some (b : ℚ))
    (nonzero : b ≠ 0) (fits : a.natAbs ≤ 2 ^ 53) (fits' : b.natAbs ≤ 2 ^ 53) :
    value? (floor (x / y)) = some ((⌊(a / b : ℚ)⌋ : ℤ) : ℚ) := by
  have divisor := isNormal_of_value? right nonzero
  obtain rfl | dividend := eq_or_ne a 0
  · have ⟨sign, unpacked⟩ := unpack_zero_of_value? (x := x) (by simpa using left)
    rw [value?_floor (value?_of_zero (divisor.zero_div unpacked)) (by norm_num)]
    simp
  have positive : 0 < b.natAbs := Int.natAbs_pos.mpr nonzero
  have moderate := moderate_div (Int.natAbs_pos.mpr dividend) positive fits fits'
  obtain ⟨z, normal, rounds⟩ := (isNormal_of_value? left dividend).div divisor moderate
  rw [← Double.toFloat_div] at normal
  have bound : |signum (signOf a / signOf b) * z| ≤ 2 ^ 53 := by
    rw [abs_mul, abs_signum, one_mul, abs_of_pos normal.pos]
    have quotient : (a.natAbs / b.natAbs : ℚ) ≤ (2 ^ 53 : ℤ) := by
      calc (a.natAbs / b.natAbs : ℚ) ≤ a.natAbs := div_le_self (Nat.cast_nonneg _) (mod_cast positive)
        _ ≤ (2 ^ 53 : ℤ) := by push_cast; exact_mod_cast fits
    exact_mod_cast (rounds.compare_int fits positive (2 ^ 53)).2.mpr quotient
  rw [value?_floor normal.value?_eq bound, intCast_eq_signum a, intCast_eq_signum b, signum_div,
    floor_signum_mul, floor_signum_mul, rounds.floor_eq fits positive, rounds.ceil_eq fits positive]

end ConfigWeave.Number
