import ConfigWeave.Proofs.Expr.Arithmetic
import ConfigWeave.Proofs.Number.WholeQuotient

namespace ConfigWeave

open Number

/-- The rational number that a value stands for, if it is a number. -/
def Value.number? : Value → Option ℚ
  | .int i => some i.toInt
  | .float x => Number.value? x
  | _ => none

namespace Expr

/-- The quotient of Euclid is the floor of the quotient, unless a negative divisor leaves a remainder. -/
theorem ediv_eq_floor (a : Int) {b : Int} (nonzero : b ≠ 0) :
    a / b = ⌊(a / b : ℚ)⌋ + if b < 0 ∧ ¬b ∣ a then 1 else 0 := by
  obtain negative | positive := lt_or_gt_of_ne nonzero
  · obtain ⟨d, rfl⟩ : ∃ d : ℕ, b = -d := ⟨b.natAbs, by omega⟩
    have opposite : (a / (-d : ℤ) : ℚ) = (-a : ℤ) / d := by
      push_cast
      rw [div_neg, neg_div]
    rw [opposite, Rat.floor_intCast_div_natCast, Int.ediv_neg, Int.neg_ediv, Int.sign_eq_one_of_pos (by omega)]
    simp only [Int.neg_dvd]
    split_ifs <;> omega
  · obtain ⟨d, rfl⟩ : ∃ d : ℕ, b = d := ⟨b.natAbs, by omega⟩
    rw [if_neg (by omega), Int.cast_natCast, Rat.floor_intCast_div_natCast, add_zero]

theorem fits_ediv {i j : Int64} (nonzero : j.toInt ≠ 0) (fits : (Demand.fits ⌊(i.toInt / j.toInt : ℚ)⌋).Met) :
    (Demand.fits (i.toInt / j.toInt)).Met := by
  have least := i.le_toInt
  have quotient := ediv_eq_floor i.toInt nonzero
  have parts := Int.mul_ediv_add_emod i.toInt j.toInt
  have below := Int.emod_lt_abs i.toInt nonzero
  simp only [Demand.Met, leastInteger, greatestInteger] at fits ⊢
  by_cases rest : j.toInt < 0 ∧ ¬j.toInt ∣ i.toInt
  · rw [if_pos rest] at quotient
    obtain ⟨negative, inexact⟩ := rest
    -- A divisor of -1 leaves no remainder, so the quotient is not even half as far from zero as the dividend.
    have divisor : j.toInt ≤ -2 := by
      by_contra near
      have : j.toInt = -1 := by omega
      rw [this] at inexact
      exact inexact (Int.neg_dvd.mpr (one_dvd _))
    rw [abs_of_neg negative] at below
    refine ⟨by omega, ?_⟩
    by_contra large
    have := mul_le_mul_of_nonneg_right divisor (by omega : 0 ≤ i.toInt / j.toInt - 1)
    rw [mul_sub, mul_one] at this
    omega
  · rw [if_neg rest] at quotient
    omega

/-- For an integer and a double, or for two doubles, `//` is the floor of the quotient. -/
theorem applyBinary_floorDivide_float {v w : Value} {a b : Int} (dividend : v.number? = some (a : ℚ))
    (divisor : w.number? = some (b : ℚ)) (some_float : ∀ i j, v = .int i → w ≠ .int j) (nonzero : b ≠ 0)
    (fits : a.natAbs ≤ 2 ^ 53) (fits' : b.natAbs ≤ 2 ^ 53) :
    ∃ z, applyBinary .floorDivide (some v) (some w) = .ok (some (.float z)) ∧
      Number.value? z = some ((⌊(a / b : ℚ)⌋ : ℤ) : ℚ) := by
  have converted {v : Value} {n : Int} (number : v.number? = some (n : ℚ)) (fits : n.natAbs ≤ 2 ^ 53) :
      ∃ x, toDouble? v = some x ∧ Number.value? x = some (n : ℚ) := by
    cases v with
    | int i =>
      have same : i.toInt = n := by
        simpa only [Value.number?, Option.some.injEq, Int.cast_inj] using number
      exact ⟨_, rfl, same ▸ value?_ofInt (same ▸ fits)⟩
    | float x => exact ⟨x, rfl, number⟩
    | _ => cases number
  obtain ⟨x, left, leftValue⟩ := converted dividend fits
  obtain ⟨y, right, rightValue⟩ := converted divisor fits'
  have notZero : y.isZero = false := (isNormal_of_value? rightValue nonzero).beq_zero
  refine ⟨floor (x / y), ?_, value?_floor_div leftValue rightValue nonzero fits fits'⟩
  simp only [applyBinary, arithmetic, left, right, notZero, Bool.and_false, Bool.false_eq_true, if_false]
  rfl

/-- Floor division on integers is the division of Euclid: its remainder is that of `%`, and its quotient is the
floor of the quotient except where a negative divisor leaves a remainder, where it is one more. With a double for
one of the same numbers it is the floor in any case. -/
theorem eval_floorDivide {scope : Scope} {left right : Expr} {a b : Int64}
    (dividend : eval scope left = pure (some (.int a))) (divisor : eval scope right = pure (some (.int b)))
    (nonzero : b.toInt ≠ 0) (fits : (Demand.fits ⌊(a.toInt / b.toInt : ℚ)⌋).Met) :
    (∃ q r : Int64, eval scope (.binary .floorDivide left right) = pure (some (.int q)) ∧
      eval scope (.binary .modulo left right) = pure (some (.int r)) ∧ a.toInt = b.toInt * q.toInt + r.toInt ∧
      q.toInt = ⌊(a.toInt / b.toInt : ℚ)⌋ + if b.toInt < 0 ∧ ¬b.toInt ∣ a.toInt then 1 else 0) ∧
    ∀ v w : Value, v.number? = some (a.toInt : ℚ) → w.number? = some (b.toInt : ℚ) →
      (∀ i j, v = .int i → w ≠ .int j) → a.toInt.natAbs ≤ 2 ^ 53 → b.toInt.natAbs ≤ 2 ^ 53 →
      ∃ z, applyBinary .floorDivide (some v) (some w) = .ok (some (.float z)) ∧
        Number.value? z = some ((⌊(a.toInt / b.toInt : ℚ)⌋ : ℤ) : ℚ) := by
  refine ⟨?_, fun v w left right some_float => applyBinary_floorDivide_float left right some_float nonzero⟩
  have met : ∀ demand ∈ [Demand.divisor b.toInt, .fits (a.toInt / b.toInt)], demand.Met := by
    rw [List.forall_mem_cons, List.forall_mem_singleton]
    exact ⟨nonzero, fits_ediv nonzero fits⟩
  obtain ⟨q, quotient, divided⟩ := (exact_applyBinary .quotient a b).ok_of_met met
  obtain ⟨r, remainder, reduced⟩ := (exact_applyBinary .remainder a b).ok_of_met met
  have operated (op : BinaryOp) :
      eval scope (.binary op left right) = .lift (applyBinary op (some (.int a)) (some (.int b))) := by
    rw [eval, dividend, divisor, pure_bind, pure_bind]
  refine ⟨q, r, (operated _).trans divided, (operated _).trans reduced, ?_, ?_⟩
  · rw [quotient, remainder]
    exact (Int.mul_ediv_add_emod a.toInt b.toInt).symm
  · rw [quotient]
    exact ediv_eq_floor a.toInt nonzero

theorem eval_floorDivide_bothNegative :
    (∃ q r : Int64, eval ⟨[]⟩ (.binary .floorDivide (.lit (.int (-7))) (.neg (.lit (.int 2)))) =
      pure (some (.int q)) ∧
      eval ⟨[]⟩ (.binary .modulo (.lit (.int (-7))) (.neg (.lit (.int 2)))) = pure (some (.int r)) ∧
      -7 = -2 * q.toInt + r.toInt ∧ q.toInt = 3 + 1) ∧
    ∃ z, applyBinary .floorDivide (some (.float (Double.ofInt (-7)))) (some (.int (-2))) = .ok (some (.float z)) ∧
      Number.value? z = some 3 := by
  have dividend : eval ⟨[]⟩ (.lit (.int (-7))) = pure (some (.int (-7))) := rfl
  have divisor : eval ⟨[]⟩ (.neg (.lit (.int 2))) = pure (some (.int (-2))) := rfl
  have floored : ⌊(((-7 : Int64).toInt : ℚ) / ((-2 : Int64).toInt : ℚ))⌋ = 3 := by
    rw [show (-7 : Int64).toInt = -7 from rfl, show (-2 : Int64).toInt = -2 from rfl]
    norm_num
  have ⟨integers, doubles⟩ := eval_floorDivide dividend divisor (by decide) (by rw [floored]; decide)
  have converted : Number.value? (Double.ofInt (-7)) = some ((-7 : ℤ) : ℚ) := value?_ofInt (by decide)
  have mixed := doubles (.float (Double.ofInt (-7))) (.int (-2)) converted rfl nofun (by decide) (by decide)
  rw [floored] at integers mixed
  exact ⟨integers, mixed⟩

/-- The quotient of 7 by -2 lies between -4 and -3. -/
theorem evaluate_floorDivide_negative :
    evaluate ⟨[]⟩ "7 // -2" = pure (some (.int (-3))) ∧ ⌊(7 / -2 : ℚ)⌋ = -4 ∧
      ∃ z, applyBinary .floorDivide (some (.float (Double.ofInt 7))) (some (.float (Double.ofInt (-2)))) =
        .ok (some (.float z)) ∧ Number.value? z = some (-4) := by
  have floored : ⌊(7 / -2 : ℚ)⌋ = -4 := by norm_num
  refine ⟨?_, floored, ?_⟩
  · let t : Term := .operation .quotient (.number ['7'] 7) (.minus (.number ['2'] 2))
    have spelling : IsSpelled "7 // -2" t.tokens := ok_of_toOption (by decide +kernel)
    have stands : t.Stands ⟨[]⟩ := ⟨rfl, rfl⟩
    rw [evaluate_eq, parse_of_readsAs spelling (Term.readsAs stands)]
    obtain ⟨i, value, given⟩ := (Term.exact_eval stands).ok_of_met (by decide)
    exact given.trans (by rw [Int64.toInt_inj.mp (value.trans (by decide : t.value = (-3 : Int64).toInt))])
  · have dividend : (Value.float (Double.ofInt 7)).number? = some ((7 : ℤ) : ℚ) := value?_ofInt (by decide)
    have divisor : (Value.float (Double.ofInt (-2))).number? = some ((-2 : ℤ) : ℚ) := value?_ofInt (by decide)
    obtain ⟨z, divided, value⟩ :=
      applyBinary_floorDivide_float dividend divisor nofun (by decide) (by decide) (by decide)
    refine ⟨z, divided, value.trans ?_⟩
    push_cast
    rw [floored]
    norm_num

end Expr

end ConfigWeave
