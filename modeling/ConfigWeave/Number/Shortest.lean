namespace ConfigWeave.Number

/-- How two decimals of equal length that lie equally near are told apart. -/
inductive TieRule where
  | toEven
  | up
deriving DecidableEq, Repr

/-- A positive decimal `digits * 10 ^ exponent` whose last digit is not zero. -/
structure Decimal where
  digits : Nat
  exponent : Int
deriving DecidableEq, Repr

/-- The positive rational `num / den * 10 ^ (-k)` as a fraction of natural numbers. -/
private def scaled (num den : Nat) (k : Int) : Nat × Nat :=
  if 0 ≤ k then (num, den * Nat.pow 10 k.toNat) else (num * Nat.pow 10 (-k).toNat, den)

/-- The reals that round to a double, with their ends when `closed`, over the common denominator `den`. -/
structure Rounding where
  low : Nat
  value : Nat
  high : Nat
  den : Nat
  closed : Bool
deriving Repr

/-- The interval around `significand * 2 ^ exponent`. Below a power of two the next double is half as
far away. The ends round to an even significand. -/
def Rounding.of (significand : Nat) (exponent : Int) : Rounding :=
  let narrow := significand == Nat.pow 2 52 && decide (-1074 < exponent)
  let scale := Nat.pow 2 (exponent - 2).toNat
  { low := (4 * significand - if narrow then 1 else 2) * scale
    value := 4 * significand * scale
    high := (4 * significand + 2) * scale
    den := Nat.pow 2 (2 - exponent).toNat
    closed := significand % 2 == 0 }

/-- Whether `d * 10 ^ k` lies in the interval. -/
def Rounding.contains (r : Rounding) (d : Nat) (k : Int) : Bool :=
  let (num, den) := if 0 ≤ k then (d * Nat.pow 10 k.toNat * r.den, 1) else (d * r.den, Nat.pow 10 (-k).toNat)
  if r.closed then r.low * den ≤ num && num ≤ r.high * den else r.low * den < num && num < r.high * den

/-- The multiple of `10 ^ k` in the interval that is nearest to the value, if there is one. One of the
two neighbours of the value is in the interval whenever any multiple is. -/
def Rounding.onGrid? (r : Rounding) (tie : TieRule) (k : Int) : Option Nat :=
  let (num, den) := scaled r.value r.den k
  let below := num / den
  let rest := num % den
  match decide (0 < below) && r.contains below k, r.contains (below + 1) k with
  | true, true =>
    let upward := match tie with
      | .toEven => den < 2 * rest || (den == 2 * rest && below % 2 == 1)
      | .up => den ≤ 2 * rest
    some (if upward then below + 1 else below)
  | true, false => some below
  | false, true => some (below + 1)
  | false, false => none

/-- The exponent of the leading decimal digit of `num / den`, found upward from `k`. -/
private def leadingExponent (num den : Nat) : (steps : Nat) → Int → Int
  | 0, k => k
  | steps + 1, k =>
    let (n, d) := scaled num den (k + 1)
    if d ≤ n then leadingExponent num den steps (k + 1) else k

/-- Drops the zeros at the end, at most `steps` of them. -/
private def dropZeros : (steps : Nat) → Decimal → Decimal
  | 0, d => d
  | steps + 1, d => if d.digits % 10 == 0 then dropZeros steps ⟨d.digits / 10, d.exponent + 1⟩ else d

/-- The first grid of `10 ^ k`, `10 ^ (k - 1)`, … that has a point in the interval. -/
private def firstGrid (r : Rounding) (tie : TieRule) : (steps : Nat) → Int → Decimal
  | 0, k => ⟨r.value * Nat.pow 10 (-k).toNat / r.den, k⟩
  | steps + 1, k =>
    match r.onGrid? tie k with
    | some d => dropZeros 20 ⟨d, k⟩
    | none => firstGrid r tie steps (k - 1)

/-- The decimal with the fewest digits that reads back as `significand * 2 ^ exponent`, of those the
nearest. Seventeen digits always suffice. -/
def shortest (tie : TieRule) (significand : Nat) (exponent : Int) : Decimal :=
  let r := Rounding.of significand exponent
  let estimate := (significand.log2 + exponent) * 30103 / 100000 - 1
  firstGrid r tie 18 (leadingExponent r.value r.den 4 estimate)

end ConfigWeave.Number
