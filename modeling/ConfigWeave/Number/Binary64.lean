namespace ConfigWeave

/-- A double by its 64 bits. They tell apart the NaNs that `Float` takes for a single one. -/
structure Double where
  bits : UInt64
deriving DecidableEq, Repr

namespace Double

/-- The number on which arithmetic is done. -/
def toFloat (x : Double) : Float :=
  Float.ofBits x.bits

/-- A result of arithmetic. If it is no number, it is the quiet NaN without a sign. -/
def ofFloat (x : Float) : Double :=
  ⟨x.toBits⟩

def ofNat (n : Nat) : Double :=
  ofFloat (Float.ofNat n)

def ofInt (i : Int) : Double :=
  ofFloat (Float.ofInt i)

def infinity : Double :=
  ⟨0x7FF0000000000000⟩

def nan : Double :=
  ⟨0x7FF8000000000000⟩

instance : Add Double := ⟨fun x y => ofFloat (x.toFloat + y.toFloat)⟩

instance : Sub Double := ⟨fun x y => ofFloat (x.toFloat - y.toFloat)⟩

instance : Mul Double := ⟨fun x y => ofFloat (x.toFloat * y.toFloat)⟩

instance : Div Double := ⟨fun x y => ofFloat (x.toFloat / y.toFloat)⟩

/-- The sign bit alone is turned over, also that of a NaN. -/
instance : Neg Double := ⟨fun x => ⟨x.bits ^^^ 0x8000000000000000⟩⟩

def abs (x : Double) : Double :=
  ⟨x.bits &&& 0x7FFFFFFFFFFFFFFF⟩

/-- Equality of numbers, by which the two zeros are equal and a NaN does not even equal itself. -/
def sameNumber (x y : Double) : Bool :=
  x.toFloat == y.toFloat

def isZero (x : Double) : Bool :=
  x.toFloat == 0.0

end Double

namespace Number

/-- What a double stands for. A finite one is `significand * 2 ^ exponent` with a sign of its own, so
that negative zero keeps it. -/
inductive Binary64 where
  | nan
  | infinite (negative : Bool)
  | finite (negative : Bool) (significand : Nat) (exponent : Int)
deriving DecidableEq, Repr

def Binary64.ofDouble (x : Double) : Binary64 :=
  let bits := x.bits.toNat
  let negative := decide (Nat.pow 2 63 ≤ bits)
  let field := bits / Nat.pow 2 52 % Nat.pow 2 11
  let fraction := bits % Nat.pow 2 52
  if field = 2047 then if fraction = 0 then .infinite negative else .nan
  else if field = 0 then .finite negative fraction (-1074)
  else .finite negative (fraction + Nat.pow 2 52) (Int.ofNat field - 1075)

/-- The double with the given sign and a magnitude that is an exact double. -/
def signed (negative : Bool) (magnitude : Double) : Double :=
  if negative then -magnitude else magnitude

/-- The power of two with an exponent from -1074 to 1023. -/
private def powerOfTwo (exponent : Int) : Double :=
  if -1022 ≤ exponent then ⟨UInt64.ofNat ((exponent + 1023).toNat * Nat.pow 2 52)⟩
  else ⟨UInt64.ofNat (Nat.pow 2 (exponent + 1074).toNat)⟩

/-- The whole part of `significand * 2 ^ exponent` and whether nothing is left of it. -/
def wholePart (significand : Nat) (exponent : Int) : Nat × Bool :=
  if 0 ≤ exponent then (significand * Nat.pow 2 exponent.toNat, true)
  else (significand / Nat.pow 2 (-exponent).toNat, significand % Nat.pow 2 (-exponent).toNat == 0)

/-- The integer that remains when the fraction is dropped. -/
def truncate? (x : Double) : Option Int :=
  match Binary64.ofDouble x with
  | .finite negative significand exponent =>
    let whole := (wholePart significand exponent).1
    some (if negative then -whole else whole)
  | _ => none

/-- The greatest whole number that is not above `x`. -/
def floor (x : Double) : Double :=
  match Binary64.ofDouble x with
  | .finite negative significand exponent =>
    let (whole, exact) := wholePart significand exponent
    signed negative (Double.ofNat (if negative && !exact then whole + 1 else whole))
  | _ => x

/-- The nearest whole number, a half goes away from zero. -/
def roundHalfAway (x : Double) : Double :=
  match Binary64.ofDouble x with
  | .finite negative significand exponent =>
    let twice := (wholePart significand (exponent + 1)).1
    signed negative (Double.ofNat ((twice + 1) / 2))
  | _ => x

/-- `x` rounded to a number of decimal places between -15 and 15. -/
def roundTo (places : Int) (x : Double) : Double :=
  let power := Double.ofNat (Nat.pow 10 places.natAbs)
  let factor := if 0 ≤ places then power else Double.ofNat 1 / power
  roundHalfAway (x * factor) / factor

/-- The exact remainder of the division of `x` by `y` with the sign of `x`. -/
def remainder (x y : Double) : Double :=
  match Binary64.ofDouble x, Binary64.ofDouble y with
  | .finite negative m p, .finite _ n q =>
    if n = 0 then .nan
    else
      let shared := min p q
      let rest := m * Nat.pow 2 (p - shared).toNat % (n * Nat.pow 2 (q - shared).toNat)
      signed negative (Double.ofNat rest * powerOfTwo shared)
  | .finite .., .infinite _ => x
  | _, _ => .nan

/-- The remainder that is not negative. -/
def modulo (x y : Double) : Double :=
  let rest := remainder x y
  if rest.toFloat < 0.0 then rest + y.abs else rest

/-- Doubles in their total order: those with a sign below those without, also for zero, and a NaN further out than
infinity. -/
def orderKey (x : Double) : Int :=
  let bits := x.bits.toNat
  if bits < Nat.pow 2 63 then bits else (Nat.pow 2 63 : Int) - bits - 1

def isFinite (x : Double) : Bool :=
  match Binary64.ofDouble x with
  | .finite .. => true
  | _ => false

end Number

end ConfigWeave
