import ConfigWeave.Number.Binary64
import ConfigWeave.Number.Bounded

namespace ConfigWeave.Number

/-- The value of a digit in a base of at most sixteen. -/
def digit? (base : Nat) (c : Char) : Option Nat :=
  let value :=
    if '0' ≤ c ∧ c ≤ '9' then some (c.toNat - '0'.toNat)
    else if 'a' ≤ c ∧ c ≤ 'f' then some (c.toNat - 'a'.toNat + 10)
    else if 'A' ≤ c ∧ c ≤ 'F' then some (c.toNat - 'A'.toNat + 10)
    else none
  value.filter (· < base)

/-- The number written by the digits that follow a leading part of value `lead`, unless it exceeds
`limit`. -/
def digitsFrom? (base limit lead : Nat) : List Char → Option Nat
  | [] => some lead
  | c :: rest =>
    match digit? base c with
    | none => none
    | some d => if lead * base + d ≤ limit then digitsFrom? base limit (lead * base + d) rest else none

/-- The number of at most `limit` that is written by at least one digit and nothing else. -/
def natural? (base limit : Nat) : List Char → Option Nat
  | [] => none
  | text => digitsFrom? base limit 0 text

/-- The greatest magnitude of an integer, which is that of the least one. -/
def greatestMagnitude : Nat := 9223372036854775808

/-- The integer written by digits after an optional sign, if it is in range. -/
def integer? (base : Nat) : List Char → Option Int64
  | '-' :: digits => do bounded? (-(← natural? base greatestMagnitude digits))
  | '+' :: digits => do bounded? (← natural? base greatestMagnitude digits)
  | digits => do bounded? (← natural? base greatestMagnitude digits)

/-- The value of decimal digits. -/
private def significand (digits : List Char) : Nat :=
  digits.foldl (fun value c => value * 10 + (c.toNat - '0'.toNat)) 0

/-- The double nearest to an integer times a power of ten. Beyond the range of doubles the answer is
decided by the number of digits alone. -/
def nearestDouble (digits : Nat) (exponent : Int) : Double :=
  let magnitude := (toString digits).length + exponent
  if digits = 0 || magnitude < -400 then .ofNat 0
  else if 400 < magnitude then .infinity
  else .ofFloat (Float.ofScientific digits (decide (exponent < 0)) exponent.natAbs)

/-- The double nearest to decimal digits times a power of ten. Two neighbouring doubles are told apart by
fewer than eight hundred digits; of those behind them it matters only whether all are zero. -/
def nearestToDigits (digits : List Char) (exponent : Int) : Double :=
  let leading := digits.dropWhile (· == '0')
  let kept := significand (leading.take 800)
  let dropped := leading.drop 800
  if dropped.all (· == '0') then nearestDouble kept (exponent + dropped.length)
  else nearestDouble (kept * 10 + 1) (exponent + dropped.length - 1)

/-- The value of an exponent's digits. Once it is beyond sixteen bits further digits do not count. -/
def exponentFrom? (lead : Nat) : List Char → Option Nat
  | [] => some lead
  | c :: rest =>
    match digit? 10 c with
    | none => none
    | some d => exponentFrom? (if lead < 65536 then lead * 10 + d else lead) rest

/-- The exponent written by at least one digit and nothing else. -/
def exponentDigits? : List Char → Option Nat
  | [] => none
  | text => exponentFrom? 0 text

/-- The exponent part of a decimal: nothing, or an `e` with a signed integer. -/
def exponent? : List Char → Option Int
  | [] => some 0
  | e :: text =>
    if e = 'e' || e = 'E' then
      match text with
      | '-' :: digits => (exponentDigits? digits).map (-·)
      | '+' :: digits => (exponentDigits? digits).map (·)
      | digits => (exponentDigits? digits).map (·)
    else none

/-- A decimal without sign: digits with at most one point among them, at least one digit, and an
optional exponent. -/
def magnitude? (text : List Char) : Option Double := do
  let whole := text.takeWhile Char.isDigit
  let afterWhole := text.dropWhile Char.isDigit
  let (fraction, rest) := match afterWhole with
    | '.' :: tail => (tail.takeWhile Char.isDigit, tail.dropWhile Char.isDigit)
    | _ => ([], afterWhole)
  if whole.isEmpty && fraction.isEmpty then none
  let exponent ← exponent? rest
  some (nearestToDigits (whole ++ fraction) (exponent - fraction.length))

/-- Infinity or NaN by its name in letters of any case. -/
def special? (text : List Char) : Option Double :=
  match String.ofList ((text.take 9).map Char.toLower) with
  | "inf" | "infinity" => some .infinity
  | "nan" => some .nan
  | _ => none

/-- The double written by an optional sign and a decimal, `inf`, `infinity` or `nan`. -/
def float? : List Char → Option Double
  | '-' :: text => ((special? text) <|> magnitude? text).map fun x => -x
  | '+' :: text => (special? text) <|> magnitude? text
  | text => (special? text) <|> magnitude? text

end ConfigWeave.Number
