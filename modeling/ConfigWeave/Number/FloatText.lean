import ConfigWeave.Number.Binary64
import ConfigWeave.Number.Shortest

namespace ConfigWeave.Number

/-- How a format writes finite doubles. Those whose leading digit has an exponent from `lowest` to
`highest` are written with a point and at least one digit behind it, the others as digits and an
exponent. -/
structure FloatFormat where
  lowest : Int
  highest : Int
  /-- Whether an exponent that is not negative carries a sign. -/
  plusSign : Bool
  tie : TieRule
deriving Repr

private def zeros (n : Nat) : List Char :=
  List.replicate n '0'

/-- The digits with a point behind the one that has the exponent zero. -/
private def positional (digits : List Char) (leading : Int) : List Char :=
  if leading < 0 then '0' :: '.' :: zeros (-leading - 1).toNat ++ digits
  else
    let whole := leading.toNat + 1
    if digits.length ≤ whole then digits ++ zeros (whole - digits.length) ++ ['.', '0']
    else digits.take whole ++ '.' :: digits.drop whole

private def scientific (digits : List Char) (leading : Int) (plusSign : Bool) : List Char :=
  let fraction := match digits.drop 1 with
    | [] => []
    | rest => '.' :: rest
  let sign := if plusSign && 0 ≤ leading then ['+'] else []
  digits.take 1 ++ fraction ++ 'e' :: sign ++ (toString leading).toList

/-- The text of a finite double, `none` for infinities and NaN. -/
def FloatFormat.render? (format : FloatFormat) (x : Double) : Option String :=
  match Binary64.ofDouble x with
  | .finite negative significand exponent =>
    let body :=
      if significand = 0 then ['0', '.', '0']
      else
        let decimal := shortest format.tie significand exponent
        let digits := (toString decimal.digits).toList
        let leading := decimal.exponent + digits.length - 1
        if format.lowest ≤ leading && leading ≤ format.highest then positional digits leading
        else scientific digits leading format.plusSign
    some (String.ofList (if negative then '-' :: body else body))
  | _ => none

/-- The text of any double, given the names of infinity and NaN. -/
def FloatFormat.text (format : FloatFormat) (infinity nan : String) (x : Double) : String :=
  (format.render? x).getD
    (if x = .infinity then infinity else if x = -Double.infinity then "-" ++ infinity else nan)

end ConfigWeave.Number
