import ConfigWeave.Number.Read
import ConfigWeave.Value.Basic

namespace ConfigWeave.Scalar

/-- An integer behind its sign: decimal digits, or `0x` or `0o` with an integer of that base. -/
def unsigned? : List Char → Option Int64
  | '0' :: 'x' :: rest => Number.integer? 16 rest
  | '0' :: 'o' :: rest => Number.integer? 8 rest
  | digits => if digits.all Char.isDigit then Number.integer? 10 digits else none

/-- An integer after an optional sign. -/
def integer? : List Char → Option Int64
  | '-' :: digits => (unsigned? digits).map (-·)
  | '+' :: digits => unsigned? digits
  | digits => unsigned? digits

/-- The characters of decimals. -/
def inFloat (c : Char) : Bool :=
  c.isDigit || c == '.' || c == 'e' || c == 'E' || c == '+' || c == '-'

/-- A float: infinity and NaN by their names with a point, or a decimal. -/
def float? (text : String) : Option Double :=
  match text with
  | ".inf" | ".Inf" | ".INF" | "+.inf" | "+.Inf" | "+.INF" => some .infinity
  | "-.inf" | "-.Inf" | "-.INF" => some (-Double.infinity)
  | ".nan" | ".NaN" | ".NAN" => some .nan
  | _ =>
    let cs := text.toList
    if cs.all inFloat && cs.any Char.isDigit then Number.float? cs else none

/-- The null, boolean or number that a plain scalar stands for. Any other text stays a string. -/
def plain? (text : String) : Option Value :=
  match text with
  | "" | "~" | "null" | "Null" | "NULL" => some .null
  | "true" | "True" | "TRUE" => some (.bool true)
  | "false" | "False" | "FALSE" => some (.bool false)
  | _ => ((integer? text.toList).map .int) <|> ((float? text).map .float)

def plain (text : String) : Value :=
  (plain? text).getD (.str text)

/-- A scalar whose type is named by a tag of the core schema. A text that is not of the type stays a
string. -/
def ofType (name text : String) : Value :=
  let value : Option Value := match name with
    | "null" => some .null
    | "bool" =>
      match text with
      | "true" | "True" | "TRUE" => some (.bool true)
      | "false" | "False" | "FALSE" => some (.bool false)
      | _ => none
    | "int" => (integer? text.toList).map .int
    | "float" =>
      ((float? text) <|> ((integer? text.toList).map fun i => Double.ofInt i.toInt)).map .float
    | _ => none
  value.getD (.str text)

end ConfigWeave.Scalar
