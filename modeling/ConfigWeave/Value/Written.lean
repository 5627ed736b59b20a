import ConfigWeave.Value.Basic
import ConfigWeave.Number.FloatText

namespace ConfigWeave

open Number

/-- Floats within text: positional from 0.0001 to below ten quadrillion. -/
def floatInText : FloatFormat := ⟨-4, 15, false, .up⟩

/-- Floats in JSON: positional from 0.00001 to below ten quadrillion, exponents carry their sign. -/
def floatInJson : FloatFormat := ⟨-5, 15, true, .toEven⟩

/-- The text of a float, infinities and NaN by name. -/
def floatText (x : Double) : String :=
  floatInText.text "inf" "NaN" x

/-- A character within a JSON string. Control characters without a letter of their own are written by
their code, all that is not ASCII stays as it is. -/
def jsonChar (c : Char) : List Char :=
  match c with
  | '"' => ['\\', '"']
  | '\\' => ['\\', '\\']
  | '\n' => ['\\', 'n']
  | '\r' => ['\\', 'r']
  | '\t' => ['\\', 't']
  | '\x08' => ['\\', 'b']
  | '\x0c' => ['\\', 'f']
  | c =>
    if c.toNat < 0x20 then
      ['\\', 'u', '0', '0', Nat.digitChar (c.toNat / 16), Nat.digitChar (c.toNat % 16)]
    else [c]

def jsonString (s : String) : String :=
  (s.foldl (fun out c => (jsonChar c).foldl String.push out) "\"").push '"'

namespace Value

mutual
/-- Compact JSON. Tags are dropped, keys are written by their text. -/
def json : Value → String
  | .null => "null"
  | .bool b => toString b
  | .int i => toString i.toInt
  | .float x => (floatInJson.render? x).getD "null"
  | .str s => jsonString s
  | .seq items => "[" ++ ",".intercalate (jsonItems items) ++ "]"
  | .map entries => "\x7b" ++ ",".intercalate (jsonEntries entries) ++ "\x7d"
  | .tagged _ _ payload => payload.json
/-- The text of a value within other text: null is empty, collections are JSON. -/
def display : Value → String
  | .null => ""
  | .bool b => toString b
  | .int i => toString i.toInt
  | .float x => floatText x
  | .str s => s
  | .seq items => "[" ++ ",".intercalate (jsonItems items) ++ "]"
  | .map entries => "\x7b" ++ ",".intercalate (jsonEntries entries) ++ "\x7d"
  | .tagged _ _ payload => payload.display
def jsonItems : List Value → List String
  | [] => []
  | v :: rest => v.json :: jsonItems rest
def jsonEntries : List (Value × Value) → List String
  | [] => []
  | (k, v) :: rest =>
    let key := match k with
      | .null => "null"
      | _ => k.display
    (jsonString key ++ ":" ++ v.json) :: jsonEntries rest
end

/-- The text of a value that serves as a name. -/
def keyText : Value → String
  | .null => "null"
  | v => v.display

end Value

end ConfigWeave
