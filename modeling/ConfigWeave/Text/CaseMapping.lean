import ConfigWeave.Text.Letter
import ConfigWeave.Text.Table.CaseShift

namespace ConfigWeave.Text

private def mapCase (expansions : Array (Nat × List Nat)) (shifts : Array CaseShift) (c : Char) : List Char :=
  match entryAt? expansions c.toNat with
  | some codes => codes.map Char.ofNat
  | none =>
    match shifted? shifts c.toNat with
    | some code => [Char.ofNat code]
    | none => [c]

/-- The full upper case of one character, which may be several characters. -/
def upperOf (c : Char) : List Char :=
  if c.toNat < 0x80 then [c.toUpper] else mapCase upperExpansions upperShifts c

/-- The full lower case of one character on its own. -/
def lowerOf (c : Char) : List Char :=
  if c.toNat < 0x80 then [c.toLower] else mapCase lowerExpansions lowerShifts c

/-- A text with further characters at its end. -/
def pushAll (text : String) (cs : List Char) : String :=
  cs.foldl String.push text

def upper (text : String) : String :=
  text.foldl (fun out c => pushAll out (upperOf c)) ""

/-- Whether the first character that is not case-ignorable is a letter with a case. -/
def startsCased (text : List Char) : Bool :=
  (text.dropWhile isCaseIgnorable).head?.any isCased

/-- Appends the lower case of a text to `out`. A capital sigma that ends a word becomes the final small sigma;
`inWord` says whether the last character in front that is not case-ignorable is a letter with a case. -/
def appendLower (inWord : Bool) (out : String) : List Char → String
  | [] => out
  | c :: rest =>
    let here := if c = 'Σ' then [if inWord && !startsCased rest then 'ς' else 'σ'] else lowerOf c
    appendLower (if isCaseIgnorable c then inWord else isCased c) (pushAll out here) rest

def lower (text : String) : String :=
  appendLower false "" text.toList

/-- The text with a character in upper case at the front and behind every separator, and all others in lower
case on their own. -/
private def capitalizeBehind (isSeparator : Char → Bool) (text : String) : String :=
  (text.foldl (fun (starts, out) c => (isSeparator c, pushAll out (if starts then upperOf c else lowerOf c)))
    (true, "")).2

/-- The first character in upper case, each of the others in lower case on its own. -/
def capitalize (text : String) : String :=
  capitalizeBehind (fun _ => false) text

/-- Each part between spaces capitalized. -/
def title (text : String) : String :=
  capitalizeBehind (· == ' ') text

/-- The first character in upper case, the others as they are. -/
def capitalizeFirst : List Char → List Char
  | [] => []
  | c :: rest => upperOf c ++ rest

end ConfigWeave.Text
