import ConfigWeave.Number.Read
import ConfigWeave.Value.Written

namespace ConfigWeave

open Number

/-- Floats in a block document: positional from 0.00001 to below ten quadrillion. -/
def floatInBlock : FloatFormat := ⟨-5, 15, false, .toEven⟩

/-- How a string is written in a block document. -/
inductive QuoteStyle where
  | bare
  | single
  | double
  | literal
deriving DecidableEq, Repr

/-- The greatest magnitude of a number that counts as an integer, with and without a minus sign. -/
private def greatestPlain (negative : Bool) : Nat :=
  if negative then 170141183460469231731687303715884105728 else 340282366920938463463374607431768211455

/-- A text without its sign. -/
private def unsigned : List Char → List Char
  | '-' :: rest | '+' :: rest => rest
  | text => text

/-- Whether a text of digits starts with a needless zero, which makes it a string. -/
private def hasLeadingZero (text : List Char) : Bool :=
  match unsigned text with
  | '0' :: d :: rest => (d :: rest).all Char.isDigit
  | _ => false

/-- Whether a text is that of an integer: in decimal, or behind `0x`, `0o` or `0b`. Beyond 128 bits it is
none. -/
private def looksInteger (text : List Char) : Bool :=
  let limit := greatestPlain (text.head? == some '-')
  match unsigned text with
  | '0' :: 'x' :: digits => (Number.natural? 16 limit digits).isSome
  | '0' :: 'o' :: digits => (Number.natural? 8 limit digits).isSome
  | '0' :: 'b' :: digits => (Number.natural? 2 limit digits).isSome
  | digits => (Number.natural? 10 limit digits).isSome

private def looksFloat (text : String) : Bool :=
  match text with
  | ".inf" | ".Inf" | ".INF" | "+.inf" | "+.Inf" | "+.INF" | "-.inf" | "-.Inf" | "-.INF" | ".nan" | ".NaN"
  | ".NAN" => true
  | _ =>
    match text.toList with
    | '+' :: '+' :: _ | '+' :: '-' :: _ => false
    | cs => (Number.float? cs).any Number.isFinite

/-- Whether a text would be read back as something other than a string. -/
def looksTyped (text : String) : Bool :=
  match text with
  | "" | "~" | "null" | "Null" | "NULL" | "true" | "True" | "TRUE" | "false" | "False" | "FALSE" => true
  | _ => hasLeadingZero text.toList || looksInteger text.toList || looksFloat text

/-- The characters that can be written as they are. -/
private def isPrintable (c : Char) : Bool :=
  let n := c.toNat
  n == 0x0a || (0x20 ≤ n && n ≤ 0x7e) || (0xa0 ≤ n && n != 0xfeff && n != 0xfffe && n != 0xffff)

private def isLineBreak (c : Char) : Bool :=
  c == '\n' || c == '\r' || c == '\u0085' || c == '\u2028' || c == '\u2029'

/-- Whether a character would start something other than a bare string. -/
private def opensSyntax (c : Char) (next : Option Char) : Bool :=
  "#,[]\x7b\x7d&*!|>'\"%@\x60".toList.contains c || ((c == '?' || c == ':' || c == '-') && next.all (· == ' '))

/-- Whether a bare string would end within the text: at a colon in front of a blank, or a hash sign behind
one. -/
private def breaksSyntax (previous : Char) : List Char → Bool
  | [] => false
  | c :: rest => (c == ':' && rest.head?.all (· == ' ')) || (c == '#' && previous == ' ') || breaksSyntax c rest

/-- Whether somewhere a character that satisfies `p` stands in front of one that satisfies `q`. -/
private def hasPair (p q : Char → Bool) : List Char → Bool
  | a :: b :: rest => (p a && q b) || hasPair p q (b :: rest)
  | _ => false

/-- The plainest way to write a string so that it reads back. -/
def quoteStyle (text : String) : QuoteStyle :=
  let cs := text.toList
  if !cs.all isPrintable || hasPair (· == ' ') isLineBreak cs then .double
  else if cs.contains '\n' then (if cs.getLast? == some ' ' then .double else .literal)
  else if cs.any isLineBreak then (if hasPair isLineBreak (· == ' ') cs then .double else .single)
  else
    let syntactic := match cs with
      | [] => true
      | c :: rest => opensSyntax c rest.head? || breaksSyntax c rest
    let marked := ['-', '-', '-'].isPrefixOf cs || ['.', '.', '.'].isPrefixOf cs
    let padded := cs.head? == some ' ' || cs.getLast? == some ' '
    if looksTyped text || syntactic || marked || padded then .single else .bare

/-- A character within double quotes. -/
private def escapedInBlock (c : Char) : List Char :=
  let digits (count n : Nat) : List Char :=
    ((List.range count).map fun i => (Nat.digitChar (n / Nat.pow 16 i % 16)).toUpper).reverse
  match c with
  | '\x00' => ['\\', '0']
  | '\x07' => ['\\', 'a']
  | '\x08' => ['\\', 'b']
  | '\t' => ['\\', 't']
  | '\n' => ['\\', 'n']
  | '\x0b' => ['\\', 'v']
  | '\x0c' => ['\\', 'f']
  | '\r' => ['\\', 'r']
  | '\x1b' => ['\\', 'e']
  | '"' => ['\\', '"']
  | '\\' => ['\\', '\\']
  | '\u0085' => ['\\', 'N']
  | '\u00a0' => [c]
  | '\u2028' => ['\\', 'L']
  | '\u2029' => ['\\', 'P']
  | c =>
    if isPrintable c then [c]
    else if c.toNat ≤ 0xff then '\\' :: 'x' :: digits 2 c.toNat
    else if c.toNat ≤ 0xffff then '\\' :: 'u' :: digits 4 c.toNat
    else '\\' :: 'U' :: digits 8 c.toNat

/-- What stands behind the bar of a literal string: the width of the indentation where the first line does
not show it, and what becomes of the line breaks at the end. -/
private def literalHeader (text : List Char) : String :=
  let width := if text.head?.any fun c => c == ' ' || isLineBreak c then "2" else ""
  let ending := match text.reverse with
    | [c] => if isLineBreak c then "+" else "-"
    | c :: d :: _ => if !isLineBreak c then "-" else if isLineBreak d then "+" else ""
    | [] => "-"
  "|" ++ width ++ ending

/-- A string in the style that fits it, as it stands at the margin. -/
def blockString (text : String) : String :=
  match quoteStyle text with
  | .bare => text
  | .single => "'" ++ String.ofList (text.toList.flatMap fun c => if c == '\'' then [c, c] else [c]) ++ "'"
  | .double => "\"" ++ String.ofList (text.toList.flatMap escapedInBlock) ++ "\""
  | .literal => literalHeader text.toList ++ "\n" ++ text

/-- Cuts a text behind its line breaks. A line keeps its break, unless that is a line feed. -/
private def linesOf : List Char → List (List Char)
  | [] => []
  | c :: rest =>
    if c == '\n' then [] :: linesOf rest
    else if isLineBreak c then [c] :: linesOf rest
    else
      match linesOf rest with
      | [] => [[c]]
      | line :: others => (c :: line) :: others

/-- Moves a line two columns to the right, unless there is nothing on it. -/
private def indented (line : String) : String :=
  if line.toList.all isLineBreak then line else "  " ++ line

/-- Writes lines behind a lead. The further lines are moved to the right. -/
private def hang (lead : String) : List String → List String
  | [] => [lead]
  | line :: others => (lead ++ line) :: others.map indented

/-- A line with the break that ends it. -/
private def ended (line : String) : String :=
  if line.toList.getLast?.any isLineBreak then line else line ++ "\n"

/-- Whether a key stands on one line with its colon: it has no line break and at most 128 bytes. -/
def isSimpleKey (key : String) : Bool :=
  !key.toList.any isLineBreak && key.utf8ByteSize ≤ 128

private def stringLines (text : String) : List String :=
  (linesOf (blockString text).toList).map String.ofList

/-- Writes the lines of a value behind its key. Below a simple key a mapping stands on lines of its own that
are moved to the right, and a sequence on lines that are not. -/
private def entryLines (key : String) (value : Value) (lines : List String) : List String :=
  if isSimpleKey key then
    match value.bare with
    | .map (_ :: _) => (blockString key ++ ":") :: lines.map indented
    | .seq (_ :: _) => (blockString key ++ ":") :: lines
    | _ => hang (blockString key ++ ": ") lines
  else hang "? " (stringLines key) ++ hang ": " lines

namespace Value

mutual
/-- The lines of a node in block style. Tags are dropped, keys are written by their text. -/
def blockLines : Value → List String
  | .null => ["null"]
  | .bool b => [toString b]
  | .int i => [toString i.toInt]
  | .float x => [floatInBlock.text ".inf" ".nan" x]
  | .str s => stringLines s
  | .seq [] => ["[]"]
  | .map [] => ["\x7b\x7d"]
  | .seq (v :: rest) => blockItems (v :: rest)
  | .map (entry :: rest) => blockEntries (entry :: rest)
  | .tagged _ _ payload => payload.blockLines
def blockItems : List Value → List String
  | [] => []
  | v :: rest => hang "- " v.blockLines ++ blockItems rest
def blockEntries : List (Value × Value) → List String
  | [] => []
  | (k, v) :: rest => entryLines k.keyText v v.blockLines ++ blockEntries rest
end

/-- The value as a document in block style. -/
def blockDocument (v : Value) : String :=
  let lines := match v.bare with
    | .str _ => hang "" v.blockLines
    | _ => v.blockLines
  lines.foldl (fun text line => text ++ ended line) ""

end Value

end ConfigWeave
