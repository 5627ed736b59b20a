import ConfigWeave.Yaml.Glyph

namespace ConfigWeave.Yaml

/-- What becomes of the line breaks at the end of a block scalar. -/
inductive Chomping where
  | clip
  | strip
  | keep
deriving DecidableEq, Repr

def chomping? (c : Char) : Option Chomping :=
  match c with
  | '+' => some .keep
  | '-' => some .strip
  | _ => none

/-- What the indicators behind the first character of a block scalar ask for. -/
structure BlockHeader where
  chomping : Chomping
  indent : Option Nat
  rest : Source

/-- Reads the indicator of the indentation, a digit other than zero. -/
def indentIndicator (s : Source) : Option (Option Nat × Source) :=
  if s.char.isDigit then
    if s.char = '0' then none else some (some (hexValue s.char), s.tail)
  else some (none, s)

/-- Reads both indicators, in any order. -/
def blockHeader (s : Source) : Option BlockHeader := do
  match chomping? s.char with
  | some chomping =>
    let (indent, rest) ← indentIndicator s.tail
    return ⟨chomping, indent, rest⟩
  | none =>
    let (indent, rest) ← indentIndicator s
    match indent, chomping? rest.char with
    | some _, some chomping => return ⟨chomping, indent, rest.tail⟩
    | _, _ => return ⟨.clip, indent, rest⟩

/-- The blank lines in front of a text, with the width of the widest. -/
structure Margin where
  emptyLines : Nat
  width : Nat
  rest : Source

/-- Skips indentation, up to `limit` columns of it, and empty lines. -/
def marginFrom (limit : Option Nat) (emptyLines width : Nat) : Source → Margin
  | [] => ⟨emptyLines, width, []⟩
  | g :: rest =>
    if g.char = ' ' ∧ limit.all (g.column < ·) then marginFrom limit emptyLines width rest
    else if isBreak g.char then marginFrom limit (emptyLines + 1) (max width g.column) rest
    else ⟨emptyLines, max width g.column, g :: rest⟩

/-- The lines of a block scalar while they are read. `text` is in reverse; `broken` says that a line break
follows it, `emptyLines` counts the empty lines behind that, and `blank` tells whether the last line
started with a blank. -/
structure BlockText where
  text : List Char
  broken : Bool
  emptyLines : Nat
  blank : Bool
deriving Repr

namespace BlockText

/-- Adds the line breaks in front of a further line. A folded scalar writes a single one between two lines
that do not start with a blank as a space. -/
def startLine (t : BlockText) (literal blank : Bool) : BlockText :=
  let empty := List.replicate t.emptyLines '\n'
  let separator :=
    if !literal ∧ t.broken ∧ !t.blank ∧ !blank then (if t.emptyLines = 0 then [' '] else empty)
    else empty ++ (if t.broken then ['\n'] else [])
  ⟨separator ++ t.text, false, 0, blank⟩

/-- The text with as much of its end as is asked for. At the end of the document a last line that is
indented counts as ended. -/
def chomped (t : BlockText) (chomping : Chomping) (endsDocument : Bool) : List Char :=
  match chomping with
  | .strip => t.text.reverse
  | .clip => t.text.reverse ++ final
  | .keep => t.text.reverse ++ final ++ List.replicate t.emptyLines '\n'
where
  final := (if t.broken then ['\n'] else []) ++ if endsDocument then ['\n'] else []

end BlockText

/-- Reads the lines that are indented by `indent` columns; `inLine` says that a line has started. -/
def blockFrom (literal : Bool) (indent : Nat) (inLine : Bool) (t : BlockText) : Source → BlockText × Source
  | [] => (t, [])
  | g :: rest =>
    if g.char = '\x00' then (t, g :: rest)
    else if inLine then
      if isBreak g.char then blockFrom literal indent false { t with broken := true, emptyLines := 0 } rest
      else blockFrom literal indent true { t with text := g.char :: t.text } rest
    else if g.char = ' ' ∧ g.column < indent then blockFrom literal indent false t rest
    else if isBreak g.char then blockFrom literal indent false { t with emptyLines := t.emptyLines + 1 } rest
    else if g.column ≠ indent ∨ (indent = 0 ∧ Source.isRule '.' (g :: rest)) then (t, g :: rest)
    else
      let t := t.startLine literal (isBlank g.char)
      blockFrom literal indent true { t with text := g.char :: t.text } rest

/-- A block scalar, the offset at which its content starts, and what remains. -/
structure BlockScalar where
  text : List Char
  offset : Nat
  rest : Source

/-- Reads a block scalar behind its first character, which stands at `offset`. `indent` is the column of
the block around it. -/
def blockScalar (literal : Bool) (indent : Int) (offset : Nat) (s : Source) : Option BlockScalar := do
  let header ← blockHeader s
  let gap ← header.rest.skipGap
  guard (isStop gap.rest.char)
  let broken := isBreak gap.rest.char
  let content := if broken then gap.rest.tail else gap.rest
  guard (Source.char content ≠ '\t')
  let given := header.indent.map fun n => if 0 ≤ indent then indent.toNat + n else n
  let margin := marginFrom given 0 0 content
  let width := given.getD (max margin.width (indent + 1).toNat)
  if margin.rest.char = '\x00' then
    let text :=
      match header.chomping with
      | .strip => []
      | .clip => if broken then ['\n'] else []
      | .keep => if broken then List.replicate (max 1 margin.emptyLines) '\n' else []
    return ⟨text, offset, margin.rest⟩
  guard (¬ (margin.rest.column < width ∧ indent < margin.rest.column))
  let (text, rest) := blockFrom literal width false ⟨[], false, margin.emptyLines, false⟩ margin.rest
  let endsDocument := Source.char rest = '\x00' ∧ max width 1 ≤ Source.column rest
  return ⟨text.chomped header.chomping endsDocument, margin.rest.offset, rest⟩

end ConfigWeave.Yaml
