import ConfigWeave.Yaml.BlockScalar
import ConfigWeave.Yaml.Property

namespace ConfigWeave.Yaml

/-- A token that turns out to start a key if a colon follows. A required one has to. -/
structure KeyCandidate where
  index : Nat
  place : Glyph
  required : Bool
deriving Repr

/-- A level of indentation: the column of the block around it, and whether a block of its own ends with
it. Other levels only ask their content to be indented. -/
structure Indent where
  outer : Int
  isBlock : Bool
deriving Repr

/-- Tokens read so far, in reverse, and what decides how to go on. `candidates` holds a place for a key at
every depth of flow collections, the innermost first. -/
structure Tokenizer where
  rest : Source
  reversed : List PlacedToken
  count : Nat
  keyAllowed : Bool
  candidates : List (Option KeyCandidate)
  indent : Int
  indents : List Indent
  flowDepth : Nat
  adjacentValueAt : Nat
  flowMappingStarted : Bool
  implicitMapping : Bool
  finished : Bool

namespace Tokenizer

def start (s : Source) : Tokenizer where
  rest := s
  reversed := []
  count := 0
  keyAllowed := true
  candidates := [none]
  indent := -1
  indents := []
  flowDepth := 0
  adjacentValueAt := 0
  flowMappingStarted := false
  implicitMapping := false
  finished := false

def inFlow (t : Tokenizer) : Bool :=
  0 < t.flowDepth

def push (t : Tokenizer) (offset : Nat) (token : Token) : Tokenizer :=
  { t with reversed := ⟨offset, token⟩ :: t.reversed, count := t.count + 1 }

/-- Puts a token in front of the one with the given index. -/
def insert (t : Tokenizer) (index offset : Nat) (token : Token) : Tokenizer :=
  { t with reversed := t.reversed.insertIdx (t.count - index) ⟨offset, token⟩, count := t.count + 1 }

/-- Whether a candidate is too far behind to start a key: on an earlier line, or by more than 1024
characters. -/
def isStale (t : Tokenizer) (key : KeyCandidate) : Bool :=
  key.place.line < t.rest.place.line || key.place.offset + 1024 < t.rest.offset

/-- Gives up the candidate that is too far behind. Within flow collections keys may be of any length. -/
def dropStale (t : Tokenizer) : Option Tokenizer :=
  match t.candidates with
  | some key :: outer =>
    if t.inFlow || !t.isStale key then some t
    else if key.required then none
    else some { t with candidates := none :: outer }
  | _ => some t

/-- Gives up the candidate of the innermost collection. -/
def dropCandidate (t : Tokenizer) : Option Tokenizer :=
  match t.candidates with
  | some key :: outer => if key.required then none else some { t with candidates := none :: outer }
  | _ => some t

/-- Makes the next token a candidate, if a key may stand here. -/
def addCandidate (t : Tokenizer) : Tokenizer :=
  if t.keyAllowed then
    let required := !t.inFlow && t.indent == t.rest.column && t.indents.head?.any Indent.isBlock
    { t with candidates := some ⟨t.count, t.rest.place, required⟩ :: t.candidates.tail }
  else t

/-- Leaves the levels of indentation beyond a column. Gives the new column and levels, and the number of
blocks that end. -/
def leaveLevels (target indent : Int) : List Indent → Int × List Indent × Nat
  | [] => (indent, [], 0)
  | level :: levels =>
    if target < indent then
      let (indent, rest, ended) := leaveLevels target level.outer levels
      (indent, rest, if level.isBlock then ended + 1 else ended)
    else (indent, level :: levels, 0)

/-- Ends the blocks that are indented beyond a column. Flow collections do not end so. -/
def endBlocks (t : Tokenizer) (target : Int) : Tokenizer :=
  if t.inFlow then t
  else
    let (indent, indents, ended) := leaveLevels target t.indent t.indents
    ended.fold (fun _ _ t => t.push t.rest.offset .blockEnd) { t with indent, indents }

/-- Starts a block at a column if it is indented, in front of the token with the given index if there is
one. A level without a block makes way for it. -/
def startBlock (t : Tokenizer) (column : Nat) (index : Option Nat) (offset : Nat) (token : Token) : Tokenizer :=
  if t.inFlow then t
  else
    let t :=
      match t.indents with
      | level :: levels =>
        if t.indent ≤ (column : Int) ∧ !level.isBlock then { t with indent := level.outer, indents := levels }
        else t
      | [] => t
    if t.indent < (column : Int) then
      let t := { t with indent := column, indents := ⟨t.indent, true⟩ :: t.indents }
      match index with
      | some index => t.insert index offset token
      | none => t.push offset token
    else t

/-- Asks what follows within a block to be indented by one more column. -/
def indentByOne (t : Tokenizer) : Tokenizer :=
  if !t.inFlow ∧ t.indents.head?.any Indent.isBlock then
    { t with indent := t.indent + 1, indents := ⟨t.indent, false⟩ :: t.indents }
  else t

/-- Leaves the innermost levels of indentation that have no block. -/
def leaveLoose (indent : Int) : List Indent → Int × List Indent
  | [] => (indent, [])
  | level :: levels => if level.isBlock then (indent, level :: levels) else leaveLoose level.outer levels

def dropLooseIndents (t : Tokenizer) : Tokenizer :=
  let (indent, indents) := leaveLoose t.indent t.indents
  { t with indent, indents }

/-- Ends the mapping that a colon has started within a flow sequence. -/
def endImplicitMapping (t : Tokenizer) : Tokenizer :=
  if t.implicitMapping then
    { t with implicitMapping := false, flowMappingStarted := false }.push t.rest.offset .flowMappingEnd
  else t

def readDirective (t : Tokenizer) : Option Tokenizer := do
  let t ← (t.endBlocks (-1)).dropCandidate
  let (token, rest) ← directive t.rest.tail
  return { t with rest, keyAllowed := false }.push t.rest.offset token

def readDocumentMark (t : Tokenizer) (token : Token) : Option Tokenizer := do
  let t ← (t.endBlocks (-1)).dropCandidate
  return { t with rest := t.rest.drop 3, keyAllowed := false }.push t.rest.offset token

def readDocumentEnd (t : Tokenizer) : Option Tokenizer := do
  let t ← t.readDocumentMark .documentEnd
  let gap ← t.rest.skipGap
  guard (isStop gap.rest.char)
  return { t with rest := gap.rest }

def readFlowStart (t : Tokenizer) (token : Token) : Option Tokenizer := do
  guard (t.flowDepth < 255)
  let t := t.addCandidate.indentByOne
  let gap ← Source.skipGap t.rest.tail
  return { t with
    rest := gap.rest
    keyAllowed := true
    candidates := none :: t.candidates
    flowDepth := t.flowDepth + 1
    flowMappingStarted := t.flowMappingStarted || token == Token.flowMappingStart }.push t.rest.offset token

def readFlowEnd (t : Tokenizer) (token : Token) : Option Tokenizer := do
  let t ← t.dropCandidate
  let t := if t.inFlow then { t with flowDepth := t.flowDepth - 1, candidates := t.candidates.tail } else t
  let t := { t with keyAllowed := false }.endImplicitMapping
  let gap ← Source.skipGap t.rest.tail
  let adjacentValueAt := if t.inFlow then gap.rest.offset else t.adjacentValueAt
  return { t with rest := gap.rest, adjacentValueAt }.push t.rest.offset token

def readFlowEntry (t : Tokenizer) : Option Tokenizer := do
  let t := { ← t.dropCandidate with keyAllowed := true }.endImplicitMapping
  let gap ← Source.skipGap t.rest.tail
  return { t with rest := gap.rest }.push t.rest.offset .flowEntry

/-- The entry of a block sequence counts as standing where its content starts, if that is on its line. -/
def readBlockEntry (t : Tokenizer) : Option Tokenizer := do
  guard (!t.inFlow ∧ t.keyAllowed)
  let t := t.startBlock t.rest.column none t.rest.offset .blockSequenceStart
  let gap ← Source.skipGap t.rest.tail
  guard (¬ (gap.tabs ∧ gap.rest.char = '-' ∧ isBlankOrStop gap.rest.second))
  let t := if isBreak gap.rest.char || isFlow gap.rest.char then t.indentByOne else t
  let t ← t.dropCandidate
  return { t with rest := gap.rest, keyAllowed := true }.push gap.rest.offset .blockEntry

/-- Skips spaces, line breaks and comments. -/
def skipLines (comment : Bool) : Source → Source
  | [] => []
  | g :: rest =>
    if comment ∧ !isStop g.char then skipLines true rest
    else if g.char = ' ' ∨ g.char = '\n' then skipLines false rest
    else if g.char = '#' then skipLines true rest
    else g :: rest

def readComplexKey (t : Tokenizer) : Option Tokenizer := do
  guard (t.inFlow ∨ t.keyAllowed)
  let offset := t.rest.offset
  let t := t.startBlock t.rest.column none offset .blockMappingStart
  let t ← t.dropCandidate
  guard (t.rest.second = ' ' ∨ isBreak t.rest.second)
  let rest := skipLines false t.rest.tail
  guard (rest.char ≠ '\t')
  return { t with
    rest
    keyAllowed := !t.inFlow
    flowMappingStarted := t.flowMappingStarted || t.inFlow }.push offset .key

/-- Skips tabs behind a colon. A word does not follow them without a space. -/
def skipValueGap (s : Source) : Option Source :=
  if s.char = '\t' then do
    let gap ← s.skipGap
    guard (gap.spaces ∨ ¬ (gap.rest.char = '-' ∨ isWord gap.rest.char))
    return gap.rest
  else some s

/-- A colon makes the candidate a key. The mapping that it starts counts as standing at the colon. Within a
flow sequence it starts a mapping of a single entry. -/
def readValue (t : Tokenizer) : Option Tokenizer := do
  let place := t.rest.place
  let implicitMapping := t.inFlow && !t.flowMappingStarted
  let rest ← skipValueGap t.rest.tail
  let t := { t with rest, implicitMapping }
  match t.candidates with
  | some key :: outer =>
    guard (¬ (implicitMapping ∧ key.place.line < place.line))
    let t := t.insert key.index key.place.offset .key
    let t := if implicitMapping then t.insert key.index rest.offset .flowMappingStart else t
    let t := (t.startBlock key.place.column (some key.index) place.offset .blockMappingStart).indentByOne
    return { t with candidates := none :: outer, keyAllowed := false }.push place.offset .value
  | _ =>
    guard (t.inFlow ∨ t.keyAllowed)
    let t := if implicitMapping then t.push rest.offset .flowMappingStart else t
    let t := (t.startBlock place.column none place.offset .blockMappingStart).indentByOne
    return { t with keyAllowed := !t.inFlow }.push place.offset .value

def readAnchor (t : Tokenizer) (token : String → Token) : Option Tokenizer := do
  let t := t.addCandidate
  let (name, rest) ← anchorName t.rest.tail
  return { t with rest, keyAllowed := false }.push t.rest.offset (token name)

def readTag (t : Tokenizer) : Option Tokenizer := do
  let t := t.addCandidate
  let (token, rest) ← tagToken t.rest
  guard (isBlankOrStop rest.char ∨ (t.inFlow ∧ isFlow rest.char))
  return { t with rest, keyAllowed := false }.push t.rest.offset token

def readBlockScalar (t : Tokenizer) (literal : Bool) : Option Tokenizer := do
  let t := t.addCandidate.dropLooseIndents
  let scalar ← blockScalar literal t.indent t.rest.offset t.rest.tail
  let style := if literal then ScalarStyle.literal else ScalarStyle.folded
  return { t with rest := scalar.rest, keyAllowed := true }.push scalar.offset
    (.scalar style (String.ofList scalar.text))

/-- Skips blanks, line breaks and comments. Tells whether there was a line break. Tabs do not serve as
indentation in front of content, which `indent` columns are for. -/
def skipToToken (indent : Int) (comment : Bool) : Source → Option (Source × Bool)
  | [] => some ([], false)
  | g :: rest =>
    if comment ∧ !isStop g.char then skipToToken indent true rest
    else if g.char = '\t' ∧ g.leading ∧ g.column < indent ∧ !Source.endsLine rest then none
    else if isBlank g.char then skipToToken indent false rest
    else if g.char = '\n' then (skipToToken indent false rest).map fun (rest, _) => (rest, true)
    else if g.char = '#' then skipToToken indent true rest
    else some (g :: rest, false)

def skip (t : Tokenizer) : Option Tokenizer := do
  let (rest, crossed) ← skipToToken t.indent false t.rest
  return { t with rest, keyAllowed := t.keyAllowed || (crossed && !t.inFlow) }

/-- Whether a character may follow a quoted scalar that starts on the given line. -/
def mayFollowQuoted (t : Tokenizer) (line : Nat) (next : Glyph) : Bool :=
  match next.char with
  | ',' | '\x7d' | ']' => t.inFlow
  | ':' => t.inFlow || line == next.line
  | c => isStop c

def readQuoted (t : Tokenizer) (single : Bool) : Option Tokenizer := do
  let t := t.addCandidate
  let place := t.rest.place
  let (text, rest) ← quotedScalar single t.indent t.rest.tail
  let gap ← Source.skipGap rest
  guard (t.mayFollowQuoted place.line gap.rest.place)
  let t ← { t with rest := gap.rest, keyAllowed := false }.skip
  let style := if single then ScalarStyle.singleQuoted else ScalarStyle.doubleQuoted
  return { t with adjacentValueAt := t.rest.offset }.push place.offset (.scalar style (String.ofList text))

def readPlain (t : Tokenizer) : Option Tokenizer := do
  let t := t.addCandidate.dropLooseIndents
  guard (¬ (t.inFlow ∧ t.rest.column < t.indent + 1))
  let (text, rest) ← plainScalar t.inFlow (t.indent + 1) t.rest
  return { t with rest, keyAllowed := rest.place.leading }.push t.rest.offset
    (.scalar .plain (String.ofList text))

/-- At the end of the text no key may be outstanding, and all blocks end. -/
def readEnd (t : Tokenizer) : Option Tokenizer := do
  guard (t.candidates.all fun candidate => candidate.all fun key => !key.required)
  let t := { t with candidates := t.candidates.map fun _ => none }.endBlocks (-1)
  return { t with keyAllowed := false, finished := true }.push t.rest.offset .streamEnd

/-- Reads the token that starts with the next character. -/
def readToken (t : Tokenizer) : Option Tokenizer :=
  let next := t.rest.second
  match t.rest.char with
  | '[' => t.readFlowStart .flowSequenceStart
  | '\x7b' => t.readFlowStart .flowMappingStart
  | ']' => t.readFlowEnd .flowSequenceEnd
  | '\x7d' => t.readFlowEnd .flowMappingEnd
  | ',' => t.readFlowEntry
  | '*' => t.readAnchor .alias
  | '&' => t.readAnchor .anchor
  | '!' => t.readTag
  | '\'' => t.readQuoted true
  | '"' => t.readQuoted false
  | '%' | '@' | '\x60' => none
  | '|' => if t.inFlow then t.readPlain else t.readBlockScalar true
  | '>' => if t.inFlow then t.readPlain else t.readBlockScalar false
  | '-' => if isBlankOrStop next then t.readBlockEntry else t.readPlain
  | '?' => if isBlankOrStop next then t.readComplexKey else t.readPlain
  | ':' =>
    if isBlankOrStop next || (t.inFlow && (isFlow next || t.rest.offset == t.adjacentValueAt)) then t.readValue
    else t.readPlain
  | _ => t.readPlain

/-- Reads a further token, with those that it brings about. -/
def step (t : Tokenizer) : Option Tokenizer := do
  let t ← (← t.skip).dropStale
  let t := t.endBlocks t.rest.column
  if t.rest.char = '\x00' then t.readEnd
  else if t.rest.column < t.indent then none
  else if t.rest.column = 0 ∧ t.rest.char = '%' then t.readDirective
  else if t.rest.column = 0 ∧ t.rest.isRule '-' then t.readDocumentMark .documentStart
  else if t.rest.column = 0 ∧ t.rest.isRule '.' then t.readDocumentEnd
  else t.readToken

/-- The tokens that are settled: those in front of all candidates for a key. -/
def settled (t : Tokenizer) : List PlacedToken :=
  let outstanding := t.candidates.filterMap fun candidate =>
    candidate.filter fun key => t.inFlow || key.required || !t.isStale key
  t.reversed.reverse.take ((outstanding.map KeyCandidate.index).foldl min t.count)

/-- Reads on until the end of the text, or to where it is not well-formed. Every step reads a character. -/
def run : (fuel : Nat) → Tokenizer → List PlacedToken
  | 0, t => t.settled
  | fuel + 1, t =>
    if t.finished then t.reversed.reverse
    else
      match t.step with
      | some t => run fuel t
      | none => t.settled

end Tokenizer

/-- The tokens of a text. Where the text is not well-formed they end, without one for the end of the
stream. -/
def tokens (text : String) : List PlacedToken :=
  let s := glyphs text
  Tokenizer.run (s.length + 1) (.start s)

end ConfigWeave.Yaml
