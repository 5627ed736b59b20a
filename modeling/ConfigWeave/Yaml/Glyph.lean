namespace ConfigWeave.Yaml

/-- A character of a document and its place. `leading` says that only blanks stand in front of it on its
line. -/
structure Glyph where
  char : Char
  offset : Nat
  line : Nat
  column : Nat
  leading : Bool
deriving Repr, Inhabited

/-- What remains of a document. It ends in a null character that stands for the end of the text. -/
abbrev Source := List Glyph

def isBlank (c : Char) : Bool :=
  c == ' ' || c == '\t'

def isBreak (c : Char) : Bool :=
  c == '\n'

/-- A character that ends a line. -/
def isStop (c : Char) : Bool :=
  c == '\n' || c == '\x00'

def isBlankOrStop (c : Char) : Bool :=
  isBlank c || isStop c

/-- A bracket or comma of a flow collection. -/
def isFlow (c : Char) : Bool :=
  c == ',' || c == '[' || c == ']' || c == '\x7b' || c == '\x7d'

/-- A character of a name. -/
def isWord (c : Char) : Bool :=
  c.isAlphanum || c == '_' || c == '-'

def isHex (c : Char) : Bool :=
  c.isDigit || ('a' ≤ c && c ≤ 'f') || ('A' ≤ c && c ≤ 'F')

def hexValue (c : Char) : Nat :=
  if c.isDigit then c.toNat - '0'.toNat
  else if 'a' ≤ c then c.toNat - 'a'.toNat + 10
  else c.toNat - 'A'.toNat + 10

/-- The characters of a text from a place on. Carriage returns end lines as newlines do, the one in front
of a newline is a blank. The text ends where a null character stands. -/
def glyphsFrom (offset line column : Nat) (leading : Bool) : List Char → Source
  | [] => [⟨'\x00', offset, line, column, leading⟩]
  | c :: rest =>
    if c = '\x00' then [⟨'\x00', offset, line, column, leading⟩]
    else if c = '\r' ∧ rest.head? = some '\n' then
      match glyphsFrom (offset + 1) line column leading rest with
      | next :: more => { next with offset } :: more
      | [] => []
    else if c = '\n' ∨ c = '\r' then
      ⟨'\n', offset, line, column, leading⟩ :: glyphsFrom (offset + 1) (line + 1) 0 true rest
    else
      ⟨c, offset, line, column, leading⟩ :: glyphsFrom (offset + 1) line (column + 1) (leading && isBlank c) rest

def glyphs (text : String) : Source :=
  glyphsFrom 0 0 0 true text.toList

namespace Source

/-- The character to be read next. -/
def char (s : Source) : Char :=
  match s with
  | g :: _ => g.char
  | [] => '\x00'

/-- The character behind the next one. -/
def second (s : Source) : Char :=
  char s.tail

/-- The place of the next character. -/
def place (s : Source) : Glyph :=
  s.headD default

def column (s : Source) : Nat :=
  s.place.column

def offset (s : Source) : Nat :=
  s.place.offset

/-- Whether three equal characters stand by themselves. -/
def isRule (c : Char) : Source → Bool
  | a :: b :: d :: rest => a.char == c && b.char == c && d.char == c && isBlankOrStop (char rest)
  | _ => false

/-- Whether a document starts or ends here. -/
def isDocumentMark (s : Source) : Bool :=
  s.isRule '-' || s.isRule '.'

def dropBlanks (s : Source) : Source :=
  s.dropWhile fun g => isBlank g.char

def dropLine (s : Source) : Source :=
  s.dropWhile fun g => !isStop g.char

/-- Whether nothing but blanks and a comment remain on the line. -/
def endsLine (s : Source) : Bool :=
  let rest := s.dropBlanks
  isStop rest.char || rest.char == '#'

end Source

/-- What stands between a token and the rest of its line. -/
structure Gap where
  tabs : Bool
  spaces : Bool
  rest : Source

/-- Skips blanks, of tabs only on request, and a comment. A comment does not follow a token directly. -/
def Source.skipGap (s : Source) (tabs : Bool := true) : Option Gap :=
  let blank (g : Glyph) : Bool := g.char == ' ' || (tabs && g.char == '\t')
  let skipped := s.takeWhile blank
  let rest : Source := s.dropWhile blank
  let gap : Gap := ⟨skipped.any (·.char == '\t'), skipped.any (·.char == ' '), rest⟩
  if rest.char == '#' then
    if skipped.isEmpty then none else some { gap with rest := rest.dropLine }
  else some gap

end ConfigWeave.Yaml
