import ConfigWeave.Yaml.FlowScalar
import ConfigWeave.Yaml.Token

namespace ConfigWeave.Yaml

def isUriChar (c : Char) : Bool :=
  isWord c || "#;/?:@&=+$,.!~*'()[]%".toList.contains c

/-- A character of a tag behind its handle. -/
def isTagChar (c : Char) : Bool :=
  isUriChar c && !isFlow c && c != '!'

/-- A character of the name of an anchor. -/
def isAnchorChar (c : Char) : Bool :=
  !isBlankOrStop c && !isFlow c && c != '\ufeff'

/-- The byte that is written as a percent sign and two digits. -/
def escapedByte? : Source → Option Nat
  | percent :: high :: low :: _ =>
    if percent.char == '%' && isHex high.char && isHex low.char then
      some (hexValue high.char * 16 + hexValue low.char)
    else none
  | _ => none

/-- How many bytes follow the first byte of a character. -/
def trailingBytes? (lead : Nat) : Option Nat :=
  if lead < 0x80 then some 0
  else if 0xc0 ≤ lead && lead < 0xe0 then some 1
  else if 0xe0 ≤ lead && lead < 0xf0 then some 2
  else if 0xf0 ≤ lead && lead < 0xf8 then some 3
  else none

/-- Puts further bytes behind those read so far. -/
def escapedCode? (code : Nat) : (count : Nat) → Source → Option Nat
  | 0, _ => some code
  | count + 1, s => do
    let byte ← escapedByte? s
    if 0x80 ≤ byte ∧ byte < 0xc0 then escapedCode? (code * 256 + byte) count (s.drop 3) else none

/-- The character whose code consists of escaped bytes, and how many of them follow the first. -/
def escapedChar? (s : Source) : Option (Char × Nat) := do
  let lead ← escapedByte? s
  let count ← trailingBytes? lead
  let c ← charOfCode? (← escapedCode? lead count (s.drop 3))
  return (c, count)

/-- Reads the characters of a URI that are allowed, with their escapes. -/
def uri (allowed : Char → Bool) (s : Source) : Option (List Char × Source) :=
  match s with
  | [] => some ([], [])
  | g :: rest =>
    if !allowed g.char then some ([], g :: rest)
    else if g.char = '%' then
      match escapedChar? (g :: rest) with
      | none => none
      | some (c, count) => (uri allowed (rest.drop (3 * count + 2))).map fun (cs, after) => (c :: cs, after)
    else (uri allowed rest).map fun (cs, after) => (g.char :: cs, after)
termination_by s.length
decreasing_by all_goals simp only [List.length_cons, List.length_drop]; omega

/-- Reads the longest run of word characters. -/
def word (s : Source) : List Char × Source :=
  ((s.takeWhile fun g => isWord g.char).map Glyph.char, s.dropWhile fun g => isWord g.char)

/-- Reads the name of an anchor behind its first character. -/
def anchorName (s : Source) : Option (String × Source) :=
  match s.takeWhile fun g => isAnchorChar g.char with
  | [] => none
  | name => some (String.ofList (name.map Glyph.char), s.drop name.length)

/-- Reads an exclamation mark, a word and another mark if there is one. -/
def tagHandle (s : Source) : Option (List Char × Source) :=
  if s.char ≠ '!' then none
  else
    let (name, rest) := word s.tail
    if Source.char rest = '!' then some ('!' :: name ++ ['!'], rest.tail) else some ('!' :: name, rest)

/-- Whether a handle consists of more than a single mark and is closed by another. -/
def isNamedHandle (handle : List Char) : Bool :=
  2 ≤ handle.length && handle.getLast? == some '!'

/-- Reads a tag: in full, or a suffix behind the handle of a directive, or a local tag. A mark alone has
no handle. -/
def tagToken (s : Source) : Option (Token × Source) := do
  if s.second = '<' then
    let (suffix, rest) ← uri isUriChar (s.drop 2)
    guard (Source.char rest = '>')
    return (.tag "" (String.ofList suffix), rest.tail)
  let (handle, rest) ← tagHandle s
  let (suffix, rest) ← uri isTagChar rest
  if isNamedHandle handle then
    guard (!suffix.isEmpty)
    return (.tag (String.ofList handle) (String.ofList suffix), rest)
  match handle.tail ++ suffix with
  | [] => return (.tag "" "!", rest)
  | suffix => return (.tag "!" (String.ofList suffix), rest)

/-- Reads a number of at most nine digits. -/
def versionNumber (s : Source) : Option Source :=
  let digits := s.takeWhile fun g => g.char.isDigit
  if 1 ≤ digits.length ∧ digits.length ≤ 9 then some (s.drop digits.length) else none

/-- Reads the version that a directive asks for. All are accepted. -/
def versionDirective (s : Source) : Option (Token × Source) := do
  let rest ← versionNumber s.dropBlanks
  guard (Source.char rest = '.')
  return (.versionDirective, ← versionNumber rest.tail)

/-- Reads a handle and what it stands for. -/
def tagDirective (s : Source) : Option (Token × Source) := do
  let (handle, rest) ← tagHandle s.dropBlanks
  guard (isNamedHandle handle ∨ handle = ['!'])
  let rest := Source.dropBlanks rest
  guard (Source.char rest = '!' ∨ isTagChar (Source.char rest))
  let (replacement, rest) ← uri isUriChar rest
  guard (isBlankOrStop (Source.char rest))
  return (.tagDirective (String.ofList handle) (String.ofList replacement), rest)

/-- Reads a directive behind its percent sign, with the end of its line. One that is not known counts as
a tag directive for the empty handle. -/
def directive (s : Source) : Option (Token × Source) := do
  let (name, rest) := word s
  guard (!name.isEmpty ∧ isBlankOrStop (Source.char rest))
  let (token, rest) ←
    if name = "YAML".toList then versionDirective rest
    else if name = "TAG".toList then tagDirective rest
    else some (.tagDirective "" "", Source.dropLine rest)
  let gap ← Source.skipGap rest
  guard (isStop gap.rest.char)
  return (token, if isBreak gap.rest.char then gap.rest.tail else gap.rest)

end ConfigWeave.Yaml
