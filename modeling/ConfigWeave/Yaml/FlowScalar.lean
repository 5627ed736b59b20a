import ConfigWeave.Yaml.Glyph

namespace ConfigWeave.Yaml

/-- How many line breaks end the text read so far: none, one that is escaped, or one that is folded. -/
inductive LineBreak where
  | none
  | escaped
  | folded
deriving DecidableEq, Repr

/-- A scalar while it is read. `text` and `blanks` are in reverse; `blanks`, the line break and the number
of empty lines behind it do not belong to the text until more of it follows. -/
structure Folding where
  text : List Char
  blanks : List Char
  lineBreak : LineBreak
  emptyLines : Nat
deriving Repr

namespace Folding

def start : Folding := ⟨[], [], .none, 0⟩

/-- Whether what follows stands at the start of a line. -/
def atLineStart (f : Folding) : Bool :=
  f.lineBreak != .none

/-- Blanks at the start of a line do not count. -/
def blank (f : Folding) (c : Char) : Folding :=
  if f.atLineStart then f else { f with blanks := c :: f.blanks }

/-- A line break. The blanks in front of it are dropped. -/
def newline (f : Folding) (lineIsEmpty : Bool) : Folding :=
  if lineIsEmpty then { f with emptyLines := f.emptyLines + 1 } else { f with blanks := [], lineBreak := .folded }

/-- Adds what separates the text from more of it: blanks, or line breaks, of which a single one is
written as a space. -/
def joined (f : Folding) : Folding :=
  let empty := List.replicate f.emptyLines '\n'
  let separator :=
    match f.lineBreak with
    | .none => f.blanks
    | .escaped => empty
    | .folded => if f.emptyLines = 0 then [' '] else empty
  ⟨separator ++ f.text, [], .none, 0⟩

def push (f : Folding) (c : Char) : Folding :=
  { f with text := c :: f.text }

/-- The text that was read, and what remains behind it. -/
def taken (f : Folding) (rest : Source) : Option (List Char × Source) :=
  some (f.text.reverse, rest)

end Folding

/-- Whether a character goes on with a plain scalar. A colon in front of a blank ends it, within flow
collections also brackets and commas. -/
def continuesPlain (flow : Bool) (c next : Char) : Bool :=
  if c == ':' then !(isBlankOrStop next || (flow && isFlow next)) else !(flow && isFlow c)

/-- Where the reader of a plain scalar stands: in front of it, within a word, between words, or within a
line of blanks that is not indented enough and may hold a comment. -/
inductive PlainMode where
  | start
  | word
  | gap
  | emptyLine
deriving DecidableEq, Repr

/-- Reads a plain scalar that continues on lines indented by `indent`, and gives what remains. -/
def plainFrom (flow : Bool) (indent : Int) (mode : PlainMode) (f : Folding) : Source → Option (List Char × Source)
  | [] => f.taken []
  | g :: rest =>
    if g.char = '\x00' then f.taken (g :: rest)
    else if isBreak g.char then plainFrom flow indent .gap (f.newline g.leading) rest
    else if mode = .emptyLine then plainFrom flow indent .emptyLine f rest
    else if isBlank g.char then
      if g.char = '\t' ∧ g.leading ∧ g.column < indent then
        if Source.endsLine rest then plainFrom flow indent .emptyLine f rest else none
      else plainFrom flow indent .gap (f.blank g.char) rest
    else if mode = .word then
      if continuesPlain flow g.char (Source.char rest) then plainFrom flow indent .word (f.push g.char) rest
      else f.taken (g :: rest)
    else if mode = .gap ∧ !flow ∧ g.column < indent then f.taken (g :: rest)
    else if g.column = 0 ∧ Source.isDocumentMark (g :: rest) then f.taken (g :: rest)
    else if g.char = '#' then f.taken (g :: rest)
    else if flow ∧ g.char = '-' ∧ isFlow (Source.char rest) then none
    else if continuesPlain flow g.char (Source.char rest) then
      plainFrom flow indent .word (f.joined.push g.char) rest
    else f.taken (g :: rest)

/-- Reads a plain scalar. -/
def plainScalar (flow : Bool) (indent : Int) (s : Source) : Option (List Char × Source) :=
  plainFrom flow indent .start .start s

/-- The character that a letter behind a backslash stands for. -/
def escaped? (c : Char) : Option Char :=
  match c with
  | '0' => some '\x00'
  | 'a' => some '\x07'
  | 'b' => some '\x08'
  | 't' | '\t' => some '\t'
  | 'n' => some '\n'
  | 'v' => some '\x0b'
  | 'f' => some '\x0c'
  | 'r' => some '\r'
  | 'e' => some '\x1b'
  | ' ' => some ' '
  | '"' => some '"'
  | '/' => some '/'
  | '\\' => some '\\'
  | 'N' => some '\u0085'
  | '_' => some '\u00a0'
  | 'L' => some '\u2028'
  | 'P' => some '\u2029'
  | _ => none

/-- How many digits follow the letter of an escape by code. -/
def codeLength? (c : Char) : Option Nat :=
  match c with
  | 'x' => some 2
  | 'u' => some 4
  | 'U' => some 8
  | _ => none

/-- The character with a code, surrogates being none. -/
def charOfCode? (code : Nat) : Option Char :=
  if code.isValidChar then some (Char.ofNat code) else none

/-- Where the reader of a quoted scalar stands: within text, behind blanks, directly behind an escaped
line break, behind a backslash, behind a single quote, or within the digits of a code. -/
inductive QuotedMode where
  | text
  | gap
  | lineEscape
  | escape
  | quote
  | code (digits value : Nat)
deriving DecidableEq, Repr

/-- Reads a quoted scalar behind its first quote, and gives what remains behind its last. -/
def quotedFrom (single : Bool) (indent : Int) (mode : QuotedMode) (f : Folding) :
    Source → Option (List Char × Source)
  | [] => none
  | g :: rest =>
    let c := g.char
    match mode with
    | .escape =>
      if isBreak c then quotedFrom single indent .lineEscape { f with lineBreak := .escaped } rest
      else
        match codeLength? c with
        | some digits => quotedFrom single indent (.code digits 0) f rest
        | none =>
          match escaped? c with
          | some d => quotedFrom single indent .text (f.push d) rest
          | none => none
    | .code digits value =>
      if isHex c then
        let value := value * 16 + hexValue c
        if digits ≤ 1 then
          match charOfCode? value with
          | some d => quotedFrom single indent .text (f.push d) rest
          | none => none
        else quotedFrom single indent (.code (digits - 1) value) f rest
      else none
    | .quote =>
      if c = '\'' then quotedFrom single indent .text (f.push c) rest else f.taken (g :: rest)
    | mode =>
      if isBlank c then
        if f.atLineStart ∧ c = '\t' ∧ g.column < indent then none
        else quotedFrom single indent .gap (f.blank c) rest
      else if isBreak c then quotedFrom single indent .gap (f.newline f.atLineStart) rest
      else if mode = .lineEscape ∧ !single ∧ c = '"' then f.taken rest
      else if mode ≠ .text ∧ (g.column < indent ∨ (g.column = 0 ∧ Source.isDocumentMark (g :: rest))) then none
      else if c = '\x00' then none
      else
        let f := if mode = .text then f else f.joined
        if single ∧ c = '\'' then quotedFrom single indent .quote f rest
        else if !single ∧ c = '"' then f.taken rest
        else if !single ∧ c = '\\' then quotedFrom single indent .escape f rest
        else quotedFrom single indent .text (f.push c) rest

/-- Reads a quoted scalar behind its first quote. -/
def quotedScalar (single : Bool) (indent : Int) (s : Source) : Option (List Char × Source) :=
  quotedFrom single indent .gap .start s

end ConfigWeave.Yaml
