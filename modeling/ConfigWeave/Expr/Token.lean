import ConfigWeave.Text.Basic
import ConfigWeave.Text.Letter

namespace ConfigWeave.Expr

inductive Symbol where
  | doubleEqual
  | notEqual
  | lessEqual
  | greaterEqual
  | doubleSlash
  | doubleAnd
  | doubleBar
  | parenOpen
  | parenClose
  | bracketOpen
  | bracketClose
  | braceOpen
  | braceClose
  | comma
  | colon
  | dot
  | bar
  | plus
  | minus
  | star
  | slash
  | percent
  | tilde
  | less
  | greater
  | bang
  | assign
deriving DecidableEq, Repr

/-- A lexical unit of an expression. Numbers keep their spelling because `0.1` behind a dot is a pair of
indexes. -/
inductive Token where
  | number (spelling : List Char)
  | text (content : List Char)
  | name (spelling : List Char)
  | symbol (symbol : Symbol)
deriving DecidableEq, Repr

/-- The symbol at the front of a text that starts with `c`, and the characters it takes behind `c`. The
longer symbol wins. -/
def symbolAt? (c : Char) (rest : List Char) : Option (Symbol × Nat) :=
  match c, rest with
  | '=', '=' :: _ => some (.doubleEqual, 1)
  | '!', '=' :: _ => some (.notEqual, 1)
  | '<', '=' :: _ => some (.lessEqual, 1)
  | '>', '=' :: _ => some (.greaterEqual, 1)
  | '/', '/' :: _ => some (.doubleSlash, 1)
  | '&', '&' :: _ => some (.doubleAnd, 1)
  | '|', '|' :: _ => some (.doubleBar, 1)
  | '(', _ => some (.parenOpen, 0)
  | ')', _ => some (.parenClose, 0)
  | '[', _ => some (.bracketOpen, 0)
  | ']', _ => some (.bracketClose, 0)
  | '\x7b', _ => some (.braceOpen, 0)
  | '\x7d', _ => some (.braceClose, 0)
  | ',', _ => some (.comma, 0)
  | ':', _ => some (.colon, 0)
  | '.', _ => some (.dot, 0)
  | '|', _ => some (.bar, 0)
  | '+', _ => some (.plus, 0)
  | '-', _ => some (.minus, 0)
  | '*', _ => some (.star, 0)
  | '/', _ => some (.slash, 0)
  | '%', _ => some (.percent, 0)
  | '~', _ => some (.tilde, 0)
  | '<', _ => some (.less, 0)
  | '>', _ => some (.greater, 0)
  | '!', _ => some (.bang, 0)
  | '=', _ => some (.assign, 0)
  | _, _ => none

/-- Digits may be grouped by underscores behind the first. -/
def isNumeral (c : Char) : Bool :=
  c.isDigit || c == '_'

def startsName (c : Char) : Bool :=
  Text.isAlphabetic c || c == '_'

def continuesName (c : Char) : Bool :=
  Text.isAlphanumeric c || c == '_'

/-- The length of a run of numerals that starts with a digit. -/
def numeralLength : List Char → Nat
  | [] => 0
  | c :: rest => if c.isDigit then (rest.takeWhile isNumeral).length + 1 else 0

/-- The length of a point with digits behind it. -/
def fractionLength : List Char → Nat
  | '.' :: rest =>
    match numeralLength rest with
    | 0 => 0
    | n + 1 => n + 2
  | _ => 0

/-- The length of an exponent: `e`, an optional sign and digits. -/
def exponentLength : List Char → Nat
  | c :: rest =>
    if c == 'e' || c == 'E' then
      match rest with
      | '+' :: digits | '-' :: digits => if numeralLength digits = 0 then 0 else numeralLength digits + 2
      | digits => if numeralLength digits = 0 then 0 else numeralLength digits + 1
    else 0
  | [] => 0

/-- The characters that a number takes behind its first digit. -/
def numberLength (rest : List Char) : Nat :=
  let whole := (rest.takeWhile isNumeral).length
  let fraction := fractionLength (rest.drop whole)
  whole + fraction + exponentLength (rest.drop (whole + fraction))

/-- The character that an escaped one stands for. -/
def unescape : Char → Char
  | 'n' => '\n'
  | 't' => '\t'
  | 'r' => '\r'
  | '0' => '\x00'
  | c => c

/-- The content of a string up to its closing quote and the characters it takes with the quote. -/
def quoted? (quote : Char) : List Char → Option (List Char × Nat)
  | [] => none
  | '\\' :: [] => none
  | '\\' :: escaped :: rest => (quoted? quote rest).map fun (content, n) => (unescape escaped :: content, n + 2)
  | c :: rest =>
    if c = quote then some ([], 1)
    else (quoted? quote rest).map fun (content, n) => (c :: content, n + 1)

/-- The token at the front of a text that starts with `c`, and the characters it takes behind `c`. -/
def tokenAt? (c : Char) (rest : List Char) : Option (Token × Nat) :=
  if c.isDigit then
    let n := numberLength rest
    some (.number (c :: rest.take n), n)
  else if c = '\'' || c = '"' then (quoted? c rest).map fun (content, n) => (.text content, n)
  else if startsName c then
    let tail := rest.takeWhile continuesName
    some (.name (c :: tail), tail.length)
  else (symbolAt? c rest).map fun (symbol, n) => (.symbol symbol, n)

/-- The tokens of a text that starts at the byte `offset`, each with the offset of its first byte. Fails
at the byte where no token can go on: behind an ampersand that stands alone, at the end for a string
without its closing quote. -/
def tokensFrom (offset : Nat) (text : List Char) : Except Nat (List (Token × Nat)) :=
  match text with
  | [] => .ok []
  | c :: rest =>
    if Text.isBlank c then tokensFrom (offset + c.utf8Size) rest
    else
      match tokenAt? c rest with
      | some (token, n) => do
        let next := offset + Text.byteLength (c :: rest.take n)
        return (token, offset) :: (← tokensFrom next (rest.drop n))
      | none =>
        if c = '\'' || c = '"' then .error (offset + Text.byteLength text)
        else if c = '&' then .error (offset + 1)
        else .error offset
termination_by text.length
decreasing_by
  · simp
  · simp only [List.length_drop, List.length_cons]; omega

theorem tokensFrom_nil (offset : Nat) : tokensFrom offset [] = .ok [] := by
  unfold tokensFrom
  rfl

theorem tokensFrom_of_isBlank {c : Char} (blank : Text.isBlank c = true) (offset : Nat) (rest : List Char) :
    tokensFrom offset (c :: rest) = tokensFrom (offset + c.utf8Size) rest := by
  conv => lhs; unfold tokensFrom
  exact if_pos blank

theorem tokensFrom_of_tokenAt? {c : Char} {rest : List Char} {token : Token} {n : Nat}
    (solid : Text.isBlank c = false) (found : tokenAt? c rest = some (token, n)) (offset : Nat) :
    tokensFrom offset (c :: rest) = do
      return (token, offset) :: (← tokensFrom (offset + Text.byteLength (c :: rest.take n)) (rest.drop n)) := by
  conv => lhs; unfold tokensFrom
  simp only [solid, Bool.false_eq_true, if_false, found]

def tokens (source : List Char) : Except Nat (List (Token × Nat)) :=
  tokensFrom 0 source

end ConfigWeave.Expr
