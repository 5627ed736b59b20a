import ConfigWeave.Expr.Parse

namespace ConfigWeave.Expr

/-- How tightly the parts of an expression hold together, from loose to tight. Accesses hold as tightly as names and
literals do. -/
inductive Precedence where
  | conditional
  | or
  | and
  | not
  | comparison
  | concat
  | additive
  | multiplicative
  | unary
  | filter
  | access
deriving DecidableEq, Repr

def Precedence.rank : Precedence → Nat
  | .conditional => 0
  | .or => 1
  | .and => 2
  | .not => 3
  | .comparison => 4
  | .concat => 5
  | .additive => 6
  | .multiplicative => 7
  | .unary => 8
  | .filter => 9
  | .access => 10

def Operator.precedence : Operator → Precedence
  | .or => .or
  | .and => .and
  | .binary op =>
    match op with
    | .equal | .notEqual | .less | .lessEqual | .greater | .greaterEqual | .member | .notMember => .comparison
    | .concat => .concat
    | .add | .subtract => .additive
    | .multiply | .divide | .floorDivide | .modulo => .multiplicative

/-- A call is written as a filter or as a method, depending on its name. -/
def precedence (isFilter : String → Bool) : Expr → Precedence
  | .cond .. => .conditional
  | .or .. => .or
  | .and .. => .and
  | .not _ => .not
  | .binary op .. => Operator.precedence (.binary op)
  | .neg _ => .unary
  | .call name .. => if isFilter name then .filter else .access
  | .lit _ | .var _ | .list _ | .map _ | .attr .. | .index .. => .access

def Symbol.spelling : Symbol → List Char
  | .doubleEqual => ['=', '=']
  | .notEqual => ['!', '=']
  | .lessEqual => ['<', '=']
  | .greaterEqual => ['>', '=']
  | .doubleSlash => ['/', '/']
  | .doubleAnd => ['&', '&']
  | .doubleBar => ['|', '|']
  | .parenOpen => ['(']
  | .parenClose => [')']
  | .bracketOpen => ['[']
  | .bracketClose => [']']
  | .braceOpen => ['\x7b']
  | .braceClose => ['\x7d']
  | .comma => [',']
  | .colon => [':']
  | .dot => ['.']
  | .bar => ['|']
  | .plus => ['+']
  | .minus => ['-']
  | .star => ['*']
  | .slash => ['/']
  | .percent => ['%']
  | .tilde => ['~']
  | .less => ['<']
  | .greater => ['>']
  | .bang => ['!']
  | .assign => ['=']

/-- A character within single quotes. -/
def escape : Char → List Char
  | '\'' => ['\\', '\'']
  | '\\' => ['\\', '\\']
  | '\n' => ['\\', 'n']
  | '\t' => ['\\', 't']
  | '\r' => ['\\', 'r']
  | '\x00' => ['\\', '0']
  | c => [c]

def Token.spelling : Token → List Char
  | .number spelling | .name spelling => spelling
  | .text content => '\'' :: content.flatMap escape ++ ['\'']
  | .symbol s => s.spelling

/-- Whether two neighbours are written without a blank in between. A point would make a fraction of a number. -/
def Token.adjoins : Token → Token → Bool
  | .symbol .parenOpen, _ | .symbol .bracketOpen, _ | .symbol .braceOpen, _ | .symbol .dot, _ => true
  | _, .symbol .parenClose | _, .symbol .bracketClose | _, .symbol .braceClose => true
  | _, .symbol .comma | _, .symbol .colon => true
  | .number _, .symbol .dot => false
  | _, .symbol .dot => true
  | .name spelling, .symbol .parenOpen | .name spelling, .symbol .bracketOpen => !isKeyword (String.ofList spelling)
  | .symbol .parenClose, .symbol .bracketOpen | .symbol .bracketClose, .symbol .bracketOpen => true
  | _, _ => false

/-- The text of a list of tokens. -/
def layout : List Token → List Char
  | [] => []
  | [token] => token.spelling
  | token :: next :: rest =>
    token.spelling ++ (if token.adjoins next then [] else [' ']) ++ layout (next :: rest)

def isIdentifier : List Char → Bool
  | [] => false
  | c :: rest => startsName c && rest.all continuesName

/-- The tokens of a literal. Only integers that are not negative have a spelling of their own. -/
def literalTokens : Value → List Token
  | .null => [.name "null".toList]
  | .bool true => [.name "true".toList]
  | .bool false => [.name "false".toList]
  | .int i => [.number (Nat.toDigits 10 i.toInt.toNat)]
  | .str s => [.text s.toList]
  | _ => []

def Operator.tokens : Operator → List Token
  | .or => [.name "or".toList]
  | .and => [.name "and".toList]
  | .binary op =>
    match op with
    | .add => [.symbol .plus]
    | .subtract => [.symbol .minus]
    | .multiply => [.symbol .star]
    | .divide => [.symbol .slash]
    | .floorDivide => [.symbol .doubleSlash]
    | .modulo => [.symbol .percent]
    | .concat => [.symbol .tilde]
    | .equal => [.symbol .doubleEqual]
    | .notEqual => [.symbol .notEqual]
    | .less => [.symbol .less]
    | .lessEqual => [.symbol .lessEqual]
    | .greater => [.symbol .greater]
    | .greaterEqual => [.symbol .greaterEqual]
    | .member => [.name "in".toList]
    | .notMember => [.name "not".toList, .name "in".toList]

def inParens (tokens : List Token) : List Token :=
  .symbol .parenOpen :: tokens ++ [.symbol .parenClose]

/-- An operand that has to hold together at least as tightly as `least`. -/
def operandTokens (least : Nat) (p : Precedence) (tokens : List Token) : List Token :=
  if p.rank < least then inParens tokens else tokens

def separated : List (List Token) → List Token
  | [] => []
  | [tokens] => tokens
  | tokens :: rest => tokens ++ .symbol .comma :: separated rest

/-- A key of a mapping. A text that is an identifier stands for itself, all else is an expression in parentheses. -/
def keyTokens (key : Expr) (tokens : List Token) : List Token :=
  match key with
  | .lit (.str name) => if isIdentifier name.toList then [.name name.toList] else inParens tokens
  | _ => inParens tokens

def argumentTokens (keyword : Option String) (tokens : List Token) : List Token :=
  match keyword with
  | some name => .name name.toList :: .symbol .assign :: tokens
  | none => tokens

/-- An operation with its operands. Equal operators group to the left, so only the operand on the left may be of the
operation's own precedence. -/
def operationTokens (op : Operator) (leftPrecedence rightPrecedence : Precedence) (left right : List Token) :
    List Token :=
  operandTokens op.precedence.rank leftPrecedence left ++ op.tokens ++
    operandTokens (op.precedence.rank + 1) rightPrecedence right

mutual
/-- The tokens of an expression, with parentheses only where an operand would not hold together without them. What
follows `else` needs none. -/
def written (isFilter : String → Bool) : Expr → List Token
  | .lit v => literalTokens v
  | .var name => [.name name.toList]
  | .list items => .symbol .bracketOpen :: separated (writtenItems isFilter items) ++ [.symbol .bracketClose]
  | .map entries => .symbol .braceOpen :: separated (writtenEntries isFilter entries) ++ [.symbol .braceClose]
  | .neg e => .symbol .minus :: operandTokens Precedence.unary.rank (e.precedence isFilter) (written isFilter e)
  | .not e => .name "not".toList :: operandTokens Precedence.not.rank (e.precedence isFilter) (written isFilter e)
  | .or left right =>
    operationTokens .or (left.precedence isFilter) (right.precedence isFilter) (written isFilter left)
      (written isFilter right)
  | .and left right =>
    operationTokens .and (left.precedence isFilter) (right.precedence isFilter) (written isFilter left)
      (written isFilter right)
  | .binary op left right =>
    operationTokens (.binary op) (left.precedence isFilter) (right.precedence isFilter) (written isFilter left)
      (written isFilter right)
  | .cond body condition none =>
    operandTokens Precedence.or.rank (body.precedence isFilter) (written isFilter body) ++ .name "if".toList ::
      operandTokens Precedence.or.rank (condition.precedence isFilter) (written isFilter condition)
  | .cond body condition (some otherwise) =>
    operandTokens Precedence.or.rank (body.precedence isFilter) (written isFilter body) ++ .name "if".toList ::
      operandTokens Precedence.or.rank (condition.precedence isFilter) (written isFilter condition) ++
        .name "else".toList :: written isFilter otherwise
  | .attr target name =>
    operandTokens Precedence.access.rank (target.precedence isFilter) (written isFilter target) ++
      [.symbol .dot, .name name.toList]
  | .index target position =>
    operandTokens Precedence.access.rank (target.precedence isFilter) (written isFilter target) ++
      .symbol .bracketOpen :: written isFilter position ++ [.symbol .bracketClose]
  | .call name input args =>
    let arguments := inParens (separated (writtenArguments isFilter args))
    if isFilter name then
      operandTokens Precedence.filter.rank (input.precedence isFilter) (written isFilter input) ++
        [.symbol .bar, .name name.toList] ++ if args.isEmpty then [] else arguments
    else
      operandTokens Precedence.access.rank (input.precedence isFilter) (written isFilter input) ++
        [.symbol .dot, .name name.toList] ++ arguments
def writtenItems (isFilter : String → Bool) : List Expr → List (List Token)
  | [] => []
  | item :: rest => written isFilter item :: writtenItems isFilter rest
def writtenEntries (isFilter : String → Bool) : List (Expr × Expr) → List (List Token)
  | [] => []
  | (key, value) :: rest =>
    (keyTokens key (written isFilter key) ++ .symbol .colon :: written isFilter value) ::
      writtenEntries isFilter rest
def writtenArguments (isFilter : String → Bool) : List (Option String × Expr) → List (List Token)
  | [] => []
  | (keyword, value) :: rest =>
    argumentTokens keyword (written isFilter value) :: writtenArguments isFilter rest
end

/-- The text of an expression. The calls with some names are written as filters, all others as methods. -/
def print (isFilter : String → Bool) (e : Expr) : String :=
  String.ofList (layout (e.written isFilter))

/-- Names that stand for literals. -/
def literalNames : List String :=
  ["true", "True", "false", "False", "null", "None", "none"]

/-- Expressions that can be written: their numbers are integers that are not negative, their names identifiers, and
no variable has a name with a meaning of its own. -/
inductive Writable : Expr → Prop
  | null : Writable (.lit .null)
  | bool (b : Bool) : Writable (.lit (.bool b))
  | int {i : Int64} : 0 ≤ i.toInt → Writable (.lit (.int i))
  | str (s : String) : Writable (.lit (.str s))
  | var {name : String} : isIdentifier name.toList = true → isKeyword name = false → name ∉ literalNames →
      Writable (.var name)
  | list {items : List Expr} : (∀ item ∈ items, Writable item) → Writable (.list items)
  | map {entries : List (Expr × Expr)} : (∀ entry ∈ entries, Writable entry.1) →
      (∀ entry ∈ entries, Writable entry.2) → Writable (.map entries)
  | neg {e : Expr} : Writable e → Writable (.neg e)
  | not {e : Expr} : Writable e → Writable (.not e)
  | or {left right : Expr} : Writable left → Writable right → Writable (.or left right)
  | and {left right : Expr} : Writable left → Writable right → Writable (.and left right)
  | binary (op : BinaryOp) {left right : Expr} : Writable left → Writable right → Writable (.binary op left right)
  | cond {body condition : Expr} {otherwise : Option Expr} : Writable body → Writable condition →
      (∀ e ∈ otherwise, Writable e) → Writable (.cond body condition otherwise)
  | attr {target : Expr} {name : String} : Writable target → isIdentifier name.toList = true →
      Writable (.attr target name)
  | index {target position : Expr} : Writable target → Writable position → Writable (.index target position)
  | call {name : String} {input : Expr} {args : List (Option String × Expr)} : isIdentifier name.toList = true →
      Writable input → (∀ arg ∈ args, Writable arg.2) →
      (∀ arg ∈ args, ∀ keyword ∈ arg.1, isIdentifier keyword.toList = true) → Writable (.call name input args)

end ConfigWeave.Expr
