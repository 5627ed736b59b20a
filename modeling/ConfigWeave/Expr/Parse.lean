import ConfigWeave.Expr.Basic
import ConfigWeave.Expr.Token
import ConfigWeave.Number.Read

namespace ConfigWeave.Expr

/-- An operator between two operands. -/
inductive Operator where
  | or
  | and
  | binary (op : BinaryOp)
deriving DecidableEq, Repr

inductive UnaryOperator where
  | not
  | negate
  | plus
deriving DecidableEq, Repr

/-- How strongly an operator binds the operand on its left. Equal operators group to the left, so the
operand on the right is bound by one more. -/
def Operator.power : Operator → Nat
  | .or => 2
  | .and => 4
  | .binary op =>
    match op with
    | .equal | .notEqual | .less | .lessEqual | .greater | .greaterEqual | .member | .notMember => 8
    | .concat => 10
    | .add | .subtract => 12
    | .multiply | .divide | .floorDivide | .modulo => 14

/-- An operator that binds less than this does not reach into the operand. -/
def UnaryOperator.power : UnaryOperator → Nat
  | .not => 6
  | .negate | .plus => 16

def Operator.apply (left right : Expr) : Operator → Expr
  | .or => .or left right
  | .and => .and left right
  | .binary op => .binary op left right

def UnaryOperator.apply (operand : Expr) : UnaryOperator → Expr
  | .not => .not operand
  | .negate => .neg operand
  | .plus => operand

/-- A call whose arguments are being read. -/
structure PendingCall where
  name : String
  input : Expr
  isFilter : Bool

/-- A part of an expression that waits for the operand which is being read. Items, entries and arguments
are held in reverse. -/
inductive Frame where
  | right (op : Operator) (left : Expr)
  | operand (op : UnaryOperator)
  | condition (body : Expr)
  | otherwise (body condition : Expr)
  | group
  | list (items : List Expr)
  | key (entries : List (Expr × Expr))
  | value (entries : List (Expr × Expr)) (key : Expr)
  | argument (pending : PendingCall) (args : List (Option String × Expr)) (keyword : Option String)
  | index (target : Expr)

abbrev Stack := List Frame

/-- What has been read so far. -/
inductive State where
  /-- An operand has to follow. -/
  | start (stack : Stack)
  /-- An operand is complete. Unless a filter ends it, it may be followed by an access. -/
  | after (stack : Stack) (operand : Expr) (accessible : Bool)
  | dot (stack : Stack) (target : Expr)
  | attribute (stack : Stack) (target : Expr) (name : String)
  | pipe (stack : Stack) (input : Expr)
  | filter (stack : Stack) (input : Expr) (name : String)
  /-- A `not` behind an operand, which is the first half of `not in`. -/
  | notIn (stack : Stack) (left : Expr)
  /-- A key or the end of a mapping has to follow. -/
  | key (stack : Stack) (entries : List (Expr × Expr))
  | keyName (stack : Stack) (entries : List (Expr × Expr)) (name : String)
  /-- An argument or the end of a call has to follow. -/
  | argument (stack : Stack) (pending : PendingCall) (args : List (Option String × Expr))
  | argumentName (stack : Stack) (pending : PendingCall) (args : List (Option String × Expr)) (name : String)

/-- Why a token cannot follow. -/
inductive Misfit where
  | unexpected
  | number (spelling : List Char)
  | index (spelling : List Char)
deriving DecidableEq, Repr

def isKeyword (name : String) : Bool :=
  name ∈ ["if", "else", "and", "or", "not", "in"]

/-- The value of a number: an integer in range, or a float if it has a point or an exponent. -/
def number? (spelling : List Char) : Option Value :=
  let digits := spelling.filter (· != '_')
  if digits.any fun c => c == '.' || c == 'e' || c == 'E' then (Number.float? digits).map .float
  else (Number.integer? 10 digits).map .int

/-- The indexes in a number behind a dot, where a point separates two of them. -/
def indexes? (spelling : List Char) : Option (List Int64) :=
  (spelling.splitOnP (· == '.')).mapM fun part => Number.integer? 10 (part.filter (· != '_'))

/-- Closes the operands that an operator of the given power on their right does not reach into. -/
def close (power : Nat) : Stack → Expr → Stack × Expr
  | .right op left :: stack, e =>
    if op.power < power then (.right op left :: stack, e) else close power stack (op.apply left e)
  | .operand op :: stack, e =>
    if op.power ≤ power then (.operand op :: stack, e) else close power stack (op.apply e)
  | stack, e => (stack, e)

/-- Closes operands and conditionals up to the bracket around them. -/
def closeAll : Stack → Expr → Stack × Expr
  | .right op left :: stack, e => closeAll stack (op.apply left e)
  | .operand op :: stack, e => closeAll stack (op.apply e)
  | .condition body :: stack, e => closeAll stack (.cond body e none)
  | .otherwise body condition :: stack, e => closeAll stack (.cond body condition (some e))
  | stack, e => (stack, e)

/-- The state behind a name that stands for an operand or for `not`. -/
def startName (stack : Stack) (name : String) : Option State :=
  match name with
  | "true" | "True" => some (.after stack (.lit (.bool true)) true)
  | "false" | "False" => some (.after stack (.lit (.bool false)) true)
  | "null" | "None" | "none" => some (.after stack (.lit .null) true)
  | "not" => some (.start (.operand .not :: stack))
  | _ => if isKeyword name then none else some (.after stack (.var name) true)

/-- The state behind the first token of an operand. -/
def startOperand (stack : Stack) : Token → Except Misfit State
  | .number spelling =>
    match number? spelling with
    | some value => .ok (.after stack (.lit value) true)
    | none => .error (.number spelling)
  | .text content => .ok (.after stack (.lit (.str (String.ofList content))) true)
  | .name spelling =>
    match startName stack (String.ofList spelling) with
    | some state => .ok state
    | none => .error .unexpected
  | .symbol symbol =>
    match symbol with
    | .bang => .ok (.start (.operand .not :: stack))
    | .minus => .ok (.start (.operand .negate :: stack))
    | .plus => .ok (.start (.operand .plus :: stack))
    | .parenOpen => .ok (.start (.group :: stack))
    | .bracketOpen => .ok (.start (.list [] :: stack))
    | .braceOpen => .ok (.key stack [])
    | _ => .error .unexpected

/-- The operator that a token stands for behind an operand. -/
def operator? : Token → Option Operator
  | .name spelling =>
    match String.ofList spelling with
    | "or" => some .or
    | "and" => some .and
    | "in" => some (.binary .member)
    | _ => none
  | .symbol symbol =>
    match symbol with
    | .doubleBar => some .or
    | .doubleAnd => some .and
    | .doubleEqual => some (.binary .equal)
    | .notEqual => some (.binary .notEqual)
    | .less => some (.binary .less)
    | .lessEqual => some (.binary .lessEqual)
    | .greater => some (.binary .greater)
    | .greaterEqual => some (.binary .greaterEqual)
    | .tilde => some (.binary .concat)
    | .plus => some (.binary .add)
    | .minus => some (.binary .subtract)
    | .star => some (.binary .multiply)
    | .slash => some (.binary .divide)
    | .doubleSlash => some (.binary .floorDivide)
    | .percent => some (.binary .modulo)
    | _ => none
  | _ => none

def takeOperator (stack : Stack) (left : Expr) (op : Operator) : State :=
  let (stack, left) := close op.power stack left
  .start (.right op left :: stack)

def finishCall (stack : Stack) (pending : PendingCall) (args : List (Option String × Expr)) : State :=
  .after stack (.call pending.name pending.input args.reverse) (!pending.isFilter)

/-- The state behind a token that ends an operand together with what encloses it. -/
def closeBracket (stack : Stack) (e : Expr) (symbol : Symbol) : Except Misfit State :=
  match symbol, closeAll stack e with
  | .parenClose, (.group :: stack, e) => .ok (.after stack e true)
  | .parenClose, (.argument pending args keyword :: stack, e) =>
    .ok (finishCall stack pending ((keyword, e) :: args))
  | .bracketClose, (.list items :: stack, e) => .ok (.after stack (.list (e :: items).reverse) true)
  | .bracketClose, (.index target :: stack, e) => .ok (.after stack (.index target e) true)
  | .braceClose, (.value entries key :: stack, e) => .ok (.after stack (.map ((key, e) :: entries).reverse) true)
  | .comma, (.list items :: stack, e) => .ok (.start (.list (e :: items) :: stack))
  | .comma, (.value entries key :: stack, e) => .ok (.key stack ((key, e) :: entries))
  | .comma, (.argument pending args keyword :: stack, e) => .ok (.argument stack pending ((keyword, e) :: args))
  | .colon, (.key entries :: stack, e) => .ok (.start (.value entries e :: stack))
  | _, _ => .error .unexpected

/-- The state behind a token that follows an operand. A condition is not itself a conditional. -/
def follow (stack : Stack) (e : Expr) (accessible : Bool) (token : Token) : Except Misfit State :=
  match operator? token with
  | some op => .ok (takeOperator stack e op)
  | none =>
    match token with
    | .symbol .dot => if accessible then .ok (.dot stack e) else .error .unexpected
    | .symbol .bracketOpen => if accessible then .ok (.start (.index e :: stack)) else .error .unexpected
    | .symbol .bar => .ok (.pipe stack e)
    | .symbol symbol => closeBracket stack e symbol
    | .name spelling =>
      match String.ofList spelling, close 0 stack e with
      | "not", _ => .ok (.notIn stack e)
      | "if", (.condition _ :: _, _) => .error .unexpected
      | "if", (stack, e) => .ok (.start (.condition e :: stack))
      | "else", (.condition body :: stack, e) => .ok (.start (.otherwise body e :: stack))
      | _, _ => .error .unexpected
    | _ => .error .unexpected

/-- The state behind a token that follows a name in the place of a key or of an argument, once the name
turned out to be an operand. -/
def followName (stack : Stack) (name : String) (token : Token) : Except Misfit State :=
  match startName stack name with
  | some (.after stack e accessible) => follow stack e accessible token
  | some (.start stack) => startOperand stack token
  | _ => .error .unexpected

/-- The state behind the next token. -/
def step (state : State) (token : Token) : Except Misfit State :=
  match state with
  | .start stack =>
    match token, stack with
    | .symbol .bracketClose, .list items :: outer => .ok (.after outer (.list items.reverse) true)
    | _, _ => startOperand stack token
  | .after stack e accessible => follow stack e accessible token
  | .dot stack target =>
    match token with
    | .name spelling => .ok (.attribute stack target (String.ofList spelling))
    | .number spelling =>
      match indexes? spelling with
      | some indexes => .ok (.after stack (indexes.foldl (fun e i => .index e (.lit (.int i))) target) true)
      | none => .error (.index spelling)
    | _ => .error .unexpected
  | .attribute stack target name =>
    match token with
    | .symbol .parenOpen => .ok (.argument stack ⟨name, target, false⟩ [])
    | _ => follow stack (.attr target name) true token
  | .pipe stack input =>
    match token with
    | .name spelling => .ok (.filter stack input (String.ofList spelling))
    | _ => .error .unexpected
  | .filter stack input name =>
    match token with
    | .symbol .parenOpen => .ok (.argument stack ⟨name, input, true⟩ [])
    | _ => follow stack (.call name input []) false token
  | .notIn stack left =>
    match token with
    | .name ['i', 'n'] => .ok (takeOperator stack left (.binary .notMember))
    | _ => .error .unexpected
  | .key stack entries =>
    match token with
    | .symbol .braceClose => .ok (.after stack (.map entries.reverse) true)
    | .name spelling => .ok (.keyName stack entries (String.ofList spelling))
    | _ => startOperand (.key entries :: stack) token
  | .keyName stack entries name =>
    match token with
    | .symbol .colon => .ok (.start (.value entries (.lit (.str name)) :: stack))
    | _ => followName (.key entries :: stack) name token
  | .argument stack pending args =>
    match token with
    | .symbol .parenClose => .ok (finishCall stack pending args)
    | .name spelling => .ok (.argumentName stack pending args (String.ofList spelling))
    | _ => startOperand (.argument pending args none :: stack) token
  | .argumentName stack pending args name =>
    match token with
    | .symbol .assign => .ok (.start (.argument pending args (some name) :: stack))
    | _ => followName (.argument pending args none :: stack) name token

/-- The error for a token that starts at `offset`. -/
def Misfit.error (offset : Nat) : Misfit → ExprError
  | .unexpected => .malformed offset
  | .number spelling => .invalidNumber (String.ofList spelling) offset
  | .index spelling => .invalidIndex (String.ofList spelling) offset

def run (state : State) : List (Token × Nat) → Except ExprError State
  | [] => .ok state
  | (token, offset) :: rest =>
    match step state token with
    | .ok next => run next rest
    | .error misfit => .error (misfit.error offset)

/-- The expression that is complete when nothing follows. -/
def State.finish? : State → Option Expr
  | .after stack e _ => whole stack e
  | .attribute stack target name => whole stack (.attr target name)
  | .filter stack input name => whole stack (.call name input [])
  | _ => none
where
  whole (stack : Stack) (e : Expr) : Option Expr :=
    match closeAll stack e with
    | ([], e) => some e
    | _ => none

/-- The expression that a source consists of. -/
def parse (source : String) : Except ExprError Expr :=
  match tokens source.toList with
  | .error offset => .error (.malformed offset)
  | .ok tokens => do
    match (← run (.start []) tokens).finish? with
    | some e => .ok e
    | none => .error (.malformed source.utf8ByteSize)

end ConfigWeave.Expr
