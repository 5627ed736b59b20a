import ConfigWeave.Sorting
import ConfigWeave.Value.Basic

namespace ConfigWeave

inductive BinaryOp where
  | add
  | subtract
  | multiply
  | divide
  | floorDivide
  | modulo
  | concat
  | equal
  | notEqual
  | less
  | lessEqual
  | greater
  | greaterEqual
  | member
  | notMember
deriving DecidableEq, Repr

/-- The name of an operator in messages. -/
def BinaryOp.name : BinaryOp → String
  | .add => "Add"
  | .subtract => "Subtract"
  | .multiply => "Multiply"
  | .divide => "Divide"
  | .floorDivide => "FloorDivide"
  | .modulo => "Modulo"
  | .concat => "Concat"
  | .equal => "Equal"
  | .notEqual => "NotEqual"
  | .less => "Less"
  | .lessEqual => "LessEqual"
  | .greater => "Greater"
  | .greaterEqual => "GreaterEqual"
  | .member => "In"
  | .notMember => "NotIn"

/-- An expression over variables. `cond body condition otherwise` is written
`body if condition else otherwise`; a call is a filter or a method of its input. -/
inductive Expr where
  | lit (value : Value)
  | var (name : String)
  | list (items : List Expr)
  | map (entries : List (Expr × Expr))
  | neg (operand : Expr)
  | not (operand : Expr)
  | binary (op : BinaryOp) (left right : Expr)
  | and (left right : Expr)
  | or (left right : Expr)
  | cond (body condition : Expr) (otherwise : Option Expr)
  | attr (target : Expr) (name : String)
  | index (target position : Expr)
  | call (name : String) (input : Expr) (args : List (Option String × Expr))
deriving Inhabited

/-- Why an expression has no value. A panic is no error of the expression: whoever asked for the value gives up
too. -/
inductive ExprError where
  | malformed (offset : Nat)
  | invalidNumber (text : String) (offset : Nat)
  | invalidIndex (text : String) (offset : Nat)
  | unknownFunction (name : String)
  | wrongArity (function : String) (least : Nat) (most : Option Nat) (got : Nat)
  | unexpectedKeyword (function keyword : String)
  | wrongType (function expected : String) (got : String)
  | countNotInteger (got : String)
  | repeatNotInteger
  | repeatTooLong (length count : Nat)
  | cannotNegate (got : String)
  | cannotCompare (left right : String)
  | cannotSearch (got : String)
  | unsupportedOperands (op : BinaryOp) (left right : String)
  | overflow
  | divisionByZero
  | panicked (cause : Panic)
deriving DecidableEq, Repr

/-- The longest text, in bytes, that repetition may build. -/
def maxRepeatLength : Nat :=
  16 * 1024 * 1024

private def arityText (least : Nat) : Option Nat → String
  | some most => if most = least then toString least else s!"{least} to {most}"
  | none => s!"at least {least}"

namespace ExprError

/-- The reason alone, without the place of a syntax error. -/
def reason : ExprError → String
  | malformed _ => "syntax error"
  | invalidNumber text _ => s!"invalid number '{text}'"
  | invalidIndex text _ => s!"invalid index '{text}'"
  | unknownFunction name => s!"Unknown function '{name}'"
  | wrongArity function least most got =>
    let expected := arityText least most
    s!"'{function}' takes {expected} argument(s), got {got}"
  | unexpectedKeyword function keyword => s!"'{function}' got an unexpected keyword argument '{keyword}'"
  | wrongType function expected got => s!"'{function}' expects {expected}, got {got}"
  | countNotInteger got => s!"'replace' count must be an integer, got {got}"
  | repeatNotInteger => "'repeat' needs an integer"
  | repeatTooLong length count =>
    s!"repeating a string of length {length} {count} times exceeds {maxRepeatLength} bytes"
  | cannotNegate got => s!"cannot negate a {got}"
  | cannotCompare left right => s!"cannot compare {left} with {right}"
  | cannotSearch got => s!"'in' needs a string, sequence or mapping, got {got}"
  | unsupportedOperands op left right =>
    let name := op.name
    s!"unsupported operand types for {name}: {left} and {right}"
  | overflow => "integer overflow"
  | divisionByZero => "Division by zero"
  | panicked cause => cause.message

/-- The place of a syntax error in the source, in bytes. -/
def offset? : ExprError → Option Nat
  | malformed offset | invalidNumber _ offset | invalidIndex _ offset => some offset
  | _ => none

/-- The message shown to a user. -/
def message (e : ExprError) : String :=
  match e.offset? with
  | some offset => e.reason ++ s!" at offset {offset}"
  | none => e.reason

end ExprError

end ConfigWeave
