import ConfigWeave.Expr.Basic
import ConfigWeave.Number.Binary64
import ConfigWeave.Number.Bounded
import ConfigWeave.Text.Search
import ConfigWeave.Value.Mapping
import ConfigWeave.Value.Written

namespace ConfigWeave

namespace Value

/-- Equality in expressions: an integer equals a float of the same numeric value. -/
def looseEq (a b : Value) : Bool :=
  match a.bare, b.bare with
  | .int i, .float x | .float x, .int i => (Double.ofInt i.toInt).sameNumber x
  | a, b => a == b

end Value

namespace Expr

open Number

/-- The numeric value of an integer or a float. -/
def toDouble? : Value → Option Double
  | .int i => some (Double.ofInt i.toInt)
  | .float x => some x
  | _ => none

/-- The order of two values: of numbers by value, of strings by code points, of booleans with false
first. All else cannot be compared. -/
def order (a b : Value) : Except ExprError Ordering :=
  match a, b with
  | .int i, .int j => .ok (compare i.toInt j.toInt)
  | .str s, .str t => .ok (if s < t then .lt else if s = t then .eq else .gt)
  | .bool p, .bool q => .ok (compare p.toNat q.toNat)
  | a, b =>
    match toDouble? a, toDouble? b with
    | some x, some y => .ok (compare (orderKey x) (orderKey y))
    | _, _ => .error (.cannotCompare a.typeName b.typeName)

/-- Whether a value occurs in another: text in text, an item in a sequence, a key in a mapping. -/
def isMember (needle haystack : Value) : Except ExprError Bool :=
  match haystack with
  | .str s => .ok (s.contains needle.display)
  | .seq items => .ok (items.any (·.looseEq needle))
  | .map entries => .ok (Mapping.contains entries needle)
  | other => .error (.cannotSearch other.typeName)

/-- `count` copies of a text, none if the count is negative. -/
def repeatText (text : String) (count : Int64) : Except ExprError String :=
  let count := count.toInt.toNat
  if text.isEmpty then .ok ""
  else if text.utf8ByteSize * count ≤ maxRepeatLength then .ok (Nat.repeat (· ++ text) count "")
  else .error (.repeatTooLong text.utf8ByteSize count)

def inRange (i : Int) : Except ExprError Value :=
  match bounded? i with
  | some n => .ok (.int n)
  | none => .error .overflow

/-- Arithmetic on integers. The remainder of a division is never negative; a quotient that is out of
range fails, also when only the remainder is asked for. -/
def integerArithmetic (op : BinaryOp) (a b : Int) : Except ExprError Value :=
  match op with
  | .add => inRange (a + b)
  | .subtract => inRange (a - b)
  | .multiply => inRange (a * b)
  | .floorDivide => inRange (a / b)
  | _ => do let _ ← inRange (a / b); inRange (a % b)

def floatArithmetic (op : BinaryOp) (x y : Double) : Double :=
  match op with
  | .add => x + y
  | .subtract => x - y
  | .multiply => x * y
  | .divide => x / y
  | .floorDivide => floor (x / y)
  | _ => modulo x y

def divides : BinaryOp → Bool
  | .divide | .floorDivide | .modulo => true
  | _ => false

/-- Arithmetic. Two integers stay integers unless they are divided by `/`. Besides numbers, texts,
sequences and mappings can be added and a text repeated. -/
def arithmetic (op : BinaryOp) (a b : Value) : Except ExprError Value :=
  match toDouble? a, toDouble? b with
  | some x, some y =>
    if divides op && y.isZero then .error .divisionByZero
    else
      match a, b with
      | .int i, .int j =>
        if op = .divide then .ok (.float (x / y)) else integerArithmetic op i.toInt j.toInt
      | _, _ => .ok (.float (floatArithmetic op x y))
  | _, _ =>
    match op, a, b with
    | .add, .str s, .str t => .ok (.str (s ++ t))
    | .add, .seq s, .seq t => .ok (.seq (s ++ t))
    | .add, .map s, .map t => .ok (.map (Mapping.insertAll s t))
    | .multiply, .str s, .int n => (repeatText s n).map .str
    | .multiply, .int n, .str s => (repeatText s n).map .str
    | op, a, b => .error (.unsupportedOperands op a.typeName b.typeName)

private def ordered (op : BinaryOp) (o : Ordering) : Bool :=
  match op with
  | .less => o == .lt
  | .lessEqual => o != .gt
  | .greater => o == .gt
  | _ => o != .lt

/-- The value of an operator. Equality and concatenation take what is undefined as null, for all others
the result is undefined when an operand is. -/
def applyBinary (op : BinaryOp) (a b : Option Value) : Except ExprError (Option Value) :=
  match op with
  | .equal => .ok (some (.bool ((a.getD .null).looseEq (b.getD .null))))
  | .notEqual => .ok (some (.bool (!(a.getD .null).looseEq (b.getD .null))))
  | .concat => .ok (some (.str ((a.getD .null).display ++ (b.getD .null).display)))
  | _ =>
    match a, b with
    | some a, some b =>
      match op with
      | .less | .lessEqual | .greater | .greaterEqual => (order a b).map fun o => some (.bool (ordered op o))
      | .member => (isMember a b).map fun found => some (.bool found)
      | .notMember => (isMember a b).map fun found => some (.bool !found)
      | _ => (arithmetic op a b).map some
    | _, _ => .ok none

def negate : Value → Except ExprError Value
  | .int i => inRange (-i.toInt)
  | .float x => .ok (.float (-x))
  | v => .error (.cannotNegate v.typeName)

/-- The place in a collection of `length` items that an index names. Negative ones count from the end. -/
def position? (length : Nat) (index : Int) : Option Nat :=
  if 0 ≤ index then some index.toNat else if index.natAbs ≤ length then some (length - index.natAbs) else none

/-- What an index finds: a key of a mapping, or its text as a key; an item of a sequence; a character of
a text. -/
def lookup? (target index : Value) : Option Value :=
  match target with
  | .tagged _ _ payload => lookup? payload index
  | .map entries => (Mapping.get? entries index) <|> Mapping.get? entries (.str index.display)
  | .seq items =>
    match index with
    | .int i => (position? items.length i.toInt).bind (items[·]?)
    | _ => none
  | .str s =>
    match index with
    | .int i => ((position? s.length i.toInt).bind (s.toList[·]?)).map fun c => .str (String.singleton c)
    | _ => none
  | _ => none

/-- What an attribute finds: a key of a mapping. -/
def attribute? (target : Value) (name : String) : Option Value :=
  match target.bare with
  | .map entries => Mapping.get? entries (.str name)
  | _ => none

end Expr

end ConfigWeave
