import ConfigWeave.Expr.Function
import ConfigWeave.Expr.Parse
import ConfigWeave.Scope
import ConfigWeave.Text.Search
import ConfigWeave.Traced

namespace ConfigWeave.Expr

/-- An evaluation reports warnings as it goes. -/
abbrev Eval (α : Type) := Traced String ExprError α

/-- The first known name at the least edit distance, if that is small for the length of the name. -/
def closest? (name : String) (known : List String) : Option String :=
  let limit := max 2 (name.length / 3)
  let near := known.filterMap fun other =>
    let distance := Text.editDistance name.toList other.toList
    if 0 < distance && distance ≤ limit then some (distance, other) else none
  let nearest := near.foldl (fun best entry => match best with
    | some (least, _) => if entry.1 < least then some entry else best
    | none => some entry) none
  nearest.map (·.2)

def undefinedWarning (scope : Scope) (name : String) : String :=
  match closest? name scope.names with
  | some other => s!"Undefined variable '{name}' Did you mean '{other}'?"
  | none => s!"Undefined variable '{name}'"

/-- The value of a variable. `VARS` stands for the whole scope unless a variable has that name. -/
def variableValue (scope : Scope) (name : String) : Eval (Option Value) := do
  match scope.get? name with
  | some v => return some v
  | none =>
    if name = "VARS" then return some scope.toValue
    else
      .report (undefinedWarning scope name)
      return none

def isTrue (v : Option Value) : Bool :=
  v.any Value.truthy

/-- Forgets what a computation has reported unless it fails. -/
def silently (x : Eval α) : Eval α :=
  match x.result with
  | .ok a => ⟨[], .ok a⟩
  | .error _ => x

mutual
/-- The value of an expression, `none` if it is undefined. Undefined items and values of entries are left
out of literals. -/
def eval (scope : Scope) : Expr → Eval (Option Value)
  | .lit v => return some v
  | .var name => variableValue scope name
  | .list items => return some (.seq (← evalItems scope items))
  | .map entries => return some (.map (← evalEntries scope [] entries))
  | .neg operand => do
    match ← eval scope operand with
    | none => return none
    | some v => return some (← .lift (negate v))
  | .not operand => return some (.bool !(isTrue (← eval scope operand)))
  | .and left right => do
    let l ← eval scope left
    if isTrue l then eval scope right else return l
  | .or left right => do
    let l ← eval scope left
    if isTrue l then return l else eval scope right
  | .cond body condition none => do
    if isTrue (← eval scope condition) then eval scope body else return none
  | .cond body condition (some otherwise) => do
    if isTrue (← eval scope condition) then eval scope body else eval scope otherwise
  | .binary op left right => do
    let l ← eval scope left
    let r ← eval scope right
    .lift (applyBinary op l r)
  | .attr target name => return (← eval scope target).bind (attribute? · name)
  | .index target position => do
    let t ← eval scope target
    let p ← eval scope position
    match t, p with
    | some t, some p => return lookup? t p
    | _, _ => return none
  | .call name input args => do
    let v ← if name = "default" then silently (eval scope input) else eval scope input
    let args ← evalArgs scope .empty args
    .lift (callFunction name v args)
def evalItems (scope : Scope) : List Expr → Eval (List Value)
  | [] => return []
  | item :: rest => do
    let v ← eval scope item
    return v.toList ++ (← evalItems scope rest)
def evalEntries (scope : Scope) (m : Mapping) : List (Expr × Expr) → Eval Mapping
  | [] => return m
  | (key, value) :: rest => do
    let k ← eval scope key
    match ← eval scope value with
    | some v => evalEntries scope (Mapping.insert m (k.getD .null) v) rest
    | none => evalEntries scope m rest
def evalArgs (scope : Scope) (args : Arguments) : List (Option String × Expr) → Eval Arguments
  | [] => return args
  | (keyword, value) :: rest => do
    let v ← eval scope value
    evalArgs scope (args.add keyword (v.getD .null)) rest
end

/-- An evaluation that keeps the warnings collected so far. It adds to them, and may drop the last of them. -/
abbrev Evaluator (α : Type) := EStateM ExprError (List String) α

namespace Evaluator

variable {α : Type}

def warn (message : String) : Evaluator Unit :=
  modify (· ++ [message])

/-- Drops the warnings behind the first `count`. -/
def truncate (count : Nat) : Evaluator Unit :=
  modify (·.take count)

def lift : Except ExprError α → Evaluator α
  | .ok a => pure a
  | .error e => throw e

/-- What an evaluation comes to, and all warnings at its end. -/
def finish (x : Evaluator α) (warnings : List String) : Except ExprError α × List String :=
  match x.run warnings with
  | .ok a collected => (.ok a, collected)
  | .error e collected => (.error e, collected)

def variableValue (scope : Scope) (name : String) : Evaluator (Option Value) := do
  match scope.get? name with
  | some v => return some v
  | none =>
    if name = "VARS" then return some scope.toValue
    else
      warn (undefinedWarning scope name)
      return none

mutual
/-- The value of an expression, as `Expr.eval` has it. To be undefined is expected of the input of `default`, so its
warnings are dropped once it is evaluated, whatever was collected before. -/
def eval (scope : Scope) : Expr → Evaluator (Option Value)
  | .lit v => return some v
  | .var name => variableValue scope name
  | .list items => return some (.seq (← evalItems scope items))
  | .map entries => return some (.map (← evalEntries scope [] entries))
  | .neg operand => do
    match ← eval scope operand with
    | none => return none
    | some v => return some (← lift (negate v))
  | .not operand => return some (.bool !(isTrue (← eval scope operand)))
  | .and left right => do
    let l ← eval scope left
    if isTrue l then eval scope right else return l
  | .or left right => do
    let l ← eval scope left
    if isTrue l then return l else eval scope right
  | .cond body condition none => do
    if isTrue (← eval scope condition) then eval scope body else return none
  | .cond body condition (some otherwise) => do
    if isTrue (← eval scope condition) then eval scope body else eval scope otherwise
  | .binary op left right => do
    let l ← eval scope left
    let r ← eval scope right
    lift (applyBinary op l r)
  | .attr target name => return (← eval scope target).bind (attribute? · name)
  | .index target position => do
    let t ← eval scope target
    let p ← eval scope position
    match t, p with
    | some t, some p => return lookup? t p
    | _, _ => return none
  | .call name input args => do
    let reported := (← get).length
    let v ← eval scope input
    if name = "default" then truncate reported
    let args ← evalArgs scope .empty args
    lift (callFunction name v args)
def evalItems (scope : Scope) : List Expr → Evaluator (List Value)
  | [] => return []
  | item :: rest => do
    let v ← eval scope item
    return v.toList ++ (← evalItems scope rest)
def evalEntries (scope : Scope) (m : Mapping) : List (Expr × Expr) → Evaluator Mapping
  | [] => return m
  | (key, value) :: rest => do
    let k ← eval scope key
    match ← eval scope value with
    | some v => evalEntries scope (Mapping.insert m (k.getD .null) v) rest
    | none => evalEntries scope m rest
def evalArgs (scope : Scope) (args : Arguments) : List (Option String × Expr) → Evaluator Arguments
  | [] => return args
  | (keyword, value) :: rest => do
    let v ← eval scope value
    evalArgs scope (args.add keyword (v.getD .null)) rest
end

def evaluate (scope : Scope) (source : String) : Evaluator (Option Value) := do
  eval scope (← lift (parse source))

end Evaluator

/-- The value of a source, where nothing was collected before. -/
def evaluate (scope : Scope) (source : String) : Eval (Option Value) :=
  let (result, warnings) := (Evaluator.evaluate scope source).finish []
  ⟨warnings, result⟩

end ConfigWeave.Expr
