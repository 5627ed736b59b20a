import ConfigWeave.Expr.Evaluate
import ConfigWeave.Placeholder
import ConfigWeave.Text.Basic

namespace ConfigWeave

/-- What is logged about an expression that has no value. -/
def ExprError.report (e : ExprError) (source : String) : String :=
  let action := if e.offset?.isSome then "parsing" else "evaluating"
  let shown := source.trimBlank
  let reason := e.message
  s!"Error {action} '{shown}': {reason}"

/-- The value of an expression, with what is to be logged about it. An expression that fails or is blank is
undefined. A panic is not caught, and takes what the evaluation would have logged with it. -/
def evaluateLogged (scope : Scope) (source : String) : Traced String Panic (Option Value) :=
  if source.isBlank then return none
  else
    let run := Expr.evaluate scope source
    match run.result with
    | .ok v => ⟨run.trace, .ok v⟩
    | .error (.panicked cause) => .fail cause
    | .error e => ⟨run.trace ++ [e.report source], .ok none⟩

/-- The text with the values of the placeholders in their places, undefined ones being empty. -/
def spliceValues (scope : Scope) (tail : List Char) : List Placeholder → Traced String Panic (List Char)
  | [] => return tail
  | ⟨lead, source⟩ :: rest => do
    let v ← evaluateLogged scope (String.ofList source)
    return lead ++ ((v.map Value.display).getD "").toList ++ (← spliceValues scope tail rest)

/-- The value of a text with its placeholders evaluated, with what is to be logged about them; `none` if
there are none. A placeholder that makes up the whole text keeps the type of its value, in all other texts
values are spliced in as text. -/
def interpolate (p : Pattern) (scope : Scope) (text : String) : Traced String Panic (Option Value) :=
  match p.segments text.toList with
  | ⟨[], _⟩ => return none
  | ⟨[⟨[], source⟩], []⟩ => return some ((← evaluateLogged scope (String.ofList source)).getD .null)
  | ⟨placeholders, tail⟩ => return some (.str (String.ofList (← spliceValues scope tail placeholders)))

end ConfigWeave
