import ConfigWeave.Compose.Template

namespace ConfigWeave

namespace Scope

/-- Defines the variables of a document one after the other, each with those before it in scope. Protected
ones keep the value that they have, and what was written for them is left alone. -/
def evaluateAll (document : OpenDocument) (sub : Option Pattern) (isProtected : String → Bool) (scope : Scope) :
    List (Value × Value) → Run Scope
  | [] => return scope
  | (key, value) :: rest => do
    let name := key.keyText
    if isProtected name then evaluateAll document sub isProtected scope rest
    else
      let value ← transform (Templates.empty.site document) scope sub value
      if isBuiltin name then document.warn (refusal name)
      evaluateAll document sub isProtected (scope.define name (value.getD .null)) rest

/-- The scope of a document with the variables that it declares itself. If what it declares is no mapping,
the scope stays as it is. -/
def ofSection (document : OpenDocument) (isProtected : String → Bool) (scope : Scope) (declared : Value) :
    Run Scope :=
  let site := Templates.empty.site document
  let invalid (v : Value) : Run Scope := do
    let got := v.typeName
    document.warn s!"The 'variables' section must be a mapping, got {got}"
    return scope
  match declared.unaliased with
  | .null => return scope
  | .map entries => evaluateAll document none isProtected scope entries
  | .tagged (.sub name) _ (.map entries) => do
    let p ← site.pattern scope name
    evaluateAll document (some p) isProtected scope entries
  | .tagged .inclusion mark payload => do
    match ← transform site scope none (.tagged .inclusion mark payload) with
    | some (.map entries) => evaluateAll document none isProtected scope entries
    | some .null | none => return scope
    | some other => invalid other
  | .tagged _ _ payload => invalid payload
  | other => invalid other

end Scope

end ConfigWeave
