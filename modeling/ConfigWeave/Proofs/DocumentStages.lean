import ConfigWeave.Compose.Document
import ConfigWeave.Proofs.Scope

namespace ConfigWeave

namespace Scope

/-- The entries that declare variables, and the pattern for placeholders in them, if there is any. If what is
declared is no mapping, there are no entries. -/
def sectionEntries (document : OpenDocument) (scope : Scope) (declared : Value) :
    Run (Option Pattern × List (Value × Value)) :=
  let site := Templates.empty.site document
  let invalid (v : Value) : Run (Option Pattern × List (Value × Value)) := do
    let got := v.typeName
    document.warn s!"The 'variables' section must be a mapping, got {got}"
    return (none, [])
  match declared.unaliased with
  | .null => return (none, [])
  | .map entries => return (none, entries)
  | .tagged (.sub name) _ (.map entries) => do return (some (← site.pattern scope name), entries)
  | .tagged .inclusion mark payload => do
    match ← transform site scope none (.tagged .inclusion mark payload) with
    | some (.map entries) => return (none, entries)
    | some .null | none => return (none, [])
    | some other => invalid other
  | .tagged _ _ payload => invalid payload
  | other => invalid other

/-- The variables that entries declare, in order. Each value is transformed with those before it in scope. -/
def declarations (document : OpenDocument) (sub : Option Pattern) (isProtected : String → Bool) (scope : Scope) :
    List (Value × Value) → Run Bindings
  | [] => return []
  | (key, value) :: rest => do
    let name := key.keyText
    if isProtected name then declarations document sub isProtected scope rest
    else
      let value ← transform (Templates.empty.site document) scope sub value
      if isBuiltin name then document.warn (refusal name)
      let later ← declarations document sub isProtected (scope.define name (value.getD .null)) rest
      return (name, value.getD .null) :: later

variable (document : OpenDocument) (isProtected : String → Bool)

/-- A section is read first, and then its entries are evaluated. -/
theorem ofSection_eq (scope : Scope) (declared : Value) :
    scope.ofSection document isProtected declared = (do
      let (sub, entries) ← sectionEntries document scope declared
      evaluateAll document sub isProtected scope entries) := by
  have invalid (v : Value) : (do
      document.warn s!"The 'variables' section must be a mapping, got {v.typeName}"
      return scope : Run Scope) = (do
      let (sub, entries) ← (do
        document.warn s!"The 'variables' section must be a mapping, got {v.typeName}"
        return (none, []) : Run (Option Pattern × List (Value × Value)))
      evaluateAll document sub isProtected scope entries) := by
    simp only [bind_assoc, pure_bind, evaluateAll]
  unfold ofSection sectionEntries
  cases declared.unaliased with
  | null | map => rfl
  | bool | int | float | str | seq => exact invalid _
  | tagged tag mark payload =>
    cases tag with
    | sub name =>
      cases payload with
      | map => simp only [bind_assoc, pure_bind]
      | _ => exact invalid _
    | inclusion =>
      dsimp only
      rw [bind_assoc]
      refine congrArg _ (funext fun v => ?_)
      match v with
      | none | some .null | some (.map _) => rfl
      | some (.bool _) | some (.int _) | some (.float _) | some (.str _) | some (.seq _) | some (.tagged ..) =>
        exact invalid _
    | _ => exact invalid _

/-- Each entry is evaluated on top of those before it. -/
theorem evaluateAll_cons (sub : Option Pattern) (scope : Scope) (entry : Value × Value)
    (rest : List (Value × Value)) :
    evaluateAll document sub isProtected scope (entry :: rest) = (do
      let next ← evaluateAll document sub isProtected scope [entry]
      evaluateAll document sub isProtected next rest) := by
  simp only [evaluateAll]
  split
  · rw [pure_bind]
  · simp only [bind_assoc]
    refine congrArg _ (funext fun value => ?_)
    split <;> simp only [pure_bind, bind_assoc]

theorem evaluateAll_append (sub : Option Pattern) (scope : Scope) (before after : List (Value × Value)) :
    evaluateAll document sub isProtected scope (before ++ after) = (do
      let next ← evaluateAll document sub isProtected scope before
      evaluateAll document sub isProtected next after) := by
  induction before generalizing scope with
  | nil => simp only [List.nil_append, evaluateAll, pure_bind]
  | cons entry rest ih =>
    rw [List.cons_append, evaluateAll_cons, evaluateAll_cons document isProtected sub scope entry rest, bind_assoc]
    exact congrArg _ (funext ih)

/-- Entries are evaluated by defining what they declare. -/
theorem evaluateAll_eq (sub : Option Pattern) (scope : Scope) (entries : List (Value × Value)) :
    evaluateAll document sub isProtected scope entries = (do
      let declared ← declarations document sub isProtected scope entries
      return (scope.defineAll declared).1) := by
  induction entries generalizing scope with
  | nil => rfl
  | cons entry rest ih =>
    simp only [evaluateAll, declarations]
    split
    · exact ih scope
    · simp only [bind_assoc, ih]
      refine congrArg _ (funext fun value => ?_)
      split
      · simp only [bind_assoc, pure_bind, defineAll]
      · simp only [bind_assoc, pure_bind, defineAll]

end Scope

namespace OpenDocument

/-- The entries that declare the variables of a document. -/
def ownEntries (document : OpenDocument) (scope : Scope) (entries : Mapping) :
    Run (Option Pattern × List (Value × Value)) :=
  match entries.get? (.str "variables") with
  | some declared => scope.sectionEntries document declared
  | none => return (none, [])

/-- The entries of the section are found first, then they are evaluated. -/
theorem ownScope_eq_evaluateAll (document : OpenDocument) (scope inherited : Scope) (entries : Mapping) :
    document.ownScope scope inherited entries = (do
      let (sub, own) ← document.ownEntries scope entries
      scope.evaluateAll document sub inherited.contains own) := by
  unfold ownScope ownEntries
  cases entries.get? (.str "variables") with
  | some declared => exact Scope.ofSection_eq document _ scope declared
  | none => rfl

theorem ownScope_eq (document : OpenDocument) (scope inherited : Scope) (entries : Mapping) :
    document.ownScope scope inherited entries = (do
      let (sub, own) ← document.ownEntries scope entries
      let declared ← scope.declarations document sub inherited.contains own
      return (scope.defineAll declared).1) := by
  simp only [ownScope_eq_evaluateAll, Scope.evaluateAll_eq]

/-- The scope in which the tree of a document is transformed. -/
def treeScope (document : OpenDocument) (scope inherited : Scope) : Value → Run Scope
  | .map entries => document.ownScope scope inherited entries
  | _ => return scope

/-- What is composed of a document once its variables are there. -/
def composeTree (document : OpenDocument) (scope : Scope) : Value → Run Value
  | .map entries => do
    let templates ← document.ownTemplates scope entries
    let site := templates.site document
    match ← transform site scope none (.map (Mapping.withoutSections entries)) with
    | some (.map tree) => return .map (← site.withPackages scope tree entries).withoutHidden
    | other => return other.getD .null
  | content => return (← transform (Templates.empty.site document) scope none content).getD .null

theorem compose_eq (document : OpenDocument) (scope inherited : Scope) (content : Value) :
    document.compose scope inherited content = (do
      document.composeTree (← document.treeScope scope inherited content) content) := by
  cases content with
  | map entries => rfl
  | _ => simp only [compose, treeScope, composeTree, pure_bind]

end OpenDocument

end ConfigWeave
