import ConfigWeave.Compose.Arguments
import ConfigWeave.Compose.Run
import ConfigWeave.Interpolation

namespace ConfigWeave

/-- A document that is being composed: its file with the lines of its text, and how to come by the
documents that it asks for at a mark. -/
structure OpenDocument where
  file : Path
  lines : LineIndex
  inclusion : (mark : Nat) → Arguments → Scope → Run Value

namespace OpenDocument

def warn (document : OpenDocument) (message : String) : Run Unit :=
  .report (.warned document.file message)

def warnAll (document : OpenDocument) (messages : List String) : Run Unit :=
  .reportAll (messages.map (.warned document.file))

/-- What a computation comes to that reports warnings, and may give up. -/
def logged {α : Type} (document : OpenDocument) (x : Traced String Panic α) : Run α := do
  document.warnAll x.trace
  match x.result with
  | .ok a => return a
  | .error cause => .fail (.panicked cause)

theorem logged_pure {α : Type} (document : OpenDocument) (a : α) :
    document.logged (pure a : Traced String Panic α) = pure a :=
  rfl

theorem result_logged {α : Type} {document : OpenDocument} {x : Traced String Panic α} {a : α}
    (done : (document.logged x).result = .ok a) : x.result = .ok a := by
  obtain ⟨trace, cause | b⟩ := x
  · cases done
  · cases done
    rfl

theorem logged_bind {α β : Type} (document : OpenDocument) (x : Traced String Panic α)
    (f : α → Traced String Panic β) :
    document.logged (x >>= f) = document.logged x >>= fun a => document.logged (f a) := by
  obtain ⟨trace, cause | a⟩ := x
  · rfl
  · simp only [logged, warnAll, Traced.reportAll, Traced.bind_ok, Traced.pure_def, List.map_append, List.append_nil]
    cases (f a).result <;> simp [Traced.fail]

def locate (document : OpenDocument) (mark : Nat) : Location :=
  document.lines.locate document.file.text mark

/-- Warns about the node at a mark. -/
def warnAt (document : OpenDocument) (mark : Nat) (message : String) : Run Unit :=
  let location := (document.locate mark).text
  document.warn s!"{location}: {message}"

end OpenDocument

/-- Where in a document a tree is transformed, with the templates that it may ask for there. -/
structure Site extends OpenDocument where
  insertion : (mark : Nat) → Arguments → Scope → Run (Option Value)

namespace Site

/-- The pattern of placeholders below a tag, which may name a variable that holds it. -/
def pattern (site : Site) (scope : Scope) : Option String → Run Pattern
  | none => return .default
  | some name => do
    let default := Pattern.default.text
    match scope.get? name with
    | some (.str delimiters) =>
      match Pattern.parse? delimiters with
      | some p => return p
      | none =>
        site.warn (s!"Invalid substitution pattern '{delimiters}' in variable '{name}', " ++
          s!"expected PREFIX..SUFFIX. Using '{default}'")
        return .default
    | _ =>
      site.warn s!"Substitution pattern variable '{name}' is not defined. Using '{default}'"
      return .default

/-- Whether a condition holds. A text is evaluated as an expression. -/
def holds (site : Site) (scope : Scope) (condition : Option Value) : Run Bool :=
  match condition with
  | some (.str source) => return (← site.logged (evaluateLogged scope source)).any Value.truthy
  | some v => return v.truthy
  | none => return false

mutual
/-- The entries of the mappings to be merged into another, in order. Sequences of them may be nested. -/
def mergeSources (site : Site) : Value → Run (List (Value × Value))
  | .null => return []
  | .map entries => return entries
  | .seq items => site.mergeSourceItems items
  | other => do
    let got := other.typeName
    site.warn s!"Expected a mapping or a sequence of mappings for merge key '<<', got {got}"
    return []
def mergeSourceItems (site : Site) : List Value → Run (List (Value × Value))
  | [] => return []
  | item :: rest => do return (← site.mergeSources item) ++ (← site.mergeSourceItems rest)
end

/-- Merges what stands under the merge key into the mapping. Entries that are present win, as do earlier
ones over later ones. -/
def resolveMergeKey (site : Site) (m : Mapping) : Run Mapping :=
  match m.get? Value.mergeKey with
  | none => return m
  | some sources => do return (m.erase Value.mergeKey).insertMissing (← site.mergeSources sources)

end Site

/-- The keys under which a clause may hold its condition. -/
def conditionKeys : List String :=
  ["if", "elseif", "elif"]

/-- The key of a clause's condition. -/
def conditionKey? (clause : Mapping) : Option String :=
  conditionKeys.find? fun key => clause.contains (.str key)

mutual
/-- Carries out what the tags of a tree ask for and merges what stands under merge keys, from the leaves up.
`sub` is the pattern of placeholders where they are to be replaced. Nodes that are to be removed or to
replace others are kept for packages to be merged. There is no value if the node is dropped. -/
def transform (site : Site) (scope : Scope) (sub : Option Pattern) : Value → Run (Option Value)
  | .null => return some .null
  | .bool b => return some (.bool b)
  | .int i => return some (.int i)
  | .float x => return some (.float x)
  | .str text =>
    match sub with
    | none => return some (.str text)
    | some p => return some ((← site.logged (interpolate p scope text)).getD (.str text))
  | .seq items => do return some (.seq (← transformItems site scope sub items))
  | .map entries => do
    let entries ← transformEntries site scope sub entries
    return some (.map (← site.resolveMergeKey (Mapping.ofList entries)))
  | .tagged tag mark payload =>
    match tag with
    | .sub name => do
      let p ← site.pattern scope name
      transform site scope (some p) payload
    | .nosub | .alias => transform site scope none payload
    | .cond => transformCondition site scope sub mark payload
    | .inclusion => do
      let arguments ← transform site scope sub payload
      match Arguments.ofPayload? "file" (arguments.getD .null) with
      | some arguments => return some (← site.inclusion mark arguments scope)
      | none =>
        site.warnAt mark "Failed to process !include: missing 'file' parameter"
        return none
    | .insertion => do
      let arguments ← transform site scope sub payload
      match Arguments.ofPayload? "template" (arguments.getD .null) with
      | some arguments => site.insertion mark arguments scope
      | none =>
        site.warnAt mark "Failed to process !insert: missing template name"
        return none
    | .replacement => do
      let payload ← transform site scope sub payload
      return some (.tagged .replacement mark (payload.getD .null))
    | .removal => return some (.tagged .removal mark payload)
    | .mergeKey => return some (.tagged .mergeKey mark payload)
    | .unknown name => do
      site.warnAt mark s!"Unknown tag '!{name}' ignored"
      transform site scope sub payload
/-- Items that are dropped leave no gap. -/
def transformItems (site : Site) (scope : Scope) (sub : Option Pattern) : List Value → Run (List Value)
  | [] => return []
  | item :: rest => do
    let item ← transform site scope sub item
    return item.toList ++ (← transformItems site scope sub rest)
/-- An entry is dropped with its key, whose value is then left alone, or with its value. -/
def transformEntries (site : Site) (scope : Scope) (sub : Option Pattern) :
    List (Value × Value) → Run (List (Value × Value))
  | [] => return []
  | (key, value) :: rest => do
    match ← transform site scope sub key with
    | none => transformEntries site scope sub rest
    | some key =>
      match ← transform site scope sub value with
      | none => transformEntries site scope sub rest
      | some value => return (key, value) :: (← transformEntries site scope sub rest)
/-- Transforms what stands under a key, if there is anything. -/
def transformAt (site : Site) (scope : Scope) (sub : Option Pattern) (key : String) :
    List (Value × Value) → Run (Option Value)
  | [] => return none
  | (k, value) :: rest =>
    if Value.str key == k then transform site scope sub value else transformAt site scope sub key rest
/-- Transforms the branch that is chosen, and no other: of a mapping with a condition, or of the first
clause in a sequence that applies. -/
def transformCondition (site : Site) (scope : Scope) (sub : Option Pattern) (mark : Nat) :
    Value → Run (Option Value)
  | .map clause =>
    if Mapping.contains clause (.str "if") then do
      let condition ← transformAt site scope sub "if" clause
      if ← site.holds scope condition then transformAt site scope sub "then" clause
      else transformAt site scope sub "else" clause
    else do
      site.warnAt mark "Failed to process !if: missing 'if' condition"
      return none
  | .seq clauses => transformClauses site scope sub 1 clauses
  | other => do
    let got := other.typeName
    site.warnAt mark s!"Failed to process !if: expected a mapping or a sequence, got {got}"
    return none
def transformClauses (site : Site) (scope : Scope) (sub : Option Pattern) (position : Nat) :
    List Value → Run (Option Value)
  | [] => return none
  | clause :: rest => do
    match ← transformClause site scope sub position clause with
    | some branch => return branch
    | none => transformClauses site scope sub (position + 1) rest
/-- The branch of a clause, `none` if the clause does not apply. -/
def transformClause (site : Site) (scope : Scope) (sub : Option Pattern) (position : Nat) :
    Value → Run (Option (Option Value))
  | .tagged .alias _ payload => transformClause site scope sub position payload
  | .map clause =>
    if Mapping.contains clause (.str "else") then do
      return some (← transformAt site scope sub "else" clause)
    else
      match conditionKey? clause with
      | none => do
        site.warn s!"Failed to process !if: clause {position} has no 'if', 'elseif' or 'else'"
        return none
      | some key => do
        let condition ← transformAt site scope sub key clause
        if ← site.holds scope condition then return some (← transformAt site scope sub "then" clause)
        else return none
  | other => do
    let got := other.typeName
    site.warn s!"Failed to process !if: clause {position} must be a mapping, got {got}"
    return none
end

end ConfigWeave
