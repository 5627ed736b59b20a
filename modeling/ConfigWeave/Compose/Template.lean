import ConfigWeave.Compose.Transform

namespace ConfigWeave

/-- The templates of a document by name. Their bodies are kept as they were written. -/
structure Templates where
  bodies : Bindings

namespace Templates

def empty : Templates := ⟨[]⟩

def isEmpty (templates : Templates) : Bool :=
  templates.bodies.isEmpty

def size (templates : Templates) : Nat :=
  templates.bodies.length

def names (templates : Templates) : List String :=
  templates.bodies.names

def get? (templates : Templates) (name : String) : Option Value :=
  templates.bodies.get? name

def define (templates : Templates) (name : String) (body : Value) : Templates :=
  ⟨templates.bodies.set name body⟩

/-- Templates as the entries of a mapping give them. The last one of a name counts. -/
def ofMapping (entries : Mapping) : Templates :=
  entries.foldl (fun templates entry => templates.define entry.1.keyText entry.2) empty

/-- How a template is instantiated at a place, with the templates around that place, the outermost first. -/
abbrev Instantiation := (inserting : List String) → (mark : Nat) → Arguments → Scope → Run (Option Value)

/-- An instance of a template, with the variables of the place where it is inserted and those of the
arguments. None of the templates around that place can be inserted. `nested` instantiates the templates that
the body asks for, unless there can be none that are left. -/
def instantiateWith (document : OpenDocument) (templates : Templates) (nested : Option Instantiation) :
    Instantiation := fun inserting mark arguments scope =>
  let name := arguments.target
  match templates.get? name with
  | none => do
    document.warnAt mark s!"Failed to process !insert: template not found: '{name}'"
    return none
  | some body =>
    let circular : ComposeError := .circularInsertion (document.locate mark) (inserting ++ [name])
    if name ∈ inserting then .fail circular
    else
      match nested with
      | none => .fail circular
      | some instantiate => do
        let (inner, refused) := scope.overlay arguments.vars
        document.warnAll refused
        transform ⟨document, instantiate (inserting ++ [name])⟩ inner none body

/-- Instantiates templates within others, so many levels deep. -/
def nested (document : OpenDocument) (templates : Templates) : (budget : Nat) → Option Instantiation
  | 0 => none
  | budget + 1 => some (instantiateWith document templates (nested document templates budget))

/-- The document with its templates, outside of all of them. As a template cannot contain itself, they are
never nested more deeply than there are templates. -/
def site (templates : Templates) (document : OpenDocument) : Site :=
  ⟨document, instantiateWith document templates (nested document templates templates.size) []⟩

/-- Defines templates with names that are transformed and bodies below a tag of the same kind as theirs. -/
def defineTagged (site : Site) (scope : Scope) (p : Pattern) (tag : Tag) (mark : Nat) (templates : Templates) :
    List (Value × Value) → Run Templates
  | [] => return templates
  | (name, body) :: rest => do
    match ← transform site scope (some p) name with
    | none => defineTagged site scope p tag mark templates rest
    | some name =>
      defineTagged site scope p tag mark (templates.define name.keyText (.tagged tag mark body)) rest

/-- The templates that a document declares, without any if what it declares is no mapping. -/
def ofSection (document : OpenDocument) (scope : Scope) (declared : Value) : Run Templates :=
  let site := empty.site document
  let invalid (v : Value) : Run Templates := do
    let got := v.typeName
    document.warn s!"The 'templates' section must be a mapping, got {got}"
    return empty
  match declared.unaliased with
  | .null => return empty
  | .map entries => return ofMapping entries
  | .tagged (.sub name) mark (.map entries) => do
    let p ← site.pattern scope name
    defineTagged site scope p (.sub name) mark empty entries
  | .tagged .inclusion mark payload => do
    match ← transform site scope none (.tagged .inclusion mark payload) with
    | some (.map entries) => return ofMapping entries
    | some .null | none => return empty
    | some other => invalid other
  | .tagged _ _ payload => invalid payload
  | other => invalid other

end Templates

end ConfigWeave
