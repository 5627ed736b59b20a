import ConfigWeave.Bindings
import ConfigWeave.Path
import ConfigWeave.Value.Mapping
import ConfigWeave.Value.Written

namespace ConfigWeave

/-- Variables by name, in the order in which they were defined. -/
structure Scope where
  entries : Bindings
deriving Inhabited

namespace Scope

/-- The names that describe the document itself. They stand in front of every scope of a document and
cannot be defined otherwise. -/
def builtinNames : List String :=
  ["__FILE__", "__FILE_NAME__", "__FILE_EXT__", "__DIRECTORY__", "__RELATIVE_FILE__", "CONFIG_ROOT", "ENV"]

def isBuiltin (name : String) : Bool :=
  name ∈ builtinNames

def empty : Scope := ⟨[]⟩

def get? (scope : Scope) (name : String) : Option Value :=
  scope.entries.get? name

def contains (scope : Scope) (name : String) : Bool :=
  (scope.get? name).isSome

def names (scope : Scope) : List String :=
  scope.entries.names

/-- Gives a variable a value. A known one keeps its place, a built-in one its value. -/
def define (scope : Scope) (name : String) (value : Value) : Scope :=
  if isBuiltin name then scope else ⟨scope.entries.set name value⟩

/-- Defines variables in order and says which of them were refused. -/
def defineAll (scope : Scope) : List (String × Value) → Scope × List String
  | [] => (scope, [])
  | (name, value) :: rest =>
    let (result, refused) := (scope.define name value).defineAll rest
    (result, if isBuiltin name then name :: refused else refused)

/-- The message about a built-in variable that was to be defined. -/
def refusal (name : String) : String :=
  s!"Cannot override built-in variable '{name}'"

/-- The entries of a mapping as variables, named by the text of their keys. -/
def ofMapping (vars : Mapping) : List (String × Value) :=
  vars.map fun (key, value) => (key.keyText, value)

/-- The scope with further variables, and the messages about those that were refused. -/
def overlay (scope : Scope) (vars : Mapping) : Scope × List String :=
  let (result, refused) := scope.defineAll (ofMapping vars)
  (result, refused.map refusal)

/-- What an included document is given: the variables that are not built-in, and further ones. -/
def inherit (scope : Scope) (vars : Mapping) : Scope × List String :=
  overlay ⟨scope.entries.filter fun entry => !isBuiltin entry.1⟩ vars

/-- Defines all variables of another scope but the built-in ones. -/
def extend (scope other : Scope) : Scope :=
  other.entries.foldl (fun scope entry => scope.define entry.1 entry.2) scope

/-- The scope as a mapping. -/
def toValue (scope : Scope) : Value :=
  .map (scope.entries.map fun (name, value) => (.str name, value))

/-- The built-in variables of a file below `root`, whose path without links is `resolvedRoot`. The
environment is listed by name. -/
def builtin (file root resolvedRoot : Path) (environment : List (String × String)) : Scope :=
  let relative := (file.relativeTo? resolvedRoot <|> file.relativeTo? root).getD file
  let sorted := environment.mergeSort fun a b => decide (a.1 ≤ b.1)
  ⟨[("__FILE__", .str file.text),
    ("__FILE_NAME__", .str (file.fileStem?.getD "")),
    ("__FILE_EXT__", .str (file.extension?.getD "")),
    ("__DIRECTORY__", .str ((file.parent?.map Path.text).getD "")),
    ("__RELATIVE_FILE__", .str relative.text),
    ("CONFIG_ROOT", .str root.text),
    ("ENV", .map (Mapping.ofList (sorted.map fun (name, value) => (.str name, .str value))))]⟩

end Scope

end ConfigWeave
