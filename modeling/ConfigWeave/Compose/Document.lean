import ConfigWeave.Compose.Package
import ConfigWeave.Compose.Variables
import ConfigWeave.FileCache
import ConfigWeave.Value.Finished
import ConfigWeave.Yaml.Document

namespace ConfigWeave

/-- The keys under which a document declares what it does not contain itself. -/
def sectionKeys : List String :=
  ["variables", "templates", "packages"]

/-- The entries of a document without its sections. -/
def Mapping.withoutSections (entries : Mapping) : Mapping :=
  sectionKeys.foldl (fun m name => Mapping.erase m (.str name)) entries

namespace OpenDocument

/-- The scope of a document with the variables that it declares. Names that are inherited are not declared
anew. -/
def ownScope (document : OpenDocument) (scope inherited : Scope) (entries : Mapping) : Run Scope :=
  match entries.get? (.str "variables") with
  | some declared => scope.ofSection document inherited.contains declared
  | none => return scope

/-- The templates that a document declares. -/
def ownTemplates (document : OpenDocument) (scope : Scope) (entries : Mapping) : Run Templates :=
  match entries.get? (.str "templates") with
  | some declared => Templates.ofSection document scope declared
  | none => return .empty

end OpenDocument

/-- The tree of a document with the packages merged into it that the document declares. -/
def Site.withPackages (site : Site) (scope : Scope) (tree entries : Mapping) : Run Mapping :=
  match entries.get? (.str "packages") with
  | some declared => mergePackages site scope tree declared
  | none => return tree

/-- Composes the content of a document. A mapping may declare variables, templates and packages under keys
that are taken out of it; those that are declared later may use those before them, and packages are merged
into the rest when it is done. -/
def OpenDocument.compose (document : OpenDocument) (scope inherited : Scope) (content : Value) : Run Value := do
  match content with
  | .map entries =>
    let scope ← document.ownScope scope inherited entries
    let templates ← document.ownTemplates scope entries
    let site := templates.site document
    match ← transform site scope none (.map (Mapping.withoutSections entries)) with
    | some (.map tree) => return .map (← site.withPackages scope tree entries).withoutHidden
    | other => return other.getD .null
  | content =>
    return (← transform (Templates.empty.site document) scope none content).getD .null

/-- How a file is composed below a stack of files, with the variables that it inherits. -/
abbrev Composition := (stack : List Path) → (file : Path) → (inherited : Scope) → Run Value

/-- What a composition may look at. -/
structure World where
  files : FileSystem
  cache : FileCache
  environment : List (String × String)
  settings : Settings

namespace World

/-- The built-in variables of a file. -/
def builtins (world : World) (file : Path) : Scope :=
  let root := world.settings.root
  Scope.builtin file root ((world.files.canonical root).toOption.getD root) world.environment

/-- Opens a file and reads its text. -/
def readText (world : World) (file : Path) : Run String := do
  .report (.opened file)
  match (world.cache.fetch world.files file).1 with
  | .error cause => .fail (.unreadable file cause)
  | .ok bytes =>
    match String.fromUTF8? ⟨bytes.toArray⟩ with
    | some text => return text
    | none => .fail (.encoding file)

/-- Composes what a file asks for. `stack` are the files that are being composed, this one last: none of
them can be included. `nested` composes the others, unless they would be nested too deeply. -/
def inclusion (world : World) (nested : Option Composition) (stack : List Path) (file : Path) (lines : LineIndex)
    (mark : Nat) (arguments : Arguments) (scope : Scope) : Run Value :=
  let path := world.settings.locate file arguments.target
  let location := lines.locate file.text mark
  match world.files.canonical path with
  | .error cause => .fail (.unreadable path cause)
  | .ok target =>
    if stack.any (target == ·) then .fail (.circularInclusion location (stack ++ [target]))
    else
      match nested with
      | none => .fail (.tooDeep location world.settings.maxDepth target)
      | some compose => do
        .report (.included target)
        let (inherited, refused) := scope.inherit arguments.vars
        .reportAll (refused.map (.warned file))
        compose (stack ++ [target]) target inherited

/-- A file with the given text, open to be composed. -/
def document (world : World) (nested : Option Composition) (stack : List Path) (file : Path) (text : String) :
    OpenDocument :=
  let lines := LineIndex.ofText text
  ⟨file, lines, world.inclusion nested stack file lines⟩

/-- Composes a file, and with `nested` what it includes. -/
def composeWith (world : World) (nested : Option Composition) : Composition := fun stack file inherited => do
  let text ← world.readText file
  match Yaml.parse? text with
  | none => .fail (.malformed file)
  | some content =>
    (world.document nested stack file text).compose ((world.builtins file).extend inherited) inherited content

/-- Composes files that are included, so many levels deep. -/
def nested (world : World) : (budget : Nat) → Option Composition
  | 0 => none
  | budget + 1 => some fun stack file inherited => world.composeWith (world.nested budget) stack file inherited

/-- Composes a main document. -/
def load (world : World) (main : Path) : Run Value :=
  match world.files.canonical main with
  | .error cause => .fail (.unreadable main cause)
  | .ok file => do
    let compose := world.composeWith (world.nested world.settings.maxDepth)
    return (← compose [file] file .empty).finished

end World

end ConfigWeave
