import ConfigWeave.FileSystem
import ConfigWeave.Position
import ConfigWeave.Settings
import ConfigWeave.Sorting
import ConfigWeave.Traced

namespace ConfigWeave

/-- Why a document cannot be composed. A panic ends the composition without an answer. -/
inductive ComposeError where
  | unreadable (path : Path) (cause : FileError)
  | encoding (path : Path)
  | malformed (file : Path)
  | circularInclusion (location : Location) (chain : List Path)
  | tooDeep (location : Location) (limit : Nat) (path : Path)
  | circularInsertion (location : Location) (chain : List String)
  | settings (cause : SettingsError)
  | panicked (cause : Panic)
deriving Repr

def ComposeError.message : ComposeError → String
  | .unreadable path cause =>
    let path := path.text
    let cause := cause.text
    s!"Unable to read {path}: {cause}"
  | .encoding path =>
    let path := path.text
    s!"{path} is not valid UTF-8"
  | .malformed file =>
    let file := file.text
    s!"{file}: syntax error"
  | .circularInclusion location chain =>
    let location := location.text
    let chain := " -> ".intercalate (chain.map Path.text)
    s!"{location}: Circular inclusion detected: {chain}"
  | .tooDeep location limit path =>
    let location := location.text
    let path := path.text
    s!"{location}: Maximum include depth of {limit} exceeded including {path}"
  | .circularInsertion location chain =>
    let location := location.text
    let chain := " -> ".intercalate chain
    s!"{location}: Circular template insertion detected: {chain}"
  | .settings cause =>
    let cause := cause.message
    s!"Invalid configuration: {cause}"
  | .panicked cause => cause.message

/-- What a composition does besides its result: it warns about a file, opens files to read them, and
includes files. -/
inductive Effect where
  | warned (file : Path) (message : String)
  | opened (path : Path)
  | included (path : Path)
deriving Repr

/-- A composition, with all that it has done in order. -/
abbrev Run := Traced Effect ComposeError

end ConfigWeave
