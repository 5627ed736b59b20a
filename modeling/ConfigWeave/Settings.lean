import ConfigWeave.Number.Read
import ConfigWeave.Path
import ConfigWeave.Text.Basic

namespace ConfigWeave

/-- Where documents may lie and how deeply they may include each other. Targets that start with `@` are
relative to `root`, those that start with `$` to `includeRoot`. -/
structure Settings where
  root : Path
  includeRoot : Path
  maxDepth : Nat
deriving Repr

/-- Why settings cannot be read. -/
inductive SettingsError where
  | invalidNumber (variableName value : String)
deriving DecidableEq, Repr

def SettingsError.message : SettingsError → String
  | .invalidNumber variableName value => s!"{variableName} must be a positive number, got '{value}'"

namespace Settings

def rootVariable : String := "YAMLCOMPOSER_ROOT"

def includeRootVariable : String := "YAMLCOMPOSER_INCLUDE_ROOT"

def maxDepthVariable : String := "YAMLCOMPOSER_MAX_INCLUDE_DEPTH"

def defaultMaxDepth : Nat := 100

/-- The settings for a root directory, with shared documents in a directory below it. -/
def ofRoot (root : Path) : Settings where
  root := root
  includeRoot := root.join ⟨"yamlcomposer"⟩
  maxDepth := defaultMaxDepth

/-- A number of up to 64 bits, with blanks around it and a plus sign in front if need be. -/
def depth? (text : String) : Option Nat :=
  let digits := match Text.trim text.toList with
    | '+' :: rest => rest
    | cs => cs
  Number.natural? 10 18446744073709551615 digits

/-- The settings that the environment asks for. Without a root the working directory serves as one. -/
def ofEnvironment (environment : List (String × String)) (working : Path) : Except SettingsError Settings :=
  let settings := ofRoot ((environment.lookup rootVariable).elim working Path.mk)
  let settings := { settings with
    includeRoot := (environment.lookup includeRootVariable).elim settings.includeRoot Path.mk }
  match environment.lookup maxDepthVariable with
  | none => .ok settings
  | some text =>
    match depth? text with
    | some maxDepth => .ok { settings with maxDepth }
    | none => .error (.invalidNumber maxDepthVariable text)

/-- The path that a target stands for in a file. Without a mark in front it is relative to the file. -/
def locate (settings : Settings) (file : Path) (target : String) : Path :=
  let below (base : Path) (rest : List Char) := base.join ⟨String.ofList (rest.dropWhile (· == '/'))⟩
  match target.toList with
  | '@' :: rest => below settings.root rest
  | '$' :: rest => below settings.includeRoot rest
  | _ => (file.parent?.getD ⟨""⟩).join ⟨target⟩

end Settings

end ConfigWeave
