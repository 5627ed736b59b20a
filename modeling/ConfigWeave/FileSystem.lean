import ConfigWeave.Path

namespace ConfigWeave

/-- Why a file cannot be had. -/
inductive FileError where
  | notFound
  | notDirectory
  | isDirectory
  | tooManyLinks
deriving DecidableEq, Repr

def FileError.text : FileError → String
  | .notFound => "No such file or directory (os error 2)"
  | .notDirectory => "Not a directory (os error 20)"
  | .isDirectory => "Is a directory (os error 21)"
  | .tooManyLinks => "Too many levels of symbolic links (os error 40)"

/-- When something was changed last: at a time that was set, or by one of the changes of a file system, which
are counted. No two of these are the same moment. -/
inductive Moment where
  | stated (seconds : Nat)
  | change (number : Nat)
deriving DecidableEq, Repr

/-- What a place in the file system holds. -/
inductive FileNode where
  | file (bytes : List UInt8) (modified : Moment)
  | directory (modified : Moment)
  | link (target : Path)

/-- A place as the names from the root down to it. -/
abbrev Place := List String

/-- The path of a place. -/
def Place.path (place : Place) : Path :=
  ⟨"/" ++ "/".intercalate place⟩

/-- A tree of files below the root directory. `working` is the place that relative paths start from, and
`changes` counts what has been changed. -/
structure FileSystem where
  nodes : List (Place × FileNode)
  working : Place
  changes : Nat

namespace FileSystem

def empty : FileSystem := ⟨[], [], 0⟩

def at? (fs : FileSystem) (place : Place) : Option FileNode :=
  if place.isEmpty then some (.directory (.change 0)) else fs.nodes.lookup place

/-- Puts a node at a place. -/
private def set (fs : FileSystem) (place : Place) (node : FileNode) : FileSystem :=
  { fs with nodes := (place, node) :: fs.nodes.filter (·.1 != place), changes := fs.changes + 1 }

/-- Notes that the entries of the directory above a place have changed. -/
private def stampAbove (fs : FileSystem) (place : Place) : FileSystem :=
  fs.set place.dropLast (.directory (.change fs.changes))

/-- Puts a node at a place below a directory. A new entry changes the directory as well. -/
def put (fs : FileSystem) (place : Place) (node : FileNode) : FileSystem :=
  if (fs.at? place).isSome then fs.set place node else (fs.stampAbove place).set place node

/-- What is to be done about a place on the way where there is nothing; `last` says whether the way ends
there. -/
abbrev OnMissing := FileSystem → Place → (last : Bool) → Except FileError FileSystem

/-- The end of a way, and the file system that the way leaves behind. -/
abbrev Reached := Except FileError (Place × FileSystem)

/-- Follows segments of a path from a directory. A link is replaced by its target through `follow`,
which gets the directory to start from and the segments that remain. -/
def walk (onMissing : OnMissing) (follow : FileSystem → Place → List String → Reached) (fs : FileSystem)
    (here : Place) : List String → Reached
  | [] => .ok (here, fs)
  | segment :: rest =>
    if segment == "" || segment == "." then walk onMissing follow fs here rest
    else if segment == ".." then walk onMissing follow fs here.dropLast rest
    else
      let next := here ++ [segment]
      match fs.at? next with
      | none =>
        match onMissing fs next rest.isEmpty with
        | .ok fs => walk onMissing follow fs next rest
        | .error e => .error e
      | some (.directory _) => walk onMissing follow fs next rest
      | some (.file ..) => if rest.isEmpty then .ok (next, fs) else .error .notDirectory
      | some (.link target) => follow fs (if target.isAbsolute then [] else here) (target.segments ++ rest)

/-- As `walk` with at most `links` links on the way. -/
def walkWithin (onMissing : OnMissing) : (links : Nat) → FileSystem → Place → List String → Reached
  | 0 => walk onMissing fun _ _ _ => .error .tooManyLinks
  | links + 1 => walk onMissing (walkWithin onMissing links)

/-- Follows a path from the root through no more than forty links. -/
def reach (onMissing : OnMissing) (fs : FileSystem) (path : Path) : Reached :=
  if path.text.isEmpty then .error .notFound
  else walkWithin onMissing 40 fs [] (fs.working.path.join path).segments

/-- The place that a path leads to. -/
def resolve (fs : FileSystem) (path : Path) : Except FileError Place :=
  (reach (fun _ _ _ => .error .notFound) fs path).map (·.1)

/-- The absolute path without links and dots that a path stands for. -/
def canonical (fs : FileSystem) (path : Path) : Except FileError Path :=
  (fs.resolve path).map Place.path

/-- The moment at which a file or directory was changed last. -/
def modified (fs : FileSystem) (path : Path) : Except FileError Moment := do
  match fs.at? (← fs.resolve path) with
  | some (.file _ modified) | some (.directory modified) => .ok modified
  | _ => .error .notFound

/-- The contents of a file. -/
def read (fs : FileSystem) (path : Path) : Except FileError (List UInt8) := do
  match fs.at? (← fs.resolve path) with
  | some (.file bytes _) => .ok bytes
  | _ => .error .isDirectory

/-- Makes the directories on a path that are missing. -/
def makeDirectories (fs : FileSystem) (path : Path) : Except FileError FileSystem :=
  (reach (fun fs place _ => .ok (fs.put place (.directory (.change fs.changes)))) fs path).map (·.2)

/-- Makes the directories above the last name of a path. -/
private def makeAbove (fs : FileSystem) (path : Path) : Except FileError FileSystem :=
  match path.parent? with
  | some parent => if parent.text.isEmpty then .ok fs else fs.makeDirectories parent
  | none => .ok fs

/-- The place of the last name of a path, which is not followed if it is a link. -/
private def placeOf (fs : FileSystem) (path : Path) : Except FileError Place := do
  match path.parent?, path.fileName? with
  | some parent, some name =>
    if parent.text.isEmpty then return fs.working ++ [name] else return (← fs.resolve parent) ++ [name]
  | _, _ => .error .isDirectory

/-- Writes a file. One that is missing is made along with the directories above it, also where a link leads
to it. -/
def write (fs : FileSystem) (path : Path) (bytes : List UInt8) : Except FileError FileSystem := do
  let fs ← fs.makeAbove path
  let (place, fs) ← reach (fun fs _ last => if last then .ok fs else .error .notFound) fs path
  match fs.at? place with
  | some (.directory _) => .error .isDirectory
  | _ => return fs.put place (.file bytes (.change fs.changes))

/-- Makes a link along with the directories above it. -/
def link (fs : FileSystem) (path target : Path) : Except FileError FileSystem := do
  let fs ← fs.makeAbove path
  return fs.put (← fs.placeOf path) (.link target)

/-- Sets the time at which a file or directory was changed. -/
def touch (fs : FileSystem) (path : Path) (seconds : Nat) : Except FileError FileSystem := do
  let place ← fs.resolve path
  match fs.at? place with
  | some (.file bytes _) => return fs.put place (.file bytes (.stated seconds))
  | _ => return fs.put place (.directory (.stated seconds))

/-- Removes what the last name of a path stands for, and all that lies below it. -/
def delete (fs : FileSystem) (path : Path) : Except FileError FileSystem := do
  let place ← fs.placeOf path
  match fs.at? place with
  | none => .error .notFound
  | some _ =>
    return { fs with nodes := fs.nodes.filter fun entry => !place.isPrefixOf entry.1 }.stampAbove place

/-- Makes a directory, unless it is there, and lets relative paths start from it. -/
def enter (fs : FileSystem) (path : Path) : Except FileError FileSystem := do
  let fs ← fs.makeDirectories path
  return { fs with working := ← fs.resolve path }

end FileSystem

end ConfigWeave
