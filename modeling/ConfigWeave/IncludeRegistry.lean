import ConfigWeave.Path

namespace ConfigWeave

/-- Sets of paths by path, in the order in which they were added. -/
abbrev PathIndex := List (Path × List Path)

namespace PathIndex

def get? (index : PathIndex) (key : Path) : Option (List Path) :=
  (index.find? fun entry => key == entry.1).map (·.2)

/-- Adds a path to the end of a set, unless it is in there. -/
def addTo (set : List Path) (path : Path) : List Path :=
  if set.any (path == ·) then set else set ++ [path]

/-- Adds a path to the set of a key. -/
def add (key path : Path) : PathIndex → PathIndex
  | [] => [(key, [path])]
  | (k, set) :: rest => if key == k then (k, addTo set path) :: rest else (k, set) :: add key path rest

def erase (index : PathIndex) (key : Path) : PathIndex :=
  index.filter fun entry => !(key == entry.1)

/-- Gives a key a set, in the place of the one that it had. -/
def insert (key : Path) (set : List Path) : PathIndex → PathIndex
  | [] => [(key, set)]
  | (k, old) :: rest => if key == k then (k, set) :: rest else (k, old) :: insert key set rest

/-- Removes a path from the set of a key. A set that becomes empty is dropped. -/
def removeFrom (key path : Path) : PathIndex → PathIndex
  | [] => []
  | (k, set) :: rest =>
    if key == k then
      match set.filter fun other => !(path == other) with
      | [] => rest
      | set => (k, set) :: rest
    else (k, set) :: removeFrom key path rest

end PathIndex

/-- Which main documents include which files, to be asked from either side. -/
structure IncludeRegistry where
  includesByMain : PathIndex
  mainsByInclude : PathIndex
deriving Repr

namespace IncludeRegistry

def empty : IncludeRegistry := ⟨[], []⟩

def register (r : IncludeRegistry) (main included : Path) : IncludeRegistry :=
  ⟨PathIndex.add main included r.includesByMain, PathIndex.add included main r.mainsByInclude⟩

def includesFor (r : IncludeRegistry) (main : Path) : List Path :=
  (r.includesByMain.get? main).getD []

def mainsFor (r : IncludeRegistry) (included : Path) : List Path :=
  (r.mainsByInclude.get? included).getD []

def hasInclude (r : IncludeRegistry) (included : Path) : Bool :=
  (r.mainsByInclude.get? included).isSome

/-- The main documents with at least one include. -/
def mains (r : IncludeRegistry) : List Path :=
  r.includesByMain.map (·.1)

/-- Forgets a main document with all its includes. -/
def removeMain (r : IncludeRegistry) (main : Path) : IncludeRegistry :=
  ⟨r.includesByMain.erase main,
    (r.includesFor main).foldl (fun index included => PathIndex.removeFrom included main index) r.mainsByInclude⟩

/-- Puts the includes of a main document in the place of those that it had. Without any it is forgotten. -/
def replace (r : IncludeRegistry) (main : Path) (includes : List Path) : IncludeRegistry :=
  let includes := includes.foldl PathIndex.addTo []
  let r := r.removeMain main
  if includes.isEmpty then r
  else
    ⟨PathIndex.insert main includes r.includesByMain,
      includes.foldl (fun index included => PathIndex.add included main index) r.mainsByInclude⟩

end IncludeRegistry

end ConfigWeave
