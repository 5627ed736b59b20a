import ConfigWeave.FileSystem

namespace ConfigWeave

/-- The contents of a file and the time of their last change. -/
structure CacheEntry where
  bytes : List UInt8
  modified : Moment
deriving Repr

/-- Contents of files that have been read. An entry counts only while the file has the time of change
that it was read with. -/
structure FileCache where
  entries : List (Path × CacheEntry)
  diskReads : Nat
deriving Repr

namespace FileCache

def empty : FileCache := ⟨[], 0⟩

def size (cache : FileCache) : Nat :=
  cache.entries.length

def contains (cache : FileCache) (path : Path) : Bool :=
  cache.entries.any fun entry => path == entry.1

/-- The contents kept for a file, if they were read at its last change. -/
def get? (cache : FileCache) (path : Path) (modified : Moment) : Option (List UInt8) :=
  match cache.entries.find? fun entry => path == entry.1 with
  | some (_, entry) => if entry.modified = modified then some entry.bytes else none
  | none => none

def insert (cache : FileCache) (path : Path) (entry : CacheEntry) : FileCache :=
  { cache with entries := (path, entry) :: cache.entries.filter fun other => !(path == other.1) }

/-- The contents of a file, and the cache behind the read. Only what is not kept is read from disk; a read
that fails changes nothing. -/
def fetch (cache : FileCache) (fs : FileSystem) (path : Path) : Except FileError (List UInt8) × FileCache :=
  match fs.modified path with
  | .error e => (.error e, cache)
  | .ok modified =>
    match cache.get? path modified with
    | some bytes => (.ok bytes, cache)
    | none =>
      match fs.read path with
      | .error e => (.error e, cache)
      | .ok bytes => (.ok bytes, { cache.insert path ⟨bytes, modified⟩ with diskReads := cache.diskReads + 1 })

end FileCache

end ConfigWeave
