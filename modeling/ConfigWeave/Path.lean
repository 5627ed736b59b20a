namespace ConfigWeave

/-- A path as it was written. Paths are equal when their components are, so repeated separators and a
dot between them do not matter. -/
structure Path where
  text : String
deriving Repr, Inhabited

namespace Path

def isAbsolute (path : Path) : Bool :=
  path.text.toList.head? == some '/'

/-- What stands between the separators. -/
def segments (path : Path) : List String :=
  (path.text.toList.splitOn '/').map String.ofList

/-- Whether the segment at the front of a path, or behind its front, names something. -/
def isName (front : Bool) (segment : String) : Bool :=
  segment != "" && (front || segment != ".")

/-- The names along a path. A leading dot counts as a name of its own. -/
def names (path : Path) : List String :=
  match path.segments with
  | [] => []
  | first :: rest => (if isName true first then [first] else []) ++ rest.filter (isName false)

instance : BEq Path where
  beq a b := a.isAbsolute == b.isAbsolute && a.names == b.names

/-- The rank of a component: the root comes before the dots, and these before names. -/
private def rank : String → Nat
  | "/" => 0
  | "." => 1
  | ".." => 2
  | _ => 3

private def leComponents : List String → List String → Bool
  | [], _ => true
  | _ :: _, [] => false
  | a :: as, b :: bs => if a == b then leComponents as bs else decide (rank a < rank b ∨ rank a = rank b ∧ a < b)

/-- The order of paths, component by component. -/
def le (a b : Path) : Bool :=
  let components (path : Path) := (if path.isAbsolute then ["/"] else []) ++ path.names
  leComponents (components a) (components b)

/-- Appends a relative path; an absolute one replaces the whole. -/
def join (base other : Path) : Path :=
  if other.isAbsolute || base.text.isEmpty then other
  else if base.text.toList.getLast? == some '/' then ⟨base.text ++ other.text⟩
  else ⟨base.text ++ "/" ++ other.text⟩

/-- Drops what names nothing from the end of the segments, given in reverse with the front last. -/
private def dropUnnamed : List String → List String
  | [] => []
  | [front] => [front]
  | segment :: rest => if isName false segment then segment :: rest else dropUnnamed rest

private def ofReversed (absolute : Bool) (reversed : List String) : Path :=
  match dropUnnamed reversed with
  | [""] | [] => if absolute then ⟨"/"⟩ else ⟨""⟩
  | segments => ⟨"/".intercalate segments.reverse⟩

/-- The path without its last name. The root and the empty path have none. -/
def parent? (path : Path) : Option Path :=
  match dropUnnamed path.segments.reverse with
  | [] => none
  | [front] => if front == "" then none else some ⟨""⟩
  | _ :: rest => some (ofReversed path.isAbsolute rest)

/-- The last name of the path, if it stands for an entry of a directory. -/
def fileName? (path : Path) : Option String :=
  match path.names.getLast? with
  | some name => if name == "." || name == ".." then none else some name
  | none => none

/-- A file name cut at its last dot, unless that is its first character. -/
private def splitExtension (name : String) : String × Option String :=
  let reversed := name.toList.reverse
  match reversed.dropWhile (· != '.') with
  | [] | ['.'] => (name, none)
  | _ :: stem => (String.ofList stem.reverse, some (String.ofList (reversed.takeWhile (· != '.')).reverse))

def fileStem? (path : Path) : Option String :=
  path.fileName?.map fun name => (splitExtension name).1

def extension? (path : Path) : Option String :=
  path.fileName?.bind fun name => (splitExtension name).2

/-- Drops the given names one by one together with what names nothing in front of them. -/
private def dropNames : (front : Bool) → List String → List String → Option (List String)
  | _, segments, [] => some segments
  | _, [], _ :: _ => none
  | front, segment :: rest, name :: names =>
    if isName front segment then if segment == name then dropNames false rest names else none
    else dropNames false rest (name :: names)

/-- The path as seen from a directory that it starts with. Every path starts with the empty one. -/
def relativeTo? (path base : Path) : Option Path :=
  if base.names.isEmpty && !base.isAbsolute then some (ofReversed path.isAbsolute path.segments.reverse)
  else if path.isAbsolute != base.isAbsolute then none
  else
    (dropNames true path.segments base.names).map fun rest =>
      ofReversed false (rest.dropWhile (!isName false ·)).reverse

theorem ok_of_text {ε : Type} {x : Except ε Path} {text : String} (found : x.toOption.map Path.text = some text) :
    x = .ok ⟨text⟩ := by
  cases x with
  | error e => cases found
  | ok path =>
    cases found
    rfl

end Path

end ConfigWeave
