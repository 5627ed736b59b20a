namespace ConfigWeave

/-- The offsets behind the newlines of a text that itself starts at `offset`. -/
def lineStartsFrom (offset : Nat) : List Char → List Nat
  | [] => []
  | c :: rest =>
    if c = '\n' then (offset + 1) :: lineStartsFrom (offset + 1) rest else lineStartsFrom (offset + 1) rest

theorem pairwise_lineStartsFrom (offset : Nat) (text : List Char) :
    (offset :: lineStartsFrom offset text).Pairwise (· < ·) := by
  induction text generalizing offset with
  | nil => exact List.pairwise_singleton _ _
  | cons c rest ih =>
    have later := ih (offset + 1)
    have behind : ∀ start ∈ lineStartsFrom (offset + 1) rest, offset < start := fun start member =>
      Nat.lt_of_succ_lt ((List.pairwise_cons.mp later).1 start member)
    rw [lineStartsFrom]
    split
    · exact List.pairwise_cons.mpr ⟨List.forall_mem_cons.mpr ⟨Nat.lt_succ_self offset, behind⟩, later⟩
    · exact List.pairwise_cons.mpr ⟨behind, (List.pairwise_cons.mp later).2⟩

/-- The offsets at which the lines of a text start, in characters. The first line starts in front of all of it. -/
structure LineIndex where
  starts : Array Nat
  ascending : starts.toList.Pairwise (· < ·)
  front : starts[0]? = some 0
deriving Repr

/-- Where a number stands in an ascending array, or where it would have to be put in. -/
inductive Sought where
  | found (place : Nat)
  | missing (next : Nat)
deriving DecidableEq, Repr

/-- Looks for a number among the `size` entries from `base` on, by halves. -/
def searchFrom (entries : Array Nat) (sought base size : Nat) : Sought :=
  if 1 < size then
    let half := size / 2
    if entries[base + half]?.any (sought < ·) then searchFrom entries sought base (size - half)
    else searchFrom entries sought (base + half) (size - half)
  else
    match entries[base]? with
    | some entry =>
      if entry = sought then .found base else if entry < sought then .missing (base + 1) else .missing base
    | none => .missing base
termination_by size

namespace LineIndex

def ofText (text : String) : LineIndex where
  starts := (0 :: lineStartsFrom 0 text.toList).toArray
  ascending := pairwise_lineStartsFrom 0 text.toList
  front := rfl

def search (index : LineIndex) (offset : Nat) : Sought :=
  searchFrom index.starts offset 0 index.starts.size

/-- The line that an offset belongs to, counted from zero. -/
def line (index : LineIndex) (offset : Nat) : Nat :=
  match index.search offset with
  | .found line => line
  | .missing next => next - 1

def startOf (index : LineIndex) (line : Nat) : Nat :=
  index.starts[line]?.getD 0

/-- Line and column of an offset, both counted from one. Offsets beyond the end belong to the last
line. -/
def position (index : LineIndex) (offset : Nat) : Nat × Nat :=
  let line := index.line offset
  (line + 1, offset - index.startOf line + 1)

end LineIndex

/-- A place in a file. -/
structure Location where
  file : String
  line : Nat
  column : Nat
deriving DecidableEq, Repr

def Location.text (location : Location) : String :=
  s!"{location.file}:{location.line}:{location.column}"

def LineIndex.locate (index : LineIndex) (file : String) (offset : Nat) : Location :=
  let (line, column) := index.position offset
  ⟨file, line, column⟩

end ConfigWeave
