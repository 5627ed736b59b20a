namespace ConfigWeave.Text

/-- The code points `first`, `first + step`, up to `last`. A step of two lists the runs in which upper
and lower case letters alternate. -/
structure CodeRun where
  first : Nat
  last : Nat
  step : Nat
deriving Repr

def CodeRun.covers (run : CodeRun) (code : Nat) : Bool :=
  run.first ≤ code && code ≤ run.last && (code - run.first) % run.step == 0

/-- A run of code points whose other case starts at `image` and advances by the same step. -/
structure CaseShift where
  first : Nat
  last : Nat
  step : Nat
  image : Nat
deriving Repr

def CaseShift.shifted? (shift : CaseShift) (code : Nat) : Option Nat :=
  if (CodeRun.mk shift.first shift.last shift.step).covers code then some (shift.image + (code - shift.first))
  else none

/-- The last of the entries from `low` up to `high` that does not start behind a code point. The entries
stand in ascending order. -/
def lastStarting {Entry : Type} (start : Entry → Nat) (entries : Array Entry) (code low high : Nat) :
    Option Entry :=
  if low + 1 < high then
    let middle := (low + high) / 2
    if entries[middle]?.any (start · ≤ code) then lastStarting start entries code middle high
    else lastStarting start entries code low middle
  else entries[low]?.filter (start · ≤ code)
termination_by high - low

/-- Whether one of the runs, which do not overlap, covers a code point. -/
def covered (runs : Array CodeRun) (code : Nat) : Bool :=
  (lastStarting CodeRun.first runs code 0 runs.size).any (·.covers code)

/-- What the one of the shifts that covers a code point makes of it. -/
def shifted? (shifts : Array CaseShift) (code : Nat) : Option Nat :=
  (lastStarting CaseShift.first shifts code 0 shifts.size).bind (·.shifted? code)

/-- The entry for a code point. -/
def entryAt? {Image : Type} (entries : Array (Nat × Image)) (code : Nat) : Option Image :=
  match lastStarting Prod.fst entries code 0 entries.size with
  | some (start, image) => if start = code then some image else none
  | none => none

end ConfigWeave.Text
