import ConfigWeave.Traced

namespace ConfigWeave

/-- Why a program gives up. It is no error that anything in the program could answer to. -/
inductive Panic where
  /-- The answers to the comparisons of a sort fit no order. -/
  | noOrder
deriving DecidableEq, Repr

def Panic.message : Panic → String
  | .noOrder => "user-provided comparison function does not correctly implement a total order"

/-- A computation that asks, whenever it has to know, whether one item is less than another. It may give up. -/
inductive Comparing (ι α : Type) where
  | done (a : α)
  | panic (cause : Panic)
  | ask (first second : ι) (next : Bool → Comparing ι α)

namespace Comparing

variable {ι α β : Type}

protected def bind (x : Comparing ι α) (f : α → Comparing ι β) : Comparing ι β :=
  match x with
  | done a => f a
  | panic cause => panic cause
  | ask first second next => ask first second fun answer => (next answer).bind f

instance : Monad (Comparing ι) where
  pure := done
  bind := Comparing.bind

def isLess (first second : ι) : Comparing ι Bool :=
  ask first second done

/-- What a computation comes to with the given answers, and the pairs that it asks about. -/
def run (less : ι → ι → Bool) : Comparing ι α → Traced (ι × ι) Panic α
  | done a => ⟨[], .ok a⟩
  | panic cause => ⟨[], .error cause⟩
  | ask first second next =>
    let rest := (next (less first second)).run less
    ⟨(first, second) :: rest.trace, rest.result⟩

end Comparing

/-! The stable sort of the standard library. Short lists are sorted by insertion. Longer ones are cut into runs
that are sorted already or sorted by themselves, and the runs are merged. -/

namespace Sorting

open Comparing

variable {ι : Type}

/-- Puts an item into its place among sorted ones, which stand with the last in front. `passed` are those that it is
less than. -/
def insertTail (item : ι) (passed : List ι) : List ι → Comparing ι (List ι)
  | [] => return passed.reverseAux [item]
  | last :: rest => do
    if ← isLess item last then insertTail item (last :: passed) rest
    else return passed.reverseAux (item :: last :: rest)

/-- Puts items into their places one after the other. -/
def insertAll (sorted : List ι) : List ι → Comparing ι (List ι)
  | [] => return sorted
  | item :: rest => do insertAll (← insertTail item [] sorted) rest

/-- Sorts four items by five comparisons, the last in front. -/
def sortFour (a b c d : ι) : Comparing ι (List ι) := do
  let secondLess ← isLess b a
  let fourthLess ← isLess d c
  let (a, b) := if secondLess then (b, a) else (a, b)
  let (c, d) := if fourthLess then (d, c) else (c, d)
  let lowLess ← isLess c a
  let highLess ← isLess d b
  let least := if lowLess then c else a
  let greatest := if highLess then b else d
  let left := if lowLess then a else if highLess then c else b
  let right := if highLess then d else if lowLess then b else c
  if ← isLess right left then return [greatest, left, right, least] else return [greatest, right, left, least]

/-- What the half of a list begins with, sorted with the last in front, and the rest of it. -/
def presort (long : Bool) (half : List ι) : Comparing ι (List ι × List ι) :=
  match long, half with
  | true, a :: b :: c :: d :: rest => return (← sortFour a b c d, rest)
  | _, half => return ([], half)

/-- Two sorted lists that are being merged: what is left of them, and what is taken with the last in front. -/
structure Merging (ι : Type) where
  left : List ι
  right : List ι
  taken : List ι

namespace Merging

def takeLeft (m : Merging ι) : Merging ι :=
  ⟨m.left.tail, m.right, m.left.head?.toList ++ m.taken⟩

def takeRight (m : Merging ι) : Merging ι :=
  ⟨m.left, m.right.tail, m.right.head?.toList ++ m.taken⟩

/-- Takes the least item, of equal ones that on the left. -/
def takeFirst (m : Merging ι) : Comparing ι (Merging ι) :=
  match m.left, m.right with
  | a :: _, b :: _ => return if ← isLess b a then m.takeRight else m.takeLeft
  | _, _ => return m

/-- Takes the greatest item of lists that stand with the last in front, of equal ones that on the right. -/
def takeLast (m : Merging ι) : Comparing ι (Merging ι) :=
  match m.left, m.right with
  | a :: _, b :: _ => return if ← isLess b a then m.takeLeft else m.takeRight
  | _, _ => return m

/-- Merges from both ends so many steps. -/
def fromBothEnds : Nat → Merging ι → Merging ι → Comparing ι (Merging ι × Merging ι)
  | 0, front, back => return (front, back)
  | steps + 1, front, back => do
    let front ← front.takeFirst
    let back ← back.takeLast
    fromBothEnds steps front back

end Merging

/-- Merges two sorted lists, which stand with the last in front, from both ends at once. If there is an order, both
ends meet in the middle. -/
def mergeHalves (left right : List ι) : Comparing ι (List ι) := do
  let size := left.length + right.length
  let (front, back) ← Merging.fromBothEnds (size / 2) ⟨left.reverse, right.reverse, []⟩ ⟨left, right, []⟩
  let front :=
    if size % 2 = 0 then front
    else if left.length < front.left.length + back.left.length then front.takeLeft
    else front.takeRight
  if front.left.length + back.left.length = left.length ∧ front.right.length + back.right.length = right.length then
    return front.taken.reverse ++ back.taken
  else panic .noOrder

/-- Sorts the halves of a list by insertion and merges them. -/
def smallSort (v : List ι) : Comparing ι (List ι) :=
  if v.length < 2 then return v
  else do
    let long := 8 ≤ v.length
    let (left, leftRest) ← presort long (v.take (v.length / 2))
    let (right, rightRest) ← presort long (v.drop (v.length / 2))
    let left ← insertAll left leftRest
    let right ← insertAll right rightRest
    mergeHalves left right

/-- The longest list that is sorted by `smallSort`. -/
def smallSize : Nat := 32

/-- Merges two sorted lists from the front. `taken` has the last in front. -/
def mergeUp (taken : List ι) (left right : List ι) : Comparing ι (List ι) :=
  match left, right with
  | [], right => return taken.reverseAux right
  | left, [] => return taken.reverseAux left
  | a :: left, b :: right => do
    if ← isLess b a then mergeUp (b :: taken) (a :: left) right else mergeUp (a :: taken) left (b :: right)
termination_by left.length + right.length

/-- Merges two sorted lists, which stand with the last in front, from the end. -/
def mergeDown (taken : List ι) (left right : List ι) : Comparing ι (List ι) :=
  match left, right with
  | [], right => return right.reverseAux taken
  | left, [] => return left.reverseAux taken
  | a :: left, b :: right => do
    if ← isLess b a then mergeDown (a :: taken) left (b :: right) else mergeDown (b :: taken) (a :: left) right
termination_by left.length + right.length

/-- Merges two sorted lists, beginning where the shorter one may be used up first. -/
def merge (left right : List ι) : Comparing ι (List ι) :=
  if left.length ≤ right.length then mergeUp [] left right else mergeDown [] left.reverse right.reverse

/-- A part of a list that has been looked at. It may be left to be sorted together with its neighbours. -/
structure Stretch (ι : Type) where
  items : List ι
  sorted : Bool

/-- How far a run goes on behind its last item. -/
def runLength (descending : Bool) (length : Nat) (last : ι) : List ι → Comparing ι Nat
  | [] => return length
  | item :: rest => do
    if (← isLess item last) = descending then runLength descending (length + 1) item rest else return length

/-- The length of the run that a list begins with, and whether the run is strictly descending. -/
def existingRun : List ι → Comparing ι (Nat × Bool)
  | first :: second :: rest => do
    let descending ← isLess second first
    return (← runLength descending 2 second rest, descending)
  | v => return (v.length, false)

/-- What the sizes of a list and its parts decide about a sort. -/
structure Plan where
  size : Nat

namespace Plan

/-- About the root of a number. -/
def roughRoot (n : Nat) : Nat :=
  let shift := (1 + n.log2) / 2
  (Nat.pow 2 shift + n / Nat.pow 2 shift) / 2

/-- The least length of a run that is taken as it is. -/
def leastRun (plan : Plan) : Nat :=
  if plan.size ≤ 64 * 64 then min (plan.size - plan.size / 2) 64 else roughRoot plan.size

/-- How many values the buffer holds, which are of 72 bytes each. -/
def buffer (plan : Plan) : Nat :=
  max (plan.size - plan.size / 2) (min plan.size (8000000 / 72))

/-- The depth in the tree of merges at which two neighbouring stretches are merged: how many leading bits of 64 the
places of their middles have in common, on a scale where the list is 2^62 long. -/
def depth (plan : Plan) (start middle stop : Nat) : Nat :=
  let scale := (Nat.pow 2 62 + plan.size - 1) / plan.size
  let differing := scale * (start + middle) ^^^ scale * (middle + stop)
  if differing = 0 then 64 else 63 - differing.log2

end Plan

/-- The length of the run that the rest of a list begins with, if the rest is long enough for a run that is taken
as it is, and whether the run is strictly descending. -/
def nextRun (plan : Plan) (v : List ι) : Comparing ι (Nat × Bool) :=
  if plan.leastRun ≤ v.length then existingRun v else return (0, false)

/-- The stretch that the rest of a list begins with. A run that is long enough is taken as it is. Otherwise a few
items are sorted, or some more left unsorted if there is a way to sort them later. -/
def nextStretch (eager : Bool) (plan : Plan) (v : List ι) : Comparing ι (Stretch ι) := do
  let (length, descending) ← nextRun plan v
  if plan.leastRun ≤ length then
    return ⟨if descending then (v.take length).reverse else v.take length, true⟩
  else if eager then return ⟨← smallSort (v.take smallSize), true⟩
  else return ⟨v.take plan.leastRun, false⟩

/-- A stretch with its items sorted. -/
def Stretch.sort (quick : Option (List ι → Comparing ι (List ι))) (s : Stretch ι) : Comparing ι (List ι) :=
  match s.sorted, quick with
  | false, some quick => quick s.items
  | _, _ => return s.items

/-- Joins two stretches. They are not merged as long as both are unsorted and can be sorted together. -/
def join (quick : Option (List ι → Comparing ι (List ι))) (plan : Plan) (left right : Stretch ι) :
    Comparing ι (Stretch ι) :=
  if left.sorted || right.sorted || plan.buffer < left.items.length + right.items.length then do
    let first ← left.sort quick
    let second ← right.sort quick
    return ⟨← merge first second, true⟩
  else return ⟨left.items ++ right.items, false⟩

/-- Joins the last stretch with those before it that are to be merged at the given depth or below. -/
def collapse (quick : Option (List ι → Comparing ι (List ι))) (plan : Plan) (depth : Nat) (last : Stretch ι) :
    List (Stretch ι × Nat) → Comparing ι (List (Stretch ι × Nat) × Stretch ι)
  | [] => return ([], last)
  | (left, level) :: before => do
    if depth ≤ level then collapse quick plan depth (← join quick plan left last) before
    else return ((left, level) :: before, last)

/-- Goes on behind a stretch at a place of a list, past `skip` items that belong to it. -/
def gather (quick : Option (List ι → Comparing ι (List ι))) (plan : Plan) (before : List (Stretch ι × Nat))
    (last : Stretch ι) (place skip : Nat) : List ι → Comparing ι (Stretch ι)
  | [] => return (← collapse quick plan 0 last before).2
  | item :: rest =>
    match skip with
    | skip + 1 => gather quick plan before last place skip rest
    | 0 => do
      let next ← nextStretch quick.isNone plan (item :: rest)
      let stop := place + next.items.length
      let depth := plan.depth (place - last.items.length) place stop
      let (before, last) ← collapse quick plan depth last before
      gather quick plan ((last, depth) :: before) next stop (next.items.length - 1) rest

/-- Sorts a list by its runs. With `quick` stretches may be left unsorted until it is known with what they are
merged. -/
def drift (quick : Option (List ι → Comparing ι (List ι))) (v : List ι) : Comparing ι (List ι) := do
  let plan : Plan := ⟨v.length⟩
  let first ← nextStretch quick.isNone plan v
  let whole ← gather quick plan [] first first.items.length first.items.length v
  whole.sort quick

/-- Of three places in a list, each given by what stands from there on, that with the item in the middle. -/
def median (a b c : List ι) : Comparing ι (List ι) :=
  match a, b, c with
  | x :: _, y :: _, z :: _ => do
    let belowSecond ← isLess x y
    let belowThird ← isLess x z
    if belowSecond = belowThird then return if (← isLess y z) = belowSecond then b else c
    else return a
  | _, _, _ => return a

/-- The median of medians of three regions of `n` items each. -/
def medianOfRegions (n : Nat) (a b c : List ι) : Comparing ι (List ι) :=
  if 8 ≤ n then do
    let region (v : List ι) := medianOfRegions (n / 8) v (v.drop (n / 8 * 4)) (v.drop (n / 8 * 7))
    let a ← region a
    let b ← region b
    let c ← region c
    median a b c
  else median a b c
termination_by n

/-- The place of a pivot. -/
def choosePivot (v : List ι) : Comparing ι (List ι) :=
  let n := v.length / 8
  if v.length < 64 then median v (v.drop (n * 4)) (v.drop (n * 7))
  else medianOfRegions n v (v.drop (n * 4)) (v.drop (n * 7))

/-- Parts items by a question about each of them. What is parted already stands with the last in front. -/
def part (belongs : ι → Comparing ι Bool) (left right : List ι) : List ι → Comparing ι (List ι × List ι)
  | [] => return (left, right)
  | item :: rest => do
    if ← belongs item then part belongs (item :: left) right rest else part belongs left (item :: right) rest

/-- Parts what stands around a pivot, which itself is not asked about. -/
def partAround (belongs : ι → Comparing ι Bool) (pivotLeft : Bool) (before : List ι) (pivot : ι) (after : List ι) :
    Comparing ι (List ι × List ι) := do
  let (left, right) ← part belongs [] [] before
  let (left, right) ←
    if pivotLeft then part belongs (pivot :: left) right after else part belongs left (pivot :: right) after
  return (left.reverse, right.reverse)

/-- What is less than a pivot, and the rest. A pivot that is not greater than one further left has nothing in front
of it and is not parted by. -/
def partLess (ancestor : Option ι) (before : List ι) (pivot : ι) (after : List ι) :
    Comparing ι (List ι × List ι) := do
  let greater ← match ancestor with
    | some ancestor => isLess ancestor pivot
    | none => pure true
  if greater then partAround (isLess · pivot) false before pivot after else return ([], before ++ pivot :: after)

/-- Sorts a list by parting it around pivots. After too many of them the list is sorted by its runs. -/
def quicksort (limit : Nat) (ancestor : Option ι) (v : List ι) : Comparing ι (List ι) :=
  if v.length ≤ smallSize then smallSort v
  else
    match limit with
    | 0 => drift none v
    | limit + 1 => do
      match ← choosePivot v with
      | [] => return v
      | pivot :: after => do
        let before := v.take (v.length - (after.length + 1))
        let (left, right) ← partLess ancestor before pivot after
        if left.isEmpty then
          let (same, rest) ← partAround (fun item => return !(← isLess pivot item)) true before pivot after
          return same ++ (← quicksort limit none rest)
        else
          let right ← quicksort limit (some pivot) right
          return (← quicksort limit ancestor left) ++ right

/-- Sorts a list, equal items stay in their order. -/
def stableSort (v : List ι) : Comparing ι (List ι) :=
  if v.length ≤ 20 then return (← insertAll [] v).reverse
  else if v.length ≤ smallSize * 2 then drift none v
  else drift (some fun stretch => quicksort (2 * stretch.length.log2) none stretch) v

end Sorting

end ConfigWeave
