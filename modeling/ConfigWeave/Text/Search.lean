namespace ConfigWeave.Text

/-- What precedes and what follows the first occurrence of `needle`. -/
def splitFirst (needle : List Char) : List Char → Option (List Char × List Char)
  | [] => if needle.isEmpty then some ([], []) else none
  | c :: rest =>
    if needle.isPrefixOf (c :: rest) then some ([], (c :: rest).drop needle.length)
    else (splitFirst needle rest).map fun (before, after) => (c :: before, after)

theorem splitFirst_eq_append {needle text before after : List Char}
    (h : splitFirst needle text = some (before, after)) : text = before ++ needle ++ after := by
  induction text generalizing before with
  | nil =>
    simp only [splitFirst] at h
    split at h
    · simp_all
    · simp at h
  | cons c rest ih =>
    simp only [splitFirst] at h
    split at h
    · rename_i lead
      obtain ⟨tail, eq⟩ := List.isPrefixOf_iff_prefix.mp lead
      obtain ⟨rfl, rfl⟩ : [] = before ∧ (c :: rest).drop needle.length = after := by simpa using h
      simp [← eq]
    · obtain ⟨⟨b, a⟩, found, eq⟩ := Option.map_eq_some_iff.mp h
      obtain ⟨rfl, rfl⟩ : c :: b = before ∧ a = after := by simpa using eq
      simp [ih found]

theorem splitFirst_eq_none {needle text : List Char} (absent : ¬needle <:+: text) :
    splitFirst needle text = none := by
  cases found : splitFirst needle text with
  | none => rfl
  | some parts =>
    obtain ⟨before, after⟩ := parts
    exact absurd ⟨before, after, (splitFirst_eq_append found).symm⟩ absent

theorem splitFirst_singleton {c : Char} {lead : List Char} (absent : c ∉ lead) (rest : List Char) :
    splitFirst [c] (lead ++ c :: rest) = some (lead, rest) := by
  induction lead with
  | nil => simp [splitFirst]
  | cons d more ih =>
    rw [List.mem_cons, not_or] at absent
    have noStart : [c].isPrefixOf (d :: (more ++ c :: rest)) = false := by simp [List.isPrefixOf, absent.1]
    rw [List.cons_append, splitFirst, noStart, ih absent.2]
    rfl

/-- The parts of a text between the occurrences of a separator that is not empty. -/
def pieces (separator text : String) : List String :=
  (text.split separator).toList.map String.Slice.copy

/-- Puts a text in front of each of the first `limit` characters, and at the end if there are fewer. -/
private def insertUpTo (limit : Nat) (inserted text : String) : String :=
  let cs := text.toList
  let front := (cs.take limit).foldl (fun out c => (out ++ inserted).push c) ""
  let rest := cs.drop limit
  rest.foldl String.push (if rest.isEmpty && cs.length < limit then front ++ inserted else front)

/-- The text with its first `limit` occurrences of `old` replaced. An empty `old` occurs in front of
every character and at the end. -/
def replaceUpTo (limit : Nat) (old new text : String) : String :=
  if old.isEmpty then insertUpTo limit new text
  else
    let parts := pieces old text
    if parts.length ≤ limit then new.intercalate parts
    else new.intercalate (parts.take limit ++ [old.intercalate (parts.drop limit)])

/-- The text with all occurrences of `old` replaced. -/
def replace (old new text : String) : String :=
  if old.isEmpty then insertUpTo (text.length + 1) new text else text.replace old new

/-- One row of the table of distances, from the row above it: `left` is the distance just computed,
the list starts with the diagonal one. -/
private def distanceRow (c : Char) : (left : Nat) → List Char → List Nat → List Nat
  | left, d :: ds, diagonal :: above :: row =>
    let here := min (min (above + 1) (left + 1)) (diagonal + if c = d then 0 else 1)
    here :: distanceRow c here ds (above :: row)
  | _, _, _ => []

/-- The least number of insertions, deletions and exchanges of a character that turn `a` into `b`. -/
def editDistance (a b : List Char) : Nat :=
  let start := List.range (b.length + 1)
  let last := a.foldl (fun row c =>
    let first := row.headD 0 + 1
    first :: distanceRow c first b row) start
  last.getLastD 0

end ConfigWeave.Text
