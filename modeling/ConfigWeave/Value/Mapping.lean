import ConfigWeave.Value.Basic

namespace ConfigWeave

/-- The entries of a mapping in order. -/
abbrev Mapping := List (Value × Value)

namespace Mapping

def get? (m : Mapping) (key : Value) : Option Value :=
  (m.find? fun entry => key == entry.1).map (·.2)

def contains (m : Mapping) (key : Value) : Bool :=
  m.any fun entry => key == entry.1

/-- Gives `key` the value. A key that is present keeps its place and its own form. -/
def insert : Mapping → Value → Value → Mapping
  | [], key, value => [(key, value)]
  | (k, v) :: rest, key, value =>
    if key == k then (k, value) :: rest else (k, v) :: insert rest key value

/-- Removes `key`, the others keep their order. -/
def erase : Mapping → Value → Mapping
  | [], _ => []
  | (k, v) :: rest, key => if key == k then rest else (k, v) :: erase rest key

/-- Inserts all entries in order. -/
def insertAll (m : Mapping) (entries : List (Value × Value)) : Mapping :=
  entries.foldl (fun m entry => insert m entry.1 entry.2) m

def ofList (entries : List (Value × Value)) : Mapping :=
  insertAll [] entries

/-- Adds the entries whose keys are not present. -/
def insertMissing (m : Mapping) (entries : List (Value × Value)) : Mapping :=
  entries.foldl (fun m entry => if contains m entry.1 then m else insert m entry.1 entry.2) m

theorem get?_nil (key : Value) : get? [] key = none := rfl

theorem get?_cons (k v : Value) (rest : Mapping) (key : Value) :
    get? ((k, v) :: rest) key = if key == k then some v else get? rest key := by
  by_cases h : (key == k) = true <;> simp [get?, h]

theorem contains_eq_isSome_get? (m : Mapping) (key : Value) : contains m key = (get? m key).isSome := by
  induction m with
  | nil => rfl
  | cons entry rest ih =>
    obtain ⟨k, v⟩ := entry
    rw [get?_cons]
    by_cases h : (key == k) = true
    · simp [contains, h]
    · simpa [contains, h] using ih

/-- An entry that is new stands behind the others. -/
theorem insert_of_not_contains {m : Mapping} {key value : Value} (h : contains m key = false) :
    insert m key value = m ++ [(key, value)] := by
  induction m with
  | nil => rfl
  | cons entry rest ih =>
    obtain ⟨k, v⟩ := entry
    simp only [contains, List.any_cons, Bool.or_eq_false_iff] at h
    simp [insert, h.1, ih h.2]

/-- Inserting a key that is present leaves the keys as they are. -/
theorem keys_insert_of_contains {m : Mapping} {key value : Value} (h : contains m key = true) :
    (insert m key value).map Prod.fst = m.map Prod.fst := by
  induction m with
  | nil => cases h
  | cons entry rest ih =>
    obtain ⟨k, v⟩ := entry
    by_cases eq : (key == k) = true
    · simp [insert, eq]
    · simp only [contains, List.any_cons, eq, Bool.false_or] at h
      simp [insert, eq, ih h]

end Mapping

namespace Value

/-- The value of a string key, if the value is a mapping. -/
def get? (v : Value) (key : String) : Option Value :=
  v.map?.bind fun entries => Mapping.get? entries (.str key)

/-- Follows string keys through nested mappings. -/
def pointer? (v : Value) (path : List String) : Option Value :=
  path.foldlM get? v

mutual
/-- The value without any tag. Keys that become equal are one entry, with the place of the first and
the value of the last. -/
def untagged : Value → Value
  | .tagged _ _ payload => payload.untagged
  | .seq items => .seq (untaggedItems items)
  | .map entries => .map (Mapping.ofList (untaggedEntries entries))
  | .null => .null
  | .bool b => .bool b
  | .int i => .int i
  | .float x => .float x
  | .str s => .str s
def untaggedItems : List Value → List Value
  | [] => []
  | v :: rest => v.untagged :: untaggedItems rest
def untaggedEntries : List (Value × Value) → List (Value × Value)
  | [] => []
  | (k, v) :: rest => (k.untagged, v.untagged) :: untaggedEntries rest
end

end Value

end ConfigWeave
